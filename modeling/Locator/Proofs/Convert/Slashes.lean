/-
Steps between slashes

* `Segment.written`: a step behind the slashes that its axis is written by;
* `behind_of_cutStep`, `of_mem_segmentsFrom`: a step is cut off in front of the first slash on the
  outside;
* `Leg.written_segment`: the slashes that are read are those that are written;
* `segments_lossless`: **the steps of a path** in normal form make it up again.
-/
import Locator.Proofs.Convert.Parts

namespace Locator.XPath

open Text Css

variable {s u v x : Text} {n : Nesting}

/-- A step behind the slashes of its axis. -/
def Segment.written (g : Segment) : Text := Chain.axis g.combinator ++ g.text

/-! ### Slashes inside a step -/

/-- Where a slash stands in a step that is cut off, a quotation mark or a bracket is open. -/
lemma behind_of_cutStep (h : (cutStep n s).1 = u ++ '/' :: v) :
    n.behind ['['] [']'] u ≠ .outside := by
  induction s generalizing n u with
  | nil => simp [cutStep] at h
  | cons c r ih =>
      rw [cutStep] at h
      split_ifs at h with hstop
      · simp at h
      · cases u with
        | nil =>
            obtain ⟨rfl, -⟩ := List.cons.inj h
            rintro rfl
            exact hstop rfl
        | cons b u =>
            obtain ⟨rfl, htail⟩ := List.cons.inj h
            exact ih (n := nextInStep n c) htail

/-- Every step is cut off some text, and it is not empty. -/
lemma of_mem_segmentsFrom {fuel : ℕ} {before : Combinator} {g : Segment}
    (h : g ∈ segmentsFrom fuel before s) :
    g.text ≠ [] ∧ ∃ t, g.text = (cutStep .outside t).1 := by
  induction fuel generalizing before s with
  | zero => cases s <;> simp [segmentsFrom] at h
  | succ fuel ih =>
      cases s with
      | nil => simp [segmentsFrom] at h
      | cons c r =>
          rw [segmentsFrom] at h
          dsimp only at h
          split_ifs at h with hempty
          · exact ih h
          · rcases List.mem_cons.mp h with rfl | h
            · exact ⟨by simpa using hempty, _, rfl⟩
            · exact ih h

/-! ### Slashes in front of a step -/

/-- Between runs that are not shortened a step is written as it is read. -/
lemma Leg.written_segment {g : Leg} (hg : g.IsProper) (h : squeeze g.written = g.written) :
    g.segment.written = g.written := by
  rw [← h, Leg.written, squeeze_replicate hg.pos hg.head]
  rfl

/-- A path in normal form that starts with a slash is made of steps behind slashes, and these are
read in no more rounds than it has characters. -/
lemma exists_legs (hx : x.head? = some '/') (hn : normalize x = x) : ∃ legs : List Leg,
    x = legs.flatMap Leg.written ∧ (∀ g ∈ legs, g.IsProper) ∧
      ∀ rounds, x.length ≤ rounds → segmentsFrom rounds .descendant x = legs.map Leg.segment := by
  have hsqueeze : squeeze x = x := by rw [← hn, normalize_eq, squeeze_squeeze]
  have hhead : ∀ c ∈ x.head?, c = '/' := by simp [hx]
  obtain ⟨legs, k, htext, hlegs, hread⟩ := segmentsFrom_squeeze hhead
  rw [hsqueeze] at hread
  -- A run of slashes at the end would have been stripped.
  obtain rfl : k = 0 := by
    by_contra hk
    obtain ⟨j, rfl⟩ := Nat.exists_eq_succ_of_ne_zero hk
    have hlast : x.getLast? = some '/' := by
      rw [htext, List.replicate_succ', ← List.append_assoc, List.getLast?_concat]
    have hend := getLast?_normalize x '/' (by rw [hn]; exact hlast)
    exact absurd hend (by decide)
  rw [List.replicate_zero, List.append_nil] at htext
  exact ⟨legs, htext, hlegs, fun rounds => hread rounds .descendant⟩

/-- **The steps of a path** in normal form that starts with a slash, each behind the slashes of
its axis, make the path up again. More rounds than the path has characters read nothing more. No
step is empty, and where a slash stands in one, a quotation mark or a bracket is open. -/
theorem segments_lossless (hx : x.head? = some '/') (hn : normalize x = x) :
    (segments x).flatMap Segment.written = x ∧
      (∀ rounds, x.length ≤ rounds → segmentsFrom rounds .descendant x = segments x) ∧
      ∀ g ∈ segments x, g.text ≠ [] ∧ ∀ u v, g.text = u ++ '/' :: v →
        Nesting.outside.behind ['['] [']'] u ≠ .outside := by
  obtain ⟨legs, htext, hlegs, hread⟩ := exists_legs hx hn
  have hsegments : segments x = legs.map Leg.segment := hread _ le_rfl
  have hsqueeze : squeeze x = x := by rw [← hn, normalize_eq, squeeze_squeeze]
  refine ⟨?_, fun rounds hr => (hread rounds hr).trans hsegments.symm, fun g hg => ?_⟩
  · rw [hsegments, List.flatMap_map]
    refine Eq.trans (List.flatMap_congr fun g hg => ?_) htext.symm
    have hinfix : g.written <:+: x := htext ▸ List.infix_of_mem_flatten (List.mem_map_of_mem hg)
    have hkept : squeeze g.written = g.written := squeeze_of_infix hsqueeze hinfix
    exact Leg.written_segment (hlegs g hg) hkept
  · obtain ⟨hne, t, ht⟩ := of_mem_segmentsFrom hg
    refine ⟨hne, fun u v huv => ?_⟩
    rw [ht] at huv
    exact behind_of_cutStep huv

/-- A quoted slash, one in brackets, and a bracket that closes nothing. -/
theorem segments_lossless_quoted :
    "//a[b/c]/d]='/'//e".toList.head? = some '/' ∧
      normalize "//a[b/c]/d]='/'//e".toList = "//a[b/c]/d]='/'//e".toList ∧
      segments "//a[b/c]/d]='/'//e".toList = [⟨.descendant, "a[b/c]".toList⟩,
        ⟨.child, "d]='/'".toList⟩, ⟨.descendant, "e".toList⟩] ∧
      (segments "//a[b/c]/d]='/'//e".toList).flatMap Segment.written =
        "//a[b/c]/d]='/'//e".toList := by
  have hhead : "//a[b/c]/d]='/'//e".toList.head? = some '/' := by decide
  have hnormal : normalize "//a[b/c]/d]='/'//e".toList = "//a[b/c]/d]='/'//e".toList := by decide
  exact ⟨hhead, hnormal, by decide, (segments_lossless hhead hnormal).1⟩

end Locator.XPath
