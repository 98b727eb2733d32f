/-
Splitting on the outside

* `Nesting.behind`: the nesting behind a text;
* `Splits`, `splits_splitTop`: how a text is split, one character or one separator at a time;
* `Splits.join`: the parts make the text up again; `Splits.isWhole`, `Splits.closed`: no part
  holds a separator on the outside, and none but the last leaves anything open;
* `splitTop_lossless`: **splitting** loses nothing, and there is nothing left to split.
-/
import Locator.Proofs.Text.Nesting

namespace Locator.Text

variable {sep s p : Text} {c : Char} {n : Nesting} {parts ps : List Text}

/-! ### Where a place stands -/

namespace Nesting

/-- The nesting behind a text. -/
def behind (opening closing : Text) (n : Nesting) (s : Text) : Nesting :=
  s.foldl (next opening closing) n

/-- Free characters stand outside, and are neither quotation marks nor brackets. -/
lemma isFree_iff {opening closing : Text} : n.isFree opening closing c = true ↔
    n = .outside ∧ isQuote c = false ∧ c ∉ opening ∧ c ∉ closing := by
  obtain ⟨depth, quote⟩ := n
  simp only [isFree, outside, Nesting.mk.injEq, Bool.and_eq_true, Option.isNone_iff_eq_none,
    beq_iff_eq, Bool.not_eq_true', List.contains_eq_mem, decide_eq_false_iff_not]
  tauto

end Nesting

/-! ### How a text is split -/

/-- **A text is split** from its front on. Where a separator stands and its first character is
free, it ends a part and is passed over; any other character belongs to the part. -/
inductive Splits (sep : Text) : Nesting → Text → List Text → Prop
  | nil (n : Nesting) : Splits sep n [] [[]]
  | cut {n : Nesting} {c : Char} {r t : Text} {ps : List Text}
      (hc : n.isFree opening closing c = true) (hsep : sep ++ t = c :: r) (h : Splits sep n t ps) :
      Splits sep n (c :: r) ([] :: ps)
  | pass {n : Nesting} {c : Char} {r p : Text} {ps : List Text}
      (hc : n.isFree opening closing c = true → ¬ sep <+: c :: r)
      (h : Splits sep (n.next opening closing c) r (p :: ps)) :
      Splits sep n (c :: r) ((c :: p) :: ps)

/-- There is a part at least. -/
lemma splitTopFrom_ne_nil (sep : Text) (skip : ℕ) (n : Nesting) (s : Text) :
    splitTopFrom sep skip n s ≠ [] := by
  induction s generalizing skip n with
  | nil => cases skip <;> exact List.cons_ne_nil _ _
  | cons c r ih =>
      cases skip with
      | succ skip => exact ih skip n
      | zero =>
          rw [splitTopFrom]
          split_ifs
          · exact List.cons_ne_nil _ _
          · cases splitTopFrom sep 0 (n.next opening closing c) r <;> exact List.cons_ne_nil _ _

/-- A text is split so. -/
lemma splits_splitTopFrom (hsep : sep ≠ []) (n : Nesting) (s : Text) :
    Splits sep n s (splitTopFrom sep 0 n s) := by
  -- Behind a separator the rest of the text is shorter by more than one character.
  induction hk : s.length using Nat.strong_induction_on generalizing n s with
  | _ k ih =>
      cases s with
      | nil => exact .nil n
      | cons c r =>
          rw [List.length_cons] at hk
          rw [splitTopFrom]
          split_ifs with hcut
          · rw [Bool.and_eq_true, List.isPrefixOf_iff_prefix] at hcut
            obtain ⟨hfree, t, ht⟩ := hcut
            obtain ⟨d, more, rfl⟩ := List.exists_cons_of_ne_nil hsep
            rw [List.cons_append] at ht
            obtain ⟨-, hr⟩ := List.cons.inj ht
            have hlen := congrArg List.length hr
            rw [List.length_append] at hlen
            have hskip : splitTopFrom (d :: more) more.length n r =
                splitTopFrom (d :: more) 0 n t := by
              rw [← hr, splitTopFrom_skip]
            rw [List.length_cons, Nat.add_sub_cancel, hskip]
            exact .cut hfree ht (ih t.length (by omega) n t rfl)
          · have hrest := ih r.length (by omega) (n.next opening closing c) r rfl
            obtain ⟨p, ps, hps⟩ := List.exists_cons_of_ne_nil
              (splitTopFrom_ne_nil sep 0 (n.next opening closing c) r)
            rw [hps] at hrest ⊢
            refine .pass (fun hfree hprefix => hcut ?_) hrest
            rw [hfree, List.isPrefixOf_iff_prefix.mpr hprefix, Bool.and_self]

lemma splits_splitTop (hsep : sep ≠ []) (s : Text) : Splits sep .outside s (splitTop sep s) :=
  splits_splitTopFrom hsep .outside s

/-! ### What the parts are -/

/-- A text behind a nesting holds no separator whose first character is free. -/
def IsWhole (sep : Text) (n : Nesting) (p : Text) : Prop :=
  ∀ u v, p = u ++ (sep ++ v) →
    ∀ c ∈ sep.head?, (n.behind opening closing u).isFree opening closing c = false

lemma isWhole_nil (hsep : sep ≠ []) (n : Nesting) : IsWhole sep n [] := by
  intro u v h
  simp [hsep] at h

/-- A character in front of a whole text starts no separator there or belongs to the part. -/
lemma IsWhole.cons (h : IsWhole sep (n.next opening closing c) p)
    (hc : n.isFree opening closing c = true → ¬ sep <+: c :: p) : IsWhole sep n (c :: p) := by
  intro u v heq d hd
  cases u with
  | nil =>
      rw [List.nil_append] at heq
      obtain ⟨more, rfl⟩ : ∃ more, sep = d :: more := ⟨sep.tail, List.eq_cons_of_mem_head? hd⟩
      obtain ⟨rfl, -⟩ := List.cons.inj heq
      exact Bool.eq_false_iff.mpr fun hfree => hc hfree ⟨v, heq.symm⟩
  | cons b u =>
      obtain ⟨rfl, hp⟩ := List.cons.inj heq
      exact h u v hp d hd

namespace Splits

lemma exists_cons (h : Splits sep n s parts) : ∃ p ps, parts = p :: ps := by
  cases h <;> exact ⟨_, _, rfl⟩

/-- The parts make the text up again. -/
lemma join (h : Splits sep n s parts) : join sep parts = s := by
  induction h with
  | nil => exact join_singleton sep []
  | cut _ hsep h ih =>
      obtain ⟨p, ps, rfl⟩ := h.exists_cons
      rw [join_cons_cons, ih, List.nil_append, hsep]
  | pass _ _ ih =>
      rw [join_cons] at ih ⊢
      exact congrArg (_ :: ·) ih

/-- The first part starts the text and is whole, and so are the others, on the outside. -/
lemma isWhole (hsep : sep ≠ []) (h : Splits sep n s parts) : ∃ p ps, parts = p :: ps ∧
    p <+: s ∧ IsWhole sep n p ∧ ∀ q ∈ ps, IsWhole sep .outside q := by
  induction h with
  | nil n => exact ⟨[], [], rfl, List.prefix_rfl, isWhole_nil hsep n, by simp⟩
  | cut hc _ _ ih =>
      obtain ⟨p, ps, rfl, -, hp, hps⟩ := ih
      rw [(Nesting.isFree_iff.mp hc).1] at hp ⊢
      have hall := List.forall_mem_cons.mpr ⟨hp, hps⟩
      exact ⟨[], p :: ps, rfl, List.nil_prefix, isWhole_nil hsep _, hall⟩
  | @pass n c r p ps hc _ ih =>
      obtain ⟨p', ps', heq, hprefix, hp, hps⟩ := ih
      obtain ⟨rfl, rfl⟩ := List.cons.inj heq
      have hprefix : c :: p <+: c :: r := List.prefix_cons_inj c |>.mpr hprefix
      exact ⟨c :: p, ps, rfl, hprefix, hp.cons fun hfree h => hc hfree (h.trans hprefix), hps⟩

/-- A part that is not the last one leaves nothing open. -/
lemma closed (h : Splits sep n s parts) : ∃ p ps, parts = p :: ps ∧
    (ps ≠ [] → n.behind opening closing p = .outside) ∧
      ∀ q ∈ ps.dropLast, Nesting.outside.behind opening closing q = .outside := by
  induction h with
  | nil n => exact ⟨[], [], rfl, by simp, by simp⟩
  | cut hc _ _ ih =>
      obtain ⟨p, ps, rfl, hp, hps⟩ := ih
      obtain ⟨rfl, -⟩ := Nesting.isFree_iff.mp hc
      refine ⟨[], p :: ps, rfl, fun _ => rfl, ?_⟩
      cases ps with
      | nil => simp
      | cons q ps =>
          rw [List.dropLast_cons_cons, List.forall_mem_cons]
          exact ⟨hp (List.cons_ne_nil q ps), hps⟩
  | pass _ _ ih =>
      obtain ⟨p', ps', heq, hp, hps⟩ := ih
      obtain ⟨rfl, rfl⟩ := List.cons.inj heq
      exact ⟨_, _, rfl, hp, hps⟩

end Splits

/-- **A whole text** is one part. -/
theorem splitTopFrom_of_isWhole (hsep : sep ≠ []) (h : IsWhole sep n p) :
    splitTopFrom sep 0 n p = [p] := by
  induction p generalizing n with
  | nil => rfl
  | cons c r ih =>
      have hrest : IsWhole sep (n.next opening closing c) r := fun u v heq =>
        h (c :: u) v (congrArg (c :: ·) heq)
      have hcut : ¬ (n.isFree opening closing c && sep.isPrefixOf (c :: r)) = true := by
        rw [Bool.and_eq_true, List.isPrefixOf_iff_prefix]
        rintro ⟨hfree, v, hv⟩
        obtain ⟨d, more, rfl⟩ := List.exists_cons_of_ne_nil hsep
        obtain rfl : d = c := (List.cons.inj hv).1
        exact Bool.false_ne_true ((h [] v hv.symm d rfl).symm.trans hfree)
      rw [splitTopFrom, if_neg hcut, ih hrest]
      rfl

/-! ### Splitting -/

lemma join_splitTopFrom (hsep : sep ≠ []) (n : Nesting) (s : Text) :
    join sep (splitTopFrom sep 0 n s) = s :=
  (splits_splitTopFrom hsep n s).join

/-- **The parts of a text** make it up again. -/
theorem join_splitTop (hsep : sep ≠ []) (s : Text) : join sep (splitTop sep s) = s :=
  join_splitTopFrom hsep .outside s

/-- **Splitting** loses nothing: the parts, with the separator between each two of them, make the
text up again. There is nothing left to split: no part holds a separator on the outside, so that
it is its own only part. And nothing else is split: every part but the last leaves no quotation
mark and no bracket open. -/
theorem splitTop_lossless (hsep : sep ≠ []) (s : Text) :
    join sep (splitTop sep s) = s ∧
      (∀ p ∈ splitTop sep s, splitTop sep p = [p] ∧ IsWhole sep .outside p) ∧
      ∀ p ∈ (splitTop sep s).dropLast, Nesting.outside.behind opening closing p = .outside := by
  have hsplits := splits_splitTop hsep s
  refine ⟨hsplits.join, fun p hp => ?_, fun p hp => ?_⟩
  · obtain ⟨q, qs, heq, -, hq, hqs⟩ := hsplits.isWhole hsep
    rw [heq] at hp
    have hwhole : IsWhole sep .outside p := by
      rcases List.mem_cons.mp hp with rfl | hp
      · exact hq
      · exact hqs p hp
    exact ⟨splitTopFrom_of_isWhole hsep hwhole, hwhole⟩
  · obtain ⟨q, qs, heq, hq, hqs⟩ := hsplits.closed
    rw [heq] at hp
    cases qs with
    | nil => simp at hp
    | cons q' qs =>
        rcases List.mem_cons.mp hp with rfl | hp
        · exact hq (List.cons_ne_nil q' qs)
        · exact hqs p hp

/-- Brackets of different kinds close each other, one that closes nothing does not count, and the
bracket that stays open hides the last separator. -/
theorem splitTop_lossless_unbalanced :
    " and ".toList ≠ [] ∧ splitTop " and ".toList "@a=' and ' and (b and c]) and d[e and f".toList =
        ["@a=' and '".toList, "(b and c])".toList, "d[e and f".toList] ∧
      splitTop " and ".toList "d[e and f".toList = ["d[e and f".toList] := by
  have hparts : splitTop " and ".toList "@a=' and ' and (b and c]) and d[e and f".toList =
      ["@a=' and '".toList, "(b and c])".toList, "d[e and f".toList] := by decide
  have hsep : " and ".toList ≠ [] := by decide
  obtain ⟨-, hwhole, -⟩ := splitTop_lossless hsep "@a=' and ' and (b and c]) and d[e and f".toList
  exact ⟨hsep, hparts, (hwhole _ (by rw [hparts]; simp)).1⟩

end Locator.Text
