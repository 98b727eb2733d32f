/-
Texts that close what they open

* `Marks`: the quotation marks and the brackets that count in a text, and the characters that
  part it outside of them;
* `Marks.Closes`: a text closes the brackets that are open in front of it and all that it opens
  itself, and nothing parts it on the outside;
* `Marks.around`, `Marks.Closes.passes`: the marks that count around a separator, and **a text
  that closes what it opens** holds no separator on the outside.
-/
import Locator.Proofs.Text.Nesting

namespace Locator.Text

/-- The quotation marks and the brackets that count in a text, and what parts it outside of
them. -/
structure Marks where
  quotes : Text
  opening : Text
  closing : Text
  parts : Char → Bool

namespace Marks

variable {m : Marks} {k : ℕ} {u v : Text}

/-- Does a character neither quote nor count, and does it not part a text at a depth of
brackets? -/
structure IsPlain (m : Marks) (k : ℕ) (c : Char) : Prop where
  quotes : c ∉ m.quotes
  opening : c ∉ m.opening
  closing : c ∉ m.closing
  parts : k = 0 → m.parts c = false

instance (m : Marks) (k : ℕ) (c : Char) : Decidable (m.IsPlain k c) :=
  decidable_of_iff
    (c ∉ m.quotes ∧ c ∉ m.opening ∧ c ∉ m.closing ∧ (k = 0 → m.parts c = false))
    ⟨fun ⟨hq, ho, hc, hp⟩ => ⟨hq, ho, hc, hp⟩, fun ⟨hq, ho, hc, hp⟩ => ⟨hq, ho, hc, hp⟩⟩

/-- **A text closes** the brackets that are open in front of it and those that it opens; brackets
are counted, whatever their kinds. Between two equal quotation marks everything stands for
itself, and no character parts the text outside quotation marks and brackets. -/
inductive Closes (m : Marks) : ℕ → Text → Prop
  | nil : Closes m 0 []
  | quoted {k : ℕ} {q : Char} {v u : Text} (hq : q ∈ m.quotes) (hv : q ∉ v) (h : Closes m k u) :
      Closes m k (q :: (v ++ q :: u))
  | opens {k : ℕ} {c : Char} {u : Text} (hc : c ∈ m.opening) (h : Closes m (k + 1) u) :
      Closes m k (c :: u)
  | closes {k : ℕ} {c : Char} {u : Text} (hc : c ∈ m.closing) (h : Closes m k u) :
      Closes m (k + 1) (c :: u)
  | plain {k : ℕ} {c : Char} {u : Text} (hc : m.IsPlain k c) (h : Closes m k u) :
      Closes m k (c :: u)

/-- Plain characters in front of a text change nothing. -/
lemma Closes.run (hv : ∀ c ∈ v, m.IsPlain k c) (h : m.Closes k u) : m.Closes k (v ++ u) := by
  induction v with
  | nil => exact h
  | cons c v ih =>
      rw [List.forall_mem_cons] at hv
      exact .plain hv.1 (ih hv.2)

/-- A text of plain characters opens nothing. -/
lemma closes_of_isPlain (h : ∀ c ∈ u, m.IsPlain 0 c) : m.Closes 0 u := by
  have hclosed := Closes.run h .nil
  rwa [List.append_nil] at hclosed

/-- What closes its own brackets may stand in front of what closes others. -/
lemma Closes.append {j : ℕ} (hu : m.Closes j u) (hv : m.Closes k v) :
    m.Closes (j + k) (u ++ v) := by
  induction hu with
  | nil => rwa [Nat.zero_add]
  | quoted hq hw _ ih =>
      rw [List.cons_append, List.append_assoc, List.cons_append]
      exact .quoted hq hw ih
  | opens hc _ ih =>
      rw [Nat.add_right_comm] at ih
      exact .opens hc ih
  | closes hc _ ih =>
      rw [Nat.add_right_comm]
      exact .closes hc ih
  | @plain j c u hc _ ih =>
      have hparts : j + k = 0 → m.parts c = false := fun hzero =>
        hc.parts (Nat.add_eq_zero_iff.mp hzero).1
      exact .plain { hc with parts := hparts } ih

/-! ### Where separators are looked for -/

/-- The marks that count where a separator is looked for. -/
def around (sep : Char) : Marks := ⟨['"', '\''], Text.opening, Text.closing, (· == sep)⟩

lemma isQuote_iff {q : Char} : isQuote q = true ↔ q ∈ ['"', '\''] := by
  simp [isQuote]

/-- **A text that closes what it opens** holds no separator on the outside, and what is behind
it stands on the outside again. -/
theorem Closes.passes {sep : Char} (hsep : Nesting.outside.isFree Text.opening Text.closing sep)
    (h : (around sep).Closes k u) : (separators sep).Passes ⟨k, none⟩ u .outside := by
  simp only [Nesting.isFree, Bool.and_eq_true, Bool.not_eq_true'] at hsep
  obtain ⟨⟨⟨-, hquote⟩, hopening⟩, hclosing⟩ := hsep
  have hopens : ∀ c ∈ Text.opening, isQuote c = false := by decide
  have hcloses : ∀ c ∈ Text.closing, isQuote c = false ∧ Text.opening.contains c = false := by
    decide
  induction h with
  | nil => exact .nil _
  | @quoted k q v u hq hv _ ih =>
      have hmark : isQuote q = true := isQuote_iff.mpr hq
      have hne : sep ≠ q := by
        rintro rfl
        simp [hquote] at hmark
      have hliteral : (separators sep).Passes ⟨k, none⟩ (q :: v ++ [q]) ⟨k, none⟩ :=
        .literal hmark hv hne
      simpa using hliteral.append ih
  | @opens k c u hc _ ih =>
      have hopen : Text.opening.contains c = true := List.contains_iff_mem.mpr hc
      have hne : c ≠ sep := by
        rintro rfl
        exact Bool.false_ne_true (hopening.symm.trans hopen)
      exact (Scan.Passes.opens (w := separators sep) hopen (hopens c hc) hne).append ih
  | @closes k c u hc _ ih =>
      have hclose : Text.closing.contains c = true := List.contains_iff_mem.mpr hc
      obtain ⟨hmark, hopen⟩ := hcloses c hc
      exact (Scan.Passes.closes (w := separators sep) hclose hopen hmark
        fun _ => Nat.succ_ne_zero k).append ih
  | @plain k c u hc _ ih =>
      have hkeeps : (separators sep).keeps c = true := by
        have hmark : isQuote c = false :=
          Bool.eq_false_iff.mpr fun h => hc.quotes (isQuote_iff.mp h)
        have hopen : Text.opening.contains c = false :=
          Bool.eq_false_iff.mpr fun h => hc.opening (List.contains_iff_mem.mp h)
        have hclose : Text.closing.contains c = false :=
          Bool.eq_false_iff.mpr fun h => hc.closing (List.contains_iff_mem.mp h)
        rw [Scan.keeps, hmark, separators, hopen, hclose]
        rfl
      have hstop : c = sep → k ≠ 0 := fun heq hk => by simpa [around, heq] using hc.parts hk
      exact (Scan.Passes.plain (List.forall_mem_singleton.mpr ⟨hkeeps, hstop⟩)).append ih

end Marks

end Locator.Text
