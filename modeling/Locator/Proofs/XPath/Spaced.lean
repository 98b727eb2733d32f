/-
Expressions with blanks between their parts

* `IsSpaces`, `Ends.spaces`, `Sign.spaces`: blanks belong to the end of an operand and to the
  signs around it;
* `Reads.trail`: **blanks behind a text** do not count;
* `ReadsBehind`: a text that is read behind blanks, with `ReadsBehind.join`: operands with
  blanks around them and one sign between each two of them.
-/
import Locator.Proofs.XPath.Level

namespace Locator.XPath

variable {n k : ℕ} {s u bs rest sign : Text} {op : Operator} {e f : Expr} {ss : List Text}
  {es : List Expr}

/-! ### Blanks -/

/-- A text of XML blanks, perhaps without any. -/
def IsSpaces (s : Text) : Prop := ∀ c ∈ s, Text.isSpace c = true

lemma isSpaces_nil : IsSpaces [] := by simp [IsSpaces]

lemma IsSpaces.append (h : IsSpaces s) (hb : IsSpaces bs) : IsSpaces (s ++ bs) :=
  List.forall_mem_append.mpr ⟨h, hb⟩

/-- Blanks in front do not count. -/
lemma blanks_spaces (hb : IsSpaces bs) (r : Text) : blanks (bs ++ r) = blanks r :=
  List.dropWhile_append_of_pos hb

lemma goesOn_of_isSpace {c : Char} (h : Text.isSpace c = true) : goesOn c = false := by
  simp only [Text.isSpace, Bool.or_eq_true, beq_iff_eq] at h
  obtain ((rfl | rfl) | rfl) | rfl := h <;> rfl

/-- Neither does a name go on with a blank. -/
lemma goesOn_spaces (hb : IsSpaces bs) (h : ∀ c ∈ rest.head?, goesOn c = false) :
    ∀ c ∈ (bs ++ rest).head?, goesOn c = false := by
  cases bs with
  | nil => exact h
  | cons b bs =>
      rintro _ ⟨rfl⟩
      exact goesOn_of_isSpace (hb b List.mem_cons_self)

lemma EndsStep.spaces (h : EndsStep rest) (hb : IsSpaces bs) : EndsStep (bs ++ rest) where
  word := goesOn_spaces hb h.word
  step := by
    rw [blanks_spaces hb]
    exact h.step

lemma Ends.spaces (h : Ends k rest) (hb : IsSpaces bs) : Ends k (bs ++ rest) where
  toEndsStep := h.toEndsStep.spaces hb
  slash := by
    rw [blanks_spaces hb]
    exact h.slash
  signs := by
    rw [blanks_spaces hb]
    exact h.signs

/-- **Blanks around a sign** belong to it. -/
lemma Sign.spaces (h : Sign k op sign) {bs' : Text} (hb : IsSpaces bs) (hb' : IsSpaces bs') :
    Sign k op (bs ++ (sign ++ bs')) where
  ends r := by
    rw [List.append_assoc, List.append_assoc]
    exact (h.ends _).spaces hb
  reads r := by
    obtain ⟨r', hsign, hr', hlen⟩ := h.reads (bs' ++ r)
    rw [List.append_assoc, List.append_assoc, blanks_spaces hb]
    exact ⟨r', hsign, hr'.trans (blanks_spaces hb' r), hlen⟩

/-! ### Operands with blanks around them -/

/-- **Blanks behind a text** do not count. -/
lemma Reads.trail (h : Reads n k s e) (hb : IsSpaces bs) : Reads n k (s ++ bs) e where
  starts := h.starts.append bs
  reads d hd rest hr := by
    rw [List.append_assoc, h.reads d hd _ (hr.spaces hb), blanks_spaces hb]

/-- A text that is read as an expression behind the blanks in front. -/
def ReadsBehind (n k : ℕ) (s : Text) (e : Expr) : Prop :=
  ∃ bs u, IsSpaces bs ∧ Reads n k u e ∧ s = bs ++ u

lemma Reads.behind (h : Reads n k s e) : ReadsBehind n k s e := ⟨[], s, isSpaces_nil, h, rfl⟩

lemma ReadsBehind.lift {m j : ℕ} (h : ReadsBehind n j s e) (hnm : n ≤ m)
    (hjk : j ≤ k) : ReadsBehind m k s e := by
  obtain ⟨bs, u, hb, hu, rfl⟩ := h
  exact ⟨bs, u, hb, hu.lift hnm hjk, rfl⟩

/-- Blanks around a text do not count. -/
lemma ReadsBehind.spaces (h : ReadsBehind n k s e) {bs' : Text} (hb : IsSpaces bs)
    (hb' : IsSpaces bs') : ReadsBehind n k (bs ++ (s ++ bs')) e := by
  obtain ⟨bs'', u, hb'', hu, rfl⟩ := h
  exact ⟨bs ++ bs'', u ++ bs', hb.append hb'', hu.trail hb', by simp only [List.append_assoc]⟩

/-- The blanks in front are passed over. -/
lemma ReadsBehind.exists_blanks (h : ReadsBehind n k s e) :
    ∃ u, Reads n k u e ∧ ∀ rest, blanks (s ++ rest) = u ++ rest := by
  obtain ⟨bs, u, hb, hu, rfl⟩ := h
  refine ⟨u, hu, fun rest => ?_⟩
  rw [List.append_assoc, blanks_spaces hb, (hu.starts.append rest).blanks_eq]

/-- Further operands with blanks around them, each behind the same sign. -/
lemma Tail.ofBehind {d : ℕ} (hop : Sign k op sign) (hd : n ≤ d)
    (h : List.Forall₂ (ReadsBehind n k) ss es) (e : Expr) :
    Tail (exprAt? d) k (ss.flatMap (sign ++ ·)) e (es.foldl (.binary op) e) := by
  induction h generalizing e with
  | nil => exact .nil e
  | @cons s f ss es hs _ ih =>
      obtain ⟨bs, u, hb, hu, rfl⟩ := hs
      have hsign : Sign k op (sign ++ bs) := hop.spaces isSpaces_nil hb
      have htext : ((bs ++ u) :: ss).flatMap (sign ++ ·) =
          sign ++ bs ++ u ++ ss.flatMap (sign ++ ·) := by
        simp only [List.flatMap_cons, List.append_assoc]
      rw [htext]
      exact .cons hsign hu.starts (hu.reads d hd) (ih _)

/-- **Operands with blanks around them** and one sign between each two of them are joined
from the left. -/
theorem ReadsBehind.join (hop : Sign k op sign) (hs : ReadsBehind n k s e)
    (hss : List.Forall₂ (ReadsBehind n k) ss es) :
    ReadsBehind n (k + 1) (Text.join sign (s :: ss)) (es.foldl (.binary op) e) := by
  obtain ⟨bs, u, hb, hu, rfl⟩ := hs
  refine ⟨bs, u ++ ss.flatMap (sign ++ ·), hb, ⟨hu.starts.append _, fun d hd rest hr => ?_⟩, ?_⟩
  · have ht := Tail.ofBehind hop hd hss e
    exact readerAt_tail hu.starts (hu.reads d hd _ (ht.ends hr)) ht hr
  · rw [Text.join_cons, List.append_assoc]

end Locator.XPath
