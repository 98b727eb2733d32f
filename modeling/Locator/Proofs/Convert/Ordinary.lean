/-
Ordinary expressions

* `IsTidy`: a closed text with all its slashes in literals, and `squeeze_eq_self_of_isTidy`: it
  is not a shortened one;
* `IsOrdinary`: **ordinary expressions**: ASCII outside of literals, nothing that needs escapes
  and no runs of slashes inside them, with positions or without, with `IsOrdinary.left` and
  `IsOrdinary.right`: the parts of an ordinary text are ordinary.
-/
import Locator.Proofs.Convert.Read
import Locator.Proofs.XPath.Token

namespace Locator.XPath

open Text Css

variable {s u v w a b bs : Text} {c q : Char} {placed : Bool}

/-! ### Slashes in literals -/

/-- A closed text with all its slashes in literals. -/
abbrev IsTidy (s : Text) : Prop := Outside (· ≠ '/') s

/-- A literal is tidy. -/
lemma isTidy_literal (hq : isQuote q = true) (hv : q ∉ v) : IsTidy (q :: v ++ [q]) :=
  .literal hq (by rintro rfl; exact absurd hq (by decide)) hv

/-- What becomes a tidy text where runs of slashes are shortened is that text, unless a
literal holds such a run. -/
lemma squeezeFrom_eq_self_of_inside {m : Option Char} {k : ℕ} (hm : m ≠ some '/') (hk : k ≤ 2)
    (hopen : 0 < k → m ≠ none)
    (hs : ∀ a w, squeezeFrom k u = a ++ '/' :: w → openMark m a ≠ none)
    (hr : ∀ a w, List.replicate k '/' ++ u = a ++ (slashes ++ w) → openMark m a = none) :
    squeezeFrom k u = u := by
  induction u generalizing m k with
  | nil => rfl
  | cons c u ih =>
      have hslash := nextMark_slash hm
      have hrun : ∀ k a, openMark m (List.replicate k '/' ++ a) = openMark m a := by
        intro k a
        induction k with
        | zero => rfl
        | succ k ih => rw [List.replicate_succ, List.cons_append, openMark_cons, hslash, ih]
      by_cases hc : c = '/'
      · subst hc
        have hsucc : List.replicate k '/' ++ '/' :: u = List.replicate (k + 1) '/' ++ u := by
          rw [List.replicate_succ', List.append_assoc]
          rfl
        rw [hsucc] at hr
        by_cases hlt : k < 2
        · have hsqueeze : squeezeFrom k ('/' :: u) = '/' :: squeezeFrom (k + 1) u := by
            rw [squeezeFrom, if_pos (beq_self_eq_true _), if_pos hlt]
          rw [hsqueeze] at hs ⊢
          refine congrArg ('/' :: ·) (ih hm (by omega) (fun _ => hs [] _ rfl) (fun a w ha => ?_) hr)
          have hall := hs ('/' :: a) w (congrArg ('/' :: ·) ha)
          rwa [openMark_cons, hslash] at hall
        · -- The run goes on in the literal where it started.
          obtain rfl : k = 2 := by omega
          exact absurd (hr [] u rfl) (hopen (by decide))
      · have hsqueeze : squeezeFrom k (c :: u) = c :: squeezeFrom 0 u := by
          rw [squeezeFrom, if_neg (by simpa using hc)]
        rw [hsqueeze] at hs ⊢
        refine congrArg (c :: ·) (ih (nextMark_ne_slash hm hc) (Nat.zero_le 2) (fun h => absurd h (lt_irrefl 0))
          (fun a w ha => ?_) fun a w ha => ?_)
        · exact hs (c :: a) w (congrArg (c :: ·) ha)
        · have hall := hr (List.replicate k '/' ++ c :: a) w (by
            rw [List.replicate_zero, List.nil_append] at ha
            rw [ha, List.append_assoc, List.cons_append])
          rwa [hrun] at hall

/-- **A text is not shortened** if the shortened one is tidy and no literal holds a run of
slashes. -/
theorem squeeze_eq_self_of_isTidy (h : IsTidy (squeeze u))
    (hr : ∀ a w, u = a ++ (slashes ++ w) → IsClosed a) : squeeze u = u :=
  squeezeFrom_eq_self_of_inside (m := none) (by simp) (Nat.zero_le 2)
    (fun h => absurd h (lt_irrefl 0)) (fun a w ha hnone => h.chars a '/' w ha hnone rfl) hr

/-! ### Ordinary expressions -/

/-- **An ordinary expression**: names and all else outside of literals is ASCII, and literals
hold no backslashes, no line breaks and no runs of slashes that are shortened. Unless it is
`placed`, there is no `position()`. -/
structure IsOrdinary (placed : Bool) (x : Text) : Prop where
  xml : isXmlText x = true
  ascii : ∀ u c w, x = u ++ c :: w → IsClosed u → c.toNat < 128
  unplaced : placed = false → ∀ u w, x = u ++ ("position()".toList ++ w) → ¬ IsClosed u
  unescaped : ∀ u c w, x = u ++ c :: w → ¬ IsClosed u → c ≠ '\\' ∧ isBreak c = false
  short : ∀ u w, x = u ++ (slashes ++ w) → IsClosed u

namespace IsOrdinary

lemma left (h : IsOrdinary placed (a ++ b)) : IsOrdinary placed a where
  xml := (Bool.and_eq_true_iff.mp (isXmlText_append.symm.trans h.xml)).1
  ascii u c w heq := h.ascii u c (w ++ b) (by rw [heq]; simp)
  unplaced hp u w heq := h.unplaced hp u (w ++ b) (by rw [heq]; simp)
  unescaped u c w heq := h.unescaped u c (w ++ b) (by rw [heq]; simp)
  short u w heq := h.short u (w ++ b) (by rw [heq]; simp)

lemma right (h : IsOrdinary placed (a ++ b)) (ha : IsClosed a) : IsOrdinary placed b where
  xml := (Bool.and_eq_true_iff.mp (isXmlText_append.symm.trans h.xml)).2
  ascii u c w heq hu := h.ascii (a ++ u) c w (by rw [heq]; simp) (ha.append hu)
  unplaced hp u w heq := by
    have hu := h.unplaced hp (a ++ u) w (by rw [heq, List.append_assoc])
    rwa [ha.append_iff] at hu
  unescaped u c w heq hu := h.unescaped (a ++ u) c w (by rw [heq]; simp) (by rwa [ha.append_iff])
  short u w heq := by
    have hu := h.short (a ++ u) w (by rw [heq, List.append_assoc])
    rwa [ha.append_iff] at hu

lemma flatMap {α : Type} {l : List α} {f : α → Text} (h : IsOrdinary placed (l.flatMap f))
    (hc : ∀ x ∈ l, IsClosed (f x)) : ∀ x ∈ l, IsOrdinary placed (f x) := by
  induction l with
  | nil => simp
  | cons x l ih =>
      rw [List.flatMap_cons] at h
      rw [List.forall_mem_cons] at hc ⊢
      exact ⟨h.left, ih (h.right hc.1) hc.2⟩

lemma join {sep : Text} {ps : List Text} (h : IsOrdinary placed (Text.join sep ps)) (hs : IsClosed sep)
    (hc : ∀ p ∈ ps, IsClosed p) : ∀ p ∈ ps, IsOrdinary placed p := by
  cases ps with
  | nil => simp
  | cons p ps =>
      rw [join_cons] at h
      rw [List.forall_mem_cons] at hc ⊢
      have hmore := flatMap (h.right hc.1) fun p hp => hs.append (hc.2 p hp)
      exact ⟨h.left, fun p hp => (hmore p hp).right hs⟩

/-- Outside of literals there is nothing but ASCII. -/
lemma isAscii (h : IsOrdinary placed s) (hs : ∀ c ∈ s, isQuote c = false) : ∀ c ∈ s, c.toNat < 128 := by
  intro c hc
  obtain ⟨u, w, rfl⟩ := List.append_of_mem hc
  exact h.ascii u c w rfl (isClosed_of_no_quote fun d hd => hs d (List.mem_append_left _ hd))

/-- A blank outside of literals is one of XML. -/
lemma isSpace_of_isBlank (h : IsOrdinary placed s) (hs : ∀ c ∈ s, isQuote c = false) (hc : c ∈ s)
    (hb : isBlank c = true) : isSpace c = true :=
  forall_ascii (P := fun c => isBlank c = true → isXmlChar c = true → isSpace c = true)
    (by decide +kernel) (h.isAscii hs c hc) hb (List.all_eq_true.mp h.xml c hc)

lemma isSpaces (h : IsOrdinary placed bs) (hb : IsBlanks bs) : IsSpaces bs := by
  have hquote : ∀ c ∈ bs, isQuote c = false := fun c hc => by
    rw [Bool.eq_false_iff]
    intro hq
    have hblank := hb c hc
    rw [isBlank_of_isQuote hq] at hblank
    exact absurd hblank Bool.false_ne_true
  exact fun c hc => h.isSpace_of_isBlank hquote hc (hb c hc)

/-- Names outside of literals are ASCII. -/
lemma isPlainName (h : IsOrdinary placed a) (ha : isWordName a = true) : Css.isPlainName a = true := by
  have hquote : ∀ c ∈ a, isQuote c = false := fun c hc => by
    have hinert := isInert_name ha c hc
    rw [Bool.eq_false_iff]
    intro hq
    simp only [isQuote, Bool.or_eq_true, beq_iff_eq] at hq
    rcases hq with rfl | rfl <;> exact absurd hinert (by decide)
  have hascii := h.isAscii hquote
  cases a with
  | nil => exact absurd ha Bool.false_ne_true
  | cons c r =>
      simp only [isWordName, Css.isPlainName, Bool.and_eq_true, List.all_eq_true] at ha ⊢
      refine ⟨ha.1, fun d hd => ?_⟩
      exact forall_ascii (P := fun c => isIdentChar c = true → isPlainIdentChar c = true)
        (by decide +kernel) (hascii d (List.mem_cons_of_mem c hd)) (ha.2 d hd)

/-- Digits outside of literals are ASCII. -/
lemma isDigit (h : IsOrdinary placed s) (hs : s.all Text.isDigit = true) :
    s.all Char.isDigit = true := by
  have hdigit := List.all_eq_true.mp hs
  have hascii := h.isAscii fun c hc => by
    have hinert := isInert_of_isDigit (hdigit c hc)
    rw [Bool.eq_false_iff]
    intro hq
    simp only [isQuote, Bool.or_eq_true, beq_iff_eq] at hq
    rcases hq with rfl | rfl <;> exact absurd hinert (by decide)
  rw [List.all_eq_true]
  intro c hc
  have h := hdigit c hc
  rwa [Text.isDigit, if_pos (hascii c hc)] at h

/-- The values of literals need no escapes. -/
lemma isPlainText (h : IsOrdinary placed (q :: v ++ [q])) (hq : isQuote q = true) (hv : q ∉ v) :
    v.all isPlainChar = true := by
  rw [List.all_eq_true]
  intro c hc
  obtain ⟨u, w, rfl⟩ := List.append_of_mem hc
  have hopen : openMark (some q) u = some q :=
    openMark_of_not_mem (by simpa using fun hm => hv (List.mem_append_left _ hm)) (by simp)
  have hinside : ¬ IsClosed (q :: u) := by
    have hnext : nextMark none q = some q := if_pos hq
    rw [IsClosed, openMark_cons, hnext, hopen]
    simp
  obtain ⟨hslash, hbreak⟩ := h.unescaped (q :: u) c (w ++ [q]) (by simp) hinside
  have hxml := List.all_eq_true.mp h.xml c (by simp)
  simp [isPlainChar, hxml, hslash, hbreak]

end IsOrdinary

end Locator.XPath
