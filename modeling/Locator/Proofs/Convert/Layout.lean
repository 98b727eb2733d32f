/-
The layout of a group

* `IsCompoundText`: the text of a compound, in which square brackets are closed and which
  nothing parts outside of them;
* `LaidBehind`: compounds one behind the other, each behind its combinator and with any blanks
  that belong to it;
* `compoundTextsFrom_lead`, `compoundTextsFrom_trail`: blanks around a group do not count;
* `compoundTexts_laidOut`: **the compounds of a group** are found, however it is laid out.
-/
import Locator.Proofs.Convert.Rejected
import Locator.Proofs.Text.Enclosed

namespace Locator.Css

open Text XPath

variable {s t u v w lead trail : Text} {p : Combinator} {k : ℕ} {xs : List CompoundText}

/-! ### Texts of compounds -/

/-- The square brackets in a group, and what parts its compounds outside of them. -/
def squares : Marks := ⟨[], ['['], [']'], fun c => c == '>' || isCssSpace c⟩

/-- **The text of a compound**: no blank stands at its ends, its square brackets are closed, and
there is neither `>` nor a blank of selectors outside of them. -/
structure IsCompoundText (u : Text) : Prop where
  trim : IsTrim u
  closes : squares.Closes 0 u

/-- All brackets are closed behind such a text, and nothing parts it. -/
lemma openBehind?_of_closes (h : squares.Closes k u) : openBehind? k u = some 0 := by
  induction h with
  | nil => rfl
  | quoted hq => exact absurd hq List.not_mem_nil
  | @opens k c u hc _ ih =>
      obtain rfl : c = '[' := List.mem_singleton.mp hc
      exact ih
  | @closes k c u hc _ ih =>
      obtain rfl : c = ']' := List.mem_singleton.mp hc
      exact ih
  | @plain k c u hc _ ih =>
      have hopen : c ≠ '[' := fun h => hc.opening (List.mem_singleton.mpr h)
      have hclose : c ≠ ']' := fun h => hc.closing (List.mem_singleton.mpr h)
      have hparts : ¬ (k = 0 ∧ (c = '>' ∨ isCssSpace c = true)) := by
        rintro ⟨hk, hsign | hspace⟩
        · simpa [squares, hsign] using hc.parts hk
        · simpa [squares, hspace] using hc.parts hk
      rw [openBehind?, if_neg hopen, if_neg hclose, if_neg hparts]
      exact ih

/-! ### Blanks that do not count -/

/-- Nothing comes of blanks that were collected. -/
lemma flush_of_isBlanks (p : Combinator) (hw : IsBlanks w) : flush p w = [] := by
  have hstrip : strip w.reverse = [] := strip_of_isBlanks fun c hc => hw c (by simpa using hc)
  simp [flush, hstrip]

/-- Blanks at the ends of what was collected do not count. -/
lemma flush_append (p : Combinator) (hv : IsBlanks v) (hw : IsBlanks w) (u : Text) :
    flush p (v ++ (u ++ w)) = flush p u := by
  have hstrip : strip (v ++ (u ++ w)).reverse = strip u.reverse := by
    rw [List.reverse_append, List.reverse_append, List.append_assoc]
    exact strip_blanks (fun c hc => hw c (by simpa using hc))
      (fun c hc => hv c (by simpa using hc)) _
  rw [flush, hstrip, flush]

/-- Blanks in front of what was collected do not count, nor where nothing was collected in front
of a descendant. -/
lemma compoundTextsFrom_collected (hw : IsBlanks w) (hv : v ≠ [] ∨ p = .descendant) (s : Text) :
    compoundTextsFrom p k (v ++ w) s = compoundTextsFrom p k v s := by
  have hflush : ∀ v, flush p (v ++ w) = flush p v := flush_append p isBlanks_nil hw
  induction s generalizing k v with
  | nil => exact hflush v
  | cons c s ih =>
      have hcollect : ∀ k, compoundTextsFrom p k (c :: (v ++ w)) s =
          compoundTextsFrom p k (c :: v) s := fun k => ih (.inl (List.cons_ne_nil c v))
      rw [compoundTextsFrom, compoundTextsFrom, hcollect, hcollect, hcollect, hflush]
      -- Where nothing else was collected, a blank of selectors asks whether anything was at all.
      by_cases hempty : v = []
      · obtain rfl : p = .descendant := hv.resolve_left (not_not_intro hempty)
        rw [hempty, flush_of_isBlanks _ isBlanks_nil]
        simp
      · obtain ⟨a, r, rfl⟩ := List.exists_cons_of_ne_nil hempty
        rfl

/-- A blank outside brackets ends what was collected, if it is one of selectors, and is collected
else. -/
lemma compoundTextsFrom_blank {c : Char} (hc : isBlank c = true) (r : Text) :
    compoundTextsFrom p 0 v (c :: r) =
      if isCssSpace c then
        if v.isEmpty then compoundTextsFrom p 0 [] r
        else flush p v ++ compoundTextsFrom .descendant 0 [] r
      else compoundTextsFrom p 0 (c :: v) r := by
  have hmark : ∀ {d : Char}, isBlank d = false → (c == d) = false := fun hd =>
    beq_eq_false_iff_ne.mpr fun h => by simp [h, hd] at hc
  rw [compoundTextsFrom, hmark (d := '[') rfl, hmark (d := ']') rfl, hmark (d := '>') rfl]
  simp

/-- Blanks in front of a group do not count. -/
lemma compoundTextsFrom_lead (hv : IsBlanks v) (hl : IsBlanks lead) (s : Text) :
    compoundTextsFrom .descendant 0 v (lead ++ s) = compoundTextsFrom .descendant 0 [] s := by
  -- What is collected on the way is blank as well.
  induction lead generalizing v with
  | nil => exact compoundTextsFrom_collected (v := []) hv (.inr rfl) s
  | cons c lead ih =>
      rw [IsBlanks, List.forall_mem_cons] at hl
      rw [List.cons_append, compoundTextsFrom_blank hl.1, flush_of_isBlanks _ hv,
        List.nil_append, ite_self, ih isBlanks_nil hl.2,
        ih (List.forall_mem_cons.mpr ⟨hl.1, hv⟩) hl.2, ite_self]

/-- Blanks behind a group do not count. -/
lemma compoundTextsFrom_trail (p : Combinator) (v : Text) (hb : IsBlanks trail) :
    compoundTextsFrom p 0 v trail = flush p v := by
  induction trail generalizing p v with
  | nil => rfl
  | cons c trail ih =>
      rw [IsBlanks, List.forall_mem_cons] at hb
      have hnone : ∀ p, flush p [] = [] := fun p => flush_of_isBlanks p isBlanks_nil
      have hfront : flush p (c :: v) = flush p v := by
        have hc : IsBlanks [c] := List.forall_mem_singleton.mpr hb.1
        simpa using flush_append p hc isBlanks_nil v
      rw [compoundTextsFrom_blank hb.1, ih _ _ hb.2, ih _ _ hb.2, ih _ _ hb.2, hnone, hnone,
        List.append_nil, hfront]
      split_ifs with _ hempty
      · rw [List.isEmpty_iff.mp hempty, hnone]
      · rfl
      · rfl

/-! ### Compounds one behind the other -/

/-- Compounds behind a first one, each behind its combinator; blanks of any kind may follow. -/
inductive LaidBehind : List CompoundText → Text → Prop
  | nil {trail : Text} (hb : IsBlanks trail) : LaidBehind [] trail
  | cons {x : CompoundText} {xs : List CompoundText} {js t : Text}
      (hj : x.combinator.Writes js) (hx : IsCompoundText x.text) (h : LaidBehind xs t) :
      LaidBehind (x :: xs) (js ++ (x.text ++ t))

/-- A compound is collected and found, with those behind it. -/
lemma compoundTextsFrom_laidBehind (hu : IsCompoundText u) (h : LaidBehind xs t)
    (p : Combinator) : compoundTextsFrom p 0 [] (u ++ t) = ⟨p, u⟩ :: xs := by
  induction h generalizing p u with
  | nil hb =>
      rw [compoundTextsFrom_run (openBehind?_of_closes hu.closes), List.append_nil,
        compoundTextsFrom_trail p _ hb, flush_of_isTrim p hu.trim]
  | @cons x xs js t hj hx _ ih =>
      rw [compoundTextsFrom_run (openBehind?_of_closes hu.closes), List.append_nil,
        compoundTextsFrom_join hj hu.trim, ih hx]

/-- **The compounds of a group** are found, each with its combinator and the first one as a
descendant, however the group is laid out: with any blanks of selectors between two compounds
and around a sign, and with blanks of any kind around the group. -/
theorem compoundTexts_laidOut (hl : IsBlanks lead) (hu : IsCompoundText u)
    (h : LaidBehind xs t) : compoundTexts (lead ++ (u ++ t)) = ⟨.descendant, u⟩ :: xs := by
  rw [compoundTexts, compoundTextsFrom_lead isBlanks_nil hl, compoundTextsFrom_laidBehind hu h]

/-- Behind a sign the blanks of selectors alone do not count: other blanks are collected, and one
of selectors behind these makes a descendant again. -/
example : compoundTexts "a >\u00a0 b".toList = [⟨.descendant, ['a']⟩, ⟨.descendant, ['b']⟩] := by
  decide

/-- A control inside a form, found between blanks of several kinds; the blank and the sign in its
brackets part nothing. -/
theorem compoundTexts_placeholder :
    (IsBlanks "\u00a0 ".toList ∧ IsCompoundText "form".toList ∧
        LaidBehind [⟨.child, "input[p='a > b']".toList⟩, ⟨.descendant, "i".toList⟩]
          "\t>\n input[p='a > b'] \x0ci \u00a0".toList) ∧
      compoundTexts "\u00a0 form\t>\n input[p='a > b'] \x0ci \u00a0".toList =
        [⟨.descendant, "form".toList⟩, ⟨.child, "input[p='a > b']".toList⟩,
          ⟨.descendant, "i".toList⟩] := by
  have hl : IsBlanks "\u00a0 ".toList := by unfold IsBlanks; decide
  have htrail : IsBlanks " \u00a0".toList := by unfold IsBlanks; decide
  have hform : IsCompoundText "form".toList :=
    ⟨isTrim_of_all (by decide) (by decide), Marks.closes_of_isPlain (by decide)⟩
  have hi : IsCompoundText "i".toList :=
    ⟨isTrim_of_all (by decide) (by decide), Marks.closes_of_isPlain (by decide)⟩
  have hinput : IsCompoundText "input[p='a > b']".toList := by
    refine ⟨⟨by decide, by decide, by decide⟩, ?_⟩
    have hinside : squares.Closes 1 "p='a > b']".toList :=
      .run (v := "p='a > b'".toList) (by decide) (.closes (by decide) .nil)
    exact .run (v := "input".toList) (by decide) (.opens (by decide) hinside)
  have hchild : Combinator.child.Writes "\t>\n ".toList :=
    .child (areBlanks_singleton (b := '\t') rfl) (by unfold AreBlanks; decide)
  have hdescendant : Combinator.descendant.Writes " \x0c".toList :=
    .descendant (by unfold AreBlanks; decide) (by decide)
  have hlaid := LaidBehind.cons (x := ⟨.child, _⟩) hchild hinput
    (.cons (x := ⟨.descendant, _⟩) hdescendant hi (.nil htrail))
  exact ⟨⟨hl, hform, hlaid⟩, compoundTexts_laidOut hl hform hlaid⟩

end Locator.Css
