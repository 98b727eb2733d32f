/-
Texts as the expressions of queries write them

* `flatten_runs`, `runs_cases`: the runs of a text give it back, and each of them is
  without single quotation marks or made of them;
* `reads_literal`, `eval_literalExpr`: **the literal of a text** is read, and has the
  text as its value;
* `isXmlText_literal`: it holds XML characters alone if the text does.
-/
import Locator.Css.Query
import Locator.Proofs.XPath.Attribute

namespace Locator.Css.Query

open XPath

/-! ### Runs -/

lemma runs_ne_nil {s : Text} (h : s ≠ []) : runs s ≠ [] := by
  cases s with
  | nil => exact absurd rfl h
  | cons c s =>
      rw [runs]
      split
      · split_ifs <;> simp
      · simp

/-- The runs of a text give it back. -/
lemma flatten_runs (s : Text) : (runs s).flatten = s := by
  induction s with
  | nil => rfl
  | cons c s ih =>
      rw [runs]
      split
      · next d run others heq =>
        rw [heq] at ih
        split_ifs <;> simpa using ih
      · simpa using ih

/-- A run is without single quotation marks or made of them. -/
lemma runs_cases {s run : Text} (h : run ∈ runs s) :
    '\'' ∉ run ∨ ∀ c ∈ run, c = '\'' := by
  induction s generalizing run with
  | nil => simp [runs] at h
  | cons c s ih =>
      have hone : '\'' ∉ [c] ∨ ∀ x ∈ [c], x = '\'' := by
        by_cases hc : c = '\''
        · exact .inr (by simp [hc])
        · exact .inl (by simp [Ne.symm hc])
      rw [runs] at h
      split at h
      · next d first others heq =>
        have hmem : d :: first ∈ runs s := by simp [heq]
        have hfirst := ih hmem
        split_ifs at h with hsame
        · rcases List.mem_cons.mp h with rfl | h
          · rcases hfirst with hf | hf
            · left
              have hd : d ≠ '\'' := fun hd => hf (by simp [hd])
              have hc : c ≠ '\'' := by simpa [hd] using hsame
              simp only [List.mem_cons, not_or] at hf ⊢
              exact ⟨Ne.symm hc, hf⟩
            · right
              have hd : d = '\'' := hf d (by simp)
              have hc : c = '\'' := by simpa [hd] using hsame
              exact fun x hx => (List.mem_cons.mp hx).elim (fun hx => hx.trans hc) (hf x)
          · exact ih (by simp [heq, h])
        · rcases List.mem_cons.mp h with rfl | h
          · exact hone
          · exact ih (by rw [heq]; exact h)
      · next heq =>
        rcases List.mem_cons.mp h with rfl | h
        · exact hone
        · exact ih h

/-- A text with marks of both kinds has two runs at least. -/
lemma two_le_length_runs {s : Text} (h : '\'' ∈ s ∧ '"' ∈ s) : 2 ≤ (runs s).length := by
  have hflat := flatten_runs s
  cases hr : runs s with
  | nil =>
      obtain rfl : [] = s := by simpa [hr] using hflat
      simp at h
  | cons run rs =>
      cases rs with
      | cons run' rs => simp
      | nil =>
          obtain rfl : run = s := by simpa [hr] using hflat
          have hmem : run ∈ runs run := by simp [hr]
          rcases runs_cases hmem with hno | hall
          · exact absurd h.1 hno
          · exact absurd (hall _ h.2) (by decide)

/-! ### Literals -/

/-- What the literal of a text is read as. -/
def literalExpr (v : Text) : Expr :=
  if '\'' ∈ v ∧ '"' ∈ v then .call none "concat".toList ((runs v).map .literal) else .literal v

/-- **The literal of a text** is read, whatever the text holds. -/
theorem reads_literal (v : Text) : Reads 1 0 (literal v) (literalExpr v) := by
  by_cases hs : '\'' ∈ v
  · by_cases hd : '"' ∈ v
    · set quote : Text → Text := fun run =>
        (if run.contains '\'' then '"' else '\'') :: run ++
          [if run.contains '\'' then '"' else '\''] with hquote
      have hread : List.Forall₂ (Reads 0 loosest) ((runs v).map quote) ((runs v).map .literal) := by
        rw [List.forall₂_map_left_iff, List.forall₂_map_right_iff, List.forall₂_same]
        intro run hrun
        by_cases hm : '\'' ∈ run
        · have hall := (runs_cases hrun).resolve_left (fun h => h hm)
          have hno : '"' ∉ run := fun h => absurd (hall _ h) (by decide)
          simpa [hquote, hm, inDouble] using (reads_inDouble hno).lift (m := 0) (k := loosest) (by omega) (by omega)
        · simpa [hquote, hm, inSingle] using (reads_inSingle hm).lift (m := 0) (k := loosest) (by omega) (by omega)
      have hl : literal v =
          "concat".toList ++ '(' :: (Text.join [','] ((runs v).map quote) ++ [')']) := by
        simp [literal, hs, hd, hquote]
      rw [literalExpr, if_pos ⟨hs, hd⟩, hl]
      obtain ⟨run, rs, hr⟩ := List.exists_cons_of_ne_nil (runs_ne_nil (List.ne_nil_of_mem hs))
      rw [hr, List.map_cons, List.map_cons, List.forall₂_cons] at hread
      rw [hr, List.map_cons, List.map_cons]
      exact reads_call isCallName_concat isComma_bare hread.1 hread.2
    · have hl : literal v = inDouble v := by simp [literal, hs, hd, inDouble]
      rw [literalExpr, if_neg (by simp [hd]), hl]
      exact (reads_inDouble hd).lift (by omega) (by omega)
  · have hl : literal v = inSingle v := by simp [literal, hs, inSingle]
    rw [literalExpr, if_neg (by simp [hs]), hl]
    exact (reads_inSingle hs).lift (by omega) (by omega)

/-- **The literal of a text** has the text as its value. -/
theorem eval_literalExpr (env : Env) (f : Frame) (v : Text) :
    eval env (literalExpr v) f = .ok (.text v) := by
  rw [literalExpr]
  split_ifs with h
  · rw [eval_call (g := .concat) rfl (evalAll_literals _)]
    simp only [Function.apply, List.length_map, Nat.not_lt.mpr (two_le_length_runs h), if_false,
      List.flatMap_map]
    simp [Result.toText, List.flatMap_id', flatten_runs]
  · simp [eval]

/-- A literal holds XML characters alone if the text does. -/
lemma isXmlText_literal (v : Text) : Text.isXmlText (literal v) = Text.isXmlText v := by
  have hwrap : ∀ (q : Char) (w : Text), Text.isXmlChar q = true →
      Text.isXmlText (q :: w ++ [q]) = Text.isXmlText w := by
    intro q w hq
    simp [Text.isXmlText, hq]
  have hsingle : Text.isXmlChar '\'' = true := rfl
  have hdouble : Text.isXmlChar '"' = true := rfl
  rw [literal]
  split_ifs
  · exact hwrap _ v hsingle
  · exact hwrap _ v hdouble
  · have hopen : Text.isXmlText "concat(".toList = true := rfl
    have hclose : Text.isXmlText [')'] = true := rfl
    have hsep : Text.isXmlText [','] = true := rfl
    have hrun : ∀ run : Text, Text.isXmlText ((if run.contains '\'' then '"' else '\'') :: run ++
        [if run.contains '\'' then '"' else '\'']) = Text.isXmlText run := by
      intro run
      split_ifs
      · exact hwrap _ run hdouble
      · exact hwrap _ run hsingle
    have hflat : Text.isXmlText v = (runs v).all Text.isXmlText := by
      conv_lhs => rw [← flatten_runs v]
      rw [Text.isXmlText, List.all_flatten]
      rfl
    rw [Text.isXmlText_append, Text.isXmlText_append, hopen, hclose, isXmlText_join hsep,
      List.all_map, hflat]
    simp only [Bool.true_and, Bool.and_true]
    exact List.all_congr rfl fun run => hrun run

end Locator.Css.Query
