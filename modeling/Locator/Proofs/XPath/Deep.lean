/-
Expressions that are nested too deep

* `IsDeep`: a text in front of which no operand of a level can be read before so many
  expressions are open, whatever follows;
* `IsDeep.lift`, `IsDeep.paren`, `IsDeep.call`, `IsDeep.binary`: looser levels, parentheses,
  calls and second operands;
* `read?_axis_deep`: **no expression** is a step along an axis with a predicate that is
  nested too deep.
-/
import Locator.Proofs.XPath.Broken

namespace Locator.XPath

variable {m n k : ℕ} {s a name sign : Text} {e : Expr} {op : Operator}

/-- A text that cannot be read at a level, whatever follows it, with fewer than `m` more
expressions allowed to be open. -/
structure IsDeep (m k : ℕ) (s : Text) : Prop where
  starts : Starts s
  unread : ∀ d < m, ∀ rest, readerAt (exprAt? d) k (s ++ rest) = none

lemma isDeep_zero (hs : Starts s) (k : ℕ) : IsDeep 0 k s where
  starts := hs
  unread d hd := absurd hd (Nat.not_lt_zero d)

lemma IsDeep.append (h : IsDeep m k s) (t : Text) : IsDeep m k (s ++ t) where
  starts := h.starts.append t
  unread d hd rest := by
    rw [List.append_assoc]
    exact h.unread d hd (t ++ rest)

/-- What cannot be read at a level cannot be read at the looser ones. -/
lemma IsDeep.lift (h : IsDeep m n s) (hnk : n ≤ k) : IsDeep m k s where
  starts := h.starts
  unread d hd rest := by
    induction k, hnk using Nat.le_induction with
    | base => exact h.unread d hd rest
    | succ k _ ih =>
        rw [readerAt, chain, atOperands_of_starts k _ (h.starts.append rest), ih]
        rfl

/-- No expression is read. -/
lemma IsDeep.expr (h : IsDeep m loosest s) {d : ℕ} (hd : d ≤ m) (rest : Text) :
    exprAt? d (s ++ rest) = none := by
  cases d with
  | zero => rfl
  | succ d => exact h.unread d hd rest

/-- Parentheses take one more level. -/
lemma IsDeep.paren (h : IsDeep m loosest s) : IsDeep (m + 1) 0 ('(' :: s) where
  starts := ⟨'(', s, rfl, rfl, by simp, by simp⟩
  unread d hd rest := by
    have hblanks : blanks (s ++ rest) = s ++ rest := (h.starts.append rest).blanks_eq
    have hprimary : primary? (exprAt? d) ('(' :: (s ++ rest)) = none := by
      simp [primary?, Number.startsHere, hblanks, h.expr (Nat.le_of_lt_succ hd) rest]
    have hstart : startsPrimary? ('(' :: (s ++ rest)) = some true := rfl
    simp [readerAt, pathExpr?, blanks_cons (c := '(') rfl, hstart, hprimary]

lemma IsDeep.parens (h : IsDeep m loosest s) (j : ℕ) :
    IsDeep (m + j) loosest (List.replicate j '(' ++ s) := by
  induction j with
  | zero => exact h
  | succ j ih => exact ih.paren.lift (Nat.zero_le _)

/-- A call whose arguments cannot be read. -/
lemma isDeep_call (hn : IsCallName name) (hs : Starts s)
    (h : ∀ d ≤ m, ∀ rest, arguments? (exprAt? d) ((s ++ rest).length + 1) (s ++ rest) = none) :
    IsDeep (m + 1) 0 (name ++ '(' :: s) where
  starts := (starts_of_isName hn.isName).append _
  unread d hd rest := by
    have hstarts := ((starts_of_isName hn.isName).append ('(' :: s)).append rest
    have hprimary := startsCall?_append hn (s ++ rest)
    have hname := qualifiedName?_append hn.isName (s ++ rest)
    have harguments := h d (Nat.le_of_lt_succ hd) rest
    have hcall : call? (exprAt? d) (name ++ '(' :: (s ++ rest)) = none := by
      obtain ⟨c, r, hcr, hblank, -, hclose⟩ := hs.append rest
      rw [hcr, List.length_cons] at harguments
      rw [hcr] at hname ⊢
      simp [call?, hname, harguments, blanks_cons hblank, blanks_cons (c := '(') rfl, hclose]
    have hblanks := hstarts.blanks_eq
    rw [List.append_assoc, List.cons_append] at hblanks ⊢
    obtain ⟨c, r, rfl, hc, -⟩ := hn.isName
    rw [List.cons_append] at hblanks hprimary hcall ⊢
    rw [← startsPrimary?_of_isNameStart hc] at hprimary
    rw [← primary?_of_isNameStart hc] at hcall
    simp [readerAt, pathExpr?, hblanks, hprimary, hcall]

/-- Where no expression is read there are no arguments. -/
lemma IsDeep.arguments? (h : IsDeep m loosest s) {d : ℕ} (hd : d ≤ m) (fuel : ℕ) (rest : Text) :
    arguments? (exprAt? d) (fuel + 1) (s ++ rest) = none := by
  have hread := h.expr hd rest
  obtain ⟨c, r, hcr, -⟩ := h.starts.append rest
  rw [hcr] at hread ⊢
  simp [XPath.arguments?, hread]

/-- Arguments take one more level. -/
lemma IsDeep.call (hn : IsCallName name) (h : IsDeep m loosest s) :
    IsDeep (m + 1) 0 (name ++ '(' :: s) :=
  isDeep_call hn h.starts fun _ hd rest => h.arguments? hd _ rest

/-- So do second arguments. -/
lemma IsDeep.call_second (hn : IsCallName name) (ha : Reads 0 loosest a e)
    (h : IsDeep m loosest s) : IsDeep (m + 1) 0 (name ++ '(' :: (a ++ ", ".toList ++ s)) := by
  refine isDeep_call hn ((ha.starts.append _).append _) fun d hd rest => ?_
  have htext : a ++ ", ".toList ++ s ++ rest = a ++ ',' :: ' ' :: (s ++ rest) := by simp
  have hfirst : exprAt? d (a ++ ',' :: ' ' :: (s ++ rest)) = none ∨
      exprAt? d (a ++ ',' :: ' ' :: (s ++ rest)) = some (e, ',' :: ' ' :: (s ++ rest)) := by
    cases d with
    | zero => exact .inl rfl
    | succ d =>
        have hread := ha.expr (Nat.succ_pos d) (ends_closing (.inr (.inr rfl)) (' ' :: (s ++ rest)))
        rw [blanks_cons rfl] at hread
        exact .inr hread
  have hblanks : blanks (' ' :: (s ++ rest)) = s ++ rest :=
    blanks_append (w := [' ']) (by simp [Text.isSpace]) (h.starts.append rest)
  rw [htext]
  obtain ⟨c, r, rfl, -⟩ := ha.starts
  rw [List.cons_append] at hfirst ⊢
  have hlen : ∃ fuel, (c :: (r ++ ',' :: ' ' :: (s ++ rest))).length = fuel + 1 := ⟨_, rfl⟩
  obtain ⟨fuel, hfuel⟩ := hlen
  have hsecond := h.arguments? hd fuel rest
  rw [hfuel]
  rcases hfirst with hnone | hsome
  · simp [XPath.arguments?, hnone]
  · generalize fuel + 1 = more at hsecond
    simp [XPath.arguments?, hsome, hblanks, hsecond]

/-- A second operand cannot be read behind the first one. -/
lemma IsDeep.binary (ha : Reads 0 k a e) (hop : Sign k op sign) (h : IsDeep m k s) :
    IsDeep m (k + 1) (a ++ sign ++ s) where
  starts := (ha.starts.append _).append _
  unread d hd rest := by
    have htext : a ++ sign ++ s ++ rest = a ++ (sign ++ (s ++ rest)) := by simp
    have hfirst := ha.reads d (Nat.zero_le d) (sign ++ (s ++ rest)) (hop.ends (s ++ rest))
    obtain ⟨r', hsign, hblanks, -⟩ := hop.reads (s ++ rest)
    have hsecond : atOperands k (readerAt (exprAt? d) k) (blanks r') = none := by
      rw [hblanks, (h.starts.append rest).blanks_eq,
        atOperands_of_starts k _ (h.starts.append rest)]
      exact h.unread d hd rest
    rw [htext, readerAt, chain, atOperands_of_starts k _ (ha.starts.append _), hfirst]
    simp only [Option.bind_eq_bind, Option.bind_some, chainFrom, blanks_blanks, hsign, hsecond,
      Option.bind_none]

/-! ### Predicates -/

/-- **No expression** is a step along an axis with a predicate that is nested too deep. -/
theorem read?_axis_deep {axis : Axis} {test : NodeTest} {r : Text} (ha : Text.IsName a)
    (ht : TestReads (a ++ "::".toList ++ name) axis test) (hs : IsDeep m loosest s)
    (hm : maxDepth ≤ m + 1) :
    Expr.read? (a ++ "::".toList ++ name ++ '[' :: s ++ r) = none := by
  have hstarts : Starts (a ++ "::".toList ++ name ++ '[' :: s ++ r) := by
    simp only [List.append_assoc]
    exact (starts_of_isName ha).append _
  refine read?_eq_none hstarts fun d hd => ?_
  have htext : a ++ "::".toList ++ name ++ '[' :: s ++ r =
      a ++ "::".toList ++ name ++ ('[' :: (s ++ r)) := by simp
  rw [htext] at hstarts ⊢
  have hprimary : startsPrimary? (a ++ "::".toList ++ name ++ ('[' :: (s ++ r))) = some false := by
    rw [List.append_assoc]
    exact startsPrimary?_axis ha _
  obtain ⟨u, hread, hblanks⟩ := ht.reads ('[' :: (s ++ r)) (endsTest_bracket _)
  have hpredicate : predicate? (exprAt? d) ('[' :: (s ++ r)) = none := by
    simp [predicate?, (hs.starts.append r).blanks_eq, hs.expr (d := d) (by omega) r]
  have hstep : step? (exprAt? d) .here (a ++ "::".toList ++ name ++ ('[' :: (s ++ r))) = none := by
    rw [blanks_cons rfl] at hblanks
    rw [step?_eq ht.starts, hread]
    simp [hblanks, predicates?, hpredicate]
  have hslash := ne_slash_of_startsTest ht.starts ('[' :: (s ++ r))
  have hhere : relativePath? (exprAt? d) .here
      (a ++ "::".toList ++ name ++ ('[' :: (s ++ r))) = none := by
    unfold relativePath?
    rw [hstarts.blanks_eq]
    split
    · next heq => exact absurd heq (hslash _)
    · next heq => exact absurd heq (hslash _)
    · rw [hstep]
      rfl
  have hpath : locationPath? (exprAt? d) (a ++ "::".toList ++ name ++ ('[' :: (s ++ r))) = none := by
    unfold locationPath?
    rw [hstarts.blanks_eq]
    split
    · next heq => exact absurd heq (hslash _)
    · exact hhere
  simp only [pathExpr?, hstarts.blanks_eq, hprimary, hpath, Option.bind_eq_bind, Option.bind_some,
    Option.bind_none, Bool.false_eq_true, if_false]

end Locator.XPath
