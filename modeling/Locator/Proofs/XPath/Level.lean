/-
Levels of path expressions

A path expression is read level by level, the loosest sign first. A text is
read the same way whatever follows it, as long as what follows ends it.

* `readerAt`: the reader of a level, and `exprAt?_succ`: an expression is read
  at the loosest one;
* `read?_blanks`: blanks in front of an expression do not count;
* `Ends`: what follows a text and can belong to nothing at a level or below;
* `Reads`: a text that is read as an expression at a level before everything
  that ends it, with only so many expressions open inside;
* `Reads.lift`: what is read at a level is read at the looser ones;
* `Tail`, `Reads.chain`: operands with the signs of a level between them are
  read from the left.
-/
import Mathlib.Tactic
import Locator.XPath.Read
import Locator.Proofs.Text.Basic

namespace Locator.XPath

/-! ### Blanks -/

@[simp]
lemma blanks_nil : blanks [] = [] := rfl

lemma blanks_cons {c : Char} (h : Text.isSpace c = false) (r : Text) :
    blanks (c :: r) = c :: r := by
  simp [blanks, h]

@[simp]
lemma blanks_blanks (s : Text) : blanks (blanks s) = blanks s := by
  induction s with
  | nil => rfl
  | cons c r ih =>
      by_cases h : Text.isSpace c
      · simpa [blanks, h] using ih
      · simp [blanks, h]

lemma length_blanks_le (s : Text) : (blanks s).length ≤ s.length :=
  (List.dropWhile_suffix _).length_le

/-- A text that starts an operand: with no blank, no minus sign and no closing
parenthesis. -/
def Starts (s : Text) : Prop :=
  ∃ c r, s = c :: r ∧ Text.isSpace c = false ∧ c ≠ '-' ∧ c ≠ ')'

lemma Starts.append {s : Text} (h : Starts s) (t : Text) : Starts (s ++ t) := by
  obtain ⟨c, r, rfl, hc⟩ := h
  exact ⟨c, r ++ t, rfl, hc⟩

lemma Starts.blanks_eq {s : Text} (h : Starts s) : blanks s = s := by
  obtain ⟨c, r, rfl, hc, -⟩ := h
  exact blanks_cons hc r

lemma Starts.ne_nil {s : Text} (h : Starts s) : s ≠ [] := by
  obtain ⟨c, r, rfl, -⟩ := h
  simp

/-! ### The readers of the levels -/

/-- The signs of a level: unions, products, sums, orders, equalities, and the
two joins of conditions. -/
def signsAt : ℕ → List (Text × Operator)
  | 1 => [("|".toList, .union)]
  | 2 => [("*".toList, .mul), ("div".toList, .div), ("mod".toList, .mod)]
  | 3 => [("+".toList, .add), ("-".toList, .sub)]
  | 4 => [("<=".toList, .le), (">=".toList, .ge), ("<".toList, .lt), (">".toList, .gt)]
  | 5 => [("=".toList, .eq), ("!=".toList, .ne)]
  | 6 => [("and".toList, .and)]
  | _ => [("or".toList, .or)]

/-- The level of the loosest sign. -/
def loosest : ℕ := 7

/-- The operands of the level above `k`. The minus signs stand between the
products and the unions. -/
def atOperands (k : ℕ) (r : Reader Expr) : Reader Expr := if k = 1 then unary r else r

/-- The reader of a level; paths are at the level zero. -/
def readerAt (sub : Reader Expr) : ℕ → Reader Expr
  | 0 => pathExpr? sub
  | k + 1 => chain (signsAt (k + 1)) (atOperands k (readerAt sub k))

/-- An expression is read at the loosest level. -/
lemma exprAt?_succ (d : ℕ) : exprAt? (d + 1) = readerAt (exprAt? d) loosest := by
  rfl

lemma readerAt_blanks (sub : Reader Expr) (k : ℕ) (s : Text) :
    readerAt sub k (blanks s) = readerAt sub k s := by
  induction k with
  | zero => simp only [readerAt, pathExpr?, blanks_blanks]
  | succ k ih =>
      simp only [readerAt, chain, atOperands]
      split_ifs
      · simp only [unary, blanks_blanks]
      · rw [ih]

/-- Blanks in front of an expression do not count. -/
lemma read?_blanks (s : Text) : Expr.read? (blanks s) = Expr.read? s := by
  have h : exprAt? maxDepth (blanks s) = exprAt? maxDepth s := readerAt_blanks _ loosest s
  rw [Expr.read?, Expr.read?, h]

/-! ### What ends a text -/

/-- Does a character go on with a name or a number? -/
def goesOn (c : Char) : Bool := Text.isNameChar c || c == ':'

/-- Does a character go on with a step? -/
def bindsStep (c : Char) : Bool := c == '[' || c == '(' || c == ':'

/-- What can belong neither to a name nor to the step in front of it. -/
structure EndsStep (rest : Text) : Prop where
  word : ∀ c ∈ rest.head?, goesOn c = false
  step : ∀ c ∈ (blanks rest).head?, bindsStep c = false

/-- What ends everything at a level and below. -/
structure Ends (k : ℕ) (rest : Text) : Prop extends EndsStep rest where
  slash : ∀ c ∈ (blanks rest).head?, (c == '/') = false
  signs : ∀ l, 0 < l → l ≤ k → sign? (signsAt l) (blanks rest) = none

lemma Ends.mono {j k : ℕ} {rest : Text} (hjk : j ≤ k) (h : Ends k rest) : Ends j rest :=
  { h with signs := fun l hl hlj => h.signs l hl (hlj.trans hjk) }

/-- Nothing ends an expression. -/
lemma ends_nil : Ends loosest [] where
  word := by simp
  step := by simp
  slash := by simp
  signs l hl (hk : l ≤ 7) := by interval_cases l <;> rfl

/-- A text ends a level if its first character that is no blank does. -/
lemma ends_of_blanks {k : ℕ} {rest r : Text} {c : Char} (hb : blanks rest = c :: r)
    (hw : ∀ d ∈ rest.head?, goesOn d = false) (hc : bindsStep c = false) (hs : (c == '/') = false)
    (hk : ∀ l, 0 < l → l ≤ k → sign? (signsAt l) (c :: r) = none) : Ends k rest where
  word := hw
  step := by simpa [hb] using hc
  slash := by simpa [hb] using hs
  signs := by simpa [hb] using hk

/-- A closing parenthesis or bracket and a comma end an expression. -/
lemma ends_closing {c : Char} (hc : c = ')' ∨ c = ']' ∨ c = ',') (r : Text) :
    Ends loosest (c :: r) := by
  rcases hc with rfl | rfl | rfl <;>
    refine ends_of_blanks (blanks_cons rfl r) (by simp; rfl) rfl rfl
      fun l hl (hk : l ≤ 7) => ?_ <;>
    interval_cases l <;> rfl

lemma ends_or (r : Text) : Ends 6 (" or ".toList ++ r) :=
  ends_of_blanks rfl (by simp; rfl) rfl rfl
    fun l hl hk => by interval_cases l <;> rfl

lemma ends_and (r : Text) : Ends 5 (" and ".toList ++ r) :=
  ends_of_blanks rfl (by simp; rfl) rfl rfl
    fun l hl hk => by interval_cases l <;> rfl

lemma ends_equals (r : Text) : Ends 4 ('=' :: r) :=
  ends_of_blanks rfl (by simp; rfl) rfl rfl
    fun l hl hk => by interval_cases l <;> rfl

lemma ends_spaced_equals (r : Text) : Ends 4 (" = ".toList ++ r) :=
  ends_of_blanks rfl (by simp; rfl) rfl rfl
    fun l hl hk => by interval_cases l <;> rfl

lemma ends_plus (r : Text) : Ends 2 (" + ".toList ++ r) :=
  ends_of_blanks rfl (by simp; rfl) rfl rfl
    fun l hl hk => by interval_cases l <;> rfl

lemma ends_minus (r : Text) : Ends 2 (" - ".toList ++ r) :=
  ends_of_blanks rfl (by simp; rfl) rfl rfl
    fun l hl hk => by interval_cases l <;> rfl

lemma ends_bar (r : Text) : Ends 0 (" | ".toList ++ r) :=
  ends_of_blanks rfl (by simp; rfl) rfl rfl
    fun l hl hk => by omega

/-! ### Operands at a level -/

/-- A text without a minus sign in front is read as the operand itself. -/
lemma unary_of_starts {operand : Reader Expr} {s : Text} (hs : Starts s) :
    unary operand s = operand s := by
  obtain ⟨c, r, rfl, hb, hm, -⟩ := hs
  have h : minusSigns false false (c :: r) = (false, false, c :: r) := by
    simp [minusSigns, hm]
  rw [unary, blanks_cons hb, h]
  cases ho : operand (c :: r) <;> simp [ho]

/-- The operands of a level are read at the level below. -/
lemma atOperands_of_starts (k : ℕ) (r : Reader Expr) {s : Text} (hs : Starts s) :
    atOperands k r s = r s := by
  rw [atOperands]
  split_ifs
  · exact unary_of_starts hs
  · rfl

/-- An operand alone, with no sign of the level behind it. -/
lemma chain_of_operand {signs : List (Text × Operator)} {operand : Reader Expr}
    {s r : Text} {e : Expr} (h : operand s = some (e, r))
    (hr : sign? signs (blanks r) = none) : chain signs operand s = some (e, blanks r) := by
  simp [chain, h, chainFrom, hr]

/-- What is read at a level is read at the looser ones, if no sign of theirs follows. -/
lemma readerAt_lift {sub : Reader Expr} {j k : ℕ} (hjk : j ≤ k) {s rest : Text} {e : Expr}
    (hs : Starts s) (he : ∀ l, 0 < l → l ≤ k → sign? (signsAt l) (blanks rest) = none)
    (h : readerAt sub j s = some (e, blanks rest)) :
    readerAt sub k s = some (e, blanks rest) := by
  induction k, hjk using Nat.le_induction with
  | base => exact h
  | succ k hk ih =>
      have ho : atOperands k (readerAt sub k) s = some (e, blanks rest) := by
        rw [atOperands_of_starts k _ hs]
        exact ih fun l hl hlk => he l hl (hlk.trans (Nat.le_succ k))
      rw [readerAt, chain_of_operand ho (by simpa using he (k + 1) (by omega) le_rfl),
        blanks_blanks]

/-! ### Chains of operands -/

/-- A sign of the level above `k` with the blanks around it: it ends the operand
in front, and the next one is read behind it. -/
structure Sign (k : ℕ) (op : Operator) (sign : Text) : Prop where
  ends : ∀ r, Ends k (sign ++ r)
  reads : ∀ r, ∃ r', sign? (signsAt (k + 1)) (blanks (sign ++ r)) = some (op, r') ∧
    blanks r' = blanks r ∧ r'.length < (blanks (sign ++ r)).length

/-- Further operands of the level above `k`, each behind a sign: from the
expression `e` in front of them they lead to `e'`. -/
inductive Tail (sub : Reader Expr) (k : ℕ) : Text → Expr → Expr → Prop
  | nil (e : Expr) : Tail sub k [] e e
  | cons {sign s t : Text} {op : Operator} {e f e' : Expr} (hop : Sign k op sign)
      (hs : Starts s)
      (hread : ∀ rest, Ends k rest → readerAt sub k (s ++ rest) = some (f, blanks rest))
      (ht : Tail sub k t (.binary op e f) e') : Tail sub k (sign ++ s ++ t) e e'

/-- What ends the whole chain or goes on with it ends the operand in front. -/
lemma Tail.ends {sub : Reader Expr} {k : ℕ} {t rest : Text} {e e' : Expr}
    (h : Tail sub k t e e') (hr : Ends (k + 1) rest) : Ends k (t ++ rest) := by
  cases h with
  | nil => exact hr.mono (Nat.le_succ k)
  | cons hop => simpa using hop.ends _

/-- Further operands are read from the left. -/
lemma chainFrom_tail {sub : Reader Expr} {k : ℕ} {t rest : Text} {e e' : Expr}
    (h : Tail sub k t e e') (hr : Ends (k + 1) rest) {fuel : ℕ}
    (hf : (blanks (t ++ rest)).length < fuel) :
    chainFrom (signsAt (k + 1)) (atOperands k (readerAt sub k)) fuel e (blanks (t ++ rest)) =
      some (e', blanks rest) := by
  induction h generalizing fuel with
  | nil e =>
      obtain ⟨fuel, rfl⟩ := Nat.exists_eq_add_of_lt hf
      simp [chainFrom, hr.signs (k + 1) (by omega) le_rfl]
  | @cons sign s t op e f e' hop hs hread ht ih =>
      have ht' : Ends k (t ++ rest) := ht.ends hr
      obtain ⟨r', hsign, hb, hlen⟩ := hop.reads (s ++ t ++ rest)
      have hst : Starts (s ++ t ++ rest) := (hs.append t).append rest
      have hread' : atOperands k (readerAt sub k) (blanks r') = some (f, blanks (t ++ rest)) := by
        rw [hb, hst.blanks_eq, atOperands_of_starts k _ hst, List.append_assoc]
        exact hread _ ht'
      obtain ⟨fuel, rfl⟩ : ∃ n, fuel = n + 1 := ⟨fuel - 1, by omega⟩
      have hl : (blanks (t ++ rest)).length < fuel := by
        have h1 := length_blanks_le r'
        rw [hb, hst.blanks_eq] at h1
        have h2 := length_blanks_le (t ++ rest)
        simp only [List.append_assoc, List.length_append] at *
        omega
      simp only [List.append_assoc] at hsign ⊢
      simp [chainFrom, hsign, hread', ih hl]

/-- Operands of a level with signs between them are read from the left. -/
lemma readerAt_tail {sub : Reader Expr} {k : ℕ} {a t rest : Text} {e e' : Expr}
    (hs : Starts a) (ha : readerAt sub k (a ++ (t ++ rest)) = some (e, blanks (t ++ rest)))
    (h : Tail sub k t e e') (hr : Ends (k + 1) rest) :
    readerAt sub (k + 1) (a ++ t ++ rest) = some (e', blanks rest) := by
  have ha' := (atOperands_of_starts k (readerAt sub k) (hs.append (t ++ rest))).trans ha
  simp only [readerAt, chain, List.append_assoc, ha']
  exact chainFrom_tail h hr (Nat.lt_succ_self _)

/-! ### Texts that are read -/

/-- A text that is read as an expression at a level, before everything that
ends it and with at least `n` more expressions allowed to be open. -/
structure Reads (n k : ℕ) (s : Text) (e : Expr) : Prop where
  starts : Starts s
  reads : ∀ d, n ≤ d → ∀ rest, Ends k rest →
    readerAt (exprAt? d) k (s ++ rest) = some (e, blanks rest)

/-- What is read at a level is read at the looser ones. -/
lemma Reads.lift {n m j k : ℕ} {s : Text} {e : Expr} (h : Reads n j s e)
    (hnm : n ≤ m) (hjk : j ≤ k) : Reads m k s e where
  starts := h.starts
  reads d hd rest he :=
    readerAt_lift hjk (h.starts.append rest) he.signs
      (h.reads d (hnm.trans hd) rest (he.mono hjk))

/-- A text that is read at the loosest level is an expression. -/
lemma Reads.expr {n d : ℕ} {s rest : Text} {e : Expr} (h : Reads n loosest s e)
    (hd : n < d) (hr : Ends loosest rest) :
    exprAt? d (s ++ rest) = some (e, blanks rest) := by
  obtain ⟨d, rfl⟩ : ∃ m, d = m + 1 := ⟨d - 1, by omega⟩
  rw [exprAt?_succ]
  exact h.reads d (by omega) rest hr

/-- A text that is read at the loosest level is an expression as a whole. -/
theorem Reads.read? {n : ℕ} {s : Text} {e : Expr} (h : Reads n loosest s e)
    (hn : n < maxDepth) : Expr.read? s = some e := by
  have hs := h.expr hn ends_nil
  rw [List.append_nil] at hs
  simp [Expr.read?, hs]

/-- Two operands with a sign between them. -/
lemma Reads.binary {n k : ℕ} {a b sign : Text} {op : Operator} {e f : Expr}
    (ha : Reads n k a e) (hop : Sign k op sign) (hb : Reads n k b f) :
    Reads n (k + 1) (a ++ sign ++ b) (.binary op e f) where
  starts := by simpa using ha.starts.append (sign ++ b)
  reads d hd rest hr := by
    have ht : Tail (exprAt? d) k (sign ++ b ++ []) e (.binary op e f) :=
      .cons hop hb.starts (hb.reads d hd) (.nil _)
    have h := readerAt_tail ha.starts (ha.reads d hd _ (ht.ends hr)) ht hr
    simpa using h

/-- Further operands, each behind the same sign. -/
lemma Tail.ofForall₂ {n d k : ℕ} {op : Operator} {sign : Text} (hop : Sign k op sign)
    (hd : n ≤ d) {ss : List Text} {es : List Expr} (h : List.Forall₂ (Reads n k) ss es)
    (e : Expr) :
    Tail (exprAt? d) k (ss.flatMap (sign ++ ·)) e (es.foldl (.binary op) e) := by
  induction h generalizing e with
  | nil => exact .nil e
  | cons hs _ ih => exact .cons hop hs.starts (hs.reads d hd) (ih _)

/-- Operands with one sign between each two of them are joined from the left. -/
theorem Reads.join {n k : ℕ} {op : Operator} {sign : Text} (hop : Sign k op sign)
    {s : Text} {ss : List Text} {e : Expr} {es : List Expr}
    (hs : Reads n k s e) (hss : List.Forall₂ (Reads n k) ss es) :
    Reads n (k + 1) (Text.join sign (s :: ss)) (es.foldl (.binary op) e) where
  starts := by
    rw [Text.join_cons]
    exact hs.starts.append _
  reads d hd rest hr := by
    have ht := Tail.ofForall₂ hop hd hss e
    have h := readerAt_tail hs.starts (hs.reads d hd _ (ht.ends hr)) ht hr
    rwa [Text.join_cons]

/-! ### The signs that paths are written with -/

lemma sign_or : Sign 6 .or " or ".toList :=
  ⟨ends_or, fun _ => ⟨_, rfl, rfl, by simp [blanks, Text.isSpace]⟩⟩

lemma sign_and : Sign 5 .and " and ".toList :=
  ⟨ends_and, fun _ => ⟨_, rfl, rfl, by simp [blanks, Text.isSpace]⟩⟩

lemma sign_equals : Sign 4 .eq ['='] :=
  ⟨ends_equals, fun _ => ⟨_, rfl, rfl, by simp [blanks, Text.isSpace]⟩⟩

lemma sign_spaced_equals : Sign 4 .eq " = ".toList :=
  ⟨ends_spaced_equals, fun _ => ⟨_, rfl, rfl, by simp [blanks, Text.isSpace]⟩⟩

lemma sign_plus : Sign 2 .add " + ".toList :=
  ⟨ends_plus, fun _ => ⟨_, rfl, rfl, by simp [blanks, Text.isSpace]⟩⟩

lemma sign_minus : Sign 2 .sub " - ".toList :=
  ⟨ends_minus, fun _ => ⟨_, rfl, rfl, by simp [blanks, Text.isSpace]⟩⟩

lemma sign_bar : Sign 0 .union " | ".toList :=
  ⟨ends_bar, fun _ => ⟨_, rfl, rfl, by simp [blanks, Text.isSpace]⟩⟩

end Locator.XPath
