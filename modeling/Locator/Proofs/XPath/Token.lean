/-
Characters of expressions

* `openMark`, `IsClosed`: the quotation mark that is open behind a text, and texts behind which
  none is;
* `Outside`: closed texts whose characters outside of literals are in a class;
* `Leaves`: a text with what readers leave of it, and one lemma for each reader, with
  `outside_of_read?`: **outside of literals an expression holds ASCII and names** alone.
-/
import Locator.Proofs.Text.Name
import Locator.Proofs.Text.Strip
import Locator.Proofs.XPath.Level

namespace Locator.XPath

open Text

variable {s t u v w a : Text} {c q : Char} {P : Char → Prop}

/-! ### Quotation marks -/

/-- The quotation mark that is open behind a character. -/
def nextMark : Option Char → Char → Option Char
  | some q, c => if c == q then none else some q
  | none, c => if isQuote c then some c else none

/-- The quotation mark that is open behind a text. -/
def openMark (m : Option Char) (s : Text) : Option Char := s.foldl nextMark m

/-- No quotation mark is open behind a text. -/
def IsClosed (s : Text) : Prop := openMark none s = none

instance (s : Text) : Decidable (IsClosed s) := inferInstanceAs (Decidable (_ = _))

@[simp]
lemma openMark_nil (m : Option Char) : openMark m [] = m := rfl

@[simp]
lemma openMark_cons (m : Option Char) (c : Char) (s : Text) :
    openMark m (c :: s) = openMark (nextMark m c) s := rfl

/-- A slash neither opens nor closes a literal. -/
lemma nextMark_slash {m : Option Char} (hm : m ≠ some '/') : nextMark m '/' = m := by
  cases m with
  | none => rfl
  | some q =>
      have hne : '/' ≠ q := fun heq => hm (heq ▸ rfl)
      simp only [nextMark, beq_iff_eq, hne, if_false]

/-- No other character makes a slash a quotation mark. -/
lemma nextMark_ne_slash {m : Option Char} (hm : m ≠ some '/') {c : Char} (hc : c ≠ '/') :
    nextMark m c ≠ some '/' := by
  cases m with
  | none =>
      rw [nextMark]
      split_ifs
      · simpa using hc
      · simp
  | some q =>
      rw [nextMark]
      split_ifs
      · simp
      · exact hm

lemma openMark_append (m : Option Char) (s t : Text) :
    openMark m (s ++ t) = openMark (openMark m s) t := List.foldl_append

lemma isClosed_nil : IsClosed [] := rfl

lemma IsClosed.append_iff (h : IsClosed s) : IsClosed (s ++ t) ↔ IsClosed t := by
  rw [IsClosed, openMark_append, h, IsClosed]

lemma IsClosed.append (h : IsClosed s) (ht : IsClosed t) : IsClosed (s ++ t) := h.append_iff.mpr ht

/-- Other characters neither open nor close anything. -/
lemma openMark_of_not_mem {m : Option Char} (hm : ∀ q ∈ m, q ∉ s)
    (h : m = none → ∀ c ∈ s, isQuote c = false) : openMark m s = m := by
  induction s with
  | nil => rfl
  | cons c s ih =>
      have hnext : nextMark m c = m := by
        cases m with
        | none =>
            have hc := h rfl c List.mem_cons_self
            simp only [nextMark, hc, Bool.false_eq_true, if_false]
        | some q =>
            have hne : c ≠ q := fun heq => hm q rfl (heq ▸ List.mem_cons_self)
            simp only [nextMark, beq_iff_eq, hne, if_false]
      rw [openMark_cons, hnext]
      exact ih (fun q hq hs => hm q hq (List.mem_cons_of_mem c hs))
        fun hnone d hd => h hnone d (List.mem_cons_of_mem c hd)

lemma isClosed_of_no_quote (h : ∀ c ∈ s, isQuote c = false) : IsClosed s :=
  openMark_of_not_mem (by simp) fun _ => h

/-- The mark of a literal is open in its value. -/
lemma openMark_value (hv : q ∉ v) : openMark (some q) v = some q :=
  openMark_of_not_mem (by simpa using hv) (by simp)

/-! ### Characters outside of literals -/

/-- A closed text, all of whose characters outside of literals are in a class. -/
structure Outside (P : Char → Prop) (s : Text) : Prop where
  closed : IsClosed s
  chars : ∀ a c w, s = a ++ c :: w → IsClosed a → P c

namespace Outside

lemma of_plain (h : ∀ c ∈ s, isQuote c = false ∧ P c) : Outside P s where
  closed := isClosed_of_no_quote fun c hc => (h c hc).1
  chars a c w heq _ := (h c (by simp [heq])).2

lemma nil : Outside P [] := .of_plain (by simp)

lemma append (h : Outside P s) (ht : Outside P t) : Outside P (s ++ t) where
  closed := h.closed.append ht.closed
  chars a c w heq ha := by
    obtain ⟨x, rfl, hx⟩ | ⟨x, rfl, hx⟩ := List.append_eq_append_iff.mp heq
    · exact ht.chars x c w hx (h.closed.append_iff.mp ha)
    · cases x with
      | nil => exact ht.chars [] c w hx.symm isClosed_nil
      | cons d x =>
          obtain ⟨rfl, -⟩ := List.cons.inj hx
          exact h.chars a c x rfl ha

lemma flatMap {α : Type} {l : List α} {f : α → Text} (h : ∀ x ∈ l, Outside P (f x)) :
    Outside P (l.flatMap f) := by
  induction l with
  | nil => exact nil
  | cons x l ih =>
      rw [List.forall_mem_cons] at h
      exact h.1.append (ih h.2)

lemma join {sep : Text} {ps : List Text} (hs : Outside P sep) (h : ∀ p ∈ ps, Outside P p) :
    Outside P (Text.join sep ps) := by
  cases ps with
  | nil => exact nil
  | cons p ps =>
      rw [List.forall_mem_cons] at h
      rw [join_cons]
      exact h.1.append (flatMap fun p hp => hs.append (h.2 p hp))

lemma of_closed (h : IsClosed s) : Outside (fun _ => True) s := ⟨h, fun _ _ _ _ _ => trivial⟩

lemma left (h : Outside P (s ++ t)) (hs : IsClosed s) : Outside P s where
  closed := hs
  chars a c w heq := h.chars a c (w ++ t) (by rw [heq]; simp)

lemma right (h : Outside P (s ++ t)) (hs : IsClosed s) : Outside P t where
  closed := hs.append_iff.mp h.closed
  chars a c w heq ha := h.chars (s ++ a) c w (by rw [heq]; simp) (hs.append ha)

/-- What closed texts make up is outside only if they are. -/
lemma of_flatMap {α : Type} {l : List α} {f : α → Text} (h : Outside P (l.flatMap f))
    (hc : ∀ x ∈ l, IsClosed (f x)) : ∀ x ∈ l, Outside P (f x) := by
  induction l with
  | nil => simp
  | cons x l ih =>
      rw [List.flatMap_cons] at h
      rw [List.forall_mem_cons] at hc ⊢
      exact ⟨h.left hc.1, ih (h.right hc.1) hc.2⟩

lemma of_join {sep : Text} {ps : List Text} (h : Outside P (Text.join sep ps))
    (hs : IsClosed sep) (hc : ∀ p ∈ ps, IsClosed p) : ∀ p ∈ ps, Outside P p := by
  cases ps with
  | nil => simp
  | cons p ps =>
      rw [join_cons] at h
      rw [List.forall_mem_cons] at hc ⊢
      have hmore := of_flatMap (h.right hc.1) fun p hp => hs.append (hc.2 p hp)
      exact ⟨h.left hc.1, fun p hp => (hmore p hp).right hs⟩

/-- The characters of a text without quotation marks stand outside. -/
lemma of_no_quote (h : Outside P s) (hs : ∀ c ∈ s, isQuote c = false) : ∀ c ∈ s, P c := by
  intro c hc
  obtain ⟨u, w, rfl⟩ := List.append_of_mem hc
  exact h.chars u c w rfl (isClosed_of_no_quote fun d hd => hs d (List.mem_append_left _ hd))

/-- Of a literal, the mark in front of it stands outside. -/
lemma literal (hq : isQuote q = true) (hP : P q) (hv : q ∉ v) : Outside P (q :: v ++ [q]) := by
  have hopen : nextMark none q = some q := if_pos hq
  constructor
  · rw [IsClosed, List.cons_append, openMark_cons, hopen, openMark_append, openMark_value hv]
    simp [nextMark]
  · intro a c w heq ha
    cases a with
    | nil =>
        obtain ⟨rfl, -⟩ := List.cons.inj heq
        exact hP
    | cons d a =>
        obtain ⟨rfl, htail⟩ := List.cons.inj heq
        have htail : v ++ [q] = a ++ c :: w := htail
        have hnot : q ∉ a := by
          obtain ⟨x, rfl, hx⟩ | ⟨x, rfl, -⟩ := List.append_eq_append_iff.mp htail
          · cases x with
            | nil => simpa using hv
            | cons d x => simp at hx
          · exact fun hm => hv (List.mem_append_left x hm)
        rw [IsClosed, openMark_cons, hopen, openMark_value hnot] at ha
        simp at ha

end Outside

/-- What closed texts make up is closed. -/
lemma isClosed_flatMap {α : Type} {l : List α} {f : α → Text} (h : ∀ x ∈ l, IsClosed (f x)) :
    IsClosed (l.flatMap f) :=
  (Outside.flatMap fun x hx => .of_closed (h x hx)).closed

lemma isClosed_join {sep : Text} {ps : List Text} (hs : IsClosed sep)
    (h : ∀ p ∈ ps, IsClosed p) : IsClosed (join sep ps) :=
  (Outside.join (.of_closed hs) fun p hp => .of_closed (h p hp)).closed

/-! ### What readers leave -/

/-- What an expression holds outside of literals: ASCII and the characters of names. -/
def IsToken (c : Char) : Prop := c.toNat < 128 ∨ isNameChar c = true

lemma isToken_of_isNameChar (h : isNameChar c = true) : isQuote c = false ∧ IsToken c := by
  refine ⟨?_, .inr h⟩
  rw [Bool.eq_false_iff]
  intro hq
  simp only [isQuote, Bool.or_eq_true, beq_iff_eq] at hq
  rcases hq with rfl | rfl <;> exact absurd h (by decide)

/-- A text without what a reader takes from its start, which holds tokens outside of
literals. -/
def Leaves (s r : Text) : Prop := ∃ u, s = u ++ r ∧ Outside IsToken u

/-- A reader takes tokens. -/
def Takes {α : Type} (f : Reader α) : Prop := ∀ ⦃s x r⦄, f s = some (x, r) → Leaves s r

variable {r : Text} {e : Expr} {sub operand : Reader Expr} {n fuel : ℕ}

namespace Leaves

lemma refl (s : Text) : Leaves s s := ⟨[], rfl, .nil⟩

lemma trans (h : Leaves s t) (h' : Leaves t u) : Leaves s u := by
  obtain ⟨x, rfl, hx⟩ := h
  obtain ⟨y, rfl, hy⟩ := h'
  exact ⟨x ++ y, (List.append_assoc ..).symm, hx.append hy⟩

/-- Characters that are no quotation marks. -/
lemma of_append (h : ∀ c ∈ u, isQuote c = false ∧ IsToken c) (r : Text) : Leaves (u ++ r) r :=
  ⟨u, rfl, .of_plain h⟩

/-- A character that is no quotation mark. -/
lemma cons (h : isQuote c = false ∧ IsToken c) (r : Text) : Leaves (c :: r) r :=
  of_append (u := [c]) (by simpa using h) r

/-- An ASCII character that is no quotation mark. -/
lemma sign (r : Text) (h : isQuote c = false ∧ c.toNat < 128) : Leaves (c :: r) r :=
  cons ⟨h.1, .inl h.2⟩ r

/-- A run of characters that are no quotation marks. -/
lemma dropWhile {p : Char → Bool} (h : ∀ c, p c = true → isQuote c = false ∧ IsToken c) (s : Text) :
    Leaves s (s.dropWhile p) := by
  have hs := of_append (u := s.takeWhile p) (fun c hc => h c (List.mem_takeWhile_imp hc))
    (s.dropWhile p)
  rwa [List.takeWhile_append_dropWhile] at hs

lemma blanks (s : Text) : Leaves s (blanks s) :=
  dropWhile (fun c hc => by
    simp only [isSpace, Bool.or_eq_true, beq_iff_eq, or_assoc] at hc
    rcases hc with rfl | rfl | rfl | rfl <;> exact ⟨rfl, .inl (by decide)⟩) s

/-- What stands behind the blanks. -/
lemma of_blanks (h : XPath.blanks s = t) (ht : Leaves t r) : Leaves s r := by
  subst h
  exact (blanks s).trans ht

lemma names (s : Text) : Leaves s (s.dropWhile isNameChar) :=
  dropWhile (fun _ => isToken_of_isNameChar) s

lemma digits (s : Text) : Leaves s (s.dropWhile Char.isDigit) :=
  dropWhile (fun c hc => isToken_of_isNameChar (by simp [isNameChar, hc])) s

end Leaves

/-! ### Names, numbers and literals -/

lemma takes_plainName : Takes plainName? := by
  intro s x r h
  cases s with
  | nil => cases h
  | cons c r =>
      rw [plainName?] at h
      split_ifs at h with hc
      obtain ⟨-, rfl⟩ := Prod.mk.inj (Option.some.inj h)
      exact (Leaves.cons (isToken_of_isNameChar (isNameChar_of_isNameStart hc)) r).trans (.names r)

lemma takes_qualifiedName : Takes qualifiedName? := by
  intro s x r h
  simp only [qualifiedName?, Option.bind_eq_bind, Option.bind_eq_some_iff, Prod.exists] at h
  obtain ⟨name, r₁, hname, h⟩ := h
  refine (takes_plainName hname).trans ?_
  split at h
  · simp only [Option.bind_eq_some_iff, Prod.exists] at h
    obtain ⟨base, r₂, hbase, h⟩ := h
    obtain ⟨-, rfl⟩ := Prod.mk.inj (Option.some.inj h)
    exact (Leaves.sign _ (by decide)).trans (takes_plainName hbase)
  · obtain ⟨-, rfl⟩ := Prod.mk.inj (Option.some.inj h)
    exact .refl _

lemma takes_literal : Takes literal? := by
  intro s x r h
  cases s with
  | nil => cases h
  | cons q s =>
      rw [literal?] at h
      split_ifs at h with hq
      obtain ⟨rfl, hv⟩ := eq_of_cutAt? h
      have hascii : q.toNat < 128 := by
        simp only [isQuote, Bool.or_eq_true, beq_iff_eq] at hq
        rcases hq with rfl | rfl <;> decide
      exact ⟨q :: x ++ [q], by simp, .literal hq (.inl hascii) hv⟩

lemma leaves_readExponent {y : ℤ × Text} (h : Number.readExponent? s = some y) : Leaves s y.2 := by
  unfold Number.readExponent? at h
  split at h
  · cases h
  · next c r =>
      by_cases hc : (c == 'e' || c == 'E') = true
      · have hletter : isQuote c = false ∧ c.toNat < 128 := by
          simp only [Bool.or_eq_true, beq_iff_eq] at hc
          rcases hc with rfl | rfl <;> decide
        refine (Leaves.sign r hletter).trans ?_
        rw [if_pos hc] at h
        split at h
        next negative w hsign =>
          obtain rfl := Option.some.inj h
          have hw : Leaves r w := by
            split at hsign <;> obtain ⟨-, rfl⟩ := Prod.mk.inj hsign
            · exact .sign _ (by decide)
            · exact .sign _ (by decide)
            · exact .refl _
          exact hw.trans (.digits w)
      · rw [if_neg hc] at h
        cases h

lemma leaves_readFraction {y : Number × Text} (h : Number.readFraction? s = some y) :
    Leaves s y.2 := by
  unfold Number.readFraction? at h
  split at h
  · obtain rfl := Option.some.inj h
    exact (Leaves.sign _ (by decide)).trans (.digits _)
  · cases h

lemma leaves_number (s : Text) : Leaves s (Number.read s).2 := by
  refine (Leaves.digits s).trans ?_
  rw [Number.read]
  generalize s.dropWhile Char.isDigit = r
  generalize Number.ofDigits (s.takeWhile Char.isDigit) = n
  cases hf : Number.readFraction? r with
  | none =>
      cases he : Number.readExponent? r with
      | none => simp [he, Leaves.refl]
      | some y => simpa [he] using leaves_readExponent he
  | some z =>
      refine (leaves_readFraction hf).trans ?_
      cases he : Number.readExponent? z.2 with
      | none => simp [he, Leaves.refl]
      | some y => simpa [he] using leaves_readExponent he

/-! ### Tests and steps -/

/-- A test of a kind, if a closing parenthesis stands behind it. -/
def closedBehind (y : NodeTest × Text) : Option (NodeTest × Text) :=
  match y.2 with
  | ')' :: r => some (y.1, r)
  | _ => none

/-- What is read of each kind ends with a parenthesis. -/
lemma leaves_of_closedBehind {o : Option (NodeTest × Text)} {x : NodeTest} {r : Text}
    (h : o.bind closedBehind = some (x, r)) : ∃ y, o = some y ∧ Leaves y.2 r := by
  obtain ⟨y, rfl, hy⟩ := Option.bind_eq_some_iff.mp h
  refine ⟨y, rfl, ?_⟩
  rw [closedBehind] at hy
  split at hy
  · next heq =>
      obtain ⟨-, rfl⟩ := Prod.mk.inj (Option.some.inj hy)
      rw [heq]
      exact .sign _ (by decide)
  · cases hy

lemma takes_kindTest (kind : Text) : Takes (kindTest? kind) := by
  intro s x r h
  simp only [kindTest?, Option.bind_eq_bind, Option.pure_def] at h
  refine (Leaves.blanks s).trans ?_
  split_ifs at h
  · obtain ⟨y, ⟨rfl⟩, hy⟩ := leaves_of_closedBehind h
    exact hy
  · obtain ⟨y, ⟨rfl⟩, hy⟩ := leaves_of_closedBehind h
    exact hy
  · obtain ⟨y, ⟨rfl⟩, hy⟩ := leaves_of_closedBehind h
    exact hy
  · split at h
    · obtain ⟨y, ⟨rfl⟩, hy⟩ := leaves_of_closedBehind h
      exact hy
    · obtain ⟨y, hy, hend⟩ := leaves_of_closedBehind h
      obtain ⟨⟨target, w⟩, hliteral, rfl⟩ := Option.map_eq_some_iff.mp hy
      exact (takes_literal hliteral).trans ((Leaves.blanks w).trans hend)
  · obtain ⟨y, hy, -⟩ := leaves_of_closedBehind h
    cases hy

lemma takes_nameTest (name : Text) : Takes (nameTest? name) := by
  intro s x r h
  unfold nameTest? at h
  split at h
  · next w hw => exact .of_blanks hw ((Leaves.sign w (by decide)).trans (takes_kindTest name h))
  · split at h
    · obtain ⟨-, rfl⟩ := Prod.mk.inj (Option.some.inj h)
      exact (Leaves.sign _ (by decide)).trans (.sign _ (by decide))
    · simp only [Option.bind_eq_bind, Option.bind_eq_some_iff, Prod.exists] at h
      obtain ⟨base, w, hbase, h⟩ := h
      obtain ⟨-, rfl⟩ := Prod.mk.inj (Option.some.inj h)
      exact (Leaves.sign _ (by decide)).trans (takes_plainName hbase)
    · obtain ⟨-, rfl⟩ := Prod.mk.inj (Option.some.inj h)
      exact .refl _

lemma takes_nodeTest : Takes nodeTest? := by
  intro s x r h
  unfold nodeTest? at h
  split at h
  · next w hw =>
      obtain ⟨-, rfl⟩ := Prod.mk.inj (Option.some.inj h)
      exact .of_blanks hw (.sign w (by decide))
  · simp only [Option.bind_eq_bind, Option.bind_eq_some_iff, Prod.exists] at h
    obtain ⟨name, w, hname, h⟩ := h
    exact ((Leaves.blanks s).trans (takes_plainName hname)).trans (takes_nameTest name h)

lemma takes_axisAndTest : Takes axisAndTest? := by
  intro s x r h
  unfold axisAndTest? at h
  split at h
  · obtain ⟨⟨test, w⟩, htest, heq⟩ := Option.map_eq_some_iff.mp h
    obtain ⟨-, rfl⟩ := Prod.mk.inj heq
    exact (Leaves.sign _ (by decide)).trans (takes_nodeTest htest)
  · split at h
    · obtain ⟨⟨test, w⟩, htest, heq⟩ := Option.map_eq_some_iff.mp h
      obtain ⟨-, rfl⟩ := Prod.mk.inj heq
      exact takes_nodeTest htest
    · next name w hname =>
        refine (takes_plainName hname).trans ?_
        split at h
        · next hw =>
            obtain ⟨⟨test, w'⟩, htest, heq⟩ := Option.map_eq_some_iff.mp h
            obtain ⟨-, rfl⟩ := Prod.mk.inj heq
            exact .of_blanks hw (((Leaves.sign _ (by decide)).trans (.sign _ (by decide))).trans (takes_nodeTest htest))
        · obtain ⟨⟨test, w'⟩, htest, heq⟩ := Option.map_eq_some_iff.mp h
          obtain ⟨-, rfl⟩ := Prod.mk.inj heq
          exact (Leaves.blanks w).trans (takes_nameTest name htest)
        · obtain ⟨⟨test, w'⟩, htest, heq⟩ := Option.map_eq_some_iff.mp h
          obtain ⟨-, rfl⟩ := Prod.mk.inj heq
          exact takes_nameTest name htest

lemma takes_predicate (hsub : Takes sub) : Takes (predicate? sub) := by
  intro s x r h
  unfold predicate? at h
  split at h
  · next w =>
      simp only [Option.bind_eq_bind, Option.bind_eq_some_iff, Prod.exists] at h
      obtain ⟨e, w', he, h⟩ := h
      refine ((Leaves.sign w (by decide)).trans (.blanks w)).trans ((hsub he).trans ?_)
      split at h
      · next heq =>
          obtain ⟨-, rfl⟩ := Prod.mk.inj heq
          obtain ⟨-, rfl⟩ := Prod.mk.inj (Option.some.inj h)
          exact (Leaves.sign _ (by decide)).trans (.blanks _)
      · cases h
  · cases h

lemma takes_predicates (hsub : Takes sub) (fuel : ℕ) : Takes (predicates? sub fuel) := by
  induction fuel with
  | zero =>
      intro s x r h
      obtain ⟨-, rfl⟩ := Prod.mk.inj (Option.some.inj h)
      exact .refl s
  | succ fuel ih =>
      intro s x r h
      unfold predicates? at h
      split at h
      · simp only [Option.bind_eq_bind, Option.bind_eq_some_iff, Prod.exists] at h
        obtain ⟨e, r₁, he, es, r₂, hes, h⟩ := h
        obtain ⟨-, rfl⟩ := Prod.mk.inj (Option.some.inj h)
        exact (takes_predicate hsub he).trans (ih hes)
      · obtain ⟨-, rfl⟩ := Prod.mk.inj (Option.some.inj h)
        exact .refl s

lemma takes_step (hsub : Takes sub) (start : Expr) : Takes (step? sub start) := by
  intro s x r h
  unfold step? at h
  split at h
  · next w hw =>
      obtain ⟨-, rfl⟩ := Prod.mk.inj (Option.some.inj h)
      exact .of_blanks hw (((Leaves.sign _ (by decide)).trans (.sign w (by decide))).trans (.blanks w))
  · next w _ hw =>
      obtain ⟨-, rfl⟩ := Prod.mk.inj (Option.some.inj h)
      exact .of_blanks hw ((Leaves.sign w (by decide)).trans (.blanks w))
  · simp only [Option.bind_eq_bind, Option.bind_eq_some_iff, Prod.exists] at h
    obtain ⟨axis, test, r₁, htest, es, r₂, hes, h⟩ := h
    obtain ⟨-, rfl⟩ := Prod.mk.inj (Option.some.inj h)
    exact ((Leaves.blanks s).trans (takes_axisAndTest htest)).trans
      ((Leaves.blanks r₁).trans (takes_predicates hsub _ hes))

/-! ### Paths -/

lemma takes_stepsFrom (hsub : Takes sub) (fuel : ℕ) (e : Expr) : Takes (stepsFrom sub fuel e) := by
  induction fuel generalizing e with
  | zero =>
      intro s x r h
      obtain ⟨-, rfl⟩ := Prod.mk.inj (Option.some.inj h)
      exact .refl s
  | succ fuel ih =>
      intro s x r h
      unfold stepsFrom at h
      split at h
      · next w hw =>
          simp only [Option.bind_eq_bind, Option.bind_eq_some_iff, Prod.exists] at h
          obtain ⟨e₁, r₁, hstep, h⟩ := h
          exact .of_blanks hw ((((Leaves.sign _ (by decide)).trans (.sign w (by decide))).trans (.blanks w)).trans
            ((takes_step hsub _ hstep).trans (ih e₁ h)))
      · next w _ hw =>
          simp only [Option.bind_eq_bind, Option.bind_eq_some_iff, Prod.exists] at h
          obtain ⟨e₁, r₁, hstep, h⟩ := h
          exact .of_blanks hw (((Leaves.sign w (by decide)).trans (.blanks w)).trans
            ((takes_step hsub _ hstep).trans (ih e₁ h)))
      · obtain ⟨-, rfl⟩ := Prod.mk.inj (Option.some.inj h)
        exact .blanks s

lemma takes_relativePath (hsub : Takes sub) (start : Expr) : Takes (relativePath? sub start) := by
  have hsteps : ∀ {start : Expr} {s x r}, ((step? sub start s).bind fun y =>
      stepsFrom sub (y.2.length + 1) y.1 y.2) = some (x, r) → Leaves s r := by
    intro start s x r h
    obtain ⟨⟨e, w⟩, hstep, hmore⟩ := Option.bind_eq_some_iff.mp h
    exact (takes_step hsub start hstep).trans (takes_stepsFrom hsub _ e hmore)
  intro s x r h
  unfold relativePath? at h
  split at h
  · next w hw => exact .of_blanks hw ((((Leaves.sign _ (by decide)).trans (.sign w (by decide))).trans (.blanks w)).trans (hsteps h))
  · next w _ hw => exact .of_blanks hw (((Leaves.sign w (by decide)).trans (.blanks w)).trans (hsteps h))
  · exact (Leaves.blanks s).trans (hsteps h)

lemma takes_absolutePath (hsub : Takes sub) (fuel : ℕ) (e : Expr) :
    Takes (absolutePath? sub fuel e) := by
  induction fuel generalizing e with
  | zero =>
      intro s x r h
      obtain ⟨-, rfl⟩ := Prod.mk.inj (Option.some.inj h)
      exact .refl s
  | succ fuel ih =>
      intro s x r h
      unfold absolutePath? at h
      split at h
      · next w =>
          simp only [Option.bind_eq_bind, Option.bind_eq_some_iff, Prod.exists] at h
          obtain ⟨e₁, r₁, hpath, h⟩ := h
          exact (((Leaves.sign _ (by decide)).trans (.sign w (by decide))).trans (.blanks w)).trans
            ((takes_relativePath hsub _ hpath).trans (ih e₁ h))
      · next w _ =>
          refine (Leaves.sign w (by decide)).trans ((Leaves.blanks w).trans ?_)
          split at h
          · next hw =>
              rw [hw]
              split_ifs at h
              · simp only [Option.bind_eq_bind, Option.bind_eq_some_iff, Prod.exists] at h
                obtain ⟨e₁, r₁, hpath, h⟩ := h
                exact (takes_relativePath hsub _ hpath).trans (ih e₁ h)
              · exact ih e h
          · next hw =>
              obtain ⟨-, rfl⟩ := Prod.mk.inj (Option.some.inj h)
              rw [hw]
              exact .refl []
      · obtain ⟨-, rfl⟩ := Prod.mk.inj (Option.some.inj h)
        exact .refl s

lemma takes_locationPath (hsub : Takes sub) : Takes (locationPath? sub) := by
  intro s x r h
  unfold locationPath? at h
  split at h
  · next w hw => exact .of_blanks hw (takes_absolutePath hsub _ _ h)
  · exact (Leaves.blanks s).trans (takes_relativePath hsub _ h)

/-! ### Calls and operands -/

lemma takes_arguments (hsub : Takes sub) (fuel : ℕ) : Takes (arguments? sub fuel) := by
  induction fuel with
  | zero =>
      intro s x r h
      obtain ⟨-, rfl⟩ := Prod.mk.inj (Option.some.inj h)
      exact .refl s
  | succ fuel ih =>
      intro s x r h
      unfold arguments? at h
      split at h
      · obtain ⟨-, rfl⟩ := Prod.mk.inj (Option.some.inj h)
        exact .refl []
      · simp only [Option.bind_eq_bind, Option.bind_eq_some_iff, Prod.exists] at h
        obtain ⟨e, r₁, he, h⟩ := h
        refine (hsub he).trans ?_
        split at h
        · obtain ⟨-, rfl⟩ := Prod.mk.inj (Option.some.inj h)
          exact .sign _ (by decide)
        · next w =>
            simp only [Option.bind_eq_some_iff, Prod.exists] at h
            obtain ⟨es, r₂, hes, h⟩ := h
            obtain ⟨-, rfl⟩ := Prod.mk.inj (Option.some.inj h)
            exact ((Leaves.sign w (by decide)).trans (.blanks w)).trans (ih hes)
        · cases h

lemma takes_call (hsub : Takes sub) : Takes (call? sub) := by
  intro s x r h
  simp only [call?, Option.bind_eq_bind, Option.bind_eq_some_iff, Prod.exists] at h
  obtain ⟨pfx, name, r₁, hname, h⟩ := h
  refine (takes_qualifiedName hname).trans ?_
  split at h
  · next w hw =>
      refine .of_blanks hw ((Leaves.sign w (by decide)).trans ?_)
      split at h
      · next w' hw' =>
          obtain ⟨-, rfl⟩ := Prod.mk.inj (Option.some.inj h)
          exact .of_blanks hw' ((Leaves.sign w' (by decide)).trans (.blanks w'))
      · simp only [Option.bind_eq_some_iff, Prod.exists] at h
        obtain ⟨es, r₂, hes, h⟩ := h
        obtain ⟨-, rfl⟩ := Prod.mk.inj (Option.some.inj h)
        exact (Leaves.blanks w).trans ((takes_arguments hsub _ hes).trans (.blanks r₂))
  · cases h

lemma takes_primary (hsub : Takes sub) : Takes (primary? sub) := by
  have hliteral : ∀ {s x r}, (literal? s).map (fun y => (Expr.literal y.1, blanks y.2)) =
      some (x, r) → Leaves s r := by
    intro s x r h
    obtain ⟨⟨t, w⟩, ht, heq⟩ := Option.map_eq_some_iff.mp h
    obtain ⟨-, rfl⟩ := Prod.mk.inj heq
    exact (takes_literal ht).trans (.blanks w)
  intro s x r h
  unfold primary? at h
  split_ifs at h with hnumber
  · obtain ⟨-, rfl⟩ := Prod.mk.inj (Option.some.inj h)
    exact (leaves_number s).trans (.blanks _)
  · split at h
    · next w =>
        simp only [Option.bind_eq_bind, Option.bind_eq_some_iff, Prod.exists] at h
        obtain ⟨pfx, name, r₁, hname, h⟩ := h
        obtain ⟨-, rfl⟩ := Prod.mk.inj (Option.some.inj h)
        exact (Leaves.sign w (by decide)).trans ((takes_qualifiedName hname).trans (.blanks r₁))
    · next w =>
        simp only [Option.bind_eq_bind, Option.bind_eq_some_iff, Prod.exists] at h
        obtain ⟨e, w', he, h⟩ := h
        refine ((Leaves.sign w (by decide)).trans (.blanks w)).trans ((hsub he).trans ?_)
        split at h
        · next heq =>
            obtain ⟨-, rfl⟩ := Prod.mk.inj heq
            obtain ⟨-, rfl⟩ := Prod.mk.inj (Option.some.inj h)
            exact (Leaves.sign _ (by decide)).trans (.blanks _)
        · cases h
    · exact hliteral h
    · exact hliteral h
    · exact takes_call hsub h

lemma takes_pathExpr (hsub : Takes sub) : Takes (pathExpr? sub) := by
  intro s x r h
  simp only [pathExpr?, Option.bind_eq_bind, Option.bind_eq_some_iff] at h
  obtain ⟨b, -, h⟩ := h
  refine (Leaves.blanks s).trans ?_
  cases b with
  | false =>
      simp only [Bool.false_eq_true, if_false, Option.bind_eq_some_iff, Prod.exists] at h
      obtain ⟨e, r₁, hpath, h⟩ := h
      obtain ⟨-, rfl⟩ := Prod.mk.inj (Option.some.inj h)
      exact (takes_locationPath hsub hpath).trans (.blanks r₁)
  | true =>
      simp only [if_true, Option.bind_eq_some_iff, Prod.exists] at h
      obtain ⟨e, r₁, hprimary, es, r₂, hes, h⟩ := h
      refine (takes_primary hsub hprimary).trans ((takes_predicates hsub _ hes).trans ?_)
      split at h
      · next w =>
          simp only [Option.bind_eq_some_iff, Prod.exists] at h
          obtain ⟨e', r₃, hpath, h⟩ := h
          obtain ⟨-, rfl⟩ := Prod.mk.inj (Option.some.inj h)
          exact (((Leaves.sign _ (by decide)).trans (.sign w (by decide))).trans (.blanks w)).trans
            ((takes_relativePath hsub _ hpath).trans (.blanks r₃))
      · simp only [Option.bind_eq_some_iff, Prod.exists] at h
        obtain ⟨e', r₃, hpath, h⟩ := h
        obtain ⟨-, rfl⟩ := Prod.mk.inj (Option.some.inj h)
        exact (takes_relativePath hsub _ hpath).trans (.blanks r₃)
      · obtain ⟨-, rfl⟩ := Prod.mk.inj (Option.some.inj h)
        exact .refl _

/-! ### Signs -/

/-- The signs of a level are tokens. -/
lemma takes_sign (k : ℕ) : Takes (sign? (signsAt k)) := by
  have hsigns : ∀ p ∈ signsAt k, ∀ c ∈ p.1, isQuote c = false ∧ c.toNat < 128 := by
    match k with
    | 1 | 2 | 3 | 4 | 5 | 6 => decide
    | 0 | _ + 7 =>
        have h : ∀ p ∈ [("or".toList, Operator.or)], ∀ c ∈ p.1, isQuote c = false ∧ c.toNat < 128 := by
          decide
        exact h
  intro s x r h
  obtain ⟨p, hp, hsome⟩ := List.exists_of_findSome?_eq_some h
  obtain ⟨w, hw, heq⟩ := Option.map_eq_some_iff.mp hsome
  obtain ⟨-, rfl⟩ := Prod.mk.inj heq
  rw [behind?_eq_some.mp hw]
  exact .of_append (fun c hc => ⟨(hsigns p hp c hc).1, .inl (hsigns p hp c hc).2⟩) w

lemma takes_chainFrom (ho : Takes operand) (k fuel : ℕ) (e : Expr) :
    Takes (chainFrom (signsAt k) operand fuel e) := by
  induction fuel generalizing e with
  | zero =>
      intro s x r h
      obtain ⟨-, rfl⟩ := Prod.mk.inj (Option.some.inj h)
      exact .refl s
  | succ fuel ih =>
      intro s x r h
      unfold chainFrom at h
      refine (Leaves.blanks s).trans ?_
      split at h
      · obtain ⟨-, rfl⟩ := Prod.mk.inj (Option.some.inj h)
        exact .refl _
      · next op w hop =>
          simp only [Option.bind_eq_bind, Option.bind_eq_some_iff, Prod.exists] at h
          obtain ⟨right, r₁, hright, h⟩ := h
          exact (takes_sign k hop).trans ((Leaves.blanks w).trans ((ho hright).trans (ih _ h)))

lemma takes_chain (ho : Takes operand) (k : ℕ) : Takes (chain (signsAt k) operand) := by
  intro s x r h
  simp only [chain, Option.bind_eq_bind, Option.bind_eq_some_iff, Prod.exists] at h
  obtain ⟨left, r₁, hleft, h⟩ := h
  exact (ho hleft).trans (takes_chainFrom ho k _ left h)

lemma leaves_minusSigns (any odd : Bool) (s : Text) : Leaves s (minusSigns any odd s).2.2 := by
  induction s generalizing any odd with
  | nil => exact .refl []
  | cons c s ih =>
      rw [minusSigns]
      split_ifs with hminus hspace
      · rw [eq_of_beq hminus]
        exact (Leaves.sign s (by decide)).trans (ih _ _)
      · have hc : isSpace c = true := (Bool.and_eq_true_iff.mp hspace).2
        refine (Leaves.cons ?_ s).trans (ih _ _)
        simp only [isSpace, Bool.or_eq_true, beq_iff_eq, or_assoc] at hc
        rcases hc with rfl | rfl | rfl | rfl <;> exact ⟨rfl, .inl (by decide)⟩
      · exact .refl _

lemma takes_unary (ho : Takes operand) : Takes (unary operand) := by
  intro s x r h
  simp only [unary, Option.bind_eq_bind, Option.bind_eq_some_iff, Prod.exists] at h
  obtain ⟨e, r₁, he, h⟩ := h
  obtain ⟨-, rfl⟩ := Prod.mk.inj (Option.some.inj h)
  exact (Leaves.blanks s).trans ((leaves_minusSigns _ _ _).trans (ho he))

/-! ### Expressions -/

lemma takes_readerAt (hsub : Takes sub) (k : ℕ) : Takes (readerAt sub k) := by
  induction k with
  | zero => exact takes_pathExpr hsub
  | succ k ih =>
      rw [readerAt]
      refine takes_chain ?_ (k + 1)
      rw [atOperands]
      split_ifs
      · exact takes_unary ih
      · exact ih

/-- What is read takes tokens, however deep it is. -/
theorem takes_exprAt (d : ℕ) : Takes (exprAt? d) := by
  induction d with
  | zero =>
      intro s x r h
      cases h
  | succ d ih =>
      rw [exprAt?_succ]
      exact takes_readerAt ih loosest

/-- **Outside of literals** an expression holds ASCII and names alone. -/
theorem outside_of_read? (h : Expr.read? s = some e) : Outside IsToken s := by
  simp only [Expr.read?, Option.bind_eq_bind, Option.bind_eq_some_iff, Prod.exists] at h
  obtain ⟨e', r, hread, h⟩ := h
  split at h
  · next heq =>
      obtain ⟨-, rfl⟩ := Prod.mk.inj heq
      obtain ⟨u, rfl, hu⟩ := takes_exprAt maxDepth hread
      rwa [List.append_nil]
  · cases h

end Locator.XPath
