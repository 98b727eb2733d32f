/-
Literals, numbers, calls and parentheses

* `reads_inDouble`, `reads_inSingle`: texts between quotation marks;
* `reads_digits`: whole numbers;
* `reads_paren`: an expression in parentheses, one level further in;
* `ReadsClosed`: a text that ends itself, with `closed_call`: a call of a function,
  its arguments one level further in;
* `reads_literal`: **literals**: the literal of any text is read, and
  `literalExpr` is what it is read as.
-/
import Locator.Proofs.XPath.Spaced
import Locator.Proofs.Text.Name
import Locator.Proofs.Text.Words
import Locator.XPath.Literal

namespace Locator.XPath

/-! ### Expressions that are no paths of steps -/

/-- What no predicate and no step is read behind. -/
def EndsPrimary (rest : Text) : Prop :=
  ∀ c ∈ (blanks rest).head?, (c == '[') = false ∧ (c == '/') = false

lemma Ends.endsPrimary {k : ℕ} {rest : Text} (h : Ends k rest) : EndsPrimary rest := by
  intro c hc
  have hs := h.step c hc
  simp only [bindsStep, Bool.or_eq_false_iff] at hs
  exact ⟨hs.1.1, h.slash c hc⟩

/-- No predicates are read where no bracket opens. -/
lemma predicates?_of_head (sub : Reader Expr) {rest : Text} (fuel : ℕ)
    (h : ∀ c ∈ rest.head?, (c == '[') = false) : predicates? sub fuel rest = some ([], rest) := by
  cases fuel with
  | zero => rfl
  | succ fuel =>
      cases rest with
      | nil => rfl
      | cons c r =>
          have hc : c ≠ '[' := by simpa using h
          simp [predicates?, hc]

/-- An expression that is no path of steps, with nothing behind it. -/
lemma pathExpr?_of_primary {sub : Reader Expr} {s rest : Text} {e : Expr} (hs : blanks s = s)
    (hp : startsPrimary? s = some true) (h : primary? sub s = some (e, blanks rest))
    (hr : EndsPrimary rest) : pathExpr? sub s = some (e, blanks rest) := by
  have hb := predicates?_of_head sub ((blanks rest).length + 1) fun c hc => (hr c hc).1
  simp only [pathExpr?, hs, hp, h, hb, filterAll, List.foldl_nil, Option.bind_eq_bind,
    Option.bind_some, if_true]
  split
  · next heq => simpa [heq] using (hr '/' (by simp [heq])).2
  · next heq => simpa [heq] using (hr '/' (by simp [heq])).2
  · rfl

/-- A text that is read as no path of steps. -/
lemma reads_of_primary {n : ℕ} {s : Text} {e : Expr} (hs : Starts s)
    (hp : ∀ rest, startsPrimary? (s ++ rest) = some true)
    (h : ∀ d, n ≤ d → ∀ rest, Ends 0 rest →
      primary? (exprAt? d) (s ++ rest) = some (e, blanks rest)) : Reads n 0 s e where
  starts := hs
  reads d hd rest hr :=
    pathExpr?_of_primary (hs.append rest).blanks_eq (hp rest) (h d hd rest hr) hr.endsPrimary

/-- A text that is read as no path of steps, whatever follows that goes on with no
predicate and no step. -/
structure ReadsClosed (n : ℕ) (s : Text) (e : Expr) : Prop where
  starts : Starts s
  reads : ∀ d, n ≤ d → ∀ rest, EndsPrimary rest →
    pathExpr? (exprAt? d) (s ++ rest) = some (e, blanks rest)

lemma ReadsClosed.toReads {n : ℕ} {s : Text} {e : Expr} (h : ReadsClosed n s e) :
    Reads n 0 s e where
  starts := h.starts
  reads d hd rest hr := h.reads d hd rest hr.endsPrimary

/-! ### Texts between quotation marks -/

lemma cutAt?_append {q : Char} {v : Text} (hv : q ∉ v) (rest : Text) :
    Text.cutAt? q (v ++ q :: rest) = some (v, rest) := by
  have hn : ∀ c ∈ v, decide (c ≠ q) = true := by
    intro c hc
    simpa using fun h : c = q => hv (h ▸ hc)
  have hq : ∀ c ∈ (q :: rest).head?, decide (c ≠ q) = false := by simp
  rw [Text.cutAt?, Text.takeWhile_append_of_all hn hq, Text.dropWhile_append_of_all hn hq]

lemma reads_inDouble {v : Text} (hv : '"' ∉ v) : Reads 0 0 (inDouble v) (.literal v) := by
  refine reads_of_primary ⟨'"', v ++ ['"'], rfl, rfl, by simp, by simp⟩ (fun _ => rfl)
    fun d _ rest _ => ?_
  have h := cutAt?_append hv rest
  have hq : Text.isQuote '"' = true := rfl
  simp [inDouble, primary?, Number.startsHere, literal?, h, hq]

lemma reads_inSingle {v : Text} (hv : '\'' ∉ v) : Reads 0 0 (inSingle v) (.literal v) := by
  refine reads_of_primary ⟨'\'', v ++ ['\''], rfl, rfl, by simp, by simp⟩ (fun _ => rfl)
    fun d _ rest _ => ?_
  have h := cutAt?_append hv rest
  have hq : Text.isQuote '\'' = true := rfl
  simp [inSingle, primary?, Number.startsHere, literal?, h, hq]

/-! ### Whole numbers -/

/-- A text of digits, at least one. -/
def IsDigits (s : Text) : Prop := s ≠ [] ∧ ∀ c ∈ s, c.isDigit = true

/-- What goes on with no name goes on with no number. -/
lemma ne_of_goesOn {c x : Char} (hc : goesOn c = false) (hx : goesOn x = true) :
    c ≠ x := by
  rintro rfl
  simp [hc] at hx

lemma isDigit_of_goesOn {c : Char} (h : goesOn c = false) : c.isDigit = false := by
  simp only [goesOn, Text.isNameChar, Bool.or_eq_false_iff] at h
  tauto

/-- Digits are read as the number they write. -/
lemma read_digits {s rest : Text} (hs : ∀ c ∈ s, c.isDigit = true)
    (hr : ∀ c ∈ rest.head?, goesOn c = false) :
    Number.read (s ++ rest) = (Number.ofDigits s, rest) := by
  have hd : ∀ c ∈ rest.head?, c.isDigit = false := fun c hc => isDigit_of_goesOn (hr c hc)
  have hf : Number.readFraction? rest = none := by
    cases rest with
    | nil => rfl
    | cons c r =>
        have : c ≠ '.' := ne_of_goesOn (hr c (by simp)) rfl
        simp [Number.readFraction?, this]
  have he : Number.readExponent? rest = none := by
    cases rest with
    | nil => rfl
    | cons c r =>
        have h1 : c ≠ 'e' := ne_of_goesOn (hr c (by simp)) rfl
        have h2 : c ≠ 'E' := ne_of_goesOn (hr c (by simp)) rfl
        simp [Number.readExponent?, h1, h2]
  simp [Number.read, Text.takeWhile_append_of_all hs hd, Text.dropWhile_append_of_all hs hd,
    hf, he]

lemma ne_of_isDigit {c x : Char} (hc : c.isDigit = true) (hx : x.isDigit = false) :
    c ≠ x := by
  rintro rfl
  simp [hc] at hx

lemma startsHere_of_isDigit {c : Char} (h : c.isDigit = true) (r : Text) :
    Number.startsHere (c :: r) = true := by
  have : c ≠ '.' := ne_of_isDigit h rfl
  simp [Number.startsHere, this, h]

lemma reads_digits {s : Text} (h : IsDigits s) : Reads 0 0 s (.number (.ofDigits s)) := by
  obtain ⟨hne, hs⟩ := h
  obtain ⟨c, r, rfl⟩ := List.exists_cons_of_ne_nil hne
  have hc : c.isDigit = true := hs c (by simp)
  have hb : Text.isSpace c = false :=
    Text.isSpace_of_isNameChar (by simp [Text.isNameChar, hc])
  refine reads_of_primary ⟨c, r, rfl, hb, ne_of_isDigit hc rfl, ne_of_isDigit hc rfl⟩ (fun rest => ?_)
    fun d _ rest hr => ?_
  · simp [startsPrimary?, startsHere_of_isDigit hc]
  · have hread := read_digits hs hr.word
    rw [List.cons_append] at hread
    simp [primary?, startsHere_of_isDigit hc, hread]

/-! ### Parentheses -/

lemma reads_paren {n : ℕ} {s : Text} {e : Expr} (h : Reads n loosest s e) :
    Reads (n + 1) 0 ('(' :: s ++ [')']) e := by
  refine reads_of_primary ⟨'(', s ++ [')'], rfl, rfl, by simp, by simp⟩ (fun _ => rfl)
    fun d hd rest _ => ?_
  have hs := (h.starts.append (')' :: rest)).blanks_eq
  have hsub := h.expr hd (ends_closing (.inl rfl) rest)
  rw [blanks_cons rfl] at hsub
  simp [primary?, Number.startsHere, hs, hsub]

/-! ### Calls -/

/-- A name that calls a function: it is no kind of nodes. -/
structure IsCallName (name : Text) : Prop where
  isName : Text.IsName name
  noKind : kinds.contains name = false

lemma startsHere_of_isNameStart {c : Char} (h : Text.isNameStart c = true) (r : Text) :
    Number.startsHere (c :: r) = false := by
  have : c ≠ '.' := Text.ne_of_isNameStart h rfl
  simp [Number.startsHere, this, Text.isDigit_of_isNameStart h]

/-- There is no double colon without a colon. -/
lemma hasDoubleColon_of_not_mem {s : Text} (h : ':' ∉ s) : hasDoubleColon s = false := by
  induction s with
  | nil => rfl
  | cons c s ih =>
      simp only [List.mem_cons, not_or] at h
      have ih' := ih h.2
      simp only [hasDoubleColon] at ih'
      simp [hasDoubleColon, Text.occursIn, ih', List.isPrefixOf, h.1]

lemma colon_not_mem {s : Text} (h : Text.IsName s) : ':' ∉ s := fun hm =>
  Text.ne_of_isNameChar (x := ':') (h.isNameChar ':' hm) rfl rfl

/-- What starts with a name starts no number and with no sign of a primary
expression. -/
lemma startsPrimary?_of_isNameStart {c : Char} (h : Text.isNameStart c = true) (r : Text) :
    startsPrimary? (c :: r) = startsCall? (c :: r) := by
  have h1 := startsHere_of_isNameStart h r
  have h2 : c ≠ '$' := Text.ne_of_isNameStart h rfl
  have h3 : c ≠ '(' := Text.ne_of_isNameStart h rfl
  have h4 : c ≠ '"' := Text.ne_of_isNameStart h rfl
  have h5 : c ≠ '\'' := Text.ne_of_isNameStart h rfl
  have h6 : c ≠ '*' := Text.ne_of_isNameStart h rfl
  have h7 : c ≠ '/' := Text.ne_of_isNameStart h rfl
  have h8 : c ≠ '@' := Text.ne_of_isNameStart h rfl
  have h9 : c ≠ '.' := Text.ne_of_isNameStart h rfl
  simp [startsPrimary?, h1, h2, h3, h4, h5, h6, h7, h8, h9, Text.isQuote]

lemma startsCall?_append {name : Text} (h : IsCallName name) (r : Text) :
    startsCall? (name ++ '(' :: r) = some true := by
  obtain ⟨c, s, rfl, hc, hs⟩ := h.isName
  have hall : ∀ d ∈ s, (Text.isNameChar d || d == ':') = true := fun d hd => by simp [hs d hd]
  have hp : ∀ d ∈ ('(' :: r).head?, (Text.isNameChar d || d == ':') = false := by
    simp only [List.head?_cons, Option.mem_some_iff, forall_eq']
    rfl
  have hb : blanks ('(' :: r) = '(' :: r := blanks_cons rfl r
  have hk := h.noKind
  have hdc := hasDoubleColon_of_not_mem (colon_not_mem h.isName)
  simp [startsCall?, hc, Text.takeWhile_append_of_all hall hp,
    Text.dropWhile_append_of_all hall hp, hb, hdc]
  simpa using hk

/-- The name in front of an opening parenthesis. -/
lemma qualifiedName?_append {name : Text} (h : Text.IsName name) (r : Text) :
    qualifiedName? (name ++ '(' :: r) = some ((none, name), '(' :: r) := by
  have hn := Text.plainName?_append h (t := '(' :: r)
    (by simp only [List.head?_cons, Option.mem_some_iff, forall_eq']; rfl)
  simp [qualifiedName?, hn]

/-- A comma, perhaps with blanks behind it. -/
def IsComma (sep : Text) : Prop := ∃ bs, sep = ',' :: bs ∧ ∀ b ∈ bs, Text.isSpace b = true

lemma isComma_spaced : IsComma ", ".toList := ⟨[' '], rfl, by simp [Text.isSpace]⟩

lemma isComma_bare : IsComma [','] := ⟨[], rfl, by simp⟩

/-- Blanks in front of an operand are passed over. -/
lemma blanks_append {w s : Text} (hb : ∀ b ∈ w, Text.isSpace b = true) (hs : Starts s) :
    blanks (w ++ s) = s := by
  obtain ⟨c, r, rfl, hc, -⟩ := hs
  exact Text.dropWhile_append_of_all hb (by simpa using hc)

/-- The arguments of a call, up to its closing parenthesis. -/
lemma arguments?_join {n d : ℕ} (hd : n < d) (rest : Text) {s : Text} {ss : List Text} {e : Expr}
    {es : List Expr} (hs : ReadsBehind n loosest s e)
    (hss : List.Forall₂ (ReadsBehind n loosest) ss es) {fuel : ℕ} (hf : ss.length < fuel) :
    arguments? (exprAt? d) fuel (blanks (Text.join [','] (s :: ss) ++ ')' :: rest)) =
      some (e :: es, rest) := by
  induction hss generalizing s e fuel with
  | nil =>
      obtain ⟨fuel, rfl⟩ : ∃ m, fuel = m + 1 := ⟨fuel - 1, by omega⟩
      obtain ⟨u, hu, hblanks⟩ := hs.exists_blanks
      obtain ⟨c, r, rfl, -⟩ := hu.starts
      have h := hu.expr hd (ends_closing (.inl rfl) rest)
      rw [blanks_cons rfl, List.cons_append] at h
      simp [arguments?, hblanks, h]
  | @cons t f ss es ht hss ih =>
      obtain ⟨fuel, rfl⟩ : ∃ m, fuel = m + 1 := ⟨fuel - 1, by omega⟩
      have hfu : ss.length < fuel := by
        rw [List.length_cons] at hf
        omega
      obtain ⟨u, hu, hblanks⟩ := hs.exists_blanks
      obtain ⟨c, r, rfl, -⟩ := hu.starts
      have h := hu.expr hd (ends_closing (.inr (.inr rfl))
        (Text.join [','] (t :: ss) ++ ')' :: rest))
      rw [blanks_cons rfl, List.cons_append] at h
      rw [Text.join_cons_cons, List.append_assoc, List.append_assoc, hblanks]
      simp [arguments?, h, ih ht hfu]

lemma primary?_of_isNameStart {sub : Reader Expr} {c : Char} (h : Text.isNameStart c = true)
    (r : Text) : primary? sub (c :: r) = call? sub (c :: r) := by
  have h1 := startsHere_of_isNameStart h r
  have h2 : c ≠ '$' := Text.ne_of_isNameStart h rfl
  have h3 : c ≠ '(' := Text.ne_of_isNameStart h rfl
  have h4 : c ≠ '"' := Text.ne_of_isNameStart h rfl
  have h5 : c ≠ '\'' := Text.ne_of_isNameStart h rfl
  simp [primary?, h1, h2, h3, h4, h5]

lemma starts_of_isName {s : Text} (h : Text.IsName s) : Starts s := by
  obtain ⟨c, r, rfl, hc, -⟩ := h
  exact ⟨c, r, rfl, Text.isSpace_of_isNameChar (Text.isNameChar_of_isNameStart hc),
    Text.ne_of_isNameStart hc rfl, Text.ne_of_isNameStart hc rfl⟩

/-- A text that starts with a name and an opening parenthesis is a call. -/
lemma closed_of_call {n : ℕ} {name : Text} (hn : IsCallName name) {e : Expr}
    (args : Text) (h : ∀ d, n ≤ d → ∀ rest, call? (exprAt? d) (name ++ '(' :: (args ++ rest)) =
      some (e, blanks rest)) : ReadsClosed n (name ++ '(' :: args) e where
  starts := (starts_of_isName hn.isName).append _
  reads d hd rest hr := by
    have hstarts := ((starts_of_isName hn.isName).append ('(' :: args)).append rest
    have hp := startsCall?_append hn (args ++ rest)
    have hc := h d hd rest
    refine pathExpr?_of_primary hstarts.blanks_eq ?_ ?_ hr
    · obtain ⟨c, r, rfl, hs, -⟩ := hn.isName
      rw [List.append_assoc, List.cons_append, List.cons_append] at *
      rw [startsPrimary?_of_isNameStart hs, hp]
    · obtain ⟨c, r, rfl, hs, -⟩ := hn.isName
      rw [List.append_assoc, List.cons_append, List.cons_append] at *
      rw [primary?_of_isNameStart hs, hc]

/-- **Calls**: the arguments are read one level further in, with blanks around each. -/
theorem closed_call_spaced {n : ℕ} {name : Text} (hn : IsCallName name) {s : Text}
    {ss : List Text} {e : Expr} {es : List Expr} (hs : ReadsBehind n loosest s e)
    (hss : List.Forall₂ (ReadsBehind n loosest) ss es) :
    ReadsClosed (n + 1) (name ++ '(' :: (Text.join [','] (s :: ss) ++ [')']))
      (.call none name (e :: es)) := by
  refine closed_of_call hn _ fun d hd rest => ?_
  have hq := qualifiedName?_append hn.isName (Text.join [','] (s :: ss) ++ ')' :: rest)
  obtain ⟨u, hu, hblanks⟩ := hs.exists_blanks
  have hstart : ∃ c r, blanks (Text.join [','] (s :: ss) ++ ')' :: rest) = c :: r ∧ c ≠ ')' := by
    rw [Text.join_cons, List.append_assoc, hblanks]
    obtain ⟨c, r, hcr, -, -, hp⟩ := hu.starts.append (ss.flatMap ([','] ++ ·) ++ ')' :: rest)
    exact ⟨c, r, hcr, hp⟩
  have hf : ss.length < (blanks (Text.join [','] (s :: ss) ++ ')' :: rest)).length + 1 := by
    have hlong := Text.length_le_length_join (w := [',']) Nat.one_pos u ss
    rw [Text.join_cons] at hlong
    rw [Text.join_cons, List.append_assoc, hblanks]
    simp only [List.length_append] at hlong ⊢
    omega
  have ha := arguments?_join hd rest hs hss hf
  obtain ⟨c, r, hcr, hp⟩ := hstart
  rw [hcr] at ha
  rw [List.length_cons] at ha
  rw [List.append_assoc, List.singleton_append]
  simp [call?, hq, blanks_cons (c := '(') rfl, hcr, ha, hp]

/-- Blanks behind commas are blanks in front of the arguments. -/
lemma join_comma (bs s : Text) (ss : List Text) :
    Text.join (',' :: bs) (s :: ss) = Text.join [','] (s :: ss.map (bs ++ ·)) := by
  rw [Text.join_cons, Text.join_cons, List.flatMap_map]
  rfl

/-- **Calls**: the arguments are read one level further in. -/
theorem closed_call {n : ℕ} {name : Text} (hn : IsCallName name) {sep s : Text}
    (hsep : IsComma sep) {ss : List Text} {e : Expr} {es : List Expr} (hs : Reads n loosest s e)
    (hss : List.Forall₂ (Reads n loosest) ss es) :
    ReadsClosed (n + 1) (name ++ '(' :: (Text.join sep (s :: ss) ++ [')']))
      (.call none name (e :: es)) := by
  obtain ⟨bs, rfl, hbs⟩ := hsep
  rw [join_comma]
  refine closed_call_spaced hn hs.behind ?_
  rw [List.forall₂_map_left_iff]
  exact hss.imp fun s e h => ⟨bs, s, hbs, h, rfl⟩

lemma reads_call {n : ℕ} {name : Text} (hn : IsCallName name) {sep s : Text}
    (hsep : IsComma sep) {ss : List Text} {e : Expr} {es : List Expr} (hs : Reads n loosest s e)
    (hss : List.Forall₂ (Reads n loosest) ss es) :
    Reads (n + 1) 0 (name ++ '(' :: (Text.join sep (s :: ss) ++ [')']))
      (.call none name (e :: es)) :=
  (closed_call hn hsep hs hss).toReads

/-- A call without arguments. -/
lemma reads_call_nil {name : Text} (hn : IsCallName name) :
    Reads 0 0 (name ++ ['(', ')']) (.call none name []) := by
  refine (closed_of_call hn [')'] fun d _ rest => ?_).toReads
  have hq := qualifiedName?_append hn.isName (')' :: rest)
  simp [call?, hq, blanks_cons (c := '(') rfl, blanks_cons (c := ')') rfl]

/-! ### Literals -/

/-- What the literal of a text is read as. -/
def literalExpr (v : Text) : Expr :=
  if '"' ∈ v ∧ '\'' ∈ v then
    .call none "concat".toList
      (((Text.pieces (· == '"') v).map Expr.literal).intersperse (.literal ['"']))
  else .literal v

lemma forall₂_intersperse {α β : Type*} {R : α → β → Prop} {x : α} {y : β} (hxy : R x y)
    {as : List α} {bs : List β} (h : List.Forall₂ R as bs) :
    List.Forall₂ R (as.intersperse x) (bs.intersperse y) := by
  induction h with
  | nil => simp
  | cons hab h ih =>
      cases h with
      | nil => simpa using hab
      | cons => exact .cons hab (.cons hxy ih)

/-- The arguments of `concat` are read as the parts and the marks between
them. -/
lemma forall₂_concatArguments (v : Text) :
    List.Forall₂ (Reads 0 loosest) (concatArguments (Text.pieces (· == '"') v))
      (((Text.pieces (· == '"') v).map Expr.literal).intersperse (.literal ['"'])) := by
  refine forall₂_intersperse ((reads_inSingle (by simp)).lift (by omega) (by omega)) ?_
  rw [List.forall₂_map_left_iff, List.forall₂_map_right_iff, List.forall₂_same]
  intro part hp
  have hd : '"' ∉ part := fun hm => by simpa using Text.forall_of_mem_pieces hp _ hm
  exact (reads_inDouble hd).lift (by omega) (by omega)

lemma isCallName_concat : IsCallName "concat".toList :=
  ⟨Text.isPathName_iff.mp rfl, rfl⟩

/-- **Literals**: the literal of a text is read whatever the text holds. -/
theorem reads_literal (v : Text) : Reads 1 0 (literal v) (literalExpr v) := by
  by_cases hd : '"' ∈ v
  · by_cases hs : '\'' ∈ v
    · have h := forall₂_concatArguments v
      rw [literalExpr, if_pos ⟨hd, hs⟩]
      cases ha : concatArguments (Text.pieces (· == '"') v) with
      | nil =>
          cases hp : Text.pieces (· == '"') v with
          | nil => exact absurd hp (Text.pieces_ne_nil _ v)
          | cons p ps => cases ps <;> simp [concatArguments, hp] at ha
      | cons s ss =>
          rw [ha] at h
          obtain ⟨e, es, he, hes, hees⟩ := List.forall₂_cons_left_iff.mp h
          have hr := reads_call isCallName_concat isComma_spaced he hes
          rw [← hees] at hr
          simpa [literal, hd, hs, ha] using hr
    · have hl : literal v = inSingle v := by simp [literal, hd, hs]
      rw [literalExpr, if_neg (by simp [hs]), hl]
      exact (reads_inSingle hs).lift (by omega) (by omega)
  · have hl : literal v = inDouble v := by simp [literal, hd]
    rw [literalExpr, if_neg (by simp [hd]), hl]
    exact (reads_inDouble hd).lift (by omega) (by omega)

end Locator.XPath
