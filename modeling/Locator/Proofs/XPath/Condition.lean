/-
Conditions of elements

* `Document.valuesIn`, `Document.valuesAt`: the values of an attribute in a namespace and in
  none, and `eval_attributeTest`, `eval_attribute`: an attribute step gives them;
* `Holds`: a condition has a truth value in a frame, with `Holds.and`,
  `Holds.or`;
* `eval_literalExpr`: **the literal of a text has the text as its value**;
* `holds_equals`, `holds_startsWith`, `holds_contains`, `holds_hasPieces`,
  `holds_endsWith`: the comparisons of an attribute with a text.
-/
import Locator.Proofs.XPath.Primary
import Locator.Proofs.XPath.Select
import Locator.Proofs.XPath.Whole
import Locator.Proofs.Document.Whole

namespace Locator

/-- Has an attribute a name and no namespace? -/
def Attribute.isPlain (name : Text) (t : Attribute) : Bool :=
  t.name.uri == none && t.name.base == name

/-- The values of an attribute without a namespace, at an address. -/
def Document.valuesAt (d : Document) (a : Address) (name : Text) : List Text :=
  ((d.attributesAt a).filter (·.isPlain name)).map Attribute.value

/-- The values of an attribute in a namespace, or in none, at an address. -/
def Document.valuesIn (d : Document) (a : Address) (uri : Option Text) (base : Text) : List Text :=
  ((d.attributesAt a).filter fun t => t.name.uri == uri && t.name.base == base).map
    Attribute.value

/-- The value of an attribute without a namespace; empty if there is none. -/
def Document.valueAt (d : Document) (a : Address) (name : Text) : Text :=
  (d.valuesAt a name).head?.getD []

namespace XPath

variable {env : Env} {f : Frame} {a : Address}

/-! ### Attributes -/

/-- The step to an attribute of the context node. -/
def attributeExpr (name : Text) : Expr := .step .here .attribute (.name none name) []

/-- The attributes at an address that have a name in a namespace, or in none. -/
lemma onAxis_attribute (pfx uri : Option Text) (base : Text) (a : Address) :
    env.onAxis .attribute (.name pfx base) uri (.node a) =
      ((env.document.attributesAt a).zipIdx.filter fun x =>
        x.1.name.uri == uri && x.1.name.base == base).map fun x => .attribute a x.2 := by
  simp only [Env.onAxis, Axis.sites, Axis.sitesFrom, List.filter_map, List.map_map]
  congr 1
  refine List.filter_congr fun x _ => ?_
  simp [NodeTest.accepts, isMainKind, isNamed, isIn, Document.Item.name?, Bool.and_comm]

/-- The attributes of an element that pass a test are in document order. -/
lemma sorted_attributes (as : List Attribute) (p : Attribute → Bool) (a : Address) :
    Place.Sorted ((as.zipIdx.filter fun x => p x.1).map fun x => .attribute a x.2) := by
  have hz : as.zipIdx.Pairwise fun x y => x.2 < y.2 :=
    List.pairwise_map.mp (by simp [List.zipIdx_map_snd, List.pairwise_lt_range'])
  rw [Place.Sorted, List.pairwise_map]
  refine (hz.filter _).imp fun {x y} hxy => ?_
  simp [Place.order, Place.address, Place.rank, Place.index, Address.order_eq,
    Nat.compare_eq_lt.mpr hxy]

/-- The texts of the attributes of an element that pass a test. -/
lemma textOf_attributes (d : Document) (p : Attribute → Bool) (a : Address) :
    (((d.attributesAt a).zipIdx.filter fun x => p x.1).map
        fun x => Place.attribute a x.2).map d.textOf =
      ((d.attributesAt a).filter p).map Attribute.value := by
  have hval : ∀ x ∈ (d.attributesAt a).zipIdx.filter fun x => p x.1,
      d.textOf (.attribute a x.2) = x.1.value := by
    intro x hx
    have hi := List.mem_zipIdx_iff_getElem?.mp (List.mem_of_mem_filter hx)
    simp [Document.textOf, hi]
  rw [List.map_map]
  calc _ = ((d.attributesAt a).zipIdx.filter fun x => p x.1).map fun x => x.1.value :=
        List.map_congr_left hval
    _ = _ := by
      rw [← List.zipIdx_map_fst 0 (d.attributesAt a), List.filter_map, List.map_map]
      simp [Function.comp_def]

/-- The step to an attribute gives the places of its values, in the namespace that its prefix
is bound to. -/
lemma eval_attributeTest {pfx uri : Option Text} {base : Text}
    (hu : env.testUri (.name pfx base) = .ok uri) (hf : f.place = .node a) :
    ∃ ps, eval env (.step .here .attribute (.name pfx base) []) f = .ok (.nodes ps) ∧
      ps.map env.document.textOf = env.document.valuesIn a uri base := by
  set p : Attribute → Bool := fun t => t.name.uri == uri && t.name.base == base with hp
  refine ⟨env.onAxis .attribute (.name pfx base) uri (.node a), ?_, ?_⟩
  · have hsorted : Place.Sorted (env.onAxis .attribute (.name pfx base) uri (.node a)) := by
      rw [onAxis_attribute]
      exact sorted_attributes _ p _
    simp [eval, hf, Result.toNodes, hu, narrow, Place.inOrder_eq_self hsorted]
  · rw [onAxis_attribute, Document.valuesIn, ← textOf_attributes]

/-- The step to an attribute without a prefix gives those in no namespace. -/
lemma eval_attribute (env : Env) (name : Text) (hf : f.place = .node a) :
    ∃ ps, eval env (attributeExpr name) f = .ok (.nodes ps) ∧
      ps.map env.document.textOf = env.document.valuesAt a name :=
  eval_attributeTest rfl hf

/-! ### Conditions -/

/-- An expression has a truth value in a frame, and as a predicate the same one at every
position. -/
def Holds (env : Env) (f : Frame) (e : Expr) (b : Bool) : Prop :=
  ∃ r, eval env e f = .ok r ∧ r.toBool = b ∧ ∀ k, holdsAt (k + 1) r = b

variable {e e' l : Expr} {b b' : Bool} {v : Text}

/-- What is no number has its truth value at every position. -/
lemma holds_of_isNumber {r : Result} (h : eval env e f = .ok r) (hn : r.isNumber = false) :
    Holds env f e r.toBool := by
  refine ⟨r, h, rfl, fun k => ?_⟩
  cases r <;> simp_all [XPath.holdsAt, Result.isNumber]

/-- What holds in a predicate holds at every position. -/
lemma Holds.holdsAt (h : Holds env f e b) (k : ℕ) :
    ∃ r, eval env e f = .ok r ∧ holdsAt (k + 1) r = b := by
  obtain ⟨r, hr, -, hb⟩ := h
  exact ⟨r, hr, hb k⟩

lemma Holds.and (h : Holds env f e b) (h' : Holds env f e' b') :
    Holds env f (.binary .and e e') (b && b') := by
  obtain ⟨r, hr, rfl, -⟩ := h
  obtain ⟨r', hr', rfl, -⟩ := h'
  refine holds_of_isNumber (r := .bool (r.toBool && r'.toBool)) ?_ rfl
  cases hb : r.toBool <;> simp [eval, hr, hr', isDecided, hb, applyOperator]

lemma Holds.or (h : Holds env f e b) (h' : Holds env f e' b') :
    Holds env f (.binary .or e e') (b || b') := by
  obtain ⟨r, hr, rfl, -⟩ := h
  obtain ⟨r', hr', rfl, -⟩ := h'
  refine holds_of_isNumber (r := .bool (r.toBool || r'.toBool)) ?_ rfl
  cases hb : r.toBool <;> simp [eval, hr, hr', isDecided, hb, applyOperator]

lemma holds_eq {r r' : Result} (h : eval env e f = .ok r) (h' : eval env e' f = .ok r') :
    Holds env f (.binary .eq e e') (Result.equal env.document true r r') :=
  holds_of_isNumber (r := .bool (Result.equal env.document true r r'))
    (by simp [eval, h, h', isDecided, applyOperator]) rfl

/-- The number zero is no position. -/
lemma holds_zero : Holds env f (.number (.ofDigits ['0'])) false := by
  have hzero : Number.ofDigits ['0'] = .finite 0 := by
    have h := Number.ofDigits_spec (s := ['0']) (by simp)
    simpa [Number.Writes, Text.ofDecimal, Number.exactLimit] using h
  refine ⟨.number (.finite 0), by rw [eval, hzero], rfl, fun k => ?_⟩
  have hcount := Number.writes_ofNat (k + 1)
  change (Number.finite 0).eq (.ofNat (k + 1)) = false
  by_cases hk : k + 1 ≤ Number.exactLimit
  · rw [Number.ofNat_eq hk, Bool.eq_false_iff]
    have hpos : (0 : ℚ) < ((k + 1 : ℕ) : ℚ) := by exact_mod_cast Nat.succ_pos k
    simpa [Number.eq, Number.amount] using hpos.ne
  · rw [Number.Writes, if_neg hk] at hcount
    cases hn : Number.ofNat (k + 1) with
    | finite q =>
        have hq : (2 : ℚ) ^ 53 ≤ q := by rwa [hn] at hcount
        have hne : (0 : ℚ) ≠ q := by
          rintro rfl
          norm_num at hq
        simpa [Number.eq, Number.amount] using hne
    | infinite negative => rfl
    | minusZero => simp [hn, Number.IsLarge] at hcount
    | nan => rfl

/-- Conditions joined from the left hold together. -/
lemma Holds.all {es : List Expr} {bs : List Bool} (h : Holds env f e b)
    (hs : List.Forall₂ (Holds env f) es bs) :
    Holds env f (es.foldl (.binary .and) e) (b && bs.all id) := by
  induction hs generalizing e b with
  | nil => simpa using h
  | cons h' _ ih => simpa [Bool.and_assoc] using ih (h.and h')

/-! ### Texts -/

lemma eval_call {name : Text} {g : Function} (hg : Function.ofName? name = some g)
    {args : List Expr} {r : List Result} (h : evalAll env args f = .ok r) :
    eval env (.call none name args) f = g.apply env.document f r := by
  simp [eval, h, hg]

lemma evalAll_literals (vs : List Text) :
    evalAll env (vs.map .literal) f = .ok (vs.map .text) := by
  induction vs with
  | nil => simp [evalAll]
  | cons v vs ih => simp [evalAll, eval, ih]

lemma map_intersperse {α β : Type*} (g : α → β) (x : α) (l : List α) :
    (l.intersperse x).map g = (l.map g).intersperse (g x) := by
  induction l with
  | nil => rfl
  | cons a l ih =>
      cases l with
      | nil => rfl
      | cons b l => simpa using ih

/-- A separator in a text makes at least two pieces. -/
lemma two_le_length_pieces {q : Char} {v : Text} (h : q ∈ v) :
    2 ≤ ((Text.pieces (· == q) v).intersperse [q]).length := by
  have hj := Text.join_pieces q v
  cases hp : Text.pieces (· == q) v with
  | nil => exact absurd hp (Text.pieces_ne_nil _ v)
  | cons w ws =>
      cases ws with
      | nil =>
          rw [hp, Text.join_singleton] at hj
          have hq := Text.forall_of_mem_pieces (p := (· == q)) (v := v) (by simp [hp] : w ∈ _)
          simpa using hq q (hj ▸ h)
      | cons x xs =>
          simp only [List.intersperse_cons_cons, List.length_cons]
          omega

/-- **The literal of a text** has the text as its value. -/
theorem eval_literalExpr (v : Text) : eval env (literalExpr v) f = .ok (.text v) := by
  rw [literalExpr]
  split_ifs with h
  · have hm : ((Text.pieces (· == '"') v).map Expr.literal).intersperse (.literal ['"']) =
        ((Text.pieces (· == '"') v).intersperse ['"']).map Expr.literal := by
      rw [map_intersperse]
    have hlen := two_le_length_pieces h.1
    rw [hm, eval_call (g := .concat) rfl (evalAll_literals _)]
    have htext : ((Text.pieces (· == '"') v).intersperse ['"']).flatten = v :=
      Text.join_pieces '"' v
    simp only [Function.apply, List.length_map, Nat.not_lt.mpr hlen, if_false, List.flatMap_map]
    simp [Result.toText, List.flatMap_id', htext]
  · simp [eval]

/-! ### Comparisons of an attribute with a text -/

lemma head?_of_map {ps : List Place} {vs : List Text} {d : Document} (h : ps.map d.textOf = vs) :
    Result.toText d (.nodes ps) = vs.head?.getD [] := by
  simp [Result.toText, ← h, List.head?_map]

/-- An attribute as a text. -/
lemma eval_attribute_text (env : Env) (name : Text) (hf : f.place = .node a) :
    ∃ r, eval env (attributeExpr name) f = .ok r ∧
      r.toText env.document = env.document.valueAt a name := by
  obtain ⟨ps, hps, hm⟩ := eval_attribute env name hf
  exact ⟨_, hps, head?_of_map hm⟩

/-- There is an attribute. -/
lemma holds_attribute (name : Text) (hf : f.place = .node a) :
    Holds env f (attributeExpr name) (!(env.document.valuesAt a name).isEmpty) := by
  obtain ⟨ps, hps, hm⟩ := eval_attribute env name hf
  have hthere : Result.toBool (.nodes ps) = !(env.document.valuesAt a name).isEmpty := by
    cases ps <;> simp [Result.toBool, ← hm]
  exact hthere ▸ holds_of_isNumber hps rfl

/-- One of the places that an expression gives holds a text. -/
lemma holds_equals_nodes {ps : List Place} (he : eval env e f = .ok (.nodes ps))
    (hl : eval env l f = .ok (.text v)) :
    Holds env f (.binary .eq e l) ((ps.map env.document.textOf).contains v) := by
  have heq : Result.equal env.document true (.nodes ps) (.text v) =
      (ps.map env.document.textOf).contains v := by
    rw [Bool.eq_iff_iff]
    simp [Result.equal, Result.equalNodes, Result.toText]
  exact heq ▸ holds_eq he hl

/-- An attribute is a text. -/
lemma holds_equals (name : Text) (hf : f.place = .node a) (hl : eval env l f = .ok (.text v)) :
    Holds env f (.binary .eq (attributeExpr name) l)
      ((env.document.valuesAt a name).contains v) := by
  obtain ⟨ps, hps, hm⟩ := eval_attribute env name hf
  exact hm ▸ holds_equals_nodes hps hl

/-- A function of an attribute and a text. -/
lemma eval_onTexts {name fn : Text} {g : Function} (hg : Function.ofName? fn = some g)
    {t : Text → Text → Result} (ht : ∀ rs, g.apply env.document f rs =
      Function.onTexts env.document t rs)
    (hf : f.place = .node a) (hl : eval env l f = .ok (.text v)) :
    eval env (.call none fn [attributeExpr name, l]) f =
      .ok (t (env.document.valueAt a name) v) := by
  obtain ⟨r, hr, htext⟩ := eval_attribute_text env name hf
  rw [eval_call (r := [r, .text v]) hg (by simp [evalAll, hr, hl]), ht, Function.onTexts, htext]
  rfl

/-- An attribute starts with a text. -/
lemma holds_startsWith (name : Text) (hf : f.place = .node a)
    (hl : eval env l f = .ok (.text v)) :
    Holds env f (.call none "starts-with".toList [attributeExpr name, l])
      (v.isPrefixOf (env.document.valueAt a name)) :=
  holds_of_isNumber (eval_onTexts (g := .startsWith) (t := fun s t => .bool (t.isPrefixOf s)) rfl
    (fun _ => rfl) hf hl) rfl

/-- An attribute holds a text. -/
lemma holds_contains (name : Text) (hf : f.place = .node a)
    (hl : eval env l f = .ok (.text v)) :
    Holds env f (.call none "contains".toList [attributeExpr name, l])
      (Text.occursIn v (env.document.valueAt a name)) :=
  holds_of_isNumber (eval_onTexts (g := .contains) (t := fun s t => .bool (Text.occursIn t s)) rfl
    (fun _ => rfl) hf hl) rfl

/-- An attribute with one blank around each of its words. -/
def paddedExpr (name : Text) : Expr :=
  .call none "concat".toList
    [.literal [' '], .call none "normalize-space".toList [attributeExpr name], .literal [' ']]

lemma eval_paddedExpr (name : Text) (hf : f.place = .node a) :
    eval env (paddedExpr name) f =
      .ok (.text (' ' :: (singleBlanks (env.document.valueAt a name) ++ [' ']))) := by
  obtain ⟨r, hr, htext⟩ := eval_attribute_text env name hf
  have hn : eval env (.call none "normalize-space".toList [attributeExpr name]) f =
      .ok (.text (singleBlanks (env.document.valueAt a name))) := by
    rw [eval_call (g := .normalizeSpace) (r := [r]) rfl (by simp [evalAll, hr])]
    rw [← htext]
    rfl
  have hb : eval env (.literal [' ']) f = .ok (.text [' ']) := by rw [eval]
  rw [paddedExpr, eval_call (g := .concat)
    (r := [.text [' '], .text (singleBlanks (env.document.valueAt a name)), .text [' ']]) rfl
    (by simp only [evalAll, hn, hb, ok_bind, pure_eq_ok])]
  simp [Function.apply, Result.toText]

/-- No word holds a blank. -/
lemma isSpace_of_mem_spaceWords {s w : Text} (h : w ∈ spaceWords s) :
    ∀ c ∈ w, Text.isSpace c = false := fun c hc => by
  simpa using Text.forall_of_mem_pieces (List.mem_of_mem_filter h) c hc

lemma blank_not_mem_of_mem_spaceWords {s w : Text} (h : w ∈ spaceWords s) : ' ' ∉ w := fun hm =>
  absurd (isSpace_of_mem_spaceWords h _ hm) (by decide)

/-- A text between blanks occurs in an attribute with one blank around each of its words: its
pieces are words one behind the other, or it is empty and there are no words. -/
lemma holds_hasPieces (name : Text) (hf : f.place = .node a)
    (hl : eval env l f = .ok (.text (' ' :: (v ++ [' '])))) :
    Holds env f (.call none "contains".toList [paddedExpr name, l])
      (decide ((v = [] ∧ spaceWords (env.document.valueAt a name) = []) ∨
        Text.pieces (· == ' ') v <:+: spaceWords (env.document.valueAt a name))) := by
  have hcall : eval env (.call none "contains".toList [paddedExpr name, l]) f =
      .ok (.bool (Text.occursIn (' ' :: (v ++ [' ']))
        (' ' :: (singleBlanks (env.document.valueAt a name) ++ [' '])))) := by
    rw [eval_call (g := .contains) (r := [_, _]) rfl
      (by simp only [evalAll, eval_paddedExpr name hf, hl, ok_bind, pure_eq_ok]; rfl)]
    simp [Function.apply, Function.onTexts, Result.toText]
  have hws : ∀ w ∈ spaceWords (env.document.valueAt a name), ' ' ∉ w := fun _ =>
    blank_not_mem_of_mem_spaceWords
  have hvalue : Text.occursIn (' ' :: (v ++ [' ']))
      (' ' :: (singleBlanks (env.document.valueAt a name) ++ [' '])) =
        decide ((v = [] ∧ spaceWords (env.document.valueAt a name) = []) ∨
          Text.pieces (· == ' ') v <:+: spaceWords (env.document.valueAt a name)) := by
    rw [Bool.eq_iff_iff, Text.occursIn_iff, singleBlanks, Text.infix_join_iff hws,
      decide_eq_true_iff]
  exact hvalue ▸ holds_of_isNumber hcall rfl

/-! ### Endings -/

/-- What is cut out without an end is no longer than the text. -/
lemma length_cutOut_le (s : Text) (start : Number) : (cutOut s start none).length ≤ s.length := by
  simp only [cutOut]
  split
  · exact Nat.zero_le _
  · simp

lemma roundUp_natCast (n : ℕ) : Number.roundUp n = n := by
  rw [Number.roundUp]
  apply le_antisymm
  · have : (n : ℚ) + 1 / 2 < ((n + 1 : ℤ) : ℚ) := by
      push_cast
      linarith
    have := Rat.floor_lt_iff.mpr this
    omega
  · refine Rat.le_floor_iff.mpr ?_
    push_cast
    linarith

/-- What is cut out from a position on. -/
lemma cutOut_ofNat (s : Text) {k : ℕ} (hk : k < Number.exactLimit) :
    cutOut s (.ofNat (k + 1)) none = s.drop k := by
  have hpos : ¬ ((k + 1 : ℕ) : ℚ) < 1 := by
    push_cast
    linarith [(Nat.cast_nonneg k : (0 : ℚ) ≤ k)]
  rw [Number.ofNat_eq (by omega : k + 1 ≤ Number.exactLimit)]
  simp only [cutOut, hpos, if_false, roundUp_natCast, Int.toNat_natCast, Nat.add_sub_cancel]

/-- The length of an attribute can be counted. -/
lemma length_valueAt_lt (d : Document) (a : Address) (name : Text) :
    (d.valueAt a name).length < Number.exactLimit := by
  have hv : ∀ v ∈ d.valuesAt a name, v.length < Number.exactLimit := by
    intro v hv
    obtain ⟨t, ht, rfl⟩ := List.mem_map.mp hv
    exact Document.length_value_lt (List.mem_of_mem_filter ht)
  rw [Document.valueAt]
  cases h : d.valuesAt a name with
  | nil => norm_num [Number.exactLimit]
  | cons v vs => exact hv v (by simp [h])

/-- An attribute ends in a text. Where the text is the longer one, whatever is
cut out of the attribute is too short. -/
lemma holds_endsWith (name : Text) {start : Expr} {x : Result} (hf : f.place = .node a)
    (hs : eval env start f = .ok x)
    (hx : v.length ≤ (env.document.valueAt a name).length →
      x.toNumber env.document = .ofNat ((env.document.valueAt a name).length - v.length + 1))
    (hl : eval env l f = .ok (.text v)) :
    Holds env f (.binary .eq (.call none "substring".toList [attributeExpr name, start]) l)
      (v.isSuffixOf (env.document.valueAt a name)) := by
  set s := env.document.valueAt a name with hsdef
  obtain ⟨r, hr, htext⟩ := eval_attribute_text env name hf
  have hcut : eval env (.call none "substring".toList [attributeExpr name, start]) f =
      .ok (.text (cutOut s (x.toNumber env.document) none)) := by
    rw [eval_call (g := .substring) (r := [r, x]) rfl (by simp only [evalAll, hr, hs, ok_bind, pure_eq_ok]),
      hsdef, ← htext]
    rfl
  have heq : Result.equal env.document true (.text (cutOut s (x.toNumber env.document) none))
      (.text v) = v.isSuffixOf s := by
    have hsingle : Result.equal env.document true (.text (cutOut s (x.toNumber env.document) none))
        (.text v) = (cutOut s (x.toNumber env.document) none == v) := by
      simp [Result.equal, Result.equalSingle, Result.isBool, Result.isNumber, Result.toText]
    rw [hsingle, Bool.eq_iff_iff, beq_iff_eq, List.isSuffixOf_iff_suffix]
    by_cases hle : v.length ≤ s.length
    · have hk : s.length - v.length < Number.exactLimit :=
        (Nat.sub_le _ _).trans_lt (length_valueAt_lt env.document a name)
      rw [hx hle, cutOut_ofNat s hk, List.suffix_iff_eq_drop]
      exact eq_comm
    · have hshort := length_cutOut_le s (x.toNumber env.document)
      constructor
      · rintro rfl
        exact absurd hshort hle
      · intro h
        exact absurd h.length_le hle
  exact heq ▸ holds_eq hcut hl

/-- The length of an attribute. -/
lemma eval_stringLength (name : Text) (hf : f.place = .node a) :
    eval env (.call none "string-length".toList [attributeExpr name]) f =
      .ok (.number (.ofNat (env.document.valueAt a name).length)) := by
  obtain ⟨r, hr, htext⟩ := eval_attribute_text env name hf
  rw [eval_call (g := .stringLength) (r := [r]) rfl
    (by simp only [evalAll, hr, ok_bind, pure_eq_ok]), ← htext]
  rfl

/-! ### Positions -/

/-- A count equals a whole number in digits. -/
lemma equal_ofDigits (d : Document) {digits : Text} {k : ℕ}
    (hd : ∀ c ∈ digits, c.isDigit = true) (hk : k < Number.exactLimit) :
    Result.equal d true (.number (.ofNat k)) (.number (.ofDigits digits)) =
      decide (k = Text.ofDecimal digits) := by
  rw [← Number.eq_ofDigits hd hk]
  simp [Result.equal, Result.equalSingle, Result.isBool, Result.isNumber, Result.toNumber]

/-- The position of the context node is a whole number in digits. -/
lemma holds_position {digits : Text} {k : ℕ} (hd : ∀ c ∈ digits, c.isDigit = true)
    (hk : k < Number.exactLimit) (hf : f.position = some k) :
    Holds env f (.binary .eq (.call none "position".toList []) (.number (.ofDigits digits)))
      (decide (k = Text.ofDecimal digits)) := by
  have hp : eval env (.call none "position".toList []) f = .ok (.number (.ofNat k)) := by
    rw [eval_call (g := .position) (r := []) rfl rfl]
    simp [Function.apply, Function.counted, hf]
  have hn : eval env (.number (.ofDigits digits)) f = .ok (.number (.ofDigits digits)) := by
    rw [eval]
  exact equal_ofDigits env.document hd hk ▸ holds_eq hp hn

/-! ### Siblings in front -/

/-- The members of a list in front of a position that pass a test. -/
lemma length_filter_zipIdx {α : Type*} (p : α → Bool) (l : List α) (k i : ℕ) :
    ((l.zipIdx k).filter fun x => decide (x.2 < k + i) && p x.1).length =
      (l.take i).countP p := by
  induction l generalizing k i with
  | nil => simp
  | cons x l ih =>
      cases i with
      | zero =>
          have hnone : ∀ y ∈ (x :: l).zipIdx k, ¬ (decide (y.2 < k + 0) && p y.1) = true := by
            intro y hy
            have := List.le_snd_of_mem_zipIdx hy
            simp only [Nat.add_zero, Bool.and_eq_true, decide_eq_true_eq]
            omega
          rw [List.filter_eq_nil_iff.mpr hnone]
          simp
      | succ i =>
          have := ih (k + 1) i
          rw [Nat.add_right_comm, Nat.add_assoc] at this
          by_cases hx : p x
          · simp [List.zipIdx_cons, hx, this]
          · simp [List.zipIdx_cons, hx, this]

/-- The pieces in front of an address can be counted. -/
lemma earlier_lt (d : Document) (p : Markup → Bool) (b : Address) :
    d.earlier p b < Number.exactLimit := by
  cases b with
  | nil => norm_num [Document.earlier, Number.exactLimit]
  | cons i a =>
      calc d.earlier p (i :: a) ≤ ((d.childrenAt a).take i).length := List.countP_le_length
        _ ≤ (d.childrenAt a).length := List.length_take_le' i _
        _ < Number.exactLimit := d.length_childrenAt_lt a

variable {test : NodeTest} {uri : Option Text}

/-- The position of a piece among its siblings can be counted. -/
lemma positionAt_lt {d : Document} {b : Address} (h : passesAt d test uri b) :
    positionAt d test uri b < Number.exactLimit := by
  obtain ⟨m, hm, -⟩ := passesAt_iff.mp h
  cases b with
  | nil => simp at hm
  | cons i a =>
      have hi : i < (d.childrenAt a).length := (List.getElem?_eq_some_iff.mp hm).1
      calc positionAt d test uri (i :: a) ≤ ((d.childrenAt a).take i).length + 1 :=
            Nat.succ_le_succ List.countP_le_length
        _ ≤ i + 1 := Nat.succ_le_succ (List.length_take_le i _)
        _ ≤ (d.childrenAt a).length := hi
        _ < Number.exactLimit := d.length_childrenAt_lt a

/-- The siblings in front of an element that pass a test, the nearest first. -/
lemma onAxis_precedingSibling (i : ℕ) (a : Address) :
    env.onAxis .precedingSibling test uri (.node (i :: a)) =
      (((env.document.childrenAt a).zipIdx.filter fun x =>
        decide (x.2 < i) && x.1.passes test uri).map fun x => .node (x.2 :: a)).reverse := by
  simp only [Env.onAxis, Axis.sites, Axis.sitesFrom, siblingSites, Address.parent?, childSites,
    List.filter_reverse, List.map_reverse, List.filter_map, List.map_map, List.filter_filter]
  congr 2
  refine List.filter_congr fun x _ => ?_
  simp [isEarlier, Site.ofPiece, Address.position, Place.address,
    accepts_piece (by simp : Axis.precedingSibling ≠ .attribute) (by simp), Bool.and_comm]

/-- Children are listed in document order. -/
lemma sorted_children (l : List Markup) (p : Markup × ℕ → Bool) (a : Address) :
    Place.Sorted ((l.zipIdx.filter p).map fun x => .node (x.2 :: a)) := by
  have hz : l.zipIdx.Pairwise fun x y => x.2 < y.2 :=
    List.pairwise_map.mp (by simp [List.zipIdx_map_snd, List.pairwise_lt_range'])
  rw [Place.Sorted, List.pairwise_map]
  refine (hz.filter _).imp fun {x y} hxy => ?_
  have := Address.order_siblings_lt (v := []) (w := []) a hxy
  simp only [List.nil_append] at this
  simp [Place.order, Place.address, Place.rank, Place.index, this]

/-- The number of siblings in front of an element that pass a test. -/
lemma eval_count_siblings (hu : env.testUri test = .ok uri) {i : ℕ}
    (hf : f.place = .node (i :: a)) :
    eval env (.call none "count".toList [.step .here .precedingSibling test []]) f =
      .ok (.number (.ofNat (env.document.earlier (·.passes test uri) (i :: a)))) := by
  have hsorted := sorted_children (env.document.childrenAt a)
    (fun x => decide (x.2 < i) && x.1.passes test uri) a
  have hlen := length_filter_zipIdx (fun m => m.passes test uri) (env.document.childrenAt a) 0 i
  rw [Nat.zero_add] at hlen
  have hin : Place.inOrder (env.onAxis .precedingSibling test uri (.node (i :: a))) =
      (((env.document.childrenAt a).zipIdx.filter fun x =>
        decide (x.2 < i) && x.1.passes test uri).map fun x => .node (x.2 :: a)) := by
    rw [onAxis_precedingSibling, Place.inOrder_congr (fun p => List.mem_reverse),
      Place.inOrder_eq_self hsorted]
  have hstep : eval env (.step .here .precedingSibling test []) f =
      .ok (.nodes (Place.inOrder (env.onAxis .precedingSibling test uri (.node (i :: a))))) := by
    simp [eval, hf, Result.toNodes, hu, narrow]
  rw [eval_call (g := .count) (r := [_]) rfl
    (by simp only [evalAll, hstep, hin, ok_bind, pure_eq_ok]; rfl)]
  simp [Function.apply, Function.onNodes, Document.earlier, hlen]

/-- No count is negative. -/
lemma holds_count_negative (hu : env.testUri test = .ok uri) {i : ℕ}
    (hf : f.place = .node (i :: a)) :
    Holds env f (.binary .eq (.call none "count".toList [.step .here .precedingSibling test []])
      (.numeric true (.number (.ofDigits (Text.decimal 1))))) false := by
  have hone : Number.ofDigits (Text.decimal 1) = .ofNat 1 :=
    Number.ofDigits_decimal (by norm_num [Number.exactLimit])
  have hn : eval env (.numeric true (.number (.ofDigits (Text.decimal 1)))) f =
      .ok (.number (.finite (-1))) := by
    rw [eval, eval, hone]
    rfl
  have hcount := earlier_lt env.document (·.passes test uri) (i :: a)
  have hfalse : Result.equal env.document true
      (.number (.ofNat (env.document.earlier (·.passes test uri) (i :: a))))
        (.number (.finite (-1))) = false := by
    have hne : ∀ k : ℕ, (k : ℚ) ≠ -1 := fun k hk => by
      have : (0 : ℚ) ≤ k := k.cast_nonneg
      linarith
    rw [Number.ofNat_eq hcount.le]
    simp [Result.equal, Result.equalSingle, Result.isBool, Result.isNumber, Result.toNumber,
      Number.eq, Number.amount, hne]
  exact hfalse ▸ holds_eq (eval_count_siblings hu hf) hn

/-- An element has as many siblings of its name in front as digits write. -/
lemma holds_count_siblings (hu : env.testUri test = .ok uri) {i : ℕ} {s : Text}
    (hd : ∀ c ∈ s, c.isDigit = true) (hf : f.place = .node (i :: a)) :
    Holds env f (.binary .eq (.call none "count".toList [.step .here .precedingSibling test []])
        (.number (.ofDigits s)))
      (decide (env.document.earlier (·.passes test uri) (i :: a) = Text.ofDecimal s)) := by
  have hn : eval env (.number (.ofDigits s)) f = .ok (.number (.ofDigits s)) := by
    rw [eval]
  exact equal_ofDigits env.document hd (earlier_lt _ _ _) ▸ holds_eq (eval_count_siblings hu hf) hn

end XPath

end Locator
