/-
Names of attributes in paths

* `IsQualified`: a name, perhaps behind a prefix, and what it is read as;
* `IsOverlong`: a test with something behind it that no expression goes on with;
* `IsKeyed`: the names of attributes that are looked at, among them those with a namespace in
  braces and overlong ones;
* `nodeTest?_of_isKeyed`: what such a name is read as, if it is no qualified one: nothing, or a
  test that ends at such a place;
* `read?_attributePath_iff`: **the path by an attribute** is an expression exactly where its
  name is a qualified one;
* `mem_attributePath_iff`: what it selects.
-/
import Locator.Proofs.Css.Attribute
import Locator.Proofs.XPath.Attribute
import Locator.Proofs.XPath.Broken

namespace Locator.XPath

open Text

variable {a v base : Text} {pfx : Option Text} {n : Node} {d : Document}
  {namespaces : List (Text × Text)}

/-! ### Qualified names -/

/-- A text is a name, behind a prefix if there is one. -/
inductive IsQualified : Text → Option Text → Text → Prop
  | plain {base : Text} (hb : IsName base) : IsQualified base none base
  | prefixed {p base : Text} (hp : IsName p) (hb : IsName base) :
      IsQualified (p ++ ':' :: base) (some p) base

namespace IsQualified

/-- A qualified name is a test. -/
lemma bareReads (h : IsQualified a pfx base) : BareReads a (.name pfx base) := by
  cases h with
  | plain hb => exact bareReads_name hb
  | prefixed hp hb => exact bareReads_prefixed hp hb

/-- The first character of a qualified name starts a name. -/
lemma isNameStart (h : IsQualified a pfx base) :
    ∀ c ∈ a.head?, Text.isNameStart c = true := by
  cases h with
  | plain hb =>
      obtain ⟨c, r, rfl, hc, -⟩ := hb
      rintro x ⟨rfl⟩
      exact hc
  | prefixed hp hb =>
      obtain ⟨c, r, rfl, hc, -⟩ := hp
      rintro x ⟨rfl⟩
      exact hc

/-- All characters of a qualified name are characters of attributes. -/
lemma isAttributeChar (h : IsQualified a pfx base) : ∀ c ∈ a, Css.isAttributeChar c = true := by
  have hname : ∀ {s : Text}, IsName s → ∀ c ∈ s, Css.isAttributeChar c = true := fun hs c hc => by
    simp [Css.isAttributeChar, hs.isNameChar c hc]
  cases h with
  | plain hb => exact hname hb
  | prefixed hp hb =>
      intro c hc
      rcases List.mem_append.mp hc with hc | hc
      · exact hname hp c hc
      · rcases List.mem_cons.mp hc with rfl | hc
        · rfl
        · exact hname hb c hc

end IsQualified

/-- No slash is a character of attributes. -/
lemma slash_not_mem_of_isAttributeChar (h : ∀ c ∈ a, Css.isAttributeChar c = true) : '/' ∉ a :=
  fun hm => absurd (h _ hm) (by decide)

/-! ### Names of attributes -/

/-- A character that no test starts with. -/
def startsNoTest (c : Char) : Bool := !isNameStart c && c != '*' && !isSpace c

/-- A test with something behind it that no expression goes on with, as in a name that starts
with an asterisk, or a name with an at sign inside. -/
def IsOverlong (a : Text) : Prop :=
  ∃ u w, a = u ++ w ∧ isStray w = true ∧ (u = ['*'] ∨
    (∃ pfx base, IsQualified u pfx base) ∧ ∀ c ∈ w.head?, Css.isAttributeChar c = false)

/-- The names of attributes that are looked at: no test starts with the first character, such
as a brace, or the name is a test with something behind it that no expression goes on with, or
all are characters of names and colons. Left out are names that go on behind a test with a
blank, a bracket, a slash or a sign of expressions, such as a bar: the path by such an attribute
may be an expression that asks for something else. -/
def IsKeyed (a : Text) : Prop :=
  a ≠ [] ∧ ((∀ c ∈ a.head?, startsNoTest c = true) ∨ IsOverlong a ∨
    ∀ c ∈ a, Css.isAttributeChar c = true)

/-- A character of attributes starts a name, or no test does. -/
lemma isNameStart_or_startsNoTest {c : Char} (h : Css.isAttributeChar c = true) :
    isNameStart c = true ∨ startsNoTest c = true := by
  cases hc : isNameStart c with
  | true => exact .inl rfl
  | false =>
      have hne : ∀ x, Css.isAttributeChar x = false → c ≠ x := by
        rintro x hx rfl
        simp [h] at hx
      right
      simp [startsNoTest, hc, isSpace, hne '*' rfl, hne ' ' rfl, hne '\t' rfl, hne '\n' rfl,
        hne '\r' rfl]

lemma plainName?_eq_none {c : Char} (h : isNameStart c = false) (r : Text) :
    plainName? (c :: r) = none := by simp [plainName?, h]

/-- No test starts with such a character. -/
lemma nodeTest?_eq_none {c : Char} (h : startsNoTest c = true) (r : Text) :
    nodeTest? (c :: r) = none := by
  simp only [startsNoTest, Bool.and_eq_true, Bool.not_eq_true', bne_iff_ne] at h
  obtain ⟨⟨hname, hstar⟩, hspace⟩ := h
  unfold nodeTest?
  rw [blanks_cons hspace]
  split
  · next heq => exact absurd (List.cons.inj heq).1 hstar
  · simp [plainName?_eq_none hname]

/-- No sign is made of such a text by an equals sign behind it. -/
lemma isStray_append {w : Text} (h : isStray w = true) (t : Text) :
    isStray (w ++ '=' :: t) = true := by
  obtain ⟨c, r, rfl, hc⟩ := exists_of_isStray h
  obtain ⟨hmark, hwords⟩ := isStray_cons.mp h
  refine isStray_cons.mpr ⟨hmark, fun k hk hpre => hwords k hk ?_⟩
  rcases List.prefix_or_prefix_of_prefix hpre (List.prefix_append (c :: r) _) with hk' | ⟨k', rfl⟩
  · exact hk'
  have hequals : ∀ k ∈ signWords, '=' ∉ k := by decide
  have hrest : k' <+: '=' :: t := (List.prefix_append_right_inj (c :: r)).mp hpre
  cases k' with
  | nil => simp
  | cons x k' =>
      obtain rfl : x = '=' := (List.cons_prefix_cons.mp hrest).1
      exact absurd (by simp) (hequals _ hk)

/-- An overlong name is read as its test. -/
lemma IsOverlong.nodeTest? (h : IsOverlong a) (t : Text) :
    ∃ test r, XPath.nodeTest? (a ++ '=' :: t) = some (test, r) ∧ isStray r = true := by
  obtain ⟨u, w, rfl, hw, hu⟩ := h
  have hstray := isStray_append hw t
  rw [List.append_assoc]
  rcases hu with rfl | ⟨⟨pfx, base, hq⟩, hhead⟩
  · exact ⟨.any none, _, by simp [XPath.nodeTest?, blanks_cons (c := '*') rfl], hstray⟩
  · refine ⟨_, _, hq.bareReads.reads _ ?_, hstray⟩
    have hblanks := blanks_of_isStray hstray
    obtain ⟨c, r, rfl, hne⟩ := exists_of_isStray hw
    have hc : Css.isAttributeChar c = false := hhead c rfl
    simp only [Css.isAttributeChar, Bool.or_eq_false_iff, beq_eq_false_iff_ne] at hc
    constructor
    · simpa [goesOn] using hc
    · rw [hblanks]
      simpa using ⟨hne '(' (by decide), hc.2⟩

/-- What stands behind the first characters of a name, up to a colon. -/
lemma exists_dropWhile (h : ∀ c ∈ a, Css.isAttributeChar c = true) :
    ∃ u w, a = u ++ w ∧ (∀ c ∈ u, isNameChar c = true) ∧ (w = [] ∨ ∃ x, w = ':' :: x) := by
  refine ⟨a.takeWhile isNameChar, a.dropWhile isNameChar, List.takeWhile_append_dropWhile.symm,
    fun c hc => List.mem_takeWhile_imp hc, ?_⟩
  have hnot := List.head?_dropWhile_not isNameChar a
  have hmem := (List.dropWhile_suffix (l := a) isNameChar).subset
  cases hw : a.dropWhile isNameChar with
  | nil => exact .inl rfl
  | cons c x =>
      rw [hw] at hnot hmem
      have hc := h c (hmem (by simp))
      simp only [List.head?_cons] at hnot
      simp only [Css.isAttributeChar, hnot, Bool.false_or, beq_iff_eq] at hc
      exact .inr ⟨x, by rw [hc]⟩

/-- What follows a colon is a name and perhaps one more colon, or it is no name. -/
lemma nameTest?_cases {x : Text} (h : ∀ c ∈ x, Css.isAttributeChar c = true) (p : Text) :
    IsName x ∨ (∀ t, nameTest? p (':' :: (x ++ '=' :: t)) = none) ∨
      ∀ t, ∃ test r, nameTest? p (':' :: (x ++ '=' :: t)) = some (test, ':' :: r) := by
  have hnone : ∀ c r, Text.isNameStart c = false → c ≠ '*' →
      nameTest? p (':' :: c :: r) = none := by
    intro c r hc hstar
    have hblanks : blanks (':' :: c :: r) = ':' :: c :: r := blanks_cons rfl _
    unfold nameTest?
    rw [hblanks]
    simp [hstar, plainName?_eq_none hc]
  obtain ⟨k, y, rfl, hk, hy⟩ := exists_dropWhile h
  cases k with
  | nil =>
      refine .inr (.inl fun t => ?_)
      rcases hy with rfl | ⟨y, rfl⟩
      · exact hnone '=' t rfl (by decide)
      · exact hnone ':' (y ++ '=' :: t) rfl (by decide)
  | cons c k =>
      rw [List.forall_mem_cons] at hk
      by_cases hc : Text.isNameStart c = true
      · have hname : IsName (c :: k) := ⟨c, k, rfl, hc, hk.2⟩
        rcases hy with rfl | ⟨y, rfl⟩
        · exact .inl (by simpa using hname)
        · refine .inr (.inr fun t => ⟨.name (some p) (c :: k), y ++ '=' :: t, ?_⟩)
          rw [List.append_assoc]
          exact nameTest?_prefixed hname (by rintro _ ⟨rfl⟩; rfl) p
      · refine .inr (.inl fun t => hnone c _ (by simpa using hc) ?_)
        rintro rfl
        exact absurd hk.1 (by decide)

/-- No expression goes on with a colon. -/
lemma isStray_colon (r : Text) : isStray (':' :: r) = true :=
  isStray_cons.mpr ⟨by decide, by simp [signWords, List.cons_prefix_cons]⟩

/-- **A name of attributes** is a qualified name, or it is read as no test, or as one with
something behind it that no expression goes on with. -/
theorem nodeTest?_of_isKeyed (ha : IsKeyed a) : (∃ pfx base, IsQualified a pfx base) ∨
    (∀ t, nodeTest? (a ++ '=' :: t) = none) ∨
      ∀ t, ∃ test r, nodeTest? (a ++ '=' :: t) = some (test, r) ∧ isStray r = true := by
  obtain ⟨hne, ha⟩ := ha
  obtain ⟨c, s, rfl⟩ := List.exists_cons_of_ne_nil hne
  rcases ha with hhead | hlong | hall
  · exact .inr (.inl fun t => nodeTest?_eq_none (hhead c rfl) _)
  · exact .inr (.inr hlong.nodeTest?)
  rcases isNameStart_or_startsNoTest (hall c (by simp)) with hc | hc
  · obtain ⟨u, w, hs, hu, hw⟩ := exists_dropWhile fun x hx => hall x (List.mem_cons_of_mem c hx)
    have hname : IsName (c :: u) := ⟨c, u, rfl, hc, hu⟩
    rcases hw with rfl | ⟨x, rfl⟩
    · rw [hs, List.append_nil]
      exact .inl ⟨none, _, .plain hname⟩
    · have htest : ∀ t, nodeTest? (c :: s ++ '=' :: t) = nameTest? (c :: u) (':' :: (x ++ '=' :: t)) :=
        fun t => by
          have htext : c :: s ++ '=' :: t = c :: u ++ ':' :: (x ++ '=' :: t) := by simp [hs]
          rw [htext, nodeTest?_append hname (by rintro _ ⟨rfl⟩; rfl)]
      have hx : ∀ y ∈ x, Css.isAttributeChar y = true := fun y hy => hall y (by simp [hs, hy])
      simp only [htest]
      exact (nameTest?_cases hx (c :: u)).imp
        (fun hbase => ⟨some (c :: u), x, by rw [hs, ← List.cons_append]; exact .prefixed hname hbase⟩)
        (.imp_right fun hcolon t => (hcolon t).imp fun test ⟨r, hr⟩ => ⟨_, hr, isStray_colon r⟩)
  · exact .inr (.inl fun t => nodeTest?_eq_none hc _)

/-! ### The path by an attribute -/

/-- **The path by an attribute** is an expression exactly where its name is a qualified one. -/
theorem read?_attributePath_iff (ha : IsKeyed a) (v : Text) :
    (∃ e, Expr.read? (attributePath a v) = some e) ↔ ∃ pfx base, IsQualified a pfx base := by
  constructor
  · rintro ⟨e, he⟩
    set p := '@' :: (a ++ '=' :: (literal v ++ [']'])) with hp
    have htext : attributePath a v = '/' :: '/' :: (['*'] ++ '[' :: p) := by
      simp [attributePath_eq_inside, hp]
    have hnone : ¬ ∀ d, predicate? (exprAt? d) ('[' :: p) = none := fun h => by
      have hread : Expr.read? ('/' :: '/' :: (['*'] ++ '[' :: p)) = none :=
        read?_inside_eq_none ⟨'*', '[' :: p, rfl, .star⟩ fun d e =>
          step?_eq_none_of_predicate testReads_star (h d) e
      rw [htext, hread] at he
      exact absurd he.symm (Option.some_ne_none e)
    rcases nodeTest?_of_isKeyed ha with hq | htest | htest
    · exact hq
    · exact absurd (predicate?_eq_none_of_test (htest _)) hnone
    · obtain ⟨test, r, htest, hstray⟩ := htest (literal v ++ [']'])
      exact absurd (predicate?_eq_none_of_stray htest hstray) hnone
  · rintro ⟨pfx, base, hq⟩
    exact ⟨_, read?_attributePath_test hq.bareReads v⟩

/-- Where the prefix of a test is unbound the step to attributes fails. -/
lemma eval_attributeTest_unbound {env : Env} {test : NodeTest} {why : EvalError}
    (hu : env.testUri test = .error why) (f : Frame) :
    eval env (.step .here .attribute test []) f = .error why := by
  simp [eval, Result.toNodes, hu]

/-- What the text of an expression selects the expression gives. -/
lemma exists_eval_of_mem {s : Text} {e : Expr} {c : Context} {x : Node} {ns : List Node}
    (hc : StartsAt c x namespaces) (hx : isXmlText s = true) (hr : Expr.read? s = some e)
    (h : evaluateElements s c namespaces = .ok ns) (hn : n ∈ ns) :
    ∃ ps, eval ⟨x.document, namespaces⟩ e { place := .node x.address } = .ok (.nodes ps) ∧
      .node n.address ∈ ps := by
  rw [evaluateElements] at h
  obtain ⟨ps, hps, h⟩ := bind_eq_ok.mp h
  obtain rfl := Except.ok.inj h
  have hselect : selectFrom x e namespaces = .ok ps := by
    simpa [evaluate, hc.start, hc.bound, checkText, hx, hr] using hps
  rw [selectFrom, mapError_eq_ok, Env.select] at hselect
  obtain ⟨r, heval, hr⟩ := bind_eq_ok.mp hselect
  obtain ⟨p, hp, hpn⟩ := List.mem_filterMap.mp hn
  cases r with
  | nodes set =>
      obtain rfl := Except.ok.inj hr
      refine ⟨set, heval, ?_⟩
      cases p with
      | node a =>
          simp only at hpn
          split_ifs at hpn
          obtain rfl := Option.some.inj hpn
          exact (List.mem_filter.mp hp).1
      | _ => simp at hpn
  | _ =>
      obtain rfl := Except.ok.inj hr
      simp at hp

/-- **What the path by an attribute selects**: the elements that have the value in the namespace
that the prefix is bound to. -/
theorem mem_attributePath_iff (hw : n.document.IsWhole) (hn : n ∈ n.document.elements)
    (hns : checkNamespaces namespaces = .ok ()) (ha : isXmlText a = true) (hv : isXmlText v = true)
    (hq : IsQualified a pfx base) :
    (∃ ns, evaluateElements (attributePath a v) (.document n.document) namespaces = .ok ns ∧
        n ∈ ns) ↔
      ∃ uri, (Env.mk n.document namespaces).testUri (.name pfx base) = .ok uri ∧
        v ∈ n.document.valuesIn n.address uri base := by
  obtain ⟨i, hstart⟩ := exists_startsAt hw hns
  have hx : isXmlText (attributePath a v) = true := by rw [isXmlText_attributePath_eq, ha, hv]; rfl
  have hread := read?_attributePath_test hq.bareReads v
  cases hu : (Env.mk n.document namespaces).testUri (.name pfx base) with
  | ok uri =>
      have heval := evaluateElements_eq (n := ⟨n.document, [i]⟩) hw hstart hx hread
        (selects_attributePath_test hu v _)
        (H := fun b => (n.document.valuesIn b uri base).contains v) fun b hb => by simp [hb]
      rw [heval]
      simp [hn]
  | error why =>
      refine iff_of_false ?_ (by simp)
      rintro ⟨ns, hns, hmem⟩
      obtain ⟨ps, heval, hp⟩ := exists_eval_of_mem hstart hx hread hns hmem
      obtain ⟨k, size, r, hcond, -⟩ := exists_eval_of_mem_step heval hp
      rw [eval, eval_attributeTest_unbound hu] at hcond
      simp at hcond

end Locator.XPath
