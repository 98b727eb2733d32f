/-
Paths by attributes of any name

* `XPath.IsOverlong.squeeze`, `XPath.IsKeyed.squeeze`: shortened slashes make no name of what is none;
* `Generator.pathOf_keyed_iff`: **the path by an attribute** that an element carries is an
  expression exactly where the name of the attribute is one that paths can say. A name with its
  namespace in braces is looked up and counted, but the path says it as it stands.
-/
import Locator.Proofs.Generator.Shortcut
import Locator.Proofs.Uniqueness.Exact
import Locator.Proofs.XPath.Named

namespace Locator

open XPath

variable {d : Document} {n : Node} {g : Generator} {o : Option Options} {m : Making}
  {a v base : Text} {pfx : Option Text} {namespaces : List (Text × Text)}

/-! ### Shortened names -/

namespace XPath

/-- Qualified names have no slashes. -/
lemma IsQualified.squeeze_eq (h : IsQualified a pfx base) : squeeze a = a := by
  have hname : ∀ {s : Text}, Text.IsName s → '/' ∉ s := fun hs hm =>
    absurd (hs.isNameChar _ hm) (by decide)
  refine squeezeFrom_eq_self ?_ 0
  cases h with
  | plain hb => exact hname hb
  | prefixed hp hb => simp [hname hp, hname hb]

/-- A text without slashes stands in front of a text if it stands in front of the shortened
one. -/
lemma prefix_of_prefix_squeeze {s w : Text} (hs : '/' ∉ s) (h : s <+: squeeze w) : s <+: w := by
  induction s generalizing w with
  | nil => simp
  | cons c s ih =>
      rw [List.mem_cons, not_or] at hs
      have hc : c ≠ '/' := Ne.symm hs.1
      obtain ⟨r, rfl⟩ : ∃ r, w = c :: r := by
        obtain ⟨t, ht⟩ := h
        have hhead := head?_squeeze w
        rw [← ht] at hhead
        exact List.head?_eq_some_iff.mp hhead.symm
      rw [squeeze_cons hc, List.cons_prefix_cons] at h
      exact List.cons_prefix_cons.mpr ⟨rfl, ih hs.2 h.2⟩

/-- Shortened slashes leave an overlong name one. -/
lemma IsOverlong.squeeze (ha : IsOverlong a) : IsOverlong (squeeze a) := by
  obtain ⟨u, w, rfl, hw, hu⟩ := ha
  have hself : XPath.squeeze u = u := by
    rcases hu with rfl | ⟨⟨pfx, base, hq⟩, -⟩
    · rfl
    · exact hq.squeeze_eq
  obtain ⟨c, r, rfl, hne⟩ := exists_of_isStray hw
  have hc : c ≠ '/' := hne '/' (by decide)
  refine ⟨u, c :: XPath.squeeze r, ?_, ?_, hu⟩
  · rw [XPath.squeeze, squeezeFrom_append_cons hc]
    exact congrArg (· ++ _) hself
  · obtain ⟨hmark, hwords⟩ := isStray_cons.mp hw
    have hslash : ∀ k ∈ signWords, '/' ∉ k := by decide
    refine isStray_cons.mpr ⟨hmark, fun k hk hpre => hwords k hk ?_⟩
    exact prefix_of_prefix_squeeze (hslash k hk) (squeeze_cons hc r ▸ hpre)

/-- An overlong name is no qualified one. -/
lemma IsOverlong.not_isQualified (ha : IsOverlong a) : ¬ IsQualified a pfx base := by
  intro hq
  obtain ⟨u, w, rfl, hw, rfl | ⟨-, hhead⟩⟩ := ha
  · exact absurd (hq.isNameStart '*' rfl) (by decide)
  · obtain ⟨c, r, rfl, -⟩ := exists_of_isStray hw
    simpa [hhead c rfl] using hq.isAttributeChar c (by simp)

/-- Shortened slashes make no name of what is none. -/
lemma IsKeyed.squeeze (ha : IsKeyed a) : IsKeyed (squeeze a) ∧
    ∀ pfx base, IsQualified (XPath.squeeze a) pfx base ↔ IsQualified a pfx base := by
  obtain ⟨hne, hcases⟩ := ha
  have hne' : XPath.squeeze a ≠ [] := squeeze_eq_nil_iff.not.mpr hne
  obtain hhead | hlong | hall := hcases
  · have hnone : ∀ {s : Text}, s.head? = a.head? → ∀ pfx base, ¬ IsQualified s pfx base := by
      intro s hs pfx base hq
      obtain ⟨c, r, rfl⟩ := List.exists_cons_of_ne_nil hne
      have hstart := hq.isNameStart c hs
      have hno := hhead c rfl
      simp [startsNoTest, hstart] at hno
    exact ⟨⟨hne', .inl fun c hc => hhead c (head?_squeeze a ▸ hc)⟩, fun pfx base =>
      iff_of_false (hnone (head?_squeeze a) pfx base) (hnone rfl pfx base)⟩
  · exact ⟨⟨hne', .inr (.inl hlong.squeeze)⟩, fun pfx base =>
      iff_of_false hlong.squeeze.not_isQualified hlong.not_isQualified⟩
  · have hself : XPath.squeeze a = a :=
      squeezeFrom_eq_self (slash_not_mem_of_isAttributeChar hall) 0
    rw [hself]
    exact ⟨⟨hne, .inr (.inr hall)⟩, fun _ _ => Iff.rfl⟩

/-- Names are qualified names without a prefix. -/
lemma exists_isQualified_iff : (∃ pfx base, IsQualified a pfx base) ↔
    Text.IsName a ∨ ∃ p k, IsQualified a (some p) k := by
  constructor
  · rintro ⟨pfx, base, hq⟩
    cases hq with
    | plain hb => exact .inl hb
    | prefixed hp hb => exact .inr ⟨_, _, .prefixed hp hb⟩
  · rintro (ha | ⟨p, k, hq⟩)
    · exact ⟨none, a, .plain ha⟩
    · exact ⟨some p, k, hq⟩

end XPath

namespace Generator

/-- What the path by an attribute of any name selects. -/
lemma mem_keyedPath_iff (hw : n.document.IsWhole) (hn : n ∈ n.document.elements)
    (hns : checkNamespaces namespaces = .ok ()) (hx : Text.isXmlText a = true) (ha : IsKeyed a) :
    (∃ ns, evaluateElements (attributePath a v) (.document n.document) namespaces = .ok ns ∧
        n ∈ ns) ↔
      Text.isXmlText v = true ∧ ∃ pfx base uri, IsQualified a pfx base ∧
        (Env.mk n.document namespaces).testUri (.name pfx base) = .ok uri ∧
        v ∈ n.document.valuesIn n.address uri base := by
  obtain ⟨i, hstart⟩ := exists_startsAt hw hns
  have htext : Text.isXmlText (attributePath a v) = Text.isXmlText v := by
    rw [isXmlText_attributePath_eq, hx, Bool.true_and]
  cases hv : Text.isXmlText v with
  | false =>
      have hforbidden := evaluate_forbidden hstart (htext.trans hv)
      simp [evaluateElements, hforbidden]
  | true =>
      by_cases hq : ∃ pfx base, IsQualified a pfx base
      · constructor
        · intro hmem
          obtain ⟨pfx, base, hq⟩ := hq
          obtain ⟨uri, huri⟩ := (mem_attributePath_iff hw hn hns hx hv hq).mp hmem
          exact ⟨rfl, pfx, base, uri, hq, huri⟩
        · rintro ⟨-, pfx, base, uri, hq, huri⟩
          exact (mem_attributePath_iff hw hn hns hx hv hq).mpr ⟨uri, huri⟩
      · have hread : Expr.read? (attributePath a v) = none :=
          Option.eq_none_iff_forall_ne_some.mpr fun e he =>
            hq ((read?_attributePath_iff ha v).mp ⟨e, he⟩)
        have hmalformed := evaluate_malformed hstart (htext.trans hv) hread
        refine iff_of_false ?_ fun h => ?_
        · simp [evaluateElements, hmalformed]
        · obtain ⟨-, pfx, base, uri, h, -⟩ := h
          exact hq ⟨pfx, base, h⟩

/-- **The path by an attribute that an element carries**, whatever the name of the attribute is,
unless it goes on behind a test as an expression can (`IsKeyed`). It is an expression exactly
where the value is XML text and the name is a name or one behind a prefix; so it is none for a
name with a namespace in braces, or with an asterisk in front. It selects the element exactly
where the name is a name and the value is left alone by the shortening of slashes, or where the
prefix is bound to a namespace in which the element has the attribute with the shortened
value. -/
theorem pathOf_keyed_iff (hd : d.IsRegular) (hn : n ∈ d.elements) (hg : g.registry = .new none)
    (hm : g.making? n o = some m) (hs : m.IsShortcut a v) (hv : n.lookUp a = .ok (some v))
    (ha : IsKeyed a) (hns : checkNamespaces namespaces = .ok ()) :
    ∃ path, (g.pathOf (.node n) o).outcome = .ok path ∧
      path = attributePath (squeeze a) (squeeze v) ∧
      (isExpression path = .ok true ↔ Text.isXmlText v = true ∧
        (Text.IsName a ∨ ∃ p k, IsQualified a (some p) k)) ∧
      ((∃ ns, evaluateElements path (.document d) namespaces = .ok ns ∧ n ∈ ns) ↔
        Text.isXmlText v = true ∧ (Text.IsName a ∧ squeeze v = v ∨
          ∃ p k u, IsQualified a (some p) k ∧ (Env.mk d namespaces).lookup? p = some u ∧
            squeeze v ∈ d.valuesIn n.address (some u) k)) := by
  obtain ⟨rfl, hel⟩ := (Document.mem_elements hd.whole).mp hn
  have helement : n.isElement = true := Document.isElement_iff.mpr hel
  have hpath := pathOf_shortcut hg helement hm hs
  rw [normalize_attributePath_eq] at hpath
  have hx : Text.isXmlText a = true := (Node.of_lookUp hv).1
  obtain ⟨hkeyed, hsame⟩ := ha.squeeze
  refine ⟨_, hpath, rfl, ?_, ?_⟩
  · rw [isExpression_iff, isXmlText_attributePath_eq, isXmlText_squeeze, isXmlText_squeeze, hx,
      Bool.true_and, read?_attributePath_iff hkeyed]
    simp only [hsame, exists_isQualified_iff]
  · rw [mem_keyedPath_iff hd.whole hn hns (by rw [isXmlText_squeeze, hx]) hkeyed, isXmlText_squeeze]
    refine and_congr_right fun _ => ?_
    simp only [hsame]
    constructor
    · rintro ⟨pfx, base, uri, hq, hu, hmem⟩
      cases hq with
      | plain hb =>
          obtain rfl : none = uri := Except.ok.inj hu
          have hlook := (hd.mem_valuesAt_iff hb helement).mp hmem
          rw [hv] at hlook
          exact .inl ⟨hb, (Option.some.inj (Except.ok.inj hlook)).symm⟩
      | @prefixed p base hp hb =>
          cases hl : (Env.mk n.document namespaces).lookup? p with
          | none => simp [Env.testUri, NodeTest.pfx?, hl] at hu
          | some u =>
              simp only [Env.testUri, NodeTest.pfx?, hl] at hu
              obtain rfl := Except.ok.inj hu
              exact .inr ⟨p, base, u, .prefixed hp hb, hl, hmem⟩
    · rintro (⟨hname, hsq⟩ | ⟨p, k, u, hq, hl, hmem⟩)
      · refine ⟨none, a, none, .plain hname, rfl, ?_⟩
        rw [hsq]
        exact (hd.mem_valuesAt_iff hname helement).mpr hv
      · exact ⟨some p, k, some u, hq, by simp [Env.testUri, NodeTest.pfx?, hl], hmem⟩

/-- The path by an identifier with both quotation marks is an expression that selects its
element. -/
theorem pathOf_keyed_quotedIdentifier :
    IsKeyed "id".toList ∧ ∃ path,
      (({} : Generator).pathOf (.node ⟨quotedIdentifier, [1, 0]⟩) none).outcome = .ok path ∧
        isExpression path = .ok true ∧
        ∃ ns, evaluateElements path (.document quotedIdentifier) [] = .ok ns ∧
          ⟨quotedIdentifier, [1, 0]⟩ ∈ ns := by
  have hkeyed : IsKeyed "id".toList := ⟨by decide, .inr (.inr (by decide))⟩
  have hlook : Node.lookUp ⟨quotedIdentifier, [1, 0]⟩ "id".toList =
      .ok (some ['"', '/', '/', '\'', ' ']) := rfl
  obtain ⟨path, hpath, -, hread, hmem⟩ := pathOf_keyed_iff (d := quotedIdentifier) (g := {})
    (o := none) (v := ['"', '/', '/', '\'', ' ']) (by decide) (List.mem_of_getElem? (i := 2) rfl)
    rfl rfl (.inl (eq_ok_of_toOption (by decide +kernel))) hlook hkeyed
    (rfl : checkNamespaces [] = .ok ())
  have hname : Text.IsName "id".toList := isName_of_mem_attributes List.mem_cons_self
  exact ⟨hkeyed, path, hpath, hread.mpr ⟨rfl, .inl hname⟩, hmem.mpr ⟨rfl, .inl ⟨hname, rfl⟩⟩⟩

/-- An attribute in a namespace. -/
def prefixedKey : Document where
  key := 0
  content := [.element { base := ['r'] } [⟨some ['p'], ['u']⟩] []
    [.element { base := ['a'] } [] [⟨{ pfx := some ['p'], uri := some ['u'], base := ['k'] }, ['v']⟩]
      []]]

/-- The attribute is asked for by its name, with the namespace in braces. -/
def bracedKey : Options where
  attributes := some ["\x7bu\x7dk".toList]

/-- The attribute is found under its name with the namespace in braces, and the path says this
name as it stands: it is no expression and selects nothing. -/
theorem pathOf_bracedKey :
    prefixedKey.IsRegular ∧
      (⟨prefixedKey, [0, 0]⟩ : Node).lookUp "\x7bu\x7dk".toList = .ok (some ['v']) ∧
      (({} : Generator).pathOf (.node ⟨prefixedKey, [0, 0]⟩) (some bracedKey)).outcome =
        .ok "//*[@\x7bu\x7dk=\"v\"]".toList ∧
      isExpression "//*[@\x7bu\x7dk=\"v\"]".toList = .ok false ∧
      evaluateElements "//*[@\x7bu\x7dk=\"v\"]".toList (.document prefixedKey) [] =
        .error (.path .malformed) := by
  have hstart : StartsAt (.document prefixedKey) ⟨prefixedKey, [0]⟩ [] := ⟨rfl, rfl⟩
  have hread : Expr.read? "//*[@\x7bu\x7dk=\"v\"]".toList = none :=
    Option.isNone_iff_eq_none.mp (by decide +kernel)
  refine ⟨by decide, rfl, eq_ok_of_toOption (by decide +kernel), ?_, ?_⟩
  · exact eq_ok_of_toOption (by decide +kernel)
  · rw [evaluateElements, evaluate_malformed hstart rfl hread]
    rfl

end Generator

end Locator
