/-
Paths by attributes, made and looked for

* `Settings.CanStart`: expressions can be looked for from a thing;
* `Generator.resolve_attributePath_iff`: the path by an attribute finds the first
  element with the value;
* `Generator.pathOf_attribute_iff`: **the path by an attribute** that one element
  alone has selects and finds this element, if the value is XML text without more
  than two slashes in a row.
-/
import Locator.Proofs.Document.Regular
import Locator.Proofs.Generator.Path
import Locator.Proofs.XPath.Attribute

namespace Locator

open XPath

variable {d : Document} {n x : Node} {g : Generator} {o : Option Options} {m : Making}
  {a v : Text} {start context : Thing} {site : Context} {namespaces : List (Text × Text)}

/-! ### Looking for the path -/

/-- Expressions can be looked for from a thing: the prefixes can be used, and if it
is an element paths can say its name. -/
def Settings.CanStart (s : Settings) (start : Thing) : Prop :=
  checkNamespaces (Generator.prefixes s start) = .ok () ∧
    ∀ r, start.element? = some r → r.pathName?.isSome

/-- If a thing is an element, its name starts with no slash. -/
def Thing.HasPlainName (start : Thing) : Prop :=
  ∀ r tag, start.element? = some r → r.pathName? = some tag → ∃ c s, tag = c :: s ∧ c ≠ '/'

/-- What starts with two slashes is looked for as it is. -/
lemma Plan.of_inside_document (hplain : start.HasPlainName)
    (hname : ∀ r, start.element? = some r → r.pathName?.isSome) (s : Text) :
    Plan.of ('/' :: '/' :: s) start = .ok (.expression ('/' :: '/' :: s)) := by
  cases hr : start.element? with
  | none => simp [Plan.of, hr]
  | some r =>
      obtain ⟨tag, ht⟩ := Option.isSome_iff_exists.mp (hname r hr)
      obtain ⟨c, t, rfl, hc⟩ := hplain r tag hr ht
      have hstep : Heuristic.stepName r = .ok (c :: t) := by rw [Heuristic.stepName, ht]
      have hne : ¬ '/' = c := fun h => hc h.symm
      have hb : Text.behind? ('/' :: c :: (t ++ ['/'])) ('/' :: '/' :: s) = none := by
        simp [Text.behind?, List.isPrefixOf, hc]
      simp [Plan.of, hr, hstep, hne, hb]

/-- Where no path can say the name of the element nothing is looked for. -/
lemma Plan.of_eq_error {r : Node} (hr : start.element? = some r) (h : r.pathName?.isSome = false)
    (s : Text) : Plan.of s start = .error .unnameable := by
  have hnone : r.pathName? = none := by simpa using h
  have hstep : Heuristic.stepName r = .error .unnameable := by rw [Heuristic.stepName, hnone]
  simp [Plan.of, hr, hstep]

namespace Generator

/-- Without prefixes that can be used nothing is found. -/
lemma firstElement_ne_of_unbound {s : Text} (hx : startNode site = .ok x)
    (h : checkNamespaces namespaces ≠ .ok ()) : firstElement s site namespaces ≠ .ok (some n) := by
  cases hc : checkNamespaces namespaces with
  | ok u => exact absurd hc h
  | error e =>
      have he : evaluate s site namespaces = .error e := by simp [evaluate, hx, hc]
      rw [firstElement, he]
      simp only
      split_ifs <;> simp

/-- The path by an attribute finds the first element with the value. -/
theorem resolve_attributePath_iff (hw : x.document.IsWhole) (ha : Text.IsName a)
    (hv : squeeze v = v) (hstart : firstPresent [(g.settings o).root, context, g.document] = start)
    (hsite : start.context? = some site) (hx : startNode site = .ok x)
    (hplain : start.HasPlainName) :
    g.resolve (attributePath a v) context o = .ok (some n) ↔
      (g.settings o).CanStart start ∧ Text.isXmlText v ∧
        x.document.elements.find? (fun k => (x.document.valuesAt k.address a).contains v) =
          some n := by
  have hnormal : normalize (attributePath a v) = attributePath a v := by
    rw [normalize_attributePath ha, hv]
  obtain ⟨s, hs⟩ : ∃ s, attributePath a v = '/' :: '/' :: s := ⟨_, rfl⟩
  rw [resolve_eq hnormal (by simp [hs]) hstart hsite]
  by_cases hname : ∀ r, start.element? = some r → r.pathName?.isSome
  · have hplan : Plan.of (attributePath a v) start = .ok (.expression (attributePath a v)) := by
      rw [hs, Plan.of_inside_document hplain hname]
    rw [hplan, ok_bind]
    by_cases hb : checkNamespaces (prefixes (g.settings o) start) = .ok ()
    · have hc : StartsAt site x (prefixes (g.settings o) start) := ⟨hx, hb⟩
      cases hxv : Text.isXmlText v with
      | true =>
          rw [show (g.settings o).CanStart start ↔ True from iff_true_intro ⟨hb, hname⟩]
          simp [firstElement_attributePath hw hc ha hxv]
      | false =>
          have he := evaluate_attributePath_of_not hc ha hxv
          simp [firstElement, he, Failure.isPath]
    · refine iff_of_false (firstElement_ne_of_unbound hx hb) ?_
      rintro ⟨⟨hok, -⟩, -⟩
      exact hb hok
  · obtain ⟨r, hr⟩ := not_forall.mp hname
    obtain ⟨hr, hnone⟩ := Classical.not_imp.mp hr
    rw [Plan.of_eq_error hr (by simpa using hnone)]
    refine iff_of_false (by simp) ?_
    rintro ⟨⟨-, hok⟩, -⟩
    exact hnone (hok r hr)

/-! ### Round trips -/

/-- The root of paths is left open, or it is the document or a node of it. -/
def LooksIn (s : Settings) (d : Document) : Prop :=
  s.root = .nothing ∨ s.root = .document d ∨ ∃ r, s.root = .node r ∧ r.document = d

/-- Where expressions are looked for in a document. -/
def startIn (s : Settings) (d : Document) : Thing := firstPresent [s.root, .document d]

/-- In a document of its own everything is looked for there. -/
lemma exists_startNode {s : Settings} (hd : d.IsWhole) (hs : LooksIn s d) (t : Thing) :
    firstPresent [s.root, .document d, t] = startIn s d ∧
      ∃ site x, (startIn s d).context? = some site ∧ startNode site = .ok x ∧ x.document = d ∧
        ∀ r, (startIn s d).element? = some r → r.document = d := by
  obtain ⟨i, hi, -⟩ := hd.exists_root
  have hroot : startNode (.document d) = .ok ⟨d, [i]⟩ := by
    simp [startNode, Document.root?, Document.rootAddress?, hi]
  rcases hs with hs | hs | ⟨r, hs, hr⟩
  · have hstart : startIn s d = .document d := by rw [startIn, hs]; rfl
    refine ⟨by rw [hstart, hs]; rfl, .document d, _, by rw [hstart]; rfl, hroot, rfl, ?_⟩
    simp [hstart, Thing.element?]
  · have hstart : startIn s d = .document d := by rw [startIn, hs]; rfl
    refine ⟨by rw [hstart, hs]; rfl, .document d, _, by rw [hstart]; rfl, hroot, rfl, ?_⟩
    simp [hstart, Thing.element?]
  · have hstart : startIn s d = .node r := by rw [startIn, hs]; rfl
    refine ⟨by rw [hstart, hs]; rfl, .node r, r, by rw [hstart]; rfl, rfl, hr, ?_⟩
    simp [hstart, Thing.element?, hr]

/-- The names of the usual attributes are names. -/
lemma isName_of_mem_attributes (h : a ∈ "id".toList :: defaultAttributes) : Text.IsName a := by
  have hall : ∀ b ∈ "id".toList :: defaultAttributes, Node.isPathName b = true := by decide
  exact Text.isPathName_iff.mp (hall a h)

/-- **The path by an attribute** whose value one element alone has: it selects and
finds this element exactly if the value is XML text without more than two slashes in
a row, as far as anything can be looked for. -/
theorem pathOf_attribute_iff (hd : d.IsRegular) (hn : n ∈ d.elements)
    (hg : g.registry = .new none) (hroot : LooksIn (g.settings o) d)
    (hm : g.making? n o = some m) (ha : a ∈ "id".toList :: defaultAttributes)
    (hs : m.IsShortcut a v) (hv : ∀ k ∈ d.elements, k.lookUp a = .ok (some v) ↔ k = n)
    (hns : checkNamespaces namespaces = .ok ()) :
    ∃ path, (g.pathOf (.node n) o).outcome = .ok path ∧
      ((evaluateElements path (.document d) namespaces = .ok [n] ∧
          g.resolve path (.document d) o = .ok (some n)) ↔
        Text.isXmlText v ∧ squeeze v = v ∧
          (g.settings o).CanStart (startIn (g.settings o) d)) := by
  obtain ⟨rfl, hel⟩ := (Document.mem_elements hd.whole).mp hn
  have hname := isName_of_mem_attributes ha
  have hpath := pathOf_shortcut hg (Document.isElement_iff.mpr hel) hm hs
  rw [normalize_attributePath hname] at hpath
  -- The elements with a value, in terms of their own look-up.
  have hhas : ∀ k ∈ n.document.elements, ∀ w,
      (n.document.valuesAt k.address a).contains w ↔ k.lookUp a = .ok (some w) := by
    intro k hk w
    obtain ⟨hkd, hkel⟩ := (Document.mem_elements hd.whole).mp hk
    have hkr : k.document.IsRegular := hkd ▸ hd
    have hmem := hkr.mem_valuesAt_iff (v := w) hname (Document.isElement_iff.mpr (hkd ▸ hkel))
    rw [List.contains_iff_mem, ← hmem, hkd]
  have halone : (n.document.elements.filter fun k =>
      (n.document.valuesAt k.address a).contains v) = [n] := by
    rw [← filter_elements_eq hd.whole hel]
    refine List.filter_congr fun k hk => ?_
    obtain ⟨hkd, -⟩ := (Document.mem_elements hd.whole).mp hk
    rw [Bool.eq_iff_iff, hhas k hk, hv k hk, beq_iff_eq]
    exact ⟨fun h => h ▸ rfl, fun h => by cases k; cases n; simp_all⟩
  obtain ⟨hstart, site, x, hsite, hx, hxd, hr⟩ := exists_startNode hd.whole hroot g.document
  have hplain : (startIn (g.settings o) n.document).HasPlainName := by
    intro r tag hr' ht
    have hrr : r.document.IsRegular := hr r hr' ▸ hd
    exact hrr.startsPlain_pathName? ht
  obtain ⟨i, hi, -⟩ := hd.whole.exists_root
  have hc : StartsAt (.document n.document) ⟨n.document, [i]⟩ namespaces :=
    ⟨by simp [startNode, Document.root?, Document.rootAddress?, hi], hns⟩
  have hwhole : (⟨n.document, [i]⟩ : Node).document.IsWhole := hd.whole
  have hfinds := resolve_attributePath_iff (g := g) (o := o) (n := n) (hxd ▸ hd.whole) hname
    (squeeze_squeeze v) hstart hsite hx hplain
  refine ⟨_, hpath, ?_⟩
  rw [hfinds, hxd, isXmlText_squeeze]
  constructor
  · rintro ⟨he, hstart, hxv, -⟩
    rw [evaluateElements_attributePath hwhole hc hname ((isXmlText_squeeze v).trans hxv)] at he
    have hmem : n ∈ n.document.elements.filter fun k =>
        (n.document.valuesAt k.address a).contains (squeeze v) := by
      rw [Except.ok.inj he]
      exact List.mem_singleton_self n
    have hsq := (hhas n hn _).mp (List.mem_filter.mp hmem).2
    rw [(hv n hn).mpr rfl] at hsq
    exact ⟨hxv, (Option.some.inj (Except.ok.inj hsq)).symm, hstart⟩
  · rintro ⟨hxv, hsq, hstart⟩
    rw [hsq]
    refine ⟨?_, hstart, hxv, ?_⟩
    · rw [evaluateElements_attributePath hwhole hc hname hxv]
      exact congrArg _ halone
    · rw [← List.head?_filter, halone]
      rfl

/-! A document with an identifier that holds both quotation marks, and one whose
identifier holds three slashes in a row. -/

/-- The identifier of the second child holds both quotation marks. -/
def quotedIdentifier : Document where
  key := 0
  content := [.element { base := ['r'] } [] []
    [.element { base := ['a'] } [] [⟨{ base := ['i', 'd'] }, ['x']⟩] [],
      .element { base := ['a'] } [] [⟨{ base := ['i', 'd'] }, ['"', '/', '/', '\'', ' ']⟩] []]]

/-- The identifier of the child holds three slashes in a row. -/
def slashedIdentifier : Document where
  key := 0
  content := [.element { base := ['r'] } [] []
    [.element { base := ['a'] } [] [⟨{ base := ['i', 'd'] }, ['x', '/', '/', '/', 'y']⟩] []]]

/-- The identifier with both quotation marks selects and finds its element. -/
theorem pathOf_quotedIdentifier :
    ∃ path, (({} : Generator).pathOf (.node ⟨quotedIdentifier, [1, 0]⟩) none).outcome = .ok path ∧
      evaluateElements path (.document quotedIdentifier) [] = .ok [⟨quotedIdentifier, [1, 0]⟩] ∧
      ({} : Generator).resolve path (.document quotedIdentifier) none =
        .ok (some ⟨quotedIdentifier, [1, 0]⟩) := by
  have hv : ∀ k ∈ quotedIdentifier.elements,
      k.lookUp "id".toList = .ok (some ['"', '/', '/', '\'', ' ']) ↔
        k = ⟨quotedIdentifier, [1, 0]⟩ := by
    intro k hk
    have hall : quotedIdentifier.elements =
        [⟨quotedIdentifier, [0]⟩, ⟨quotedIdentifier, [0, 0]⟩, ⟨quotedIdentifier, [1, 0]⟩] := rfl
    have h0 : Node.lookUp ⟨quotedIdentifier, [0]⟩ "id".toList = .ok none := rfl
    have h1 : Node.lookUp ⟨quotedIdentifier, [0, 0]⟩ "id".toList = .ok (some ['x']) := rfl
    have h2 : Node.lookUp ⟨quotedIdentifier, [1, 0]⟩ "id".toList =
        .ok (some ['"', '/', '/', '\'', ' ']) := rfl
    simp only [hall, List.mem_cons, List.not_mem_nil, or_false] at hk
    rcases hk with rfl | rfl | rfl
    · rw [h0]
      simp
    · rw [h1]
      simp
    · rw [h2]
      simp
  obtain ⟨path, hpath, hiff⟩ := pathOf_attribute_iff (d := quotedIdentifier)
    (n := ⟨quotedIdentifier, [1, 0]⟩) (g := {}) (o := none) (by decide)
    (List.mem_of_getElem? (i := 2) rfl) rfl (.inl rfl) rfl List.mem_cons_self
    (.inl (eq_ok_of_toOption (by decide +kernel))) hv (rfl : checkNamespaces [] = .ok ())
  have hstart : Settings.CanStart (({} : Generator).settings none)
      (startIn (({} : Generator).settings none) quotedIdentifier) :=
    ⟨rfl, fun r hr => (Option.some_ne_none r (show some r = none from hr.symm)).elim⟩
  exact ⟨path, hpath, hiff.mpr ⟨rfl, rfl, hstart⟩⟩

/-- The identifier with three slashes selects and finds nothing: the normal form of the
path shortens them. -/
theorem pathOf_slashedIdentifier :
    slashedIdentifier.IsRegular ∧
      (∃ m, ({} : Generator).making? ⟨slashedIdentifier, [0, 0]⟩ none = some m ∧
        m.IsShortcut "id".toList ['x', '/', '/', '/', 'y']) ∧
      (({} : Generator).pathOf (.node ⟨slashedIdentifier, [0, 0]⟩) none).outcome =
        .ok (attributePath "id".toList ['x', '/', '/', 'y']) ∧
      evaluateElements (attributePath "id".toList ['x', '/', '/', 'y'])
        (.document slashedIdentifier) [] = .ok [] ∧
      ({} : Generator).resolve (attributePath "id".toList ['x', '/', '/', 'y'])
        (.document slashedIdentifier) none ≠ .ok (some ⟨slashedIdentifier, [0, 0]⟩) := by
  have hmaking : ∃ m, ({} : Generator).making? ⟨slashedIdentifier, [0, 0]⟩ none = some m ∧
      m.IsShortcut "id".toList ['x', '/', '/', '/', 'y'] :=
    ⟨_, rfl, .inl (eq_ok_of_toOption (by decide +kernel))⟩
  have hname : Text.IsName "id".toList := isName_of_mem_attributes List.mem_cons_self
  have hwhole : (⟨slashedIdentifier, [0]⟩ : Node).document.IsWhole := rfl
  have hc : StartsAt (.document slashedIdentifier) ⟨slashedIdentifier, [0]⟩ [] := ⟨rfl, rfl⟩
  have hplain : (Thing.document slashedIdentifier).HasPlainName :=
    fun r _ hr => (Option.some_ne_none r (show some r = none from hr.symm)).elim
  refine ⟨by decide, hmaking, eq_ok_of_toOption (by decide +kernel), ?_, fun h => ?_⟩
  · rw [evaluateElements_attributePath hwhole hc hname rfl]
    rfl
  · have hstart : firstPresent [(settings {} none).root, .document slashedIdentifier, .nothing] =
        .document slashedIdentifier := rfl
    obtain ⟨-, -, hfind⟩ :=
      (resolve_attributePath_iff hwhole hname rfl hstart rfl hc.start hplain).mp h
    exact Option.some_ne_none _ (show some _ = none from hfind.symm)

end Generator

end Locator
