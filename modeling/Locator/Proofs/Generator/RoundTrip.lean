/-
The positional round trip

* `Generator.prefixes_document`, `Generator.prefixes_root`: where no prefixes are
  given those of the root element count;
* `Generator.pathOf_selects_iff`: **the path of an element** of an XML document
  that is made of steps selects and finds this element alone, except where the last
  step ends in a blank.
-/
import Locator.Proofs.Generator.Scope

namespace Locator

open XPath

variable {d : Document} {n root r : Node} {strategy : IndexStrategy} {g : Generator}
  {o : Option Options} {m : Making} {a : Address} {way : List ℕ}
  {namespaces : List (Text × Text)}

/-! ### Elements around -/

/-- Elements around that paths can name. -/
lemma isNamed_of_isBound (hd : d.IsXml) (ha : a ≠ []) (hel : d.isElementAt (way ++ a))
    (hb : ∀ k ∈ (⟨d, way ++ a⟩ : Node).ancestors, ∀ name, k.name? = some name →
      name.IsBound namespaces) :
    ∀ k ∈ Node.along d a way ++ [⟨d, a⟩], k.IsNamed namespaces := by
  intro k hk
  have hmem : k ∈ (⟨d, way ++ a⟩ : Node).ancestors := by
    rw [ancestors_append ha hel, List.mem_append]
    refine (List.mem_append.mp hk).imp id fun hk => ?_
    rw [List.mem_singleton.mp hk, Node.ancestors]
    exact List.mem_cons_self
  obtain ⟨hdoc, hkel⟩ := of_mem_ancestors (Document.isElement_iff.mpr hel) hmem
  obtain ⟨name, hname⟩ := Option.isSome_iff_exists.mp hkel
  obtain ⟨mk, hmk, hname'⟩ := exists_markup hname
  rw [hdoc] at hmk
  exact ⟨name, hname, hd.isXml_of_name? hmk hname', hb k hmem name hname⟩

/-! ### Prefixes -/

namespace Generator

lemma prefixes_eq {s : Settings} (hs : s.namespaces.getD [] = []) (context : Thing) :
    prefixes s context = ((context.context?).map Context.namespaces).getD [] := by
  rw [prefixes]
  split
  · next heq => simp [heq] at hs
  · rfl

/-- Where no prefixes are given those of the root element count. -/
lemma prefixes_document {s : Settings} (hs : s.namespaces.getD [] = []) (hr : d.root? = some root) :
    prefixes s (.document d) = root.namespaces := by
  rw [prefixes_eq hs]
  simp [Thing.context?, Context.namespaces, Context.element?, hr]

/-- Where no prefixes are given those of the element count. -/
lemma prefixes_node {s : Settings} (hs : s.namespaces.getD [] = []) (hr : r.isElement) :
    prefixes s (.node r) = r.namespaces := by
  rw [prefixes_eq hs]
  simp [Thing.context?, Context.namespaces, Context.element?, hr]

end Generator

/-! ### Round trips -/

/-- The root is left open, or it is the document or its root element. -/
def Settings.IsUnscoped (s : Settings) (d : Document) : Prop :=
  s.root = .nothing ∨ s.root = .document d ∨ ∃ root, d.root? = some root ∧ s.root = .node root

/-- The root element of a document has no twin, and gets a position only if all
elements do. -/
lemma needsIndex_root {i : ℕ} (hs : strategy ≠ .always) :
    Generator.needsIndex (⟨d, [i]⟩ : Node) strategy = false := by
  cases strategy with
  | always => exact absurd rfl hs
  | never => rfl
  | auto =>
      simp [Generator.needsIndex, Node.hasTwin, Node.parentElement?, Address.parent?, Node.moved,
        Node.isElement, Node.name?, Node.markup?]

/-- Without a position a step ends as its name does. -/
lemma endsBlank_of_not_needsIndex (h : Generator.needsIndex n strategy = false) :
    n.endsBlank strategy = n.endsBlank .never := by
  have hnever : Generator.needsIndex n .never = false := rfl
  rw [Node.endsBlank, Node.endsBlank, h, hnever]

section Absolute

variable {i : ℕ} {c : Context} {x : Node}

/-- The steps of the path of an element below the root of the document, if the last
one ends in no blank, are all steps from the document. -/
lemma keptSteps_pathSteps
    (hns : ∀ k ∈ Node.along d [] (way ++ [i]), k.HasXmlName)
    (hend : (⟨d, way ++ [i]⟩ : Node).endsBlank (if way = [] then .never else strategy) = false) :
    ∃ strategy', (strategy ≠ .never → strategy' ≠ .never) ∧ (way ≠ [] → strategy' = strategy) ∧
      keptSteps ((⟨d, [i]⟩ : Node).pathSteps strategy way) =
        Node.steps strategy' d [] (way ++ [i]) := by
  cases way with
  | nil =>
      have hi : Generator.needsIndex (⟨d, [i]⟩ : Node) .auto = false := needsIndex_root (by simp)
      have hsteps : (⟨d, [i]⟩ : Node).pathSteps strategy [] =
          Node.steps .auto d [] ([] ++ [i]) := by
        simp [Node.steps, Node.along, Node.pathSteps, stepText_of_not_needsIndex hi]
      have hend' : (⟨d, [i]⟩ : Node).endsBlank .auto = false :=
        (endsBlank_of_not_needsIndex hi).trans hend
      refine ⟨.auto, fun _ => by simp, fun h => absurd rfl h, ?_⟩
      rw [hsteps]
      exact keptSteps_steps (hns _ (by simp [Node.along])) hend'
  | cons j way =>
      refine ⟨strategy, id, fun _ => rfl, ?_⟩
      rw [pathSteps_cons rfl]
      exact keptSteps_steps (hns _ (by simp [Node.along])) (by simpa using hend)

variable (hd : d.HasClearTags) (hk : KeepsXml namespaces) (hc : StartsAt c x namespaces)
  (hx : x.document = d)
include hd hk hc hx

/-- The path of an element finds it, if its last step ends in no blank. -/
lemma finds_pathSteps (hel : d.isElementAt (way ++ [i]))
    (hns : ∀ k ∈ Node.along d [] (way ++ [i]), k.IsNamed namespaces)
    (hend : (⟨d, way ++ [i]⟩ : Node).endsBlank (if way = [] then .never else strategy) = false) :
    let path := slashed (keptSteps ((⟨d, [i]⟩ : Node).pathSteps strategy way))
    (∃ ns, evaluateElements path c namespaces = .ok ns ∧ ⟨d, way ++ [i]⟩ ∈ ns) ∧
      (strategy ≠ .never → Finds path c namespaces ⟨d, way ++ [i]⟩) := by
  obtain ⟨strategy', hs, -, hkept⟩ := keptSteps_pathSteps (hasXmlName_of_isNamed hns) hend
  rw [hkept]
  exact ⟨exists_mem_absolute hd hk hc hx (by simp) hel hns,
    fun h => finds_absolute hd hk hc hx (hs h) (by simp) hel hns⟩

/-- It misses the element otherwise. -/
lemma misses_pathSteps (hns : ∀ k ∈ Node.along d [] (way ++ [i]), k.IsNamed namespaces)
    (hend : (⟨d, way ++ [i]⟩ : Node).endsBlank (if way = [] then .never else strategy)) :
    Misses (slashed (keptSteps ((⟨d, [i]⟩ : Node).pathSteps strategy way))) c namespaces
      ⟨d, way ++ [i]⟩ := by
  cases way with
  | nil =>
      have hsteps : (⟨d, [i]⟩ : Node).pathSteps strategy [] = Node.steps .never d [] [i] := by
        simp [Node.steps, Node.along, Node.pathSteps]
      rw [hsteps]
      exact misses_cut_absolute hd hk hc hx hns hend (.inl rfl)
  | cons j way =>
      rw [pathSteps_cons rfl]
      exact misses_cut_absolute hd hk hc hx hns (by simpa using hend) (.inl (by simp))

end Absolute

namespace Generator

/-- The root of paths for an unscoped call is the root element. -/
lemma rootElement?_of_isUnscoped {s : Settings} (hs : s.IsUnscoped n.document)
    (hr : n.document.root? = some root) (hel : root.isElement) :
    rootElement? s (some n.document) n = some root := by
  rcases hs with hs | hs | ⟨r, hr', hs⟩
  · simp [rootElement?, hs, hr]
  · simp [rootElement?, hs, hr]
  · obtain rfl := Option.some.inj (hr.symm.trans hr')
    simp [rootElement?, hs, hel]

/-- From the document a path is looked for as it stands. -/
lemma resolve_document {context : Thing}
    (hns : ∀ k ∈ Node.along r.document r.address way ++ [r], k.HasXmlName)
    (hne : keptSteps (r.pathSteps strategy way) ≠ [])
    (hstart : firstPresent [(g.settings o).root, context, g.document] = .document d) :
    g.resolve (slashed (keptSteps (r.pathSteps strategy way))) context o =
      firstElement (slashed (keptSteps (r.pathSteps strategy way))) (.document d)
        (prefixes (g.settings o) (.document d)) := by
  rw [resolve_eq (normalize_pathSteps hns) (slashed_ne_nil hne) hstart rfl, Plan.of_document,
    ok_bind]

/-- **The path of an element** of an XML document, if no attribute makes it: it
selects this element, and unless positions are never written this element alone and
finds it; except where the last step ends in a blank. -/
theorem pathOf_selects_iff (hd : d.IsXml) (hn : n ∈ d.elements) (hroot : d.root? = some root)
    (hg : g.registry = .new none) (hopen : (g.settings o).IsUnscoped d)
    (hns : (g.settings o).namespaces.getD [] = [])
    (hbound : ∀ k ∈ n.ancestors, ∀ name, k.name? = some name → name.IsBound root.namespaces)
    (hm : g.making? n o = some m) (hs : m.HasNoShortcut) :
    ∃ path, (g.pathOf (.node n) o).outcome = .ok path ∧
      ((∃ ns, evaluateElements path (.document d) root.namespaces = .ok ns ∧ n ∈ ns ∧
          ((g.settings o).strategy ≠ .never →
            ns = [n] ∧ g.resolve path (.document d) o = .ok (some n))) ↔
        m.endsBlank = false) := by
  obtain ⟨rfl, hel⟩ := (Document.mem_elements hd.whole).mp hn
  obtain ⟨i, hi, hiel, hu⟩ := hd.whole.exists_root
  obtain ⟨way, hway⟩ := Document.exists_way_of_isElementAt hu hel
  obtain ⟨d, b⟩ := n
  obtain rfl : b = way ++ [i] := hway
  obtain rfl : root = ⟨d, [i]⟩ := by
    simpa [Document.root?, Document.rootAddress?, hi, eq_comm] using hroot
  have hrel : (⟨d, [i]⟩ : Node).isElement := Document.isElement_iff.mpr hiel
  have hnel : (⟨d, way ++ [i]⟩ : Node).isElement := Document.isElement_iff.mpr hel
  have hnamed := isNamed_of_isBound hd (by simp) hel hbound
  have hnamed' : ∀ k ∈ Node.along d [] (way ++ [i]),
      k.IsNamed (⟨d, [i]⟩ : Node).namespaces := by
    rwa [along_append]
  have hmaking := making?_eq (r := ⟨d, [i]⟩) (by simp) rfl hnel
    (rootElement?_of_isUnscoped hopen hroot hrel)
  have hpath := pathOf_eq (r := ⟨d, [i]⟩) hg (by simp) rfl hnel
    (rootElement?_of_isUnscoped hopen hroot hrel) hm hs (hasXmlName_of_isNamed hnamed)
  have hend : m.endsBlank =
      (⟨d, way ++ [i]⟩ : Node).endsBlank (if way = [] then .never else (g.settings o).strategy) := by
    obtain rfl := Option.some.inj (hm.symm.trans hmaking)
    exact Making.endsBlank_eq ⟨d, [i]⟩ way _ _
  have hbinds : (⟨d, [i]⟩ : Node).document.BindsXml := hd.bindsXml
  have htags : d.HasClearTags := hd.hasClearTags
  have hkeep : KeepsXml (⟨d, [i]⟩ : Node).namespaces := hbinds.keepsXml
  have hbind : checkNamespaces (⟨d, [i]⟩ : Node).namespaces = .ok () := hbinds.checkNamespaces
  have hc : StartsAt (.document d) ⟨d, [i]⟩ (⟨d, [i]⟩ : Node).namespaces :=
    ⟨by simp [startNode, hroot], hbind⟩
  refine ⟨_, hpath, ?_⟩
  rw [hend]
  cases hcut : (⟨d, way ++ [i]⟩ : Node).endsBlank
      (if way = [] then .never else (g.settings o).strategy) with
  | true =>
      have hmiss := misses_pathSteps htags hkeep hc rfl hnamed' hcut
      refine iff_of_false ?_ (by simp)
      rintro ⟨ns, he, hmem, -⟩
      exact hmiss.elements ns he hmem
  | false =>
      obtain ⟨⟨ns, he, hmem⟩, hfinds⟩ := finds_pathSteps htags hkeep hc rfl hel hnamed' hcut
      refine iff_of_true ⟨ns, he, hmem, fun hstrategy => ?_⟩ rfl
      have hfind := hfinds hstrategy
      refine ⟨Except.ok.inj (he.symm.trans hfind.elements), ?_⟩
      have hne : keptSteps ((⟨d, [i]⟩ : Node).pathSteps (g.settings o).strategy way) ≠ [] := by
        obtain ⟨strategy', -, -, hkept⟩ := keptSteps_pathSteps (hasXmlName_of_isNamed hnamed') hcut
        rw [hkept]
        exact steps_ne_nil (by simp)
      have hfirst := prefixes_document hns hroot ▸ hfind.first
      rcases hopen with hr | hr | ⟨r, hr', hr⟩
      · exact (resolve_document (hasXmlName_of_isNamed hnamed) hne (by rw [hr]; rfl)).trans hfirst
      · exact (resolve_document (hasXmlName_of_isNamed hnamed) hne (by rw [hr]; rfl)).trans hfirst
      · obtain rfl := Option.some.inj (hroot.symm.trans hr')
        have hprefixes := prefixes_node (s := g.settings o) hns hrel
        have hlooks : LooksFrom g o ⟨d, [i]⟩ way :=
          ⟨htags, hrel, hr, hprefixes ▸ hnamed, hprefixes ▸ hbind, hprefixes ▸ hkeep⟩
        exact (hlooks.resolve_iff hstrategy hel _).mpr ⟨.inl rfl, hcut⟩

/-! A document with prefixes, where an index is needed, and one where the name of a
child ends in a blank. -/

/-- Two children of one name in a namespace. -/
def prefixedTwins : Document where
  key := 0
  content := [.element { base := ['r'] } [⟨some ['p'], ['u']⟩] []
    [.element ⟨some ['p'], some ['u'], ['a']⟩ [] [] [],
      .comment [], .element ⟨some ['p'], some ['u'], ['a']⟩ [] [] []]]

/-- The names of two children differ by the Ogham space mark at the end of one. -/
def blankTwins : Document where
  key := 0
  content := [.element { base := ['r'] } [] []
    [.element { base := ['a'] } [] [] [], .element { base := ['a', '\u1680'] } [] [] []]]

/-- The path of the second of two children selects and finds it. -/
theorem pathOf_prefixedTwins :
    ∃ path, (({} : Generator).pathOf (.node ⟨prefixedTwins, [2, 0]⟩) none).outcome = .ok path ∧
      evaluateElements path (.document prefixedTwins) [(['p'], ['u'])] =
        .ok [⟨prefixedTwins, [2, 0]⟩] ∧
      ({} : Generator).resolve path (.document prefixedTwins) none =
        .ok (some ⟨prefixedTwins, [2, 0]⟩) := by
  have hbound : ∀ k ∈ (⟨prefixedTwins, [2, 0]⟩ : Node).ancestors, ∀ name, k.name? = some name →
      name.IsBound (⟨prefixedTwins, [0]⟩ : Node).namespaces := by
    intro k hk name hname u hu
    have hchain : (⟨prefixedTwins, [2, 0]⟩ : Node).ancestors =
        [⟨prefixedTwins, [2, 0]⟩, ⟨prefixedTwins, [0]⟩] := rfl
    rw [hchain, List.mem_cons, List.mem_singleton] at hk
    rcases hk with rfl | rfl
    · obtain rfl := Option.some.inj hname
      exact ⟨['p'], rfl, by rw [← hu]; rfl⟩
    · obtain rfl := Option.some.inj hname
      simp at hu
  obtain ⟨path, hpath, hiff⟩ := pathOf_selects_iff (d := prefixedTwins)
    (n := ⟨prefixedTwins, [2, 0]⟩) (g := {}) (o := none) (by decide)
    (List.mem_of_getElem? (i := 2) rfl) rfl rfl (.inl rfl) rfl hbound rfl ⟨rfl, rfl⟩
  obtain ⟨ns, he, -, hfind⟩ := hiff.mpr rfl
  obtain ⟨rfl, hresolve⟩ := hfind (by decide)
  exact ⟨path, hpath, he, hresolve⟩

/-- The path of the second of two children selects and finds the first one: its
name ends in a blank, which the normal form of the path drops. -/
theorem pathOf_blankTwins :
    blankTwins.IsXml ∧
      (∃ m, ({} : Generator).making? ⟨blankTwins, [1, 0]⟩ none = some m ∧ m.HasNoShortcut) ∧
      (({} : Generator).pathOf (.node ⟨blankTwins, [1, 0]⟩) none).outcome =
        .ok ['/', 'r', '/', 'a'] ∧
      evaluateElements ['/', 'r', '/', 'a'] (.document blankTwins) [] =
        .ok [⟨blankTwins, [0, 0]⟩] ∧
      ({} : Generator).resolve ['/', 'r', '/', 'a'] (.document blankTwins) none =
        .ok (some ⟨blankTwins, [0, 0]⟩) :=
  ⟨by decide, ⟨_, rfl, rfl, rfl⟩, rfl, rfl, rfl⟩

end Generator

end Locator
