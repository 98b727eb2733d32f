/-
Round trips below chosen roots

* `Document.HasBareNames`, `Document.IsBare`: no element is in a namespace;
* `Options.below`: the options for paths below a root;
* `Generator.resolve_pathOf_iff`: **the path of an element** below any root finds it
  again exactly if an attribute makes the path and this value finds the element, or
  the step of the root has no position that leads out of it and the last step ends
  in no blank.
-/
import Locator.Proofs.Generator.RoundTrip
import Locator.Proofs.Generator.Shortcut

namespace Locator

open XPath

variable {d : Document} {n r k : Node} {strategy : IndexStrategy} {g : Generator}
  {o : Option Options} {m : Making} {a v : Text} {way : List ℕ}

/-! ### Documents without namespaces -/

/-- A piece whose name is in no namespace and has no prefix, and whose bindings XML allows. -/
def Markup.isBare : Markup → Bool
  | .element n bs _ _ => n.uri.isNone && n.pfx.isNone && bs.all Binding.isXml
  | _ => true

/-- No name of an element has a prefix or is in a namespace, and XML allows all bindings. -/
def Document.HasBareNames (d : Document) : Prop := ∀ p ∈ d.pieces, p.2.isBare = true

namespace Document.HasBareNames

/-- The names of elements are local parts alone. -/
lemma of_name? (h : d.HasBareNames) {b : Address} {x : Markup} {name : Name}
    (hx : d.get? b = some x) (hn : x.name? = some name) : name.uri = none ∧ name.pfx = none := by
  have hb := h (b, x) (mem_pieces.mpr hx)
  cases x with
  | element l bs as cs =>
      obtain rfl : l = name := by simpa [Markup.name?] using hn
      simp only [Markup.isBare, Bool.and_eq_true, Option.isNone_iff_eq_none] at hb
      exact hb.1
  | _ => simp [Markup.name?] at hn

lemma bindsXml (h : d.HasBareNames) : d.BindsXml := by
  intro p hp b hb
  have hx := h p hp
  obtain ⟨a, x⟩ := p
  cases x with
  | element name bs as cs =>
      simp only [Markup.isBare, Bool.and_eq_true, List.all_eq_true] at hx
      exact hx.2 b hb
  | _ => simp [Markup.bindings] at hb

/-- A name that paths can say is a local part that is an XML name. -/
lemma isName_of_pathName? (h : k.document.HasBareNames) {tag : Text}
    (ht : k.pathName? = some tag) : Text.IsName tag ∧ ∀ namespaces, k.IsNamed namespaces := by
  obtain ⟨name, hname, ht⟩ := Option.bind_eq_some_iff.mp ht
  obtain ⟨x, hx, hxn⟩ := Option.bind_eq_some_iff.mp hname
  obtain ⟨hu, hp⟩ := h.of_name? hx hxn
  split_ifs at ht with hbase huri
  · simp [hu] at huri
  · have hb : Node.isPathName name.base = true := by simpa using hbase
    obtain rfl : name.base = tag := by simpa using ht
    refine ⟨Text.isPathName_iff.mp hb, fun namespaces =>
      ⟨name, hname, by simp [Name.isXml, hb, hp], ?_⟩⟩
    intro u hu'
    simp [hu] at hu'

end Document.HasBareNames

/-- A document without namespaces: one element stands at the top, no name of an element has a
prefix or is in a namespace, and XML allows all bindings. -/
structure Document.IsBare (d : Document) : Prop where
  whole : d.IsWhole
  pieces : ∀ p ∈ d.pieces, p.2.isBare = true

instance (d : Document) : Decidable d.IsBare :=
  decidable_of_iff (d.IsWhole ∧ ∀ p ∈ d.pieces, p.2.isBare = true)
    ⟨fun h => ⟨h.1, h.2⟩, fun h => ⟨h.whole, h.pieces⟩⟩

namespace Document.IsBare

lemma hasBareNames (h : d.IsBare) : d.HasBareNames := h.pieces

/-- Tags are local parts alone, and tell names apart. -/
lemma hasClearTags (h : d.IsBare) : d.HasClearTags where
  whole := h.whole
  names a b x y name l hx hn hy hl := by
    obtain ⟨hu, -⟩ := h.hasBareNames.of_name? hx hn
    obtain ⟨hv, -⟩ := h.hasBareNames.of_name? hy hl
    simp [Name.expanded, hu, hv]

end Document.IsBare

/-! ### Paths below roots -/

/-- The options for paths below a root. -/
def Options.below (r : Node) (strategy : IndexStrategy) : Options :=
  { root := .node r, strategy := some strategy.name }

namespace Generator

/-- Alone they leave everything else as it is without wishes. -/
lemma settings_below (hg : g.defaults = none) (r : Node) (strategy : IndexStrategy) :
    g.settings (some (.below r strategy)) =
      ⟨true, defaultAttributes, strategy, .node r, none⟩ := by
  rw [Generator.settings, hg]
  cases strategy <;> rfl

/-- What is found is looked for from an element whose name paths can say. -/
lemma pathName?_of_resolve {path : Text} {context : Thing} (hr : r.isElement)
    (hstart : firstPresent [(g.settings o).root, context, g.document] = .node r)
    (h : g.resolve path context o = .ok (some n)) : r.pathName?.isSome := by
  rw [resolve] at h
  cases hp : normalize path with
  | nil => simp [hp] at h
  | cons c s =>
      simp only [hp, hstart, Thing.context?] at h
      obtain ⟨plan, hplan, -⟩ := bind_eq_ok.mp h
      by_contra hnone
      rw [Plan.of_eq_error (r := r) (by simp [Thing.element?, hr]) (by simpa using hnone)] at hplan
      simp at hplan

/-- Names in paths start with no slash. -/
lemma hasPlainName_of_isBare (hd : r.document.IsBare) (hr : r.isElement) :
    (Thing.node r).HasPlainName := by
  intro k tag hk ht
  obtain rfl : r = k := by simpa [Thing.element?, hr] using hk
  obtain ⟨⟨c, t, rfl, hc, -⟩, -⟩ := hd.hasBareNames.isName_of_pathName? ht
  exact ⟨c, t, rfl, Text.ne_of_isNameStart hc rfl⟩

lemma prefixes_below (hr : r.isElement) (hdefaults : g.defaults = none) :
    prefixes (g.settings (some (.below r strategy))) (.node r) = r.namespaces := by
  rw [settings_below hdefaults]
  exact prefixes_node rfl hr

section Below

variable (hd : r.document.IsBare) (hr : r.isElement) (hdefaults : g.defaults = none)
include hd hr hdefaults

/-- From a root whose name paths can say everything can be looked for. -/
lemma canStart_below :
    (g.settings (some (.below r strategy))).CanStart (.node r) ↔ r.pathName?.isSome := by
  have hself : (Thing.node r).element? = some r := by simp [Thing.element?, hr]
  rw [Settings.CanStart, prefixes_below hr hdefaults, hself,
    hd.hasBareNames.bindsXml.checkNamespaces]
  simp

/-- The path by an attribute finds the first element with the value. -/
lemma resolve_attributePath_below (ha : Text.IsName a) :
    g.resolve (attributePath a (squeeze v)) .nothing (some (.below r strategy)) = .ok (some n) ↔
      r.pathName?.isSome ∧ Text.isXmlText v ∧
        r.document.elements.find? (fun k =>
          (r.document.valuesAt k.address a).contains (squeeze v)) = some n := by
  have hstart : firstPresent [(g.settings (some (.below r strategy))).root, .nothing, g.document] =
      .node r := by
    rw [settings_below hdefaults]
    rfl
  rw [resolve_attributePath_iff hd.whole ha (squeeze_squeeze v) hstart rfl rfl
    (hasPlainName_of_isBare hd hr), canStart_below hd hr hdefaults, isXmlText_squeeze]

/-- Where paths can say all names on the way they are looked for from the root. -/
lemma looksFrom_below (strategy : IndexStrategy)
    (hnames : ∀ k ∈ Node.along r.document r.address way ++ [r], k.pathName?.isSome) :
    LooksFrom g (some (.below r strategy)) r way where
  tags := hd.hasClearTags
  element := hr
  root := by rw [settings_below hdefaults]
  named k hk := by
    have hdoc : k.document = r.document := by
      rcases List.mem_append.mp hk with hk | hk
      · exact (length_address_of_mem_along hk).1
      · rw [List.mem_singleton.mp hk]
    obtain ⟨tag, ht⟩ := Option.isSome_iff_exists.mp (hnames k hk)
    have hbare : k.document.IsBare := hdoc ▸ hd
    exact (hbare.hasBareNames.isName_of_pathName? ht).2 _
  bound := by
    rw [prefixes_below hr hdefaults]
    exact hd.hasBareNames.bindsXml.checkNamespaces
  keeps := by
    rw [prefixes_below hr hdefaults]
    exact hd.hasBareNames.bindsXml.keepsXml

end Below

/-- The root element of a document is at its top. -/
lemma root?_eq_some_iff (hd : d.IsWhole) (hr : r.isElement) (hdoc : r.document = d) :
    d.root? = some r ↔ r.address.length = 1 := by
  obtain ⟨i, hi, -, hu⟩ := hd.exists_root
  have hroot : d.root? = some ⟨d, [i]⟩ := by simp [Document.root?, Document.rootAddress?, hi]
  obtain ⟨e, a⟩ := r
  obtain rfl : e = d := hdoc
  rw [hroot, Option.some.injEq]
  constructor
  · intro h
    rw [← h]
    rfl
  · intro h
    obtain ⟨j, rfl⟩ := List.length_eq_one_iff.mp h
    rw [hu j (Document.isElement_iff.mp hr)]

/-- What is known when a path below a root is made. -/
lemma making?_below (strategy : IndexStrategy) (hr : r.isElement) (hdefaults : g.defaults = none)
    (hn : (⟨r.document, way ++ r.address⟩ : Node).isElement) :
    g.making? ⟨r.document, way ++ r.address⟩ (some (.below r strategy)) =
      some ⟨⟨r.document, way ++ r.address⟩, r, g.settings (some (.below r strategy)),
        Node.along r.document r.address way ++ [r]⟩ := by
  refine making?_eq (Document.address_ne_nil hr) rfl hn ?_
  rw [settings_below hdefaults]
  simp [rootElement?, hr]

section Made

variable (hd : r.document.IsBare) (hr : r.isElement) (hdefaults : g.defaults = none)
  (hn : (⟨r.document, way ++ r.address⟩ : Node).isElement) (hg : g.registry = .new none)
  (hm : g.making? ⟨r.document, way ++ r.address⟩ (some (.below r strategy)) = some m)
include hd hr hdefaults hn hg hm

/-- The path by an attribute finds the element if its value does. -/
lemma resolve_pathOf_of_isShortcut (ha : a ∈ "id".toList :: defaultAttributes)
    (hs : m.IsShortcut a v) :
    ∃ path, (g.pathOf (.node ⟨r.document, way ++ r.address⟩)
        (some (.below r strategy))).outcome = .ok path ∧
      (g.resolve path .nothing (some (.below r strategy)) =
          .ok (some ⟨r.document, way ++ r.address⟩) ↔
        r.pathName?.isSome ∧ Text.isXmlText v ∧
          r.document.elements.find? (fun k =>
            (r.document.valuesAt k.address a).contains (squeeze v)) =
              some ⟨r.document, way ++ r.address⟩) := by
  have hname := isName_of_mem_attributes ha
  have hpath := pathOf_shortcut hg hn hm hs
  rw [normalize_attributePath hname] at hpath
  exact ⟨_, hpath, resolve_attributePath_below hd hr hdefaults hname⟩

/-- The path that is made of steps finds the element as `LooksFrom.resolve_iff`
says. -/
lemma resolve_pathOf_of_hasNoShortcut (hs : strategy ≠ .never) (hno : m.HasNoShortcut)
    (hnames : ∀ k ∈ m.ancestors, k.pathName?.isSome) :
    ∃ path, (g.pathOf (.node ⟨r.document, way ++ r.address⟩)
        (some (.below r strategy))).outcome = .ok path ∧
      (g.resolve path .nothing (some (.below r strategy)) =
          .ok (some ⟨r.document, way ++ r.address⟩) ↔
        (r.address.length = 1 ∨ way = [] ∨ needsIndex r strategy = false) ∧
          m.endsBlank = false) := by
  have hmaking := making?_below strategy hr hdefaults hn
  obtain rfl := Option.some.inj (hm.symm.trans hmaking)
  have hlooks := looksFrom_below hd hr hdefaults strategy hnames
  have hra : r.address ≠ [] := by
    obtain ⟨j, b, hj⟩ := hlooks.exists_address
    simp [hj]
  have hroot : rootElement? (g.settings (some (.below r strategy))) (some r.document)
      ⟨r.document, way ++ r.address⟩ = some r := by
    rw [settings_below hdefaults]
    simp [rootElement?, hr]
  have hpath := pathOf_eq hg hra rfl hn hroot hm hno (hasXmlName_of_isNamed hlooks.named)
  refine ⟨_, hpath, ?_⟩
  rw [Making.endsBlank_eq, settings_below hdefaults]
  exact hlooks.resolve_iff hs (Document.isElement_iff.mp hn) .nothing

end Made

/-- **The path of an element** below any root finds the element again exactly if an
attribute makes the path and its value finds the element; or if the step of the root
has no position, unless the root is that of the document or the element itself, and
the last step ends in no blank. -/
theorem resolve_pathOf_iff (hd : r.document.IsBare) (hr : r.isElement) (hn : n.isElement)
    (hin : n = ⟨r.document, way ++ r.address⟩) (hg : g.registry = .new none)
    (hdefaults : g.defaults = none) (hs : strategy ≠ .never) :
    ∃ m, g.making? n (some (.below r strategy)) = some m ∧
      ((∃ path, (g.pathOf (.node n) (some (.below r strategy))).outcome = .ok path ∧
          g.resolve path .nothing (some (.below r strategy)) = .ok (some n)) ↔
        r.pathName?.isSome ∧
          ((∃ a ∈ "id".toList :: defaultAttributes, ∃ v, m.IsShortcut a v ∧ Text.isXmlText v ∧
              r.document.elements.find? (fun k =>
                (r.document.valuesAt k.address a).contains (squeeze v)) = some n) ∨
            m.HasNoShortcut ∧ (∀ k ∈ m.ancestors, k.pathName?.isSome) ∧
              (r.document.root? = some r ∨ n = r ∨ needsIndex r strategy = false) ∧
              m.endsBlank = false)) := by
  subst hin
  obtain ⟨m, hm⟩ : ∃ m, g.making? ⟨r.document, way ++ r.address⟩ (some (.below r strategy)) =
    some m := ⟨_, making?_below strategy hr hdefaults hn⟩
  have hmaking := hm.symm.trans (making?_below strategy hr hdefaults hn)
  have hself : (⟨r.document, way ++ r.address⟩ : Node) = r ↔ way = [] := by
    obtain ⟨d, b⟩ := r
    simp
  refine ⟨m, hm, ?_⟩
  rw [root?_eq_some_iff hd.whole hr rfl, hself]
  constructor
  · rintro ⟨path, hpath, hres⟩
    have hstart : firstPresent [(g.settings (some (.below r strategy))).root, .nothing,
        g.document] = .node r := by
      rw [settings_below hdefaults]
      rfl
    have hname := pathName?_of_resolve hr hstart hres
    refine ⟨hname, ?_⟩
    rcases shortcut_cases_of_pathOf hn hg hm hpath with ⟨a, v, hshort, ha⟩ | ⟨hno, hnames⟩
    · have hattributes : m.settings.attributes = defaultAttributes := by
        rw [Option.some.inj hmaking, settings_below hdefaults]
      rw [hattributes] at ha
      obtain ⟨path', hpath', hiff⟩ :=
        resolve_pathOf_of_isShortcut hd hr hdefaults hn hg hm ha hshort
      obtain rfl := Except.ok.inj (hpath.symm.trans hpath')
      obtain ⟨-, hx, hfind⟩ := hiff.mp hres
      exact .inl ⟨a, ha, v, hshort, hx, hfind⟩
    · have hnames : ∀ k ∈ m.ancestors, k.pathName?.isSome := by
        by_cases hsame : m.node.same m.root
        · have hway : way = [] := by
            rw [Option.some.inj hmaking] at hsame
            simpa [Node.same] using hsame
          rw [Option.some.inj hmaking, hway]
          intro k hk
          obtain rfl : k = r := by simpa [Node.along] using hk
          exact hname
        · exact hnames (by simpa using hsame)
      obtain ⟨path', hpath', hiff⟩ :=
        resolve_pathOf_of_hasNoShortcut hd hr hdefaults hn hg hm hs hno hnames
      obtain rfl := Except.ok.inj (hpath.symm.trans hpath')
      obtain ⟨hwhere, hend⟩ := hiff.mp hres
      exact .inr ⟨hno, hnames, hwhere, hend⟩
  · rintro ⟨hname, ⟨a, ha, v, hshort, hx, hfind⟩ | ⟨hno, hnames, hwhere, hend⟩⟩
    · obtain ⟨path, hpath, hiff⟩ :=
        resolve_pathOf_of_isShortcut hd hr hdefaults hn hg hm ha hshort
      exact ⟨path, hpath, hiff.mpr ⟨hname, hx, hfind⟩⟩
    · obtain ⟨path, hpath, hiff⟩ :=
        resolve_pathOf_of_hasNoShortcut hd hr hdefaults hn hg hm hs hno hnames
      exact ⟨path, hpath, hiff.mpr ⟨hwhere, hend⟩⟩

/-! A root without a twin, and one with a twin: its position leads out of it. -/

/-- The first child of the root element has no twin, and two children of one name. -/
def innerTwins : Document where
  key := 0
  content := [.element { base := ['r'] } [] []
    [.element { base := ['a'] } [] []
      [.element { base := ['b'] } [] [] [], .element { base := ['b'] } [] [] []],
      .element { base := ['c'] } [] [] []]]

/-- The first child of the root element has a twin, and a child. -/
def outerTwins : Document where
  key := 0
  content := [.element { base := ['r'] } [] []
    [.element { base := ['a'] } [] [] [.element { base := ['b'] } [] [] []],
      .element { base := ['a'] } [] [] []]]

/-- The path of the second of two children below a root without a twin finds it. -/
theorem resolve_innerTwins :
    ∃ path, (({} : Generator).pathOf (.node ⟨innerTwins, [1, 0, 0]⟩)
        (some (.below ⟨innerTwins, [0, 0]⟩ .auto))).outcome = .ok path ∧
      ({} : Generator).resolve path .nothing (some (.below ⟨innerTwins, [0, 0]⟩ .auto)) =
        .ok (some ⟨innerTwins, [1, 0, 0]⟩) := by
  have hbare : (⟨innerTwins, [0, 0]⟩ : Node).document.IsBare :=
    (by decide : innerTwins.IsBare)
  have hin : (⟨innerTwins, [1, 0, 0]⟩ : Node) = ⟨innerTwins, [1] ++ [0, 0]⟩ := rfl
  obtain ⟨m, hm, hiff⟩ := resolve_pathOf_iff (r := ⟨innerTwins, [0, 0]⟩) (g := {}) hbare rfl rfl
    hin rfl rfl (by decide : IndexStrategy.auto ≠ .never)
  obtain rfl := Option.some.inj hm
  refine hiff.mpr ⟨rfl, .inr ⟨⟨rfl, rfl⟩, ?_, .inr (.inr rfl), rfl⟩⟩
  change ∀ k ∈ [(⟨innerTwins, [1, 0, 0]⟩ : Node), ⟨innerTwins, [0, 0]⟩], k.pathName?.isSome
  intro k hk
  rcases List.mem_cons.mp hk with rfl | hk
  · rfl
  · obtain rfl := List.mem_singleton.mp hk
    rfl

/-- The path of the child of a root with a twin finds nothing: the position of the root
leads out of it. -/
theorem resolve_outerTwins :
    outerTwins.IsBare ∧
      (({} : Generator).pathOf (.node ⟨outerTwins, [0, 0, 0]⟩)
        (some (.below ⟨outerTwins, [0, 0]⟩ .auto))).outcome =
          .ok ['/', 'a', '[', '1', ']', '/', 'b'] ∧
      ({} : Generator).resolve ['/', 'a', '[', '1', ']', '/', 'b'] .nothing
        (some (.below ⟨outerTwins, [0, 0]⟩ .auto)) = .ok none :=
  ⟨by decide, rfl, rfl⟩

end Generator

end Locator
