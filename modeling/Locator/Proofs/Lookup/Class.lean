/-
Elements that are looked up by a class

* `Node.classes`, `Node.hasClass`: the classes of an element, between separators of a kind, and
  `Node.hasClass_iff`: a class stands in the value of the attribute between two of them;
* `Css.chosen_ofClass`, `Lookup.query_class`: the selector that asks for a class chooses the
  elements that have it between the blanks of XML;
* `Lookup.byClass_eq`: the lookup by a class finds those that have it between blanks of any kind;
* `Lookup.pathsByClass_eq`: **the two lookups**, and when they find the same elements. A no-break
  space parts the classes of an element for the one and not for the other.
-/
import Locator.Proofs.Convert.Compound
import Locator.Proofs.Css.Canonical
import Locator.Proofs.Css.Query
import Locator.Proofs.Text.Words
import Locator.Proofs.Uniqueness.Lookup

namespace Locator

open Text XPath

variable {d : Document} {c : Text} {g : Generator} {o : Option Options} {m : Node}

/-! ### The classes of an element -/

/-- The value of the class attribute; empty if there is none. -/
def Node.classes (m : Node) : Text := Lookup.plainAttribute m "class".toList

/-- Has an element a class, where the characters in `p` part the classes of an element? -/
def Node.hasClass (p : Char → Bool) (c : Text) (m : Node) : Bool := (pieces p m.classes).contains c

/-- A class of an element is a piece without separators, between two of them or at an end. -/
lemma Node.hasClass_iff {p : Char → Bool} (hc : ∀ b ∈ c, p b = false) :
    m.hasClass p c ↔ StandsIn p c m.classes := by
  rw [hasClass, List.contains_iff_mem, mem_pieces_iff]
  exact and_iff_right hc

/-- The pieces that are not empty hold a class exactly where all pieces do. -/
lemma contains_filter_pieces (hc : c ≠ []) (p : Char → Bool) (v : Text) :
    ((pieces p v).filter fun w => !w.isEmpty).contains c = (pieces p v).contains c := by
  rw [Bool.eq_iff_iff, List.contains_iff_mem, List.contains_iff_mem, List.mem_filter]
  exact and_iff_left (by simpa using hc)

/-- A name that does not start with a brace is that of an attribute without a namespace. -/
lemma Attribute.expanded_eq_iff {name : Text} (hname : name.head? ≠ some '\x7b') (t : Attribute) :
    (t.name.expanded == name) = t.isPlain name := by
  rw [Attribute.isPlain, Name.expanded, Bool.eq_iff_iff]
  cases t.name.uri with
  | none => simp
  | some u =>
      simp only [beq_iff_eq, Bool.and_eq_true, reduceCtorEq, false_and, iff_false]
      rintro rfl
      exact hname rfl

/-- The value of an attribute without a namespace is the one at the address of the element. -/
lemma Node.plainAttribute_eq {name : Text} (hname : name.head? ≠ some '\x7b') (m : Node) :
    Lookup.plainAttribute m name = m.document.valueAt m.address name := by
  have hplain : (fun t : Attribute => t.name.expanded == name) = Attribute.isPlain name :=
    funext (Attribute.expanded_eq_iff hname)
  rw [Lookup.plainAttribute, attribute?, hplain, Document.valueAt, Document.valuesAt,
    List.head?_map, List.head?_filter]
  rfl

namespace Css

/-- An identifier holds no blank. -/
lemma isBlank_of_mem_ident (h : isPlainIdent c = true) : ∀ b ∈ c, isBlank b = false := fun b hb =>
  isBlank_of_isPlainIdentChar (all_of_isPlainIdent h b hb)

/-! ### The selector of a class -/

/-- The selector that asks for one class. -/
def ofClass (c : Text) : List Group := [⟨⟨['*'], [.classToken c]⟩, []⟩]

/-- It is printed as the class behind a point. -/
lemma canonical_ofClass (c : Text) : canonical (ofClass c) = '.' :: c := by
  have htests : [Test.classToken c].flatMap Test.toCss = '.' :: c := List.append_nil _
  have hcompound : (Compound.mk ['*'] [.classToken c]).toCss = '.' :: c :=
    (Compound.toCss_of_star rfl).trans htests
  have hgroup : (Group.mk ⟨['*'], [.classToken c]⟩ []).chain.toCss = '.' :: c :=
    (List.append_nil _).trans hcompound
  rw [canonical, ofClass, List.map_singleton, hgroup, join_singleton]

/-- The class behind a point is a text of it. -/
lemma isSelector_ofClass (h : isPlainIdent c = true) : IsSelector (ofClass c) ('.' :: c) := by
  rw [← canonical_ofClass]
  refine isSelector_canonical (List.cons_ne_nil _ _) ?_
  simp [ofClass, Group.compounds, Compound.isPlain, Test.isPlain, Test.counts, h]

/-- Such a query can be read. -/
lemma isAskable_ofClass (c : Text) : IsAskable (ofClass c) := by
  have hfew : 1 ≤ maxTests := by decide
  constructor
  · simp [ofClass, Group.compounds, Test.Fits]
  · simpa [ofClass, Group.compounds] using hfew

/-- It chooses the elements of the class, between blanks of XML. -/
lemma chosen_ofClass (hd : d.IsWhole) (hc : c ≠ []) :
    d.chosen (ofClass c) = d.elements.filter (Node.hasClass isSpace c) := by
  rw [Document.chosen]
  refine List.filter_congr fun m hm => ?_
  obtain ⟨hdoc, hel⟩ := (Document.mem_elements hd).mp hm
  have hpass : passesAt d (.any none) none m.address = true := by
    obtain ⟨k, hk, hke⟩ := Document.isElementAt_iff.mp hel
    exact passesAt_iff.mpr ⟨k, hk, hke⟩
  have hvalue : m.classes = d.valueAt m.address "class".toList := by
    rw [Node.classes, Node.plainAttribute_eq (by decide), hdoc]
  have hmatch : (Compound.mk ['*'] [.classToken c]).matchesAt d m.address =
      (spaceWords (d.valueAt m.address "class".toList)).contains c := by
    rw [Compound.matchesAt, Compound.nodeTest, if_pos rfl, hpass, Bool.true_and]
    simp [Compound.holds, Test.holds]
  rw [Node.hasClass, ← contains_filter_pieces hc, ← spaceWords, hvalue, ← hmatch]
  simp [ofClass, Group.chosen]

end Css

namespace Lookup

/-! ### What is found -/

/-- An identifier is one word. -/
lemma words_ident (hc : Css.isPlainIdent c = true) : words c = [c] := by
  rw [words, pieces_of_forall (Css.isBlank_of_mem_ident hc)]
  simp [(Css.isIdent_of_isPlainIdent hc).ne_nil]

/-- The lookup by a class parts the classes of an element at blanks of any kind. -/
lemma byClass_eq (hc : Css.isPlainIdent c = true) (d : Document) :
    byClass (.document d) c = d.elements.filter (Node.hasClass isBlank c) := by
  rw [byClass, words_ident hc]
  refine List.filter_congr fun m _ => ?_
  rw [List.all_cons, List.all_nil, Bool.and_true]
  exact contains_filter_pieces (Css.isIdent_of_isPlainIdent hc).ne_nil isBlank m.classes

/-- The query for a class parts them at the blanks of XML. -/
lemma query_class (hd : d.root? = none ∨ d.IsWhole) (hc : Css.isPlainIdent c = true) :
    query (.document d) ('.' :: c) = .ok (d.elements.filter (Node.hasClass isSpace c)) := by
  have hne := (Css.isIdent_of_isPlainIdent hc).ne_nil
  rcases hd with hnone | hw
  · rw [query, hnone, Document.elements, hnone]
    rfl
  · rw [Css.query_eq (Css.isSelector_ofClass hc) (Css.isAskable_ofClass c) hw,
      Css.chosen_ofClass hw hne]

/-- What is found between the blanks of XML is found between blanks of any kind. -/
lemma hasClass_isBlank (hc : Css.isPlainIdent c = true) (h : m.hasClass isSpace c = true) :
    m.hasClass isBlank c = true := by
  have hblank := Css.isBlank_of_mem_ident hc
  have hspace : ∀ b ∈ c, isSpace b = false := fun b hb =>
    Bool.eq_false_iff.mpr fun hs => by simpa [hblank b hb] using isBlank_of_isSpace hs
  rw [Node.hasClass_iff hspace] at h
  exact (Node.hasClass_iff hblank).mpr (h.mono fun _ => isBlank_of_isSpace)

/-! ### The paths of what is found -/

/-- The paths of the elements with a class; nothing if none is found. -/
def pathsByClass (g : Generator) (o : Option Options) (d : Document) (c : Text) (all : Bool) :
    Traced (Option Paths) :=
  pathsFor g o all (byClass (.document d) c)

/-- The paths of the elements that a selector matches; nothing if none is found. -/
def pathsBySelector (g : Generator) (o : Option Options) (d : Document) (s : Text) (all : Bool) :
    Traced (Option Paths) := do
  pathsFor g o all (← Traced.lift (query (.document d) s))

/-- The paths of what the query for a class finds. -/
lemma outcome_pathsBySelector (hd : d.root? = none ∨ d.IsWhole) (hc : Css.isPlainIdent c = true) :
    (pathsBySelector g o d ('.' :: c) true).outcome =
      pathOfEach g o (d.elements.filter (Node.hasClass isSpace c)) := by
  rw [pathsBySelector, Traced.outcome_bind, Traced.outcome_lift, query_class hd hc]
  exact outcome_pathsFor _

/-- **The lookup by a class and the query for it.** The lookup by a class parts the classes of an
element at blanks of any kind and the query for it at the blanks of XML; the paths are those of
the elements that are found, in the order of the document. The query finds no more than the
lookup, and both find the same exactly where no element has the class between other blanks
only. So they agree on every document in whose classes there are no blanks but those of XML. -/
theorem pathsByClass_eq (hd : d.root? = none ∨ d.IsWhole) (hc : Css.isPlainIdent c = true)
    (g : Generator) (o : Option Options) :
    (pathsByClass g o d c true).outcome =
        pathOfEach g o (d.elements.filter (Node.hasClass isBlank c)) ∧
      (pathsBySelector g o d ('.' :: c) true).outcome =
        pathOfEach g o (d.elements.filter (Node.hasClass isSpace c)) ∧
      (d.elements.filter (Node.hasClass isSpace c)).Sublist
        (d.elements.filter (Node.hasClass isBlank c)) ∧
      (query (.document d) ('.' :: c) = .ok (byClass (.document d) c) ↔
        ∀ m ∈ d.elements, m.hasClass isBlank c → m.hasClass isSpace c) ∧
      ((∀ m ∈ d.elements, ∀ b ∈ m.classes, isBlank b → isSpace b) →
        (pathsByClass g o d c true).outcome = (pathsBySelector g o d ('.' :: c) true).outcome) := by
  have hquery := query_class hd hc
  have hclass : (pathsByClass g o d c true).outcome =
      pathOfEach g o (d.elements.filter (Node.hasClass isBlank c)) := by
    rw [pathsByClass, byClass_eq hc, outcome_pathsFor]
  have hselector := outcome_pathsBySelector (g := g) (o := o) hd hc
  refine ⟨hclass, hselector, ?_, ?_, fun hvalues => ?_⟩
  · exact List.monotone_filter_right _ fun m => hasClass_isBlank hc
  · rw [hquery, byClass_eq hc, Except.ok.injEq]
    constructor
    · intro heq m hm hblank
      have hmem := heq ▸ List.mem_filter.mpr ⟨hm, hblank⟩
      exact (List.mem_filter.mp hmem).2
    · intro h
      exact List.filter_congr fun m hm => Bool.eq_iff_iff.mpr ⟨hasClass_isBlank hc, h m hm⟩
  · rw [hclass, hselector]
    refine congrArg _ (List.filter_congr fun m hm => ?_)
    have hparts : ∀ b ∈ m.classes, isBlank b = isSpace b := fun b hb =>
      Bool.eq_iff_iff.mpr ⟨hvalues m hm b hb, isBlank_of_isSpace⟩
    rw [Node.hasClass, Node.hasClass, pieces_congr hparts]

/-- An element whose classes are parted by the blanks of XML, and one inside it. -/
def spacedClasses : Document :=
  { key := 0
    content := [.element { base := ['r'] } [] [⟨{ base := "class".toList }, "a\tb".toList⟩]
      [.element { base := ['a'] } [] [⟨{ base := "class".toList }, " b c\n".toList⟩] []]] }

/-- Both elements are found, by the class and by the selector. -/
theorem pathsByClass_spacedClasses :
    (spacedClasses.IsWhole ∧ Css.isPlainIdent ['b'] = true ∧
        ∀ m ∈ spacedClasses.elements, ∀ b ∈ m.classes, isBlank b → isSpace b) ∧
      (pathsByClass {} none spacedClasses ['b'] true).outcome =
        pathOfEach {} none [⟨spacedClasses, [0]⟩, ⟨spacedClasses, [0, 0]⟩] ∧
      (pathsByClass {} none spacedClasses ['b'] true).outcome =
        (pathsBySelector {} none spacedClasses ".b".toList true).outcome := by
  have hd : spacedClasses.IsWhole := by decide
  have hc : Css.isPlainIdent ['b'] = true := by decide
  have hvalues : ∀ m ∈ spacedClasses.elements, ∀ b ∈ m.classes, isBlank b → isSpace b := by
    decide
  have h := pathsByClass_eq (.inr hd) hc {} none
  exact ⟨⟨hd, hc, hvalues⟩, h.1, h.2.2.2.2 hvalues⟩

/-- An element whose classes are parted by a no-break space. -/
def gluedClasses : Document :=
  { key := 0
    content := [.element { base := ['r'] } []
      [⟨{ base := "class".toList }, "a\u00a0b".toList⟩] []] }

/-- The lookup by the class finds the element, and the query for it finds none. -/
theorem pathsByClass_gluedClasses :
    (gluedClasses.IsWhole ∧ Css.isPlainIdent ['b'] = true) ∧
      (pathsByClass {} none gluedClasses ['b'] true).outcome =
        .ok (some (.all ["//*[@class=\"a\u00a0b\"]".toList])) ∧
      (pathsBySelector {} none gluedClasses ".b".toList true).outcome = .ok none := by
  have hd : gluedClasses.IsWhole := by decide
  have hc : Css.isPlainIdent ['b'] = true := by decide
  exact ⟨⟨hd, hc⟩, rfl, outcome_pathsBySelector (.inr hd) hc⟩

end Lookup

end Locator
