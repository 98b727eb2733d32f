/-
Elements that are looked up by an attribute

* `Node.has`, `Node.isAsked`: what a lookup asks of an element: to have the attribute, where it
  gives an empty value, and else to carry the value that its escapes give;
* `Lookup.query_presence`, `Lookup.query_value`: what the queries of a lookup find;
* `Lookup.pathsByAttribute`: the paths of the elements that are found, and
  `Lookup.pathsByAttribute_eq`: **the lookup**. It is exact for a value that is not empty, in
  which no line breaks and no backslash stands in front of a hexadecimal digit.
-/
import Locator.Lookup
import Locator.Proofs.Css.Chosen
import Locator.Proofs.Generator.Making
import Locator.Proofs.Uniqueness.Exact

namespace Locator

open Text XPath

variable {d : Document} {name value : Text} {g : Generator} {o : Option Options} {m : Node}

/-! ### What is asked of an element -/

/-- Has an element an attribute? -/
def Node.has (name : Text) (m : Node) : Bool :=
  match m.lookUp name with
  | .ok (some _) => true
  | _ => false

/-- What a lookup by a value asks of an element: with an empty value to have the attribute, and
else to carry the value that is left of it in the query. -/
def Node.isAsked (name value : Text) (m : Node) : Bool :=
  if value.isEmpty then m.has name else m.carries name (Css.unescape (Css.escape value))

/-- Where the value at its address is looked up, an element has the attribute. -/
lemma Node.has_eq (hl : m.lookUp name = .ok (m.document.valuesAt m.address name).head?) :
    m.has name = !(m.document.valuesAt m.address name).isEmpty := by
  rw [has, hl]
  cases m.document.valuesAt m.address name <;> rfl

namespace Css

/-- The condition that asks for an attribute means that there is one. -/
lemma holds_namedExpr {env : Env} {f : Frame} {a : Address} (hn : IsIdent name)
    (ht : ∀ t ∈ env.document.attributesAt a, t.hasPrefixWhereNamespace) (hf : f.place = .node a) :
    Holds env f (namedExpr name) (!(env.document.valuesAt a name).isEmpty) := by
  obtain ⟨ps, hps, hm⟩ := eval_namedExpr hn ht hf
  have hempty : (env.document.valuesAt a name).isEmpty = ps.isEmpty := by
    rw [← hm]
    cases ps <;> rfl
  rw [hempty]
  exact holds_of_isNumber hps rfl

end Css

namespace Lookup

/-! ### What is found -/

/-- The names of elements of a document are looked up in them. -/
lemma lookUp_of_mem_elements (hw : d.IsWhole) (hn : Css.isPlainIdent name = true)
    (hm : m ∈ d.elements) :
    m.document = d ∧ m.lookUp name = .ok (m.document.valuesAt m.address name).head? := by
  obtain ⟨hdoc, hel⟩ := (Document.mem_elements hw).mp hm
  refine ⟨hdoc, Node.lookUp_of_split (Css.isXmlText_ident hn)
    (splitExpanded_of_isIdent (Css.isIdent_of_isPlainIdent hn)) ?_⟩
  exact Document.isElement_iff.mpr (hdoc ▸ hel)

/-- A query in a document is one below its root, and what is inside are its elements. -/
lemma exists_query_eq (hw : d.IsWhole) : ∃ r : Node, r.document = d ∧ r.isElement ∧
    r.elements = d.elements ∧ ∀ s, query (.document d) s = querySelector r s := by
  obtain ⟨i, hr, he, -⟩ := hw.exists_root
  have hroot : d.root? = some ⟨d, [i]⟩ := by simp [Document.root?, Document.rootAddress?, hr]
  refine ⟨⟨d, [i]⟩, rfl, Document.isElement_iff.mpr he, ?_, fun s => by rw [query, hroot]⟩
  exact (Context.elements_eq (c := .document d) hroot).symm

/-- The query for an attribute finds the elements that have it. -/
lemma query_presence (hd : d.IsRegular) (hp : d.HasPrefixes) (hn : Css.isPlainIdent name = true) :
    query (.document d) ('[' :: name ++ [']']) = .ok (d.elements.filter (Node.has name)) := by
  obtain ⟨r, rfl, hr, hels, hq⟩ := exists_query_eq hd.whole
  have hident := Css.isIdent_of_isPlainIdent hn
  have hx : isXmlText (Css.Query.attributeName .unsaid name) := by
    rw [Css.isXmlText_attributeName, Css.isXmlText_ident hn]
  have heval := Css.evaluateElements_where hd.whole hr hx
    ((Css.reads_attributeName hident).lift le_rfl (Nat.zero_le _))
    fun b k size => Css.holds_namedExpr hident (hp.attributesAt b) rfl
  rw [hq, querySelector, Css.queryPath_presence hident]
  simp only [Except.mapError, ok_bind, heval]
  rw [hels]
  refine congrArg _ (List.filter_congr fun m hm => ?_)
  obtain ⟨hdoc, hl⟩ := lookUp_of_mem_elements hd.whole hn hm
  rw [Node.has_eq hl, hdoc]

/-- The query for a value finds the elements that carry what its escapes give, if that is an
XML text. -/
lemma query_value (hd : d.IsRegular) (hp : d.HasPrefixes) (hn : Css.isPlainIdent name = true)
    (hv : ∀ c ∈ value, Css.isBreak c = false) :
    query (.document d) (Css.attributeTest name value) =
      if isXmlText (Css.unescape (Css.escape value)) then
        .ok (d.elements.filter (Node.carries name (Css.unescape (Css.escape value))))
      else .error .forbiddenText := by
  obtain ⟨r, rfl, hr, hels, hq⟩ := exists_query_eq hd.whole
  have hident := Css.isIdent_of_isPlainIdent hn
  set v := Css.unescape (Css.escape value) with hvdef
  have htext : isXmlText (Css.hasValueCondition name v) = isXmlText v := by
    rw [Css.isXmlText_hasValueCondition, Css.isXmlText_ident hn, Bool.true_and]
  rw [hq, querySelector, Css.queryPath_attributeTest ⟨hident, hv⟩, ← hvdef]
  simp only [Except.mapError, ok_bind]
  split_ifs with hx
  · have heval := Css.evaluateElements_where hd.whole hr (by rwa [htext])
      (Css.reads_hasValueCondition hident v)
      fun b k size => Css.holds_hasValue hident (hp.attributesAt b) rfl
    rw [heval, hels]
    refine congrArg _ (List.filter_congr fun m hm => ?_)
    obtain ⟨hdoc, hl⟩ := lookUp_of_mem_elements hd.whole hn hm
    rw [Node.carries_iff (hdoc ▸ hd) hl, hdoc]
  · have hforbidden : ∀ s t : Text, isXmlText (s ++ Css.hasValueCondition name v ++ t) = false := by
      intro s t
      rw [isXmlText_append, isXmlText_append, htext, Bool.eq_false_iff.mpr hx]
      simp
    rw [evaluateElements, evaluate_forbidden ⟨rfl, rfl⟩ (hforbidden _ _)]
    rfl

/-- No selector is made of a value in which a line breaks. -/
lemma query_break (hw : d.IsWhole) (hn : Css.isPlainIdent name = true)
    (hv : ¬ ∀ c ∈ value, Css.isBreak c = false) :
    ∃ e, query (.document d) (Css.attributeTest name value) = .error (.selector e) := by
  obtain ⟨r, rfl, -, -, hq⟩ := exists_query_eq hw
  obtain ⟨e, he⟩ := Css.readAll_of_break (Css.isIdent_of_isPlainIdent hn) hv
  have hpath : Css.queryPath (Css.attributeTest name value) = .error e := by
    rw [Css.queryPath, he]
    rfl
  exact ⟨e, by rw [hq, querySelector, hpath]; rfl⟩

/-- What a query has found; nothing where what is asked is no selector. -/
def foundBy (found : Outcome (List Node)) : Outcome (Option (List Node)) :=
  match found with
  | .ok ns => .ok (some ns)
  | .error e => if e.isSelector then .ok none else .error e

lemma byAttribute_nil (d : Document) (name : Text) : byAttribute (.document d) name (some []) =
    foundBy (query (.document d) ('[' :: name ++ [']'])) := rfl

lemma byAttribute_cons (d : Document) (name : Text) (c : Char) (r : Text) :
    byAttribute (.document d) name (some (c :: r)) =
      foundBy (query (.document d) (Css.attributeTest name (c :: r))) := rfl

/-- What a lookup finds by an attribute and a value. -/
lemma byAttribute_eq (hd : d.IsRegular) (hp : d.HasPrefixes) (hn : Css.isPlainIdent name = true)
    (value : Text) : byAttribute (.document d) name (some value) =
      if ∀ c ∈ value, Css.isBreak c = false then
        if isXmlText (Css.unescape (Css.escape value)) then
          .ok (some (d.elements.filter (Node.isAsked name value)))
        else .error .forbiddenText
      else .ok none := by
  cases value with
  | nil =>
      have hplain : isXmlText (Css.unescape (Css.escape [])) = true := rfl
      rw [if_pos (by simp), if_pos hplain, byAttribute_nil, query_presence hd hp hn]
      rfl
  | cons c r =>
      rw [byAttribute_cons]
      split_ifs with hbreak hx
      · rw [query_value hd hp hn hbreak, if_pos hx]
        rfl
      · rw [query_value hd hp hn hbreak, if_neg hx]
        rfl
      · obtain ⟨e, he⟩ := query_break hd.whole hn hbreak
        rw [he]
        rfl

/-! ### The paths of what is found -/

/-- The paths of the elements with an attribute; nothing if none is found. -/
def pathsByAttribute (g : Generator) (o : Option Options) (d : Document) (name : Text)
    (value : Option Text) (all : Bool) : Traced (Option Paths) := do
  match ← Traced.lift (byAttribute (.document d) name value) with
  | none => return none
  | some ns => pathsFor g o all ns

/-- The paths of elements, each as it is made for the element alone; nothing for no element. -/
def pathOfEach (g : Generator) (o : Option Options) (ns : List Node) : Outcome (Option Paths) :=
  if ns.isEmpty then .ok none
  else do return some (.all (← ns.mapM fun n => (g.pathOf (.node n) o).outcome))

/-- Paths are made one after the other. -/
lemma outcome_pathsOf (ns : List Node) :
    (pathsOf g o ns).outcome = ns.mapM fun n => (g.pathOf (.node n) o).outcome := by
  induction ns with
  | nil => rfl
  | cons n ns ih => simp only [pathsOf, Traced.outcome_bind, ih, List.mapM_cons]; rfl

lemma outcome_pathsFor (ns : List Node) :
    (pathsFor g o true ns).outcome = pathOfEach g o ns := by
  cases ns with
  | nil => rfl
  | cons n ns =>
      rw [pathsFor, if_pos rfl, Traced.outcome_bind, outcome_pathsOf]
      rfl

/-- There is nothing only where there is no element. -/
lemma pathOfEach_eq_none_iff {ns : List Node} : pathOfEach g o ns = .ok none ↔ ns = [] := by
  rw [pathOfEach]
  constructor
  · intro h
    split_ifs at h with hns
    · exact List.isEmpty_iff.mp hns
    · obtain ⟨ps, -, hps⟩ := bind_eq_ok.mp h
      simp at hps
  · rintro rfl
    rfl

/-- **The lookup by an attribute.** No element is found by a value in which a line breaks, and a
value with characters that XML forbids is refused. Else the paths are those of the elements, in
the order of the document, that carry the value that the escapes of the query give; but by an
empty value the elements that have the attribute are found, whatever they carry. So the lookup
is exact for a value that is not empty, that XML allows, in which no line breaks and no backslash
stands in front of a hexadecimal digit. -/
theorem pathsByAttribute_eq (hd : d.IsRegular) (hp : d.HasPrefixes)
    (hn : Css.isPlainIdent name = true) (g : Generator) (o : Option Options) (value : Text) :
    (pathsByAttribute g o d name (some value) true).outcome =
        (if ∀ c ∈ value, Css.isBreak c = false then
          if isXmlText (Css.unescape (Css.escape value)) then
            pathOfEach g o (d.elements.filter (Node.isAsked name value))
          else .error .forbiddenText
        else .ok none) ∧
      (value ≠ [] → isXmlText value → (∀ c ∈ value, Css.isBreak c = false) → Css.IsClear value →
        (pathsByAttribute g o d name (some value) true).outcome =
            pathOfEach g o (d.elements.filter (Node.carries name value)) ∧
          ((pathsByAttribute g o d name (some value) true).outcome = .ok none ↔
            ∀ m ∈ d.elements, m.carries name value = false)) := by
  have hpaths : (pathsByAttribute g o d name (some value) true).outcome =
      if ∀ c ∈ value, Css.isBreak c = false then
        if isXmlText (Css.unescape (Css.escape value)) then
          pathOfEach g o (d.elements.filter (Node.isAsked name value))
        else .error .forbiddenText
      else .ok none := by
    rw [pathsByAttribute, Traced.outcome_bind, Traced.outcome_lift, byAttribute_eq hd hp hn]
    split_ifs
    · exact outcome_pathsFor _
    · rfl
    · rfl
  refine ⟨hpaths, fun hne hx hv hclear => ?_⟩
  have hasked : Node.isAsked name value = Node.carries name value := by
    funext m
    rw [Node.isAsked, if_neg (by simpa using hne), Css.unescape_escape hclear]
  rw [if_pos hv, Css.unescape_escape hclear, if_pos hx, hasked] at hpaths
  refine ⟨hpaths, ?_⟩
  rw [hpaths, pathOfEach_eq_none_iff, List.filter_eq_nil_iff]
  simp only [Bool.not_eq_true]

/-- The element with both quotation marks and a backslash is found. -/
theorem pathsByAttribute_quotedId :
    (quotedId.IsRegular ∧ quotedId.HasPrefixes ∧ Css.isPlainIdent "id".toList = true) ∧
      (pathsByAttribute {} none quotedId "id".toList (some "it's \\\"z".toList) true).outcome =
        pathOfEach {} none [⟨quotedId, [0, 0]⟩] := by
  have hd : quotedId.IsRegular := by decide
  have hp : quotedId.HasPrefixes := by decide
  have hn : Css.isPlainIdent "id".toList = true := by decide
  have h := (pathsByAttribute_eq hd hp hn {} none "it's \\\"z".toList).2 (by decide) (by decide)
    (by decide) (by decide)
  exact ⟨⟨hd, hp, hn⟩, h.1⟩

/-- Two elements with one attribute, which is empty in the first of them. -/
def emptyKey : Document :=
  { key := 0
    content := [.element { base := ['r'] } [] []
      [.element { base := ['a'] } [] [⟨{ base := ['k'] }, []⟩] [],
        .element { base := ['a'] } [] [⟨{ base := ['k'] }, ['v']⟩] []]] }

/-- By an empty value both elements are found, though one alone carries it. -/
theorem pathsByAttribute_emptyKey :
    emptyKey.elements.filter (Node.carries ['k'] []) = [⟨emptyKey, [0, 0]⟩] ∧
      (pathsByAttribute {} none emptyKey ['k'] (some []) true).outcome =
        .ok (some (.all ["/r/a[1]".toList, "/r/a[2]".toList])) :=
  ⟨rfl, rfl⟩

end Lookup

end Locator
