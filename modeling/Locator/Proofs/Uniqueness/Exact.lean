/-
Exactness of the uniqueness of attributes

* `Node.carries`: an element has an attribute with a value, and `Node.carries_iff`:
  the value is then among those at its address;
* `isAttributeUnique_eq`: **an attribute is unique** exactly where one element inside
  carries its value; the count along the tree and the query agree on that. A backslash
  in front of a hexadecimal digit does not survive the query.
-/
import Locator.Proofs.Uniqueness.Count
import Locator.Proofs.Uniqueness.Query

namespace Locator

variable {n root : Node} {c : Context} {name v : Text}

/-! ### Elements that carry a value -/

/-- Has an element an attribute with a value? -/
def Node.carries (name v : Text) (m : Node) : Bool :=
  match m.lookUp name with
  | .ok (some w) => w == v
  | _ => false

/-- What is looked up with an answer has a name that can be looked up. -/
lemma Node.of_lookUp (h : n.lookUp name = .ok (some v)) :
    Text.isXmlText name ∧ ∃ key, splitExpanded name = .ok key := by
  rw [lookUp] at h
  cases hn : n.isElement
  · simp [hn] at h
  · cases hx : Text.isXmlText name
    · simp [hn, hx, bind, Except.bind, throw, throwThe, MonadExceptOf.throw] at h
    · obtain ⟨key, hs, -⟩ := bind_eq_ok.mp (by simpa [hn, hx] using h)
      exact ⟨rfl, key, hs⟩

/-- A name that can be split can be looked up everywhere. -/
lemma Node.exists_lookUp_of_split {key : Option Text × Text} (hx : Text.isXmlText name)
    (hs : splitExpanded name = .ok key) (m : Node) : ∃ o, m.lookUp name = .ok o := by
  obtain ⟨uri, base⟩ := key
  rw [lookUp]
  cases hm : m.isElement <;> simp [hx, hs]

/-- A name that one element answers to is a name for all of them. -/
lemma Node.exists_lookUp (h : n.lookUp name = .ok (some v)) (m : Node) :
    ∃ o, m.lookUp name = .ok o :=
  let ⟨hx, _, hs⟩ := of_lookUp h
  exists_lookUp_of_split hx hs m

/-- Whether an element has a value can be told where its attribute can be looked up. -/
lemma hasValue_of_lookUp {m : Node} (h : ∃ o, m.lookUp name = .ok o) :
    hasValue name (some v) m = .ok (m.carries name v) := by
  obtain ⟨o, ho⟩ := h
  rw [hasValue, Node.carries, ho]
  cases o <;> simp

/-- Whether an element has a value can be told. -/
lemma hasValue_eq (h : n.lookUp name = .ok (some v)) (m : Node) :
    hasValue name (some v) m = .ok (m.carries name v) :=
  hasValue_of_lookUp (Node.exists_lookUp h m)

/-- A name of selectors is looked up as an attribute without a namespace. -/
lemma splitExpanded_of_isIdent (h : Css.IsIdent name) : splitExpanded name = .ok (none, name) := by
  obtain ⟨c, r, rfl⟩ := List.exists_cons_of_ne_nil h.ne_nil
  have hbrace : Css.isNameChar '\x7b' = false := rfl
  refine splitExpanded_of_head ?_ r
  rintro rfl
  simpa [hbrace] using h.chars '\x7b' (by simp)

/-- Where the value at its address is looked up, an element carries it. -/
lemma Node.carries_iff {m : Node} (hd : m.document.IsRegular)
    (hl : m.lookUp name = .ok (m.document.valuesAt m.address name).head?) :
    m.carries name v = (m.document.valuesAt m.address name).contains v := by
  have hmem := hd.mem_valuesAt_iff_of_lookUp (v := v) hl
  rw [Bool.eq_iff_iff, List.contains_iff_mem, hmem, carries, hl]
  cases (m.document.valuesAt m.address name).head? <;> simp

/-! ### The decision -/

lemma Context.elements_eq (h : c.element? = some root) : c.elements = root.elements := by
  cases c with
  | document d =>
      have hroot : d.root? = some root := h
      simp [Context.elements, Document.elements, hroot]
  | node m =>
      simp only [element?] at h
      split_ifs at h
      obtain rfl := Option.some.inj h
      rfl

/-- The element of a context is one of its document. -/
lemma Context.isElement_of_element? (h : c.element? = some root) :
    root.document = c.source ∧ root.isElement := by
  cases c with
  | node m =>
      simp only [element?] at h
      split_ifs at h with hm
      obtain rfl := Option.some.inj h
      exact ⟨rfl, hm⟩
  | document d =>
      obtain ⟨a, ha, rfl⟩ := Option.map_eq_some_iff.mp (h : d.root? = some root)
      obtain ⟨i, hi, rfl⟩ := Option.map_eq_some_iff.mp ha
      obtain ⟨hlt, hel, -⟩ := List.findIdx?_eq_some_iff_getElem.mp hi
      have hget : d.get? [i] = some d.content[i] := List.getElem?_eq_getElem hlt
      exact ⟨rfl, Document.isElement_iff.mpr (Document.isElementAt_iff.mpr ⟨_, hget, hel⟩)⟩

/-- What a query for a readable value counts. -/
lemma queryAttribute_of_isReadable (hd : root.document.IsRegular) (hp : root.document.HasPrefixes)
    (hr : root.isElement) (hv : n.lookUp name = .ok (some v)) (h : Css.IsReadable name v)
    (hx : Text.isXmlText (Css.unescape (Css.escape v))) :
    queryAttribute root name v =
      .ok (root.elements.countP (Node.carries name (Css.unescape (Css.escape v)))) := by
  have hname := (Node.of_lookUp hv).1
  rw [queryAttribute_eq hd.whole hp hr hname h hx]
  refine congrArg _ (List.countP_congr fun m hm => ?_)
  rw [Node.elements_eq_filter hd.whole hr, List.mem_filter, Document.mem_elements hd.whole] at hm
  obtain ⟨⟨hdoc, hel⟩, -⟩ := hm
  have hlook := Node.lookUp_of_split hname (splitExpanded_of_isIdent h.1)
    (Document.isElement_iff.mpr (hdoc ▸ hel))
  rw [← hdoc, Node.carries_iff (hdoc ▸ hd) hlook]

/-- **An attribute is unique** exactly where one element inside carries its value: a
query that is none is replaced by the count along the tree, and one that can be read
agrees with it, if no backslash in the value stands in front of a hexadecimal digit. -/
theorem isAttributeUnique_eq (hd : c.source.IsRegular) (hp : c.source.HasPrefixes)
    (hc : c.element? = some root) (hn : Css.IsAttributeName name)
    (hv : n.lookUp name = .ok (some v))
    (hx : Css.IsReadable name v → Css.IsClear v ∧ Text.isXmlText v) :
    isAttributeUnique n name c.element? =
        .ok (decide (c.elements.countP (Node.carries name v) = 1)) ∧
      (∀ limit, countAttribute c.element? name (some v) limit =
        .ok (limited limit (c.elements.countP (Node.carries name v)))) ∧
      ∀ k, queryAttribute root name v = .ok k → k = c.elements.countP (Node.carries name v) := by
  obtain ⟨hdoc, hr⟩ := Context.isElement_of_element? hc
  rw [hc, Context.elements_eq hc]
  rw [← hdoc] at hd hp
  set total := root.elements.countP (Node.carries name v) with htotal
  have hcount : ∀ limit, countAttribute (some root) name (some v) limit =
      .ok (limited limit total) :=
    countAttribute_eq hr fun m _ => hasValue_eq hv m
  by_cases h : Css.IsReadable name v
  · have hquery : queryAttribute root name v = .ok total := by
      have hesc := Css.unescape_escape (hx h).1
      rw [queryAttribute_of_isReadable hd hp hr hv h (hesc.symm ▸ (hx h).2), hesc]
    refine ⟨?_, hcount, fun k hk => ?_⟩
    · rw [isAttributeUnique, hv]
      simp only [ok_bind, hquery, pure_eq_ok]
      exact congrArg _ (beq_eq_decide total 1)
    · exact (Except.ok.inj (hquery.symm.trans hk)).symm
  · obtain ⟨e, he⟩ := Css.queryPath_of_not_isReadable hn h
    have hquery : queryAttribute root name v = .error (.selector e) := by
      rw [queryAttribute, querySelector, he]
      rfl
    refine ⟨?_, hcount, fun k hk => ?_⟩
    · have hone : (limited (some 2) total == 1) = decide (total = 1) := by
        have htwo : limited (some 2) total = min total 2 := rfl
        rw [htwo, beq_eq_decide, decide_eq_decide]
        omega
      rw [isAttributeUnique, hv]
      simp only [ok_bind, hquery, Failure.isSelector, Bool.true_or, if_true, hcount, pure_eq_ok,
        hone]
    · simp [hquery] at hk

/-- Quotation marks and a backslash survive the query. -/
def quotedId : Document :=
  { key := 0
    content := [.element { base := ['r'] } [] []
      [.element { base := ['a'] } [] [⟨{ base := "id".toList }, "it's \\\"z".toList⟩] []]] }

/-- A backslash in front of two digits. -/
def digitsId : Document :=
  { key := 0
    content := [.element { base := ['r'] } [] []
      [.element { base := ['a'] } [] [⟨{ base := "id".toList }, "\\41".toList⟩] []]] }

/-- An identifier with both quotation marks and a backslash is found to be unique. -/
theorem isAttributeUnique_quotedId :
    quotedId.IsRegular ∧ quotedId.HasPrefixes ∧
      isAttributeUnique ⟨quotedId, [0, 0]⟩ "id".toList (some ⟨quotedId, [0]⟩) = .ok true := by
  have hd : quotedId.IsRegular := by decide
  have hp : quotedId.HasPrefixes := by decide
  have hroot : (Context.document quotedId).element? = some ⟨quotedId, [0]⟩ := rfl
  have hlook : (⟨quotedId, [0, 0]⟩ : Node).lookUp "id".toList =
      .ok (some "it's \\\"z".toList) := rfl
  have hone := (isAttributeUnique_eq (c := .document quotedId) hd hp hroot (by decide) hlook
    (fun _ => by decide)).1
  exact ⟨hd, hp, hone.trans rfl⟩

/-- One element carries the identifier, and it is not found to be unique: the query asks
for the letter that the digits behind the backslash stand for. -/
theorem isAttributeUnique_digitsId :
    (⟨digitsId, [0, 0]⟩ : Node).lookUp "id".toList = .ok (some "\\41".toList) ∧
      (Context.document digitsId).elements.countP (Node.carries "id".toList "\\41".toList) = 1 ∧
      isAttributeUnique ⟨digitsId, [0, 0]⟩ "id".toList (some ⟨digitsId, [0]⟩) = .ok false := by
  have hlook : (⟨digitsId, [0, 0]⟩ : Node).lookUp "id".toList = .ok (some "\\41".toList) := rfl
  have hd : (⟨digitsId, [0]⟩ : Node).document.IsRegular := by decide
  have hquery := queryAttribute_of_isReadable hd (by decide) rfl hlook (by decide) (by decide)
  have hnone : (⟨digitsId, [0]⟩ : Node).elements.countP
      (Node.carries "id".toList (Css.unescape (Css.escape "\\41".toList))) = 0 := by decide
  rw [hnone] at hquery
  refine ⟨hlook, by decide, ?_⟩
  rw [isAttributeUnique, hlook, ok_bind]
  simp only [hquery]
  rfl

end Locator
