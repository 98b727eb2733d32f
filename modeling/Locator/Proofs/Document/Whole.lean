/-
Documents with one root element

* `Document.length_childrenAt_lt`, `Document.length_value_lt`: pieces and
  characters are few enough to be counted;
* `Document.IsWhole`: one element stands at the top, with
  `Document.exists_root`;
* `Document.mem_elements`: the elements of a document are all the elements in
  it, and `Document.sorted_elements` lists them in document order;
* `XPath.elementsOf_eq`: **the elements among places** in order are the
  elements of the document that are among them.
-/
import Locator.Proofs.Document.Tree
import Locator.XPath.Select

namespace Locator

/-! ### Weights -/

namespace Markup

/-- There are no more pieces than their weight. -/
lemma length_le_weights (ms : List Markup) : ms.length ≤ weights ms := by
  induction ms with
  | nil => simp
  | cons m ms ih =>
      have hm : 1 ≤ m.weight := by cases m <;> simp [weight] <;> omega
      simp only [List.length_cons, weights]
      omega

lemma weight_le_weights {m : Markup} {ms : List Markup} (h : m ∈ ms) : m.weight ≤ weights ms := by
  induction ms with
  | nil => simp at h
  | cons n ms ih =>
      rw [weights]
      rcases List.mem_cons.mp h with rfl | h
      · omega
      · have := ih h
        omega

lemma weights_children_le (m : Markup) : weights m.children ≤ m.weight := by
  cases m <;> simp [children, weights, weight]

/-- The attributes of an element are counted with all their characters. -/
lemma length_value_le_foldr {as : List Attribute} {t : Attribute} (h : t ∈ as) :
    t.value.length ≤ as.foldr (fun a n => 1 + a.value.length + n) 0 := by
  induction as with
  | nil => simp at h
  | cons a as ih =>
      rw [List.foldr_cons]
      rcases List.mem_cons.mp h with rfl | h
      · omega
      · have := ih h
        omega

/-- The value of an attribute is no longer than the weight of its element. -/
lemma length_value_le_weight {m : Markup} {t : Attribute} (h : t ∈ m.attributes) :
    t.value.length ≤ m.weight := by
  cases m with
  | element n bs as cs =>
      rw [attributes] at h
      have hs := length_value_le_foldr h
      simp only [weight]
      omega
  | _ => simp [attributes] at h

end Markup

/-- The place of a node. -/
def Node.place (n : Node) : Place := .node n.address

namespace Document

variable {d : Document} {a : Address}

lemma weights_childrenAt_le (d : Document) (a : Address) :
    Markup.weights (d.childrenAt a) ≤ Markup.weights d.content := by
  induction a with
  | nil => exact le_rfl
  | cons i a ih =>
      cases h : d.get? (i :: a) with
      | none => simp [childrenAt_of_get?_eq_none (by simp) h, Markup.weights]
      | some m =>
          have hm : m ∈ d.childrenAt a := List.mem_of_getElem? h
          calc Markup.weights (d.childrenAt (i :: a)) = Markup.weights m.children := by
                rw [childrenAt_of_get? h]
            _ ≤ m.weight := m.weights_children_le
            _ ≤ Markup.weights (d.childrenAt a) := Markup.weight_le_weights hm
            _ ≤ _ := ih

/-- The pieces below an address can be counted. -/
lemma length_childrenAt_lt (d : Document) (a : Address) : (d.childrenAt a).length < 2 ^ 53 :=
  ((Markup.length_le_weights _).trans (d.weights_childrenAt_le a)).trans_lt d.isCountable

/-- The characters of an attribute value can be counted. -/
lemma length_value_lt {t : Attribute} (h : t ∈ d.attributesAt a) : t.value.length < 2 ^ 53 := by
  rw [attributesAt] at h
  cases hm : d.get? a with
  | none => simp [hm] at h
  | some m =>
      rw [hm] at h
      have hw : m.weight ≤ Markup.weights d.content := by
        cases a with
        | nil => simp at hm
        | cons i a =>
            exact (Markup.weight_le_weights (List.mem_of_getElem? hm)).trans
              (d.weights_childrenAt_le a)
      exact ((Markup.length_value_le_weight (by simpa using h)).trans hw).trans_lt d.isCountable

/-! ### The root element -/

/-- One element stands at the top. -/
def IsWhole (d : Document) : Prop := d.content.countP Markup.isElement = 1

instance (d : Document) : Decidable d.IsWhole := inferInstanceAs (Decidable (_ = _))

/-- The element at an address. -/
def isElementAt (d : Document) (a : Address) : Bool := (d.get? a).any Markup.isElement

lemma isElementAt_iff : d.isElementAt a ↔ ∃ m, d.get? a = some m ∧ m.isElement := by
  simp [isElementAt, Option.any_eq_true]

/-- A member that is alone in passing a test is the first to pass it. -/
lemma findIdx?_of_countP_eq_one {α : Type*} {p : α → Bool} {l : List α} (h : l.countP p = 1) :
    ∃ r, l.findIdx? p = some r ∧ (∃ m, l[r]? = some m ∧ p m) ∧
      ∀ j m, l[j]? = some m → p m → j = r := by
  induction l with
  | nil => simp at h
  | cons x l ih =>
      by_cases hx : p x
      · refine ⟨0, by simp [List.findIdx?_cons, hx], ⟨x, rfl, hx⟩, fun j m hj hm => ?_⟩
        have h0 : ∀ y ∈ l, ¬ p y := by simpa [hx, List.countP_eq_zero] using h
        cases j with
        | zero => rfl
        | succ j => exact absurd hm (h0 m (List.mem_of_getElem? (by simpa using hj)))
      · obtain ⟨r, hr, ⟨m, hm, hp⟩, hu⟩ := ih (by simpa [hx] using h)
        refine ⟨r + 1, by simp [List.findIdx?_cons, hx, hr], ⟨m, by simpa using hm, hp⟩,
          fun j m hj hm => ?_⟩
        cases j with
        | zero =>
            obtain rfl : x = m := by simpa using hj
            exact absurd hm hx
        | succ j => rw [hu j m (by simpa using hj) hm]

/-- The root element and its position. -/
lemma IsWhole.exists_root (h : d.IsWhole) :
    ∃ r, d.rootPosition? = some r ∧ d.isElementAt [r] ∧ ∀ j, d.isElementAt [j] → j = r := by
  obtain ⟨r, hr, ⟨m, hm, hp⟩, hu⟩ := findIdx?_of_countP_eq_one h
  refine ⟨r, hr, isElementAt_iff.mpr ⟨m, hm, hp⟩, fun j hj => ?_⟩
  obtain ⟨n, hn, hq⟩ := isElementAt_iff.mp hj
  exact hu j n hn hq

/-- An element is the root element or inside it. -/
lemma exists_way_of_isElementAt {r : ℕ} (hu : ∀ j, d.isElementAt [j] → j = r)
    (h : d.isElementAt a) : ∃ way, a = way ++ [r] := by
  induction a with
  | nil => simp [isElementAt] at h
  | cons i a ih =>
      rcases eq_or_ne a [] with rfl | ha
      · exact ⟨[], by rw [hu i h]; rfl⟩
      · obtain ⟨m, hm, -⟩ := isElementAt_iff.mp h
        obtain ⟨e, he, hel⟩ := isElement_of_get? ha hm
        obtain ⟨way, rfl⟩ := ih (isElementAt_iff.mpr ⟨e, he, hel⟩)
        exact ⟨i :: way, rfl⟩

/-! ### The elements -/

lemma isElement_iff {n : Node} : n.isElement ↔ n.document.isElementAt n.address := by
  rw [isElementAt_iff, Node.isElement, Node.name?, Node.markup?]
  cases n.document.get? n.address <;> simp [Markup.isElement]

/-- The document itself is no element. -/
lemma address_ne_nil {n : Node} (h : n.isElement) : n.address ≠ [] := by
  intro ha
  have hat := isElement_iff.mp h
  simp [ha, isElementAt] at hat

/-- The listing from a node holds the elements at and below its address. -/
lemma mem_nodeElements {n m : Node} (h : n.address ≠ []) :
    m ∈ n.elements ↔ m.document = n.document ∧ (∃ way, m.address = way ++ n.address) ∧
      n.document.isElementAt m.address := by
  rw [Node.elements, Node.markup?]
  cases hn : n.document.get? n.address with
  | none =>
      simp only [List.not_mem_nil, false_iff]
      rintro ⟨-, ⟨way, hw⟩, he⟩
      simp [isElementAt, hw, get?_append_eq_none h hn] at he
  | some k =>
      simp only [List.mem_map, List.mem_filter, mem_located n.document k _ hn, isElementAt_iff]
      constructor
      · rintro ⟨x, ⟨⟨way, hw, hg⟩, he⟩, rfl⟩
        exact ⟨rfl, ⟨way, hw⟩, x.2, hg, he⟩
      · rintro ⟨hd, ⟨way, hw⟩, x, hx, he⟩
        refine ⟨(m.address, x), ⟨⟨way, hw, hx⟩, he⟩, ?_⟩
        cases m
        simp_all [Node.moved]

/-- The elements of a document are all the elements in it. -/
theorem mem_elements (h : d.IsWhole) {m : Node} :
    m ∈ d.elements ↔ m.document = d ∧ d.isElementAt m.address := by
  obtain ⟨r, hr, he, hu⟩ := h.exists_root
  have hroot : d.root? = some ⟨d, [r]⟩ := by simp [root?, rootAddress?, hr]
  have hmem := mem_nodeElements (n := ⟨d, [r]⟩) (m := m) (by simp)
  rw [elements, hroot]
  simp only [Option.map_some, Option.getD_some, hmem]
  constructor
  · rintro ⟨hd, -, hm⟩
    exact ⟨hd, hm⟩
  · rintro ⟨hd, hm⟩
    exact ⟨hd, exists_way_of_isElementAt hu hm, hm⟩

/-- The elements inside a node are listed in document order. -/
lemma sorted_nodeElements (n : Node) : Place.Sorted (n.elements.map Node.place) := by
  rw [Node.elements]
  cases n.markup? with
  | none => simp [Place.Sorted]
  | some k =>
      have hin := (Markup.inOrder_located n.address k).filter (·.2.isElement)
      simp only [List.map_map, Place.Sorted, List.pairwise_map]
      refine hin.imp fun {x y} hxy => ?_
      simp [Node.place, Node.moved, Place.order, Place.address, Place.rank, Place.index, hxy]

/-- The elements inside a node are listed once. -/
lemma nodup_nodeElements (n : Node) : n.elements.Nodup :=
  List.Nodup.of_map Node.place (List.Pairwise.nodup (sorted_nodeElements n))

/-- The elements of a document are listed in document order. -/
theorem sorted_elements (d : Document) : Place.Sorted (d.elements.map Node.place) := by
  rw [elements]
  cases d.root? with
  | none => simp [Place.Sorted]
  | some n => exact sorted_nodeElements n

end Document

/-! ### The elements among places -/

namespace XPath

variable {d : Document}

/-- The elements of a document, looked up at their places. -/
lemma elementsOf_map_place {ns : List Node} (h : ∀ n ∈ ns, n.document = d ∧ n.isElement) :
    elementsOf d (ns.map Node.place) = ns := by
  induction ns with
  | nil => rfl
  | cons n ns ih =>
      obtain ⟨rfl, he⟩ := h n (by simp)
      have hn : (⟨n.document, n.address⟩ : Node) = n := rfl
      have := ih fun m hm => h m (by simp [hm])
      simp only [elementsOf] at this
      simp [elementsOf, Node.place, hn, he, this]

/-- Is a place that of an element? -/
def isElementPlace (d : Document) : Place → Bool
  | .node a => d.isElementAt a
  | _ => false

/-- Places of elements in document order are those of the elements of the document
among them. -/
lemma eq_map_place (h : d.IsWhole) {ps : List Place} {P : Address → Bool}
    (hs : Place.Sorted ps) (he : ∀ p ∈ ps, isElementPlace d p)
    (hp : ∀ a, d.isElementAt a → (.node a ∈ ps ↔ P a)) :
    ps = (d.elements.filter fun n => P n.address).map Node.place := by
  refine hs.eq_of_mem_iff ((Document.sorted_elements d).sublist
    (List.filter_sublist.map _)) fun p => ?_
  simp only [List.mem_map, List.mem_filter, Document.mem_elements h]
  constructor
  · intro hm
    cases p with
    | node a => exact ⟨⟨d, a⟩, ⟨⟨rfl, he _ hm⟩, (hp a (he _ hm)).mp hm⟩, rfl⟩
    | _ => exact absurd (he _ hm) (by simp [isElementPlace])
  · rintro ⟨n, ⟨⟨rfl, hel⟩, hP⟩, rfl⟩
    exact (hp _ hel).mpr hP

/-- **The elements among places** in document order are the elements of the
document that are among them. -/
theorem elementsOf_eq (h : d.IsWhole) {ps : List Place} {P : Address → Bool}
    (hs : Place.Sorted ps) (hp : ∀ a, d.isElementAt a → (.node a ∈ ps ↔ P a)) :
    elementsOf d ps = d.elements.filter fun n => P n.address := by
  have hfilter : elementsOf d ps = elementsOf d (ps.filter (isElementPlace d)) := by
    rw [elementsOf, elementsOf, List.filterMap_filter]
    refine List.filterMap_congr fun p _ => ?_
    cases p with
    | node a =>
        have := Document.isElement_iff (n := ⟨d, a⟩)
        by_cases ha : d.isElementAt a <;> simp_all [isElementPlace]
    | _ => simp [isElementPlace]
  have hel : ∀ n ∈ d.elements.filter fun n => P n.address, n.document = d ∧ n.isElement := by
    intro n hn
    obtain ⟨rfl, he⟩ := (Document.mem_elements h).mp (List.mem_of_mem_filter hn)
    exact ⟨rfl, Document.isElement_iff.mpr he⟩
  rw [hfilter, eq_map_place h (hs.sublist List.filter_sublist) (by simp)
    (P := P) fun a ha => by simp [isElementPlace, ha, hp], elementsOf_map_place hel]

end XPath

end Locator
