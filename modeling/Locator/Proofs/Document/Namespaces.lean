/-
The prefixes in force at an element

* `Node.mem_namespaces`: the bindings in force at an element are declared by it
  or by elements around;
* `Document.BindsXml`: XML allows the bindings of all elements; then those in force
  **can be used** in paths, and leave the prefix `xml` as it is
  (`Document.BindsXml.checkNamespaces`, `Document.BindsXml.keepsXml`).
-/
import Locator.Proofs.Document.Xml
import Locator.Proofs.Outcome

namespace Locator

/-- Bindings under which `xml` means what it always means. -/
def KeepsXml (namespaces : List (Text × Text)) : Prop :=
  ∀ u, namespaces.lookup "xml".toList = some u → u = Scope.xmlUri

namespace Node

/-- A binding that is added is one of those that were to be added. -/
lemma mem_addBindings {found : List (Text × Text)} {bs : List Binding} {x : Text × Text}
    (h : x ∈ addBindings found bs) : x ∈ found ∨ ⟨some x.1, x.2⟩ ∈ bs := by
  induction bs generalizing found with
  | nil => exact .inl h
  | cons b bs ih =>
      rw [addBindings] at h
      split at h
      · next p hp =>
        split_ifs at h
        · exact (ih h).imp_right (List.mem_cons_of_mem b)
        · rcases ih h with h | h
          · rcases List.mem_append.mp h with h | h
            · exact .inl h
            · obtain rfl := List.mem_singleton.mp h
              exact .inr (by simp [← hp])
          · exact .inr (List.mem_cons_of_mem b h)
      · exact (ih h).imp_right (List.mem_cons_of_mem b)

/-- The bindings in force are declared by elements around. -/
lemma mem_namespaces {n : Node} {x : Text × Text} (h : x ∈ n.namespaces) :
    ∃ m ∈ n.ancestors, ⟨some x.1, x.2⟩ ∈ m.bindings := by
  have hfold : ∀ (ns : List Node) found,
      x ∈ ns.foldl (fun found m => addBindings found m.bindings) found →
        x ∈ found ∨ ∃ m ∈ ns, ⟨some x.1, x.2⟩ ∈ m.bindings := by
    intro ns
    induction ns with
    | nil => exact fun _ => .inl
    | cons m ns ih =>
        intro found h
        rcases ih _ h with h | ⟨k, hk, h⟩
        · exact (mem_addBindings h).imp_right fun h => ⟨m, by simp, h⟩
        · exact .inr ⟨k, List.mem_cons_of_mem m hk, h⟩
  simpa using hfold n.ancestors [] h

end Node

/-- The bindings of all elements are bindings that XML allows. -/
def Document.BindsXml (d : Document) : Prop := ∀ p ∈ d.pieces, ∀ b ∈ p.2.bindings, b.isXml = true

/-- Those of an XML document are. -/
lemma Document.IsXml.bindsXml {d : Document} (h : d.IsXml) : d.BindsXml := by
  intro p hp b hb
  have hx := h.pieces p hp
  obtain ⟨a, m⟩ := p
  cases m with
  | element name bs as cs =>
      simp only [Markup.isXml, Bool.and_eq_true, List.all_eq_true] at hx
      exact hx.2 b hb
  | _ => simp [Markup.bindings] at hb

namespace Document.BindsXml

variable {n : Node}

/-- The bindings in force at a node are bindings that XML allows. -/
lemma isXml_of_mem_namespaces (h : n.document.BindsXml) {x : Text × Text} (hx : x ∈ n.namespaces) :
    Binding.isXml ⟨some x.1, x.2⟩ = true := by
  obtain ⟨m, hm, hb⟩ := Node.mem_namespaces hx
  have hdoc : m.document = n.document := by
    rw [Node.ancestors, List.mem_cons, List.mem_filter, List.mem_map] at hm
    rcases hm with rfl | ⟨⟨a, -, rfl⟩, -⟩
    · rfl
    · rfl
  rw [Node.bindings, Node.markup?, hdoc] at hb
  cases hg : n.document.get? m.address with
  | none => simp [hg] at hb
  | some k => exact h (m.address, k) (mem_pieces.mpr hg) _ (by simpa [hg] using hb)

/-- **The bindings in force** can be used in paths. -/
theorem checkNamespaces (h : n.document.BindsXml) :
    XPath.checkNamespaces n.namespaces = .ok () := by
  have hall : ∀ x ∈ n.namespaces, XPath.checkBinding x = .ok () := by
    intro x hx
    have hb := h.isXml_of_mem_namespaces hx
    simp only [Binding.isXml, Bool.and_eq_true, Bool.not_eq_true'] at hb
    have hname := Text.isPathName_iff.mp hb.1.1.1
    have hne : x.1.isEmpty = false := by simpa using hname.ne_nil
    simp [XPath.checkBinding, XPath.checkText, hne, hb.1.1.2, hb.1.2,
      Text.isXmlText_of_isName hname]
  exact forM_eq_ok hall

/-- **The bindings in force** leave the prefix `xml` as it is. -/
theorem keepsXml (h : n.document.BindsXml) : KeepsXml n.namespaces := by
  intro u hu
  have hmem : ("xml".toList, u) ∈ n.namespaces := by
    obtain ⟨l, r, hl, -⟩ := List.lookup_eq_some_iff.mp hu
    simp [hl]
  have hb := h.isXml_of_mem_namespaces hmem
  simp only [Binding.isXml, Bool.and_eq_true] at hb
  simpa using hb.2

end Document.BindsXml

end Locator
