/-
Evaluating the texts of expressions

* `Context.source_eq_of_startNode`: evaluation starts in the document of its
  context;
* `isExpression_iff`: what makes a text an expression;
* `evaluate_of_selects`: a text that is read as an expression selects what the
  expression selects;
* `evaluateElements_eq`: **the elements that a text selects** are those of the
  document where the expression leads, in document order;
* `evaluate_eq`, `firstElement_eq`: their places and the first of them, if it selects
  elements alone;
* `Finds`, `Misses`: a text selects and finds a node alone, or does neither.
-/
import Locator.Proofs.Document.Whole
import Locator.Proofs.XPath.Level
import Locator.Proofs.XPath.Select
import Locator.Generator.Resolve

namespace Locator

open XPath

variable {c : Context} {n : Node} {d : Document} {namespaces : List (Text × Text)} {s : Text}
  {e : Expr} {P : Address → Prop}

/-- Evaluation starts in the document of its context. -/
lemma Context.source_eq_of_startNode (h : startNode c = .ok n) : c.source = n.document := by
  cases c with
  | node m =>
      obtain rfl : m = n := by simpa [startNode] using h
      rfl
  | document d =>
      simp only [startNode, Document.root?] at h
      cases hr : d.rootAddress? with
      | none => simp [hr] at h
      | some a =>
          obtain rfl : (⟨d, a⟩ : Node) = n := by simpa [hr] using h
          rfl

namespace XPath

/-- What evaluation needs besides the text: a node to start from, and bindings that
can be used. -/
structure StartsAt (c : Context) (n : Node) (namespaces : List (Text × Text)) : Prop where
  start : startNode c = .ok n
  bound : checkNamespaces namespaces = .ok ()

/-- In a whole document evaluation starts at the root. -/
lemma exists_startsAt (hw : d.IsWhole) (hn : checkNamespaces namespaces = .ok ()) :
    ∃ r, StartsAt (.document d) ⟨d, [r]⟩ namespaces := by
  obtain ⟨r, hr, -, -⟩ := hw.exists_root
  exact ⟨r, by simp [startNode, Document.root?, Document.rootAddress?, hr], hn⟩

/-- An expression holds characters of XML and is read. -/
lemma isExpression_iff :
    isExpression s = .ok true ↔ Text.isXmlText s = true ∧ ∃ e, Expr.read? s = some e := by
  rw [isExpression, checkText]
  split_ifs with hx <;> simp [hx, isValid, Option.isSome_iff_exists]

/-- Characters that XML forbids are told before anything else about a text. -/
lemma evaluate_forbidden (hc : StartsAt c n namespaces) (hx : Text.isXmlText s = false) :
    evaluate s c namespaces = .error .forbiddenText := by
  simp [evaluate, hc.start, hc.bound, checkText, hx]

/-- A text that is no expression is told to be malformed. -/
lemma evaluate_malformed (hc : StartsAt c n namespaces) (hx : Text.isXmlText s)
    (hr : Expr.read? s = none) : evaluate s c namespaces = .error (.path .malformed) := by
  simp [evaluate, hc.start, hc.bound, checkText, hx, hr]

/-- **A text that is read as an expression** selects what the expression selects;
the document itself does not count. -/
theorem evaluate_of_selects (hc : StartsAt c n namespaces) (hx : Text.isXmlText s)
    (hr : Expr.read? s = some e)
    (h : Selects ⟨n.document, namespaces⟩ e { place := .node n.address } P) :
    ∃ ps, evaluate s c namespaces = .ok ps ∧ Place.Sorted ps ∧
      ∀ p, p ∈ ps ↔ ∃ a, (P a ∧ a ≠ []) ∧ p = .node a := by
  obtain ⟨ps, he, hs, hm⟩ := h
  refine ⟨ps.filter (· != .node []), ?_, hs.sublist List.filter_sublist, fun p => ?_⟩
  · simp [evaluate, hc.start, hc.bound, checkText, hx, hr, selectFrom, Env.select, he,
      Except.mapError]
  · simp only [List.mem_filter, hm, bne_iff_ne]
    constructor
    · rintro ⟨⟨a, ha, rfl⟩, hne⟩
      exact ⟨a, ⟨ha, fun h => hne (by rw [h])⟩, rfl⟩
    · rintro ⟨a, ⟨ha, hne⟩, rfl⟩
      exact ⟨⟨a, ha, rfl⟩, fun h => hne (by simpa using h)⟩

/-- What has elements has been evaluated with bindings that can be used. -/
lemma checkNamespaces_of_evaluateElements {xs : List Node}
    (h : evaluateElements s c namespaces = .ok xs) : checkNamespaces namespaces = .ok () := by
  obtain ⟨ps, hps, -⟩ := bind_eq_ok.mp h
  obtain ⟨_, -, hps⟩ := bind_eq_ok.mp hps
  obtain ⟨⟨⟩, hcheck, -⟩ := bind_eq_ok.mp hps
  exact hcheck

variable {H : Address → Bool}

/-- **The elements that a text selects** are those of the document where the
expression leads, in document order. -/
theorem evaluateElements_eq (hw : n.document.IsWhole) (hc : StartsAt c n namespaces)
    (hx : Text.isXmlText s) (hr : Expr.read? s = some e)
    (h : Selects ⟨n.document, namespaces⟩ e { place := .node n.address } P)
    (hH : ∀ a, n.document.isElementAt a → (P a ↔ H a)) :
    evaluateElements s c namespaces = .ok (n.document.elements.filter fun m => H m.address) := by
  obtain ⟨ps, he, hs, hm⟩ := evaluate_of_selects hc hx hr h
  have hel := elementsOf_eq hw hs (P := H) fun a ha => by
    have hne : a ≠ [] := by
      rintro rfl
      simp [Document.isElementAt] at ha
    simp [hm, hne, ← hH a ha]
  simp [evaluateElements, he, Context.source_eq_of_startNode hc.start, hel]

/-- A place of an element as a thing. -/
lemma element?_ofPlace {a : Address} (h : d.isElementAt a) :
    (Thing.ofPlace d (.node a)).element? = some ⟨d, a⟩ := by
  have hel : (⟨d, a⟩ : Node).isElement = true := Document.isElement_iff.mpr h
  obtain ⟨m, hm, hme⟩ := Document.isElementAt_iff.mp h
  cases a with
  | nil => simp at hm
  | cons i a =>
      cases m with
      | element => simp [Thing.ofPlace, hm, Thing.element?, hel]
      | _ => simp [Markup.isElement, Markup.name?] at hme

/-- **The places that a text selects** are those of the elements where the expression
leads, if it leads to elements alone. -/
theorem evaluate_eq (hw : n.document.IsWhole) (hc : StartsAt c n namespaces)
    (hx : Text.isXmlText s) (hr : Expr.read? s = some e)
    (h : Selects ⟨n.document, namespaces⟩ e { place := .node n.address } P)
    (hP : ∀ a, P a → n.document.isElementAt a) (hH : ∀ a, n.document.isElementAt a → (P a ↔ H a)) :
    evaluate s c namespaces =
      .ok ((n.document.elements.filter fun m => H m.address).map Node.place) := by
  obtain ⟨ps, he, hs, hm⟩ := evaluate_of_selects hc hx hr h
  have hel : ∀ p ∈ ps, isElementPlace n.document p := by
    intro p hp
    obtain ⟨a, ⟨ha, -⟩, rfl⟩ := (hm p).mp hp
    exact hP a ha
  have hps := eq_map_place hw hs hel (P := H) fun a ha => by
    have hne : a ≠ [] := by
      rintro rfl
      simp [Document.isElementAt] at ha
    simp [hm, hne, ← hH a ha]
  rw [he, hps]

/-- The elements at the places that a text selects. -/
lemma evaluateElements_of_evaluate {ms : List Node}
    (h : evaluate s c namespaces = .ok (ms.map Node.place))
    (hms : ∀ m ∈ ms, m.document = c.source ∧ m.isElement) :
    evaluateElements s c namespaces = .ok ms := by
  rw [evaluateElements, h, ok_bind, elementsOf_map_place hms]
  rfl

/-- The element that a text finds: the first one it selects, if it selects
elements alone. -/
theorem firstElement_eq (hw : n.document.IsWhole) (hc : StartsAt c n namespaces)
    (hx : Text.isXmlText s) (hr : Expr.read? s = some e)
    (h : Selects ⟨n.document, namespaces⟩ e { place := .node n.address } P)
    (hP : ∀ a, P a → n.document.isElementAt a) (hH : ∀ a, n.document.isElementAt a → (P a ↔ H a)) :
    Generator.firstElement s c namespaces =
      .ok (n.document.elements.find? fun m => H m.address) := by
  rw [Generator.firstElement, evaluate_eq hw hc hx hr h hP hH,
    Context.source_eq_of_startNode hc.start, ← List.head?_filter]
  cases hf : n.document.elements.filter fun m => H m.address with
  | nil => rfl
  | cons m ms =>
      have hmem : m ∈ n.document.elements :=
        List.mem_of_mem_filter (hf ▸ List.mem_cons_self : m ∈ _)
      obtain ⟨hd, hem⟩ := (Document.mem_elements hw).mp hmem
      simp only [List.map_cons, Node.place, element?_ofPlace hem, List.head?_cons]
      rw [← hd]

/-! ### Texts that find a node and texts that miss it -/

/-- The element at an address is alone there. -/
lemma filter_elements_eq (hw : d.IsWhole) {a : Address} (h : d.isElementAt a) :
    (d.elements.filter fun m => m.address == a) = [⟨d, a⟩] := by
  have hel : (⟨d, a⟩ : Node).isElement = true := Document.isElement_iff.mpr h
  have hone : elementsOf d [.node a] = d.elements.filter fun m => m.address == a :=
    elementsOf_eq hw (P := (· == a)) (by simp [Place.Sorted]) fun b _ => by simp
  rw [← hone]
  simp [elementsOf, hel]

/-- A text selects one node alone, and finds it. -/
structure Finds (s : Text) (c : Context) (namespaces : List (Text × Text)) (n : Node) : Prop where
  elements : evaluateElements s c namespaces = .ok [n]
  first : Generator.firstElement s c namespaces = .ok (some n)

/-- A text does not select a node, and does not find it. -/
structure Misses (s : Text) (c : Context) (namespaces : List (Text × Text)) (n : Node) : Prop where
  elements : ∀ ns, evaluateElements s c namespaces = .ok ns → n ∉ ns
  first : Generator.firstElement s c namespaces ≠ .ok (some n)

variable {x : Node}

/-- A text finds the node where alone the expression leads. -/
lemma finds_of_selects (hw : n.document.IsWhole) (hc : StartsAt c n namespaces)
    (hx : Text.isXmlText s) (hr : Expr.read? s = some e)
    (h : Selects ⟨n.document, namespaces⟩ e { place := .node n.address } P)
    (hd : x.document = n.document) (hel : x.isElement) (hP : ∀ a, P a ↔ a = x.address) :
    Finds s c namespaces x := by
  have helAt : n.document.isElementAt x.address := hd ▸ Document.isElement_iff.mp hel
  have hH : ∀ a, n.document.isElementAt a → (P a ↔ (a == x.address) = true) := by simp [hP]
  have hone := filter_elements_eq hw helAt
  rw [← hd] at hone
  refine ⟨?_, ?_⟩
  · rw [evaluateElements_eq hw hc hx hr h hH, ← hd, hone]
  · have hall : ∀ a, P a → n.document.isElementAt a := fun a ha => (hP a).mp ha ▸ helAt
    rw [firstElement_eq hw hc hx hr h hall hH, ← List.head?_filter, ← hd, hone]
    rfl

/-- A text misses a node where the expression does not lead. -/
lemma misses_of_selects (hw : n.document.IsWhole) (hc : StartsAt c n namespaces)
    (hx : Text.isXmlText s) (hr : Expr.read? s = some e)
    (h : Selects ⟨n.document, namespaces⟩ e { place := .node n.address } P)
    (hP : ∀ a, P a → n.document.isElementAt a ∧ a ≠ x.address) : Misses s c namespaces x := by
  classical
  have hH : ∀ a, n.document.isElementAt a → (P a ↔ decide (P a) = true) := by simp
  have hnot : ¬ P x.address := fun hp => (hP _ hp).2 rfl
  refine ⟨fun ns hns => ?_, fun hfirst => ?_⟩
  · rw [evaluateElements_eq hw hc hx hr h hH] at hns
    obtain rfl := Except.ok.inj hns
    simp [hnot]
  · rw [firstElement_eq hw hc hx hr h (fun a ha => (hP a ha).1) hH] at hfirst
    have := List.find?_some (Except.ok.inj hfirst)
    simp [hnot] at this

/-- A text that is no expression misses every node. -/
lemma misses_of_malformed (hc : StartsAt c n namespaces) (hx : Text.isXmlText s)
    (hr : Expr.read? s = none) (x : Node) : Misses s c namespaces x := by
  have he := evaluate_malformed hc hx hr
  refine ⟨fun ns hns => ?_, fun hfirst => ?_⟩
  · simp [evaluateElements, he] at hns
  · rw [Generator.firstElement, he] at hfirst
    simp [Failure.isPath] at hfirst

end XPath

end Locator
