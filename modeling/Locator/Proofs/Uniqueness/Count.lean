/-
Counting elements along the tree

* `Node.elements_eq`: inside an element are itself and what is inside the elements
  below it, and `Node.perm_visit`: a visit to an element leaves the others;
* `countFrom_eq`: **every element is visited once**, so that the count is the number
  of the elements with the value, up to the limit;
* `countAttribute_eq`: the elements inside an element are counted.
-/
import Locator.Uniqueness
import Locator.Proofs.Document.Whole
import Locator.Proofs.Outcome

namespace Locator

/-! ### The elements inside -/

namespace Node

variable {n : Node}

/-- The elements inside the children from position `i` on. -/
lemma elements_locatedFrom {ms : List Markup} {i : ℕ}
    (h : (n.document.childrenAt n.address).drop i = ms) :
    ((Markup.locatedFrom n.address i ms).filter (·.2.isElement)).map (fun p => n.moved p.1) =
      ((((ms.zipIdx i).filter fun p => !p.1.isText).map
        fun p => n.moved (p.2 :: n.address)).filter isElement).flatMap elements := by
  induction ms generalizing i with
  | nil => rfl
  | cons m ms ih =>
      obtain ⟨hm, hms⟩ := List.of_drop_eq_cons h
      have hmarkup : (n.moved (i :: n.address)).markup? = some m := hm
      have hel : (n.moved (i :: n.address)).isElement = m.isElement := by
        rw [isElement, name?, hmarkup]
        rfl
      have hown : (n.moved (i :: n.address)).elements =
          ((m.located (i :: n.address)).filter (·.2.isElement)).map (fun p => n.moved p.1) := by
        rw [elements, hmarkup]
        rfl
      rw [Markup.locatedFrom, List.filter_append, List.map_append, ih hms, ← hown,
        List.zipIdx_cons]
      cases m with
      | element name bs as cs =>
          simp [Markup.isText, hel, Markup.isElement, Markup.name?]
      | _ => simp [Markup.isText, hel, hown, Markup.isElement, Markup.name?, Markup.located]

/-- Inside an element are itself and what is inside the elements below it. -/
lemma elements_eq (h : n.isElement) : n.elements = n :: n.elementChildren.flatMap elements := by
  obtain ⟨m, hm, hel⟩ := Document.isElementAt_iff.mp (Document.isElement_iff.mp h)
  have hchildren : n.document.childrenAt n.address = m.children := Document.childrenAt_of_get? hm
  have hbelow := elements_locatedFrom (n := n) (i := 0) rfl
  rw [List.drop_zero, hchildren] at hbelow
  cases m with
  | element name bs as cs =>
      rw [elements, markup?, hm, elementChildren, children, hchildren]
      exact congrArg (n :: ·) hbelow
  | _ => simp [Markup.isElement, Markup.name?] at hel

/-- What is left to be visited behind an element: the elements inside the others, and those
inside the elements below it, on top of the others in turned order. -/
lemma perm_visit (h : n.isElement) (stack : List Node) :
    (n :: (n.elementChildren.reverse ++ stack).flatMap elements).Perm
      ((n :: stack).flatMap elements) := by
  have hturned : (n.elementChildren.reverse.flatMap elements).Perm
      (n.elementChildren.flatMap elements) := (List.reverse_perm _).flatMap_right _
  rw [List.flatMap_cons, elements_eq h, List.cons_append, List.flatMap_append]
  exact (hturned.append_right _).cons n

/-- Behind an element only elements are left to be visited. -/
lemma isElement_of_mem_visit {stack : List Node} (hs : ∀ k ∈ stack, k.isElement) :
    ∀ k ∈ n.elementChildren.reverse ++ stack, k.isElement := by
  intro k hk
  rcases List.mem_append.mp hk with hk | hk
  · exact (List.mem_filter.mp (List.mem_reverse.mp hk)).2
  · exact hs k hk

end Node

/-! ### Counts -/

/-- A count that stops at a limit; one element is counted at least. -/
def limited (limit : Option Int) (count : ℕ) : ℕ :=
  match limit with
  | some k => min count (max 1 k.toNat)
  | none => count

/-- A count may go on: it has not reached the limit, or nothing is counted yet. -/
def MayGoOn (limit : Option Int) (count : ℕ) : Prop := hasReached limit count = false ∨ count = 0

lemma limited_of_mayGoOn {limit : Option Int} {count : ℕ} (h : MayGoOn limit count) :
    limited limit count = count := by
  cases limit with
  | none => rfl
  | some k =>
      rcases h with h | rfl
      · simp only [hasReached, decide_eq_false_iff_not] at h
        simp only [limited]
        omega
      · simp [limited]

/-- Behind the element that reaches the limit nothing more is counted. -/
lemma limited_of_hasReached {limit : Option Int} {count : ℕ} (h : MayGoOn limit count)
    (hr : hasReached limit (count + 1) = true) (more : ℕ) :
    limited limit (count + 1 + more) = count + 1 := by
  cases limit with
  | none => simp [hasReached] at hr
  | some k =>
      simp only [hasReached, decide_eq_true_eq] at hr
      have hcount : count < max 1 k.toNat := by
        rcases h with h | rfl
        · simp only [hasReached, decide_eq_false_iff_not] at h
          omega
        · omega
      simp only [limited]
      omega

variable {name : Text} {value : Option Text} {limit : Option Int} {p : Node → Bool}

/-- **Every element is visited once**: what a stack of elements adds to a count is the
number of the elements inside them with the value. The invariant is that the count has
not reached the limit yet. -/
theorem countFrom_eq {fuel : ℕ} {stack : List Node} {count : ℕ}
    (hs : ∀ n ∈ stack, n.isElement)
    (hp : ∀ n ∈ stack.flatMap Node.elements, hasValue name value n = .ok (p n))
    (hf : (stack.flatMap Node.elements).length ≤ fuel) (hc : MayGoOn limit count) :
    countFrom name value limit fuel stack count =
      .ok (limited limit (count + (stack.flatMap Node.elements).countP p)) := by
  induction fuel generalizing stack count with
  | zero =>
      have hnone : stack.flatMap Node.elements = [] := List.length_eq_zero_iff.mp (by omega)
      simp [countFrom, hnone, limited_of_mayGoOn hc]
  | succ fuel ih =>
      cases stack with
      | nil => simp [countFrom, limited_of_mayGoOn hc]
      | cons n stack =>
          have hperm := Node.perm_visit (hs n List.mem_cons_self) stack
          have hp' : ∀ m ∈ n :: (n.elementChildren.reverse ++ stack).flatMap Node.elements,
              hasValue name value m = .ok (p m) := fun m hm => hp m (hperm.mem_iff.mp hm)
          have hall := Node.isElement_of_mem_visit (n := n) fun m hm =>
            hs m (List.mem_cons_of_mem n hm)
          have hrest := (List.forall_mem_cons.mp hp').2
          have hlen : ((n.elementChildren.reverse ++ stack).flatMap Node.elements).length ≤
              fuel := by
            rw [← hperm.length_eq, List.length_cons] at hf
            omega
          rw [countFrom, hp' n List.mem_cons_self, ok_bind, ← hperm.countP_eq, List.countP_cons]
          by_cases hn : p n
          · have hone : ∀ k, count + (k + if p n = true then 1 else 0) = count + 1 + k := by
              intro k
              rw [if_pos hn]
              omega
            rw [if_pos hn, hone]
            split_ifs with hr
            · rw [limited_of_hasReached hc hr, pure_eq_ok]
            · exact ih hall hrest hlen (.inl (by simpa using hr))
          · have hnone : ∀ k, count + (k + if p n = true then 1 else 0) = count + k := by
              intro k
              rw [if_neg hn]
              omega
            rw [if_neg hn, hnone]
            exact ih hall hrest hlen hc

/-- **The elements inside an element are counted**, itself included, up to the limit. -/
theorem countAttribute_eq {root : Node} (hr : root.isElement)
    (hp : ∀ n ∈ root.elements, hasValue name value n = .ok (p n)) (limit : Option Int) :
    countAttribute (some root) name value limit = .ok (limited limit (root.elements.countP p)) := by
  have hone : [root].flatMap Node.elements = root.elements := by simp
  have hstack : ∀ n ∈ [root], n.isElement := by simpa using hr
  have hlength : ([root].flatMap Node.elements).length ≤ root.elements.length := by rw [hone]
  have h := countFrom_eq hstack (hone ▸ hp) hlength (.inr rfl : MayGoOn limit 0)
  rw [countAttribute, h, hone, Nat.zero_add]

end Locator
