/-
The walk along a tree behind a count

* `Tally`: where a count stands, the elements that were visited and the stack of those that are
  still to be visited; `Tally.Turn` is one turn of it, `Tally.Ends` the end with an answer;
* `Tally.Splits`: what was visited and what is inside the stack are together the elements inside
  the root, which a turn preserves (`Tally.Splits.turn`), and so a whole walk
  (`Tally.Walk.splits`);
* `Tally.Walk.length_visited`: every turn visits one element more, so that no walk is longer than
  there are elements;
* `Tally.exists_ends`: a walk that is bound by nothing else comes to an end;
* `CountsTo`, `countsTo_countAttribute`: **the count is the walk**. It visits no element twice and
  nothing but elements, and it has the answer that the walk comes to.
-/
import Locator.Proofs.Document.Family
import Locator.Proofs.Uniqueness.Count

namespace Locator

/-- Where a count along a tree stands: the elements that were visited, the last one first, the
stack of the elements that are still to be visited with all inside them, and what was counted. -/
structure Tally where
  visited : List Node
  stack : List Node
  count : ℕ

namespace Tally

variable {name : Text} {value : Option Text} {limit : Option Int} {root n : Node} {t u : Tally}
  {r : Outcome ℕ} {m : ℕ}

/-- A count starts with one element on the stack. -/
def start (root : Node) : Tally := ⟨[], [root], 0⟩

/-- The elements that are still to be visited. -/
def pending (t : Tally) : List Node := t.stack.flatMap Node.elements

/-- **A turn**: the element on top of the stack is visited, and the elements directly below it
take its place, the last one on top. -/
inductive Turn (name : Text) (value : Option Text) (limit : Option Int) : Tally → Tally → Prop
  | counted {visited stack : List Node} {n : Node} {count : ℕ}
      (hv : hasValue name value n = .ok true) (hr : hasReached limit (count + 1) = false) :
      Turn name value limit ⟨visited, n :: stack, count⟩
        ⟨n :: visited, n.elementChildren.reverse ++ stack, count + 1⟩
  | passed {visited stack : List Node} {n : Node} {count : ℕ}
      (hv : hasValue name value n = .ok false) :
      Turn name value limit ⟨visited, n :: stack, count⟩
        ⟨n :: visited, n.elementChildren.reverse ++ stack, count⟩

/-- The end of a count: nothing is left to be visited, the element on top of the stack makes the
count reach the limit, or its value cannot be looked up. -/
inductive Ends (name : Text) (value : Option Text) (limit : Option Int) :
    Tally → Outcome ℕ → Prop
  | done {visited : List Node} {count : ℕ} :
      Ends name value limit ⟨visited, [], count⟩ (.ok count)
  | reached {visited stack : List Node} {n : Node} {count : ℕ}
      (hv : hasValue name value n = .ok true) (hr : hasReached limit (count + 1) = true) :
      Ends name value limit ⟨visited, n :: stack, count⟩ (.ok (count + 1))
  | failed {visited stack : List Node} {n : Node} {count : ℕ} {e : Failure}
      (hv : hasValue name value n = .error e) :
      Ends name value limit ⟨visited, n :: stack, count⟩ (.error e)

/-- A walk of some turns. -/
inductive Walk (name : Text) (value : Option Text) (limit : Option Int) :
    ℕ → Tally → Tally → Prop
  | rest (t : Tally) : Walk name value limit 0 t t
  | turn {m : ℕ} {t u w : Tally} (h : Turn name value limit t u) (h' : Walk name value limit m u w) :
      Walk name value limit (m + 1) t w

/-! ### What a walk preserves -/

/-- The elements inside the root are those that were visited and those that are still to be
visited, each once. -/
structure Splits (root : Node) (t : Tally) : Prop where
  isElement : ∀ n ∈ t.stack, n.isElement
  perm : (t.visited ++ t.pending).Perm root.elements

lemma splits_start (hr : root.isElement) : (start root).Splits root where
  isElement := by simpa [start] using hr
  perm := by simp [start, pending]

/-- An element that is visited leaves the elements inside those below it. -/
lemma Splits.visit {visited stack : List Node} {count : ℕ}
    (h : Splits root ⟨visited, n :: stack, count⟩) (k : ℕ) :
    Splits root ⟨n :: visited, n.elementChildren.reverse ++ stack, k⟩ where
  isElement := Node.isElement_of_mem_visit fun k hk => h.isElement k (List.mem_cons_of_mem n hk)
  perm := by
    have hvisit := Node.perm_visit (h.isElement n List.mem_cons_self) stack
    have hmiddle : (n :: visited ++
        (n.elementChildren.reverse ++ stack).flatMap Node.elements).Perm
          (visited ++ n :: (n.elementChildren.reverse ++ stack).flatMap Node.elements) :=
      List.perm_middle.symm
    exact (hmiddle.trans (hvisit.append_left visited)).trans h.perm

/-- **A turn** moves one element from those to be visited to those that were. -/
lemma Splits.turn (h : t.Splits root) (ht : Turn name value limit t u) : u.Splits root := by
  cases ht with
  | counted => exact h.visit _
  | passed => exact h.visit _

/-- **A walk** preserves what its turns do. -/
lemma Walk.splits (hw : Walk name value limit m t u) (h : t.Splits root) : u.Splits root := by
  induction hw with
  | rest => exact h
  | turn ht _ ih => exact ih (h.turn ht)

/-- Every turn visits one element. -/
lemma Walk.length_visited (hw : Walk name value limit m t u) :
    u.visited.length = t.visited.length + m := by
  induction hw with
  | rest => rfl
  | turn ht _ ih =>
      rw [ih]
      cases ht <;> simp only [List.length_cons] <;> omega

/-! ### The end of a walk -/

/-- Where a count stands, it takes a turn or it ends. -/
lemma turn_or_ends (name : Text) (value : Option Text) (limit : Option Int) (t : Tally) :
    (∃ u, Turn name value limit t u) ∨ ∃ r, Ends name value limit t r := by
  obtain ⟨visited, stack, count⟩ := t
  cases stack with
  | nil => exact .inr ⟨_, .done⟩
  | cons n stack =>
      cases hv : hasValue name value n with
      | error e => exact .inr ⟨_, .failed hv⟩
      | ok b =>
          cases b with
          | false => exact .inl ⟨_, .passed hv⟩
          | true =>
              cases hr : hasReached limit (count + 1) with
              | false => exact .inl ⟨_, .counted hv hr⟩
              | true => exact .inr ⟨_, .reached hv hr⟩

/-- A turn leaves one element less to be visited. -/
lemma Splits.length_pending (h : t.Splits root) (ht : Turn name value limit t u) :
    u.pending.length + 1 = t.pending.length := by
  have hlen := (h.turn ht).perm.length_eq.trans h.perm.length_eq.symm
  rw [List.length_append, List.length_append] at hlen
  have hone := (Walk.turn ht (.rest u)).length_visited
  omega

/-- **Every walk comes to an end**, since fewer and fewer elements are to be visited. -/
lemma exists_ends (name : Text) (value : Option Text) (limit : Option Int) (h : t.Splits root) :
    ∃ m u r, Walk name value limit m t u ∧ Ends name value limit u r := by
  -- on the number of elements that are still to be visited
  induction hlen : t.pending.length using Nat.strong_induction_on generalizing t with
  | _ k ih =>
      rcases turn_or_ends name value limit t with ⟨u, ht⟩ | ⟨r, hr⟩
      · have hless := h.length_pending ht
        obtain ⟨m, w, r, hw, hr⟩ := ih u.pending.length (by omega) (h.turn ht) rfl
        exact ⟨m + 1, w, r, .turn ht hw, hr⟩
      · exact ⟨0, t, r, .rest t, hr⟩

/-! ### The answer -/

/-- A count goes on behind a turn where the turn leads to. -/
lemma Turn.countFrom_succ (ht : Turn name value limit t u) (fuel : ℕ) :
    countFrom name value limit (fuel + 1) t.stack t.count =
      countFrom name value limit fuel u.stack u.count := by
  cases ht with
  | counted hv hr => simp [countFrom, hv, hr]
  | passed hv => simp [countFrom, hv]

/-- At its end a count has its answer, if it may visit one more element where there is one. -/
lemma Ends.countFrom_eq_of_le (he : Ends name value limit t r) (h : t.Splits root) {fuel : ℕ}
    (hf : t.pending.length ≤ fuel) : countFrom name value limit fuel t.stack t.count = r := by
  -- an element on the stack is itself still to be visited
  have hpos : t.stack ≠ [] → 0 < fuel := by
    intro hne
    obtain ⟨n, stack, hs⟩ := List.exists_cons_of_ne_nil hne
    have hn := h.isElement n (hs ▸ List.mem_cons_self)
    rw [pending, hs, List.flatMap_cons, Node.elements_eq hn] at hf
    exact lt_of_lt_of_le (by simp) hf
  cases he with
  | done => cases fuel <;> rfl
  | reached hv hr =>
      obtain ⟨k, rfl⟩ := Nat.exists_eq_succ_of_ne_zero (hpos (List.cons_ne_nil _ _)).ne'
      simp [countFrom, hv, hr]
  | failed hv =>
      obtain ⟨k, rfl⟩ := Nat.exists_eq_succ_of_ne_zero (hpos (List.cons_ne_nil _ _)).ne'
      simp [countFrom, hv]

/-- A walk to an end has the answer of a count that may visit all elements. -/
lemma Walk.countFrom_eq_of_le (hw : Walk name value limit m t u) (he : Ends name value limit u r)
    (h : t.Splits root) {fuel : ℕ} (hf : t.pending.length ≤ fuel) :
    countFrom name value limit fuel t.stack t.count = r := by
  induction hw generalizing fuel with
  | rest => exact he.countFrom_eq_of_le h hf
  | turn ht _ ih =>
      have hlen := h.length_pending ht
      obtain ⟨k, rfl⟩ := Nat.exists_eq_succ_of_ne_zero (by omega : fuel ≠ 0)
      rw [ht.countFrom_succ]
      exact ih he (h.turn ht) (by omega)

/-! ### What is visited -/

/-- Only elements inside the root are visited, and none twice. -/
lemma Splits.visited (h : t.Splits root) (hr : root.isElement) :
    t.visited.Nodup ∧ ∀ n ∈ t.visited, n.isElement ∧ root ∈ n.ancestors := by
  have hnodup := h.perm.nodup_iff.mpr (Document.nodup_nodeElements root)
  exact ⟨hnodup.of_append_left, fun n hn =>
    (Node.mem_elements_iff hr).mp (h.perm.subset (List.mem_append_left _ hn))⟩

/-- No more elements are visited than there are. -/
lemma Splits.length_visited_le (h : t.Splits root) : t.visited.length ≤ root.elements.length := by
  rw [← h.perm.length_eq, List.length_append]
  exact Nat.le_add_right _ _

end Tally

/-- **Counting along the tree**, bound by nothing but the tree: what walks from an element come
to, and what they visit. -/
structure CountsTo (name : Text) (value : Option Text) (limit : Option Int) (root : Node)
    (r : Outcome ℕ) : Prop where
  /-- No walk has more turns than there are elements inside. -/
  short : ∀ m t, Tally.Walk name value limit m (.start root) t → m ≤ root.elements.length
  /-- Only elements inside are visited, and none twice. -/
  visits : ∀ m t, Tally.Walk name value limit m (.start root) t →
    t.visited.Nodup ∧ ∀ n ∈ t.visited, n.isElement ∧ root ∈ n.ancestors
  /-- A walk comes to an end with the answer, and none to an end with another. -/
  ends : ∀ s, (∃ m t, Tally.Walk name value limit m (.start root) t ∧ t.Ends name value limit s) ↔
    s = r

/-- **The count is the walk**: as many visits as there are elements are enough for it. -/
theorem countsTo_countAttribute {root : Node} (hr : root.isElement) (name : Text)
    (value : Option Text) (limit : Option Int) :
    CountsTo name value limit root (countAttribute (some root) name value limit) := by
  have hstart := Tally.splits_start hr
  have hpending : (Tally.start root).pending.length ≤ root.elements.length := by
    simp [Tally.start, Tally.pending]
  have hanswer : ∀ m t s, Tally.Walk name value limit m (.start root) t →
      t.Ends name value limit s → countAttribute (some root) name value limit = s :=
    fun m t s hw he => hw.countFrom_eq_of_le he hstart hpending
  refine ⟨fun m t hw => ?_, fun m t hw => (hw.splits hstart).visited hr, fun s => ?_⟩
  · have hlen : t.visited.length = m := by
      rw [hw.length_visited, Tally.start, List.length_nil, Nat.zero_add]
    exact hlen ▸ (hw.splits hstart).length_visited_le
  · constructor
    · rintro ⟨m, t, hw, he⟩
      exact (hanswer m t s hw he).symm
    · rintro rfl
      obtain ⟨m, t, r, hw, he⟩ := Tally.exists_ends name value limit hstart
      exact ⟨m, t, hw, hanswer m t r hw he ▸ he⟩

end Locator
