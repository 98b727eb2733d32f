/-
Document order

The order of places is a strict linear order, so that a set of places has one
listing in document order.

* `Address.order_eq`: addresses are ordered as their ways down from the
  document are, lexicographically;
* `Place.order_eq`: places are ordered by address, rank and index, and
  `Place.order_eq_eq`: no two places are level;
* `Place.mem_inOrder`, `Place.sorted_inOrder`: `Place.inOrder` lists the
  members of a list, in order;
* `Place.inOrder_congr`: **one listing**: it depends on the members alone, and
  `Place.inOrder_eq_self` leaves a list in order as it is.
-/
import Mathlib.Tactic
import Mathlib.Data.List.Sort
import Locator.Document.Basic

namespace Locator

/-! ### Addresses -/

namespace Address

/-- Lists that start with equally many positions are compared by these first. -/
lemma compare_append {u v : List ℕ} (x y : List ℕ) (h : u.length = v.length) :
    compare (u ++ x) (v ++ y) = (compare u v).then (compare x y) := by
  induction u generalizing v with
  | nil =>
      obtain rfl := List.length_eq_zero_iff.mp h.symm
      simp
  | cons i u ih =>
      cases v with
      | nil => simp at h
      | cons j v =>
          have hl : u.length = v.length := by simpa using h
          simp only [List.cons_append, List.compare_cons_cons, ih hl, Ordering.then_assoc]

/-- Addresses with equally many positions are compared from the document
down. -/
lemma orderLevel_eq {a b : Address} (h : a.length = b.length) :
    orderLevel a b = compare a.reverse b.reverse := by
  induction a generalizing b with
  | nil =>
      obtain rfl := List.length_eq_zero_iff.mp h.symm
      simp [orderLevel]
  | cons i a ih =>
      cases b with
      | nil => simp at h
      | cons j b =>
          have hl : a.length = b.length := by simpa using h
          have hr : a.reverse.length = b.reverse.length := by simpa using hl
          rw [orderLevel, ih hl, List.reverse_cons, List.reverse_cons,
            compare_append _ _ hr]
          simp

/-- Against the empty list only the length counts. -/
lemma compare_nil_right (x : List ℕ) : compare x [] = compare x.length 0 := by
  cases x with
  | nil => rfl
  | cons i x => simp [List.compare_cons_nil, Nat.compare_eq_gt.mpr]

/-- The comparison with a shorter list is settled on its length, and then by
the lengths. -/
lemma compare_reverse_of_le {a b : Address} (h : b.length ≤ a.length) :
    compare a.reverse b.reverse =
      (compare (a.drop (a.length - b.length)).reverse b.reverse).then
        (compare a.length b.length) := by
  have hl : (a.drop (a.length - b.length)).reverse.length = b.reverse.length := by
    simp only [List.length_reverse, List.length_drop]
    omega
  have hn : compare (a.take (a.length - b.length)).reverse [] = compare a.length b.length := by
    rw [compare_nil_right]
    simp only [List.length_reverse, List.length_take]
    rcases Nat.eq_or_lt_of_le h with h' | h'
    · simp [h']
    · rw [Nat.compare_eq_gt.mpr h', Nat.compare_eq_gt.mpr (by omega)]
  calc compare a.reverse b.reverse
      = compare ((a.drop (a.length - b.length)).reverse ++
          (a.take (a.length - b.length)).reverse) (b.reverse ++ []) := by
        rw [← List.reverse_append, List.take_append_drop, List.append_nil]
    _ = _ := by rw [compare_append _ _ hl, hn]

/-- Addresses are ordered as the ways down from the document. -/
lemma order_eq (a b : Address) : order a b = compare a.reverse b.reverse := by
  rw [order]
  rcases Nat.le_total b.length a.length with h | h
  · have hl : (a.drop (a.length - b.length)).length = b.length := by
      rw [List.length_drop]
      omega
    rw [compare_reverse_of_le h, ← orderLevel_eq hl, Nat.sub_eq_zero_of_le h, List.drop_zero]
  · have hl : a.length = (b.drop (b.length - a.length)).length := by
      rw [List.length_drop]
      omega
    rw [Std.OrientedOrd.eq_swap (a := a.reverse), compare_reverse_of_le h,
      Ordering.swap_then, ← Std.OrientedOrd.eq_swap, ← Std.OrientedOrd.eq_swap,
      ← orderLevel_eq hl, Nat.sub_eq_zero_of_le h, List.drop_zero]

/-- An address comes before those below it. -/
lemma order_append_lt {way : List ℕ} (a : Address) (h : way ≠ []) :
    order a (way ++ a) = .lt := by
  have hw : 0 < way.length := List.length_pos_iff.mpr h
  rw [order_eq, Std.OrientedOrd.eq_swap (a := a.reverse), compare_reverse_of_le (by simp)]
  simp [Nat.compare_eq_gt.mpr, hw]

/-- What is below an earlier child comes before what is below a later one. -/
lemma order_siblings_lt {v w : List ℕ} (a : Address) {i j : ℕ} (h : i < j) :
    order (v ++ i :: a) (w ++ j :: a) = .lt := by
  rw [order_eq]
  simp only [List.reverse_append, List.reverse_cons, List.append_assoc]
  rw [compare_append _ _ rfl]
  simp [List.compare_cons_cons, Nat.compare_eq_lt.mpr h]

end Address

/-! ### Places -/

namespace Place

/-- Places are ordered by address, rank and index. -/
lemma order_eq : order = compareLex (compareLex (compareOn fun p : Place => p.address.reverse)
    (compareOn rank)) (compareOn index) := by
  funext p q
  simp [order, Address.order_eq, compareLex, compareOn]

instance : Std.TransCmp order := by
  rw [order_eq]
  infer_instance

/-- No two places are level. -/
lemma order_eq_eq {p q : Place} : p.order q = .eq ↔ p = q := by
  constructor
  · intro h
    rw [order_eq] at h
    simp only [compareLex_eq_eq, compareOn, Std.LawfulEqOrd.compare_eq_iff_eq,
      List.reverse_inj] at h
    obtain ⟨⟨ha, hr⟩, hi⟩ := h
    cases p <;> cases q <;> simp_all [address, rank, index]
  · rintro rfl
    exact Std.ReflCmp.compare_self

/-- In document order, each place once. -/
def Sorted (ps : List Place) : Prop := ps.Pairwise fun p q => p.order q = .lt

instance : Std.Irrefl fun p q : Place => p.order q = .lt :=
  ⟨fun p h => by simp [order_eq_eq.mpr (rfl : p = p)] at h⟩

instance : Std.Antisymm fun p q : Place => p.order q = .lt :=
  ⟨fun p q h k => by
    have := Std.TransCmp.lt_trans h k
    simp [order_eq_eq.mpr (rfl : p = p)] at this⟩

@[simp]
lemma mem_insert {p q : Place} {ps : List Place} : q ∈ insert p ps ↔ q = p ∨ q ∈ ps := by
  induction ps with
  | nil => simp [insert]
  | cons r ps ih =>
      rw [insert]
      cases h : p.order r with
      | lt => simp
      | eq =>
          obtain rfl := order_eq_eq.mp h
          simp
      | gt =>
          simp only [List.mem_cons, ih]
          tauto

lemma sorted_insert {p : Place} {ps : List Place} (h : Sorted ps) : Sorted (insert p ps) := by
  induction ps with
  | nil => simp [insert, Sorted]
  | cons r ps ih =>
      obtain ⟨hr, hps⟩ := List.pairwise_cons.mp h
      rw [insert]
      cases hpr : p.order r with
      | lt =>
          refine List.pairwise_cons.mpr ⟨fun q hq => ?_, h⟩
          rcases List.mem_cons.mp hq with rfl | hq
          · exact hpr
          · exact Std.TransCmp.lt_trans hpr (hr q hq)
      | eq => exact h
      | gt =>
          refine List.pairwise_cons.mpr ⟨fun q hq => ?_, ih hps⟩
          rcases mem_insert.mp hq with rfl | hq
          · exact Std.OrientedCmp.lt_of_gt hpr
          · exact hr q hq

/-- The listing has the members of the list. -/
@[simp]
lemma mem_inOrder {p : Place} {ps : List Place} : p ∈ inOrder ps ↔ p ∈ ps := by
  induction ps with
  | nil => simp [inOrder]
  | cons q ps ih => simpa [inOrder] using or_congr_right ih

/-- The listing is in order. -/
lemma sorted_inOrder (ps : List Place) : Sorted (inOrder ps) := by
  induction ps with
  | nil => simp [inOrder, Sorted]
  | cons q ps ih => exact sorted_insert ih

/-- Lists in order with the same members are equal. -/
lemma Sorted.eq_of_mem_iff {ps qs : List Place} (hp : Sorted ps) (hq : Sorted qs)
    (h : ∀ p, p ∈ ps ↔ p ∈ qs) : ps = qs :=
  List.Pairwise.eq_of_mem_iff hp hq h

/-- **One listing**: the listing in order depends on the members alone. -/
theorem inOrder_congr {ps qs : List Place} (h : ∀ p, p ∈ ps ↔ p ∈ qs) :
    inOrder ps = inOrder qs :=
  (sorted_inOrder ps).eq_of_mem_iff (sorted_inOrder qs) (by simpa using h)

/-- A list in order is its own listing. -/
theorem inOrder_eq_self {ps : List Place} (h : Sorted ps) : inOrder ps = ps :=
  (sorted_inOrder ps).eq_of_mem_iff h (by simp)

@[simp]
lemma inOrder_nil : inOrder [] = [] := rfl

@[simp]
lemma inOrder_singleton (p : Place) : inOrder [p] = [p] := rfl

end Place

end Locator
