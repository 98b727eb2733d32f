/-
Pieces and their addresses

* `Markup.located_below`, `Markup.locatedFrom_below`: a listed piece lies at or
  below the address where the listing starts;
* `Document.mem_pieces`, `Document.mem_piecesBelow`: the listings hold exactly
  the pieces of the document, and those below an address;
* `Markup.InOrder`, `Markup.inOrder_located`: pieces are listed in document order;
* `Document.isElement_of_get?`: only elements hold pieces.
-/
import Locator.Proofs.Document.Order

namespace Locator

/-- What stands first from a position on, and what stands behind it. -/
lemma List.of_drop_eq_cons {α : Type*} {l xs : List α} {x : α} {i : ℕ}
    (h : l.drop i = x :: xs) : l[i]? = some x ∧ l.drop (i + 1) = xs := by
  constructor
  · rw [← Nat.add_zero i, ← List.getElem?_drop, h]
    rfl
  · rw [← List.tail_drop, h, List.tail_cons]

/-! ### Listings of a tree -/

namespace Markup

mutual

/-- What is listed from a piece lies at its address or below. -/
lemma located_below (a : Address) : ∀ (m : Markup) {p : Address × Markup},
    p ∈ m.located a → ∃ way, p.1 = way ++ a
  | .element n bs as cs, p, h => by
      rcases List.mem_cons.mp h with rfl | h
      · exact ⟨[], rfl⟩
      · obtain ⟨j, way, -, hp⟩ := locatedFrom_below a 0 cs h
        exact ⟨way ++ [j], by simp [hp]⟩
  | .text s, p, h => ⟨[], by simp_all [located]⟩
  | .comment s, p, h => ⟨[], by simp_all [located]⟩
  | .instruction t s, p, h => ⟨[], by simp_all [located]⟩

/-- What is listed from position `i` on lies at or below such a position. -/
lemma locatedFrom_below (a : Address) (i : ℕ) : ∀ (ms : List Markup) {p : Address × Markup},
    p ∈ locatedFrom a i ms → ∃ j way, i ≤ j ∧ p.1 = way ++ j :: a
  | [], p, h => by simp [locatedFrom] at h
  | m :: ms, p, h => by
      rcases List.mem_append.mp h with h | h
      · obtain ⟨way, hp⟩ := located_below (i :: a) m h
        exact ⟨i, way, le_rfl, hp⟩
      · obtain ⟨j, way, hj, hp⟩ := locatedFrom_below a (i + 1) ms h
        exact ⟨j, way, by omega, hp⟩

end

/-- Addresses in document order. -/
def InOrder (ps : List (Address × Markup)) : Prop :=
  ps.Pairwise fun p q => p.1.order q.1 = .lt

mutual

/-- A piece and what it holds are listed in document order. -/
lemma inOrder_located (a : Address) : ∀ m : Markup, InOrder (m.located a)
  | .element n bs as cs => by
      refine List.pairwise_cons.mpr ⟨fun p hp => ?_, inOrder_locatedFrom a 0 cs⟩
      obtain ⟨j, way, -, h⟩ := locatedFrom_below a 0 cs hp
      rw [h, ← List.singleton_append, ← List.append_assoc]
      exact Address.order_append_lt a (by simp)
  | .text s => by simp [located, InOrder]
  | .comment s => by simp [located, InOrder]
  | .instruction t s => by simp [located, InOrder]

/-- The pieces below an address are listed in document order. -/
lemma inOrder_locatedFrom (a : Address) (i : ℕ) : ∀ ms : List Markup,
    InOrder (locatedFrom a i ms)
  | [] => by simp [locatedFrom, InOrder]
  | m :: ms => by
      refine List.pairwise_append.mpr
        ⟨inOrder_located (i :: a) m, inOrder_locatedFrom a (i + 1) ms, fun p hp q hq => ?_⟩
      obtain ⟨v, hv⟩ := located_below (i :: a) m hp
      obtain ⟨j, w, hj, hw⟩ := locatedFrom_below a (i + 1) ms hq
      rw [hv, hw]
      exact Address.order_siblings_lt a (by omega)

end

/-- Only elements hold pieces. -/
lemma isElement_of_children_ne_nil {m : Markup} (h : m.children ≠ []) : m.isElement := by
  cases m <;> simp_all [children, isElement, name?]

end Markup

/-! ### Listings of a document -/

namespace Document

variable {d : Document} {a b : Address} {m : Markup} {i : ℕ}

@[simp]
lemma get?_nil : d.get? [] = none := rfl

lemma get?_cons : d.get? (i :: a) = (d.childrenAt a)[i]? := rfl

/-- The pieces directly below an address are the children of the piece
there. -/
lemma childrenAt_of_get? (h : d.get? a = some m) : d.childrenAt a = m.children := by
  cases a with
  | nil => simp at h
  | cons i a => rw [childrenAt, ← get?_cons, h]

/-- Nothing is below an address without a piece. -/
lemma childrenAt_of_get?_eq_none (ha : a ≠ []) (h : d.get? a = none) :
    d.childrenAt a = [] := by
  cases a with
  | nil => exact absurd rfl ha
  | cons i a => rw [childrenAt, ← get?_cons, h]

/-- What is below a piece is below an element. -/
lemma isElement_of_get? (ha : a ≠ []) (h : d.get? (i :: a) = some m) :
    ∃ e, d.get? a = some e ∧ e.isElement := by
  cases he : d.get? a with
  | none => simp [get?_cons, childrenAt_of_get?_eq_none ha he] at h
  | some e =>
      refine ⟨e, rfl, Markup.isElement_of_children_ne_nil fun hc => ?_⟩
      simp [get?_cons, childrenAt_of_get? he, hc] at h

/-- A piece at the end of a way down has pieces all along the way. -/
lemma get?_append_eq_none (ha : a ≠ []) (h : d.get? a = none) (way : List ℕ) :
    d.get? (way ++ a) = none := by
  induction way with
  | nil => exact h
  | cons i way ih =>
      rw [List.cons_append, get?_cons, childrenAt_of_get?_eq_none (by simp [ha]) ih]
      rfl

/-- A piece without children is listed alone. -/
lemma mem_located_leaf (h : d.get? a = some m) (hl : m.located a = [(a, m)])
    (hc : m.children = []) (p : Address × Markup) :
    p ∈ m.located a ↔ ∃ way, p.1 = way ++ a ∧ d.get? p.1 = some p.2 := by
  obtain ⟨b, n⟩ := p
  simp only [hl, List.mem_singleton, Prod.mk.injEq]
  constructor
  · rintro ⟨rfl, rfl⟩
    exact ⟨[], rfl, h⟩
  · rintro ⟨way, rfl, hg⟩
    rcases List.eq_nil_or_concat way with rfl | ⟨way, j, rfl⟩
    · simp_all
    · have ha : j :: a ≠ [] := by simp
      have hn : d.get? (j :: a) = none := by simp [get?_cons, childrenAt_of_get? h, hc]
      rw [List.concat_eq_append, List.append_assoc, List.singleton_append,
        get?_append_eq_none ha hn] at hg
      simp at hg

mutual

/-- The listing from a piece holds exactly the pieces at and below its
address. -/
lemma mem_located (d : Document) : ∀ (m : Markup) (a : Address), d.get? a = some m →
    ∀ p : Address × Markup, p ∈ m.located a ↔ ∃ way, p.1 = way ++ a ∧ d.get? p.1 = some p.2
  | .element n bs as cs, a, h, p => by
      have hc : (d.childrenAt a).drop 0 = cs := by simp [childrenAt_of_get? h, Markup.children]
      rw [Markup.located, List.mem_cons, mem_locatedFrom d cs a 0 hc p]
      constructor
      · rintro (rfl | ⟨j, way, -, hp, hg⟩)
        · exact ⟨[], rfl, h⟩
        · exact ⟨way ++ [j], by simp [hp], hg⟩
      · rintro ⟨way, hp, hg⟩
        rcases List.eq_nil_or_concat way with rfl | ⟨way, j, rfl⟩
        · left
          obtain ⟨b, m⟩ := p
          obtain rfl : b = a := hp
          simp_all
        · exact .inr ⟨j, way, Nat.zero_le j, by simpa using hp, hg⟩
  | .text s, a, h, p => mem_located_leaf h rfl rfl p
  | .comment s, a, h, p => mem_located_leaf h rfl rfl p
  | .instruction t s, a, h, p => mem_located_leaf h rfl rfl p

/-- The listing from a position on holds exactly the pieces at and below the
positions from there on. -/
lemma mem_locatedFrom (d : Document) : ∀ (ms : List Markup) (a : Address) (i : ℕ),
    (d.childrenAt a).drop i = ms → ∀ p : Address × Markup,
      p ∈ Markup.locatedFrom a i ms ↔
        ∃ j way, i ≤ j ∧ p.1 = way ++ j :: a ∧ d.get? p.1 = some p.2
  | [], a, i, h, p => by
      simp only [Markup.locatedFrom, List.not_mem_nil, false_iff]
      rintro ⟨j, way, hj, hp, hg⟩
      have hn : d.get? (j :: a) = none := by
        rw [get?_cons, List.getElem?_eq_none]
        exact le_trans (List.drop_eq_nil_iff.mp h) hj
      rw [hp, get?_append_eq_none (by simp) hn way] at hg
      simp at hg
  | m :: ms, a, i, h, p => by
      obtain ⟨hm, hms⟩ := List.of_drop_eq_cons h
      rw [← get?_cons] at hm
      rw [Markup.locatedFrom, List.mem_append, mem_located d m (i :: a) hm p,
        mem_locatedFrom d ms a (i + 1) hms p]
      constructor
      · rintro (⟨way, hp⟩ | ⟨j, way, hj, hp⟩)
        · exact ⟨i, way, le_rfl, hp⟩
        · exact ⟨j, way, by omega, hp⟩
      · rintro ⟨j, way, hj, hp⟩
        rcases Nat.eq_or_lt_of_le hj with rfl | hj
        · exact .inl ⟨way, hp⟩
        · exact .inr ⟨j, way, hj, hp⟩

end

/-- **All pieces**: a document lists the pieces at its addresses. -/
theorem mem_pieces {p : Address × Markup} : p ∈ d.pieces ↔ d.get? p.1 = some p.2 := by
  rw [pieces, mem_locatedFrom d d.content [] 0 rfl p]
  constructor
  · rintro ⟨j, way, -, -, h⟩
    exact h
  · intro h
    rcases List.eq_nil_or_concat p.1 with hp | ⟨way, j, hp⟩
    · simp [hp] at h
    · exact ⟨j, way, Nat.zero_le j, by simpa using hp, h⟩

/-- The pieces below an address are those at longer addresses. -/
theorem mem_piecesBelow {p : Address × Markup} :
    p ∈ d.piecesBelow a ↔ ∃ way, way ≠ [] ∧ p.1 = way ++ a ∧ d.get? p.1 = some p.2 := by
  rw [piecesBelow, mem_locatedFrom d (d.childrenAt a) a 0 rfl p]
  constructor
  · rintro ⟨j, way, -, hp, h⟩
    exact ⟨way ++ [j], by simp, by simpa using hp, h⟩
  · rintro ⟨way, hw, hp, h⟩
    obtain ⟨v, j, rfl⟩ := (List.eq_nil_or_concat way).resolve_left hw
    exact ⟨j, v, Nat.zero_le j, by simpa using hp, h⟩

end Document

end Locator
