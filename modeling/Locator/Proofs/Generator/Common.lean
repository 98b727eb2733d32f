/-
The element around several, and its path

* `Thing.isElement_of_containing?`: what contains a boundary is an element;
* `Range.commonAncestor_clone`: a copy of a range has the same element around its ends;
* `Generator.not_isOutside_of_isLowest`: a root around several elements is around the deepest
  element around them;
* `Generator.path_of_commonAncestor`: **the element around several** is the deepest one, its
  path is not refused where the root is around all of them, and it is the one that is told of a
  selection.
-/
import Locator.Proofs.Document.Family
import Locator.Proofs.Generator.Refusal
import Locator.Proofs.Range.Text

namespace Locator

/-! ### The element around the ends of a range -/

namespace Thing

/-- What contains a boundary is an element. -/
lemma isElement_of_containing? {t : Thing} {n : Node} (h : t.containing? = some n) :
    n.isElement := by
  cases t with
  | document d => exact (Context.isElement_of_element? (c := .document d) h).2
  | node k =>
      rw [containing?] at h
      split_ifs at h with hk
      · exact Option.some.inj h ▸ hk
      · exact (Node.of_parentElement? h).1
  | text k isTail =>
      simp only [containing?] at h
      split_ifs at h with hk
      · exact (Node.of_parentElement? h).1
      · exact Option.some.inj h ▸ (by simpa using hk)
  | fragment items =>
      obtain ⟨t, -, ht⟩ := List.exists_of_findSome?_eq_some h
      exact (element?_eq_some_iff.mp ht).2
  | _ => simp [containing?] at h

end Thing

namespace Range

variable {r : Range}

/-- The elements that contain the ends of a range, taken as things, are these elements. -/
lemma filterMap_holders : (r.holders.map Thing.node).filterMap Thing.element? = r.holders := by
  have hall : ∀ n ∈ r.holders, n.isElement := by
    intro n hn
    obtain ⟨t, -, ht⟩ := List.mem_filterMap.mp hn
    exact Thing.isElement_of_containing? ht
  rw [List.filterMap_map]
  refine (List.filterMap_congr fun n hn => ?_).trans List.filterMap_some
  simp [Thing.element?, hall n hn]

/-- A copy of a range has the same element around its ends. -/
lemma commonAncestor_clone : r.clone.commonAncestor = r.commonAncestor := by
  rw [clone]
  split_ifs with h
  · -- an end that is nothing is settled at the start
    have hstop : r.stop.container.containing? = none := by
      cases hc : r.stop.container <;> simp_all [Thing.isNothing, Thing.containing?]
    cases hstart : r.start.container.containing? with
    | none => simp [commonAncestor, holders, hstart, hstop]
    | some n => simp [commonAncestor, holders, hstart, hstop, Node.commonAncestor]
  · rfl

end Range

/-! ### Its path -/

namespace Generator

open Node

variable {g : Generator} {o : Option Options} {nodes : List Node} {n c : Node}

/-- The root that stands around elements is around the deepest element around them. -/
lemma not_isOutside_of_isLowest (hr : AreRelatives nodes)
    (hc : c.IsLowestCommonAncestor nodes)
    (hroot : ∀ k ∈ nodes, ∃ root, effectiveRoot? (g.chosenRoot o) k = some root ∧
      root ∈ k.ancestors) : ¬ g.IsOutside o c := by
  -- the root is the same for all elements of the document
  have hsame : ∀ k ∈ nodes,
      effectiveRoot? (g.chosenRoot o) k = effectiveRoot? (g.chosenRoot o) c := by
    intro k hk
    simp only [effectiveRoot?, hc.common.document_eq hr hk]
  rintro ⟨root, heq, hout⟩
  have hcommon : root.IsCommonAncestor nodes := by
    intro k hk
    obtain ⟨top, htop, hmem⟩ := hroot k hk
    obtain rfl : root = top := Option.some.inj (heq.symm.trans ((hsame k hk).symm.trans htop))
    exact hmem
  have hself := hout root (hc.lowest root hcommon)
  simp [Node.same] at hself

/-- The path around several elements is refused where that of the element around them is. -/
lemma of_failsItself_commonPath {things : List Thing} {hs : List Heuristic} {e : Failure}
    (h : (g.commonPath things o).FailsItself hs e) :
    ∃ c, commonAncestor (things.filterMap Thing.element?) = some c ∧
      (g.pathOf (.node c) o).FailsItself hs e := by
  rw [commonPath] at h
  cases hc : commonAncestor (things.filterMap Thing.element?) with
  | none =>
      rw [hc] at h
      simpa using h.outcome
  | some c =>
      simp only [hc] at h
      rcases h.of_bind with h | ⟨path, -, h⟩
      · exact ⟨c, rfl, h⟩
      · simp at h

/-- What is told of a selection is the path of the element around the ends of its first
range. -/
lemma common_of_describe {first : Range} {rest : List Range} {p : SelectionPaths}
    (h : (g.describe (some ⟨first :: rest⟩) o).outcome = .ok p) :
    match first.commonAncestor with
    | none => p.common = none
    | some n => ∃ path, (g.pathOf (.node n) o).outcome = .ok path ∧ p.common = some path := by
  simp only [describe, Option.map_some, Option.getD_some, Traced.outcome_bind] at h
  obtain ⟨start, -, h⟩ := bind_eq_ok.mp h
  obtain ⟨stop, -, h⟩ := bind_eq_ok.mp h
  obtain ⟨common, hcommon, h⟩ := bind_eq_ok.mp h
  obtain rfl := Except.ok.inj h
  have haround : commonAncestor ((first.clone.holders.map Thing.node).filterMap Thing.element?) =
      first.commonAncestor := by
    rw [Range.filterMap_holders]
    exact Range.commonAncestor_clone
  rw [commonPath, haround] at hcommon
  cases hn : first.commonAncestor with
  | none =>
      rw [hn] at hcommon
      exact (Except.ok.inj hcommon).symm
  | some n =>
      simp only [hn, Traced.outcome_bind] at hcommon
      obtain ⟨path, hpath, hcommon⟩ := bind_eq_ok.mp hcommon
      exact ⟨path, hpath, (Except.ok.inj hcommon).symm⟩

/-- **The element around several.** The nearest common ancestor of elements of one document is
the deepest one, all others being around it, and there is none only between documents; neither
the order nor the repetition of the elements counts. Its path is not refused as that of an
element outside the root if the root is around every given element, and the path that is told
of a selection is that of the nearest common ancestor of its first range. -/
theorem path_of_commonAncestor (hr : AreRelatives nodes) (hne : nodes ≠ []) :
    ((∀ n ∈ nodes, ∀ m ∈ nodes, n.document = m.document) →
      ∃ c, commonAncestor nodes = some c ∧ c.IsLowestCommonAncestor nodes) ∧
    (commonAncestor nodes = none ↔ ¬ ∀ n ∈ nodes, ∀ m ∈ nodes, n.document = m.document) ∧
    (∀ others, (∀ n, n ∈ others ↔ n ∈ nodes) → commonAncestor others = commonAncestor nodes) ∧
    (∀ (g : Generator) things o, things.filterMap Thing.element? = nodes →
      (∀ n ∈ nodes, ∃ root, effectiveRoot? (g.chosenRoot o) n = some root ∧
        root ∈ n.ancestors) →
      ¬ (g.commonPath things o).FailsItself g.registry.heuristics .outsideRoot) ∧
    ∀ (g : Generator) first rest o p,
      (g.describe (some ⟨first :: rest⟩) o).outcome = .ok p →
        match first.commonAncestor with
        | none => p.common = none
        | some n => ∃ path, (g.pathOf (.node n) o).outcome = .ok path ∧
            p.common = some path := by
  refine ⟨fun hd => ?_, commonAncestor_eq_none_iff hr hne,
    fun others h => commonAncestor_congr hr h, fun g things o hthings hroot h => ?_,
    fun g first rest o p h => common_of_describe h⟩
  · cases hc : commonAncestor nodes with
    | none => exact absurd hd ((commonAncestor_eq_none_iff hr hne).mp hc)
    | some c => exact ⟨c, rfl, (commonAncestor_eq_some_iff hr hne).mp hc⟩
  · obtain ⟨c, hc, hfails⟩ := of_failsItself_commonPath h
    rw [hthings] at hc
    have hlowest := (commonAncestor_eq_some_iff hr hne).mp hc
    obtain ⟨n, hn⟩ := List.exists_mem_of_ne_nil nodes hne
    have hel := ((mem_ancestors (hr.isElement n hn)).mp (hlowest.common n hn)).2.1
    obtain ⟨k, hk, hout⟩ := isChecked_pathOf.outsideRoot.mp hfails
    obtain rfl : c = k := by simpa [Thing.element?, hel] using hk
    exact not_isOutside_of_isLowest hr hlowest hroot hout

/-- An element with two children that have two children and none. -/
def branched : Document where
  key := 0
  content := [.element { base := ['r'] } [] []
    [.element { base := ['a'] } [] []
        [.element { base := ['b'] } [] [] [], .element { base := ['c'] } [] [] []],
      .element { base := ['d'] } [] [] []]]

/-- The element around the two inner children is the one that holds them, and not the root. -/
theorem commonAncestor_branched :
    AreRelatives [⟨branched, [1, 0, 0]⟩, ⟨branched, [0, 0, 0]⟩] ∧
      commonAncestor [⟨branched, [1, 0, 0]⟩, ⟨branched, [0, 0, 0]⟩] = some ⟨branched, [0, 0]⟩ ∧
      IsLowestCommonAncestor ⟨branched, [0, 0]⟩
        [⟨branched, [1, 0, 0]⟩, ⟨branched, [0, 0, 0]⟩] := by
  have hr : AreRelatives [⟨branched, [1, 0, 0]⟩, ⟨branched, [0, 0, 0]⟩] := by
    refine ⟨?_, ?_, ?_⟩ <;> simp only [List.forall_mem_cons, List.not_mem_nil, false_imp_iff,
      implies_true, and_true]
    · exact ⟨rfl, rfl⟩
    · exact ⟨by decide, by decide⟩
  obtain ⟨c, hc, hlowest⟩ := (path_of_commonAncestor hr (by simp)).1 (by simp)
  have hfound : commonAncestor [⟨branched, [1, 0, 0]⟩, ⟨branched, [0, 0, 0]⟩] =
      some ⟨branched, [0, 0]⟩ := rfl
  obtain rfl : ⟨branched, [0, 0]⟩ = c := Option.some.inj (hfound.symm.trans hc)
  exact ⟨hr, hc, hlowest⟩

end Generator

end Locator
