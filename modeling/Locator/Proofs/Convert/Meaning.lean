/-
The meaning of converted selectors

* `evaluate_toXPath_eq_query`: **converting keeps the meaning** of a selector: its path selects
  what a query for the selector finds;
* `evaluate_toXPath_ne_query`: not so with too many digits in a place, with too many tests in
  a compound, and without a root.
-/
import Locator.Proofs.Css.Bounds
import Locator.Proofs.Css.Canonical

namespace Locator.Css

open Text XPath

variable {gs : List Group} {s : Text} {d : Document}

/-- **Converting keeps the meaning** of a selector: its path selects from a document what a
query for the selector finds. -/
theorem evaluate_toXPath_eq_query (h : IsCommon gs s) (hread : IsAskable gs)
    (hw : d.IsWhole) {namespaces : List (Text × Text)}
    (hbound : checkNamespaces namespaces = .ok ()) :
    ∃ p ns, toXPath (.text s) = .ok p ∧
      evaluate p (.document d) namespaces = .ok (ns.map Node.place) ∧
        Lookup.query (.document d) s = .ok ns := by
  obtain ⟨r, hr, he, hu⟩ := hw.exists_root
  have hstart : StartsAt (.document d) ⟨d, [r]⟩ namespaces :=
    ⟨by simp [startNode, Document.root?, Document.rootAddress?, hr], hbound⟩
  obtain ⟨p, hp, hns⟩ := evaluate_toXPath (n := ⟨d, [r]⟩) hw hstart h
  exact ⟨p, _, hp, hns, query_eq h.toIsSelector hread hw⟩

/-- The second one of two children with the name that is asked for. -/
def nestedTwins : Document where
  key := 0
  content := [.element { base := ['r'] } [] []
    [.element { base := ['a'] } [] [⟨{ base := "class".toList }, "y x".toList⟩]
      [.element { base := ['b'] } [] [] [], .text ['t'], .element { base := ['b'] } [] [] []]]]

/-- The second child of an element with a class. -/
def secondChild : List Group :=
  [⟨⟨['a'], [.classToken ['x']]⟩, [⟨.child, ⟨['b'], [.nthOfType ['2']]⟩⟩]⟩]

/-- The path to the second child of an element with a class selects what the query finds. -/
theorem evaluate_toXPath_secondChild :
    (IsCommon secondChild (canonical secondChild) ∧ IsAskable secondChild ∧ nestedTwins.IsWhole ∧
      checkNamespaces [] = .ok ()) ∧
    ∃ p ns, toXPath (.text (canonical secondChild)) = .ok p ∧
      evaluate p (.document nestedTwins) [] = .ok (ns.map Node.place) ∧
        Lookup.query (.document nestedTwins) (canonical secondChild) = .ok ns := by
  have hcommon : IsCommon secondChild (canonical secondChild) :=
    { isSelector_canonical (List.cons_ne_nil _ _) (by decide) with raw := by decide }
  have hread : IsAskable secondChild := ⟨by decide, by decide⟩
  have hwhole : nestedTwins.IsWhole := by decide
  exact ⟨⟨hcommon, hread, hwhole, rfl⟩, evaluate_toXPath_eq_query hcommon hread hwhole rfl⟩

/-- A place with one digit more than can be read. -/
def manyDigits : List Group :=
  [⟨⟨['a'], [.nthOfType (List.replicate (maxDigits + 1) '1')]⟩, []⟩]

/-- A compound that asks for a class once more than can be read. -/
def manyTests : List Group :=
  [⟨⟨['a'], List.replicate (maxTests + 1) (.classToken ['x'])⟩, []⟩]

/-- A document without a root. -/
def rootless : Document where
  key := 0
  content := []

/-- **The path selects and the query fails**, if a place has too many digits or a compound too
many tests; without a root the path cannot be evaluated and the query finds nothing. -/
theorem evaluate_toXPath_ne_query :
    (IsCommon manyDigits (canonical manyDigits) ∧
      (∃ p ps, toXPath (.text (canonical manyDigits)) = .ok p ∧
        evaluate p (.document nestedTwins) [] = .ok ps) ∧
      ∃ e, Lookup.query (.document nestedTwins) (canonical manyDigits) = .error e) ∧
    (IsCommon manyTests (canonical manyTests) ∧
      (∃ p ps, toXPath (.text (canonical manyTests)) = .ok p ∧
        evaluate p (.document nestedTwins) [] = .ok ps) ∧
      ∃ e, Lookup.query (.document nestedTwins) (canonical manyTests) = .error e) ∧
    IsCommon secondChild (canonical secondChild) ∧
      (∃ p e, toXPath (.text (canonical secondChild)) = .ok p ∧
        evaluate p (.document rootless) [] = .error e) ∧
      Lookup.query (.document rootless) (canonical secondChild) = .ok [] := by
  have hwhole : nestedTwins.IsWhole := by decide
  have hstart : StartsAt (.document nestedTwins) ⟨nestedTwins, [0]⟩ [] := ⟨rfl, rfl⟩
  have hrootless : rootless.root? = none := rfl
  have hdigits : IsCommon manyDigits (canonical manyDigits) :=
    { isSelector_canonical (List.cons_ne_nil _ _) (by decide +kernel) with raw := by decide +kernel }
  have htests : IsCommon manyTests (canonical manyTests) :=
    { isSelector_canonical (List.cons_ne_nil _ _) (by decide +kernel) with raw := by decide +kernel }
  have hsecond : IsCommon secondChild (canonical secondChild) :=
    { isSelector_canonical (List.cons_ne_nil _ _) (by decide) with raw := by decide }
  obtain ⟨p, hp, hps⟩ := evaluate_toXPath hwhole hstart hdigits
  obtain ⟨p', hp', hps'⟩ := evaluate_toXPath hwhole hstart htests
  refine ⟨⟨hdigits, ⟨p, _, hp, hps⟩, ?_⟩, ⟨htests, ⟨p', _, hp', hps'⟩, ?_⟩, hsecond, ?_, ?_⟩
  · exact query_of_not_fits hdigits.toIsSelector (by decide +kernel) hwhole
  · exact ⟨_, query_of_deep htests.toIsSelector (by decide +kernel) rfl (by decide +kernel) hwhole⟩
  · exact ⟨_, _, toXPath_of_isCommon hsecond, (query_of_rootless hrootless [] _ []).2⟩
  · exact (query_of_rootless hrootless _ [] []).1

end Locator.Css
