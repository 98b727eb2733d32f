/-
Converted selectors that ask for nothing

* `evaluate_toXPath_loose`: **the path of a selector** selects what it chooses in the looser
  reading, and a query for it leaves out the groups with a comparison that asks for nothing;
* `evaluate_toXPath_ne_query_void`: **a comparison that asks for nothing** makes a difference,
  whichever it is.
-/
import Locator.Proofs.Convert.Meaning

namespace Locator.Css

open Text XPath

variable {gs : List Group} {s : Text} {d : Document}

/-- **A selector that need not ask for anything**: its path selects what its groups choose in the
looser reading. A query finds what they choose strictly, which is what the looser reading has
for the groups that ask for something everywhere. -/
theorem evaluate_toXPath_loose (h : IsShared gs s)
    (hcount : ∀ g ∈ gs, ∀ c ∈ g.compounds, c.isCountable = true) (hread : IsAskable gs)
    (hw : d.IsWhole) {namespaces : List (Text × Text)}
    (hbound : checkNamespaces namespaces = .ok ()) :
    ∃ p, toXPath (.text s) = .ok p ∧
      evaluate p (.document d) namespaces = .ok ((d.admitted gs).map Node.place) ∧
      Lookup.query (.document d) s = .ok (d.chosen gs) ∧
      d.chosen gs = d.admitted (gs.filter Group.takes) := by
  obtain ⟨r, hstart⟩ := exists_startsAt hw hbound
  obtain ⟨p, hp, hns⟩ := evaluate_toXPath_admitted hw hstart h
  exact ⟨p, hp, hns, query_eq_of_isFormed h.toIsFormed hcount hread hw,
    Document.chosen_eq_admitted h.formed⟩

/-- A selector with a group that asks for nothing and one that asks for something. -/
def halfVoid : List Group :=
  [⟨⟨['*'], [.compare "class".toList .startsWith []]⟩, []⟩,
    ⟨⟨['a'], [.compare "class".toList .hasWord ['y']]⟩, [⟨.child, ⟨['b'], []⟩⟩]⟩]

/-- The query finds what the path of the second group selects. -/
theorem evaluate_toXPath_halfVoid :
    (IsShared halfVoid (canonical halfVoid) ∧
      (∀ g ∈ halfVoid, ∀ c ∈ g.compounds, c.isCountable = true) ∧ IsAskable halfVoid ∧
      nestedTwins.IsWhole ∧ checkNamespaces [] = .ok ()) ∧
    ∃ p, toXPath (.text (canonical halfVoid)) = .ok p ∧
      evaluate p (.document nestedTwins) [] =
        .ok ((nestedTwins.admitted halfVoid).map Node.place) ∧
      Lookup.query (.document nestedTwins) (canonical halfVoid) =
        .ok (nestedTwins.chosen halfVoid) ∧
      nestedTwins.chosen halfVoid = nestedTwins.admitted (halfVoid.filter Group.takes) := by
  have hshared : IsShared halfVoid (canonical halfVoid) :=
    { isFormed_canonical (List.cons_ne_nil _ _) (by decide) with raw := by decide }
  have hcount : ∀ g ∈ halfVoid, ∀ c ∈ g.compounds, c.isCountable = true := by decide
  have hread : IsAskable halfVoid := ⟨by decide, by decide⟩
  have hw : nestedTwins.IsWhole := by decide
  have hbound : checkNamespaces [] = .ok () := rfl
  exact ⟨⟨hshared, hcount, hread, hw, hbound⟩,
    evaluate_toXPath_loose hshared hcount hread hw hbound⟩

/-- Selectors with one comparison that asks for nothing: with the empty value, and for a word with
a blank in it. -/
def voidSelectors : List Group :=
  [(.startsWith, []), (.endsWith, []), (.contains, []), (.hasWord, []), (.hasWord, "y x".toList)].map
    fun x : Comparison × Text => ⟨⟨['*'], [.compare "class".toList x.1 x.2]⟩, []⟩

/-- **A comparison that asks for nothing**: no element fulfils it, and the query finds none, but the
path selects some. -/
theorem evaluate_toXPath_ne_query_void : nestedTwins.IsWhole ∧ ∀ g ∈ voidSelectors,
    IsShared [g] (canonical [g]) ∧ (∀ c ∈ g.compounds, ∃ t ∈ c.tests, t.takes = false) ∧
      ∃ p, ∃ ns : List Node, toXPath (.text (canonical [g])) = .ok p ∧
        evaluate p (.document nestedTwins) [] = .ok (ns.map Node.place) ∧ ns ≠ [] ∧
        Lookup.query (.document nestedTwins) (canonical [g]) = .ok [] := by
  have hformed : ∀ g ∈ voidSelectors, ∀ g' ∈ [g], ∀ c ∈ g'.compounds, c.isFormed = true := by decide
  have hraw : ∀ g ∈ voidSelectors, ∀ g' ∈ [g], ∀ c ∈ g'.compounds, ∀ t ∈ c.tests,
      '"' ∉ t.value ∧ '[' ∉ t.value ∧ ']' ∉ t.value := by decide
  have hcount : ∀ g ∈ voidSelectors, ∀ g' ∈ [g], ∀ c ∈ g'.compounds, c.isCountable = true := by decide
  have hread : ∀ g ∈ voidSelectors, IsAskable [g] := fun g hg =>
    ⟨(by decide : ∀ g ∈ voidSelectors, ∀ g' ∈ [g], ∀ c ∈ g'.compounds, ∀ t ∈ c.tests, t.Fits) g hg,
      (by decide : ∀ g ∈ voidSelectors, ∀ g' ∈ [g], ∀ c ∈ g'.compounds,
        c.tests.length ≤ maxTests) g hg⟩
  have hvoid : ∀ g ∈ voidSelectors, ∀ c ∈ g.compounds, ∃ t ∈ c.tests, t.takes = false := by decide
  have hsome : ∀ g ∈ voidSelectors, nestedTwins.admitted [g] ≠ [] := by decide +kernel
  have hnone : ∀ g ∈ voidSelectors, nestedTwins.chosen [g] = [] := by decide +kernel
  have hw : nestedTwins.IsWhole := by decide
  have hstart : StartsAt (.document nestedTwins) ⟨nestedTwins, [0]⟩ [] := ⟨rfl, rfl⟩
  refine ⟨hw, fun g hg => ?_⟩
  have hshared : IsShared [g] (canonical [g]) :=
    { isFormed_canonical (List.cons_ne_nil _ _) (hformed g hg) with raw := hraw g hg }
  obtain ⟨p, hp, hns⟩ := evaluate_toXPath_admitted hw hstart hshared
  have hquery := query_eq_of_isFormed hshared.toIsFormed (hcount g hg) (hread g hg) hw
  rw [hnone g hg] at hquery
  exact ⟨hshared, hvoid g hg, p, _, hp, hns, hsome g hg, hquery⟩

end Locator.Css
