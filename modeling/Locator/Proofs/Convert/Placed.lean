/-
Expressions with positions and their selectors

* `evaluate_toCss_placed`: **converting back an expression with positions**: each bracket of the
  expression counts what the ones in front of it have left, and the selector counts all siblings
  of the name; both select the same where positions stand in the first bracket of each step alone;
* `evaluate_ne_query_placed`: not so with a position in the second bracket.
-/
import Locator.Proofs.Convert.Sound

namespace Locator.XPath

open Text Css

variable {x : Text} {d : Document} {namespaces : List (Text × Text)}

/-- **Converting back an expression** whose paths start with two slashes, with positions in any
brackets: the expression selects what its brackets keep one behind the other, and the selector
chooses what fulfils all its tests at once. **They are the same elements if positions stand in the
first bracket of each step alone.** -/
theorem evaluate_toCss_placed {c : Text} (hx : isExpression x = .ok true)
    (hp : HasReadableWords x) (hb : ∀ b ∈ branches x, ['/', '/'] <+: b) (hc : toCss x = some c)
    (hcount : ∀ gs ∈ groupsOf x, ∀ g ∈ gs, ∀ c ∈ g.compounds, c.isCountable = true)
    (hw : d.IsWhole) (hn : checkNamespaces namespaces = .ok ()) :
    ∃ yss, pathsOf x = some yss ∧ IsFormed (yss.map groupOfPath) c ∧
      evaluate x (.document d) namespaces = .ok ((d.kept yss).map Node.place) ∧
      (IsAskable (yss.map groupOfPath) →
        Lookup.query (.document d) c = .ok (d.chosen (yss.map groupOfPath))) ∧
      ((∀ ys ∈ yss, ∀ y ∈ ys, ∀ ts ∈ y.brackets.tail, ∀ t ∈ ts, t.counts = false) →
        d.kept yss = d.chosen (yss.map groupOfPath)) := by
  obtain ⟨gs, hg, rfl⟩ := Option.map_eq_some_iff.mp ((toCss_eq_canonical x).symm.trans hc)
  obtain ⟨yss, hpaths, rfl⟩ := Option.map_eq_some_iff.mp ((groupsOf_eq x).symm.trans hg)
  obtain ⟨-, e, he⟩ := isExpression_iff.mp hx
  obtain ⟨hyss, heval⟩ := evaluate_of_pathsOf hpaths (hp.isOrdinary hx) hb he hw hn
  have hformed := isFormed_canonical (isRead_of_groupsOf hg).1
    (forall_compounds hyss fun y hy => hy.formed)
  exact ⟨yss, hpaths, hformed, heval,
    fun hask => query_eq_of_isFormed hformed (hcount _ hg) hask hw, kept_eq_chosen hyss⟩

/-- Three children of one name, of which the last two have an attribute. -/
def markedTwins : Document where
  key := 0
  content := [.element { base := ['r'] } [] []
    [.element { base := ['a'] } [] [] [],
      .element { base := ['a'] } [] [⟨{ base := ['x'] }, ['1']⟩] [],
      .element { base := ['a'] } [] [⟨{ base := ['x'] }, ['1']⟩] []]]

/-- Positions in the first brackets of two paths, among other conditions. -/
def placedFirst : Text := "//a[@x='1' and position()=2] | //r/a[ position() = 1 ]".toList

/-- With positions in the first brackets the expression selects what its selector chooses. -/
theorem evaluate_toCss_placedFirst :
    (isExpression placedFirst = .ok true ∧ HasReadableWords placedFirst ∧
      (∀ b ∈ branches placedFirst, ['/', '/'] <+: b) ∧
      toCss placedFirst =
        some "a[x=\x221\x22]:nth-of-type(2), r > a:nth-of-type(1)".toList ∧
      (∀ gs ∈ groupsOf placedFirst, ∀ g ∈ gs, ∀ c ∈ g.compounds, c.isCountable = true) ∧
      markedTwins.IsWhole ∧ checkNamespaces [] = .ok ()) ∧
    ∃ ns : List Node, evaluate placedFirst (.document markedTwins) [] = .ok (ns.map Node.place) ∧
      Lookup.query (.document markedTwins)
        "a[x=\x221\x22]:nth-of-type(2), r > a:nth-of-type(1)".toList = .ok ns := by
  have hx : isExpression placedFirst = .ok true := isExpression_iff.mpr
    ⟨by decide +kernel, Option.isSome_iff_exists.mp (by decide +kernel)⟩
  have hp : HasReadableWords placedFirst := hasReadableWords_iff.mpr (by decide +kernel)
  have hb : ∀ b ∈ branches placedFirst, ['/', '/'] <+: b := by decide +kernel
  have hc : toCss placedFirst =
      some "a[x=\x221\x22]:nth-of-type(2), r > a:nth-of-type(1)".toList := by decide +kernel
  have hcount : ∀ gs ∈ groupsOf placedFirst, ∀ g ∈ gs, ∀ c ∈ g.compounds,
      c.isCountable = true := by decide +kernel
  have hw : markedTwins.IsWhole := by decide
  have hpaths : pathsOf placedFirst = some
      [[⟨.descendant, ['a'], [[.compare ['x'] .equals ['1'], .nthOfType ['2']]]⟩],
        [⟨.descendant, ['r'], []⟩, ⟨.child, ['a'], [[.nthOfType ['1']]]⟩]] := by decide +kernel
  have hn : checkNamespaces [] = .ok () := rfl
  obtain ⟨yss, hyss, -, heval, hquery, hsame⟩ := evaluate_toCss_placed hx hp hb hc hcount hw hn
  obtain rfl := Option.some.inj (hpaths.symm.trans hyss)
  have hask := hquery ⟨by decide +kernel, by decide +kernel⟩
  rw [← hsame (by decide)] at hask
  exact ⟨⟨hx, hp, hb, hc, hcount, hw, hn⟩, _, heval, hask⟩

/-- A position in the bracket behind an attribute. -/
def placedSecond : Text := "//a[@x='1'][position()=2]".toList

/-- **A position behind another bracket**: the expression selects the second one of the children
with the attribute, and its selector finds the second child. -/
theorem evaluate_ne_query_placed :
    isExpression placedSecond = .ok true ∧ HasReadableWords placedSecond ∧
      (∀ b ∈ branches placedSecond, ['/', '/'] <+: b) ∧
      toCss placedSecond = some "a[x=\x221\x22]:nth-of-type(2)".toList ∧
      (∀ gs ∈ groupsOf placedSecond, ∀ g ∈ gs, ∀ c ∈ g.compounds, c.tag ≠ ['*']) ∧
      ∃ ns ms : List Node, evaluate placedSecond (.document markedTwins) [] = .ok (ns.map Node.place) ∧
        Lookup.query (.document markedTwins) "a[x=\x221\x22]:nth-of-type(2)".toList = .ok ms ∧
        ns.map Node.address = [[2, 0]] ∧ ms.map Node.address = [[1, 0]] := by
  have hx : isExpression placedSecond = .ok true := isExpression_iff.mpr
    ⟨by decide +kernel, Option.isSome_iff_exists.mp (by decide +kernel)⟩
  have hp : HasReadableWords placedSecond := hasReadableWords_iff.mpr (by decide +kernel)
  have hb : ∀ b ∈ branches placedSecond, ['/', '/'] <+: b := by decide +kernel
  have hw : markedTwins.IsWhole := by decide
  have hpaths : pathsOf placedSecond = some
      [[⟨.descendant, ['a'], [[.compare ['x'] .equals ['1']], [.nthOfType ['2']]]⟩]] := by
    decide +kernel
  have hgroups : groupsOf placedSecond = some
      [⟨⟨['a'], [.compare ['x'] .equals ['1'], .nthOfType ['2']]⟩, []⟩] := by decide +kernel
  have hn : checkNamespaces [] = .ok () := rfl
  obtain ⟨-, e, he⟩ := isExpression_iff.mp hx
  obtain ⟨-, heval⟩ := evaluate_of_pathsOf hpaths (hp.isOrdinary hx) hb he hw hn
  have hformed : IsFormed [⟨⟨['a'], [.compare ['x'] .equals ['1'], .nthOfType ['2']]⟩, []⟩]
      "a[x=\x221\x22]:nth-of-type(2)".toList :=
    isFormed_canonical (List.cons_ne_nil _ _) (by decide +kernel)
  have hquery := query_eq_of_isFormed hformed (by decide +kernel)
    ⟨by decide +kernel, by decide +kernel⟩ hw
  exact ⟨hx, hp, hb, by decide +kernel, by rw [hgroups]; decide, _, _, heval, hquery,
    by decide +kernel, by decide +kernel⟩

end Locator.XPath
