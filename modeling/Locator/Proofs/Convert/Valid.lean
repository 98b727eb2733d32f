/-
Selectors that are written and read

* `readAll_toCss_iff`: **the selector of an expression is read** exactly if it holds no line break;
* `toCss_brokenPath`: an expression with a line break in a literal has a selector that no query
  reads.
-/
import Locator.Proofs.Convert.RoundTrip
import Locator.Proofs.Convert.Read
import Locator.Proofs.Css.Broken
import Locator.Proofs.XPath.Evaluate

namespace Locator.XPath

open Text Css

variable {x c : Text}

lemma Compound.IsRead.isLegible {c : Compound} (h : Compound.IsRead c) : c.isLegible = true := by
  simp only [Compound.isLegible, Bool.and_eq_true, Bool.or_eq_true, beq_iff_eq, List.all_eq_true]
  exact ⟨h.tag, fun t ht => Test.isLegible_of_isStated (h.stated t ht)⟩

lemma Compound.IsRead.tag_ne_nil {c : Compound} (h : Compound.IsRead c) : c.tag ≠ [] := by
  rcases h.tag with htag | htag
  · simp [htag]
  · exact (isIdent_of_isWordName htag).ne_nil

/-- **The selector of an expression** is read exactly if it holds no line break. Names, places and
signs hold none, so that only the literals of the expression count. -/
theorem readAll_toCss_iff (h : toCss x = some c) :
    (∃ xs, Selector.readAll c = .ok xs) ↔ isUnbroken c = true := by
  obtain ⟨gs, hg, rfl⟩ := Option.map_eq_some_iff.mp ((toCss_eq_canonical x).symm.trans h)
  obtain ⟨hne, hread⟩ := isRead_of_groupsOf hg
  exact readAll_canonical_iff hne (fun g hg c hc => (hread g hg c hc).tag_ne_nil)
    fun g hg c hc => (hread g hg c hc).isLegible

/-- The selector of a path with marks and backslashes in its literals is read. -/
theorem readAll_toCss_marked :
    toCss "//a[@b='x\x22\\' and @c=\x22it's\x22]".toList =
        some "a[b=\x22x\\\x22\\\\\x22][c=\x22it's\x22]".toList ∧
      ((∃ xs, Selector.readAll "a[b=\x22x\\\x22\\\\\x22][c=\x22it's\x22]".toList = .ok xs) ↔
        isUnbroken "a[b=\x22x\\\x22\\\\\x22][c=\x22it's\x22]".toList = true) := by
  have h : toCss "//a[@b='x\x22\\' and @c=\x22it's\x22]".toList =
      some "a[b=\x22x\\\x22\\\\\x22][c=\x22it's\x22]".toList := by decide +kernel
  exact ⟨h, readAll_toCss_iff h⟩

/-- A path with a line break in a literal. -/
def brokenPath : Text := "//a[@b='x\ny']".toList

/-- The group of the path. -/
def brokenGroup : Group := ⟨⟨['a'], [.compare ['b'] .equals "x\ny".toList]⟩, []⟩

/-- **An expression with a line break in a literal**: it is well formed and has a selector, and the
selector is none that a query reads. -/
theorem toCss_brokenPath : isExpression brokenPath = .ok true ∧
    toCss brokenPath = some "a[b=\x22x\ny\x22]".toList ∧
      ∃ e, Selector.readAll "a[b=\x22x\ny\x22]".toList = .error e := by
  refine ⟨isExpression_iff.mpr ⟨by decide +kernel, Option.isSome_iff_exists.mp (by decide +kernel)⟩,
    by decide +kernel, ?_⟩
  have hwrites := writes_canonical (List.cons_ne_nil brokenGroup []) (by decide)
  have htext : canonical [brokenGroup] = "a[b=\x22x\ny\x22]".toList := by decide +kernel
  rw [← htext]
  exact readAll_of_isBroken (hwrites.isBroken (by decide) (by decide))

end Locator.XPath
