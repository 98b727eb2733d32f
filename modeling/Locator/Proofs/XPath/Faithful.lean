/-
Literals that say what they quote

* `isExpression_literal`, `isExpression_attributePath`: the literal of a text and the path by
  an attribute are expressions whatever the text holds;
* `evaluateElements_carries`: the path by an attribute selects the elements that carry the value;
* `faithful_literal`: **the literal of a text** is read as an expression whose value is the text,
  and the path by an attribute selects exactly the elements with the value, in document order.
-/
import Locator.Proofs.Uniqueness.Exact
import Locator.Proofs.XPath.Attribute

namespace Locator.XPath

open Text

variable {a v : Text} {d : Document} {namespaces : List (Text × Text)}

/-! ### Expressions -/

lemma read?_literal (v : Text) : Expr.read? (literal v) = some (literalExpr v) :=
  ((reads_literal v).lift le_rfl (Nat.zero_le _)).read? (by decide)

/-- Whatever a text holds, its literal is an expression. -/
lemma isExpression_literal (hv : isXmlText v) : isExpression (literal v) = .ok true :=
  isExpression_iff.mpr ⟨(isXmlText_literal v).trans hv, _, read?_literal v⟩

/-- Whatever a value holds, the path by an attribute is an expression. -/
lemma isExpression_attributePath (ha : IsName a) (hv : isXmlText v) :
    isExpression (attributePath a v) = .ok true :=
  isExpression_iff.mpr ⟨(isXmlText_attributePath ha v).trans hv, _, read?_attributePath ha v⟩

/-! ### Elements -/

/-- **The path by an attribute** selects the elements of a document that carry the value. -/
theorem evaluateElements_carries (hd : d.IsRegular) (hn : checkNamespaces namespaces = .ok ())
    (ha : IsName a) (hv : isXmlText v) :
    evaluateElements (attributePath a v) (.document d) namespaces =
      .ok (d.elements.filter (Node.carries a v)) := by
  obtain ⟨r, hroot, -⟩ := hd.whole.exists_root
  have hstart : startNode (.document d) = .ok ⟨d, [r]⟩ := by
    simp [startNode, Document.root?, Document.rootAddress?, hroot]
  rw [evaluateElements_attributePath (n := ⟨d, [r]⟩) hd.whole ⟨hstart, hn⟩ ha hv]
  refine congrArg _ (List.filter_congr fun m hm => ?_)
  obtain ⟨hdoc, hel⟩ := (Document.mem_elements hd.whole).mp hm
  have hlook := Node.lookUp_eq ha (Document.isElement_iff.mpr (hdoc ▸ hel))
  rw [Node.carries_iff (hdoc ▸ hd) hlook, hdoc]

/-- **Literals are faithful**, and no text gets out of one. The literal of a text is an expression
whose value is the text everywhere. In a path by an attribute it stands for that value alone: the
path is an expression, and selects exactly the elements with the value, in document order. -/
theorem faithful_literal (hv : isXmlText v) :
    (isExpression (literal v) = .ok true ∧ ∃ e, Expr.read? (literal v) = some e ∧
      ∀ env f, eval env e f = .ok (.text v)) ∧
    ∀ (d : Document) (a : Text) (namespaces : List (Text × Text)),
      d.IsRegular → IsName a → checkNamespaces namespaces = .ok () →
        isExpression (attributePath a v) = .ok true ∧
          evaluateElements (attributePath a v) (.document d) namespaces =
            .ok (d.elements.filter (Node.carries a v)) :=
  ⟨⟨isExpression_literal hv, literalExpr v, read?_literal v, fun _ _ => eval_literalExpr v⟩,
    fun _ _ _ hd ha hn =>
      ⟨isExpression_attributePath ha hv, evaluateElements_carries hd hn ha hv⟩⟩

/-- A value that would end the literal, the test and the path if it could. -/
def trickyValue : Text := "'\x22] | //*[@b!='\x22".toList

/-- Two elements, one of which has the value. -/
def trickyDocument : Document :=
  { key := 0
    content := [.element { base := ['r'] } [] []
      [.element { base := ['p'] } [] [⟨{ base := ['b'] }, trickyValue⟩] [],
        .element { base := ['p'] } [] [⟨{ base := ['b'] }, "'\x22".toList⟩] []]] }

/-- The value stays in its literal: the path selects the one element that has it. -/
theorem faithful_trickyValue :
    isXmlText trickyValue ∧ trickyDocument.IsRegular ∧ IsName ['b'] ∧
      checkNamespaces [] = .ok () ∧
      evaluateElements (attributePath ['b'] trickyValue) (.document trickyDocument) [] =
        .ok [⟨trickyDocument, [0, 0]⟩] := by
  have hv : isXmlText trickyValue := by decide
  have hd : trickyDocument.IsRegular := by decide
  have ha : IsName ['b'] := isPathName_iff.mp (by decide)
  have hfound := ((faithful_literal hv).2 trickyDocument ['b'] [] hd ha rfl).2
  exact ⟨hv, hd, ha, rfl, hfound.trans rfl⟩

end Locator.XPath
