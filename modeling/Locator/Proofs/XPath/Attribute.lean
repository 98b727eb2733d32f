/-
Paths by attributes

* `isXmlText_literal`, `isXmlText_squeeze`: a literal and a shortened text hold
  XML characters alone if the text does;
* `reads_attributePath_test`: the path by a test of attributes as an expression;
* `evaluateElements_attributePath`, `firstElement_attributePath`: **the path by an
  attribute** selects the elements that have the value, and finds the first of them.
-/
import Locator.Proofs.Document.Xml
import Locator.Proofs.XPath.Condition
import Locator.Proofs.XPath.Evaluate
import Locator.Proofs.XPath.Normal
import Locator.Proofs.XPath.Path

namespace Locator.XPath

open Text

variable {a v : Text} {c : Context} {n : Node} {d : Document} {namespaces : List (Text × Text)}

/-! ### The texts of literals -/

lemma isXmlText_join {sep : Text} (h : isXmlText sep) (ss : List Text) :
    isXmlText (join sep ss) = ss.all isXmlText := by
  induction ss with
  | nil => rfl
  | cons s ss ih =>
      cases ss with
      | nil => simp
      | cons t ss =>
          rw [join_cons_cons, isXmlText_append, isXmlText_append, ih, h, Bool.and_true]
          rfl

lemma isXmlText_inDouble (v : Text) : isXmlText (inDouble v) = isXmlText v := by
  have hq : isXmlText ['"'] = true := rfl
  change isXmlText (['"'] ++ (v ++ ['"'])) = _
  rw [isXmlText_append, isXmlText_append, hq, Bool.true_and, Bool.and_true]

lemma isXmlText_inSingle (v : Text) : isXmlText (inSingle v) = isXmlText v := by
  have hq : isXmlText ['\''] = true := rfl
  change isXmlText (['\''] ++ (v ++ ['\''])) = _
  rw [isXmlText_append, isXmlText_append, hq, Bool.true_and, Bool.and_true]

/-- The arguments that put a text together hold its pieces and marks. -/
lemma all_isXmlText_concatArguments (parts : List Text) :
    (concatArguments parts).all isXmlText = parts.all isXmlText := by
  have hmark : isXmlText (inSingle ['"']) = true := rfl
  induction parts with
  | nil => rfl
  | cons s ss ih =>
      cases ss with
      | nil => simp [concatArguments, isXmlText_inDouble]
      | cons t ss =>
          simp only [concatArguments, List.map_cons, List.intersperse_cons_cons, List.all_cons]
            at ih ⊢
          rw [ih, hmark, isXmlText_inDouble, Bool.true_and]

/-- A literal holds XML characters alone if the text does. -/
theorem isXmlText_literal (v : Text) : isXmlText (literal v) = isXmlText v := by
  rw [literal]
  split_ifs
  · exact isXmlText_inDouble v
  · exact isXmlText_inSingle v
  · have hopen : isXmlText "concat(".toList = true := rfl
    have hclose : isXmlText [')'] = true := rfl
    have hsep : isXmlText ", ".toList = true := rfl
    have hq : isXmlText ['"'] = true := rfl
    rw [isXmlText_append, isXmlText_append, hopen, hclose, isXmlText_join hsep,
      all_isXmlText_concatArguments, ← isXmlText_join hq, join_pieces]
    simp

/-- Slashes are XML characters, so that it does not matter how many there are. -/
lemma isXmlText_squeeze (v : Text) : isXmlText (squeeze v) = isXmlText v := by
  have hslash : isXmlChar '/' = true := rfl
  rw [Bool.eq_iff_iff, isXmlText, isXmlText, List.all_eq_true, List.all_eq_true]
  constructor
  · intro h b hb
    by_cases hs : b = '/'
    · exact hs ▸ hslash
    · exact h b ((mem_squeezeFrom hs 0).mpr hb)
  · intro h b hb
    by_cases hs : b = '/'
    · exact hs ▸ hslash
    · exact h b ((mem_squeezeFrom hs 0).mp hb)

lemma isXmlText_attributePath_eq (a v : Text) :
    isXmlText (attributePath a v) = (isXmlText a && isXmlText v) := by
  have hopen : isXmlText "//*[@".toList = true := rfl
  have hequals : isXmlText ['='] = true := rfl
  have hclose : isXmlText [']'] = true := rfl
  rw [attributePath_eq, isXmlText_append, isXmlText_append, isXmlText_append, isXmlText_append,
    isXmlText_literal, hopen, hequals, hclose]
  simp

lemma isXmlText_attributePath (ha : IsName a) (v : Text) :
    isXmlText (attributePath a v) = isXmlText v := by
  rw [isXmlText_attributePath_eq, isXmlText_of_isName ha, Bool.true_and]

/-! ### The path as an expression -/

/-- The path to the elements with a value of the attributes that pass a test, as an
expression. -/
def attributeTestExpr (test : NodeTest) (v : Text) : Expr :=
  .step Expr.root.inside .child (.any none)
    [.binary .eq (.step .here .attribute test []) (literalExpr v)]

/-- The path to the elements with a value of an attribute, as an expression. -/
def attributePathExpr (a v : Text) : Expr :=
  .step Expr.root.inside .child (.any none)
    [.binary .eq (attributeExpr a) (literalExpr v)]

/-- What stands behind the opening bracket of the path. -/
lemma attributePath_eq_inside (a v : Text) : attributePath a v =
    '/' :: '/' :: (['*'] ++ '[' :: ('@' :: a ++ ['='] ++ literal v) ++ [']']) := by
  rw [attributePath_eq]
  simp

/-- The path by a test is read as an expression whatever the value is. -/
theorem reads_attributePath_test {test : NodeTest} (h : BareReads a test) (v : Text) :
    Reads 2 0 (attributePath a v) (attributeTestExpr test v) := by
  have hcond : Reads 1 5 ('@' :: a ++ ['='] ++ literal v)
      (.binary .eq (.step .here .attribute test []) (literalExpr v)) :=
    ((reads_attributeTest h).lift (by omega) (by omega)).binary sign_equals
      ((reads_literal v).lift (by omega) (by omega))
  have hwhole : Reads 1 loosest ('@' :: a ++ ['='] ++ literal v)
      (.binary .eq (.step .here .attribute test []) (literalExpr v)) :=
    hcond.lift le_rfl (by decide)
  have hstep := testReads_star.step_predicate hwhole
  rw [attributePath_eq_inside, ← List.append_nil (['*'] ++ _ ++ _)]
  exact reads_absolute (.inside hstep (.nil _)) (by simp)

lemma read?_attributePath_test {test : NodeTest} (h : BareReads a test) (v : Text) :
    Expr.read? (attributePath a v) = some (attributeTestExpr test v) :=
  ((reads_attributePath_test h v).lift le_rfl (Nat.zero_le _)).read? (by decide)

/-- The path by the name of an attribute is read as an expression. -/
lemma read?_attributePath (ha : IsName a) (v : Text) :
    Expr.read? (attributePath a v) = some (attributePathExpr a v) :=
  read?_attributePath_test (bareReads_name ha) v

/-- A star passes exactly the elements. -/
lemma passesAt_star (d : Document) (b : Address) :
    passesAt d (.any none) none b = d.isElementAt b := by
  rw [passesAt, Document.isElementAt]
  congr 1

/-- The path by a test leads to the elements that have the value, in the namespace that the
prefix of the test is bound to. -/
lemma selects_attributePath_test {env : Env} {pfx uri : Option Text} {base : Text}
    (hu : env.testUri (.name pfx base) = .ok uri) (v : Text) (f : Frame) :
    Selects env (attributeTestExpr (.name pfx base) v) f fun b =>
      env.document.isElementAt b ∧ (env.document.valuesIn b uri base).contains v := by
  have hstar : env.testUri (.any none) = .ok none := rfl
  have hbelow : Selects env (attributeTestExpr (.name pfx base) v) f fun b =>
      ∃ c, c = [] ∧ ∃ way, way ≠ [] ∧ b = way ++ c ∧ passesAt env.document (.any none) none b ∧
        (env.document.valuesIn b uri base).contains v :=
    (selects_root f).below_where hstar fun b _ size => by
      obtain ⟨ps, hps, hm⟩ := eval_attributeTest hu (f := ⟨.node b, some _, some size⟩) rfl
      exact hm ▸ (holds_equals_nodes hps (eval_literalExpr v)).holdsAt _
  refine hbelow.congr fun b => ?_
  simp only [exists_eq_left, passesAt_star, List.append_nil]
  constructor
  · rintro ⟨way, -, rfl, h⟩
    exact h
  · intro h
    refine ⟨b, ?_, rfl, h⟩
    rintro rfl
    simp [Document.isElementAt] at h

/-- The path by an attribute leads to the elements that have the value. -/
lemma selects_attributePath (d : Document) (namespaces : List (Text × Text)) (a v : Text)
    (f : Frame) :
    Selects ⟨d, namespaces⟩ (attributePathExpr a v) f fun b =>
      d.isElementAt b ∧ (d.valuesAt b a).contains v := by
  have hu : Env.testUri ⟨d, namespaces⟩ (.name none a) = .ok none := rfl
  exact selects_attributePath_test hu v f

/-! ### Elements with a value -/

/-- **The path by an attribute** selects the elements that have the value. -/
theorem evaluateElements_attributePath (hw : n.document.IsWhole) (hc : StartsAt c n namespaces)
    (ha : IsName a) (hv : isXmlText v) :
    evaluateElements (attributePath a v) c namespaces =
      .ok (n.document.elements.filter fun m => (n.document.valuesAt m.address a).contains v) :=
  evaluateElements_eq hw hc ((isXmlText_attributePath ha v).trans hv) (read?_attributePath ha v)
    (selects_attributePath n.document namespaces a v _)
    (H := fun b => (n.document.valuesAt b a).contains v) fun b hb => by simp [hb]

/-- **The path by an attribute** finds the first element that has the value. -/
theorem firstElement_attributePath (hw : n.document.IsWhole) (hc : StartsAt c n namespaces)
    (ha : IsName a) (hv : isXmlText v) :
    Generator.firstElement (attributePath a v) c namespaces =
      .ok (n.document.elements.find? fun m => (n.document.valuesAt m.address a).contains v) :=
  firstElement_eq hw hc ((isXmlText_attributePath ha v).trans hv) (read?_attributePath ha v)
    (selects_attributePath n.document namespaces a v _) (fun b hb => hb.1)
    (H := fun b => (n.document.valuesAt b a).contains v) fun b hb => by simp [hb]

/-- With characters that are none of XML the path is refused. -/
lemma evaluate_attributePath_of_not (hc : StartsAt c n namespaces) (ha : IsName a)
    (hv : isXmlText v = false) :
    evaluate (attributePath a v) c namespaces = .error .forbiddenText :=
  evaluate_forbidden hc ((isXmlText_attributePath ha v).trans hv)

end Locator.XPath
