/-
What is selected by a normal form

* `IsFramed`: nothing but XML blanks is dropped at the ends of a text, with
  `normalize_of_isFramed`: its normal form is the tidy text;
* `evaluateExpr`: the places that an expression selects in a context, with
  `evaluate_normalize`: a normal form selects what the expression selects once the texts in it
  are shortened;
* `select_expression`: **selecting by an expression**, with and without texts that are shortened.
-/
import Locator.Proofs.Generator.Answers
import Locator.Proofs.XPath.Squeezed

namespace Locator

open XPath

variable {x : Text} {e : Expr} {c site : Context} {context : Thing}
  {namespaces : List (Text × Text)}

namespace XPath

/-! ### Ends -/

/-- Between the XML blanks around it a text starts with no blank, and it ends in neither a slash
nor a blank. -/
structure IsFramed (x : Text) : Prop where
  front : ∀ c ∈ (Text.stripBy Text.isSpace x).head?, Text.isBlank c = false
  back : ∀ c ∈ (Text.stripBy Text.isSpace x).getLast?, isSlashOrBlank c = false

/-- The normal form of such a text is the tidy text. -/
lemma normalize_of_isFramed (h : IsFramed x) : normalize x = tidy (blanks x) := by
  set m := Text.stripBy Text.isSpace x with hm
  have htext : x = x.takeWhile Text.isSpace ++ m ++ (blanks x).rtakeWhile Text.isSpace := by
    have hback : m ++ (blanks x).rtakeWhile Text.isSpace = blanks x :=
      List.rdropWhile_append_rtakeWhile
    rw [List.append_assoc, hback, blanks, List.takeWhile_append_dropWhile]
  have hfront : ∀ c ∈ x.takeWhile Text.isSpace, Text.isBlank c = true :=
    fun c hc => Text.isBlank_of_isSpace (List.mem_takeWhile_imp hc)
  have hend : ∀ c ∈ (blanks x).rtakeWhile Text.isSpace, Text.isBlank c = true :=
    fun c hc => Text.isBlank_of_isSpace (List.mem_rtakeWhile_imp hc)
  have hstrip : Text.strip x = m := by
    by_cases hnil : m = []
    · have hall : x.dropWhile Text.isBlank = [] := by
        rw [List.dropWhile_eq_nil_iff, htext, hnil, List.append_nil, List.forall_mem_append]
        exact ⟨hfront, hend⟩
      rw [Text.strip, Text.stripBy, hall, hnil]
      rfl
    · have htrim : Text.IsTrim m := by
        refine ⟨hnil, h.front, fun c hc => ?_⟩
        have hback := h.back c hc
        rw [isSlashOrBlank, Bool.or_eq_false_iff] at hback
        exact hback.2
      rw [htext, Text.strip_of_isTrim htrim hfront hend]
  rw [normalize, hstrip, Text.dropEnd_eq_self h.back]
  rfl

/-- The normal form of an expression is one with the same results, its texts shortened. -/
lemma read?_normalize (h : IsFramed x) (hr : Expr.read? x = some e) :
    ∃ e', Expr.read? (normalize x) = some e' ∧ Restates squeeze e e' := by
  rw [normalize_of_isFramed h]
  exact read?_tidy ((read?_blanks x).trans hr)

/-! ### Results -/

/-- The places that an expression selects in a context. -/
def evaluateExpr (e : Expr) (c : Context) (namespaces : List (Text × Text)) :
    Outcome (List Place) := do
  let n ← startNode c
  checkNamespaces namespaces
  selectFrom n e namespaces

/-- What the text of an expression selects. -/
lemma evaluate_eq_evaluateExpr (hx : Text.isXmlText x = true) (hr : Expr.read? x = some e) :
    evaluate x c namespaces = evaluateExpr e c namespaces := by
  simp [evaluate, evaluateExpr, checkText, hx, hr]

/-- Expressions with the same results select the same. -/
lemma evaluateExpr_congr {e' : Expr} (h : ∀ env, eval env e' = eval env e) :
    evaluateExpr e' c namespaces = evaluateExpr e c namespaces := by
  simp only [evaluateExpr, selectFrom, Env.select, h]

/-- **A normal form** selects what the expression selects with its texts shortened. -/
theorem evaluate_normalize (hx : Text.isXmlText x = true) (hr : Expr.read? x = some e)
    (hends : IsFramed x) :
    evaluate (normalize x) c namespaces = evaluateExpr (e.mapTexts squeeze) c namespaces := by
  obtain ⟨e', hr', he⟩ := read?_normalize hends hr
  rw [evaluate_eq_evaluateExpr (Text.isXmlText_of_sublist (normalize_sublist x) hx) hr',
    evaluateExpr_congr he]

end XPath

namespace Lookup

/-- Selecting gives the things at the places that the normal form selects. -/
lemma select_eq_orElse (hne : XPath.normalize x ≠ []) (hcontext : context.context? = some site) :
    select x context = orElse (evaluate (XPath.normalize x) site site.namespaces)
      (fun ps => ps.map (Thing.ofPlace site.source)) [] := by
  rw [select]
  cases hnormal : XPath.normalize x with
  | nil => exact absurd hnormal hne
  | cons c t =>
      simp only [hcontext]
      rfl

/-- **Selecting by an expression** whose ends stay gives the things at the places that the
expression selects with its texts shortened. If it quotes no text with three slashes in a row,
these are the places that it selects as it stands. -/
theorem select_expression (hx : Text.isXmlText x = true) (hr : Expr.read? x = some e)
    (hends : IsFramed x) (hcontext : context.context? = some site) :
    select x context = orElse (evaluateExpr (e.mapTexts squeeze) site site.namespaces)
        (fun ps => ps.map (Thing.ofPlace site.source)) [] ∧
      ((∀ t ∈ e.texts, ¬ slashes <:+: t) →
        select x context = orElse (evaluate x site site.namespaces)
          (fun ps => ps.map (Thing.ofPlace site.source)) []) := by
  have hne : XPath.normalize x ≠ [] := fun hnil => by
    obtain ⟨e', hr', -⟩ := read?_normalize hends hr
    rw [hnil] at hr'
    cases hr'
  have hselect := select_eq_orElse hne hcontext
  rw [evaluate_normalize hx hr hends] at hselect
  refine ⟨hselect, fun htexts => ?_⟩
  -- texts without three slashes in a row are not shortened, and neither is the expression
  have hsame : e.mapTexts squeeze = e :=
    Expr.mapTexts_eq_self fun t ht => squeeze_eq_self_iff.mpr (htexts t ht)
  rw [hselect, hsame, evaluate_eq_evaluateExpr hx hr]

open Generator in
/-- Of the three slashes in front one is left out, and the two in the literal stay. -/
theorem select_expression_prefixedTwins :
    XPath.normalize "///p:*[2][. != 'a//b'] ".toList = "//p:*[2][. != 'a//b']".toList ∧
      select "///p:*[2][. != 'a//b'] ".toList (.document prefixedTwins) =
        orElse (evaluate "///p:*[2][. != 'a//b'] ".toList (.document prefixedTwins)
          [(['p'], ['u'])]) (fun ps => ps.map (Thing.ofPlace prefixedTwins)) [] ∧
      evaluate "///p:*[2][. != 'a//b'] ".toList (.document prefixedTwins) [(['p'], ['u'])] =
        .ok [.node [2, 0]] := by
  have hsome : (Expr.read? "///p:*[2][. != 'a//b'] ".toList).isSome = true := by decide +kernel
  have htexts : (Expr.read? "///p:*[2][. != 'a//b'] ".toList).all
      (fun e => e.texts.all fun t => squeeze t == t) = true := by decide +kernel
  obtain ⟨e, he⟩ := Option.isSome_iff_exists.mp hsome
  simp only [he, Option.all_some, List.all_eq_true, beq_iff_eq] at htexts
  have hcontext : (Thing.document prefixedTwins).context? = some (.document prefixedTwins) := rfl
  obtain ⟨-, hselect⟩ := select_expression rfl he ⟨by decide, by decide⟩ hcontext
  exact ⟨by decide, hselect fun t ht => squeeze_eq_self_iff.mp (htexts t ht),
    eq_ok_of_toOption (by decide +kernel)⟩

open Generator in
/-- Three slashes in a literal are shortened, a slash at the end is left out although it is an
operand, and so is a blank at the end although it belongs to a name. -/
theorem select_slashedIdentifier :
    (isExpression "//a[@id='x///y']".toList = .ok true ∧
      select "//a[@id='x///y']".toList (.document slashedIdentifier) = .ok [] ∧
      evaluate "//a[@id='x///y']".toList (.document slashedIdentifier) [] = .ok [.node [0, 0]]) ∧
    (isExpression "//a | /".toList = .ok true ∧
      select "//a | /".toList (.document slashedIdentifier) = .ok [] ∧
      evaluate "//a | /".toList (.document slashedIdentifier) [] = .ok [.node [0, 0]]) ∧
    (isExpression "/r/a\u1680".toList = .ok true ∧
      select "/r/a\u1680".toList (.document blankTwins) =
        .ok [Thing.ofPlace blankTwins (.node [0, 0])] ∧
      evaluate "/r/a\u1680".toList (.document blankTwins) [] = .ok [.node [1, 0]]) := by
  have hexpression : ∀ {s : Text}, Text.isXmlText s = true → (Expr.read? s).isSome = true →
      isExpression s = .ok true := fun hs hr =>
    isExpression_iff.mpr ⟨hs, Option.isSome_iff_exists.mp hr⟩
  have hliteral : evaluate (XPath.normalize "//a[@id='x///y']".toList)
      (.document slashedIdentifier) (Context.document slashedIdentifier).namespaces = .ok [] :=
    eq_ok_of_toOption (by decide +kernel)
  have hoperand : evaluate (XPath.normalize "//a | /".toList) (.document slashedIdentifier)
      (Context.document slashedIdentifier).namespaces = .error (.path .malformed) :=
    evaluate_malformed ⟨rfl, rfl⟩ rfl (Option.not_isSome_iff_eq_none.mp (by decide +kernel))
  have hname : evaluate (XPath.normalize "/r/a\u1680".toList) (.document blankTwins)
      (Context.document blankTwins).namespaces = .ok [.node [0, 0]] :=
    eq_ok_of_toOption (by decide +kernel)
  refine ⟨⟨hexpression rfl (by decide +kernel), ?_, eq_ok_of_toOption (by decide +kernel)⟩,
    ⟨hexpression rfl (by decide +kernel), ?_, eq_ok_of_toOption (by decide +kernel)⟩,
    ⟨hexpression rfl (by decide +kernel), ?_, eq_ok_of_toOption (by decide +kernel)⟩⟩
  · rw [select_eq_orElse (by decide) rfl, hliteral]
    rfl
  · rw [select_eq_orElse (by decide) rfl, hoperand]
    rfl
  · rw [select_eq_orElse (by decide) rfl, hname]
    rfl

end Lookup

end Locator
