/-
What queries for an attribute select

* `Node.elements_eq_filter`: what is inside an element are the elements of the document
  at its address or below;
* `reads_hasValueCondition`, `holds_hasValueCondition`: the condition that an attribute
  has a value is read and means that;
* `evaluateElements_where`: a query gives the elements inside where its condition holds;
* `queryAttribute_eq`: **a readable query** counts the elements inside that have the
  value.
-/
import Locator.Proofs.Css.Attribute
import Locator.Proofs.Css.Literal
import Locator.Proofs.Document.Regular
import Locator.Proofs.XPath.Attribute
import Locator.Uniqueness

namespace Locator

open Text XPath

/-! ### The elements inside an element -/

/-- What is inside an element are the elements of the document at its address or
below, in the same order. -/
lemma Node.elements_eq_filter {n : Node} (hw : n.document.IsWhole) (hn : n.isElement) :
    n.elements = n.document.elements.filter fun m => n.address.isSuffixOf m.address := by
  have hne := Document.address_ne_nil hn
  have hmap : n.elements.map Node.place =
      (n.document.elements.filter fun m => n.address.isSuffixOf m.address).map Node.place := by
    refine (Document.sorted_nodeElements n).eq_of_mem_iff
      ((Document.sorted_elements _).sublist (List.filter_sublist.map _)) fun p => ?_
    simp only [List.mem_map, List.mem_filter, Document.mem_nodeElements hne,
      Document.mem_elements hw, List.isSuffixOf_iff_suffix]
    constructor
    · rintro ⟨m, ⟨hd, ⟨way, hway⟩, hel⟩, rfl⟩
      exact ⟨m, ⟨⟨hd, hel⟩, ⟨way, hway.symm⟩⟩, rfl⟩
    · rintro ⟨m, ⟨⟨hd, hel⟩, ⟨way, hway⟩⟩, rfl⟩
      exact ⟨m, ⟨hd, ⟨way, hway.symm⟩, hel⟩, rfl⟩
  have hleft : ∀ m ∈ n.elements, m.document = n.document ∧ m.isElement := by
    intro m hm
    obtain ⟨hd, -, hel⟩ := (Document.mem_nodeElements hne).mp hm
    exact ⟨hd, Document.isElement_iff.mpr (hd ▸ hel)⟩
  have hright : ∀ m ∈ n.document.elements.filter fun m => n.address.isSuffixOf m.address,
      m.document = n.document ∧ m.isElement := by
    intro m hm
    obtain ⟨hd, hel⟩ := (Document.mem_elements hw).mp (List.mem_of_mem_filter hm)
    exact ⟨hd, Document.isElement_iff.mpr (hd ▸ hel)⟩
  rw [← elementsOf_map_place hleft, hmap, elementsOf_map_place hright]

/-- Has an attribute a prefix exactly where it has a namespace? -/
def Attribute.hasPrefixWhereNamespace (t : Attribute) : Bool :=
  t.name.pfx.isSome == t.name.uri.isSome

/-- Every attribute has a prefix exactly where it has a namespace. -/
def Document.HasPrefixes (d : Document) : Prop :=
  ∀ p ∈ d.pieces, ∀ t ∈ p.2.attributes, t.hasPrefixWhereNamespace

instance (d : Document) : Decidable d.HasPrefixes := by
  unfold Document.HasPrefixes
  infer_instance

lemma Document.HasPrefixes.attributesAt {d : Document} (h : d.HasPrefixes) (a : Address) :
    ∀ t ∈ d.attributesAt a, t.hasPrefixWhereNamespace := by
  intro t ht
  rw [Document.attributesAt] at ht
  cases hm : d.get? a with
  | none => simp [hm] at ht
  | some m => exact h (a, m) (mem_pieces.mpr hm) t (by simpa [hm] using ht)

/-! ### The condition as an expression -/

namespace Css

/-- A name of selectors that may stand in a path as it is is a name. -/
lemma isName_of_isSafeName {name : Text} (hn : IsIdent name) (h : Query.isSafeName name = true) :
    Text.IsName name := by
  cases name with
  | nil => simp [Query.isSafeName] at h
  | cons c r =>
      have hbreak : ∀ front, r.reverse ≠ '\n' :: front := by
        intro front heq
        have hmem : '\n' ∈ r := List.mem_reverse.mp (by simp [heq])
        exact absurd (hn.chars '\n' (by simp [hmem])) (by decide)
      simp only [Query.isSafeName, Bool.and_eq_true, Bool.or_eq_true, beq_iff_eq] at h
      obtain ⟨hc, hr⟩ := h
      refine ⟨c, r, rfl, by rcases hc with hc | hc <;> simp [Text.isNameStart, hc], fun d hd => ?_⟩
      have := List.all_eq_true.mp hr d (List.mem_reverse.mpr hd)
      simp only [Char.isAlphanum, Bool.or_eq_true, beq_iff_eq] at this
      rcases this with (((hd | hd) | hd) | hd) | hd <;>
        simp [Text.isNameChar, Text.isNameStart, hd]

/-- What the name of an attribute in a query is read as. -/
def namedExpr (name : Text) : Expr :=
  if Query.isSafeName name then attributeExpr name
  else .step .here .attribute (.any none)
    [.binary .eq (.call none "name".toList []) (Query.literalExpr name)]

/-- What the condition that an attribute has a value is read as. -/
def hasValueExpr (name value : Text) : Expr :=
  .binary .eq (namedExpr name) (Query.literalExpr value)

lemma isName_attribute : Text.IsName "attribute".toList := Text.isPathName_iff.mp rfl

lemma isCallName_name : IsCallName "name".toList := ⟨Text.isPathName_iff.mp rfl, rfl⟩

/-- The name of an attribute in a query is read. -/
lemma reads_attributeName {name : Text} (hn : IsIdent name) :
    Reads 2 0 (Query.attributeName .unsaid name) (namedExpr name) := by
  by_cases h : Query.isSafeName name = true
  · have hname : Query.attributeName .unsaid name = '@' :: name := if_pos h
    rw [hname, namedExpr, if_pos h]
    exact (reads_attribute (isName_of_isSafeName hn h)).lift (by omega) (by omega)
  · have hname : Query.attributeName .unsaid name =
        "attribute::*[name() = ".toList ++ Query.literal name ++ [']'] := if_neg h
    have hcall : Reads 1 4 ("name".toList ++ ['(', ')']) (.call none "name".toList []) :=
      (reads_call_nil isCallName_name).lift (by omega) (by omega)
    have hcond : Reads 1 loosest ("name".toList ++ ['(', ')'] ++ " = ".toList ++ Query.literal name)
        (.binary .eq (.call none "name".toList []) (Query.literalExpr name)) :=
      (hcall.binary sign_spaced_equals ((Query.reads_literal name).lift (by omega) (by omega))).lift le_rfl (by decide)
    have haxis : Axis.ofName? "attribute".toList = some .attribute := rfl
    have hstep := (testReads_axis isName_attribute haxis bareReads_star).step_predicate hcond
    have hread := reads_axis (s := ['*'] ++ '[' :: ("name".toList ++ ['(', ')'] ++ " = ".toList ++
      Query.literal name) ++ [']']) isName_attribute (by simpa using hstep) (.nil _)
    rw [hname, namedExpr, if_neg h]
    simpa using hread

/-- The condition that an attribute has a value is read. -/
lemma reads_hasValueCondition {name : Text} (hn : IsIdent name) (value : Text) :
    Reads 2 loosest (hasValueCondition name value) (hasValueExpr name value) := by
  have h : Reads 2 4 (Query.attributeName .unsaid name) (namedExpr name) :=
    (reads_attributeName hn).lift (by omega) (by omega)
  exact (h.binary sign_spaced_equals ((Query.reads_literal value).lift (by omega) (by omega))).lift le_rfl (by decide)

/-- What the query for a condition is read as. -/
def whereExpr (e : Expr) : Expr := .step .here .descendantOrSelf (.any none) [e]

/-- The expression of a query is read where its condition is. -/
lemma read?_where {c : Text} {e : Expr} (h : Reads 2 loosest c e) :
    Expr.read? ("descendant-or-self::*[".toList ++ c ++ [']']) = some (whereExpr e) := by
  have haxis : Axis.ofName? "descendant-or-self".toList = some .descendantOrSelf := rfl
  have hstep := (testReads_axis isName_descendantOrSelf haxis bareReads_star).step_predicate h
  have hread := reads_axis (s := ['*'] ++ '[' :: c ++ [']'])
    isName_descendantOrSelf (by simpa using hstep) (.nil _)
  have hwhole : Reads 3 0 ("descendant-or-self::*[".toList ++ c ++ [']']) (whereExpr e) := by
    simpa [whereExpr] using hread
  exact (hwhole.lift le_rfl (Nat.zero_le _)).read? (by decide)

/-! ### What the condition means -/

variable {env : Env} {f : Frame} {a : Address} {name value : Text}

/-- Without a colon the name of an attribute is the one that it is written with only if
it has no prefix. -/
lemma qualified_eq_iff {t : Attribute} (ht : t.hasPrefixWhereNamespace) (hc : ':' ∉ name) :
    (t.name.qualified == name) = t.isPlain name := by
  obtain ⟨⟨pfx, uri, base⟩, v⟩ := t
  cases pfx with
  | none =>
      cases uri with
      | none => simp [Name.qualified, Attribute.isPlain]
      | some u => simp [Attribute.hasPrefixWhereNamespace] at ht
  | some p =>
      cases uri with
      | none => simp [Attribute.hasPrefixWhereNamespace] at ht
      | some u =>
          have hne : p ++ ':' :: base ≠ name := by
            rintro rfl
            simp at hc
          simp [Name.qualified, Attribute.isPlain, hne]

/-- The attributes at an address, whatever their names. -/
lemma onAxis_attribute_any (a : Address) :
    env.onAxis .attribute (.any none) none (.node a) =
      (env.document.attributesAt a).zipIdx.map fun x => .attribute a x.2 := by
  simp [Env.onAxis, Axis.sites, Axis.sitesFrom, List.filter_map, NodeTest.accepts, isMainKind,
    Function.comp_def]

/-- The name that an attribute is written with is a text. -/
lemma holds_name {i : ℕ} {t : Attribute} (hi : (env.document.attributesAt a)[i]? = some t)
    (hf : f.place = .attribute a i) :
    Holds env f (.binary .eq (.call none "name".toList []) (Query.literalExpr name))
      (t.name.qualified == name) := by
  have hname : eval env (.call none "name".toList []) f = .ok (.text t.name.qualified) := by
    rw [eval_call (g := .name) (r := []) rfl rfl]
    simp [Function.apply, Function.ofName, Function.nameOrTarget, hf, Document.nameOf?,
      Document.itemAt?, hi, Document.Item.name?]
  have hequal : Result.equal env.document true (.text t.name.qualified) (.text name) =
      (t.name.qualified == name) := by
    simp [Result.equal, Result.equalSingle, Result.isBool, Result.isNumber, Result.toText]
  exact hequal ▸ holds_eq hname (Query.eval_literalExpr env f name)

/-- The step to an attribute in a query gives the places of its values. -/
lemma eval_namedExpr (hn : IsIdent name)
    (ht : ∀ t ∈ env.document.attributesAt a, t.hasPrefixWhereNamespace) (hf : f.place = .node a) :
    ∃ ps, eval env (namedExpr name) f = .ok (.nodes ps) ∧
      ps.map env.document.textOf = env.document.valuesAt a name := by
  rw [namedExpr]
  split_ifs with hsafe
  · exact eval_attribute env name hf
  · set as := env.document.attributesAt a with has
    have hcolon : ':' ∉ name := fun h => absurd (hn.chars _ h) (by decide)
    -- The places that the condition keeps, each tested with its own name.
    set Q : Place → Bool := fun p => ((env.document.nameOf? p).map Name.qualified).getD [] == name
      with hQ
    have hat : ∀ {i t}, as[i]? = some t → Q (.attribute a i) = (t.name.qualified == name) := by
      intro i t hi
      simp [hQ, Document.nameOf?, Document.itemAt?, ← has, hi, Document.Item.name?]
    have hnarrow : narrow env
        [.binary .eq (.call none "name".toList []) (Query.literalExpr name)]
        (env.onAxis .attribute (.any none) none (.node a)) =
          .ok ((env.onAxis .attribute (.any none) none (.node a)).filter Q) := by
      rw [narrow_singleton (Q := fun p _ => Q p) fun x hx => ?_,
        ← Function.comp_def (fun p : Place => Q p), ← List.filter_map, List.zipIdx_map_fst]
      have hmem := List.fst_mem_of_mem_zipIdx hx
      rw [onAxis_attribute_any, List.mem_map] at hmem
      obtain ⟨y, hy, hxy⟩ := hmem
      have hi := List.mem_zipIdx_iff_getElem?.mp hy
      rw [← hxy, hat hi]
      exact (holds_name hi rfl).holdsAt _
    have hkept : (env.onAxis .attribute (.any none) none (.node a)).filter Q =
        (as.zipIdx.filter fun x => x.1.isPlain name).map fun x => .attribute a x.2 := by
      rw [onAxis_attribute_any, List.filter_map]
      congr 1
      refine List.filter_congr fun x hx => ?_
      have hi := List.mem_zipIdx_iff_getElem?.mp hx
      rw [← qualified_eq_iff (ht x.1 (List.mem_of_getElem? hi)) hcolon]
      exact hat hi
    have hu : env.testUri (.any none) = .ok none := rfl
    have hsorted := sorted_attributes as (·.isPlain name) a
    rw [hkept] at hnarrow
    generalize Expr.binary .eq (.call none "name".toList []) (Query.literalExpr name) = c
      at hnarrow ⊢
    refine ⟨_, ?_, textOf_attributes env.document (·.isPlain name) a⟩
    simp [eval, hf, Result.toNodes, hu, hnarrow, ← has, Place.inOrder_eq_self hsorted]

/-- **The condition that an attribute has a value** means that. -/
lemma holds_hasValue (hn : IsIdent name)
    (ht : ∀ t ∈ env.document.attributesAt a, t.hasPrefixWhereNamespace) (hf : f.place = .node a) :
    Holds env f (hasValueExpr name value) ((env.document.valuesAt a name).contains value) := by
  obtain ⟨ps, hps, hm⟩ := eval_namedExpr hn ht hf
  exact hm ▸ holds_equals_nodes hps (Query.eval_literalExpr env f value)

/-- Where the condition of a query means something, the query leads to the elements inside where
it holds. -/
lemma selects_where {root : Node} {e : Expr} {H : Address → Bool}
    (h : ∀ b k size, Holds ⟨root.document, []⟩ ⟨.node b, some (k + 1), some size⟩ e (H b)) :
    Selects ⟨root.document, []⟩ (whereExpr e) { place := .node root.address } fun b =>
      (∃ way, b = way ++ root.address) ∧ root.document.isElementAt b ∧ H b := by
  have hstar : Env.testUri ⟨root.document, []⟩ (.any none) = .ok none := rfl
  have hwithin : Selects ⟨root.document, []⟩ (whereExpr e)
      { place := .node root.address } fun b => ∃ a, a = root.address ∧ ∃ way, b = way ++ a ∧
        passesAt root.document (.any none) none b ∧ H b :=
    (selects_here _ rfl).within_where hstar rfl fun b _ k size => (h b k size).holdsAt k
  refine hwithin.congr fun b => ?_
  simp only [exists_eq_left, passesAt_star]
  constructor
  · rintro ⟨way, rfl, h⟩
    exact ⟨⟨way, rfl⟩, h⟩
  · rintro ⟨⟨way, rfl⟩, h⟩
    exact ⟨way, rfl, h⟩

/-- **A query** gives the elements inside where its condition holds. -/
theorem evaluateElements_where {root : Node} {c : Text} {e : Expr} {H : Address → Bool}
    (hw : root.document.IsWhole) (hr : root.isElement) (hx : Text.isXmlText c)
    (hc : Reads 2 loosest c e)
    (h : ∀ b k size, Holds ⟨root.document, []⟩ ⟨.node b, some (k + 1), some size⟩ e (H b)) :
    evaluateElements ("descendant-or-self::*[".toList ++ c ++ [']']) (.node root) [] =
      .ok (root.elements.filter fun m => H m.address) := by
  have hstart : StartsAt (.node root) root [] := ⟨rfl, rfl⟩
  have hopen : Text.isXmlText "descendant-or-self::*[".toList = true := rfl
  have htext : Text.isXmlText ("descendant-or-self::*[".toList ++ c ++ [']']) := by
    rw [Text.isXmlText_append, Text.isXmlText_append, hopen, hx]
    rfl
  rw [Node.elements_eq_filter hw hr, List.filter_filter]
  refine evaluateElements_eq hw hstart htext (read?_where hc) (selects_where h)
    (H := fun b => H b && root.address.isSuffixOf b) fun b hb => ?_
  simp only [hb, true_and, Bool.and_eq_true, List.isSuffixOf_iff_suffix]
  constructor
  · rintro ⟨⟨way, rfl⟩, hval⟩
    exact ⟨hval, way, rfl⟩
  · rintro ⟨hval, way, rfl⟩
    exact ⟨⟨way, rfl⟩, hval⟩

/-- The name of an attribute in a query holds XML characters alone if the name does. -/
lemma isXmlText_attributeName (name : Text) :
    Text.isXmlText (Query.attributeName .unsaid name) = Text.isXmlText name := by
  by_cases h : Query.isSafeName name = true
  · have hsafe : Query.attributeName .unsaid name = ['@'] ++ name := if_pos h
    rw [hsafe, Text.isXmlText_append]
    rfl
  · have hopen : Text.isXmlText "attribute::*[name() = ".toList = true := rfl
    have hclose : Text.isXmlText [']'] = true := rfl
    have hquoted : Query.attributeName .unsaid name =
        "attribute::*[name() = ".toList ++ Query.literal name ++ [']'] := if_neg h
    rw [hquoted, Text.isXmlText_append, Text.isXmlText_append, Query.isXmlText_literal, hopen,
      hclose, Bool.true_and, Bool.and_true]

lemma isXmlText_hasValueCondition (name value : Text) :
    Text.isXmlText (hasValueCondition name value) =
      (Text.isXmlText name && Text.isXmlText value) := by
  have hsign : Text.isXmlText " = ".toList = true := rfl
  rw [hasValueCondition, Text.isXmlText_append, Text.isXmlText_append, isXmlText_attributeName,
    Query.isXmlText_literal, hsign, Bool.and_true]

end Css

/-- **A readable query** counts the elements inside that have the value that its escapes
give. -/
theorem queryAttribute_eq {root : Node} {name value : Text} (hw : root.document.IsWhole)
    (hd : root.document.HasPrefixes) (hr : root.isElement) (hx : Text.isXmlText name)
    (h : Css.IsReadable name value) (hv : Text.isXmlText (Css.unescape (Css.escape value))) :
    queryAttribute root name value = .ok (root.elements.countP fun m =>
      (root.document.valuesAt m.address name).contains (Css.unescape (Css.escape value))) := by
  set v := Css.unescape (Css.escape value) with hvdef
  have htext : Text.isXmlText (Css.hasValueCondition name v) := by
    rw [Css.isXmlText_hasValueCondition, hx, hv]
    rfl
  have heval := Css.evaluateElements_where hw hr htext (Css.reads_hasValueCondition h.1 v)
    fun b k size => Css.holds_hasValue h.1 (hd.attributesAt b) rfl
  rw [queryAttribute, querySelector, Css.queryPath_attributeTest h]
  simp only [← hvdef, Except.mapError, ok_bind, heval, pure_eq_ok, List.countP_eq_length_filter]

end Locator
