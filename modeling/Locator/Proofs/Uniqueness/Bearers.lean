/-
The number of elements with a value

* `Spells`: the namespace and the local part that a text spells as the name of an attribute;
  `splitExpanded_eq_ok_iff`: these are what it is split into;
* `Context.bearers`: the elements of a scope that have an attribute with a value, which
  `Context.ncard_bearers` finds among the elements inside;
* `countAttribute_exact`: **counting along the tree** comes to an end and gives the number of
  the elements with the value, or the limit if they are more. A text that is no name of an
  attribute is refused at the first element.
-/
import Locator.Proofs.Uniqueness.Exact
import Locator.Proofs.Uniqueness.Walk
import Locator.Proofs.XPath.Primary

namespace Locator

variable {c : Context} {m n root : Node} {name v : Text} {key : Option Text × Text}

/-! ### Names of attributes -/

/-- The namespace and the local part that a text spells: it is a local part alone, or a local part
behind a namespace in braces, where no namespace is meant by empty braces. -/
inductive Spells : Text → Option Text × Text → Prop
  | plain {c : Char} {r : Text} (hc : c ≠ '\x7b') : Spells (c :: r) (none, c :: r)
  | braced {uri base : Text} (hu : '\x7d' ∉ uri) (hb : base ≠ []) :
      Spells ('\x7b' :: (uri ++ '\x7d' :: base)) (if uri = [] then none else some uri, base)

/-- A text is split into what it spells. -/
lemma splitExpanded_eq_ok_iff : splitExpanded name = .ok key ↔ Spells name key := by
  constructor
  · intro h
    cases name with
    | nil => simp [splitExpanded] at h
    | cons c r =>
        rcases eq_or_ne c '\x7b' with rfl | hc
        · rw [splitExpanded] at h
          cases hcut : Text.cutAt? '\x7d' r with
          | none => simp [hcut] at h
          | some cut =>
              obtain ⟨uri, base⟩ := cut
              obtain ⟨rfl, hu⟩ := Text.eq_of_cutAt? hcut
              cases base with
              | nil => simp [hcut] at h
              | cons b base =>
                  simp only [hcut, Except.ok.injEq, List.isEmpty_iff] at h
                  exact h ▸ .braced hu (List.cons_ne_nil b base)
        · rw [splitExpanded_of_head hc] at h
          exact Except.ok.inj h ▸ .plain hc
  · intro h
    cases h with
    | plain hc => exact splitExpanded_of_head hc _
    | @braced uri base hu hb =>
        obtain ⟨b, base, rfl⟩ := List.exists_cons_of_ne_nil hb
        simp [splitExpanded, XPath.cutAt?_append hu]

/-- A text is split, or refused for lack of a name. -/
lemma splitExpanded_cases (name : Text) :
    (∃ key, splitExpanded name = .ok key) ∨ splitExpanded name = .error .emptyName := by
  unfold splitExpanded
  split
  · exact .inr rfl
  · split
    · exact .inr rfl
    · exact .inr rfl
    · exact .inl ⟨_, rfl⟩
  · exact .inl ⟨_, rfl⟩

/-- What spells no name is refused. -/
lemma splitExpanded_eq_error (h : ∀ key, ¬ Spells name key) :
    splitExpanded name = .error .emptyName := by
  refine (splitExpanded_cases name).resolve_left ?_
  rintro ⟨key, hs⟩
  exact h key (splitExpanded_eq_ok_iff.mp hs)

/-! ### Elements with a value -/

/-- Has a node an attribute of a name with a value? No element that is read has two attributes of
one name; the first one would count. -/
def Node.Bears (key : Option Text × Text) (v : Text) (m : Node) : Prop :=
  ∃ front t back, m.attributes = front ++ t :: back ∧ t.key = key ∧ t.value = v ∧
    ∀ u ∈ front, u.key ≠ key

/-- **The elements of a scope with a value**: its root element, or any element that this is
around. -/
def Context.bearers (c : Context) (key : Option Text × Text) (v : Text) : Set Node :=
  {m | m.isElement ∧ (∃ root, c.element? = some root ∧ root ∈ m.ancestors) ∧ m.Bears key v}

/-- An element answers with the value that it has. -/
lemma Node.carries_iff_bears (hx : Text.isXmlText name) (hs : Spells name key)
    (hm : m.isElement) : m.carries name v ↔ m.Bears key v := by
  obtain ⟨uri, base⟩ := key
  have hkey : ∀ t : Attribute, (t.name.uri == uri && t.name.base == base) = true ↔
      t.key = (uri, base) := by
    simp [Attribute.key]
  have hcarries : m.carries name v ↔ ((m.attributes.find? fun t =>
      t.name.uri == uri && t.name.base == base).map Attribute.value) = some v := by
    rw [carries, lookUp_of_key hx (splitExpanded_eq_ok_iff.mpr hs) hm]
    cases (m.attributes.find? _).map Attribute.value <;> simp
  rw [hcarries, Option.map_eq_some_iff]
  constructor
  · rintro ⟨t, ht, hv⟩
    obtain ⟨hk, front, back, hsplit, hfront⟩ := List.find?_eq_some_iff_append.mp ht
    refine ⟨front, t, back, hsplit, (hkey t).mp hk, hv, fun u hu hku => ?_⟩
    have hnot := hfront u hu
    rw [(hkey u).mpr hku] at hnot
    simp at hnot
  · rintro ⟨front, t, back, hsplit, hk, hv, hfront⟩
    refine ⟨t, List.find?_eq_some_iff_append.mpr ⟨(hkey t).mpr hk, front, back, hsplit, ?_⟩, hv⟩
    intro u hu
    have hnot := mt (hkey u).mp (hfront u hu)
    rwa [Bool.not_eq_true, ← Bool.not_eq_true'] at hnot

/-- A scope without an element has none with a value. -/
lemma Context.bearers_eq_empty (hc : c.element? = none) : c.bearers key v = ∅ := by
  simp [bearers, hc]

/-- The elements with a value, found among those inside the root element. -/
lemma Context.ncard_bearers (hc : c.element? = some root) (hx : Text.isXmlText name)
    (hs : Spells name key) :
    (c.bearers key v).ncard = root.elements.countP (Node.carries name v) := by
  classical
  have hr := (Context.isElement_of_element? hc).2
  have hset : c.bearers key v =
      ((root.elements.filter (Node.carries name v)).toFinset : Set Node) := by
    ext m
    simp only [bearers, Set.mem_ofPred_eq, List.coe_toFinset, List.mem_filter,
      Node.mem_elements_iff hr, hc, Option.some.injEq, exists_eq_left', and_assoc]
    refine and_congr_right fun hm => and_congr_right fun _ => ?_
    exact (Node.carries_iff_bears hx hs hm).symm
  rw [hset, Set.ncard_coe_finset,
    List.toFinset_card_of_nodup ((Document.nodup_nodeElements root).filter _),
    List.countP_eq_length_filter]

/-! ### The count -/

/-- Inside an element those with the value are counted, up to the limit. -/
lemma countAttribute_eq_ncard (hc : c.element? = some root) (hx : Text.isXmlText name)
    (hs : Spells name key) (v : Text) (limit : Option Int) :
    countAttribute c.element? name (some v) limit =
      .ok (limited limit (c.bearers key v).ncard) := by
  rw [hc, Context.ncard_bearers hc hx hs]
  refine countAttribute_eq (Context.isElement_of_element? hc).2 (fun m _ => ?_) limit
  exact hasValue_of_lookUp (Node.exists_lookUp_of_split hx (splitExpanded_eq_ok_iff.mpr hs) m)

/-- What spells no name, or holds a character that XML forbids, is refused at the first
element. -/
lemma countAttribute_refused (hr : root.isElement)
    (h : ∀ key, ¬ (Text.isXmlText name ∧ Spells name key)) (v : Text) (limit : Option Int) :
    countAttribute (some root) name (some v) limit =
      .error (if Text.isXmlText name then .emptyName else .forbiddenText) := by
  have hlook : root.lookUp name =
      .error (if Text.isXmlText name then .emptyName else .forbiddenText) := by
    rw [Node.lookUp]
    cases hx : Text.isXmlText name with
    | false => simp [hr, throw, throwThe, MonadExceptOf.throw, bind, Except.bind]
    | true =>
        rw [splitExpanded_eq_error fun key hs => h key ⟨hx, hs⟩]
        simp [hr]
  rw [countAttribute, Node.elements_eq hr, List.length_cons, countFrom, hasValue, hlook]
  rfl

/-- **Counting along the tree is exact.** From the root element of a scope every walk comes to an
end, visits elements inside alone and none twice, and has the answer of the count. For the name
of an attribute this is the number of the elements of the scope with the value, and with a limit
the smaller of both; what is no name is refused, unless there is no element to ask. -/
theorem countAttribute_exact (c : Context) (name v : Text) :
    (∀ root limit, c.element? = some root →
        CountsTo name (some v) limit root (countAttribute c.element? name (some v) limit)) ∧
      (∀ key, Text.isXmlText name → Spells name key →
        countAttribute c.element? name (some v) none = .ok (c.bearers key v).ncard ∧
          ∀ k : ℕ, 1 ≤ k → countAttribute c.element? name (some v) (some k) =
            .ok (min k (c.bearers key v).ncard)) ∧
      ((∀ key, ¬ (Text.isXmlText name ∧ Spells name key)) → ∀ limit,
        countAttribute c.element? name (some v) limit =
          if c.element?.isSome then
            .error (if Text.isXmlText name then .emptyName else .forbiddenText)
          else .ok 0) := by
  cases hc : c.element? with
  | none =>
      refine ⟨fun root limit h => by simp at h, fun key _ _ => ?_, fun _ limit => rfl⟩
      simp [Context.bearers_eq_empty hc, countAttribute]
  | some root =>
      have hr := (Context.isElement_of_element? hc).2
      refine ⟨?_, fun key hx hs => ?_, fun h limit => countAttribute_refused hr h v limit⟩
      · rintro root' limit h
        obtain rfl := Option.some.inj h
        exact countsTo_countAttribute hr name (some v) limit
      · have hcount := hc ▸ countAttribute_eq_ncard hc hx hs v
        refine ⟨hcount none, fun k hk => ?_⟩
        rw [hcount (some k), limited, Int.toNat_natCast, max_eq_right hk, min_comm]

/-- An element with a value that holds two others with it, one of them beside remarks and inside
an element with another value. The name also stands in a namespace. -/
def nestedKeys : Document :=
  { key := 0
    content := [.comment ['k'],
      .element { base := ['r'] } [] [⟨{ base := ['k'] }, ['v']⟩]
        [.comment ['k'],
          .element { base := ['a'] } [⟨some ['p'], ['u']⟩]
            [⟨{ pfx := some ['p'], uri := some ['u'], base := ['k'] }, ['v']⟩] [],
          .element { base := ['a'] } [] [⟨{ base := ['k'] }, ['w']⟩]
            [.instruction ['k'] ['v'], .element { base := ['b'] } [] [⟨{ base := ['k'] }, ['v']⟩] []],
          .text ['v'],
          .element { base := ['c'] } [] [⟨{ base := ['k'] }, ['v']⟩] []]] }

/-- Three elements have the value, and with a limit of two the count stops there. -/
theorem countAttribute_nestedKeys :
    (Text.isXmlText ['k'] ∧ Spells ['k'] (none, ['k'])) ∧
      ((Context.document nestedKeys).bearers (none, ['k']) ['v']).ncard = 3 ∧
      countAttribute (Context.document nestedKeys).element? ['k'] (some ['v']) none = .ok 3 ∧
      countAttribute (Context.document nestedKeys).element? ['k'] (some ['v']) (some 2) =
        .ok 2 := by
  have hx : Text.isXmlText ['k'] = true := rfl
  have hs : Spells ['k'] (none, ['k']) := .plain (by decide)
  obtain ⟨hall, hlimit⟩ :=
    (countAttribute_exact (.document nestedKeys) ['k'] ['v']).2.1 (none, ['k']) hx hs
  have hthree : countAttribute (Context.document nestedKeys).element? ['k'] (some ['v']) none =
      .ok 3 := rfl
  have hcard := Except.ok.inj (hall.symm.trans hthree)
  have htwo := hlimit 2 (by decide)
  rw [hcard] at htwo
  exact ⟨⟨hx, hs⟩, hcard, hthree, htwo⟩

/-- One element with one attribute. -/
def loneKey : Document :=
  { key := 0
    content := [.element { base := ['r'] } [] [⟨{ base := ['k'] }, ['v']⟩] []] }

/-- **What is no name** has no count, though it is not empty: a text with a control character and
braces with nothing behind them are refused. -/
theorem countAttribute_noName :
    (['k', '\x01'] ≠ [] ∧
        countAttribute (Context.document loneKey).element? ['k', '\x01'] (some ['v']) none =
          .error .forbiddenText) ∧
      ['\x7b', 'u', '\x7d'] ≠ [] ∧
        countAttribute (Context.document loneKey).element? ['\x7b', 'u', '\x7d'] (some ['v']) none =
          .error .emptyName :=
  ⟨⟨List.cons_ne_nil _ _, rfl⟩, List.cons_ne_nil _ _, rfl⟩

end Locator
