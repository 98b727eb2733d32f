/-
Regular documents

* `Document.IsRegular`: one element stands at the top, prefixes are names, and no
  element has an attribute twice;
* `Node.lookUp_eq`, `Document.IsRegular.mem_valuesAt_iff`: **the value of an attribute** without a
  namespace is then the only one;
* `Document.IsRegular.startsPlain_pathName?`: the name of an element in a path
  starts with no slash.
-/
import Locator.Uniqueness
import Locator.Proofs.Document.Xml
import Locator.Proofs.XPath.Condition
import Locator.Proofs.Outcome

namespace Locator

/-- The namespace and the local part of an attribute. -/
def Attribute.key (t : Attribute) : Option Text × Text := (t.name.uri, t.name.base)

/-- A piece whose prefix, if there is one, is a name, and without an attribute twice. -/
def Markup.isRegular : Markup → Bool
  | .element n _ as _ => n.pfx.all Node.isPathName && decide (as.map Attribute.key).Nodup
  | _ => true

/-- A document as it is read: one element stands at the top, prefixes are names,
and no element has an attribute twice. -/
structure Document.IsRegular (d : Document) : Prop where
  whole : d.IsWhole
  pieces : ∀ p ∈ d.pieces, p.2.isRegular = true

instance (d : Document) : Decidable d.IsRegular :=
  decidable_of_iff (d.IsWhole ∧ ∀ p ∈ d.pieces, p.2.isRegular = true)
    ⟨fun h => ⟨h.1, h.2⟩, fun h => ⟨h.whole, h.pieces⟩⟩

variable {d : Document} {k n : Node} {a v : Text}

/-! ### Values of attributes -/

/-- What is looked up under a name is the value of the first attribute of the name. -/
lemma Node.lookUp_of_key {uri : Option Text} {base : Text} (hx : Text.isXmlText a)
    (hs : splitExpanded a = .ok (uri, base)) (hk : k.isElement) :
    k.lookUp a = .ok ((k.attributes.find? fun t =>
      t.name.uri == uri && t.name.base == base).map Attribute.value) := by
  rw [Node.lookUp, hs, hx]
  simp only [hk, Bool.not_true, Bool.false_eq_true, if_false, ok_bind, pure_eq_ok]

/-- The value of an attribute is the first one there is. -/
lemma Node.lookUp_of_split (hx : Text.isXmlText a) (hs : splitExpanded a = .ok (none, a))
    (hk : k.isElement) : k.lookUp a = .ok (k.document.valuesAt k.address a).head? := by
  rw [lookUp_of_key hx hs hk, Document.valuesAt, List.head?_map, List.head?_filter]
  rfl

/-- A name without a namespace in braces has none. -/
lemma splitExpanded_of_head {c : Char} (hc : c ≠ '\x7b') (r : Text) :
    splitExpanded (c :: r) = .ok (none, c :: r) := by
  rw [splitExpanded]
  · simp
  · simp [hc]

/-- The value of an attribute that has a name is the first one there is. -/
lemma Node.lookUp_eq (ha : Text.IsName a) (hk : k.isElement) :
    k.lookUp a = .ok (k.document.valuesAt k.address a).head? := by
  refine lookUp_of_split (Text.isXmlText_of_isName ha) ?_ hk
  obtain ⟨c, r, rfl, hc, -⟩ := ha
  exact splitExpanded_of_head (Text.ne_of_isNameStart hc rfl) r

/-- Of keys that are told apart one alone is that of an attribute. -/
lemma length_filter_isPlain_le {as : List Attribute} (h : (as.map Attribute.key).Nodup) (a : Text) :
    (as.filter (·.isPlain a)).length ≤ 1 := by
  induction as with
  | nil => exact Nat.zero_le 1
  | cons t as ih =>
      rw [List.map_cons, List.nodup_cons] at h
      by_cases ht : t.isPlain a
      · have hnone : as.filter (·.isPlain a) = [] := by
          rw [List.filter_eq_nil_iff]
          intro u hu hplain
          refine h.1 (List.mem_map.mpr ⟨u, hu, ?_⟩)
          simp only [Attribute.isPlain, Bool.and_eq_true, beq_iff_eq] at ht hplain
          rw [Attribute.key, Attribute.key, ht.1, ht.2, hplain.1, hplain.2]
        simp [ht, hnone]
      · simpa [ht] using ih h.2

namespace Document.IsRegular

lemma isRegular_of_get? (h : d.IsRegular) {b : Address} {m : Markup} (hm : d.get? b = some m) :
    m.isRegular = true :=
  h.pieces (b, m) (mem_pieces.mpr hm)

/-- An element has an attribute with one value at most. -/
lemma length_valuesAt_le (h : d.IsRegular) (b : Address) (a : Text) :
    (d.valuesAt b a).length ≤ 1 := by
  rw [valuesAt, List.length_map, attributesAt]
  cases hm : d.get? b with
  | none => simp
  | some m =>
      have hr := h.isRegular_of_get? hm
      cases m with
      | element name bs as cs =>
          simp only [Markup.isRegular, Bool.and_eq_true, decide_eq_true_eq] at hr
          exact length_filter_isPlain_le hr.2 a
      | _ => simp [Markup.attributes]

/-- A value that is looked up is the only one. -/
lemma mem_valuesAt_iff_of_lookUp (h : k.document.IsRegular)
    (hl : k.lookUp a = .ok (k.document.valuesAt k.address a).head?) :
    v ∈ k.document.valuesAt k.address a ↔ k.lookUp a = .ok (some v) := by
  have hle := h.length_valuesAt_le k.address a
  rw [hl]
  cases hv : k.document.valuesAt k.address a with
  | nil => simp
  | cons w ws =>
      obtain rfl : ws = [] := by
        rw [hv, List.length_cons] at hle
        exact List.length_eq_zero_iff.mp (by omega)
      simp [eq_comm]

/-- **The value of an attribute** is the only one. -/
theorem mem_valuesAt_iff (h : k.document.IsRegular) (ha : Text.IsName a) (hk : k.isElement) :
    v ∈ k.document.valuesAt k.address a ↔ k.lookUp a = .ok (some v) :=
  h.mem_valuesAt_iff_of_lookUp (Node.lookUp_eq ha hk)

/-! ### Names -/

/-- The name of an element in a path starts with no slash. -/
lemma startsPlain_pathName? (h : n.document.IsRegular) {tag : Text} (ht : n.pathName? = some tag) :
    ∃ c r, tag = c :: r ∧ c ≠ '/' := by
  have hstart : ∀ s : Text, Text.IsName s → ∀ t, ∃ c r, s ++ t = c :: r ∧ c ≠ '/' := by
    rintro s ⟨c, r, rfl, hc, -⟩ t
    exact ⟨c, r ++ t, rfl, Text.ne_of_isNameStart hc rfl⟩
  obtain ⟨name, hname, ht⟩ := Option.bind_eq_some_iff.mp ht
  obtain ⟨m, hm, hmn⟩ := Option.bind_eq_some_iff.mp hname
  split_ifs at ht with hbase huri
  · have hb : Text.IsName name.base := Text.isPathName_iff.mp (by simpa using hbase)
    have hr := h.isRegular_of_get? hm
    obtain rfl : name.qualified = tag := by simpa using ht
    rw [Name.qualified]
    cases hp : name.pfx with
    | none => simpa using hstart _ hb []
    | some p =>
        cases m with
        | element l bs as cs =>
            obtain rfl : l = name := by simpa [Markup.name?] using hmn
            simp only [Markup.isRegular, hp, Option.all_some, Bool.and_eq_true] at hr
            exact hstart _ (Text.isPathName_iff.mp hr.1) _
        | _ => simp [Markup.name?] at hmn
  · have hb : Text.IsName name.base := Text.isPathName_iff.mp (by simpa using hbase)
    obtain rfl : name.base = tag := by simpa using ht
    simpa using hstart _ hb []

end Document.IsRegular

end Locator
