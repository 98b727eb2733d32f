/-
From selectors to paths and back

* `toXPath_canonical`: the path of a canonical text, and `chainsOf_toXPath`: **the chains of
  the path are those of the groups**;
* `Compound.isCanonical`: the compounds of canonical selectors, and `toCss_toXPath`: **a
  canonical selector comes back** from its path.
-/
import Locator.Proofs.Convert.Chains
import Locator.Proofs.Convert.List

namespace Locator.Css

open Text XPath

variable {g : Group} {gs : List Group} {c : Compound} {t : Test}

/-! ### Selectors of stated tests -/

lemma Test.isLegible_of_isStated (h : t.isStated = true) : t.isLegible = true := by
  cases t with
  | id v => exact h
  | classToken v => exact h
  | present a => exact absurd h Bool.false_ne_true
  | compare a how v =>
      cases how with
      | equals =>
          simp only [isStated, Bool.and_eq_true] at h
          exact h.1.1
      | hasWord =>
          simp only [isStated, Bool.and_eq_true, beq_iff_eq] at h
          rw [isLegible, h.1.1]
          decide
      | _ => exact absurd h Bool.false_ne_true
  | nthOfType digits => exact h

lemma Compound.IsStated.isLegible (h : c.IsStated) : c.isLegible = true := by
  rw [Compound.isLegible, Bool.and_eq_true, List.all_eq_true, Bool.or_eq_true, beq_iff_eq]
  exact ⟨h.tag, fun t ht => Test.isLegible_of_isStated (h.stated t ht)⟩

lemma Compound.IsStated.tag_ne_nil (h : c.IsStated) : c.tag ≠ [] := by
  rcases h.tag with hstar | hname
  · rw [hstar]
    exact List.cons_ne_nil _ _
  · exact isWordName_ne_nil hname

/-- **The path of a canonical text** whose values need no escapes and hide nothing. -/
theorem toXPath_canonical (hne : gs ≠ []) (h : ∀ g ∈ gs, ∀ c ∈ g.compounds, c.IsStated)
    (hb : ∀ g ∈ gs, ∀ c ∈ g.compounds, ∀ t ∈ c.tests, '\\' ∉ t.value)
    (hl : ∀ g ∈ gs, g.IsLevel) :
    toXPath (.text (canonical gs)) = .ok (join " | ".toList (gs.map fun g => g.chain.toXPath)) := by
  have hwrites : ListWrites Test.Quotes gs (canonical gs) :=
    (writes_canonical hne fun g hg c hc => (h g hg c hc).tag_ne_nil).mono fun g hg c hc t ht u hu =>
      hu.quotes ((h g hg c hc).raw t ht) (hb g hg c hc t ht)
  exact toXPath_eq hwrites (fun g hg c hc => (h g hg c hc).isLegible) hl areBlanks_nil

/-- The selector of the union of the paths of groups is their canonical text. -/
lemma toCss_paths (hne : gs ≠ []) (h : ∀ g ∈ gs, ∀ c ∈ g.compounds, c.IsStated)
    (hs : ∀ g ∈ gs, ∀ c ∈ g.compounds, ∀ t ∈ c.tests, squeeze t.value = t.value) :
    XPath.toCss (join " | ".toList (gs.map fun g => g.chain.toXPath)) = some (canonical gs) := by
  rw [XPath.toCss_eq, chainsOf_paths hne h hs, Option.map_some, List.map_map]
  rfl

/-- **The selector of the path** of a canonical text is that text. -/
theorem toCss_toXPath_of_isStated (hne : gs ≠ []) (h : ∀ g ∈ gs, ∀ c ∈ g.compounds, c.IsStated)
    (hb : ∀ g ∈ gs, ∀ c ∈ g.compounds, ∀ t ∈ c.tests, '\\' ∉ t.value)
    (hs : ∀ g ∈ gs, ∀ c ∈ g.compounds, ∀ t ∈ c.tests, squeeze t.value = t.value)
    (hl : ∀ g ∈ gs, g.IsLevel) :
    ∃ p, toXPath (.text (canonical gs)) = .ok p ∧ XPath.toCss p = some (canonical gs) :=
  ⟨_, toXPath_canonical hne h hb hl, toCss_paths hne h hs⟩

/-! ### Canonical selectors -/

/-- The tests of canonical selectors. Where an identifier can stand bare, it does. -/
def Test.isCanonical : Test → Bool
  | .id v => isPlainIdent v
  | .classToken v => isPlainIdent v
  | .compare a .equals v =>
    isPlainName a && v.all (fun c => c != '"' && c != '\\' && c != '[' && c != ']') &&
      !occursIn "///".toList v && !(a == "id".toList && isPlainIdent v)
  | .nthOfType digits => !digits.isEmpty && digits.all Char.isDigit
  | _ => false

/-- The compounds of canonical selectors. -/
def Compound.isCanonical (c : Compound) : Bool :=
  (c.tag == ['*'] || isPlainName c.tag) && c.tests.all Test.isCanonical

/-- The values of canonical selectors need no escapes, hide nothing and are not shortened. -/
lemma Test.value_of_isCanonical (h : t.isCanonical = true) :
    '"' ∉ t.value ∧ '\\' ∉ t.value ∧ '[' ∉ t.value ∧ ']' ∉ t.value ∧
      squeeze t.value = t.value := by
  cases t with
  | compare a how v =>
      cases how with
      | equals =>
          simp only [isCanonical, Bool.and_eq_true, List.all_eq_true, bne_iff_ne,
            Bool.not_eq_true'] at h
          refine ⟨fun hm => ?_, fun hm => ?_, fun hm => ?_, fun hm => ?_, ?_⟩
          · exact (h.1.1.2 _ hm).1.1.1 rfl
          · exact (h.1.1.2 _ hm).1.1.2 rfl
          · exact (h.1.1.2 _ hm).1.2 rfl
          · exact (h.1.1.2 _ hm).2 rfl
          · rw [squeeze_eq_self_iff, ← occursIn_iff]
            exact Bool.eq_false_iff.mp h.1.2
      | _ => exact absurd h Bool.false_ne_true
  | _ => simp [value]

lemma Test.isStated_of_isCanonical (h : t.isCanonical = true) : t.isStated = true := by
  have hmark := (Test.value_of_isCanonical h).1
  cases t with
  | id v => exact h
  | classToken v => exact h
  | present a => exact absurd h Bool.false_ne_true
  | compare a how v =>
      cases how with
      | equals =>
          simp only [isCanonical, Bool.and_eq_true] at h
          rw [isStated, isWordName_of_isPlainName h.1.1.1, h.2, isQuotable_iff (v := v) |>.mpr (.inl hmark)]
          rfl
      | _ => exact absurd h Bool.false_ne_true
  | nthOfType digits =>
      simp only [isCanonical, Bool.and_eq_true, List.all_eq_true] at h
      rw [isStated, h.1, Bool.true_and, List.all_eq_true]
      exact fun c hc => isDigit_of_decimal (h.2 c hc)

lemma Compound.isCanonical_tests (h : c.isCanonical = true) : ∀ t ∈ c.tests, t.isCanonical = true := by
  rw [isCanonical, Bool.and_eq_true, List.all_eq_true] at h
  exact h.2

lemma Compound.isStated_of_isCanonical (h : c.isCanonical = true) : c.IsStated where
  tag := by
    rw [isCanonical, Bool.and_eq_true, Bool.or_eq_true, beq_iff_eq] at h
    exact h.1.imp_right isWordName_of_isPlainName
  stated t ht := Test.isStated_of_isCanonical (Compound.isCanonical_tests h t ht)
  raw t ht := (Test.value_of_isCanonical (Compound.isCanonical_tests h t ht)).1

/-- **A canonical selector comes back** from its path, character for character. -/
theorem toCss_toXPath (hne : gs ≠ []) (h : ∀ g ∈ gs, ∀ c ∈ g.compounds, c.isCanonical = true) :
    ∃ p, toXPath (.text (canonical gs)) = .ok p ∧ XPath.toCss p = some (canonical gs) := by
  have hvalue := fun g hg c hc t ht =>
    Test.value_of_isCanonical (Compound.isCanonical_tests (h g hg c hc) t ht)
  refine toCss_toXPath_of_isStated hne
    (fun g hg c hc => Compound.isStated_of_isCanonical (h g hg c hc))
    (fun g hg c hc t ht => (hvalue g hg c hc t ht).2.1)
    (fun g hg c hc t ht => (hvalue g hg c hc t ht).2.2.2.2) fun g hg => ⟨?_, ?_⟩
  · exact fun c hc t ht => (hvalue g hg c hc t ht).2.2.2.1
  · exact fun c hc t ht => (hvalue g hg c (List.mem_of_mem_dropLast hc) t ht).2.2.1

/-- A list of two groups with tests of all kinds comes back. -/
theorem toCss_toXPath_mixed :
    let gs : List Group := [⟨⟨"ul".toList, [.id "x".toList]⟩, [⟨.child, ⟨['*'], [.nthOfType "02".toList]⟩⟩]⟩,
      ⟨⟨['*'], []⟩, [⟨.descendant, ⟨"a".toList, [.classToken "y".toList,
        .compare "title".toList .equals "it's / | > , and more".toList]⟩⟩]⟩]
    (gs ≠ [] ∧ ∀ g ∈ gs, ∀ c ∈ g.compounds, c.isCanonical = true) ∧
      ∃ p, toXPath (.text (canonical gs)) = .ok p ∧ XPath.toCss p = some (canonical gs) := by
  intro gs
  have hne : gs ≠ [] := List.cons_ne_nil _ _
  have h : ∀ g ∈ gs, ∀ c ∈ g.compounds, c.isCanonical = true := by decide
  exact ⟨⟨hne, h⟩, toCss_toXPath hne h⟩

end Locator.Css
