/-
Tests that are stated by conditions

* `Test.isStated`, `isStated_of_states`: the tests that conditions can state;
* `equalsText`, `classText`: the conditions for an attribute with a value and for a class,
  and `Test.toXPath_cases`: there are no others but positions;
* `states_toXPath`: **a stated test is stated by its own condition**.
-/
import Locator.Proofs.Convert.States

namespace Locator

open Text

namespace Css

open XPath

variable {t : Test} {s v w : Text}

/-- The tests that conditions can state. Where an identifier could stand bare, it does. -/
def Test.isStated : Test → Bool
  | .id v => isPlainIdent v
  | .classToken w => isPlainIdent w
  | .compare a .equals v =>
    isWordName a && isQuotable v && !(a == "id".toList && isPlainIdent v)
  | .compare a .hasWord w => a == "class".toList && isWordText w && !isPlainIdent w
  | .nthOfType digits => !digits.isEmpty && digits.all Text.isDigit
  | _ => false

/-- What a condition states is a stated test. -/
lemma isStated_of_states (h : States t s) : t.isStated = true := by
  cases h with
  | @equals a _ _ v q ha _ _ hq hv =>
      rw [equalsTest]
      split_ifs with hbare
      · rw [Bool.and_eq_true] at hbare
        exact hbare.2
      · rw [Test.isStated, ha, isQuotable_of_not_mem hq hv, Bool.eq_false_of_not_eq_true hbare]
        rfl
  | @word _ _ w _ _ _ hw _ =>
      rw [classTest]
      split_ifs with hplain
      · exact hplain
      · rw [Test.isStated, hw, Bool.eq_false_of_not_eq_true hplain]
        rfl
  | position _ _ hne hd =>
      rw [Test.isStated, hd, Bool.and_true, Bool.not_eq_true', List.isEmpty_eq_false_iff]
      exact hne

lemma isWordText_ident (h : isPlainIdent v = true) : isWordText v = true := by
  rw [isWordText, Bool.and_eq_true, Bool.not_eq_true', List.isEmpty_eq_false_iff, List.all_eq_true]
  refine ⟨(isIdent_of_isPlainIdent h).ne_nil, fun c hc => ?_⟩
  have hinert := isInert_ident h c hc
  rw [isWordChar, isBlank_of_isInert hinert, bne_iff_ne.mpr (ne_of_isInert hinert rfl)]
  rfl

lemma mark_not_mem_wordText (h : isWordText w = true) : '\'' ∉ w := fun hm => by
  simp only [isWordText, Bool.and_eq_true, List.all_eq_true] at h
  exact absurd (h.2 _ hm) (by decide)

/-- The condition for an attribute with a value. -/
def equalsText (a v : Text) : Text := '@' :: (a ++ '=' :: ('"' :: v ++ ['"']))

/-- The condition for a class, up to the class. -/
def classStart : Text := "contains(concat(' ', normalize-space(@class), ' '), ".toList

/-- The condition for a class. -/
def classText (w : Text) : Text := classStart ++ ('\'' :: (' ' :: w ++ [' ']) ++ ['\'']) ++ [')']

lemma toXPath_equals (a : Text) (hv : '"' ∉ v) :
    (Test.compare a .equals v).toXPath = equalsText a v := by
  have hliteral : literal v = '"' :: v ++ ['"'] := if_pos (by simpa using hv)
  have htext : (Test.compare a .equals v).toXPath = '@' :: a ++ '=' :: literal v := rfl
  rw [htext, hliteral]
  rfl

lemma toXPath_id (hv : '"' ∉ v) : (Test.id v).toXPath = equalsText "id".toList v := by
  have hliteral : literal v = '"' :: v ++ ['"'] := if_pos (by simpa using hv)
  have htext : (Test.id v).toXPath = "@id=".toList ++ literal v := rfl
  rw [htext, hliteral]
  rfl

/-- Blanks and marks around a word, one after the other. -/
lemma classText_eq (w : Text) : classText w =
    "contains(".toList ++ paddedClass ++ ", ' ".toList ++ w ++ " ')".toList := by
  have hstart : "contains(".toList ++ paddedClass ++ ", ' ".toList = classStart ++ ['\'', ' '] := rfl
  have hend : " ')".toList = [' ', '\'', ')'] := rfl
  rw [hstart, hend, classText]
  simp only [List.append_assoc, List.cons_append, List.nil_append]

lemma toXPath_classToken (w : Text) : (Test.classToken w).toXPath = classText w := by
  rw [classText_eq]
  rfl

lemma toXPath_hasWord (hw : '\'' ∉ w) :
    (Test.compare "class".toList .hasWord w).toXPath = classText w := by
  have hpadded : paddedLiteral w = '\'' :: (' ' :: w ++ [' ']) ++ ['\''] := by
    have hopen : "' ".toList = ['\'', ' '] := rfl
    have hclose : " '".toList = [' ', '\''] := rfl
    rw [paddedLiteral, if_neg (by simpa using hw), hopen, hclose]
    simp only [List.append_assoc, List.cons_append, List.nil_append]
  have htext : (Test.compare "class".toList .hasWord w).toXPath =
      classStart ++ paddedLiteral w ++ [')'] := rfl
  rw [htext, hpadded]
  rfl

/-- A value that stands in a condition: that of the test, or an identifier. -/
def Test.Shows (t : Test) (v : Text) : Prop := v = t.value ∨ isPlainIdent v = true

/-- **The condition of a stated test** is one for an attribute with a value, one for a class,
or one for a position. -/
lemma Test.toXPath_cases (h : t.isStated = true) (hv : '"' ∉ t.value) :
    (∃ a v, isWordName a = true ∧ '"' ∉ v ∧ t.Shows v ∧ t = equalsTest a v ∧
      t.toXPath = equalsText a v) ∨
    (∃ w, isWordText w = true ∧ t.Shows w ∧ t = classTest w ∧ t.toXPath = classText w) ∨
    ∃ digits, digits ≠ [] ∧ digits.all Text.isDigit = true ∧ t = .nthOfType digits ∧
      t.toXPath = "position()=".toList ++ digits := by
  cases t with
  | id v =>
      have hplain : isPlainIdent v = true := h
      have hmark : '"' ∉ v := fun hm => absurd (isInert_ident hplain _ hm) (by decide)
      have ht : equalsTest "id".toList v = .id v := if_pos (by rw [hplain]; rfl)
      exact .inl ⟨_, v, by decide, hmark, .inr hplain, ht.symm, toXPath_id hmark⟩
  | classToken w =>
      have hplain : isPlainIdent w = true := h
      have ht : classTest w = .classToken w := if_pos hplain
      exact .inr (.inl ⟨w, isWordText_ident hplain, .inr hplain, ht.symm, toXPath_classToken w⟩)
  | present a => exact absurd h Bool.false_ne_true
  | compare a how v =>
      cases how with
      | equals =>
          simp only [Test.isStated, Bool.and_eq_true, Bool.not_eq_true'] at h
          have hmark : '"' ∉ v := hv
          have ht : equalsTest a v = .compare a .equals v := if_neg (by rw [h.2]; decide)
          exact .inl ⟨a, v, h.1.1, hmark, .inl rfl, ht.symm, toXPath_equals a hmark⟩
      | hasWord =>
          simp only [Test.isStated, Bool.and_eq_true, Bool.not_eq_true', beq_iff_eq] at h
          obtain ⟨⟨rfl, hw⟩, hplain⟩ := h
          have ht : classTest v = .compare "class".toList .hasWord v :=
            if_neg (by rw [hplain]; decide)
          exact .inr (.inl ⟨v, hw, .inl rfl, ht.symm, toXPath_hasWord (mark_not_mem_wordText hw)⟩)
      | _ => exact absurd h Bool.false_ne_true
  | nthOfType digits =>
      simp only [Test.isStated, Bool.and_eq_true, Bool.not_eq_true', List.isEmpty_eq_false_iff] at h
      exact .inr (.inr ⟨digits, h.1, h.2, rfl, rfl⟩)

/-- An attribute with a value is stated by its condition. -/
lemma states_equalsText {a : Text} (ha : isWordName a = true) (hv : '"' ∉ v) :
    States (equalsTest a v) (equalsText a v) :=
  .equals ha isBlanks_nil isBlanks_nil rfl hv

/-- The words of a condition for a class as they are printed. -/
lemma spacedWords_class : SpacedWords classWords "concat(' ', normalize-space(@class), ' '),".toList := by
  have hblank : IsBlanks [' '] := isBlanks_singleton rfl
  have hnil : ∀ {w u : Text} {ws : List Text}, SpacedWords ws u → SpacedWords (w :: ws) (w ++ u) :=
    fun h => .cons isBlanks_nil h
  exact hnil <| hnil <| hnil <| .cons hblank <| hnil <| hnil <| hnil <| .cons hblank <| hnil <|
    hnil .nil

/-- A class is stated by its condition. -/
lemma states_classText (hw : isWordText w = true) : States (classTest w) (classText w) := by
  have hblank : IsBlanks [' '] := isBlanks_singleton rfl
  have h := States.word spacedWords_class hblank hw isBlanks_nil
  have hstart : classStart = "contains(".toList ++
    ("concat(' ', normalize-space(@class), ' '),".toList ++ [' ']) := rfl
  have hopen : "' ".toList = ['\'', ' '] := rfl
  have hclose : " '".toList = [' ', '\''] := rfl
  rw [classText, hstart]
  rw [hopen, hclose] at h
  simpa only [List.append_assoc, List.cons_append, List.nil_append] using h

/-- **A stated test is stated by its own condition**, unless its value holds a double
quotation mark. -/
theorem states_toXPath (h : t.isStated = true) (hv : '"' ∉ t.value) : States t t.toXPath := by
  obtain ⟨a, v, ha, hmark, -, ht, htext⟩ | ⟨w, hw, -, ht, htext⟩ | ⟨digits, hne, hd, ht, htext⟩ :=
    Test.toXPath_cases h hv
  · rw [htext, ht]
    exact states_equalsText ha hmark
  · rw [htext, ht]
    exact states_classText hw
  · rw [htext, ht]
    exact .position isBlanks_nil isBlanks_nil hne hd

end Css

end Locator
