/-
Places in queries

* `readInteger?_digits`: digits are read as the number they write, unless they are too
  many;
* `Test.Fits`: the digits of a place are not too many;
* `series_digits`, `series_error`: **a place is counted by the siblings in front**, and
  refused where its digits are too many.
-/
import Locator.Css.Query
import Locator.Proofs.Css.Condition

namespace Locator

open Text

namespace Text

variable {s : Text}

lemma digitValue?_of_isDigit {c : Char} (h : c.isDigit = true) :
    digitValue? c = some (c.toNat - '0'.toNat) := by
  have hlt : c.toNat < 128 := by
    have := isDigit_iff.mp h
    omega
  rw [digitValue?, if_pos hlt, if_pos h]

lemma mapM_digitValue? (h : ∀ c ∈ s, c.isDigit = true) :
    s.mapM digitValue? = some (s.map fun c => c.toNat - '0'.toNat) := by
  induction s with
  | nil => rfl
  | cons c s ih =>
      rw [List.forall_mem_cons] at h
      simp [digitValue?_of_isDigit h.1, ih h.2]

/-- Digits are read as the number they write, unless they are too many. -/
lemma readInteger?_digits (hne : s ≠ []) (h : ∀ c ∈ s, c.isDigit = true) :
    readInteger? s = if s.length ≤ maxDigits then some (ofDecimal s : Int) else none := by
  have hplain : ∀ c ∈ s, Css.isPlainIdentChar c = true := fun c hc => by
    simp [Css.isPlainIdentChar, Char.isAlphanum, h c hc]
  have hstrip : strip s = s := strip_eq_self (isTrim_of_all hne fun c hc =>
    Css.isBlank_of_isPlainIdentChar (hplain c hc))
  have hgroups : pieces (· == '_') s = [s] := pieces_of_forall fun c hc => by
    simpa using XPath.ne_of_isDigit (x := '_') (h c hc) rfl
  have hvalue : ((s.map fun c => c.toNat - '0'.toNat).foldl (fun n d => n * 10 + d) 0) =
      ofDecimal s := by
    rw [ofDecimal, List.foldl_map]
  simp only [readInteger?, hstrip]
  split
  · exact absurd (h '-' (by simp)) (by decide)
  · exact absurd (h '+' (by simp)) (by decide)
  · have hempty : s.isEmpty = false := by simpa using hne
    simp only [hgroups, List.any_cons, List.any_nil, List.flatten_cons, List.flatten_nil,
      List.append_nil, Bool.or_false, mapM_digitValue? h, hempty, Bool.false_or]
    by_cases hlen : s.length ≤ maxDigits
    · have hfew : decide (maxDigits < s.length) = false := by simpa using hlen
      simp only [hfew, hlen, Bool.false_eq_true, if_false, if_true, Option.bind_eq_bind,
        Option.bind_some, hvalue]
      rfl
    · have hmany : decide (maxDigits < s.length) = true := by simpa using hlen
      simp only [hmany, hlen, if_true, if_false]
      rfl

/-- Digits have no capital forms. -/
lemma lower_digits (h : ∀ c ∈ s, c.isDigit = true) : lower s = s := by
  have hlower : ∀ c ∈ s, Char.toLower c = id c := by
    intro c hc
    have hdigit := isDigit_iff.mp (h c hc)
    unfold Char.toLower
    split
    · next hupper =>
      have h1 : ('A'.val.toNat) ≤ c.val.toNat := UInt32.le_iff_toNat_le.mp hupper.1
      have h2 : 'A'.val.toNat = 65 := rfl
      have h3 : c.toNat = c.val.toNat := rfl
      omega
    · rfl
  rw [lower, List.map_congr_left hlower, List.map_id]

end Text

namespace Css

/-- A place with no more digits than are read. -/
def Test.Fits : Test → Prop
  | .nthOfType digits => digits.length ≤ maxDigits
  | _ => True

instance (t : Test) : Decidable t.Fits := by
  cases t <;> unfold Test.Fits <;> infer_instance

variable {digits : Text} {x : Draft}

/-- A number alone is a series of one place. -/
lemma readSeries_digits (hne : digits ≠ []) (h : ∀ c ∈ digits, c.isDigit = true) (p : ℕ) :
    Query.readSeries [⟨.number, digits, p⟩] =
      if digits.length ≤ maxDigits then some (0, (ofDecimal digits : Int)) else none := by
  have hplain : ∀ c ∈ digits, isPlainIdentChar c = true := fun c hc => by
    simp [isPlainIdentChar, Char.isAlphanum, h c hc]
  have hstrip : strip digits = digits := strip_eq_self (isTrim_of_all hne fun c hc =>
    isBlank_of_isPlainIdentChar (hplain c hc))
  have hlower : lower digits = digits := lower_digits h
  have hnot : ∀ {c : Char} {r : Text}, c.isDigit = false → (digits == c :: r) = false := by
    intro c r hc
    rw [beq_eq_false_iff_ne]
    rintro rfl
    simp [h c (by simp)] at hc
  have hcut : cutAt? 'n' digits = none := by
    have hall : ∀ c ∈ digits, decide (c ≠ 'n') = true := fun c hc => by
      simpa using XPath.ne_of_isDigit (x := 'n') (h c hc) rfl
    rw [cutAt?, List.dropWhile_eq_nil_iff.mpr hall]
  have hodd : (digits == "odd".toList) = false := hnot (c := 'o') rfl
  have heven : (digits == "even".toList) = false := hnot (c := 'e') rfl
  have hvalue : lower (strip ([(⟨.number, digits, p⟩ : Token)].flatMap Token.value)) = digits := by
    simp [hstrip, hlower]
  simp only [Query.readSeries, hvalue, hodd, heven, hcut]
  by_cases hlen : digits.length ≤ maxDigits
  · simp [readInteger?_digits hne h, hlen]
  · simp [readInteger?_digits hne h, hlen]

/-- **A place is counted by the siblings in front** that have the name. -/
theorem series_digits (hne : digits ≠ []) (h : ∀ c ∈ digits, c.isDigit = true)
    (hlen : digits.length ≤ maxDigits) (p : ℕ) :
    Query.series x [⟨.number, digits, p⟩] false true =
      .ok (x.withCondition (Query.siblingCount false x.element ++ " = ".toList ++
        signed ((ofDecimal digits : ℤ) - 1))) := by
  have hplace : ∀ count : Text, Query.seriesCondition 0 (ofDecimal digits) count =
      some (count ++ " = ".toList ++ signed ((ofDecimal digits : ℤ) - 1)) := fun _ => rfl
  simp [Query.series, readSeries_digits hne h, hlen, hplace]

/-- A place with too many digits is refused. -/
theorem series_error (hne : digits ≠ []) (h : ∀ c ∈ digits, c.isDigit = true)
    (hlen : maxDigits < digits.length) (p : ℕ) :
    ∃ e, Query.series x [⟨.number, digits, p⟩] false true = .error e := by
  rw [Query.series, readSeries_digits hne h, if_neg (by omega)]
  exact ⟨_, rfl⟩

end Css

end Locator
