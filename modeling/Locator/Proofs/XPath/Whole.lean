/-
Whole numbers

Counts are numbers of paths as they are, and a whole number that is written in
digits equals a count exactly when the digits write it, however many there are.

* `Number.firstPlace_spec`: the place of the first binary digit;
* `Number.IsLarge`: no smaller than every count, and `Number.isLarge_ofRat`: what
  is that large stays so when it is rounded;
* `Number.ofDigits_spec`: digits write a whole number up to the limit exactly,
  and a large one beyond;
* `Number.eq_ofDigits`: **digits and counts**.
-/
import Mathlib.Tactic
import Mathlib.Data.Rat.Floor
import Locator.XPath.Number

namespace Locator.Text

/-! ### Numbers in digits -/

/-- A number in digits is written by them. -/
@[simp]
lemma ofDecimal_decimal (n : ℕ) : ofDecimal (decimal n) = n := by
  simpa [ofDecimal, decimal, Nat.ofDigitChars_eq_foldl, Nat.mul_comm] using
    Nat.ofDigitChars_ten_toDigits (n := n)

lemma isDigit_of_mem_decimal {n : ℕ} {c : Char} (h : c ∈ decimal n) : c.isDigit = true :=
  Nat.isDigit_of_mem_toDigits (by omega) (by omega) h

lemma decimal_ne_nil (n : ℕ) : decimal n ≠ [] := Nat.toDigits_ne_nil

end Locator.Text

namespace Locator.XPath.Number

/-! ### Rounding -/

lemma twoPow_eq (e : ℤ) : twoPow e = (2 : ℚ) ^ e := by
  rw [twoPow]
  split_ifs with h
  · lift e to ℕ using h
    simp
  · obtain ⟨n, rfl⟩ : ∃ n : ℕ, e = -n := ⟨(-e).toNat, by omega⟩
    simp

lemma size_of_pos {q : ℚ} (hq : 0 < q) : size q = q := by
  rw [size, if_neg (not_lt.mpr hq.le)]

/-- A positive whole number lies between two neighbouring powers of two. -/
lemma log2_spec {n : ℕ} (hn : n ≠ 0) :
    (2 : ℚ) ^ (n.log2 : ℤ) ≤ n ∧ (n : ℚ) < (2 : ℚ) ^ (n.log2 + 1 : ℤ) := by
  constructor
  · exact_mod_cast Nat.log2_self_le hn
  · exact_mod_cast Nat.lt_log2_self (n := n)

/-- The place of the first binary digit of a positive rational. -/
lemma firstPlace_spec {q : ℚ} (hq : 0 < q) :
    (2 : ℚ) ^ firstPlace q ≤ q ∧ q < (2 : ℚ) ^ (firstPlace q + 1) := by
  have hnum : 0 < q.num := Rat.num_pos.mpr hq
  obtain ⟨hn1, hn2⟩ := log2_spec (n := q.num.natAbs) (by omega)
  obtain ⟨hd1, hd2⟩ := log2_spec q.den_nz
  set m : ℤ := (q.num.natAbs.log2 : ℤ)
  set k : ℤ := (q.den.log2 : ℤ)
  have hqd : q * q.den = q.num.natAbs := by
    have h : ((q.num.natAbs : ℤ) : ℚ) = q.num := by
      rw [Int.natAbs_of_nonneg hnum.le]
    rw [Rat.mul_den_eq_num, ← h]
    simp
  have hden : (0 : ℚ) < q.den := by exact_mod_cast q.den_pos
  have hlow : (2 : ℚ) ^ (m - k - 1) ≤ q := by
    rw [show m - k - 1 = m - (k + 1) by ring, zpow_sub₀ two_ne_zero,
      div_le_iff₀ (by positivity)]
    calc (2 : ℚ) ^ m ≤ q * q.den := by rw [hqd]; exact hn1
      _ ≤ q * 2 ^ (k + 1) := by gcongr
  have hhigh : q < (2 : ℚ) ^ (m - k + 1) := by
    rw [show m - k + 1 = (m + 1) - k by ring, zpow_sub₀ two_ne_zero,
      lt_div_iff₀ (by positivity)]
    calc q * 2 ^ k ≤ q * q.den := by gcongr
      _ < 2 ^ (m + 1) := by rw [hqd]; exact hn2
  rw [firstPlace, size_of_pos hq, twoPow_eq]
  change (2 : ℚ) ^ (if (2 : ℚ) ^ (m - k) ≤ q then m - k else m - k - 1) ≤ q ∧ _
  split_ifs with h
  · exact ⟨h, hhigh⟩
  · exact ⟨hlow, by simpa using not_le.mp h⟩

/-- Rounding to a whole number takes away less than one. -/
lemma floor_le_nearestEven (q : ℚ) : q.floor ≤ nearestEven q := by
  rw [nearestEven]
  split_ifs <;> omega

/-- What is no smaller than a power of two stays so when it is rounded. -/
lemma two_pow_le_nearest {q : ℚ} {k : ℕ} (hk : 53 ≤ k) (h : 2 ^ k ≤ q) : 2 ^ k ≤ nearest q := by
  have hq : 0 < q := lt_of_lt_of_le (by positivity) h
  obtain ⟨h1, h2⟩ := firstPlace_spec hq
  have hf : (k : ℤ) ≤ firstPlace q := by
    have : (2 : ℚ) ^ (k : ℤ) < 2 ^ (firstPlace q + 1) := lt_of_le_of_lt (by exact_mod_cast h) h2
    have := (zpow_lt_zpow_iff_right₀ (by norm_num : (1 : ℚ) < 2)).mp this
    omega
  have hl : lastPlace q = firstPlace q - 52 := by
    rw [lastPlace]
    omega
  have hscaled : ((2 ^ 52 : ℤ) : ℚ) ≤ q * twoPow (-lastPlace q) := by
    rw [twoPow_eq, hl, zpow_neg, ← div_eq_mul_inv, le_div_iff₀ (by positivity)]
    calc ((2 ^ 52 : ℤ) : ℚ) * 2 ^ (firstPlace q - 52) = 2 ^ firstPlace q := by
          rw [zpow_sub₀ two_ne_zero]
          push_cast
          field_simp
      _ ≤ q := h1
  have hround : (2 ^ 52 : ℤ) ≤ nearestEven (q * twoPow (-lastPlace q)) :=
    (Rat.le_floor_iff.mpr hscaled).trans (floor_le_nearestEven _)
  calc (2 : ℚ) ^ k ≤ 2 ^ firstPlace q := by
        exact_mod_cast zpow_le_zpow_right₀ (by norm_num : (1 : ℚ) ≤ 2) hf
    _ = ((2 ^ 52 : ℤ) : ℚ) * 2 ^ (firstPlace q - 52) := by
        rw [zpow_sub₀ two_ne_zero]
        push_cast
        field_simp
    _ ≤ nearest q := by
        rw [nearest, twoPow_eq (lastPlace q), hl]
        rw [hl] at hround
        gcongr

/-! ### Counts -/

/-- A count is its own number. -/
lemma ofNat_eq {n : ℕ} (h : n ≤ exactLimit) : ofNat n = .finite n := by
  rw [ofNat, ofRat]
  split_ifs with h0 h1
  · have : n = 0 := by simpa using h0
    simp [zero, this]
  · rfl
  · simp [h] at h1

/-- The sum of two counts. -/
lemma add_ofNat {m n : ℕ} (h : m + n ≤ exactLimit) : (ofNat m).add (ofNat n) = ofNat (m + n) := by
  rw [ofNat_eq (by omega : m ≤ exactLimit), ofNat_eq (by omega : n ≤ exactLimit)]
  simp [add, amount, ofNat]

/-- The difference of two counts. -/
lemma sub_ofNat {m n : ℕ} (hn : n ≤ m) (hm : m ≤ exactLimit) :
    (ofNat m).sub (ofNat n) = ofNat (m - n) := by
  rw [ofNat_eq hm, ofNat_eq (hn.trans hm), sub, neg]
  rcases Nat.eq_zero_or_pos n with rfl | hpos
  · simp [add, amount, ofNat]
  · have hne : ((n : ℚ) == 0) = false := by simp; omega
    simp [hne, add, amount, ofNat, Nat.cast_sub hn, sub_eq_add_neg]

/-- No smaller than every count. -/
def IsLarge : Number → Prop
  | .finite q => 2 ^ 53 ≤ q
  | .infinite negative => negative = false
  | _ => False

/-- What is that large stays so when it is rounded. -/
lemma isLarge_ofRat {q : ℚ} (h : 2 ^ 53 ≤ q) (negative : Bool) : IsLarge (ofRat q negative) := by
  have hq : 0 < q := lt_of_lt_of_le (by positivity) h
  have hr : 2 ^ 53 ≤ nearest q := two_pow_le_nearest le_rfl h
  rw [ofRat]
  split_ifs with h0 h1
  · simp [hq.ne'] at h0
  · exact h
  · simp only [beq_iff_eq]
    split_ifs with h2 h3
    · rw [h2] at hr
      norm_num at hr
    · simpa [IsLarge] using hq.le
    · exact hr

/-! ### Digits -/

/-- Whole numbers up to the limit, and large ones beyond. -/
def Writes (v : ℕ) (n : Number) : Prop :=
  if v ≤ exactLimit then n = .finite v else IsLarge n

lemma writes_ofNat (v : ℕ) : Writes v (ofNat v) := by
  rw [Writes]
  split_ifs with h
  · exact ofNat_eq h
  · refine isLarge_ofRat ?_ false
    exact_mod_cast (not_le.mp h).le

lemma IsLarge.add {n : Number} (h : IsLarge n) {d : ℕ} (hd : d ≤ exactLimit) :
    IsLarge (n.add (ofNat d)) := by
  rw [ofNat_eq hd]
  cases n with
  | finite q =>
      have hq : 2 ^ 53 ≤ q + d := le_add_of_le_of_nonneg h (Nat.cast_nonneg d)
      exact isLarge_ofRat hq false
  | infinite negative => exact h
  | minusZero => exact absurd h (by simp [IsLarge])
  | nan => exact absurd h (by simp [IsLarge])

lemma IsLarge.mul_ten {n : Number} (h : IsLarge n) : IsLarge (n.mul (ofNat 10)) := by
  rw [ofNat_eq (by norm_num [exactLimit])]
  cases n with
  | finite q =>
      have hq : (2 : ℚ) ^ 53 ≤ q := h
      have hten : 2 ^ 53 ≤ q * (10 : ℕ) := by
        push_cast
        linarith
      simpa [mul, isInfinite, amount] using isLarge_ofRat hten _
  | infinite negative =>
      obtain rfl : negative = false := h
      simp [mul, isInfinite, isZero, isNegative, IsLarge]
  | minusZero => exact absurd h (by simp [IsLarge])
  | nan => exact absurd h (by simp [IsLarge])

/-- One more digit. -/
lemma Writes.digit {v d : ℕ} {n : Number} (h : Writes v n) (hd : d ≤ 9) :
    Writes (v * 10 + d) ((n.mul (ofNat 10)).add (ofNat d)) := by
  have hten : (10 : ℕ) ≤ exactLimit := by norm_num [exactLimit]
  have hdl : d ≤ exactLimit := hd.trans (by norm_num [exactLimit])
  by_cases hv : v ≤ exactLimit
  · obtain rfl : n = .finite v := by simpa [Writes, hv] using h
    have hmul : mul (.finite v) (ofNat 10) = ofNat (v * 10) := by
      have hv0 : isNegative (.finite (v : ℚ)) = false := by simp [isNegative]
      have h10 : isNegative (.finite (10 : ℚ)) = false := by norm_num [isNegative]
      rw [ofNat_eq hten]
      simp [mul, isInfinite, hv0, h10, amount, ofNat]
    rw [hmul]
    by_cases hw : v * 10 ≤ exactLimit
    · have hadd : add (ofNat (v * 10)) (ofNat d) = ofNat (v * 10 + d) := by
        rw [ofNat_eq hw, ofNat_eq hdl]
        simp [add, amount, ofNat]
      rw [hadd]
      exact writes_ofNat _
    · have hl : IsLarge (ofNat (v * 10)) := by simpa [Writes, hw] using writes_ofNat (v * 10)
      simpa [Writes, show ¬ v * 10 + d ≤ exactLimit by omega] using hl.add hdl
  · have hl : IsLarge n := by simpa [Writes, hv] using h
    simpa [Writes, show ¬ v * 10 + d ≤ exactLimit by omega] using hl.mul_ten.add hdl

/-- The value of a decimal digit. -/
lemma digit_le {c : Char} (h : c.isDigit = true) : c.toNat - '0'.toNat ≤ 9 := by
  simp only [Char.isDigit, Bool.and_eq_true, decide_eq_true_eq] at h
  have h2 : c.val ≤ '9'.val := h.2
  have : c.toNat ≤ '9'.toNat := h2
  have h9 : '9'.toNat = 57 := rfl
  have h0 : '0'.toNat = 48 := rfl
  omega

/-- Digits write their number. -/
lemma ofDigits_spec {s : Text} (hs : ∀ c ∈ s, c.isDigit = true) :
    Writes (Text.ofDecimal s) (ofDigits s) := by
  induction s using List.reverseRecOn with
  | nil => exact writes_ofNat 0
  | append_singleton s c ih =>
      have hd := digit_le (hs c (by simp))
      have h := (ih fun d hd => hs d (by simp [hd])).digit hd
      rw [Text.ofDecimal, ofDigits, List.foldl_append, List.foldl_append]
      exact h

lemma finite_eq (j k : ℕ) : (finite (j : ℚ)).eq (finite (k : ℚ)) = decide (j = k) := by
  rw [Bool.eq_iff_iff]
  simp [eq, amount]

/-- **Digits and counts**: a whole number in digits equals a count exactly when
the digits write the count. -/
theorem eq_ofDigits {s : Text} (hs : ∀ c ∈ s, c.isDigit = true) {k : ℕ} (hk : k < exactLimit) :
    (ofNat k).eq (ofDigits s) = decide (k = Text.ofDecimal s) := by
  have h := ofDigits_spec hs
  rw [ofNat_eq hk.le]
  by_cases hv : Text.ofDecimal s ≤ exactLimit
  · have h' : ofDigits s = .finite (Text.ofDecimal s : ℚ) := by simpa [Writes, hv] using h
    rw [h', finite_eq]
  · have hl : IsLarge (ofDigits s) := by simpa [Writes, hv] using h
    have hne : k ≠ Text.ofDecimal s := by omega
    cases hn : ofDigits s with
    | finite q =>
        rw [hn] at hl
        have hq : (k : ℚ) ≠ q := by
          have hkq : (k : ℚ) < 2 ^ 53 := by exact_mod_cast hk
          exact (lt_of_lt_of_le hkq hl).ne
        simp [eq, amount, hq, hne]
    | infinite negative => simp [eq, hne]
    | minusZero => exact absurd hl (by simp [hn, IsLarge])
    | nan => exact absurd hl (by simp [hn, IsLarge])

/-- A count in digits is the count. -/
lemma ofDigits_decimal {n : ℕ} (h : n ≤ exactLimit) : ofDigits (Text.decimal n) = ofNat n := by
  have hw := ofDigits_spec (s := Text.decimal n) fun c => Text.isDigit_of_mem_decimal
  rw [ofNat_eq h]
  simpa [Writes, h] using hw

end Locator.XPath.Number
