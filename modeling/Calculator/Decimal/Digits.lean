import Calculator.Text

/-!
# Decimal digits

Whole numbers in digits: `digits` writes one without leading zeros, `paddedDigits` writes its last
places, and `digitsValue` reads a run of digits. What is written reads back (`digitsValue_digits`,
`digitsValue_paddedDigits`), and `digitCount` counts the digits without writing them.
-/

namespace Calculator

/-- The character of a digit. -/
def digitChar (d : Nat) : Char :=
  Char.ofNat ('0'.toNat + d)

/-- The digit of a character. -/
def digitValue (c : Char) : Nat :=
  c.toNat - '0'.toNat

theorem digitValue_digitChar {d : Nat} (h : d < 10) : digitValue (digitChar d) = d := by
  revert h
  revert d
  decide

theorem isDigit_digitChar {d : Nat} (h : d < 10) : (digitChar d).isDigit = true := by
  revert h
  revert d
  decide

/-- Every digit is the character of a number below ten. -/
theorem exists_digitChar {c : Char} (h : c.isDigit = true) : ∃ d, d < 10 ∧ digitChar d = c := by
  have hval : 48 ≤ c.toNat ∧ c.toNat ≤ 57 := by
    simp only [Char.isDigit, Bool.and_eq_true, decide_eq_true_eq] at h
    exact ⟨UInt32.le_iff_toNat_le.1 h.1, UInt32.le_iff_toNat_le.1 h.2⟩
  have hsum : '0'.toNat + (c.toNat - 48) = c.toNat := Nat.add_sub_cancel' hval.1
  refine ⟨c.toNat - 48, by omega, ?_⟩
  rw [digitChar, hsum, Char.ofNat_toNat]

/-! ## 1. Reading -/

/-- The whole number that a run of digits stands for. -/
def digitsValue (t : Text) : Nat :=
  t.foldl (fun n c => 10 * n + digitValue c) 0

@[simp] theorem digitsValue_concat (t : Text) (c : Char) :
    digitsValue (t ++ [c]) = 10 * digitsValue t + digitValue c := by
  simp [digitsValue]

/-! ## 2. Writing -/

/-- The digits of a whole number, from the first that is not zero; zero has one digit. -/
def digits (n : Nat) : Text :=
  if n < 10 then [digitChar n] else digits (n / 10) ++ [digitChar (n % 10)]

/-- The last `k` digits of a whole number, with leading zeros where it has fewer. -/
def paddedDigits : Nat → Nat → Text
  | 0, _ => []
  | k + 1, n => paddedDigits k (n / 10) ++ [digitChar (n % 10)]

/-- How many digits a whole number is written with. -/
def digitCount (n : Nat) : Nat :=
  if n < 10 then 1 else digitCount (n / 10) + 1

/-- **What is written reads back.** -/
@[simp] theorem digitsValue_digits (n : Nat) : digitsValue (digits n) = n := by
  fun_induction digits n with
  | case1 n h => simp [digitsValue, digitValue_digitChar h]
  | case2 n h ih =>
      rw [digitsValue_concat, ih, digitValue_digitChar (Nat.mod_lt _ (by decide))]
      omega

theorem length_digits (n : Nat) : (digits n).length = digitCount n := by
  fun_induction digits n with
  | case1 n h => simp [digitCount, h]
  | case2 n h ih => rw [List.length_append, ih, digitCount.eq_def n, if_neg h]; rfl

theorem digits_ne_nil (n : Nat) : digits n ≠ [] := by
  unfold digits
  split <;> simp

theorem isDigit_of_mem_digits {n : Nat} : ∀ c ∈ digits n, c.isDigit = true := by
  fun_induction digits n with
  | case1 n h => simp [isDigit_digitChar h]
  | case2 n h ih =>
      intro c hc
      rcases List.mem_append.1 hc with hc | hc
      · exact ih c hc
      · rw [List.mem_singleton.1 hc]
        exact isDigit_digitChar (Nat.mod_lt _ (by decide))

@[simp] theorem length_paddedDigits : ∀ k n, (paddedDigits k n).length = k
  | 0, _ => rfl
  | k + 1, n => by simp [paddedDigits, length_paddedDigits k]

/-- The padded digits are those of the remainder by the power of ten. -/
theorem digitsValue_paddedDigits : ∀ k n, digitsValue (paddedDigits k n) = n % Nat.pow 10 k
  | 0, n => by
      show 0 = n % 1
      omega
  | k + 1, n => by
      rw [paddedDigits, digitsValue_concat, digitsValue_paddedDigits k,
        digitValue_digitChar (Nat.mod_lt _ (by decide))]
      show _ = n % (Nat.pow 10 k * 10)
      rw [Nat.mul_comm (Nat.pow 10 k), Nat.mod_mul]
      omega

theorem isDigit_of_mem_paddedDigits : ∀ k n, ∀ c ∈ paddedDigits k n, c.isDigit = true
  | 0, _, _, hc => by simp [paddedDigits] at hc
  | k + 1, n, c, hc => by
      rcases List.mem_append.1 hc with hc | hc
      · exact isDigit_of_mem_paddedDigits k (n / 10) c hc
      · rw [List.mem_singleton.1 hc]
        exact isDigit_digitChar (Nat.mod_lt _ (by decide))

end Calculator
