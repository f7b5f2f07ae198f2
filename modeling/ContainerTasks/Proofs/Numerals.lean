import ContainerTasks.Text.WholeNumber
import Mathlib.Tactic.IntervalCases

/-!
# Numerals can be read back

A digit has one value, the digits of a number stand for it, and a number between the bounds of a
reader of whole numbers is read from its decimal text. Whatever such a reader gives is between its
bounds.

## Main results

* `ofDigits?_of_isDigit`: what decimal digits stand for
* `eq_of_toString_eq`: different numbers have different texts
* `readWholeNumber_toString`: a number is read from its text
* `bounds_of_readWholeNumber`: a number that was read is between the bounds
-/

namespace ContainerTasks

/-! ### Digits -/

theorem digitValue?_ten (c : Char) :
    digitValue? 10 c = if c.isDigit then some (c.toNat - '0'.toNat) else none := by
  unfold digitValue?
  by_cases hd : '0' ≤ c ∧ c ≤ '9'
  · have : c.isDigit = true := by
      simpa [Char.isDigit, Char.le_def] using hd
    have h9 : c.toNat ≤ '9'.toNat := hd.2
    have : c.toNat - '0'.toNat < 10 := by
      have : '9'.toNat = 57 := rfl
      have : '0'.toNat = 48 := rfl
      omega
    simp_all
  · have : ¬ c.isDigit = true := by
      simpa [Char.isDigit, Char.le_def] using hd
    simp only [hd, this]
    grind

theorem isDecimal_eq_isDigit (c : Char) : isDecimal c = c.isDigit := by
  cases h : c.isDigit <;> simp [isDecimal, digitValue?_ten, h]

theorem ofDigits?_of_isDigit {digits : List Char} (h : ∀ c ∈ digits, c.isDigit = true) :
    ofDigits? 10 digits = some (Nat.ofDigitChars 10 digits 0) := by
  have key (n : Nat) :
      digits.foldlM (fun n c => (digitValue? 10 c).map (n * 10 + ·)) n =
        some (Nat.ofDigitChars 10 digits n) := by
    induction digits generalizing n with
    | nil => simp
    | cons c rest ih =>
      rw [List.forall_mem_cons] at h
      simp only [List.foldlM_cons, digitValue?_ten, h.1, Nat.ofDigitChars_cons]
      simpa [digitValue?_ten, Nat.mul_comm] using ih h.2 _
  exact key 0

/-- Only zero is written with a zero in front. -/
theorem head?_toDigits_ne_zero {n : Nat} (h : n ≠ 0) : (Nat.toDigits 10 n).head? ≠ some '0' := by
  induction n using Nat.strongRecOn with
  | ind n ih =>
    by_cases hn : n < 10
    · interval_cases n <;> simp_all [Nat.toDigits_of_lt_base]
    · have front := ih (n / 10) (by omega) (by omega)
      rw [Nat.toDigits_of_base_le (by decide) (by omega), List.head?_append]
      cases first : (Nat.toDigits 10 (n / 10)).head? with
      | none => exact absurd (List.head?_eq_none_iff.1 first) Nat.toDigits_ne_nil
      | some c => simpa [first] using front

theorem ofDigits?_sixteen : ∀ n < 32,
    ofDigits? 16 ['0', '0', Nat.digitChar (n / 16), Nat.digitChar (n % 16)] = some n := by
  decide

/-! ### Decimal texts -/

theorem toList_toString (n : Nat) : (toString n).toList = Nat.toDigits 10 n := by simp

theorem isDigit_of_mem_toString {n : Nat} {c : Char} (h : c ∈ (toString n).toList) :
    c.isDigit = true := by
  rw [toList_toString] at h
  exact Nat.isDigit_of_mem_toDigits (by decide) (by decide) h

/-- Different numbers have different texts. -/
theorem eq_of_toString_eq {m n : Nat} (h : toString m = toString n) : m = n := by
  have hdigits : Nat.toDigits 10 m = Nat.toDigits 10 n := by
    rw [← toList_toString, ← toList_toString, h]
  rw [← Nat.ofDigitChars_ten_toDigits (n := m), hdigits, Nat.ofDigitChars_ten_toDigits]

/-! ### Whole numbers -/

section WholeNumbers

variable {least greatest : Int}

/-- A number can only become larger by further digits. -/
theorem le_ofDigitChars (digits : List Char) (n : Nat) : n ≤ Nat.ofDigitChars 10 digits n := by
  induction digits generalizing n with
  | nil => exact Nat.le_refl n
  | cons c rest ih =>
    rw [Nat.ofDigitChars_cons]
    exact (by omega : n ≤ 10 * n + (c.toNat - '0'.toNat)).trans (ih _)

theorem readDigits_of_isDigit {digits : List Char} (h : ∀ c ∈ digits, c.isDigit = true)
    (hleast : least ≤ 0) (n : Nat) (hgreatest : (Nat.ofDigitChars 10 digits n : Int) ≤ greatest) :
    readDigits least greatest 1 n digits = .ok (Nat.ofDigitChars 10 digits n : Int) := by
  induction digits generalizing n with
  | nil => rfl
  | cons c rest ih =>
    rw [List.forall_mem_cons] at h
    have hvalue : (n : Int) * 10 + 1 * ((c.toNat - '0'.toNat : Nat) : Int) =
        ((10 * n + (c.toNat - '0'.toNat) : Nat) : Int) := by omega
    have hle := le_ofDigitChars rest (10 * n + (c.toNat - '0'.toNat))
    rw [Nat.ofDigitChars_cons] at hgreatest ⊢
    simp only [readDigits, digitValue?_ten, h.1, if_true, hvalue]
    rw [if_neg (by omega), if_neg (by omega), ih h.2 _ hgreatest]

/-- A number between the bounds is read from its text. -/
theorem readWholeNumber_toString (hleast : least ≤ 0) {n : Nat} (hgreatest : (n : Int) ≤ greatest) :
    readWholeNumber least greatest (toString n) = .ok (n : Int) := by
  have hdigit : ∀ c ∈ (toString n).toList, c.isDigit = true := fun _ => isDigit_of_mem_toString
  have hvalue : Nat.ofDigitChars 10 (toString n).toList 0 = n := by
    rw [toList_toString, Nat.ofDigitChars_ten_toDigits]
  have hread := readDigits_of_isDigit hdigit hleast 0 (hvalue.symm ▸ hgreatest)
  rw [hvalue] at hread
  unfold readWholeNumber
  split
  · next h => exact absurd ((toList_toString n).symm.trans h) Nat.toDigits_ne_nil
  -- no number begins with a sign
  iterate 4 next h =>
    rw [h] at hdigit
    simp at hdigit
  · exact hread

theorem bounds_of_readDigits {sign n m : Int} {digits : List Char} (hn : least ≤ n ∧ n ≤ greatest)
    (h : readDigits least greatest sign n digits = .ok m) : least ≤ m ∧ m ≤ greatest := by
  induction digits generalizing n with
  | nil =>
    cases h
    exact hn
  | cons c rest ih =>
    unfold readDigits at h
    split at h
    · cases h
    · dsimp only at h
      split_ifs at h with hlarge hsmall
      exact ih ⟨Int.not_lt.mp hsmall, Int.not_lt.mp hlarge⟩ h

/-- A number that was read is between the bounds. -/
theorem bounds_of_readWholeNumber (hleast : least ≤ 0) (hgreatest : 0 ≤ greatest) {text : String}
    {n : Int} (h : readWholeNumber least greatest text = .ok n) : least ≤ n ∧ n ≤ greatest := by
  unfold readWholeNumber at h
  split at h
  · cases h
  · cases h
  · cases h
  · exact bounds_of_readDigits ⟨hleast, hgreatest⟩ h
  · split_ifs at h
    exact bounds_of_readDigits ⟨hleast, hgreatest⟩ h
  · exact bounds_of_readDigits ⟨hleast, hgreatest⟩ h

end WholeNumbers

end ContainerTasks
