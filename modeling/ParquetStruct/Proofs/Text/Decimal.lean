/-
# ParquetStruct.Proofs.Text.Decimal — integers in decimal digits.

The digits of a number name it: no two numbers have the same digits, and only zero has a zero in
front.  With a minus sign in front of the negative ones the same holds of integers.
-/
import Mathlib.Data.List.Basic

namespace ParquetStruct.Text

/-! ## Digits -/

theorem isDigit_of_mem_toDigits {n : Nat} : ∀ c ∈ Nat.toDigits 10 n, c.isDigit = true :=
  fun _ hc => Nat.isDigit_of_mem_toDigits (by decide) (by decide) hc

theorem toDigits_injective {m n : Nat} (h : Nat.toDigits 10 m = Nat.toDigits 10 n) : m = n := by
  rw [← Nat.ofDigitChars_ten_toDigits (n := m), h, Nat.ofDigitChars_ten_toDigits]

theorem eq_zero_of_digitChar : ∀ n < 10, Nat.digitChar n = '0' → n = 0 := by decide

/-- Only zero is written with a zero in front. -/
theorem eq_zero_of_head?_toDigits {n : Nat} (h : (Nat.toDigits 10 n).head? = some '0') :
    n = 0 := by
  induction n using Nat.strongRecOn with
  | ind n ih =>
    by_cases hn : n < 10
    · rw [Nat.toDigits_of_lt_base hn, List.head?_cons, Option.some.injEq] at h
      exact eq_zero_of_digitChar n hn h
    · rw [Nat.toDigits_of_base_le (by decide) (Nat.le_of_not_lt hn),
        List.head?_append_of_ne_nil _ Nat.toDigits_ne_nil] at h
      have hdiv := ih (n / 10) (by omega) h
      omega

theorem not_mem_toString_nat {c : Char} (hdigit : c.isDigit = false) (n : Nat) :
    c ∉ (toString n).toList := by
  intro h
  rw [isDigit_of_mem_toDigits c (Nat.toList_repr ▸ h)] at hdigit
  cases hdigit

/-- No two numbers are written alike. -/
theorem toString_nat_injective {m n : Nat} (h : toString m = toString n) : m = n := by
  apply toDigits_injective
  rw [← Nat.toList_repr, ← Nat.toList_repr]
  exact congrArg String.toList h

/-! ## Signs -/

theorem toList_toString_int (n : Int) :
    (toString n).toList = (if n < 0 then ['-'] else []) ++ Nat.toDigits 10 n.natAbs := by
  rw [Int.toString_eq_repr, Int.repr_eq_if]
  by_cases hn : 0 ≤ n
  · have habs : n.natAbs = n.toNat := by omega
    rw [if_pos hn, if_neg (by omega), habs, Nat.toList_repr, List.nil_append]
  · have habs : n.natAbs = (-n).toNat := by omega
    rw [if_neg hn, if_pos (by omega), habs, String.toList_append, Nat.toList_repr]
    rfl

/-- An integer is written with digits and a minus sign at most. -/
theorem not_mem_toString_int {c : Char} (hdigit : c.isDigit = false) (hminus : c ≠ '-') (n : Int) :
    c ∉ (toString n).toList := by
  rw [toList_toString_int, List.mem_append]
  rintro (h | h)
  · split at h
    · exact hminus (List.mem_singleton.mp h)
    · exact List.not_mem_nil h
  · rw [isDigit_of_mem_toDigits c h] at hdigit
    cases hdigit

/-- Digits have no minus sign in front. -/
theorem cons_minus_ne_toDigits (cs : List Char) (n : Nat) : '-' :: cs ≠ Nat.toDigits 10 n := by
  intro h
  have hmem : '-' ∈ Nat.toDigits 10 n := h ▸ List.mem_cons_self
  exact absurd (isDigit_of_mem_toDigits _ hmem) (by decide)

/-- No two integers are written alike. -/
theorem toString_int_injective {m n : Int} (h : toString m = toString n) : m = n := by
  have hlist : (if m < 0 then ['-'] else []) ++ Nat.toDigits 10 m.natAbs =
      (if n < 0 then ['-'] else []) ++ Nat.toDigits 10 n.natAbs := by
    rw [← toList_toString_int, ← toList_toString_int, h]
  -- The signs agree, as digits start with none, and then so do the digits.
  by_cases hm : m < 0
  · by_cases hn : n < 0
    · rw [if_pos hm, if_pos hn, List.append_cancel_left_eq] at hlist
      have habs := toDigits_injective hlist
      omega
    · rw [if_pos hm, if_neg hn] at hlist
      exact absurd hlist (cons_minus_ne_toDigits _ _)
  · by_cases hn : n < 0
    · rw [if_neg hm, if_pos hn] at hlist
      exact absurd hlist.symm (cons_minus_ne_toDigits _ _)
    · rw [if_neg hm, if_neg hn, List.append_cancel_left_eq] at hlist
      have habs := toDigits_injective hlist
      omega

end ParquetStruct.Text
