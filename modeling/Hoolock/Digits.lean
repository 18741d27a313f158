import Mathlib.Tactic

/-!
Numbers written in a base with a fixed number of digits, and the shorter way without leading
zeros, as `Nat.toDigits` has it.
-/

set_option autoImplicit false

namespace Digits

/-- The last `k` digits of `n` in base `b`, the highest first. -/
def places (b : ℕ) : ℕ → ℕ → List Char
  | 0, _ => []
  | k + 1, n => places b k (n / b) ++ [Nat.digitChar (n % b)]

theorem length_places (b k n : ℕ) : (places b k n).length = k := by
  induction k generalizing n with
  | zero => rfl
  | succ k ih => simp [places, ih]

theorem places_append {b : ℕ} (j k m : ℕ) {r : ℕ} (hr : r < b ^ k) :
    places b (j + k) (m * b ^ k + r) = places b j m ++ places b k r := by
  induction k generalizing r with
  | zero =>
    have hzero : r = 0 := by simpa using hr
    simp [places, hzero]
  | succ k ih =>
    have hb : 0 < b := by
      by_contra hb
      have hzero : b = 0 := by omega
      simp [hzero] at hr
    have hpow : b ^ (k + 1) = b ^ k * b := pow_succ b k
    have hsplit : m * b ^ (k + 1) + r = b * (m * b ^ k) + r := by rw [hpow]; ring
    have hdiv : (m * b ^ (k + 1) + r) / b = m * b ^ k + r / b := by
      rw [hsplit, Nat.mul_add_div hb]
    have hmod : (m * b ^ (k + 1) + r) % b = r % b := by
      rw [hsplit, Nat.mul_add_mod]
    have hsmall : r / b < b ^ k := by
      rw [Nat.div_lt_iff_lt_mul hb, ← hpow]
      exact hr
    rw [← Nat.add_assoc]
    simp only [places]
    rw [hdiv, hmod, ih hsmall, List.append_assoc]

theorem places_zero (b k : ℕ) : places b k 0 = List.replicate k '0' := by
  induction k with
  | zero => rfl
  | succ k ih =>
    simp only [places, Nat.zero_div, Nat.zero_mod, ih]
    rw [List.replicate_succ']
    rfl

theorem pad_toDigits {b : ℕ} (hb : 1 < b) {k n : ℕ} (hk : 0 < k) (hn : n < b ^ k) :
    List.replicate (k - (Nat.toDigits b n).length) '0' ++ Nat.toDigits b n = places b k n := by
  induction k generalizing n with
  | zero => omega
  | succ k ih =>
    by_cases hsmall : n < b
    · rw [Nat.toDigits_of_lt_base hsmall]
      have hone : n = 0 * b ^ 1 + n := by omega
      have hlt : n < b ^ 1 := by simpa using hsmall
      rw [hone, places_append k 1 0 hlt, places_zero, Nat.zero_mul, Nat.zero_add]
      simp [places, Nat.mod_eq_of_lt hsmall]
    · have hpos : 0 < k := by
        by_contra hzero
        have hk0 : k = 0 := by omega
        rw [hk0, Nat.zero_add, pow_one] at hn
        omega
      have hrest : n / b < b ^ k := by
        rw [Nat.div_lt_iff_lt_mul (by omega), ← pow_succ]
        exact hn
      have hk' := ih hpos hrest
      rw [Nat.toDigits_of_base_le hb (by omega)]
      simp only [places, List.length_append, List.length_singleton, Nat.add_sub_add_right]
      rw [← List.append_assoc, hk']

theorem length_toDigits_le {b : ℕ} (hb : 1 < b) {k n : ℕ} (hk : 0 < k) (hn : n < b ^ k) :
    (Nat.toDigits b n).length ≤ k := (Nat.length_toDigits_le_iff hb hk).mpr hn

theorem places_injective {b : ℕ} (hb : b ≤ 16) {k m n : ℕ} (hm : m < b ^ k) (hn : n < b ^ k)
    (h : places b k m = places b k n) : m = n := by
  induction k generalizing m n with
  | zero =>
    rw [pow_zero] at hm hn
    omega
  | succ k ih =>
    have hpos : 0 < b := by
      by_contra hzero
      have hb0 : b = 0 := by omega
      simp [hb0] at hm
    have hlow : ∀ x, x < b ^ (k + 1) → x / b < b ^ k := by
      intro x hx
      rw [Nat.div_lt_iff_lt_mul hpos, ← pow_succ]
      exact hx
    simp only [places] at h
    obtain ⟨hhigh, hlast⟩ := List.append_inj h (by simp [length_places])
    have hdiv := ih (hlow m hm) (hlow n hn) hhigh
    have hdigit : Nat.digitChar (m % b) = Nat.digitChar (n % b) := by simpa using hlast
    have hinj : ∀ i < 16, ∀ j < 16, Nat.digitChar i = Nat.digitChar j → i = j := by decide
    have hm16 := Nat.mod_lt m hpos
    have hn16 := Nat.mod_lt n hpos
    have hmod := hinj (m % b) (by omega) (n % b) (by omega) hdigit
    rw [← Nat.div_add_mod m b, ← Nat.div_add_mod n b, hdiv, hmod]

end Digits
