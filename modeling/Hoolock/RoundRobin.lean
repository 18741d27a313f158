import Mathlib.Data.Int.CardIntervalMod

/-!
Taking turns by a counter that wraps: `m` members, a counter modulo `N`, and the member at
the position `counter % m` has the turn.
-/

set_option autoImplicit false

namespace RoundRobin

/-- The positions that have the next `n` turns, from the counter `c` on. -/
def turns (N m : Nat) : Nat → Nat → List Nat
  | _, 0 => []
  | c, n + 1 => c % m :: turns N m ((c + 1) % N) n

@[simp] theorem turns_zero (N m c : Nat) : turns N m c 0 = [] := rfl

theorem turns_succ (N m c n : Nat) :
    turns N m c (n + 1) = c % m :: turns N m ((c + 1) % N) n := rfl

theorem turns_lt {N m : Nat} (hm : 0 < m) (c n : Nat) : ∀ p ∈ turns N m c n, p < m := by
  induction n generalizing c with
  | zero => simp
  | succ n ih =>
    intro p hp
    rw [turns_succ, List.mem_cons] at hp
    rcases hp with rfl | hp
    · exact Nat.mod_lt c hm
    · exact ih _ p hp

theorem turns_add (N m c n k : Nat) (hc : c + n ≤ N) (hn : 0 < n) :
    turns N m c (n + k) = turns N m c n ++ turns N m ((c + n) % N) k := by
  induction n generalizing c with
  | zero => omega
  | succ n ih =>
    rw [Nat.add_right_comm, turns_succ, turns_succ, List.cons_append]
    rcases Nat.eq_zero_or_pos n with rfl | hpos
    · simp
    · have hlt : (c + 1) % N = c + 1 := Nat.mod_eq_of_lt (by omega)
      rw [hlt, ih (c + 1) (by omega) hpos]
      have hsum : c + 1 + n = c + (n + 1) := by omega
      rw [hsum]

theorem count_turns {N m : Nat} (hm : 0 < m) {p : Nat} (hp : p < m) (c n : Nat)
    (hc : c + n ≤ N) :
    (turns N m c n).count p + (c / m + if p < c % m then 1 else 0) =
      (c + n) / m + if p < (c + n) % m then 1 else 0 := by
  have hcount := fun x => Nat.count_modEq_card x hm p
  simp only [Nat.mod_eq_of_lt hp] at hcount
  induction n generalizing c with
  | zero => simp
  | succ n ih =>
    have hstep : Nat.count (· ≡ p [MOD m]) (c + 1) =
        Nat.count (· ≡ p [MOD m]) c + if c % m = p then 1 else 0 := by
      rw [Nat.count_succ]
      simp [Nat.ModEq, Nat.mod_eq_of_lt hp]
    rw [hcount, hcount] at hstep
    have hrest : (turns N m ((c + 1) % N) n).count p +
        ((c + 1) / m + if p < (c + 1) % m then 1 else 0) =
        (c + (n + 1)) / m + if p < (c + (n + 1)) % m then 1 else 0 := by
      rcases Nat.eq_zero_or_pos n with rfl | hpos
      · simp
      · have hlt : (c + 1) % N = c + 1 := Nat.mod_eq_of_lt (by omega)
        have hsum : c + 1 + n = c + (n + 1) := by omega
        have hsub := ih (c + 1) (by omega)
        rw [hsum] at hsub
        rw [hlt]
        exact hsub
    rw [turns_succ, List.count_cons]
    simp only [beq_iff_eq]
    omega

theorem count_turns_le {N m : Nat} (hm : 0 < m) {p q : Nat} (hp : p < m) (hq : q < m)
    (c n : Nat) (hc : c + n ≤ N) :
    (turns N m c n).count p ≤ (turns N m c n).count q + 1 := by
  have hcp := count_turns hm hp c n hc
  have hcq := count_turns hm hq c n hc
  split_ifs at hcp hcq <;> omega

/-- Every time the counter wraps, one turn may be lost. -/
theorem turns_fair {N m : Nat} (hm : 0 < m) {p q : Nat} (hp : p < m) (hq : q < m) {c : Nat}
    (hc : c < N) (n : Nat) :
    (turns N m c n).count p ≤ (turns N m c n).count q + 1 + (c + n) / N := by
  induction n using Nat.strong_induction_on generalizing c with
  | _ n ih =>
    by_cases hn : c + n ≤ N
    · have hle := count_turns_le hm hp hq c n hn
      exact Nat.le_add_right_of_le hle
    · obtain ⟨k, hk⟩ : ∃ k, n = (N - c) + k := ⟨n - (N - c), by omega⟩
      have hfirst := count_turns_le hm hp hq c (N - c) (N := N) (by omega)
      have hless : k < n := by omega
      have hpos : 0 < N := by omega
      have hrest := ih k hless hpos
      have hwrap : (c + n) / N = k / N + 1 := by
        rw [hk, show c + (N - c + k) = k + N by omega, Nat.add_div_right k (by omega)]
      have hend : (c + (N - c)) % N = 0 := by
        rw [show c + (N - c) = N by omega, Nat.mod_self]
      rw [hk, turns_add N m c (N - c) k (by omega) (by omega), hend, List.count_append,
        List.count_append, ← hk, hwrap]
      rw [Nat.zero_add] at hrest
      omega

end RoundRobin
