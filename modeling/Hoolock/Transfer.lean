import Mathlib.Algebra.BigOperators.Group.Finset.Basic
import Mathlib.Tactic

/-!
Loops that move `size` items by calls that may move fewer of them:
`while (offset < size) offset += call(buffer + offset, size - offset);`
The raw result of a call is added to the offset, be it a count or the error code -1.  The
results are given from outside, one for each turn.
-/

set_option autoImplicit false

namespace Transfer

section loop

variable (size : Int) (results : ℕ → Int)

/-- The offset before turn `n`; it stays once the loop has ended. -/
def offset : ℕ → Int
  | 0 => 0
  | n + 1 => if offset n < size then offset n + results n else offset n

/-- A call fails or moves some of the items that it is asked for, from none to all. -/
def Possible : Prop :=
  ∀ n, offset size results n < size →
    results n = -1 ∨ 0 ≤ results n ∧ results n ≤ size - offset size results n

def moved : ℕ → ℕ
  | 0 => 0
  | n + 1 => if offset size results n < size then moved n + (results n).toNat else moved n

def errors : ℕ → ℕ
  | 0 => 0
  | n + 1 => if offset size results n < size ∧ results n = -1 then errors n + 1 else errors n

end loop

variable {size : Int} {results : ℕ → Int}

theorem offset_succ {n : ℕ} (h : offset size results n < size) :
    offset size results (n + 1) = offset size results n + results n := by
  simp [offset, h]

theorem offset_succ_ended {n : ℕ} (h : ¬ offset size results n < size) :
    offset size results (n + 1) = offset size results n := by
  simp [offset, h]

theorem offset_ended {m n : ℕ} (hmn : m ≤ n) (h : size ≤ offset size results m) :
    offset size results n = offset size results m := by
  induction n, hmn using Nat.le_induction with
  | base => rfl
  | succ n hmn ih =>
    have hn : ¬ offset size results n < size := by omega
    rw [offset_succ_ended hn, ih]

theorem errors_mono {m n : ℕ} (hmn : m ≤ n) : errors size results m ≤ errors size results n := by
  induction n, hmn using Nat.le_induction with
  | base => exact le_refl _
  | succ n hmn ih =>
    refine ih.trans ?_
    simp only [errors]
    split_ifs <;> omega

theorem errors_eq_zero_iff (n : ℕ) :
    errors size results n = 0 ↔ ∀ i < n, offset size results i < size → results i ≠ -1 := by
  induction n with
  | zero => simp [errors]
  | succ n ih =>
    constructor
    · intro h i hi hrun herr
      have hle : errors size results (i + 1) ≤ errors size results (n + 1) := errors_mono hi
      have hcount : errors size results (i + 1) = errors size results i + 1 := by
        simp [errors, hrun, herr]
      omega
    · intro h
      have hn := ih.mpr fun i hi => h i (by omega)
      have hlast : ¬ (offset size results n < size ∧ results n = -1) :=
        fun hc => h n (by omega) hc.1 hc.2
      simp [errors, hlast, hn]

/-- The offset counts what was moved, less one for every error. -/
theorem offset_eq (h : Possible size results) (n : ℕ) :
    offset size results n = moved size results n - errors size results n := by
  induction n with
  | zero => simp [offset, moved, errors]
  | succ n ih =>
    by_cases hrun : offset size results n < size
    · rcases h n hrun with herr | ⟨hpos, -⟩
      · simp only [offset, moved, errors, hrun, herr, and_self, if_true]
        push_cast
        omega
      · have hne : results n ≠ -1 := by omega
        simp only [offset, moved, errors, hrun, hne, and_false, if_true, if_false]
        push_cast
        omega
    · simp only [offset, moved, errors, hrun, false_and, if_false]
      exact ih

theorem offset_le (h : Possible size results) (hsize : 0 ≤ size) (n : ℕ) :
    offset size results n ≤ size := by
  induction n with
  | zero => exact hsize
  | succ n ih =>
    by_cases hrun : offset size results n < size
    · rw [offset_succ hrun]
      rcases h n hrun with herr | ⟨-, hle⟩
      · omega
      · omega
    · rw [offset_succ_ended hrun]
      exact ih

/-- When the loop ends, as many items too many were moved as calls failed. -/
theorem moved_of_ended (h : Possible size results) (hsize : 0 ≤ size) {n : ℕ}
    (hend : size ≤ offset size results n) :
    (moved size results n : Int) = size + errors size results n := by
  have hle := offset_le h hsize n
  have heq := offset_eq h n
  omega

theorem offset_nonneg (h : Possible size results) {m n : ℕ} (hmn : m ≤ n)
    (hn : errors size results n = 0) : 0 ≤ offset size results m := by
  have hm : errors size results m ≤ errors size results n := errors_mono hmn
  have heq := offset_eq h m
  omega

/-- While the loop runs the offset is the sum of the results. -/
theorem offset_sum {n : ℕ} (hrun : ∀ i < n, offset size results i < size) :
    offset size results n = ∑ i ∈ Finset.range n, results i := by
  induction n with
  | zero => simp [offset]
  | succ n ih =>
    have hprev := ih fun i hi => hrun i (by omega)
    rw [offset_succ (hrun n (by omega)), hprev, Finset.sum_range_succ]

theorem ends_of_sum {n : ℕ} (hsum : size ≤ ∑ i ∈ Finset.range n, results i) :
    ∃ m ≤ n, size ≤ offset size results m := by
  by_contra hrun
  push Not at hrun
  have hlast := hrun n (le_refl n)
  rw [offset_sum fun i hi => hrun i hi.le] at hlast
  omega

/-- Everything is moved in the end, or a call moves nothing, or from some turn on all fail. -/
def Settles (size : Int) (results : ℕ → Int) : Prop :=
  (∃ n, size ≤ moved size results n) ∨ (∃ n, results n = 0) ∨ ∃ n, ∀ m ≥ n, results m = -1

theorem Possible.settles (h : Possible size results) : Settles size results := by
  by_contra hnot
  unfold Settles at hnot
  push Not at hnot
  obtain ⟨hshort, hnonzero, hagain⟩ := hnot
  have hrun : ∀ n, offset size results n < size := by
    intro n
    have heq := offset_eq h n
    have hn := hshort n
    omega
  have hstep : ∀ n, moved size results (n + 1) = moved size results n + (results n).toNat := by
    intro n
    simp [moved, hrun n]
  have hmono : ∀ m n, m ≤ n → moved size results m ≤ moved size results n := by
    intro m n hmn
    induction n, hmn using Nat.le_induction with
    | base => exact le_refl _
    | succ n _ ih =>
      rw [hstep]
      omega
  -- every success moves something, and there is always another one
  have hgrows : ∀ k, ∃ n, k ≤ moved size results n := by
    intro k
    induction k with
    | zero => exact ⟨0, Nat.zero_le _⟩
    | succ k ih =>
      obtain ⟨n, hn⟩ := ih
      obtain ⟨m, hnm, hm⟩ := hagain n
      have hle := hmono n m hnm
      have hzero := hnonzero m
      refine ⟨m + 1, ?_⟩
      rw [hstep]
      rcases h m (hrun m) with herr | ⟨hpos, -⟩
      · exact absurd herr hm
      · omega
  obtain ⟨n, hn⟩ := hgrows size.toNat
  have hlast := hshort n
  omega

section send

variable {β : Type*}

def front (buffer : Int → β) (n : ℕ) : List β := (List.range n).map fun i : ℕ => buffer i

/-- Sending: what the calls before turn `n` took out of the buffer, in order. -/
def sent (size : Int) (results : ℕ → Int) (buffer : Int → β) : ℕ → List β
  | 0 => []
  | n + 1 =>
    if offset size results n < size then
      sent size results buffer n ++
        (List.range (results n).toNat).map fun i : ℕ => buffer (offset size results n + i)
    else sent size results buffer n

theorem length_sent (buffer : Int → β) (n : ℕ) :
    (sent size results buffer n).length = moved size results n := by
  induction n with
  | zero => rfl
  | succ n ih =>
    unfold sent moved
    split_ifs
    · simp [ih]
    · exact ih

theorem sent_prefix (h : Possible size results) (buffer : Int → β) {n : ℕ}
    (hn : errors size results n = 0) :
    sent size results buffer n = front buffer (moved size results n) := by
  induction n with
  | zero => rfl
  | succ n ih =>
    have hprev : errors size results n = 0 := by
      have hle : errors size results n ≤ errors size results (n + 1) := errors_mono (by omega)
      omega
    have hoffset : offset size results n = moved size results n := by
      have heq := offset_eq h n
      omega
    unfold sent moved
    split_ifs
    · rw [ih hprev, hoffset]
      unfold front
      rw [List.range_add, List.map_append, List.map_map]
      congr 1
    · exact ih hprev

theorem sent_iff (h : Possible size results) (hsize : 0 ≤ size) (buffer : Int → β) {n : ℕ}
    (hend : size ≤ offset size results n) :
    ((∀ i < n, offset size results i < size → 0 ≤ offset size results i) ∧
        sent size results buffer n = front buffer size.toNat) ↔
      errors size results n = 0 := by
  have hmoved := moved_of_ended h hsize hend
  constructor
  · rintro ⟨-, hsent⟩
    have hlength := congrArg List.length hsent
    unfold front at hlength
    rw [length_sent, List.length_map, List.length_range] at hlength
    omega
  · intro hn
    have hcount : moved size results n = size.toNat := by omega
    exact ⟨fun i hi _ => offset_nonneg h hi.le hn, hcount ▸ sent_prefix h buffer hn⟩

end send

section receive

variable {β : Type*}

/-- Receiving: the memory around the buffer before turn `n`.  A call writes the next items of
the stream to where the offset points. -/
def received (size : Int) (results : ℕ → Int) (stream : ℕ → β) (start : Int → β) :
    ℕ → Int → β
  | 0, o => start o
  | n + 1, o =>
    if offset size results n < size ∧ offset size results n ≤ o ∧
        o < offset size results n + results n then
      stream (moved size results n + (o - offset size results n).toNat)
    else received size results stream start n o

theorem received_prefix (h : Possible size results) (stream : ℕ → β) (start : Int → β) {n : ℕ}
    (hn : errors size results n = 0) {i : ℕ} (hi : i < moved size results n) :
    received size results stream start n i = stream i := by
  induction n with
  | zero => simp [moved] at hi
  | succ n ih =>
    have hle : errors size results n ≤ errors size results (n + 1) := errors_mono (by omega)
    have hprev : errors size results n = 0 := by omega
    have hoffset : offset size results n = moved size results n := by
      have heq := offset_eq h n
      omega
    unfold received
    split_ifs with hwrite
    · have hplace : moved size results n + ((i : Int) - offset size results n).toNat = i := by
        omega
      rw [hplace]
    · refine ih hprev ?_
      unfold moved at hi
      split_ifs at hi with hrun
      · by_contra hnew
        exact hwrite ⟨hrun, by omega, by omega⟩
      · exact hi

theorem received_last (h : Possible size results) (hsize : 0 < size) (stream : ℕ → β)
    (start : Int → β) {n : ℕ} (hend : size ≤ offset size results n) :
    received size results stream start n (size - 1) = stream (moved size results n - 1) := by
  induction n with
  | zero =>
    have hzero : offset size results 0 = 0 := rfl
    omega
  | succ n ih =>
    by_cases hrun : offset size results n < size
    · have hall : results n = size - offset size results n := by
        rw [offset_succ hrun] at hend
        rcases h n hrun with herr | ⟨-, hle⟩
        · omega
        · omega
      have hmoved : moved size results (n + 1) = moved size results n + (results n).toNat := by
        simp [moved, hrun]
      unfold received
      rw [if_pos ⟨hrun, by omega, by omega⟩, hmoved]
      congr 1
      omega
    · rw [offset_succ_ended hrun] at hend
      have hmoved : moved size results (n + 1) = moved size results n := by
        simp [moved, hrun]
      unfold received
      rw [if_neg fun hwrite => hrun hwrite.1, hmoved]
      exact ih hend

/-- A finished loop holds the next items of the stream, whatever they are, exactly if no call
failed. -/
theorem received_iff [Nontrivial β] (h : Possible size results) (hsize : 0 < size) {n : ℕ}
    (hend : size ≤ offset size results n) :
    (∀ (stream : ℕ → β) start (i : ℕ), i < size →
        received size results stream start n i = stream i) ↔
      errors size results n = 0 := by
  have hmoved := moved_of_ended h hsize.le hend
  constructor
  · intro hall
    by_contra hne
    -- the item that ends up in the last place is not the one that belongs there
    obtain ⟨a, b, hab⟩ := exists_pair_ne β
    have hplace := hall (fun i => if i + 1 = moved size results n then a else b) (fun _ => b)
      (size - 1).toNat (by omega)
    have hlast := received_last h hsize
      (fun i => if i + 1 = moved size results n then a else b) (fun _ => b) hend
    have hcast : (((size - 1).toNat : ℕ) : Int) = size - 1 := by omega
    rw [hcast, hlast] at hplace
    have hpos : moved size results n - 1 + 1 = moved size results n := by omega
    have hother : ¬ (size - 1).toNat + 1 = moved size results n := by omega
    rw [if_pos hpos, if_neg hother] at hplace
    exact hab hplace
  · intro hn stream start i hi
    exact received_prefix h stream start hn (by omega)

/-- No call failed or moved nothing before everything was there. -/
def Clean (size : Int) (results : ℕ → Int) : Prop :=
  ∃ n, (∀ i < n, 1 ≤ results i) ∧ size ≤ ∑ i ∈ Finset.range n, results i

/-- The loop ends, never leaves the buffer, and holds the next items of the stream. -/
structure Reads (β : Type*) (size : Int) (results : ℕ → Int) : Prop where
  ends : ∃ n, size ≤ offset size results n
  inside : ∀ n, 0 ≤ offset size results n ∧ offset size results n ≤ size
  exact : ∀ n, size ≤ offset size results n → ∀ (stream : ℕ → β) start (i : ℕ), i < size →
    received size results stream start n i = stream i

/-- Where a call that moves nothing is the end of the stream for good, reading works out exactly
if everything comes before an error or the end. -/
theorem reads_iff [Nontrivial β] (h : Possible size results) (hsize : 0 < size)
    (hclosed : ∀ m n, m ≤ n → results m = 0 → results n = 0) :
    Reads β size results ↔ Clean size results := by
  constructor
  · rintro ⟨⟨n, hend⟩, -, hexact⟩
    have hn := (received_iff h hsize hend).mp (hexact n hend)
    have hends : ∃ n, size ≤ offset size results n := ⟨n, hend⟩
    obtain ⟨m, hm⟩ : ∃ m, m = Nat.find hends := ⟨_, rfl⟩
    have hmend : size ≤ offset size results m := hm ▸ Nat.find_spec hends
    have hrun : ∀ i < m, offset size results i < size := by
      intro i hi
      rw [hm] at hi
      exact not_le.mp (Nat.find_min hends hi)
    have hmn : m ≤ n := hm ▸ Nat.find_min' hends hend
    -- a call that moves nothing would stop the loop short for good
    have hpos : ∀ i < m, 1 ≤ results i := by
      intro i hi
      have hne := (errors_eq_zero_iff n).mp hn i (by omega) (hrun i hi)
      rcases h i (hrun i hi) with herr | ⟨hnonneg, -⟩
      · exact absurd herr hne
      · by_contra hzero
        have hstop : results i = 0 := by omega
        have hstuck : ∀ j, i ≤ j → j ≤ m → offset size results j = offset size results i := by
          intro j hij
          induction j, hij using Nat.le_induction with
          | base => exact fun _ => rfl
          | succ j hij ih =>
            intro hj
            rw [offset_succ (hrun j (by omega)), hclosed i j hij hstop, ih (by omega)]
            omega
        have hsame := hstuck m hi.le (le_refl m)
        have hbelow := hrun i hi
        omega
    refine ⟨m, hpos, ?_⟩
    rw [← offset_sum hrun]
    exact hmend
  · rintro ⟨n, hpos, hsum⟩
    obtain ⟨m, hmn, hend⟩ := ends_of_sum hsum
    have herrors : ∀ k, errors size results k = 0 := by
      intro k
      rw [errors_eq_zero_iff]
      intro i _ hi herr
      have hle : i < m := by
        by_contra hmi
        have hsame := offset_ended (not_lt.mp hmi) hend
        omega
      have hcount := hpos i (by omega)
      omega
    refine ⟨⟨m, hend⟩, fun k => ⟨offset_nonneg h (le_refl k) (herrors k), offset_le h hsize.le k⟩, ?_⟩
    intro k hk
    exact (received_iff h hsize hk).mpr (herrors k)

end receive

end Transfer
