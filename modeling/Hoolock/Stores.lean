import Mathlib.Tactic

set_option autoImplicit false

namespace Stores

variable {α : Type*}

/-- The single stores of a list from address `k` on, in order. -/
def stores : ℕ → List α → List (ℕ × α)
  | _, [] => []
  | k, a :: l => (k, a) :: stores (k + 1) l

def store (mem : ℕ → α) (w : ℕ × α) : ℕ → α := fun j => if j = w.1 then w.2 else mem j

def put (mem : ℕ → α) (k : ℕ) (l : List α) : ℕ → α := (stores k l).foldl store mem

def read (mem : ℕ → α) (k n : ℕ) : List α := (List.range n).map fun i => mem (k + i)

theorem stores_append (k : ℕ) (l t : List α) :
    stores k (l ++ t) = stores k l ++ stores (k + l.length) t := by
  induction l generalizing k with
  | nil => simp [stores]
  | cons a l ih =>
    simp only [List.cons_append, stores, List.length_cons]
    rw [ih, Nat.add_assoc, Nat.add_comm 1]

theorem stores_replicate (k : ℕ) (a : α) :
    stores 0 (List.replicate k a) = (List.range k).map fun i => (i, a) := by
  induction k with
  | zero => rfl
  | succ k ih =>
    rw [List.replicate_succ', stores_append, ih, List.range_succ, List.map_append]
    simp [stores]

theorem mem_stores {k : ℕ} {l : List α} {w : ℕ × α} (h : w ∈ stores k l) :
    k ≤ w.1 ∧ w.1 < k + l.length := by
  induction l generalizing k with
  | nil => simp [stores] at h
  | cons a l ih =>
    rw [stores, List.mem_cons] at h
    rw [List.length_cons]
    rcases h with rfl | h
    · simp
    · have hrest := ih h
      omega

theorem put_outside {k j : ℕ} {l : List α} (h : j < k ∨ k + l.length ≤ j) (mem : ℕ → α) :
    put mem k l j = mem j := by
  induction l generalizing k mem with
  | nil => rfl
  | cons a l ih =>
    rw [List.length_cons] at h
    have hne : j ≠ k := by omega
    have hrest := ih (k := k + 1) (by omega) (store mem (k, a))
    unfold put at hrest ⊢
    rw [stores, List.foldl_cons, hrest]
    simp [store, hne]

theorem length_read (mem : ℕ → α) (k n : ℕ) : (read mem k n).length = n := by
  simp [read]

theorem read_add (mem : ℕ → α) (k m n : ℕ) :
    read mem k (m + n) = read mem k m ++ read mem (k + m) n := by
  unfold read
  rw [List.range_add, List.map_append, List.map_map]
  congr 1
  refine List.map_congr_left fun i _ => ?_
  simp [Nat.add_assoc]

theorem read_congr {mem other : ℕ → α} {k n : ℕ} (h : ∀ i < n, mem (k + i) = other (k + i)) :
    read mem k n = read other k n := by
  refine List.map_congr_left fun i hi => ?_
  rw [List.mem_range] at hi
  exact h i hi

theorem read_put_outside {k j n : ℕ} {l : List α} (h : j + n ≤ k ∨ k + l.length ≤ j)
    (mem : ℕ → α) : read (put mem k l) j n = read mem j n :=
  read_congr fun i hi => put_outside (by omega) mem

theorem read_put (mem : ℕ → α) (k : ℕ) (l : List α) : read (put mem k l) k l.length = l := by
  induction l using List.reverseRecOn with
  | nil => rfl
  | append_singleton l a ih =>
    have hput : put mem k (l ++ [a]) = put (put mem k l) (k + l.length) [a] := by
      unfold put
      rw [stores_append, List.foldl_append]
    have hlow := read_put_outside (k := k + l.length) (j := k) (n := l.length) (l := [a])
      (Or.inl (le_refl _)) (put mem k l)
    rw [List.length_append, List.length_singleton, hput, read_add, hlow, ih]
    simp [read, put, stores, store]

end Stores
