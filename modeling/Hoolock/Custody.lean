import Mathlib.Data.List.Nodup

/-!
Custody of handles: a log of who acquired which handle and which handles were released.
-/

set_option autoImplicit false

namespace Custody

inductive Event (ι η : Type*) where
  | acquire (owner : ι) (handle : η)
  | release (handle : η)
  deriving DecidableEq

variable {ι η : Type*} [DecidableEq ι]

def acquired (log : List (Event ι η)) (i : ι) : List η :=
  log.filterMap fun
    | .acquire owner n => if owner = i then some n else none
    | .release _ => none

omit [DecidableEq ι] in
def released (log : List (Event ι η)) : List η :=
  log.filterMap fun
    | .acquire _ _ => none
    | .release n => some n

def Fresh (log : List (Event ι η)) (n : η) : Prop := ∀ i, n ∉ acquired log i

/-- Only what was acquired is released, once, and a handle has one owner. -/
structure Orderly (log : List (Event ι η)) : Prop where
  known : ∀ n ∈ released log, ∃ i, n ∈ acquired log i
  once : (released log).Nodup
  owner : ∀ n i j, n ∈ acquired log i → n ∈ acquired log j → i = j

theorem acquired_acquire (log : List (Event ι η)) (i j : ι) (n : η) :
    acquired (log ++ [.acquire i n]) j = acquired log j ++ if i = j then [n] else [] := by
  unfold acquired
  rw [List.filterMap_append]
  split_ifs with h <;> simp [h]

@[simp] theorem acquired_release (log : List (Event ι η)) (j : ι) (n : η) :
    acquired (log ++ [.release n]) j = acquired log j := by
  simp [acquired]

omit [DecidableEq ι] in
@[simp] theorem released_acquire (log : List (Event ι η)) (i : ι) (n : η) :
    released (log ++ [.acquire i n]) = released log := by
  simp [released]

omit [DecidableEq ι] in
@[simp] theorem released_release (log : List (Event ι η)) (n : η) :
    released (log ++ [.release n]) = released log ++ [n] := by
  simp [released]

theorem Orderly.nil : Orderly ([] : List (Event ι η)) where
  known := by simp [released]
  once := List.nodup_nil
  owner := by simp [acquired]

theorem Orderly.acquire {log : List (Event ι η)} (h : Orderly log) {n : η} (hn : Fresh log n)
    (i : ι) : Orderly (log ++ [.acquire i n]) where
  known := by
    intro m hm
    rw [released_acquire] at hm
    obtain ⟨j, hj⟩ := h.known m hm
    exact ⟨j, by rw [acquired_acquire]; exact List.mem_append_left _ hj⟩
  once := by
    rw [released_acquire]
    exact h.once
  owner := by
    intro m j k hj hk
    rw [acquired_acquire, List.mem_append] at hj hk
    -- the new handle is nobody else's, the others are as they were
    rcases hj with hj | hj <;> rcases hk with hk | hk
    · exact h.owner m j k hj hk
    · split_ifs at hk with hik
      · obtain rfl : m = n := by simpa using hk
        exact absurd hj (hn j)
      · simp at hk
    · split_ifs at hj with hij
      · obtain rfl : m = n := by simpa using hj
        exact absurd hk (hn k)
      · simp at hj
    · split_ifs at hj hk with hij hik
      · rw [← hij, hik]
      all_goals simp at hj hk

variable [DecidableEq η]

/-- What the owner acquired and nobody released. -/
def held (log : List (Event ι η)) (i : ι) : List η :=
  (acquired log i).filter fun n => n ∉ released log

theorem mem_held {log : List (Event ι η)} {i : ι} {n : η} :
    n ∈ held log i ↔ n ∈ acquired log i ∧ n ∉ released log := by
  simp [held]

theorem held_acquire {log : List (Event ι η)} (h : Orderly log) {n : η} (hn : Fresh log n)
    (i j : ι) : held (log ++ [.acquire i n]) j = held log j ++ if i = j then [n] else [] := by
  have hkept : n ∉ released log := by
    intro hmem
    obtain ⟨k, hk⟩ := h.known n hmem
    exact hn k hk
  unfold held
  rw [acquired_acquire, released_acquire, List.filter_append]
  split_ifs <;> simp [hkept]

theorem held_release (log : List (Event ι η)) (n : η) (i : ι) :
    held (log ++ [.release n]) i = (held log i).filter fun m => m ≠ n := by
  unfold held
  rw [acquired_release, released_release, List.filter_filter]
  refine List.filter_congr fun m _ => ?_
  simp [and_comm]

theorem Orderly.release {log : List (Event ι η)} (h : Orderly log) {n : η} {i : ι}
    (hn : n ∈ held log i) : Orderly (log ++ [.release n]) where
  known := by
    intro m hm
    rw [released_release, List.mem_append, List.mem_singleton] at hm
    rcases hm with hm | rfl
    · obtain ⟨j, hj⟩ := h.known m hm
      exact ⟨j, by rwa [acquired_release]⟩
    · exact ⟨i, by rw [acquired_release]; exact (mem_held.mp hn).1⟩
  once := by
    rw [released_release, List.nodup_append]
    refine ⟨h.once, List.nodup_singleton n, fun a ha b hb hab => ?_⟩
    obtain rfl : b = n := by simpa using hb
    exact (mem_held.mp hn).2 (hab ▸ ha)
  owner := by
    intro m j k hj hk
    rw [acquired_release] at hj hk
    exact h.owner m j k hj hk

theorem held_release_other {log : List (Event ι η)} (h : Orderly log) {n : η} {i j : ι}
    (hn : n ∈ held log i) (hij : i ≠ j) : held (log ++ [.release n]) j = held log j := by
  rw [held_release, List.filter_eq_self]
  intro m hm
  have hne : m ≠ n := by
    rintro rfl
    exact hij (h.owner m i j (mem_held.mp hn).1 (mem_held.mp hm).1)
  simpa using hne

end Custody
