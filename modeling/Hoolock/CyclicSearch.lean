import Mathlib.Data.List.TakeWhile

/-!
Searching a ring again and again, each search starting behind what the last one found.
-/

set_option autoImplicit false

namespace CyclicSearch

variable {α : Type*} (p : α → Bool)

/-- The ring as the next search walks it: what was found, and what was passed over, go to the
end. -/
def advance (r : List α) : List α :=
  match r.dropWhile fun a => !p a with
  | [] => r
  | s :: rest => rest ++ r.takeWhile (fun a => !p a) ++ [s]

/-- What `n` searches find, one after the other. -/
def found : Nat → List α → List α
  | 0, _ => []
  | n + 1, r => (r.find? p).toList ++ found n (advance p r)

theorem advance_append {r rest : List α} {s : α} (hr : ∀ a ∈ r, p a = false) (hs : p s = true) :
    advance p (r ++ s :: rest) = rest ++ r ++ [s] := by
  have hdrop : (r ++ s :: rest).dropWhile (fun a => !p a) = s :: rest := by
    rw [List.dropWhile_append_of_pos (by simpa using hr)]
    simp [hs]
  have htake : (r ++ s :: rest).takeWhile (fun a => !p a) = r := by
    rw [List.takeWhile_append_of_pos (by simpa using hr)]
    simp [hs]
  unfold advance
  rw [hdrop, htake]

theorem find_split {r : List α} {s : α} (h : r.find? p = some s) :
    ∃ before after, r = before ++ s :: after ∧ (∀ a ∈ before, p a = false) ∧ p s = true := by
  obtain ⟨hs, before, after, hr, hbefore⟩ := List.find?_eq_some_iff_append.mp h
  exact ⟨before, after, hr, fun a ha => by simpa using hbefore a ha, hs⟩

theorem filter_before {r : List α} (hr : ∀ a ∈ r, p a = false) : r.filter p = [] := by
  simpa using hr

theorem filter_advance {r t : List α} {s : α} (h : r.filter p = s :: t) :
    r.find? p = some s ∧ (advance p r).filter p = t ++ [s] := by
  have hfind : r.find? p = some s := by
    rw [← List.head?_filter, h]
    rfl
  obtain ⟨before, after, rfl, hbefore, hs⟩ := find_split p hfind
  have ht : after.filter p = t := by
    simpa [filter_before p hbefore, hs] using h
  refine ⟨hfind, ?_⟩
  rw [advance_append p hbefore hs]
  simp [filter_before p hbefore, hs, ht]

theorem advance_none {r : List α} (h : r.filter p = []) :
    r.find? p = none ∧ advance p r = r := by
  have hnone : ∀ a ∈ r, p a = false := by simpa using h
  have hdrop : r.dropWhile (fun a => !p a) = [] :=
    List.dropWhile_eq_nil_iff.mpr fun a ha => by simp [hnone a ha]
  refine ⟨by simpa using hnone, ?_⟩
  unfold advance
  rw [hdrop]

theorem advance_congr {q : α → Bool} {r : List α} (h : ∀ a ∈ r, p a = q a) :
    advance p r = advance q r := by
  cases hfind : r.find? p with
  | none =>
    have hp : ∀ a ∈ r, p a = false := by simpa using hfind
    have hq : ∀ a ∈ r, q a = false := fun a ha => (h a ha).symm.trans (hp a ha)
    rw [(advance_none p (filter_before p hp)).2, (advance_none q (filter_before q hq)).2]
  | some s =>
    obtain ⟨before, after, rfl, hbefore, hs⟩ := find_split p hfind
    have hq : ∀ a ∈ before, q a = false := fun a ha =>
      (h a (by simp [ha])).symm.trans (hbefore a ha)
    rw [advance_append p hbefore hs, advance_append q hq ((h s (by simp)).symm.trans hs)]

/-- As many searches as there are nodes in `p`, or fewer, find them in their order. -/
theorem found_eq_take {n : Nat} {r : List α} (h : n ≤ (r.filter p).length) :
    found p n r = (r.filter p).take n := by
  induction n generalizing r with
  | zero => simp [found]
  | succ n ih =>
    cases hr : r.filter p with
    | nil => simp [hr] at h
    | cons s t =>
      obtain ⟨hfind, hnext⟩ := filter_advance p hr
      have hn : n ≤ t.length := by
        simp only [hr, List.length_cons] at h
        omega
      have hlen : n ≤ ((advance p r).filter p).length := by
        rw [hnext, List.length_append]
        omega
      simp [found, hfind, ih hlen, hnext, List.take_append_of_le_length hn]

theorem found_all (r : List α) : found p (r.filter p).length r = r.filter p := by
  rw [found_eq_take p (Nat.le_refl _), List.take_length]

end CyclicSearch
