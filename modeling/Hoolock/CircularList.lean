import Mathlib.Data.List.Cycle

/-!
Circular doubly linked lists over an arbitrary type of nodes.  The links are
two partial maps; a ring is a duplicate-free cycle in which every two
neighbours point at each other.
-/

set_option autoImplicit false

namespace CircularList

variable {α : Type*}

structure Links (α : Type*) where
  next : α → Option α
  prev : α → Option α

def Links.Joined (L : Links α) (a b : α) : Prop := L.next a = some b ∧ L.prev b = some a

/-- The nodes of `l`, in order, form one closed ring. -/
def Links.IsRing (L : Links α) (l : List α) : Prop :=
  l.Nodup ∧ Cycle.Chain L.Joined (l : Cycle α)

theorem Links.isRing_nil (L : Links α) : L.IsRing [] := ⟨List.nodup_nil, Cycle.Chain.nil _⟩

theorem Links.IsRing.rotate {L : Links α} {l m : List α} (h : L.IsRing l) (hr : l ~r m) :
    L.IsRing m := by
  refine ⟨hr.nodup_iff.mp h.1, ?_⟩
  rw [← Cycle.coe_eq_coe.mpr hr]
  exact h.2

theorem chain_cons_iff (R : α → α → Prop) (a : α) (t : List α) :
    Cycle.Chain R ((a :: t : List α) : Cycle α) ↔
      List.IsChain R (a :: t) ∧ R ((a :: t).getLast (by simp)) a := by
  rw [Cycle.chain_coe_cons, ← List.cons_append, List.isChain_append]
  simp [List.getLast?_eq_some_getLast]

theorem chain_concat_iff (R : α → α → Prop) (a x : α) (t : List α) :
    Cycle.Chain R ((a :: t ++ [x] : List α) : Cycle α) ↔
      List.IsChain R (a :: t) ∧ R ((a :: t).getLast (by simp)) x ∧ R x a := by
  rw [List.cons_append, Cycle.chain_coe_cons, ← List.cons_append, ← List.cons_append,
    List.append_assoc, List.isChain_append]
  simp [List.getLast?_eq_some_getLast, and_comm]

/-- Only the forward pointer of the last node and the backward pointer of the
first one may differ between two ways of linking the same open chain. -/
theorem isChain_joined_congr {L M : Links α} {a z : α} {t : List α} (hnd : (a :: t).Nodup)
    (hz : (a :: t).getLast (by simp) = z)
    (hnext : ∀ u ∈ a :: t, u ≠ z → M.next u = L.next u)
    (hprev : ∀ u ∈ a :: t, u ≠ a → M.prev u = L.prev u)
    (h : List.IsChain L.Joined (a :: t)) : List.IsChain M.Joined (a :: t) := by
  rw [List.isChain_iff_getElem] at h ⊢
  intro i hi
  obtain ⟨hn, hp⟩ := h i hi
  have hlast : (a :: t)[i] ≠ z := by
    rw [← hz, List.getLast_eq_getElem, Ne, hnd.getElem_inj_iff]
    omega
  have hfirst : (a :: t)[i + 1] ≠ a := by
    have h0 : (a :: t)[0] = a := rfl
    intro he
    have := (hnd.getElem_inj_iff (i := i + 1) (j := 0)).mp (he.trans h0.symm)
    omega
  exact ⟨(hnext _ (List.getElem_mem _) hlast).trans hn,
    (hprev _ (List.getElem_mem _) hfirst).trans hp⟩

theorem Links.IsRing.congr_on {L M : Links α} {l : List α} (h : L.IsRing l)
    (hn : ∀ x ∈ l, M.next x = L.next x) (hp : ∀ x ∈ l, M.prev x = L.prev x) : M.IsRing l := by
  refine ⟨h.1, ?_⟩
  cases l with
  | nil => exact Cycle.Chain.nil _
  | cons a t =>
    obtain ⟨hnd, hc⟩ := h
    rw [chain_cons_iff] at hc ⊢
    refine ⟨isChain_joined_congr hnd rfl (fun u hu _ => hn u hu) (fun u hu _ => hp u hu) hc.1, ?_⟩
    exact ⟨(hn _ (List.getLast_mem _)).trans hc.2.1, (hp a (by simp)).trans hc.2.2⟩

section Edit
variable [DecidableEq α]

def Links.setNext (L : Links α) (a : α) (b : Option α) : Links α :=
  { L with next := fun x => if x = a then b else L.next x }

def Links.setPrev (L : Links α) (a : α) (b : Option α) : Links α :=
  { L with prev := fun x => if x = a then b else L.prev x }

@[simp] theorem Links.setNext_next (L : Links α) (a x : α) (b : Option α) :
    (L.setNext a b).next x = if x = a then b else L.next x := rfl

@[simp] theorem Links.setNext_prev (L : Links α) (a : α) (b : Option α) :
    (L.setNext a b).prev = L.prev := rfl

@[simp] theorem Links.setPrev_prev (L : Links α) (a x : α) (b : Option α) :
    (L.setPrev a b).prev x = if x = a then b else L.prev x := rfl

@[simp] theorem Links.setPrev_next (L : Links α) (a : α) (b : Option α) :
    (L.setPrev a b).next = L.next := rfl

def Links.single (L : Links α) (x : α) : Links α :=
  (L.setNext x (some x)).setPrev x (some x)

theorem Links.isRing_single (L : Links α) (x : α) : (L.single x).IsRing [x] := by
  refine ⟨List.nodup_singleton x, ?_⟩
  rw [Cycle.chain_singleton]
  simp [Joined, single]

/-- Link `x` in front of `a`, which is behind the last node when `a` is the first. -/
def Links.insertBefore (L : Links α) (a x : α) : Links α :=
  let M := ((L.setNext x (some a)).setPrev x (L.prev a)).setPrev a (some x)
  match L.prev a with
  | some z => M.setNext z (some x)
  | none => M

theorem Links.IsRing.insertBefore {L : Links α} {a x : α} {t : List α}
    (h : L.IsRing (a :: t)) (hx : x ∉ a :: t) :
    (L.insertBefore a x).IsRing (a :: t ++ [x]) := by
  obtain ⟨hnd, hc⟩ := h
  rw [chain_cons_iff] at hc
  obtain ⟨z, hz⟩ : ∃ z, (a :: t).getLast (by simp) = z := ⟨_, rfl⟩
  rw [hz] at hc
  obtain ⟨hchain, hzn, hzp⟩ := hc
  have hzmem : z ∈ a :: t := hz ▸ List.getLast_mem _
  have hxa : x ≠ a := fun e => hx (by simp [e])
  have hxz : x ≠ z := fun e => hx (e ▸ hzmem)
  have hne : ∀ u ∈ a :: t, u ≠ x := fun u hu e => hx (e ▸ hu)
  refine ⟨?_, ?_⟩
  · rw [List.nodup_append]
    refine ⟨hnd, List.nodup_singleton x, ?_⟩
    intro u hu v hv
    rw [List.mem_singleton] at hv
    exact hv ▸ hne u hu
  · rw [chain_concat_iff, hz]
    refine ⟨isChain_joined_congr hnd hz ?_ ?_ hchain, ?_, ?_⟩
    · intro u hu huz
      simp [Links.insertBefore, hzp, huz, hne u hu]
    · intro u hu hua
      simp [Links.insertBefore, hzp, hua, hne u hu]
    · simp [Links.Joined, Links.insertBefore, hzp, hxa]
    · simp [Links.Joined, Links.insertBefore, hzp, hxz]

def Links.unlink (L : Links α) (x : α) : Links α :=
  let M := match L.next x with
    | some n => L.setPrev n (L.prev x)
    | none => L
  let N := match M.prev x with
    | some p => M.setNext p (M.next x)
    | none => M
  (N.setNext x none).setPrev x none

theorem Links.IsRing.unlink_last {L : Links α} {a x : α} {t : List α}
    (h : L.IsRing (a :: t ++ [x])) : (L.unlink x).IsRing (a :: t) := by
  obtain ⟨hnd, hc⟩ := h
  rw [chain_concat_iff] at hc
  obtain ⟨z, hz⟩ : ∃ z, (a :: t).getLast (by simp) = z := ⟨_, rfl⟩
  rw [hz] at hc
  obtain ⟨hchain, ⟨hzn, hzp⟩, hxn, hxp⟩ := hc
  have hzmem : z ∈ a :: t := hz ▸ List.getLast_mem _
  rw [List.nodup_append] at hnd
  obtain ⟨hnd, _, hdisj⟩ := hnd
  have hne : ∀ u ∈ a :: t, u ≠ x := fun u hu => hdisj u hu x (by simp)
  have hxa : x ≠ a := (hne a (by simp)).symm
  refine ⟨hnd, ?_⟩
  rw [chain_cons_iff, hz]
  refine ⟨isChain_joined_congr hnd hz ?_ ?_ hchain, ?_⟩
  · intro u hu huz
    simp [Links.unlink, hxn, hzp, hxa, huz, hne u hu]
  · intro u hu hua
    simp [Links.unlink, hxn, hzp, hxa, hua, hne u hu]
  · simp [Links.Joined, Links.unlink, hxn, hzp, hxa, hne z hzmem, hne a (by simp)]

theorem Links.IsRing.unlink {L : Links α} {x : α} {l m : List α}
    (h : L.IsRing (l ++ x :: m)) : (L.unlink x).IsRing (l ++ m) := by
  have hrot : (l ++ x :: m) ~r (m ++ l ++ [x]) := by
    have hs : l ++ x :: m = (l ++ [x]) ++ m := by simp
    rw [hs, List.append_assoc m]
    exact List.isRotated_append
  have hlast := h.rotate hrot
  cases hml : m ++ l with
  | nil =>
    obtain ⟨rfl, rfl⟩ := List.append_eq_nil_iff.mp hml
    exact isRing_nil _
  | cons a t =>
    rw [hml] at hlast
    have := hlast.unlink_last
    rw [← hml] at this
    exact this.rotate List.isRotated_append

end Edit

/-- Follow `next` for at most `n` nodes; a missing pointer ends the walk. -/
def walk (next : α → Option α) : Nat → Option α → List α
  | 0, _ => []
  | _ + 1, none => []
  | n + 1, some a => a :: walk next n (next a)

theorem walk_of_chain {L : Links α} {a : α} {t : List α}
    (h : List.IsChain L.Joined (a :: t)) : walk L.next (a :: t).length (some a) = a :: t := by
  induction t generalizing a with
  | nil => rfl
  | cons b t ih =>
    rw [List.isChain_cons_cons] at h
    have hb := ih h.2
    simp only [List.length_cons, walk, h.1.1] at hb ⊢
    rw [hb]

theorem Links.IsRing.walk_head {L : Links α} {a : α} {t : List α} (h : L.IsRing (a :: t)) :
    walk L.next (a :: t).length (some a) = a :: t :=
  walk_of_chain ((chain_cons_iff _ a t).mp h.2).1

/-- A walk of full length from any node visits the whole ring, starting there. -/
theorem Links.IsRing.walk_mem {L : Links α} {a : α} {l m : List α}
    (h : L.IsRing (l ++ a :: m)) :
    walk L.next (l ++ a :: m).length (some a) = a :: (m ++ l) := by
  have hr : (l ++ a :: m) ~r (a :: (m ++ l)) := by
    rw [← List.cons_append]
    exact List.isRotated_append
  have hw := (h.rotate hr).walk_head
  rw [hr.perm.length_eq]
  exact hw

theorem Links.IsRing.mem_walk {L : Links α} {a : α} {l : List α} (h : L.IsRing l) (ha : a ∈ l)
    (x : α) : x ∈ walk L.next l.length (some a) ↔ x ∈ l := by
  obtain ⟨m, k, rfl⟩ := List.append_of_mem ha
  rw [h.walk_mem]
  simp only [List.mem_cons, List.mem_append]
  tauto

theorem Links.IsRing.walk_perm {L : Links α} {a : α} {l : List α} (h : L.IsRing l)
    (ha : a ∈ l) : (walk L.next l.length (some a)).Perm l := by
  obtain ⟨m, k, rfl⟩ := List.append_of_mem ha
  rw [h.walk_mem, ← List.cons_append]
  exact List.perm_append_comm

theorem Links.IsRing.neighbours {L : Links α} {a : α} {l : List α} (h : L.IsRing l)
    (ha : a ∈ l) : (∃ b ∈ l, L.Joined a b) ∧ ∃ b ∈ l, L.Joined b a := by
  obtain ⟨m, k, rfl⟩ := List.append_of_mem ha
  have hr : (m ++ a :: k) ~r (a :: (k ++ m)) := by
    rw [← List.cons_append]
    exact List.isRotated_append
  have hmem : ∀ b, b ∈ a :: (k ++ m) ↔ b ∈ m ++ a :: k := fun b => hr.perm.mem_iff.symm
  have hc := (chain_cons_iff _ a (k ++ m)).mp (h.rotate hr).2
  refine ⟨?_, _, (hmem _).mp (List.getLast_mem _), hc.2⟩
  cases hrest : k ++ m with
  | nil =>
    have hlast := hc.2
    simp only [hrest, List.getLast_singleton] at hlast
    exact ⟨a, ha, hlast⟩
  | cons b t =>
    rw [hrest, List.isChain_cons_cons] at hc
    refine ⟨b, (hmem b).mp ?_, hc.1.1⟩
    rw [hrest]
    simp

/-- Follow `next` until a node satisfies `p`; the position reached after `n`
moves when none does. -/
def search (next : α → Option α) (p : α → Bool) : Nat → Option α → Option α
  | 0, pos => pos
  | _ + 1, none => none
  | n + 1, some a => if p a then some a else search next p n (next a)

theorem search_eq_find {next : α → Option α} {p : α → Bool} {n : Nat} {pos : Option α} {s : α}
    (h : (walk next n pos).find? p = some s) : search next p n pos = some s := by
  induction n generalizing pos with
  | zero => simp [walk] at h
  | succ n ih =>
    cases pos with
    | none => simp [walk] at h
    | some a =>
      simp only [walk, List.find?_cons] at h
      by_cases hp : p a
      · simpa [search, hp] using h
      · simp only [hp] at h
        simp only [search, hp]
        exact ih h

theorem search_mem {next : α → Option α} {l : List α}
    (hl : ∀ a ∈ l, ∀ b, next a = some b → b ∈ l) {p : α → Bool} {n : Nat} {pos : Option α} {s : α}
    (hpos : ∀ a, pos = some a → a ∈ l) (h : search next p n pos = some s) : s ∈ l := by
  induction n generalizing pos with
  | zero => exact hpos s h
  | succ n ih =>
    cases pos with
    | none => cases h
    | some a =>
      have ha : a ∈ l := hpos a rfl
      unfold search at h
      split_ifs at h with hp
      · cases h
        exact ha
      · exact ih (hl a ha) h

theorem search_past_chain {L : Links α} {p : α → Bool} {a b : α} {t : List α}
    (h : List.IsChain L.Joined (a :: t)) (hb : L.next ((a :: t).getLast (by simp)) = some b)
    (hp : ∀ x ∈ a :: t, p x = false) : search L.next p (a :: t).length (some a) = some b := by
  induction t generalizing a with
  | nil =>
    have ha := hp a (by simp)
    simpa [search, ha] using hb
  | cons c t ih =>
    rw [List.isChain_cons_cons] at h
    rw [List.getLast_cons (by simp)] at hb
    have ha := hp a (by simp)
    have hc := ih h.2 hb fun x hx => hp x (List.mem_cons_of_mem a hx)
    simp only [List.length_cons, search, ha, h.1.1] at hc ⊢
    exact hc

theorem Links.IsRing.search_fails {L : Links α} {p : α → Bool} {a : α} {t : List α}
    (h : L.IsRing (a :: t)) (hp : ∀ x ∈ a :: t, p x = false) :
    search L.next p (a :: t).length (some a) = some a := by
  obtain ⟨hchain, hlast⟩ := (chain_cons_iff _ a t).mp h.2
  exact search_past_chain hchain hlast.1 hp

/-- Follow `next` for at most `n` nodes, up to the node before `stop`. -/
def walkUntil [DecidableEq α] (next : α → Option α) (stop : Option α) : Nat → Option α → List α
  | 0, _ => []
  | _ + 1, none => []
  | n + 1, some a => if some a = stop then [] else a :: walkUntil next stop n (next a)

theorem walkUntil_stop [DecidableEq α] (next : α → Option α) (n : Nat) (a : α) :
    walkUntil next (some a) n (some a) = [] := by
  cases n <;> simp [walkUntil]

theorem walkUntil_chain [DecidableEq α] {L : Links α} {a b : α} {t m : List α} {n : Nat}
    (h : List.IsChain L.Joined (a :: t ++ b :: m)) (hb : b ∉ a :: t) (hn : (a :: t).length ≤ n) :
    walkUntil L.next (some b) n (some a) = a :: t := by
  induction t generalizing a n with
  | nil =>
    obtain ⟨n, rfl⟩ : ∃ k, n = k + 1 := ⟨n - 1, by simp at hn; omega⟩
    have hab : L.next a = some b := (List.isChain_cons_cons.mp h).1.1
    have hne : a ≠ b := fun e => hb (by simp [e])
    simp [walkUntil, hne, hab, walkUntil_stop]
  | cons c t ih =>
    obtain ⟨n, rfl⟩ : ∃ k, n = k + 1 := ⟨n - 1, by simp at hn; omega⟩
    simp only [List.cons_append] at h
    have hac := List.isChain_cons_cons.mp h
    have hne : a ≠ b := fun e => hb (by simp [e])
    have hrest := ih hac.2 (fun hm => hb (List.mem_cons_of_mem a hm)) (by simp at hn ⊢; omega)
    simp [walkUntil, hne, hac.1.1, hrest]

/-- From the first node to behind `x`: everything up to `x`, unless `x` is the last node;
behind that one lies the first again, and the walk is over before it begins. -/
theorem Links.IsRing.walkUntil_past [DecidableEq α] {L : Links α} {x : α} {l m : List α}
    (h : L.IsRing (l ++ x :: m)) :
    walkUntil L.next (L.next x) (l ++ x :: m).length (l ++ x :: m).head? =
      if m = [] then [] else l ++ [x] := by
  obtain ⟨a, t, hat⟩ : ∃ a t, l ++ [x] = a :: t := by cases l <;> simp
  have hring : l ++ x :: m = a :: t ++ m := by simp [← hat]
  rw [hring] at h ⊢
  obtain ⟨hnd, hc⟩ := h
  rw [List.cons_append, chain_cons_iff] at hc
  have hlast : (a :: t).getLast (by simp) = x := by simp [← hat]
  cases m with
  | nil =>
    simp only [List.append_nil, hlast] at hc
    rw [hc.2.1, if_pos rfl]
    exact walkUntil_stop _ _ _
  | cons b m =>
    have hxb : L.next x = some b := by
      have hchain := hc.1
      rw [← List.cons_append, List.isChain_append] at hchain
      have hjoin := hchain.2.2 x (by simp [← hlast, List.getLast?_eq_some_getLast]) b (by simp)
      exact hjoin.1
    have hb : b ∉ a :: t := by
      intro hm
      rw [List.nodup_append] at hnd
      exact hnd.2.2 b hm b (by simp) rfl
    rw [hxb, if_neg (by simp), hat]
    refine walkUntil_chain (m := m) ?_ hb (by simp)
    simpa using hc.1

theorem Links.IsRing.from_next {L : Links α} {x : α} {l m : List α} (h : L.IsRing (l ++ x :: m)) :
    L.IsRing (m ++ l ++ [x]) ∧
      walk L.next (l ++ x :: m).length (L.next x) = m ++ l ++ [x] := by
  have hr : (l ++ x :: m) ~r (x :: (m ++ l)) := by
    rw [← List.cons_append]
    exact List.isRotated_append
  have hto : (l ++ x :: m) ~r (m ++ l ++ [x]) := hr.trans (List.isRotated_append (l := [x]))
  have hlast := h.rotate hto
  refine ⟨hlast, ?_⟩
  have hc := (chain_cons_iff _ x (m ++ l)).mp (h.rotate hr).2
  cases hrest : m ++ l with
  | nil =>
    simp only [hrest, List.getLast_singleton] at hc
    rw [hto.perm.length_eq, hrest, hc.2.1]
    rfl
  | cons b t =>
    rw [hrest, List.isChain_cons_cons] at hc
    rw [hto.perm.length_eq, hrest, hc.1.1.1]
    rw [hrest] at hlast
    exact hlast.walk_head

/-- Follow `next` until a counter, decremented at every node, falls below zero. -/
def countdown (next : α → Option α) : Nat → Option α → Int → Option α
  | 0, pos, _ => pos
  | _ + 1, none, _ => none
  | n + 1, some a, k => if k - 1 < 0 then some a else countdown next n (next a) (k - 1)

theorem countdown_chain {L : Links α} {a : α} {t : List α} (h : List.IsChain L.Joined (a :: t))
    {n k : Nat} (hk : k < (a :: t).length) (hn : k < n) :
    countdown L.next n (some a) k = (a :: t)[k]? := by
  induction t generalizing a n k with
  | nil =>
    obtain ⟨n, rfl⟩ : ∃ m, n = m + 1 := ⟨n - 1, by omega⟩
    obtain rfl : k = 0 := by simpa using hk
    simp [countdown]
  | cons b t ih =>
    obtain ⟨n, rfl⟩ : ∃ m, n = m + 1 := ⟨n - 1, by omega⟩
    rw [List.isChain_cons_cons] at h
    cases k with
    | zero => simp [countdown]
    | succ k =>
      have hrest := ih h.2 (k := k) (n := n) (by simpa using hk) (by omega)
      have hstep : ((k + 1 : Nat) : Int) - 1 = k := by omega
      have hpos : ¬ ((k : Int) < 0) := by omega
      simp only [countdown, hstep, hpos, if_false, h.1.1, List.getElem?_cons_succ]
      exact hrest

theorem Links.IsRing.countdown_head {L : Links α} {l : List α} (h : L.IsRing l) {k : Nat}
    (hk : k < l.length) : countdown L.next l.length l.head? k = l[k]? := by
  cases l with
  | nil => cases hk
  | cons a t => exact countdown_chain ((chain_cons_iff _ a t).mp h.2).1 hk hk

end CircularList
