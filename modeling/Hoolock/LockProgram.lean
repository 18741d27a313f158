import Mathlib.Logic.Relation
import Mathlib.Logic.Function.Basic
import Mathlib.Data.List.Basic

/-!
Programs over locks, run by any number of threads in any interleaving.  A thread that
takes its locks in the order of a rank waits for no cycle of threads.
-/

set_option autoImplicit false

namespace LockProgram

variable {σ ρ ι : Type}

/-- A request `ρ` names a lock and the way it is taken. -/
inductive Prog (σ ρ : Type) where
  | done
  | lock (r : ρ) (k : Prog σ ρ)
  | unlock (r : ρ) (k : Prog σ ρ)
  | exec (f : σ → σ) (k : Prog σ ρ)
  | read (k : σ → Prog σ ρ)
  | loop (test : σ → Bool) (body k : Prog σ ρ)
  | call (p k : Prog σ ρ)
  /-- the thread dies, its locks stay taken -/
  | fault

/-- When requests exclude one another, and what taking and giving back a lock does to the
data. -/
structure Locking (σ ρ : Type) where
  conflict : ρ → ρ → Prop
  grant : ρ → σ → σ
  drop : ρ → σ → σ

/-- What a thread has left to do, innermost call first, and the locks it holds. -/
structure Thread (σ ρ : Type) where
  stack : List (Prog σ ρ)
  held : List ρ

namespace Thread

def start (p : Prog σ ρ) : Thread σ ρ := ⟨[p], []⟩

def wants (th : Thread σ ρ) : Option ρ :=
  match th.stack with
  | .lock r _ :: _ => some r
  | _ => none

variable [DecidableEq ρ]

def next (L : Locking σ ρ) (w : σ) (th : Thread σ ρ) : Option (σ × Thread σ ρ) :=
  match th.stack with
  | [] => none
  | .done :: rest => some (w, ⟨rest, th.held⟩)
  | .lock r k :: rest => some (L.grant r w, ⟨k :: rest, r :: th.held⟩)
  | .unlock r k :: rest => some (L.drop r w, ⟨k :: rest, th.held.erase r⟩)
  | .exec f k :: rest => some (f w, ⟨k :: rest, th.held⟩)
  | .read k :: rest => some (w, ⟨k w :: rest, th.held⟩)
  | .loop test body k :: rest =>
    if test w then some (w, ⟨body :: .loop test body k :: rest, th.held⟩)
    else some (w, ⟨k :: rest, th.held⟩)
  | .call p k :: rest => some (w, ⟨p :: k :: rest, th.held⟩)
  | .fault :: _ => none

end Thread

structure State (ι σ ρ : Type) where
  data : σ
  threads : ι → Thread σ ρ

namespace State

/-- Thread `i` is about to take a lock that thread `j` holds. -/
def WaitsFor (L : Locking σ ρ) (s : State ι σ ρ) (i j : ι) : Prop :=
  ∃ r r', (s.threads i).wants = some r ∧ r' ∈ (s.threads j).held ∧ L.conflict r r'

/-- A thread waits for itself or for threads that wait for it. -/
def Deadlock (L : Locking σ ρ) (s : State ι σ ρ) : Prop :=
  ∃ i, Relation.TransGen (s.WaitsFor L) i i

def Step [DecidableEq ι] [DecidableEq ρ] (L : Locking σ ρ) (s t : State ι σ ρ) : Prop :=
  ∃ i w th, (s.threads i).next L s.data = some (w, th) ∧ (∀ j, ¬ s.WaitsFor L i j) ∧
    t = ⟨w, Function.update s.threads i th⟩

end State

/-- From the locks `h` on the program takes each lock above all that it holds, whatever of the
states in `J` it meets, and ends with locks in `Q`. -/
def Ordered [DecidableEq ρ] (L : Locking σ ρ) (J : σ → Prop) (rank : ρ → Nat) :
    Prog σ ρ → List ρ → (List ρ → Prop) → Prop
  | .done, h, Q => Q h
  | .lock r k, h, Q =>
    (∀ r' ∈ h, rank r' < rank r) ∧ (∀ w, J w → J (L.grant r w)) ∧
      Ordered L J rank k (r :: h) Q
  | .unlock r k, h, Q => (∀ w, J w → J (L.drop r w)) ∧ Ordered L J rank k (h.erase r) Q
  | .exec f k, h, Q => (∀ w, J w → J (f w)) ∧ Ordered L J rank k h Q
  | .read k, h, Q => ∀ w, J w → Ordered L J rank (k w) h Q
  | .loop test body k, h, Q =>
    (∀ w, J w → test w = true → Ordered L J rank body h (· = h)) ∧ Ordered L J rank k h Q
  | .call p k, h, Q => Ordered L J rank p h fun h' => Ordered L J rank k h' Q
  | .fault, _, _ => True

def OrderedStack [DecidableEq ρ] (L : Locking σ ρ) (J : σ → Prop) (rank : ρ → Nat) :
    List (Prog σ ρ) → List ρ → Prop
  | [], _ => True
  | p :: rest, h => Ordered L J rank p h (OrderedStack L J rank rest)

def Thread.InOrder [DecidableEq ρ] (L : Locking σ ρ) (J : σ → Prop) (rank : ρ → Nat)
    (th : Thread σ ρ) : Prop := OrderedStack L J rank th.stack th.held

section order

variable [DecidableEq ρ] {L : Locking σ ρ} {J : σ → Prop} {rank : ρ → Nat}

theorem Ordered.mono {p : Prog σ ρ} {h : List ρ} {Q R : List ρ → Prop}
    (hp : Ordered L J rank p h Q) (hQR : ∀ h', Q h' → R h') : Ordered L J rank p h R := by
  induction p generalizing h Q R with
  | done => exact hQR h hp
  | lock r k ih => exact ⟨hp.1, hp.2.1, ih hp.2.2 hQR⟩
  | unlock r k ih => exact ⟨hp.1, ih hp.2 hQR⟩
  | exec f k ih => exact ⟨hp.1, ih hp.2 hQR⟩
  | read k ih => exact fun w hw => ih w (hp w hw) hQR
  | loop test body k _ ihk => exact ⟨hp.1, ihk hp.2 hQR⟩
  | call p k ihp ihk => exact ihp hp fun h' hk => ihk hk hQR
  | fault => trivial

theorem Ordered.start {p : Prog σ ρ} (h : Ordered L J rank p [] fun _ => True) :
    (Thread.start p).InOrder L J rank :=
  h.mono fun _ _ => trivial

theorem Thread.InOrder.next {w v : σ} {th u : Thread σ ρ} (hw : J w)
    (h : th.InOrder L J rank) (hv : th.next L w = some (v, u)) :
    J v ∧ u.InOrder L J rank := by
  obtain ⟨stack, held⟩ := th
  cases stack with
  | nil => cases hv
  | cons p rest =>
    cases p with
    | done =>
      cases hv
      exact ⟨hw, h⟩
    | lock r k =>
      cases hv
      exact ⟨h.2.1 w hw, h.2.2⟩
    | unlock r k =>
      cases hv
      exact ⟨h.1 w hw, h.2⟩
    | exec f k =>
      cases hv
      exact ⟨h.1 w hw, h.2⟩
    | read k =>
      cases hv
      exact ⟨hw, h w hw⟩
    | loop test body k =>
      simp only [Thread.next] at hv
      by_cases ht : test w = true
      · rw [if_pos ht] at hv
        cases hv
        refine ⟨hw, (h.1 w hw ht).mono fun h' heq => ?_⟩
        -- back at the loop with the locks it began with
        rw [heq]
        exact h
      · rw [if_neg ht] at hv
        cases hv
        exact ⟨hw, h.2⟩
    | call p k =>
      cases hv
      exact ⟨hw, h⟩
    | fault => cases hv

theorem Thread.InOrder.above {th : Thread σ ρ} (h : th.InOrder L J rank) {r : ρ}
    (hr : th.wants = some r) : ∀ r' ∈ th.held, rank r' < rank r := by
  obtain ⟨stack, held⟩ := th
  cases stack with
  | nil => cases hr
  | cons p rest =>
    cases p with
    | lock r' k =>
      cases hr
      exact h.1
    | _ => cases hr

theorem no_deadlock_of_ordered {s : State ι σ ρ}
    (hrank : ∀ r r', L.conflict r r' → rank r = rank r')
    (h : ∀ i, (s.threads i).InOrder L J rank) : ¬ s.Deadlock L := by
  have hclimb : ∀ i j, Relation.TransGen (s.WaitsFor L) i j → ∀ r r',
      (s.threads i).wants = some r → (s.threads j).wants = some r' → rank r < rank r' := by
    intro i j hij
    induction hij with
    | single hwait =>
      intro r r' hr hr'
      obtain ⟨q, q', hq, hq', hc⟩ := hwait
      obtain rfl : q = r := Option.some.inj (hq.symm.trans hr)
      have hlt := (h _).above hr' q' hq'
      have heq := hrank q q' hc
      omega
    | tail _ hwait ih =>
      intro r r' hr hr'
      obtain ⟨q, q', hq, hq', hc⟩ := hwait
      have hle := ih r q hr hq
      have hlt := (h _).above hr' q' hq'
      have heq := hrank q q' hc
      omega
  rintro ⟨i, hi⟩
  have hwants : ∃ r, (s.threads i).wants = some r := by
    obtain ⟨j, hj, _⟩ := Relation.TransGen.head'_iff.mp hi
    obtain ⟨r, _, hr, _⟩ := hj
    exact ⟨r, hr⟩
  obtain ⟨r, hr⟩ := hwants
  have hlt := hclimb i i hi r r hr hr
  omega

/-- Threads that keep to the order never deadlock, in any interleaving. -/
theorem reachable_no_deadlock [DecidableEq ι] {s t : State ι σ ρ}
    (hrank : ∀ r r', L.conflict r r' → rank r = rank r') (hJ : J s.data)
    (h : ∀ i, (s.threads i).InOrder L J rank)
    (hreach : Relation.ReflTransGen (State.Step L) s t) : ¬ t.Deadlock L := by
  have hinv : J t.data ∧ ∀ i, (t.threads i).InOrder L J rank := by
    induction hreach with
    | refl => exact ⟨hJ, h⟩
    | tail _ hstep ih =>
      obtain ⟨hdata, hall⟩ := ih
      obtain ⟨i, v, u, hnext, _, rfl⟩ := hstep
      obtain ⟨hv, hu⟩ := (hall i).next hdata hnext
      refine ⟨hv, fun j => ?_⟩
      by_cases hij : j = i
      · subst hij
        simpa using hu
      · simpa [Function.update_of_ne hij] using hall j
  exact no_deadlock_of_ordered hrank hinv.2

end order

section alone

variable [DecidableEq ρ] {L : Locking σ ρ}

/-- A step of a thread that only its own locks can stop. -/
def Alone (L : Locking σ ρ) (a b : σ × Thread σ ρ) : Prop :=
  a.2.next L a.1 = some b ∧ ∀ r, a.2.wants = some r → ∀ r' ∈ a.2.held, ¬ L.conflict r r'

theorem Alone.lock {w : σ} {r : ρ} {k : Prog σ ρ} {rest : List (Prog σ ρ)} {h : List ρ}
    (hfree : ∀ r' ∈ h, ¬ L.conflict r r') :
    Alone L (w, ⟨.lock r k :: rest, h⟩) (L.grant r w, ⟨k :: rest, r :: h⟩) := by
  refine ⟨rfl, fun q hq => ?_⟩
  cases hq
  exact hfree

theorem Alone.read {w : σ} {k : σ → Prog σ ρ} {p : Prog σ ρ} {rest : List (Prog σ ρ)}
    {h : List ρ} (hp : k w = p) : Alone L (w, ⟨.read k :: rest, h⟩) (w, ⟨p :: rest, h⟩) := by
  refine ⟨?_, fun r hr => by cases hr⟩
  rw [← hp]
  rfl

theorem Alone.loop_out {w : σ} {test : σ → Bool} {body k : Prog σ ρ}
    {rest : List (Prog σ ρ)} {h : List ρ} (ht : test w = false) :
    Alone L (w, ⟨.loop test body k :: rest, h⟩) (w, ⟨k :: rest, h⟩) := by
  refine ⟨?_, fun r hr => by cases hr⟩
  simp [Thread.next, ht]

theorem Alone.loop_in {w : σ} {test : σ → Bool} {body k : Prog σ ρ}
    {rest : List (Prog σ ρ)} {h : List ρ} (ht : test w = true) :
    Alone L (w, ⟨.loop test body k :: rest, h⟩)
      (w, ⟨body :: .loop test body k :: rest, h⟩) := by
  refine ⟨?_, fun r hr => by cases hr⟩
  simp [Thread.next, ht]

theorem Alone.free {w : σ} {th : Thread σ ρ} {b : σ × Thread σ ρ} (hnext : th.next L w = some b)
    (hnone : th.wants = none) : Alone L (w, th) b := by
  refine ⟨hnext, fun r hr => ?_⟩
  rw [hnone] at hr
  cases hr

theorem Alone.lift [DecidableEq ι] {T : ι → Thread σ ρ} {i : ι}
    (hothers : ∀ j, j ≠ i → (T j).held = []) {a b : σ × Thread σ ρ}
    (h : Relation.ReflTransGen (Alone L) a b) :
    Relation.ReflTransGen (State.Step L) ⟨a.1, Function.update T i a.2⟩
      ⟨b.1, Function.update T i b.2⟩ := by
  induction h with
  | refl => exact Relation.ReflTransGen.refl
  | tail _ hstep ih =>
    rename_i b c _
    refine ih.tail ⟨i, c.1, c.2, ?_, fun j hj => ?_, ?_⟩
    · simpa using hstep.1
    · obtain ⟨r, r', hr, hr', hc⟩ := hj
      by_cases hij : j = i
      · subst hij
        simp only [Function.update_self] at hr hr'
        exact hstep.2 r hr r' hr' hc
      · simp only [Function.update_of_ne hij, hothers j hij] at hr'
        cases hr'
    · simp

end alone

end LockProgram
