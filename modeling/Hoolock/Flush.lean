import Hoolock.Lifetime
import Hoolock.References

/-!
BREAK empties the queue.  What the handlers do on the way up is left open: they may take
packets, hand on others and change anything but the bond, and the bond's own handler may be
called any number of times.
-/

set_option autoImplicit false

namespace Hoolock

namespace World

/-- From the one state to the other no handover begins: the bond's handler is called, with
any test that asks for `buffer_mode`, and things outside the bond change. -/
inductive Passes : World → World → Prop
  | refl (w : World) : Passes w w
  | recv {w v : World} (test : World → Bool) (skb : Skb)
      (ht : ∀ x : World, test x = true → x.bond.buffer_mode ≠ 0) (h : Passes w v) :
      Passes w (v.bond_hoolock_recv_on test skb).2
  | other {w v x : World} (hb : x.bond = v.bond) (hs : x.slaves = v.slaves) (h : Passes w v) :
      Passes w x

theorem recv_on_quiet {test : World → Bool}
    (ht : ∀ x : World, test x = true → x.bond.buffer_mode ≠ 0) {w : World} (skb : Skb)
    (h : w.bond.buffer_mode = 0) :
    (w.bond_hoolock_recv_on test skb).2.sansTraffic = w.sansTraffic := by
  have hoff : test (((((w.lock .bond .read).unlock .bond .read).lock .bond .read)).lock
      .curr_slave .read) = false := by
    rw [← Bool.not_eq_true]
    intro htrue
    exact ht _ htrue h
  unfold bond_hoolock_recv_on
  simp only [hoff, Bool.false_eq_true, if_false]
  split_ifs
  · simp
  · simp

theorem Passes.quiet {w v : World} (h : w.Passes v) (hmode : w.bond.buffer_mode = 0) :
    v.bond = w.bond ∧ v.slaves = w.slaves := by
  induction h with
  | refl => exact ⟨rfl, rfl⟩
  | @recv v test skb ht _ ih =>
    have hv : v.bond.buffer_mode = 0 := by rw [ih.1, hmode]
    have hr := recv_on_quiet ht skb hv
    have hbond : (v.bond_hoolock_recv_on test skb).2.sansTraffic.bond = v.sansTraffic.bond :=
      congrArg World.bond hr
    have hslaves : (v.bond_hoolock_recv_on test skb).2.sansTraffic.slaves = v.sansTraffic.slaves :=
      congrArg World.slaves hr
    exact ⟨hbond.trans ih.1, hslaves.trans ih.2⟩
  | other hb hs _ ih => exact ⟨hb.trans ih.1, hs.trans ih.2⟩

theorem closed_passes (w : World) : Closed bond_hoolock_recv (Passes w) where
  recv v skb d h := by
    have htest : ∀ x : World, x.buffer_test d = true → x.bond.buffer_mode ≠ 0 := by
      intro x hx
      simp at hx
    exact h.recv _ skb htest
  users v _ h := Passes.other (v := v) rfl rfl h
  note v _ h := Passes.other (v := v) rfl rfl h

/-- `netif_receive_skb` for the packet that was `pb` in the queue. -/
abbrev Receive := Skb → World → Skb → Int × World

def receive_up (env : Skb → PassEnv) : Receive := fun pb w skb =>
  w.netif_receive_skb bond_hoolock_recv (env pb) skb

theorem receive_up_passes (env : Skb → PassEnv) (pb : Skb) (w : World) (skb : Skb) :
    w.Passes (receive_up env pb w skb).2 :=
  (closed_passes w).netif_receive_skb (env pb) skb (Passes.refl w)

/-- The loop of `bond_ioctl_break` over any receive path; `none` as for `break_loop`. -/
def drain (receive : Receive) : Nat → Int → World → Option (Int × World)
  | 0, ret, w => if w.bond.pbuff = [] then some (ret, w) else none
  | n + 1, ret, w =>
    match w.bond.pbuff with
    | [] => some (ret, w)
    | pb :: _ =>
      let w := w.skb_dequeue
      match w.bond.curr_active_slave with
      | none => none
      | some slave =>
        let (ret, w) := receive pb w { pb with dev := (w.slaves slave).dev }
        drain receive n ret w

theorem break_loop_eq_drain (env : Skb → PassEnv) (n : Nat) (ret : Int) (w : World) :
    break_loop bond_hoolock_recv env n ret w = drain (receive_up env) n ret w := by
  induction n generalizing ret w with
  | zero => rfl
  | succ n ih =>
    unfold break_loop drain
    cases w.bond.pbuff with
    | nil => rfl
    | cons pb rest =>
      dsimp only
      cases w.skb_dequeue.bond.curr_active_slave with
      | none => rfl
      | some s => exact ih _ _

def break_begun (w : World) : World :=
  (((w.lock .pbuff .write).lock .bond .read).lock .curr_slave .write).setBond fun b =>
    { b with buffer_mode := 0 }

def break_done (w : World) : World :=
  ((w.unlock .curr_slave .write).unlock .bond .read).unlock .pbuff .write

/-- `bond_ioctl_break` over any receive path. -/
def break_over (receive : Receive) (w : World) : Option (Int × World) :=
  (drain receive w.break_begun.bond.pbuff.length 0 w.break_begun).map fun r =>
    (r.1, r.2.break_done)

theorem bond_ioctl_break_eq (env : Skb → PassEnv) (w : World) :
    w.bond_ioctl_break env = w.break_over (receive_up env) := by
  unfold bond_ioctl_break break_over
  dsimp only
  rw [break_loop_eq_drain]
  unfold break_begun
  cases drain (receive_up env) _ 0 _ with
  | none => rfl
  | some r => rfl

/-- One turn: the head leaves the queue and goes up as a packet of the device `d`. -/
def turn (receive : Receive) (d : DevId) (r : Int × World) (pb : Skb) : Int × World :=
  receive pb r.2.skb_dequeue { pb with dev := d }

/-- However many turns are allowed beyond one a packet, the loop takes one a packet. -/
theorem drain_turns {receive : Receive} (hr : ∀ pb v skb, Passes v (receive pb v skb).2)
    {s : SlaveId} (q : List Skb) (k : Nat) {w : World} (hmode : w.bond.buffer_mode = 0)
    (ha : w.bond.curr_active_slave = some s) (hq : w.bond.pbuff = q) (ret : Int) :
    drain receive (q.length + k) ret w = some (q.foldl (turn receive (w.slaves s).dev) (ret, w)) ∧
      (q.foldl (turn receive (w.slaves s).dev) (ret, w)).2.bond = { w.bond with pbuff := [] } ∧
      (q.foldl (turn receive (w.slaves s).dev) (ret, w)).2.slaves = w.slaves := by
  induction q generalizing w ret with
  | nil =>
    refine ⟨?_, ?_, rfl⟩
    · cases k with
      | zero => simp [drain, hq]
      | succ k =>
        rw [List.length_nil, Nat.zero_add]
        unfold drain
        rw [hq]
        rfl
    · rw [List.foldl_nil, ← hq]
  | cons pb rest ih =>
    have hturn := (hr pb w.skb_dequeue { pb with dev := (w.slaves s).dev }).quiet hmode
    obtain ⟨y, hy⟩ : ∃ y, y = turn receive (w.slaves s).dev (ret, w) pb := ⟨_, rfl⟩
    have hybond : y.2.bond = { w.bond with pbuff := w.bond.pbuff.tail } := by
      rw [hy]
      exact hturn.1
    have hyslaves : y.2.slaves = w.slaves := by
      rw [hy]
      exact hturn.2
    have hyq : y.2.bond.pbuff = rest := by rw [hybond, hq, List.tail_cons]
    have hstep := ih (w := y.2) (by rw [hybond]; exact hmode) (by rw [hybond]; exact ha) hyq y.1
    rw [hyslaves] at hstep
    obtain ⟨hd, hb, hs⟩ := hstep
    rw [List.foldl_cons, ← hy]
    refine ⟨?_, ?_, hs⟩
    · rw [List.length_cons, Nat.add_right_comm]
      unfold drain
      rw [hq]
      dsimp only
      have hact : w.skb_dequeue.bond.curr_active_slave = some s := ha
      rw [hact]
      have hturn_eq : receive pb w.skb_dequeue
          { pb with dev := (w.skb_dequeue.slaves s).dev } = y := hy.symm
      dsimp only
      rw [hturn_eq]
      exact hd
    · rw [hb, hybond]

/-- The queue went up through `receive`, packet after packet, and nothing else happened. -/
structure Flushed (receive : Receive) (w : World) (s : SlaveId) (r : Int × World) : Prop where
  turns : ∃ t, t = w.bond.pbuff.foldl (turn receive (w.slaves s).dev) (0, w.break_begun) ∧
    r = (t.1, t.2.break_done)
  bond : r.2.bond = { w.bond with buffer_mode := 0, pbuff := [] }
  slaves : r.2.slaves = w.slaves

theorem break_over_flushes {receive : Receive}
    (hr : ∀ pb v skb, Passes v (receive pb v skb).2) {w : World} {s : SlaveId}
    (ha : w.bond.curr_active_slave = some s) :
    ∃ r, w.break_over receive = some r ∧ Flushed receive w s r := by
  obtain ⟨hd, hb, hs⟩ := drain_turns hr w.bond.pbuff 0 (w := w.break_begun) rfl ha rfl 0
  refine ⟨_, ?_, ⟨_, rfl, rfl⟩, hb, hs⟩
  unfold break_over
  have hlen : w.break_begun.bond.pbuff.length = w.bond.pbuff.length + 0 := rfl
  rw [hlen, hd]
  rfl

/-- BREAK with an active slave returns, and has flushed the queue: over the receive path of
`dev.c`, and over any other on which no handover begins. -/
theorem break_flushes {w : World} {s : SlaveId} (ha : w.bond.curr_active_slave = some s) :
    (∀ env, ∃ r, w.bond_ioctl_break env = some r ∧ Flushed (receive_up env) w s r) ∧
    ∀ receive, (∀ pb v skb, Passes v (receive pb v skb).2) →
      ∃ r, w.break_over receive = some r ∧ Flushed receive w s r := by
  constructor
  · intro env
    rw [bond_ioctl_break_eq]
    exact break_over_flushes (receive_up_passes env) ha
  · intro receive hr
    exact break_over_flushes hr ha

end World

theorem two_cards_flushed :
    ∃ u r, Transition.run (@World.step noSiblings) bond0 two_slaves = some u ∧
      (u.setBond fun b => { b with buffer_mode := 1, pbuff := [on_card 7 1, on_card 8 2] }).bond_ioctl_break
        (fun _ => .plain) = some r ∧ r.2.bond.pbuff = [] ∧ r.2.bond.buffer_mode = 0 := by
  have hrun : (Transition.run (@World.step noSiblings) bond0 two_slaves).any (fun u =>
      u.bond.curr_active_slave == some 0) = true := by
    decide +kernel
  obtain ⟨u, hu, hact⟩ := (Option.any_eq_true _ _).mp hrun
  rw [beq_iff_eq] at hact
  have ha : (u.setBond fun b => { b with
      buffer_mode := 1, pbuff := [on_card 7 1, on_card 8 2] }).bond.curr_active_slave = some 0 := hact
  obtain ⟨r, hr, hf⟩ := (World.break_flushes ha).1 fun _ => .plain
  refine ⟨u, r, hu, hr, ?_, ?_⟩
  · rw [hf.bond]
  · rw [hf.bond]

end Hoolock
