import Hoolock.Lifetime

/-!
The handover flag and the queue over whole runs: which events touch them, and which
slave is active while the flag is set.
-/

set_option autoImplicit false

namespace Hoolock

/-- The state of a handover: the flag, the queue, and what became of each packet. -/
structure Handover where
  buffer_mode : Int
  pbuff : List Skb
  users : Nat → Int
  trace : List Invocation

/-- Everything but MAKE, BREAK and an arriving packet. -/
def Event.quiet : Event → Bool
  | .make | .brk _ | .arrive _ _ => false
  | _ => true

def Event.aside : Event → Bool
  | .enslave _ _ | .release _ | .release_all | .change_active _ | .test _ | .xmit _
  | .mii_monitor | .arp_monitor _ | .device _ _ | .tick _ => true
  | _ => false

/-- What the last of the MAKE and BREAK calls sets the flag to. -/
def Event.latest (k : Int) : Event → Int
  | .make => 1
  | .brk _ => 0
  | _ => k

def Event.handover_call : Event → Bool
  | .make | .brk _ => true
  | _ => false

theorem latest_of_other {e : Event} (h : e.handover_call = false) (k : Int) : e.latest k = k := by
  cases e with
  | make => cases h
  | brk env => cases h
  | _ => rfl

theorem latest_eq_one_iff (es : List Event) : es.foldl Event.latest 0 = 1 ↔
    ∃ pre fs, es = pre ++ .make :: fs ∧ ∀ e ∈ fs, e.handover_call = false := by
  induction es using List.reverseRecOn with
  | nil => simp
  | append_singleton es e ih =>
    rw [List.foldl_append, List.foldl_cons, List.foldl_nil]
    by_cases hc : e.handover_call = true
    · cases e with
      | make =>
        refine ⟨fun _ => ⟨es, [], rfl, by simp⟩, fun _ => rfl⟩
      | brk env =>
        refine ⟨fun h => absurd h (by simp [Event.latest]), ?_⟩
        rintro ⟨pre, fs, hsplit, hfs⟩
        rcases List.eq_nil_or_concat fs with rfl | ⟨gs, f, rfl⟩
        · have := (List.append_inj' hsplit rfl).2
          cases this
        · have hlast : es ++ [Event.brk env] = (pre ++ .make :: gs) ++ [f] := by
            rw [hsplit]
            simp
          obtain rfl : Event.brk env = f := by
            have := (List.append_inj' hlast rfl).2
            simpa using this
          have := hfs (.brk env) (by simp)
          cases this
      | _ => cases hc
    · have hc : e.handover_call = false := by simpa using hc
      rw [latest_of_other hc, ih]
      constructor
      · rintro ⟨pre, fs, rfl, hfs⟩
        refine ⟨pre, fs ++ [e], by simp, fun f hf => ?_⟩
        rcases List.mem_append.mp hf with hf | hf
        · exact hfs f hf
        · rw [List.mem_singleton.mp hf]
          exact hc
      · rintro ⟨pre, fs, hsplit, hfs⟩
        rcases List.eq_nil_or_concat fs with rfl | ⟨gs, f, rfl⟩
        · have hlast := (List.append_inj' hsplit rfl).2
          have he : e = .make := by simpa using hlast
          rw [he] at hc
          cases hc
        · have hlast : es ++ [e] = (pre ++ .make :: gs) ++ [f] := by
            rw [hsplit]
            simp
          exact ⟨pre, gs, (List.append_inj' hlast rfl).1, fun g hg => hfs g (by simp [hg])⟩

theorem latest_zero_or_one (es : List Event) :
    es.foldl Event.latest 0 = 0 ∨ es.foldl Event.latest 0 = 1 := by
  induction es using List.reverseRecOn with
  | nil => exact Or.inl rfl
  | append_singleton es e ih =>
    rw [List.foldl_append, List.foldl_cons, List.foldl_nil]
    cases e with
    | make => exact Or.inr rfl
    | brk env => exact Or.inl rfl
    | _ => exact ih

namespace World

def handover (w : World) : Handover :=
  ⟨w.bond.buffer_mode, w.bond.pbuff, w.users, w.trace⟩

theorem handover_of_core {v w : World} (h : v.core = w.core) : v.handover = w.handover := by
  have hc := congrArg (fun c : Core => Handover.mk c.buffer_mode c.pbuff c.users c.trace) h
  exact hc

theorem open_bond_handover (w : World) : w.open_bond.handover = w.handover := by
  unfold open_bond bond_open bond_register_hoolock
  dsimp only
  split_ifs <;> rfl

theorem close_bond_handover (w : World) : w.close_bond.handover = w.handover := by
  unfold close_bond bond_close bond_unregister_hoolock
  dsimp only
  split_ifs <;> rfl

theorem core_xmit {w v : World} {env : TagEnv} {r : Sent}
    (h : w.bond_xmit_hoolock env = some (r, v)) : v.core = w.core := by
  obtain ⟨rfl, _⟩ := xmit_cases h
  simp

variable [Siblings]

theorem core_failover (w : World) : w.failover.core = w.core := by
  simp [failover]

theorem core_link_change (w : World) (s : SlaveId) (link : Link) :
    (w.link_change s link).core = w.core := by
  unfold link_change
  dsimp only
  split_ifs <;> simp

theorem core_commit (w : World) (s : SlaveId) : (w.commit s).core = w.core := by
  have hup : (w.commit_up s).core = w.core := by
    unfold commit_up
    dsimp only
    split_ifs <;> simp [core_failover, core_link_change]
  have hdown : (w.commit_down s).core = w.core := by
    unfold commit_down
    dsimp only
    split_ifs <;> simp [core_failover, core_link_change]
  unfold commit
  split
  · rfl
  · exact hup
  · exact hdown
  · rfl

theorem core_miimon_commit (w : World) : w.bond_miimon_commit.core = w.core := by
  have hloop : ∀ (r : List SlaveId) (v : World), (r.foldl commit v).core = v.core := by
    intro r
    induction r with
    | nil => exact fun _ => rfl
    | cons s rest ih => exact fun v => (ih _).trans (core_commit v s)
  unfold bond_miimon_commit
  rw [core_bond_set_carrier, hloop]

omit [Siblings] in
theorem core_miimon_inspect (w : World) : w.bond_miimon_inspect.core = w.core := by
  have hloop : ∀ (r : List SlaveId) (v : World), (r.foldl inspect v).core = v.core := by
    intro r
    induction r with
    | nil => exact fun _ => rfl
    | cons s rest ih => exact fun v => (ih _).trans (core_setSlave v s _)
  unfold bond_miimon_inspect
  exact hloop _ w

theorem core_miimon_work (w : World) : w.miimon_work.core = w.core := by
  unfold miimon_work
  dsimp only
  split_ifs
  · simp [core_miimon_commit, core_miimon_inspect]
  · exact core_miimon_inspect w

theorem core_mii_monitor (w : World) : w.bond_mii_monitor.core = w.core := by
  rw [mii_monitor_eq]
  split_ifs
  · simp
  · simp [core_miimon_work]
  · simp [core_miimon_work]

theorem core_arp_mon (delta : BitVec 64) (w : World) :
    (bond_loadbalance_arp_mon delta w).core = w.core := by
  have hturn : ∀ (v : World) (s : SlaveId), (arp_slave delta v s).core = v.core := by
    intro v s
    obtain ⟨f, _, hc⟩ := arp_slave_cases delta v s
    rw [hc, core_setSlave]
  have hloop : ∀ (r : List SlaveId) (acc : Bool × World),
      (r.foldl (arp_turn delta) acc).2.core = acc.2.core := by
    intro r
    induction r with
    | nil => exact fun _ => rfl
    | cons s rest ih => exact fun acc => (ih _).trans (hturn acc.2 s)
  rw [arp_mon_eq]
  dsimp only
  split_ifs
  · simp
  · simp [core_failover, hloop]
  · simp [hloop]

theorem step_core {w v : World} {e : Event} (ha : e.aside = true) (hv : w.step e = some v) :
    v.core = w.core := by
  cases e with
  | enslave env d =>
    simp only [World.step] at hv
    split_ifs at hv
    cases hv
    exact core_bond_enslave env w d
  | release d =>
    simp only [World.step] at hv
    split_ifs at hv
    cases hv
    exact core_bond_release w d
  | release_all =>
    cases hv
    exact core_bond_release_all w
  | change_active d =>
    cases hv
    exact core_ioctl_change_active w d
  | test d =>
    cases hv
    exact core_test w d
  | xmit env =>
    obtain ⟨⟨r, x⟩, hr, rfl⟩ := Option.map_eq_some_iff.mp hv
    exact core_xmit hr
  | mii_monitor =>
    simp only [World.step] at hv
    split_ifs at hv
    cases hv
    exact core_mii_monitor w
  | arp_monitor delta =>
    simp only [World.step] at hv
    split_ifs at hv
    cases hv
    exact core_arp_mon delta w
  | device d r =>
    simp only [World.step] at hv
    split_ifs at hv
    cases hv
    rfl
  | tick j =>
    cases hv
    rfl
  | _ => cases ha

/-- Quiet events leave the flag, the queue and all packets alone, in any state and with
any queue content. -/
theorem step_quiet {w v : World} {e : Event} (hq : e.quiet = true) (hv : w.step e = some v) :
    v.handover = w.handover := by
  have haside : e.aside = true → v.handover = w.handover :=
    fun ha => handover_of_core (step_core ha hv)
  cases e with
  | open_bond =>
    cases hv
    exact open_bond_handover w
  | close_bond =>
    cases hv
    exact close_bond_handover w
  | make => cases hq
  | brk env => cases hq
  | arrive env skb => cases hq
  | address ip =>
    cases hv
    rfl
  | destroy =>
    cases hv
    exact (handover_of_core (core_bond_release_all _)).trans (close_bond_handover w)
  | free_all =>
    cases hv
    have hkill : (((w.lock .bond .write).setBond fun b =>
        { b with kill_timers := true }).unlock .bond .write).handover = w.handover := rfl
    exact (handover_of_core (core_bond_release_all _)).trans ((close_bond_handover _).trans
      ((handover_of_core (core_bond_release_all _)).trans hkill))
  | _ => exact haside rfl

theorem run_quiet {w v : World} {es : List Event} (hq : ∀ e ∈ es, e.quiet = true)
    (hv : Transition.run World.step w es = some v) : v.handover = w.handover := by
  induction es generalizing w with
  | nil =>
    cases hv
    rfl
  | cons e es ih =>
    obtain ⟨u, hu, hrest⟩ := Transition.run_cons_some.mp hv
    have hstep := step_quiet (hq e (by simp)) hu
    exact (ih (fun f hf => hq f (by simp [hf])) hrest).trans hstep

omit [Siblings] in
theorem break_buffer_mode {w v : World} {env : Skb → PassEnv} {r : Int}
    (h : w.bond_ioctl_break env = some (r, v)) : v.bond.buffer_mode = 0 := by
  have hclosed : Closed bond_hoolock_recv fun x => x.bond.buffer_mode = 0 :=
    { recv := fun x skb d hx => by
        have hb := congrArg (fun u : World => u.bond.buffer_mode) (recv_sansTraffic x skb d)
        exact hb.trans hx
      users := fun _ _ hx => hx
      note := fun _ _ hx => hx }
  obtain ⟨u, hu, rfl⟩ := hclosed.break_ends (fun _ hy => hy) h rfl
  exact hu

theorem step_latest {w v : World} {e : Event} (hv : w.step e = some v) :
    v.bond.buffer_mode = e.latest w.bond.buffer_mode := by
  have hquiet : e.quiet = true → v.bond.buffer_mode = w.bond.buffer_mode :=
    fun hq => congrArg Handover.buffer_mode (step_quiet hq hv)
  cases e with
  | make =>
    cases hv
    exact congrArg Core.buffer_mode (core_make w)
  | brk env =>
    obtain ⟨⟨r, x⟩, hr, rfl⟩ := Option.map_eq_some_iff.mp hv
    exact break_buffer_mode hr
  | arrive env skb =>
    simp only [World.step] at hv
    split_ifs at hv
    cases hv
    have hb := congrArg (fun u : World => u.bond.buffer_mode) (receive_sansTraffic w env skb)
    exact hb
  | _ => exact hquiet rfl

theorem run_latest {w v : World} {es : List Event}
    (hv : Transition.run World.step w es = some v) :
    v.bond.buffer_mode = es.foldl Event.latest w.bond.buffer_mode := by
  induction es generalizing w with
  | nil =>
    cases hv
    rfl
  | cons e es ih =>
    obtain ⟨u, hu, hrest⟩ := Transition.run_cons_some.mp hv
    rw [ih hrest, step_latest hu, List.foldl_cons]

omit [Siblings] in
/-- The event does not take the active slave's place from it. -/
def Undisturbed (w : World) : Event → Prop
  | .release d => ∀ a, w.bond.curr_active_slave = some a → (w.slaves a).dev ≠ d
  | .release_all | .destroy | .free_all => False
  | .make | .brk _ => False
  | .change_active d | .test d =>
    ∀ a, w.bond.curr_active_slave = some a → (w.slaves a).dev = d
  | .mii_monitor => w.bond.kill_timers = false → ∀ a, w.bond.curr_active_slave = some a →
      ¬ Failing w.bond.params (w.check a) (w.slaves a) ∧
      ¬ ∃ p, w.bond.primary_slave = some p ∧
        Returning w.bond.params (w.check p) (w.slaves p)
  | .arp_monitor delta => w.bond.kill_timers = false → ∀ a, w.bond.curr_active_slave = some a →
      ¬ ((w.slaves a).link = .up ∧ w.arp_timed_out delta (w.slave_dev a) = true)
  | _ => True

theorem Inv.step_keeps_active {w v : World} {l : List SlaveId} (h : w.Inv l) {a : SlaveId}
    (ha : w.bond.curr_active_slave = some a) {e : Event} (hu : w.Undisturbed e)
    (hv : w.step e = some v) : v.bond.curr_active_slave = some a := by
  have hal := h.active a ha
  cases e with
  | open_bond =>
    cases hv
    exact (open_bond_active w).trans ha
  | close_bond =>
    cases hv
    exact (close_bond_active w).trans ha
  | enslave env d =>
    simp only [World.step] at hv
    split_ifs at hv with hcond
    cases hv
    obtain ⟨s, _, he⟩ := bond_enslave_ok h.port h.mode (Prod.ext hcond.2.2 rfl)
    rw [he.active, ha]
    rfl
  | release d =>
    simp only [World.step] at hv
    split_ifs at hv with hret
    cases hv
    obtain ⟨s, _, hsd, _, hres, _⟩ := h.release (Prod.ext hret rfl)
    have hne : w.bond.curr_active_slave ≠ some s := fun e => hu s e hsd
    rw [hres.kept hne]
    exact ha
  | release_all => exact absurd hu id
  | make => exact absurd hu id
  | brk env => exact absurd hu id
  | change_active d =>
    cases hv
    have hd : (w.slaves a).dev = d := hu a ha
    have hfind : (((w.lock .bond .read).lock .curr_slave .read).unlock .curr_slave
        .read).bond_get_slave_by_dev d = some a := hd ▸ h.get_slave hal
    unfold bond_ioctl_change_active
    dsimp only
    split_ifs
    · exact ha
    · exact ha
    · rw [hfind]
      have hold : (((w.lock .bond .read).lock .curr_slave .read).unlock .curr_slave
          .read).bond.curr_active_slave = some a := ha
      simp only [hold, if_true]
      exact ha
  | test d =>
    cases hv
    have hd : (w.slaves a).dev = d := hu a ha
    have hfind : (w.lock .bond .read).bond_get_slave_by_dev d = some a := hd ▸ h.get_slave hal
    unfold bond_ioctl_hoolock_change_active
    dsimp only
    rw [hfind]
    split
    · rename_i s hs
      have hsa : s = a := by
        have := List.find?_some hs
        simpa using this
      have hsame : ((w.lock .bond .read).lock .curr_slave .write).bond_change_active_slave
          (some s) = (w.lock .bond .read).lock .curr_slave .write := by
        unfold bond_change_active_slave
        have hold : ((w.lock .bond .read).lock .curr_slave .write).bond.curr_active_slave =
            some s := hsa ▸ ha
        simp only [hold, if_true]
      rw [hsame]
      exact ha
    · exact ha
  | arrive env skb =>
    simp only [World.step] at hv
    split_ifs at hv
    cases hv
    exact (active_of_sansTraffic (receive_sansTraffic w env skb)).trans ha
  | xmit env =>
    obtain ⟨⟨r, x⟩, hr, rfl⟩ := Option.map_eq_some_iff.mp hv
    exact (active_of_sansTraffic (xmit_sansTraffic hr)).trans ha
  | mii_monitor =>
    simp only [World.step] at hv
    split_ifs at hv
    cases hv
    exact h.mii_monitor_keep ha fun hk => hu hk a ha
  | arp_monitor delta =>
    simp only [World.step] at hv
    split_ifs at hv
    cases hv
    exact h.arp_mon_keep delta ha fun hk => hu hk a ha
  | device d r =>
    simp only [World.step] at hv
    split_ifs at hv
    cases hv
    exact ha
  | address ip =>
    cases hv
    exact ha
  | tick j =>
    cases hv
    exact ha
  | destroy => exact absurd hu id
  | free_all => exact absurd hu id

theorem run_keeps_active {w v : World} {l : List SlaveId} (h : w.Inv l) {a : SlaveId}
    (ha : w.bond.curr_active_slave = some a) {es : List Event}
    (hu : Transition.Along Undisturbed World.step w es)
    (hv : Transition.run World.step w es = some v) : v.bond.curr_active_slave = some a := by
  have hend := Transition.run_invariant_along (C := Undisturbed)
    (fun u => (∃ m, u.Inv m) ∧ u.bond.curr_active_slave = some a)
    (fun _ _ _ hi hc hs => ⟨hi.1.choose_spec.step hs,
      hi.1.choose_spec.step_keeps_active hi.2 hc hs⟩) hv hu ⟨⟨l, h⟩, ha⟩
  exact hend.2

/-- The flag is set from a MAKE to the next BREAK.  In between the slave that the MAKE
left active stays so while nothing disturbs it, and of what disturbs it nothing touches the
flag or the queue. -/
theorem Host.handover_target {w v : World} {bond_dev : DevId} (h : w.Host bond_dev)
    {params : Params} (hm : params.mode = .hoolock) {es : List Event}
    (hv : Transition.run World.step (w.bond_init bond_dev params) es = some v) :
    (v.bond.buffer_mode = 1 ↔
      ∃ pre fs, es = pre ++ .make :: fs ∧ ∀ e ∈ fs, e.handover_call = false) ∧
    (∀ pre fs u a, es = pre ++ .make :: fs →
      Transition.run World.step (w.bond_init bond_dev params) (pre ++ [.make]) = some u →
      u.bond.curr_active_slave = some a → Transition.Along Undisturbed World.step u fs →
      v.bond.curr_active_slave = some a) ∧
    ∀ e u, e.quiet = true → v.step e = some u →
      u.bond.buffer_mode = v.bond.buffer_mode ∧ u.bond.pbuff = v.bond.pbuff := by
  refine ⟨?_, ?_, ?_⟩
  · rw [run_latest hv]
    exact latest_eq_one_iff es
  · intro pre fs u a hsplit hu ha hal
    rw [hsplit, List.append_cons] at hv
    obtain ⟨u', hu', hrest⟩ := Transition.run_append_some.mp hv
    obtain rfl : u = u' := Option.some.inj (hu.symm.trans hu')
    obtain ⟨l, hi⟩ := h.run_inv hm hu
    exact run_keeps_active hi ha hal hrest
  · intro e u hq hs
    have hsame := step_quiet hq hs
    exact ⟨congrArg Handover.buffer_mode hsame, congrArg Handover.pbuff hsame⟩

/-- Closing, releasing, emptying, destroying, reopening and refilling the bond, in any
order and whatever is queued, ends no handover: the flag stays as the last MAKE or BREAK
set it, and of the queued packets none is delivered, freed or forgotten. -/
theorem teardown_keeps_handover {w v : World} {bond_dev : DevId} {params : Params}
    {es : List Event}
    (hv : Transition.run World.step (w.bond_init bond_dev params) es = some v) :
    (v.bond.buffer_mode = 1 ↔
      ∃ pre fs, es = pre ++ .make :: fs ∧ ∀ e ∈ fs, e.handover_call = false) ∧
    (v.bond.buffer_mode = 0 ∨ v.bond.buffer_mode = 1) ∧
    ∀ (q : List Skb) fs u, (∀ e ∈ fs, e.quiet = true) →
      Transition.run World.step (v.setBond fun b => { b with pbuff := q }) fs = some u →
      u.bond.buffer_mode = v.bond.buffer_mode ∧ u.bond.pbuff = q ∧ u.users = v.users ∧
        u.trace = v.trace := by
  have hlatest : v.bond.buffer_mode = es.foldl Event.latest 0 := run_latest hv
  refine ⟨?_, ?_, ?_⟩
  · rw [hlatest]
    exact latest_eq_one_iff es
  · rw [hlatest]
    exact latest_zero_or_one es
  · intro q fs u hq hs
    have hsame := run_quiet hq hs
    exact ⟨congrArg Handover.buffer_mode hsame, congrArg Handover.pbuff hsame,
      congrArg Handover.users hsame, congrArg Handover.trace hsame⟩

end World

/-- MAKE moves the bond to the second card, CHANGEACTIVE moves it back, and the flag is
still set. -/
theorem change_active_keeps_flag :
    ∃ u v, Transition.run (@World.step noSiblings) bond0 (two_slaves ++ [.make]) = some u ∧
      u.bond.curr_active_slave = some 1 ∧
      @World.step noSiblings u (.change_active 1) = some v ∧
      v.bond.curr_active_slave = some 0 ∧ v.bond.buffer_mode = 1 := by
  have hrun : (Transition.run (@World.step noSiblings) bond0 (two_slaves ++ [.make])).any
      (fun u => u.bond.curr_active_slave == some 1 &&
        (@World.step noSiblings u (.change_active 1)).any fun v =>
          v.bond.curr_active_slave == some 0 && v.bond.buffer_mode == 1) = true := by
    decide +kernel
  obtain ⟨u, hu, hp⟩ := (Option.any_eq_true _ _).mp hrun
  obtain ⟨hact, hstep⟩ := Bool.and_eq_true_iff.mp hp
  obtain ⟨v, hv, hq⟩ := (Option.any_eq_true _ _).mp hstep
  obtain ⟨hback, hflag⟩ := Bool.and_eq_true_iff.mp hq
  exact ⟨u, v, hu, eq_of_beq hact, hv, eq_of_beq hback, eq_of_beq hflag⟩

theorem make_targets_second_card :
    ∃ v, Transition.run (@World.step noSiblings) bond0 (two_slaves ++ [.make]) = some v ∧
      (v.bond.buffer_mode = 1 ↔ ∃ pre fs, two_slaves ++ [.make] = pre ++ .make :: fs ∧
        ∀ e ∈ fs, e.handover_call = false) := by
  have hrun : (Transition.run (@World.step noSiblings) bond0
      (two_slaves ++ [.make])).isSome = true := by
    decide +kernel
  obtain ⟨v, hv⟩ := Option.isSome_iff_exists.mp hrun
  exact ⟨v, hv, (@World.Host.handover_target noSiblings machine v 0 machine_host hoolock_params
    rfl _ hv).1⟩

/-- A handover that was begun survives closing, emptying and destroying the bond. -/
theorem destroy_keeps_flag :
    ∃ v, Transition.run (@World.step noSiblings) bond0
        (two_slaves ++ [.make, .close_bond, .release_all, .destroy]) = some v ∧
      v.bond.slave_cnt = 0 ∧ v.bond.buffer_mode = 1 := by
  have hrun : (Transition.run (@World.step noSiblings) bond0
      (two_slaves ++ [.make, .close_bond, .release_all, .destroy])).any
      (fun v => v.bond.slave_cnt == 0 && v.bond.buffer_mode == 1) = true := by
    decide +kernel
  obtain ⟨v, hv, hp⟩ := (Option.any_eq_true _ _).mp hrun
  obtain ⟨hcnt, hflag⟩ := Bool.and_eq_true_iff.mp hp
  exact ⟨v, hv, eq_of_beq hcnt, eq_of_beq hflag⟩

theorem teardown_on_two_cards :
    ∃ v, Transition.run (@World.step noSiblings) bond0 (two_slaves ++ [.make]) = some v ∧
      ∀ (q : List Skb) fs u, (∀ e ∈ fs, e.quiet = true) →
        Transition.run (@World.step noSiblings) (v.setBond fun b => { b with pbuff := q }) fs =
          some u →
        u.bond.buffer_mode = v.bond.buffer_mode ∧ u.bond.pbuff = q ∧ u.users = v.users ∧
          u.trace = v.trace := by
  have hrun : (Transition.run (@World.step noSiblings) bond0
      (two_slaves ++ [.make])).isSome = true := by
    decide +kernel
  obtain ⟨v, hv⟩ := Option.isSome_iff_exists.mp hrun
  exact ⟨v, hv, (@World.teardown_keeps_handover noSiblings machine v 0 hoolock_params _ hv).2.2⟩

end Hoolock
