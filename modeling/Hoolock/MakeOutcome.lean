import Hoolock.Queries

/-!
What MAKE reports against what it does: it never fails, and the slave that it takes may not
be able to send.
-/

set_option autoImplicit false

namespace Hoolock

namespace World

/-- The test a slave passes before `bond_xmit_hoolock` gives it a frame. -/
def transmits (w : World) (s : SlaveId) : Prop :=
  IS_UP (w.slave_dev s) ∧ (w.slaves s).link = .up ∧ (w.slaves s).state = .active

instance (w : World) (s : SlaveId) : Decidable (w.transmits s) := by
  unfold transmits
  infer_instance

theorem xmit_active {w : World} {s : SlaveId} (hok : w.BOND_IS_OK = true)
    (ha : w.bond.curr_active_slave = some s) (env : TagEnv) :
    (w.bond_xmit_hoolock env).map Prod.fst = some (if w.transmits s then
      (w.bond_dev_queue_xmit env (w.slaves s).dev).2 else .freed) := by
  have hlock : (w.lock .bond .read).BOND_IS_OK = true := hok
  have hact : (w.lock .bond .read).bond.curr_active_slave = some s := ha
  unfold bond_xmit_hoolock
  dsimp only
  rw [hlock, hact]
  simp only [Bool.not_true, Bool.false_eq_true, if_false]
  by_cases ht : w.transmits s
  · have hsends : IS_UP ((w.lock .bond .read).slave_dev s) = true ∧
        ((w.lock .bond .read).slaves s).link = .up ∧
        ((w.lock .bond .read).slaves s).state = .active := ht
    rw [if_pos hsends, if_pos ht]
    rfl
  · have hsends : ¬ (IS_UP ((w.lock .bond .read).slave_dev s) = true ∧
        ((w.lock .bond .read).slaves s).link = .up ∧
        ((w.lock .bond .read).slaves s).state = .active) := ht
    rw [if_neg hsends, if_neg ht]
    rfl

/-- The call that led from `w` to `r` succeeded with another slave that sends, or failed and
left the bond as it was. -/
def AllOrNothing (w : World) (r : Int × World) : Prop :=
  (r.1 = 0 ∧ r.2.bond.buffer_mode = 1 ∧ ∃ s, r.2.bond.curr_active_slave = some s ∧
    w.bond.curr_active_slave ≠ some s ∧ r.2.transmits s) ∨
  (r.1 ≠ 0 ∧ r.2.bond.curr_active_slave = w.bond.curr_active_slave ∧
    r.2.bond.buffer_mode = w.bond.buffer_mode)

variable [Siblings]

theorem make_returns (w : World) : w.bond_ioctl_make.1 = 0 := rfl

/-- In HOOLOCK mode a slave that MAKE installs sends if it is up and its link is UP or counts
as UP from now on. -/
theorem make_transmits {w : World} (h : w.bond.params.mode = .hoolock) {s : SlaveId}
    (hp : w.passive_slave = some s) (hne : w.bond.curr_active_slave ≠ some s) :
    w.bond_ioctl_make.2.transmits s ↔ IS_UP (w.slave_dev s) ∧
      ((w.slaves s).link = .up ∨ (w.slaves s).link = .back) ∧ (w.slaves s).state = .active := by
  have hbegun : w.make_begun.bond.params.mode = .hoolock := h
  have hslave : (w.make_begun.bond_change_active_slave (some s)).slaves s = promoted (w.slaves s) := by
    have hs := change_active_slaves hbegun (some s) s
    rw [if_pos ⟨rfl, hne⟩] at hs
    exact hs
  have hdev : (promoted (w.slaves s)).dev = (w.slaves s).dev := by
    unfold promoted
    split_ifs <;> rfl
  have hup : IS_UP ((w.make_begun.bond_change_active_slave (some s)).slave_dev s) =
      IS_UP (w.slave_dev s) := by
    have hd := (change_active_devs hbegun (some s)).is_up (w.slaves s).dev
    unfold slave_dev
    rw [hslave, hdev, hd]
    rfl
  have hmade : (w.make_begun.bond_change_active_slave (some s)).make_done.transmits s ↔
      (w.make_begun.bond_change_active_slave (some s)).transmits s := Iff.rfl
  rw [make_some hp, hmade]
  unfold transmits
  rw [hup, hslave]
  refine and_congr_right fun _ => ?_
  unfold promoted
  cases hlink : (w.slaves s).link with
  | up => simp [hlink]
  | fail => simp [hlink]
  | down => simp [hlink]
  | back => simp

/-- MAKE is all or nothing just where the first other slave on the ring is up, ACTIVE, and
its link UP or BACK. -/
theorem make_all_or_nothing_iff {w : World} {l : List SlaveId} (h : w.Ring l)
    (hm : w.bond.params.mode = .hoolock) :
    AllOrNothing w w.bond_ioctl_make ↔
      ∃ s, l.find? (fun t => some t != w.bond.curr_active_slave) = some s ∧
        IS_UP (w.slave_dev s) ∧ ((w.slaves s).link = .up ∨ (w.slaves s).link = .back) ∧
        (w.slaves s).state = .active := by
  have hfind : w.passive_slave = l.find? fun t => some t != w.bond.curr_active_slave := by
    unfold passive_slave
    rw [h.for_each]
  have hbuffer : w.bond_ioctl_make.2.bond.buffer_mode = 1 :=
    congrArg Core.buffer_mode (core_make w)
  have hs : w.SwitchesAs := fun hmode => by simp [hm] at hmode
  rw [← hfind]
  cases hp : w.passive_slave with
  | none =>
    have hact : w.bond_ioctl_make.2.bond.curr_active_slave = w.bond.curr_active_slave := by
      rw [make_none hp]
      rfl
    refine iff_of_false ?_ ?_
    · rintro (⟨_, _, s, hnew, hold, _⟩ | ⟨hret, _⟩)
      · exact hold (hact ▸ hnew)
      · exact hret w.make_returns
    · rintro ⟨s, hs, _⟩
      cases hs
  | some s =>
    have hne := (h.passive_some hp).2
    have hact := (make_switches h hs).2.2.2 s hp
    have hsend := make_transmits hm hp hne
    constructor
    · rintro (⟨_, _, t, hnew, _, ht⟩ | ⟨hret, _⟩)
      · rw [hact, Option.some.injEq] at hnew
        subst hnew
        exact ⟨s, rfl, hsend.mp ht⟩
      · exact absurd w.make_returns hret
    · rintro ⟨t, ht, hcond⟩
      rw [Option.some.injEq] at ht
      subst ht
      exact Or.inl ⟨w.make_returns, hbuffer, s, hact, hne, hsend.mpr hcond⟩

end World

/-- MAKE reports success with the only other card gone: the active slave cannot send. -/
theorem make_takes_dead_card :
    ∃ w, Transition.run (@World.step noSiblings) bond0
        (two_slaves ++ [.device 2 .no_carrier, .mii_monitor]) = some w ∧
      w.bond.curr_active_slave = some 0 ∧ w.transmits 0 ∧
      (@World.bond_ioctl_make noSiblings w).1 = 0 ∧
      (@World.bond_ioctl_make noSiblings w).2.bond.curr_active_slave = some 1 ∧
      ¬ (@World.bond_ioctl_make noSiblings w).2.transmits 1 ∧
      ¬ World.AllOrNothing w (@World.bond_ioctl_make noSiblings w) := by
  have hrun : (Transition.run (@World.step noSiblings) bond0
      (two_slaves ++ [.device 2 .no_carrier, .mii_monitor])).any (fun w =>
        w.bond.curr_active_slave == some 0 && decide (w.transmits 0) &&
        (@World.bond_ioctl_make noSiblings w).2.bond.curr_active_slave == some 1 &&
        !decide ((@World.bond_ioctl_make noSiblings w).2.transmits 1)) = true := by
    decide +kernel
  obtain ⟨w, hw, hcond⟩ := (Option.any_eq_true _ _).mp hrun
  simp only [Bool.and_eq_true, beq_iff_eq, decide_eq_true_eq, Bool.not_eq_true',
    decide_eq_false_iff_not] at hcond
  obtain ⟨⟨⟨hact, hsends⟩, hnew⟩, hdead⟩ := hcond
  refine ⟨w, hw, hact, hsends, rfl, hnew, hdead, ?_⟩
  rintro (⟨_, _, s, hs, _, ht⟩ | ⟨hret, _⟩)
  · rw [hnew, Option.some.injEq] at hs
    exact hdead (hs ▸ ht)
  · exact hret rfl

theorem two_cards_all_or_nothing :
    ∃ w, Transition.run (@World.step noSiblings) bond0 two_slaves = some w ∧
      World.AllOrNothing w (@World.bond_ioctl_make noSiblings w) := by
  have hrun : (Transition.run (@World.step noSiblings) bond0 two_slaves).any (fun w =>
      w.bond_for_each_slave.find? (fun t => some t != w.bond.curr_active_slave) == some 1 &&
        IS_UP (w.slave_dev 1) && (w.slaves 1).link == .up && (w.slaves 1).state == .active) = true := by
    decide +kernel
  obtain ⟨w, hw, hcond⟩ := (Option.any_eq_true _ _).mp hrun
  simp only [Bool.and_eq_true, beq_iff_eq] at hcond
  obtain ⟨⟨⟨hfind, hup⟩, hlink⟩, hstate⟩ := hcond
  obtain ⟨l, hi⟩ := @World.Host.run_inv noSiblings machine w 0 machine_host hoolock_params rfl _ hw
  rw [hi.for_each] at hfind
  exact ⟨w, hw, (@World.make_all_or_nothing_iff noSiblings w l hi.toRing hi.mode).mpr
    ⟨1, hfind, hup, Or.inl hlink, hstate⟩⟩

end Hoolock
