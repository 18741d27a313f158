import Hoolock.Lifetime

/-!
When a bond with slaves can be left without an active one, which the transmit path
then reads through a null pointer.
-/

set_option autoImplicit false

namespace Hoolock

namespace World

/-- If the active slave is the one released and others stay, one of them is usable. -/
def ReleaseLeaves (w : World) (d : DevId) : Prop :=
  ∀ s ∈ w.bond.curr_active_slave, (w.slaves s).dev = d →
    (∃ t ∈ w.bond_for_each_slave, t ≠ s) →
    ∃ t ∈ w.bond_for_each_slave, t ≠ s ∧ w.Usable t

instance (w : World) (d : DevId) : Decidable (w.ReleaseLeaves d) := by
  unfold ReleaseLeaves
  infer_instance

/-- If the inspection is to fail the active slave or to bring the primary one back,
some slave's link can be used after it. -/
def MiimonLeaves (w : World) : Prop :=
  w.bond.kill_timers = false →
    (∃ a, w.bond.curr_active_slave = some a ∧
      Failing w.bond.params (w.check a) (w.slaves a)) ∨
    (∃ p, w.bond.primary_slave = some p ∧
      Returning w.bond.params (w.check p) (w.slaves p)) →
    ∃ t ∈ w.bond_for_each_slave,
      IS_UP (w.slave_dev t) ∧ Recovering w.bond.params (w.check t) (w.slaves t)

/-- If the active slave's traffic has timed out, some slave answers. -/
def ArpLeaves (w : World) (delta : BitVec 64) : Prop :=
  w.bond.kill_timers = false →
    (∃ a, w.bond.curr_active_slave = some a ∧ (w.slaves a).link = .up ∧
      w.arp_timed_out delta (w.slave_dev a) = true) →
    ∃ t ∈ w.bond_for_each_slave, IS_UP (w.slave_dev t) ∧ w.Answering delta t

/-- The event finds a successor for an active slave it takes away. -/
def Leaves (w : World) : Event → Prop
  | .release d => w.ReleaseLeaves d
  | .mii_monitor => w.MiimonLeaves
  | .arp_monitor delta => w.ArpLeaves delta
  | _ => True

def Manned (w : World) : Prop :=
  ∃ l, w.Inv l ∧ (l ≠ [] → w.bond.curr_active_slave ≠ none)

variable [Siblings]

omit [Siblings] in
theorem Inv.manned_of {w v : World} {l : List SlaveId} (h : w.Inv l) (hv : v.Inv l)
    (hm : w.Manned) (ha : w.bond.curr_active_slave ≠ none → v.bond.curr_active_slave ≠ none) :
    v.Manned := by
  obtain ⟨m, hi, hact⟩ := hm
  obtain rfl : l = m := h.toRing.unique hi.toRing
  exact ⟨l, hv, fun hne => ha (hact hne)⟩

theorem Manned.enslave {w v : World} {env : EnslaveEnv} {d : DevId} (hm : w.Manned)
    (hv : w.step (.enslave env d) = some v) : v.Manned := by
  obtain ⟨l, h, _⟩ := hm
  obtain ⟨m, hvi⟩ := h.step hv
  simp only [World.step] at hv
  split_ifs at hv with hcond
  cases hv
  obtain ⟨s, _, he⟩ := bond_enslave_ok h.port h.mode (Prod.ext hcond.2.2 rfl)
  refine ⟨m, hvi, fun _ => ?_⟩
  rw [he.active]
  simp

theorem Manned.release {w v : World} {d : DevId} (hm : w.Manned) (hl : w.ReleaseLeaves d)
    (hv : w.bond_release d = (0, v)) : v.Manned := by
  obtain ⟨l, h, hact⟩ := hm
  obtain ⟨s, hs, hsd, _, hres, hinv⟩ := h.release hv
  refine ⟨l.erase s, hinv, fun hne => ?_⟩
  by_cases has : w.bond.curr_active_slave = some s
  · obtain ⟨t, ht⟩ := List.exists_mem_of_ne_nil _ hne
    obtain ⟨hts, htl⟩ := h.nodup.mem_erase_iff.mp ht
    unfold ReleaseLeaves at hl
    rw [h.for_each] at hl
    obtain ⟨u, hu, hus, husable⟩ := hl s has hsd ⟨t, htl, hts⟩
    rw [Ne, hres.none has]
    exact fun hall => hall u (h.nodup.mem_erase_iff.mpr ⟨hus, hu⟩) husable
  · rw [hres.kept has]
    exact hact fun e => by simp [e] at hs

theorem change_active_some {w : World} (h : w.bond.params.mode = .hoolock) (s : SlaveId) :
    (w.bond_change_active_slave (some s)).bond.curr_active_slave ≠ none := by
  rw [change_active_bond h]
  simp

theorem make_active {w : World} (h : w.bond.params.mode = .hoolock)
    (ha : w.bond.curr_active_slave ≠ none) :
    w.bond_ioctl_make.2.bond.curr_active_slave ≠ none := by
  obtain ⟨x, hx⟩ : ∃ x, x = (w.lock .bond .read).lock .curr_slave .write := ⟨_, rfl⟩
  have hxm : x.bond.params.mode = .hoolock := by
    rw [hx]
    exact h
  have hswitch : x.switch_to_passive.bond.curr_active_slave ≠ none := by
    unfold switch_to_passive
    cases x.passive_slave with
    | none =>
      rw [hx]
      exact ha
    | some s => exact change_active_some hxm s
  rw [hx] at hswitch
  exact hswitch

theorem test_active {w : World} (h : w.bond.params.mode = .hoolock) (d : DevId)
    (ha : w.bond.curr_active_slave ≠ none) :
    (w.bond_ioctl_hoolock_change_active d).2.bond.curr_active_slave ≠ none := by
  unfold bond_ioctl_hoolock_change_active
  dsimp only
  split
  · rename_i s _
    exact change_active_some (w := (w.lock .bond .read).lock .curr_slave .write) h s
  · exact ha

theorem ioctl_change_active_active {w : World} (h : w.bond.params.mode = .hoolock) (d : DevId)
    (ha : w.bond.curr_active_slave ≠ none) :
    (w.bond_ioctl_change_active d).2.bond.curr_active_slave ≠ none := by
  unfold bond_ioctl_change_active
  dsimp only
  split_ifs
  · exact ha
  · exact ha
  · split
    · exact ha
    · rename_i s _
      split_ifs
      · exact ha
      · exact change_active_some (w := (((w.lock .bond .read).lock .curr_slave .read).unlock
          .curr_slave .read).lock .curr_slave .write) h s
      · exact ha

theorem Manned.step {w v : World} {e : Event} (hm : w.Manned) (hl : w.Leaves e)
    (hv : w.step e = some v) : v.Manned := by
  obtain ⟨l, h, hact⟩ := hm
  have hm : w.Manned := ⟨l, h, hact⟩
  cases e with
  | open_bond =>
    cases hv
    exact h.manned_of h.open_bond hm fun ha => open_bond_active w ▸ ha
  | close_bond =>
    cases hv
    exact h.manned_of h.close_bond hm fun ha => close_bond_active w ▸ ha
  | enslave env d => exact hm.enslave hv
  | release d =>
    simp only [World.step] at hv
    split_ifs at hv with hret
    cases hv
    exact hm.release hl (Prod.ext hret rfl)
  | release_all =>
    cases hv
    exact ⟨[], h.release_all.1, fun hne => absurd rfl hne⟩
  | make =>
    cases hv
    exact h.manned_of h.make hm (make_active h.mode)
  | brk env =>
    obtain ⟨⟨r, x⟩, hr, rfl⟩ := Option.map_eq_some_iff.mp hv
    refine h.manned_of (h.brk hr) hm fun ha => ?_
    rw [break_empty h.empty, Option.some.injEq, Prod.mk.injEq] at hr
    rw [← hr.2]
    exact ha
  | change_active d =>
    cases hv
    exact h.manned_of (h.ioctl_change_active d) hm (ioctl_change_active_active h.mode d)
  | test d =>
    cases hv
    exact h.manned_of (h.test d) hm (test_active h.mode d)
  | arrive env skb =>
    simp only [World.step] at hv
    split_ifs at hv
    cases hv
    have ht := receive_sansTraffic w env skb
    exact h.manned_of (h.of_sansTraffic ht) hm fun ha => active_of_sansTraffic ht ▸ ha
  | xmit env =>
    obtain ⟨⟨r, x⟩, hr, rfl⟩ := Option.map_eq_some_iff.mp hv
    have ht := xmit_sansTraffic hr
    exact h.manned_of (h.of_sansTraffic ht) hm fun ha => active_of_sansTraffic ht ▸ ha
  | mii_monitor =>
    simp only [World.step] at hv
    split_ifs at hv
    cases hv
    refine h.manned_of h.mii_monitor hm fun ha => h.mii_monitor_active ha ?_
    simpa only [Leaves, MiimonLeaves, h.for_each] using hl
  | arp_monitor delta =>
    simp only [World.step] at hv
    split_ifs at hv
    cases hv
    refine h.manned_of (h.arp_mon delta) hm fun ha => h.arp_mon_active delta ha ?_
    simpa only [Leaves, ArpLeaves, h.for_each] using hl
  | device d r =>
    simp only [World.step] at hv
    split_ifs at hv
    cases hv
    exact h.manned_of (h.device d r) hm id
  | address ip =>
    cases hv
    exact h.manned_of (h.congr_pointers rfl rfl) hm id
  | tick j =>
    cases hv
    exact h.manned_of (h.congr_pointers rfl rfl) hm id
  | destroy =>
    cases hv
    exact ⟨[], h.destroy.1, fun hne => absurd rfl hne⟩
  | free_all =>
    cases hv
    exact ⟨[], h.free_all.1, fun hne => absurd rfl hne⟩

omit [Siblings] in
theorem Manned.active {w : World} (h : w.Manned) (hc : 0 < w.bond.slave_cnt) :
    w.bond.curr_active_slave ≠ none := by
  obtain ⟨l, hi, hact⟩ := h
  refine hact ?_
  rintro rfl
  rw [hi.count] at hc
  simp at hc

omit [Siblings] in
theorem Manned.xmit {w : World} (h : w.Manned) (env : TagEnv) :
    w.bond_xmit_hoolock env ≠ none := by
  unfold bond_xmit_hoolock
  dsimp only
  split
  · simp
  · rename_i hok
    have hok : (w.lock .bond .read).BOND_IS_OK = true := by
      simpa using hok
    unfold BOND_IS_OK at hok
    have hpos : 0 < (w.lock .bond .read).bond.slave_cnt :=
      of_decide_eq_true (Bool.and_eq_true_iff.mp hok).2
    obtain ⟨s, hs⟩ := Option.ne_none_iff_exists'.mp (h.active hpos)
    have hs : (w.lock .bond .read).bond.curr_active_slave = some s := hs
    rw [hs]
    dsimp only
    split <;> simp

/-- While every release and every monitor run leaves a usable slave behind, a bond with
slaves has an active one, and neither sending nor BREAK reads a null pointer. -/
theorem Host.active_never_null {w v : World} {bond_dev : DevId} (h : w.Host bond_dev)
    {params : Params} (hm : params.mode = .hoolock) {es : List Event}
    (hl : Transition.Along Leaves World.step (w.bond_init bond_dev params) es)
    (hv : Transition.run World.step (w.bond_init bond_dev params) es = some v) :
    (0 < v.bond.slave_cnt → v.bond.curr_active_slave ≠ none) ∧
    (∀ env, v.bond_xmit_hoolock env ≠ none) ∧ ∀ env, v.bond_ioctl_break env ≠ none := by
  have hinit : (w.bond_init bond_dev params).Manned :=
    ⟨[], h.inv hm, fun hne => absurd rfl hne⟩
  have hend : v.Manned := Transition.run_invariant_along (C := Leaves) Manned
    (fun _ _ _ hi hc hs => hi.step hc hs) hv hl hinit
  obtain ⟨l, hi, _⟩ := id hend
  refine ⟨hend.active, hend.xmit, fun env => ?_⟩
  rw [break_empty hi.empty]
  simp

end World

/-- With carrier on both cards the active one may go. -/
theorem release_with_carrier_is_manned :
    ∃ v, Transition.run (@World.step noSiblings) bond0 (two_slaves ++ [.release 1]) = some v ∧
      (0 < v.bond.slave_cnt → v.bond.curr_active_slave ≠ none) ∧
      (∀ env, v.bond_xmit_hoolock env ≠ none) ∧ ∀ env, v.bond_ioctl_break env ≠ none := by
  have hlast : (Transition.run (@World.step noSiblings) bond0 two_slaves).all
      (fun t => decide (t.ReleaseLeaves 1)) = true := by
    decide +kernel
  have hl : Transition.Along World.Leaves (@World.step noSiblings) bond0
      (two_slaves ++ [.release 1]) := by
    refine Transition.along_concat ?_ fun t ht => ?_
    · exact ⟨trivial, fun _ _ => ⟨trivial, fun _ _ => ⟨trivial, fun _ _ => trivial⟩⟩⟩
    · rw [ht] at hlast
      have hleaves : t.ReleaseLeaves 1 := of_decide_eq_true hlast
      exact hleaves
  have hrun : (Transition.run (@World.step noSiblings) bond0
      (two_slaves ++ [.release 1])).isSome = true := by
    decide +kernel
  obtain ⟨v, hv⟩ := Option.isSome_iff_exists.mp hrun
  exact ⟨v, hv, @World.Host.active_never_null noSiblings machine v 0 machine_host hoolock_params
    rfl _ hl hv⟩

/-- Without carrier on the card that stays, the release leaves no active slave and the
next frame reads a null pointer. -/
theorem release_without_carrier_oopses :
    ∃ v, Transition.run (@World.step noSiblings) bond0
        ([.device 1 .no_carrier, .device 2 .no_carrier] ++ two_slaves ++ [.release 1]) = some v ∧
      v.BOND_IS_OK = true ∧ v.bond.curr_active_slave = none ∧
      v.bond_xmit_hoolock ⟨false, false⟩ = none := by
  have hrun : (Transition.run (@World.step noSiblings) bond0
      ([.device 1 .no_carrier, .device 2 .no_carrier] ++ two_slaves ++ [.release 1])).any
      (fun v => v.BOND_IS_OK && v.bond.curr_active_slave.isNone &&
        (v.bond_xmit_hoolock ⟨false, false⟩).isNone) = true := by
    decide +kernel
  obtain ⟨v, hv, hp⟩ := (Option.any_eq_true _ _).mp hrun
  simp only [Bool.and_eq_true, Option.isNone_iff_eq_none] at hp
  exact ⟨v, hv, hp.1.1, hp.1.2, hp.2⟩

end Hoolock
