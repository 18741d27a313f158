import Hoolock.Failover
import Hoolock.Joining
import Hoolock.Leaving

set_option autoImplicit false

namespace Hoolock

namespace World

variable [Siblings]

omit [Siblings] in
theorem Inv.open_bond {w : World} {l : List SlaveId} (h : w.Inv l) : w.open_bond.Inv l := by
  have hopen : w.bond_open.2.base = w.base ∧ w.bond_open.2.pointers = w.pointers := by
    unfold bond_open bond_register_hoolock
    dsimp only
    split_ifs <;> exact ⟨rfl, rfl⟩
  unfold World.open_bond
  split_ifs
  · exact h
  · exact h.congr_pointers ((base_setDev _ _ _ (by intro dev; rfl)).trans hopen.1) hopen.2

omit [Siblings] in
theorem Inv.close_bond {w : World} {l : List SlaveId} (h : w.Inv l) : w.close_bond.Inv l := by
  have hclose : ∀ x : World, x.bond_close.base = x.base ∧ x.bond_close.pointers = x.pointers := by
    intro x
    unfold bond_close bond_unregister_hoolock
    dsimp only
    split_ifs <;> exact ⟨rfl, rfl⟩
  unfold World.close_bond
  split_ifs
  · exact h
  · have hstop : (w.setDev w.bond.dev fun dev => { dev with running := false }).base = w.base :=
      base_setDev _ _ _ (by intro dev; rfl)
    dsimp only
    refine h.congr_pointers ((base_setDev _ _ _ (by intro dev; rfl)).trans ?_) (hclose _).2
    exact (hclose _).1.trans hstop

omit [Siblings] in
theorem Inv.device {w : World} {l : List SlaveId} (h : w.Inv l) (d : DevId) (r : Reading) :
    (w.setDev d (·.read r)).Inv l :=
  h.congr_pointers (base_setDev _ _ _ (by intro dev; rfl)) rfl

/-- A state with the traces of traffic taken out. -/
def sansTraffic (w : World) : World :=
  { w with locks := fun _ _ => 0, users := fun _ => 0, trace := [] }

omit [Siblings] in
@[simp] theorem sansTraffic_lock (w : World) (n : LockName) (m : LockMode) :
    (w.lock n m).sansTraffic = w.sansTraffic := rfl

omit [Siblings] in
@[simp] theorem sansTraffic_unlock (w : World) (n : LockName) (m : LockMode) :
    (w.unlock n m).sansTraffic = w.sansTraffic := rfl

omit [Siblings] in
@[simp] theorem sansTraffic_kfree_skb (w : World) (skb : Skb) :
    (w.kfree_skb skb).sansTraffic = w.sansTraffic := rfl

omit [Siblings] in
/-- The bond's handler moves references and locks, and queues nothing. -/
theorem recv_sansTraffic (w : World) (skb : Skb) (d : DevId) :
    (w.bond_hoolock_recv skb d).2.sansTraffic = w.sansTraffic := by
  rw [bond_hoolock_recv_eq]
  unfold bond_hoolock_recv_on
  simp only [Bool.false_eq_true, if_false]
  split_ifs <;> simp

omit [Siblings] in
theorem closed_sansTraffic (v : World) :
    Closed bond_hoolock_recv fun w => w.sansTraffic = v where
  recv w skb d h := (recv_sansTraffic w skb d).trans h
  users _ _ h := h
  note _ _ h := h

omit [Siblings] in
theorem Inv.of_sansTraffic {v w : World} {l : List SlaveId} (h : w.Inv l)
    (hv : v.sansTraffic = w.sansTraffic) : v.Inv l := by
  have hb : v.sansTraffic.base = w.sansTraffic.base := congrArg base hv
  have hp : v.sansTraffic.pointers = w.sansTraffic.pointers := congrArg pointers hv
  exact h.congr_pointers hb hp

omit [Siblings] in
theorem receive_sansTraffic (w : World) (env : PassEnv) (skb : Skb) :
    (w.receive env skb).sansTraffic = w.sansTraffic := by
  unfold receive
  exact (closed_sansTraffic w.sansTraffic).netif_receive_skb env skb rfl

omit [Siblings] in
theorem xmit_sansTraffic {w v : World} {env : TagEnv} {r : Sent}
    (h : w.bond_xmit_hoolock env = some (r, v)) : v.sansTraffic = w.sansTraffic := by
  obtain ⟨rfl, _⟩ := xmit_cases h
  rfl

omit [Siblings] in
theorem Inv.passive_slave {w : World} {l : List SlaveId} (h : w.Inv l) {s : SlaveId}
    (hs : w.passive_slave = some s) : s ∈ l := by
  unfold World.passive_slave at hs
  rw [h.for_each] at hs
  exact List.mem_of_find?_eq_some hs

theorem Inv.change_active {w : World} {l : List SlaveId} (h : w.Inv l) {s : SlaveId}
    (hs : s ∈ l) : (w.bond_change_active_slave (some s)).Inv l := by
  have hb := change_active_bond h.mode (some s)
  refine h.congr (base_of (core_change_active _ _) (shape_change_active _ _)
    (change_active_owners h.mode _)) (fun t ht => ?_) fun t ht => ?_
  · rw [hb] at ht
    cases ht
    exact hs
  · rw [hb] at ht
    exact h.primary t ht

theorem Inv.switch {w : World} {l : List SlaveId} (h : w.Inv l) : w.switch_to_passive.Inv l := by
  unfold switch_to_passive
  split
  · rename_i s hs
    exact h.change_active (h.passive_slave hs)
  · exact h

theorem Inv.make {w : World} {l : List SlaveId} (h : w.Inv l) : w.bond_ioctl_make.2.Inv l := by
  have hlock := (h.lock .bond .read).lock .curr_slave .write
  exact ((hlock.switch.buffer 1).unlock .curr_slave .write).unlock .bond .read

theorem Inv.test {w : World} {l : List SlaveId} (h : w.Inv l) (d : DevId) :
    (w.bond_ioctl_hoolock_change_active d).2.Inv l := by
  obtain ⟨x, hx⟩ : ∃ x, x = (w.lock .bond .read).lock .curr_slave .write := ⟨_, rfl⟩
  have hxi : x.Inv l := by
    rw [hx]
    exact (h.lock .bond .read).lock .curr_slave .write
  unfold bond_ioctl_hoolock_change_active
  dsimp only
  rw [← hx, hxi.for_each]
  split
  · rename_i s hs
    have hv := hxi.change_active (List.mem_of_find?_eq_some hs)
    exact (hv.unlock .curr_slave .write).unlock .bond .read
  · exact (hxi.unlock .curr_slave .write).unlock .bond .read

theorem Inv.ioctl_change_active {w : World} {l : List SlaveId} (h : w.Inv l) (d : DevId) :
    (w.bond_ioctl_change_active d).2.Inv l := by
  unfold bond_ioctl_change_active
  dsimp only
  split_ifs with hmode hmaster
  · exact h
  · exact h
  · have hm : (w.devs d).master = some w.bond.dev := not_not.mp (not_or.mp hmaster).2
    obtain ⟨s, hs, hsd⟩ := h.enslaved d hm
    have hx := ((h.lock .bond .read).lock .curr_slave .read).unlock .curr_slave .read
    have hfind : (((w.lock .bond .read).lock .curr_slave .read).unlock .curr_slave
        .read).bond_get_slave_by_dev d = some s := hsd ▸ hx.get_slave hs
    rw [hfind]
    dsimp only
    split_ifs
    · exact hx.unlock .bond .read
    · have hy := (hx.lock .curr_slave .write).change_active hs
      exact (hy.unlock .curr_slave .write).unlock .bond .read
    · exact hx.unlock .bond .read

omit [Siblings] in
theorem break_empty {w : World} (h : w.bond.pbuff = []) (env : Skb → PassEnv) :
    w.bond_ioctl_break env = some (0, ((((((w.lock .pbuff .write).lock .bond .read).lock
      .curr_slave .write).setBond fun b => { b with buffer_mode := 0 }).unlock .curr_slave
        .write).unlock .bond .read).unlock .pbuff .write) := by
  have hq : ((((w.lock .pbuff .write).lock .bond .read).lock .curr_slave .write).setBond fun b =>
      { b with buffer_mode := 0 }).bond.pbuff = [] := h
  unfold bond_ioctl_break
  dsimp only
  rw [hq]
  simp only [List.length_nil, break_loop, hq, if_true]

omit [Siblings] in
theorem Inv.brk {w v : World} {l : List SlaveId} (h : w.Inv l) {env : Skb → PassEnv} {r : Int}
    (hv : w.bond_ioctl_break env = some (r, v)) : v.Inv l := by
  rw [break_empty h.empty, Option.some.injEq, Prod.mk.injEq] at hv
  obtain ⟨_, rfl⟩ := hv
  have hlock := ((h.lock .pbuff .write).lock .bond .read).lock .curr_slave .write
  exact (((hlock.buffer 0).unlock .curr_slave .write).unlock .bond .read).unlock .pbuff .write

omit [Siblings] in
theorem active_of_sansTraffic {v w : World} (h : v.sansTraffic = w.sansTraffic) :
    v.bond.curr_active_slave = w.bond.curr_active_slave := by
  have hb : v.sansTraffic.bond = w.sansTraffic.bond := congrArg World.bond h
  exact congrArg Bonding.curr_active_slave hb

omit [Siblings] in
theorem open_bond_active (w : World) :
    w.open_bond.bond.curr_active_slave = w.bond.curr_active_slave := by
  unfold open_bond bond_open bond_register_hoolock
  dsimp only
  split_ifs <;> rfl

omit [Siblings] in
theorem close_bond_active (w : World) :
    w.close_bond.bond.curr_active_slave = w.bond.curr_active_slave := by
  unfold close_bond bond_close bond_unregister_hoolock
  dsimp only
  split_ifs <;> rfl

theorem Inv.destroy {w : World} {l : List SlaveId} (h : w.Inv l) :
    w.bond_destroy.Inv [] ∧ w.bond_destroy.bond.curr_active_slave = none :=
  h.close_bond.release_all

theorem Inv.free_all {w : World} {l : List SlaveId} (h : w.Inv l) :
    w.bond_free_all.Inv [] ∧ w.bond_free_all.bond.curr_active_slave = none := by
  have hkill : ((w.lock .bond .write).setBond fun b => { b with kill_timers := true }).Inv l :=
    (h.lock .bond .write).congr_pointers rfl rfl
  exact (hkill.unlock .bond .write).release_all.1.destroy

theorem Inv.step {w v : World} {l : List SlaveId} (h : w.Inv l) {e : Event}
    (hv : w.step e = some v) : ∃ m, v.Inv m := by
  cases e with
  | open_bond =>
    cases hv
    exact ⟨l, h.open_bond⟩
  | close_bond =>
    cases hv
    exact ⟨l, h.close_bond⟩
  | enslave env d =>
    simp only [World.step] at hv
    split_ifs at hv with hcond
    obtain ⟨hd, hfresh, hret⟩ := hcond
    cases hv
    obtain ⟨s, hs, he⟩ := bond_enslave_ok h.port h.mode (Prod.ext hret rfl)
    have hlive : w.live s = false := by
      rw [hs] at hfresh
      simpa using hfresh
    exact ⟨l ++ [s], h.after_enslave hlive hd he (core_bond_enslave env w d)⟩
  | release d =>
    simp only [World.step] at hv
    split_ifs at hv with hret
    cases hv
    obtain ⟨s, _, _, _, _, hinv⟩ := h.release (Prod.ext hret rfl)
    exact ⟨l.erase s, hinv⟩
  | release_all =>
    cases hv
    exact ⟨[], h.release_all.1⟩
  | make =>
    cases hv
    exact ⟨l, h.make⟩
  | brk env =>
    obtain ⟨⟨r, x⟩, hr, rfl⟩ := Option.map_eq_some_iff.mp hv
    exact ⟨l, h.brk hr⟩
  | change_active d =>
    cases hv
    exact ⟨l, h.ioctl_change_active d⟩
  | test d =>
    cases hv
    exact ⟨l, h.test d⟩
  | arrive env skb =>
    simp only [World.step] at hv
    split_ifs at hv
    cases hv
    exact ⟨l, h.of_sansTraffic (receive_sansTraffic w env skb)⟩
  | xmit env =>
    obtain ⟨⟨r, x⟩, hr, rfl⟩ := Option.map_eq_some_iff.mp hv
    exact ⟨l, h.of_sansTraffic (xmit_sansTraffic hr)⟩
  | mii_monitor =>
    simp only [World.step] at hv
    split_ifs at hv
    cases hv
    exact ⟨l, h.mii_monitor⟩
  | arp_monitor delta =>
    simp only [World.step] at hv
    split_ifs at hv
    cases hv
    exact ⟨l, h.arp_mon delta⟩
  | device d r =>
    simp only [World.step] at hv
    split_ifs at hv
    cases hv
    exact ⟨l, h.device d r⟩
  | address ip =>
    cases hv
    exact ⟨l, h.congr_pointers rfl rfl⟩
  | tick j =>
    cases hv
    exact ⟨l, h.congr_pointers rfl rfl⟩
  | destroy =>
    cases hv
    exact ⟨[], h.destroy.1⟩
  | free_all =>
    cases hv
    exact ⟨[], h.free_all.1⟩

/-- The bookkeeping holds at the end of every run from `bond_init`. -/
theorem Host.run_inv {w v : World} {bond_dev : DevId} (h : w.Host bond_dev) {params : Params}
    (hm : params.mode = .hoolock) {es : List Event}
    (hv : Transition.run World.step (w.bond_init bond_dev params) es = some v) :
    ∃ l, v.Inv l :=
  Transition.run_invariant (fun u => ∃ l, u.Inv l) (fun _ _ _ hi hs => hi.choose_spec.step hs) hv
    ⟨[], h.inv hm⟩

end World

end Hoolock
