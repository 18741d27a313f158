import Hoolock.Eligible
import Hoolock.ReceiveFilter

/-!
Which calls move the bond's receive filter from one device to another, and what stays on
whom.  A call is a chain of writes that leave the filters alone and of changes of the active
slave.
-/

set_option autoImplicit false

namespace Hoolock

namespace World

/-- No filter has changed, and the active slave's device is the same. -/
structure Unmoved (w v : World) : Prop where
  filters : v.filters = w.filters
  active : v.active_dev = w.active_dev
  dev : v.bond.dev = w.bond.dev

/-- Nor has the bond's own device come up. -/
structure Still (w v : World) : Prop extends Unmoved w v where
  present : (v.devs v.bond.dev).present = (w.devs w.bond.dev).present
  down : (w.devs w.bond.dev).iff_up = false → (v.devs v.bond.dev).iff_up = false

theorem Unmoved.trans {w v u : World} (h : Unmoved w v) (k : Unmoved v u) : Unmoved w u :=
  ⟨k.filters.trans h.filters, k.active.trans h.active, k.dev.trans h.dev⟩

theorem Still.refl (w : World) : Still w w :=
  { filters := rfl, active := rfl, dev := rfl, present := rfl, down := fun h => h }

theorem Still.trans {w v u : World} (h : Still w v) (k : Still v u) : Still w u :=
  { toUnmoved := h.toUnmoved.trans k.toUnmoved, present := k.present.trans h.present
    down := fun hw => k.down (h.down hw) }

theorem Unmoved.of_devs {w v : World} (hd : ∀ e, (v.devs e).filter = (w.devs e).filter)
    (ha : v.bond.curr_active_slave = w.bond.curr_active_slave)
    (hs : ∀ s ∈ w.bond.curr_active_slave, (v.slaves s).dev = (w.slaves s).dev)
    (hb : v.bond.dev = w.bond.dev) : Unmoved w v := by
  refine ⟨funext hd, ?_, hb⟩
  unfold active_dev
  rw [ha]
  cases hact : w.bond.curr_active_slave with
  | none => rfl
  | some a => exact congrArg some (hs a hact)

theorem Still.of_calm {w v : World} (hd : ∀ e, (w.devs e).Calm (v.devs e))
    (ha : v.bond.curr_active_slave = w.bond.curr_active_slave)
    (hs : ∀ s ∈ w.bond.curr_active_slave, (v.slaves s).dev = (w.slaves s).dev)
    (hb : v.bond.dev = w.bond.dev) : Still w v :=
  { toUnmoved := Unmoved.of_devs (fun e => (hd e).filter) ha hs hb
    present := by
      rw [hb]
      exact (hd w.bond.dev).present
    down := by
      rw [hb]
      exact (hd w.bond.dev).down }

theorem Still.of_shape {w v : World} (hd : v.devs = w.devs) (hs : v.shape = w.shape)
    (ha : v.bond.curr_active_slave = w.bond.curr_active_slave) (hb : v.bond.dev = w.bond.dev) :
    Still w v := by
  refine Still.of_calm (fun e => ?_) ha (fun s _ => congrFun (congrArg Shape.dev hs) s) hb
  rw [hd]
  exact NetDevice.Calm.refl _

theorem still_setDev (w : World) (d : DevId) {f : NetDevice → NetDevice}
    (hf : ∀ dev : NetDevice, dev.Calm (f dev)) : Still w (w.setDev d f) := by
  refine Still.of_calm (fun e => ?_) rfl (fun _ _ => rfl) rfl
  unfold setDev
  dsimp only
  split_ifs
  · exact hf _
  · exact NetDevice.Calm.refl _

theorem still_onDev (w : World) (d : DevId) {f : NetDevice → Int × NetDevice}
    (hf : ∀ dev : NetDevice, dev.Calm (f dev).2) : Still w (w.onDev d f).2 :=
  still_setDev w d hf

theorem still_other (w : World) {d : DevId} {f : NetDevice → NetDevice} (hd : d ≠ w.bond.dev)
    (hf : ∀ dev : NetDevice, (f dev).filter = dev.filter) : Still w (w.setDev d f) := by
  have hbond : (w.setDev d f).devs w.bond.dev = w.devs w.bond.dev := by
    simp [setDev, Ne.symm hd]
  refine
    { toUnmoved := Unmoved.of_devs (fun e => ?_) rfl (fun _ _ => rfl) rfl
      present := congrArg NetDevice.present hbond
      down := fun h => (congrArg NetDevice.iff_up hbond).trans h }
  unfold setDev
  dsimp only
  split_ifs
  · exact hf _
  · rfl

theorem still_setSlave (w : World) (s : SlaveId) {f : Slave → Slave} (hf : LinkUpdate f) :
    Still w (w.setSlave s f) :=
  Still.of_shape rfl (shape_setSlave w s f hf.next hf.prev hf.dev) rfl rfl

theorem still_lock (w : World) (n : LockName) (m : LockMode) : Still w (w.lock n m) :=
  Still.of_shape rfl rfl rfl rfl

theorem still_unlock (w : World) (n : LockName) (m : LockMode) : Still w (w.unlock n m) :=
  Still.of_shape rfl rfl rfl rfl

theorem still_setFeatures (w : World) (f : BitVec 64 → BitVec 64) : Still w (w.setFeatures f) :=
  still_setDev w _ (fun _ => ⟨rfl, rfl, fun h => h⟩)

theorem still_compute_features (w : World) : Still w w.bond_compute_features := by
  unfold bond_compute_features
  exact still_setDev w _ (fun _ => ⟨rfl, rfl, fun h => h⟩)

/-- What every change of the active slave starts from. -/
structure Grounded (w : World) : Prop where
  port : w.port = .k27
  mode : w.bond.params.mode = .hoolock
  foreign : w.active_dev ≠ some w.bond.dev

theorem Inv.grounded {w : World} {l : List SlaveId} (h : w.Inv l) : w.Grounded := by
  refine ⟨h.port, h.mode, ?_⟩
  unfold active_dev
  cases ha : w.bond.curr_active_slave with
  | none => simp
  | some a => simpa using h.foreign a (h.active a ha)

variable [Siblings]

/-- From `w` to `v` in steps that leave the filters alone or, if `c`, change the active slave. -/
inductive Swapping (c : Prop) : World → World → Prop where
  | still {w v : World} (h : Still w v) : Swapping c w v
  | change {w : World} {new : Option SlaveId} (hc : c) (h : w.Grounded)
      (hne : w.bond.curr_active_slave ≠ new)
      (hnew : ∀ s, new = some s → (w.slaves s).dev ≠ w.bond.dev) :
      Swapping c w (w.bond_change_active_slave new)
  | trans {w v u : World} (h : Swapping c w v) (k : Swapping c v u) : Swapping c w u

theorem Swapping.mono {c k : Prop} (hck : c → k) {w v : World} (h : Swapping c w v) :
    Swapping k w v := by
  induction h with
  | still h => exact .still h
  | change hc h hne hnew => exact .change (hck hc) h hne hnew
  | trans _ _ ih1 ih2 => exact ih1.trans ih2

theorem Swapping.is_still {c : Prop} (hc : ¬ c) {w v : World} (h : Swapping c w v) :
    Still w v := by
  induction h with
  | still h => exact h
  | change h => exact absurd h hc
  | trans _ _ ih1 ih2 => exact ih1.trans ih2

theorem change_active_dev {w : World} (h : w.bond.params.mode = .hoolock) (new : Option SlaveId) :
    (w.bond_change_active_slave new).active_dev = new.map fun s => (w.slaves s).dev := by
  have hshape := shape_change_active w new
  have hdev : ∀ s, ((w.bond_change_active_slave new).slaves s).dev = (w.slaves s).dev :=
    congrFun (congrArg Shape.dev hshape)
  unfold active_dev
  rw [change_active_bond h]
  cases new with
  | none => rfl
  | some s => exact congrArg some (hdev s)

/-! Each device's references -/

/-- Each device holds its own references `base`, and the active slave's device one more for
each of the settings. -/
def Account (base : DevId → RxFilter) (s : Settings) (w : World) : Prop :=
  ∀ d, d ≠ w.bond.dev → Holds (base d) s (decide (w.active_dev = some d)) (w.filters d)

omit [Siblings] in
theorem Account.still {base : DevId → RxFilter} {s : Settings} {w v : World}
    (h : Account base s w) (k : Unmoved w v) : Account base s v := by
  intro d hd
  rw [k.filters, k.active]
  exact h d (k.dev ▸ hd)

theorem Swapping.bond_filter {c : Prop} {w v : World} (h : Swapping c w v) :
    v.bond.dev = w.bond.dev ∧ v.filters v.bond.dev = w.filters w.bond.dev := by
  induction h with
  | still h => exact ⟨h.dev, by rw [h.filters, h.dev]⟩
  | @change w new hc h hne hnew =>
    have hdev : (w.bond_change_active_slave new).bond.dev = w.bond.dev := by
      rw [change_active_bond h.mode]
    have hnot : new.map (fun s => (w.slaves s).dev) ≠ some w.bond.dev := by
      cases new with
      | none => simp
      | some n => simpa using hnew n rfl
    refine ⟨hdev, ?_⟩
    rw [hdev, change_active_filters h.port h.mode hne h.foreign, if_neg hnot, if_neg h.foreign]
  | trans _ _ ih1 ih2 => exact ⟨ih2.1.trans ih1.1, ih2.2.trans ih1.2⟩

theorem Swapping.held {c : Prop} {w v : World} (h : Swapping c w v) :
    (v.devs v.bond.dev).present = (w.devs w.bond.dev).present ∧
      ((w.devs w.bond.dev).iff_up = false → (v.devs v.bond.dev).iff_up = false) := by
  induction h with
  | still h => exact ⟨h.present, h.down⟩
  | @change w new hc h hne hnew =>
    have hdev : (w.bond_change_active_slave new).bond.dev = w.bond.dev := by
      rw [change_active_bond h.mode]
    obtain ⟨hup, hpresent⟩ := NetDevice.same_state (change_active_devs h.mode new w.bond.dev)
    rw [hdev, hup, hpresent]
    exact ⟨rfl, fun hdown => hdown⟩
  | trans _ _ ih1 ih2 => exact ⟨ih2.1.trans ih1.1, fun hdown => ih2.2 (ih1.2 hdown)⟩

/-- What putting the bond's filter on a device and taking it off keeps of the device, a chain of
changes keeps.  The flag says whether the active slave is on it. -/
theorem Swapping.device {c : Prop} {w v : World} (h : Swapping c w v) {P : Bool → RxFilter → Prop}
    (hon : ∀ f, P false f → P true ((w.filters w.bond.dev).on f))
    (hoff : ∀ f, P true f → P false ((w.filters w.bond.dev).off f)) {d : DevId}
    (hp : P (decide (w.active_dev = some d)) (w.filters d)) :
    P (decide (v.active_dev = some d)) (v.filters d) := by
  induction h with
  | still h =>
    rw [h.filters, h.active]
    exact hp
  | @change w new hc h hne hnew =>
    rw [change_active_filters h.port h.mode hne h.foreign, change_active_dev h.mode]
    -- off the old device if it is `d`, on `d` if it is the new one
    have hfree : P false (if w.active_dev = some d then (w.filters w.bond.dev).off (w.filters d)
        else w.filters d) := by
      split_ifs with hact
      · rw [decide_eq_true hact] at hp
        exact hoff _ hp
      · rw [decide_eq_false hact] at hp
        exact hp
    by_cases hhere : new.map (fun s => (w.slaves s).dev) = some d
    · rw [if_pos hhere, decide_eq_true hhere]
      exact hon _ hfree
    · rw [if_neg hhere, decide_eq_false hhere]
      exact hfree
  | trans h1 h2 ih1 ih2 =>
    have hbond := h1.bond_filter.2
    exact ih2 (hbond ▸ hon) (hbond ▸ hoff) (ih1 hon hoff hp)

theorem Swapping.account {c : Prop} {w v : World} (h : Swapping c w v) {base : DevId → RxFilter}
    (hroom : ∀ d, d ≠ w.bond.dev → (base d).room)
    (hb : (addrs (w.filters w.bond.dev).mc_list).Nodup)
    (ha : Account base (w.filters w.bond.dev).settings w) :
    Account base (w.filters w.bond.dev).settings v := by
  intro d hd
  rw [h.bond_filter.1] at hd
  exact h.device (P := fun here f => Holds (base d) (w.filters w.bond.dev).settings here f)
    (fun f hf => hf.on (hroom d hd) hb) (fun f hf => hf.off hb) (ha d hd)

/-! Monitors and handover -/

theorem still_set_carrier {w : World} (h : w.bond.params.mode = .hoolock) :
    Still w w.bond_set_carrier.2 := by
  obtain ⟨f, hf, hc⟩ := set_carrier_hoolock h
  rw [hf]
  refine still_setDev w _ fun dev => ?_
  obtain ⟨c, hc⟩ := hc dev
  rw [hc]
  exact ⟨rfl, rfl, fun h => h⟩

omit [Siblings] in
theorem Grounded.still {w v : World} (h : w.Grounded) (k : Still w v) (hp : v.port = w.port)
    (hm : v.bond.params.mode = w.bond.params.mode) : v.Grounded := by
  refine ⟨hp.trans h.port, hm.trans h.mode, ?_⟩
  rw [k.active, k.dev]
  exact h.foreign

theorem swaps_change {c : Prop} {w : World} (h : w.Grounded) (new : Option SlaveId)
    (hc : w.bond.curr_active_slave ≠ new → c)
    (hnew : ∀ s, new = some s → (w.slaves s).dev ≠ w.bond.dev) :
    Swapping c w (w.bond_change_active_slave new) ∧ (w.bond_change_active_slave new).Grounded := by
  have hcore := core_change_active w new
  have hb := change_active_bond h.mode new
  refine ⟨?_, (congrArg Core.port hcore).trans h.port, (congrArg Core.mode hcore).trans h.mode, ?_⟩
  · by_cases hne : w.bond.curr_active_slave = new
    · have hsame : w.bond_change_active_slave new = w := by
        simp [bond_change_active_slave, hne]
      rw [hsame]
      exact .still (Still.refl w)
    · exact .change (hc hne) h hne hnew
  · rw [change_active_dev h.mode, hb]
    cases new with
    | none => simp
    | some n => simpa using hnew n rfl

theorem swaps_select {c : Prop} (hc : c) {w : World} (h : w.Grounded)
    (hbest : ∀ s, w.bond_find_best_slave = some s → (w.slaves s).dev ≠ w.bond.dev) :
    Swapping c w w.bond_select_active_slave := by
  obtain ⟨hchange, hground⟩ := swaps_change h _ (fun _ => hc) hbest
  unfold bond_select_active_slave
  dsimp only
  split_ifs
  · exact hchange.trans (.still (still_set_carrier hground.mode))
  · exact .still (Still.refl w)

omit [Siblings] in
theorem Inv.best_foreign {w : World} {l : List SlaveId} (h : w.Inv l) (s : SlaveId)
    (hs : w.bond_find_best_slave = some s) : (w.slaves s).dev ≠ w.bond.dev :=
  h.foreign s (h.toMembers.find_best_slave.2 s hs)

theorem Inv.failover_swaps {c : Prop} (hc : c) {w : World} {l : List SlaveId} (h : w.Inv l) :
    Swapping c w w.failover := by
  have hlock := h.lock .curr_slave .write
  have hsel := swaps_select hc hlock.grounded hlock.best_foreign
  unfold World.failover
  exact ((Swapping.still (still_lock _ _ _)).trans hsel).trans (.still (still_unlock _ _ _))

theorem Inv.commit_swaps {c : Prop} (hc : c) {w : World} {l : List SlaveId} (h : w.Inv l)
    (s : SlaveId) : Swapping c w (w.commit s) := by
  obtain ⟨f, hf, hcase | hcase⟩ := commit_cases h.mode s
  · rw [hcase]
    exact .still (still_setSlave w s hf)
  · rw [hcase]
    exact (Swapping.still (still_setSlave w s hf)).trans ((h.setSlave s hf).failover_swaps hc)

theorem Inv.commits_swaps {c : Prop} (hc : c) {w : World} {l : List SlaveId} (h : w.Inv l)
    (r : List SlaveId) : Swapping c w (r.foldl World.commit w) := by
  induction r generalizing w with
  | nil => exact .still (Still.refl w)
  | cons s rest ih => exact (h.commit_swaps hc s).trans (ih (h.commit s))

omit [Siblings] in
theorem still_foldl {f : World → SlaveId → World} (hf : ∀ w s, Still w (f w s))
    (l : List SlaveId) (w : World) : Still w (l.foldl f w) := by
  induction l generalizing w with
  | nil => exact Still.refl w
  | cons s rest ih => exact (hf w s).trans (ih (f w s))

theorem Inv.miimon_work_swaps {c : Prop} (hc : c) {w : World} {l : List SlaveId} (h : w.Inv l) :
    Swapping c w w.miimon_work := by
  have hinspect : Still w w.bond_miimon_inspect :=
    still_foldl (fun v s => still_setSlave v s (inspect_linkUpdate v.bond.params fun x =>
      v.bond_check_dev_link (v.devs x.dev))) _ w
  obtain ⟨x, hx⟩ : ∃ x, x = (w.bond_miimon_inspect.unlock .bond .read).lock .bond .read := ⟨_, rfl⟩
  have hxi : x.Inv l := by
    rw [hx]
    exact (h.inspected.unlock .bond .read).lock .bond .read
  have hcommit : Swapping c x x.bond_miimon_commit := by
    unfold bond_miimon_commit
    exact (hxi.commits_swaps hc _).trans (.still (still_set_carrier (hxi.commits _).mode))
  have hstart : Still w x := hx ▸ (hinspect.trans (still_unlock _ _ _)).trans (still_lock _ _ _)
  unfold World.miimon_work
  dsimp only
  rw [← hx]
  split_ifs
  · exact ((Swapping.still hstart).trans hcommit).trans
      (.still ((still_unlock _ _ _).trans (still_lock _ _ _)))
  · exact .still hinspect

theorem Inv.mii_monitor_swaps {w : World} {l : List SlaveId} (h : w.Inv l) :
    Swapping (w.bond.kill_timers = false) w w.bond_mii_monitor := by
  obtain ⟨x, han, -, hrun⟩ := mii_monitor_starts w
  have hxi := han.onward.inv (h.lock .bond .read) fun s hs => h.active s (han.active ▸ hs)
  have hx : Still w x := (still_lock w .bond .read).trans
    (Still.of_shape han.devs (congrArg Base.shape han.onward.base) han.active han.onward.bond_dev)
  rw [hrun]
  split_ifs with hoff
  · exact .still ((still_lock _ _ _).trans (still_unlock _ _ _))
  · have hrun : w.bond.kill_timers = false := by simpa using (not_or.mp hoff).1
    exact ((Swapping.still hx).trans (hxi.miimon_work_swaps hrun)).trans
      (.still (still_unlock _ _ _))

omit [Siblings] in
theorem still_arp_turns (delta : BitVec 64) (l : List SlaveId) (b : Bool) (w : World) :
    Still w (l.foldl (arp_turn delta) (b, w)).2 := by
  induction l generalizing b w with
  | nil => exact Still.refl w
  | cons a rest ih =>
    obtain ⟨f, hf, hc⟩ := arp_slave_cases delta w a
    have hturn : Still w (arp_slave delta w a) := hc ▸ still_setSlave w a hf
    exact hturn.trans (ih _ _)

theorem Inv.arp_mon_swaps {w : World} {l : List SlaveId} (h : w.Inv l) (delta : BitVec 64) :
    Swapping (w.bond.kill_timers = false) w (bond_loadbalance_arp_mon delta w) := by
  obtain ⟨v, hv⟩ : ∃ v, v = ((w.lock .bond .read).lock .curr_slave .read).unlock .curr_slave
      .read := ⟨_, rfl⟩
  have hvi : v.Inv l := by
    rw [hv]
    exact ((h.lock .bond .read).lock .curr_slave .read).unlock .curr_slave .read
  have hvs : Still w v :=
    hv ▸ ((still_lock _ _ _).trans (still_lock _ _ _)).trans (still_unlock _ _ _)
  obtain ⟨hon, hb, -, -⟩ := arp_turns_spec delta v hvi.nodup false
  have hturns := hvs.trans (still_arp_turns delta l false v)
  have hr := hon.inv hvi fun s hs => by
    rw [hb] at hs
    exact hvi.active s hs
  rw [arp_mon_eq]
  dsimp only
  rw [← hv, hvi.for_each]
  split_ifs with hoff
  · exact .still ((still_lock _ _ _).trans (still_unlock _ _ _))
  · have hrun : w.bond.kill_timers = false := by simpa using (not_or.mp hoff).1
    exact ((Swapping.still hturns).trans (hr.failover_swaps hrun)).trans
      (.still (still_unlock _ _ _))
  · exact .still (hturns.trans (still_unlock _ _ _))

omit [Siblings] in
theorem Inv.passive_foreign {w : World} {l : List SlaveId} (h : w.Inv l) (s : SlaveId)
    (hs : w.passive_slave = some s) : (w.slaves s).dev ≠ w.bond.dev :=
  h.foreign s (h.passive_slave hs)

theorem Inv.make_swaps {w : World} {l : List SlaveId} (h : w.Inv l) :
    Swapping (w.passive_slave ≠ none) w w.bond_ioctl_make.2 := by
  have hbegun : Still w w.make_begun := (still_lock _ _ _).trans (still_lock _ _ _)
  have hdone : ∀ x : World, Still x x.make_done := fun x => Still.of_shape rfl rfl rfl rfl
  cases hp : w.passive_slave with
  | none =>
    rw [make_none hp]
    exact .still (hbegun.trans (hdone _))
  | some s =>
    have hground : w.make_begun.Grounded := h.grounded.still hbegun rfl rfl
    have hchange := (swaps_change (c := some s ≠ none) hground (some s) (fun _ => by simp) fun t ht => by
      obtain rfl : s = t := Option.some.inj ht
      exact h.passive_foreign s hp).1
    rw [make_some hp]
    exact ((Swapping.still hbegun).trans hchange).trans (.still (hdone _))

def ChangesTo (w : World) (d : DevId) : Prop :=
  ∃ s, w.bond_get_slave_by_dev d = some s ∧ w.bond.curr_active_slave ≠ some s

omit [Siblings] in
theorem Inv.get_slave_foreign {w : World} {l : List SlaveId} (h : w.Inv l) {d : DevId}
    {s : SlaveId} (hs : w.bond_get_slave_by_dev d = some s) : (w.slaves s).dev ≠ w.bond.dev :=
  h.foreign s (h.toRing.get_slave_mem hs)

theorem Inv.test_swaps {w : World} {l : List SlaveId} (h : w.Inv l) (d : DevId) :
    Swapping (w.ChangesTo d) w (w.bond_ioctl_hoolock_change_active d).2 := by
  obtain ⟨x, hx⟩ : ∃ x, x = (w.lock .bond .read).lock .curr_slave .write := ⟨_, rfl⟩
  have hxs : Still w x := hx ▸ (still_lock _ _ _).trans (still_lock _ _ _)
  have hground : x.Grounded := h.grounded.still hxs (by rw [hx]; rfl) (by rw [hx]; rfl)
  have hdone : ∀ y : World, Still y ((y.unlock .curr_slave .write).unlock .bond .read) :=
    fun y => (still_unlock _ _ _).trans (still_unlock _ _ _)
  unfold bond_ioctl_hoolock_change_active
  dsimp only
  rw [← hx]
  split
  · rename_i s hs
    have hget : w.bond_get_slave_by_dev d = some s := by
      have hfound := List.find?_some hs
      exact (beq_iff_eq.mp hfound).symm
    have hchange := (swaps_change (c := w.ChangesTo d) hground (some s)
      (fun hne => ⟨s, hget, by rw [hx] at hne; exact hne⟩) fun t ht => by
        obtain rfl : s = t := Option.some.inj ht
        rw [hx]
        exact h.get_slave_foreign hget).1
    exact ((Swapping.still hxs).trans hchange).trans (.still (hdone _))
  · exact .still (hxs.trans (hdone x))

def Changes (w : World) (d : DevId) : Prop :=
  ∃ s, w.bond_get_slave_by_dev d = some s ∧ w.bond.curr_active_slave ≠ some s ∧
    w.bond.curr_active_slave ≠ none ∧ (w.slaves s).link = .up ∧ IS_UP (w.slave_dev s) = true

theorem Inv.change_active_swaps {w : World} {l : List SlaveId} (h : w.Inv l) (d : DevId) :
    Swapping (w.Changes d) w (w.bond_ioctl_change_active d).2 := by
  obtain ⟨x, hx⟩ : ∃ x, x = ((w.lock .bond .read).lock .curr_slave .read).unlock .curr_slave
      .read := ⟨_, rfl⟩
  have hxs : Still w x :=
    hx ▸ ((still_lock _ _ _).trans (still_lock _ _ _)).trans (still_unlock _ _ _)
  unfold bond_ioctl_change_active
  dsimp only
  rw [← hx]
  split_ifs
  · exact .still (Still.refl w)
  · exact .still (Still.refl w)
  · cases hs : x.bond_get_slave_by_dev d with
    | none => exact .still (hxs.trans (still_unlock _ _ _))
    | some s =>
      dsimp only
      split_ifs with hsame hgood
      · exact .still (hxs.trans (still_unlock _ _ _))
      · have hget : w.bond_get_slave_by_dev d = some s := by
          rw [hx] at hs
          exact hs
        have hys := hxs.trans (still_lock x .curr_slave .write)
        have hground : (x.lock .curr_slave .write).Grounded :=
          h.grounded.still hys (by rw [hx]; rfl) (by rw [hx]; rfl)
        rw [hx] at hsame hgood
        have hmoves : w.Changes d :=
          ⟨s, hget, hsame, Option.isSome_iff_ne_none.mp hgood.1, hgood.2.1, hgood.2.2⟩
        have hchange := (swaps_change (c := w.Changes d) hground (some s)
          (fun _ => hmoves) fun t ht => by
            obtain rfl : s = t := Option.some.inj ht
            rw [hx]
            exact h.get_slave_foreign hget).1
        exact ((Swapping.still hys).trans hchange).trans
          (.still ((still_unlock _ _ _).trans (still_unlock _ _ _)))
      · exact .still (hxs.trans (still_unlock _ _ _))

/-! Enslaving -/

omit [Siblings] in
theorem still_active_flags (w : World) (s : SlaveId) : Still w (w.bond_set_slave_active_flags s) := by
  have hslave : Still w (w.setSlave s fun x => { x with state := .active }) :=
    still_setSlave w s ⟨fun _ => rfl, fun _ => rfl, fun _ => rfl⟩
  unfold bond_set_slave_active_flags
  exact hslave.trans (still_setDev _ _ (fun _ => ⟨rfl, rfl, fun h => h⟩))

theorem swaps_enslave_mode {w : World} (h : w.Grounded) {s : SlaveId}
    (hs : (w.slaves s).dev ≠ w.bond.dev) :
    Swapping (w.bond.curr_active_slave = none) w (w.enslave_mode s) ∧
      (w.enslave_mode s).bond.params.mode = .hoolock := by
  have hflags := still_active_flags w s
  have hdev : ((w.bond_set_slave_active_flags s).slaves s).dev = (w.slaves s).dev := by
    unfold bond_set_slave_active_flags
    simp [setSlave, setDev]
  have hground : (w.bond_set_slave_active_flags s).Grounded := h.still hflags rfl rfl
  rw [enslave_mode_hoolock h.mode]
  split_ifs with hnone
  · obtain ⟨hchange, hafter⟩ := swaps_change (c := w.bond.curr_active_slave = none)
      hground (some s) (fun _ => hnone) fun t ht => by
        obtain rfl : s = t := Option.some.inj ht
        rw [hdev]
        exact hs
    exact ⟨(Swapping.still hflags).trans hchange, hafter.mode⟩
  · exact ⟨.still hflags, hground.mode⟩

theorem swaps_enslave_attach {w : World} (h : w.Grounded) (d : DevId) {s : SlaveId}
    (hs : (w.slaves s).dev ≠ w.bond.dev) :
    Swapping (w.bond.curr_active_slave = none) w (w.enslave_attach d s) := by
  obtain ⟨b, hatt, heq⟩ := enslave_attach_eq h.port d s
  have hdev : ∀ x, (b.slaves x).dev = (w.slaves x).dev := by
    intro x
    have hshape := (congrArg Shape.dev hatt.shape).trans (Shape.attach_dev _ s).1
    exact congrFun hshape x
  have hbs : Still w b := by
    refine Still.of_calm (fun e => ?_) hatt.active (fun a _ => hdev a) hatt.dev
    obtain ⟨f, n, hf⟩ := hatt.devs e
    rw [hf]
    exact ⟨rfl, rfl, fun h => h⟩
  have hground := h.still hbs (hatt.keeps.port) (congrArg Params.mode hatt.params)
  obtain ⟨hmode, hm⟩ := swaps_enslave_mode hground (s := s) (by rw [hdev, hatt.dev]; exact hs)
  rw [hatt.active] at hmode
  have hcarrier : Still (b.enslave_mode s)
      (((b.enslave_mode s).unlock .curr_slave .write).bond_set_carrier.2.unlock .bond .read) := by
    have hunlock := still_unlock (b.enslave_mode s) .curr_slave .write
    have hm' : ((b.enslave_mode s).unlock .curr_slave .write).bond.params.mode = .hoolock := hm
    exact (hunlock.trans (still_set_carrier hm')).trans (still_unlock _ _ _)
  rw [heq]
  exact ((Swapping.still hbs).trans hmode).trans (.still hcarrier)

omit [Siblings] in
theorem still_prepared (w : World) (d : DevId) : Still w (w.enslave_prepared d) := by
  have hvlan : ∀ x : World, Still x (x.enslave_vlan d) := by
    intro x
    unfold enslave_vlan
    split_ifs
    · exact still_setFeatures x _
    · exact still_setFeatures x _
    · exact Still.refl x
  have htype : ∀ x : World, Still x (x.enslave_type d) := by
    intro x
    unfold enslave_type bond_setup_by_slave
    dsimp only
    split_ifs
    · have hset := still_setDev x x.bond.dev (f := fun dev =>
        { dev with
          type := (x.devs d).type, hard_header_len := (x.devs d).hard_header_len
          addr_len := (x.devs d).addr_len }) (fun _ => ⟨rfl, rfl, fun h => h⟩)
      exact hset.trans (Still.of_shape rfl rfl rfl rfl)
    · exact Still.refl x
  have hfom : ∀ x : World, Still x (x.enslave_fom d) := by
    intro x
    unfold enslave_fom
    split_ifs
    · exact Still.of_shape rfl rfl rfl rfl
    · exact Still.refl x
  unfold enslave_prepared
  exact ((hvlan w).trans (htype _)).trans (hfom _)

omit [Siblings] in
theorem still_fresh {w v : World} {s : SlaveId} (hs : w.bond.curr_active_slave ≠ some s)
    (hd : v.devs = w.devs) (hb : v.bond = w.bond)
    (hv : ∀ t, t ≠ s → (v.slaves t).dev = (w.slaves t).dev) : Still w v := by
  refine Still.of_calm (fun e => ?_) (by rw [hb]) (fun a ha => hv a fun e => hs (e ▸ ha))
    (by rw [hb])
  rw [hd]
  exact NetDevice.Calm.refl _

omit [Siblings] in
theorem ready_bond (env : EnslaveEnv) (w : World) (d : DevId) (s : SlaveId) :
    (enslave_ready env w d s).bond = w.bond := by
  have hmac : ((w.enslave_record d s).enslave_mac d).2.bond = w.bond := by
    unfold enslave_mac
    split_ifs <;> rfl
  exact hmac

omit [Siblings] in
theorem still_ready (env : EnslaveEnv) {w : World} {d : DevId} (hd : d ≠ w.bond.dev) {s : SlaveId}
    (hs : w.bond.curr_active_slave ≠ some s) : Still w (enslave_ready env w d s) := by
  have hrecord : Still w (w.enslave_record d s) := by
    refine still_fresh hs rfl rfl fun t ht => ?_
    unfold enslave_record kzalloc_slave
    simp [setSlave, ht]
  have hmac : ∀ x : World, Still x (x.enslave_mac d).2 := by
    intro x
    unfold enslave_mac
    split_ifs
    · exact still_onDev x d fun dev => set_mac_calm _ _ dev
    · exact Still.refl x
  have hmaster := (hrecord.trans (hmac _)).trans (still_onDev _ d
    (set_master_calm (some ((w.enslave_record d s).enslave_mac d).2.bond.dev)))
  exact hmaster.trans (still_other _ (by rw [hmaster.dev]; exact hd) (open_filter env.open_slave))

theorem Inv.enslave_swaps {w : World} {l : List SlaveId} (h : w.Inv l) {env : EnslaveEnv}
    {d : DevId} (hd : d ≠ w.bond.dev) (hnew : env.new_slave.all fun s => !w.live s)
    (hret : (bond_enslave env w d).1 = 0) :
    Swapping (w.bond.curr_active_slave = none) w (bond_enslave env w d).2 := by
  obtain ⟨s, hs, -, heq⟩ := bond_enslave_zero h.port h.mode hret
  have hprep := prepared w d
  have hact : (w.enslave_prepared d).bond.curr_active_slave = w.bond.curr_active_slave :=
    congrArg Holdings.curr_active_slave hprep.holdings
  have hfresh : w.bond.curr_active_slave ≠ some s := by
    intro ha
    have hlive := h.live s (h.active s ha)
    rw [hs] at hnew
    simp [hlive] at hnew
  obtain ⟨x, hx⟩ : ∃ x, x = enslave_ready env (w.enslave_prepared d) d s := ⟨_, rfl⟩
  have hxs : Still w x := by
    rw [hx]
    exact (still_prepared w d).trans (still_ready env
      (by rw [(still_prepared w d).dev]; exact hd) (hact ▸ hfresh))
  have hxb : x.bond = (w.enslave_prepared d).bond := hx ▸ ready_bond env _ d s
  have hxa : x.bond.curr_active_slave = w.bond.curr_active_slave := by
    rw [hxb]
    exact hact
  have hcore : x.core = w.core := hx ▸ core_ready env w d s
  obtain ⟨y, hlinked, hjoined⟩ := enslave_joined_eq x d s
  have hys : Still x y := by
    refine Still.of_calm (fun e => ?_) (by rw [hlinked.bond]) (fun a ha => ?_)
      (by rw [hlinked.bond])
    · rw [hlinked.devs]
      split_ifs <;> exact ⟨rfl, rfl, fun h => h⟩
    · have has : a ≠ s := by
        rintro rfl
        exact hfresh (hxa ▸ ha)
      rw [hlinked.others a has]
  have hground : y.Grounded := by
    refine h.grounded.still (hxs.trans hys) ?_ ?_
    · exact hlinked.port.trans (congrArg Core.port hcore)
    · rw [hlinked.bond]
      exact congrArg Core.mode hcore
  have hybd : y.bond.dev = w.bond.dev := by
    rw [hlinked.bond]
    exact congrArg Core.dev hcore
  have hattach := swaps_enslave_attach hground d (s := s)
    (by rw [hlinked.dev, hybd]; exact hd)
  rw [hlinked.bond, hxa] at hattach
  rw [heq, ← hx, hjoined]
  exact (Swapping.still (hxs.trans hys)).trans hattach

/-! Releasing -/

omit [Siblings] in
theorem still_detach_slave (w : World) (s : SlaveId) : Still w (w.bond_detach_slave s) := by
  exact Still.of_calm (fun _ => NetDevice.Calm.refl _) rfl (fun _ _ => rfl) rfl

omit [Siblings] in
theorem still_detach (w : World) (s : SlaveId) :
    Still w ((w.bond_detach_slave s).bond_compute_features.release_pointers s) := by
  have hpointers : ∀ x : World, Still x (x.release_pointers s) :=
    fun x => Still.of_shape rfl rfl rfl rfl
  exact ((still_detach_slave w s).trans (still_compute_features _)).trans (hpointers _)

omit [Siblings] in
theorem still_clear_master (w : World) : Still w w.clear_master := by
  have hclear := still_setDev w w.bond.dev (f := fun dev =>
    { dev with dev_addr := List.replicate dev.addr_len 0 ++ dev.dev_addr.drop dev.addr_len })
    (fun _ => ⟨rfl, rfl, fun h => h⟩)
  unfold clear_master
  dsimp only
  split_ifs
  · exact hclear.trans (still_setFeatures _ _)
  · exact hclear

theorem still_release_master {w : World} (h : w.bond.params.mode = .hoolock) :
    Still w w.release_master := by
  unfold release_master
  split_ifs
  · exact (still_set_carrier h).trans (still_clear_master _)
  · exact still_setFeatures w _
  · exact Still.refl w

omit [Siblings] in
theorem still_release_device {w : World} (hp : w.port = .k27)
    (h : w.bond.params.mode = .hoolock) (s : SlaveId) (d : DevId) (r : Bool) :
    Still w (w.release_device s d r) := by
  have hvlans : Still w w.bond_del_vlans_from_slave := (still_lock _ _ _).trans (still_unlock _ _ _)
  have hfilter : w.bond_del_vlans_from_slave.release_filter d = w.bond_del_vlans_from_slave := by
    have huses : USES_PRIMARY w.bond_del_vlans_from_slave.port
        w.bond_del_vlans_from_slave.bond.params.mode = true := by
      change USES_PRIMARY w.port w.bond.params.mode = true
      rw [hp, h]
      rfl
    unfold release_filter
    rw [if_pos huses]
  have hmaster := hvlans.trans (still_onDev w.bond_del_vlans_from_slave d (set_master_calm none))
  have hclose := hmaster.trans (still_setDev _ d close_calm)
  unfold release_device
  rw [hfilter]
  dsimp only
  split_ifs
  · exact hclose.trans (still_onDev _ d fun dev => set_mac_calm _ _ dev)
  · exact hclose

theorem swaps_release_detach {w : World} {l : List SlaveId} (h : w.Grounded) (hl : w.Members l)
    (hfor : ∀ t ∈ l, (w.slaves t).dev ≠ w.bond.dev) {s : SlaveId} (hs : s ∈ l) :
    Swapping (w.bond.curr_active_slave = some s) w (w.release_detach s) := by
  obtain ⟨a, ha⟩ : ∃ a, a = (w.bond_detach_slave s).bond_compute_features.release_pointers s :=
    ⟨_, rfl⟩
  have has : Still w a := ha ▸ still_detach w s
  have hground : a.Grounded := h.still has (by rw [ha]; rfl) (by rw [ha]; rfl)
  rw [release_detach_hoolock h.mode, ← ha]
  by_cases hact : w.bond.curr_active_slave = some s
  · obtain ⟨hchange, hnone⟩ := swaps_change (c := w.bond.curr_active_slave = some s) hground none
      (fun _ => hact) fun t ht => by cases ht
    obtain ⟨x, hx⟩ : ∃ x, x = (((a.bond_change_active_slave none).unlock .bond .write).lock .bond
        .read).lock .curr_slave .write := ⟨_, rfl⟩
    have hxs : Still (a.bond_change_active_slave none) x :=
      hx ▸ ((still_unlock _ _ _).trans (still_lock _ _ _)).trans (still_lock _ _ _)
    have hxground : x.Grounded := hnone.still hxs (by rw [hx]; rfl) (by rw [hx]; rfl)
    obtain ⟨hxb, hmem⟩ := detached_members h.mode hl hs ha hx
    have hbest : ∀ t, x.bond_find_best_slave = some t → (x.slaves t).dev ≠ x.bond.dev := by
      intro t ht
      have htl : t ∈ l := List.mem_of_mem_erase (hmem.find_best_slave.2 t ht)
      have hdev : (x.slaves t).dev = (w.slaves t).dev := by
        have hshape : x.shape = a.shape := by simp [hx]
        have hxa : (x.slaves t).dev = (a.slaves t).dev := congrFun (congrArg Shape.dev hshape) t
        rw [hxa, ha]
        rfl
      have hbdev : x.bond.dev = w.bond.dev := by
        rw [hxb, ha]
        rfl
      rw [hdev, hbdev]
      exact hfor t htl
    have hsel := swaps_select (c := w.bond.curr_active_slave = some s) hact hxground hbest
    have hselmode : x.bond_select_active_slave.bond.params.mode = .hoolock := by
      rw [select_active_bond hxground.mode]
      exact hxground.mode
    have hdone : ∀ y : World,
        Still y (((y.unlock .curr_slave .write).unlock .bond .read).lock .bond .write) :=
      fun y => ((still_unlock _ _ _).trans (still_unlock _ _ _)).trans (still_lock _ _ _)
    have hre : Swapping (w.bond.curr_active_slave = some s) (a.bond_change_active_slave none)
        (a.bond_change_active_slave none).release_reselect.release_master := by
      have hmaster : Still (a.bond_change_active_slave none).release_reselect
          (a.bond_change_active_slave none).release_reselect.release_master := by
        refine still_release_master ?_
        unfold release_reselect
        dsimp only
        rw [← hx]
        exact hselmode
      have hreselect : Swapping (w.bond.curr_active_slave = some s)
          (a.bond_change_active_slave none) (a.bond_change_active_slave none).release_reselect := by
        unfold release_reselect
        dsimp only
        rw [← hx]
        exact ((Swapping.still hxs).trans hsel).trans (.still (hdone _))
      exact hreselect.trans (.still hmaster)
    rw [if_pos hact]
    exact ((Swapping.still has).trans hchange).trans hre
  · rw [if_neg hact]
    exact .still (has.trans (still_release_master hground.mode))

theorem Inv.release_swaps {w : World} {l : List SlaveId} (h : w.Inv l) {d : DevId}
    (hret : (w.bond_release d).1 = 0) :
    Swapping (w.active_dev = some d) w (w.bond_release d).2 := by
  obtain ⟨s, hs, hsd, -, r, hv⟩ := h.release_eq (v := (w.bond_release d).2) (Prod.ext hret rfl)
  have hlock := still_lock w .bond .write
  have hground : (w.lock .bond .write).Grounded := h.grounded.still hlock rfl rfl
  have hmem : (w.lock .bond .write).Members l :=
    { toRing := h.toRing.congr rfl rfl rfl, active := h.active, primary := h.primary }
  have hdetach := swaps_release_detach hground hmem h.foreign hs
  obtain ⟨x, hx⟩ : ∃ x, x = (w.lock .bond .write).release_detach s := ⟨_, rfl⟩
  rw [← hx] at hv hdetach
  have hcore : x.core = w.core.lock .bond .write := by simp [hx]
  have hunlock : Still x (x.unlock .bond .write) := still_unlock _ _ _
  have hdevice : Still (x.unlock .bond .write) ((x.unlock .bond .write).release_device s d r) :=
    still_release_device (w := x.unlock .bond .write) ((congrArg Core.port hcore).trans h.port)
      ((congrArg Core.mode hcore).trans h.mode) s d r
  have hflags := still_setDev ((x.unlock .bond .write).release_device s d r) d (f := fun dev =>
    { dev with slave_inactive := false, bonding := false, slave_needarp := false })
    (fun _ => ⟨rfl, rfl, fun h => h⟩)
  have hfree : ∀ y : World, Still y (y.kfree_slave s) := fun y =>
    Still.of_calm (fun _ => NetDevice.Calm.refl _) rfl (fun _ _ => rfl) rfl
  have hhere : (w.lock .bond .write).bond.curr_active_slave = some s → w.active_dev = some d := by
    intro hact
    have hact : w.bond.curr_active_slave = some s := hact
    unfold active_dev
    rw [hact, ← hsd]
    rfl
  rw [hv]
  exact ((Swapping.still hlock).trans (hdetach.mono hhere)).trans
    (.still (((hunlock.trans hdevice).trans hflags).trans (hfree _)))

theorem still_release_first {w : World} (hp : w.port = .k27) (h : w.bond.params.mode = .hoolock)
    (s : SlaveId) : Still w (w.release_first s) := by
  have hunbind : w.release_unbind s = w := by
    unfold release_unbind
    simp [h]
  have hdetach : Still w ((w.bond_detach_slave s).unlock .bond .write) :=
    (still_detach_slave w s).trans (still_unlock _ _ _)
  have hm : ((w.bond_detach_slave s).unlock .bond .write).bond.params.mode = .hoolock := h
  obtain ⟨x, hx⟩ : ∃ x, x = ((w.bond_detach_slave s).unlock .bond .write).bond_compute_features :=
    ⟨_, rfl⟩
  have hxs := hdetach.trans (still_compute_features _)
  rw [← hx] at hxs
  have hdevice := hxs.trans (still_release_device (by rw [hx]; exact hp) (by rw [hx]; exact h) s
    (w.slaves s).dev (x.bond.params.fail_over_mac == FailOverMac.none))
  have hflags := hdevice.trans (still_setDev _ (w.slaves s).dev (f := fun dev =>
    { dev with slave_inactive := false }) (fun _ => ⟨rfl, rfl, fun h => h⟩))
  have hfree : ∀ y : World, Still y ((y.kfree_slave s).lock .bond .write) :=
    fun y => Still.of_calm (fun _ => NetDevice.Calm.refl _) rfl (fun _ _ => rfl) rfl
  unfold release_first
  simp only [hunbind, hm, reduceCtorEq, or_self, if_false]
  rw [← hx]
  exact hflags.trans (hfree _)

theorem still_release_each {n : Nat} {w : World} (hp : w.port = .k27)
    (h : w.bond.params.mode = .hoolock) : Still w (World.release_each n w) := by
  induction n generalizing w with
  | zero => exact Still.refl w
  | succ n ih =>
    unfold World.release_each
    cases w.bond.first_slave with
    | none => exact Still.refl w
    | some s =>
      obtain ⟨x, hx⟩ : ∃ x, x = w.release_first s := ⟨_, rfl⟩
      have hcore := core_release_first w s
      have hfirst := still_release_first hp h s
      rw [← hx] at hcore hfirst
      dsimp only
      rw [← hx]
      exact hfirst.trans
        (ih ((congrArg Core.port hcore).trans hp) ((congrArg Core.mode hcore).trans h))

theorem Inv.release_all_swaps {w : World} {l : List SlaveId} (h : w.Inv l) :
    Swapping (w.active_dev ≠ none) w w.bond_release_all.2 := by
  obtain ⟨x, y, hx, hy, hall⟩ := release_all_eq w
  have hxs : Still w x := by
    rw [hx]
    unfold netif_carrier_off
    exact (still_lock _ _ _).trans (still_setDev _ _ (fun _ => ⟨rfl, rfl, fun h => h⟩))
  have hset : Still x (x.setBond fun b =>
      { b with current_arp_slave := none, primary_slave := none }) :=
    Still.of_shape rfl rfl rfl rfl
  have hground := h.grounded.still (hxs.trans hset) (by rw [hx]; rfl) (by rw [hx]; rfl)
  have hact : w.bond.curr_active_slave ≠ none → w.active_dev ≠ none := by
    intro hne
    unfold active_dev
    simpa using hne
  obtain ⟨hchange, hafter⟩ := swaps_change (c := w.active_dev ≠ none) hground none
    (fun hne => hact (by rw [hx] at hne; exact hne)) fun t ht => by cases ht
  rw [← hy] at hchange hafter
  rw [hall]
  split_ifs
  · exact .still (hxs.trans (still_unlock _ _ _))
  · have hrest := (still_release_each (n := y.bond.slave_cnt.toNat) hafter.port hafter.mode).trans
      (still_clear_master _)
    exact ((Swapping.still (hxs.trans hset)).trans hchange).trans
      (.still (hrest.trans (still_unlock _ _ _)))

/-! Everything else -/

omit [Siblings] in
theorem Still.of_sansTraffic {w v : World} (h : v.sansTraffic = w.sansTraffic) : Still w v := by
  have hdevs : v.sansTraffic.devs = w.sansTraffic.devs := congrArg World.devs h
  have hbond : v.sansTraffic.bond = w.sansTraffic.bond := congrArg World.bond h
  have hshape : v.sansTraffic.shape = w.sansTraffic.shape := congrArg World.shape h
  exact Still.of_shape hdevs hshape (congrArg Bonding.curr_active_slave hbond)
    (congrArg Bonding.dev hbond)

omit [Siblings] in
theorem unmoved_open_bond (w : World) : Unmoved w w.open_bond := by
  have hopen : Still w w.bond_open.2 := by
    unfold bond_open bond_register_hoolock
    dsimp only
    split_ifs <;> exact Still.of_shape rfl rfl rfl rfl
  unfold open_bond
  split_ifs
  · exact (Still.refl w).toUnmoved
  · refine hopen.toUnmoved.trans (Unmoved.of_devs (fun e => ?_) rfl (fun _ _ => rfl) rfl)
    unfold setDev
    dsimp only
    split_ifs <;> rfl

omit [Siblings] in
theorem still_close_bond (w : World) : Still w w.close_bond := by
  have hclose : ∀ x : World, Still x x.bond_close := by
    intro x
    unfold bond_close bond_unregister_hoolock
    dsimp only
    split_ifs <;> exact Still.of_shape rfl rfl rfl rfl
  have hstop : Still w (w.setDev w.bond.dev fun dev => { dev with running := false }) :=
    still_setDev w _ (fun _ => ⟨rfl, rfl, fun h => h⟩)
  unfold close_bond
  split_ifs
  · exact Still.refl w
  · exact (hstop.trans (hclose _)).trans (still_setDev _ _ (fun _ => ⟨rfl, rfl, fun _ => rfl⟩))

omit [Siblings] in
theorem Inv.still_break {w v : World} {l : List SlaveId} (h : w.Inv l) {env : Skb → PassEnv}
    {r : Int} (hv : w.bond_ioctl_break env = some (r, v)) : Still w v := by
  rw [break_empty h.empty, Option.some.injEq, Prod.mk.injEq] at hv
  obtain ⟨-, rfl⟩ := hv
  have hlock := ((still_lock w .pbuff .write).trans (still_lock _ .bond .read)).trans
    (still_lock _ .curr_slave .write)
  have hset : ∀ x : World, Still x (x.setBond fun b => { b with buffer_mode := 0 }) :=
    fun x => Still.of_shape rfl rfl rfl rfl
  have hunlock := ((hlock.trans (hset _)).trans (still_unlock _ .curr_slave .write)).trans
    (still_unlock _ .bond .read)
  exact hunlock.trans (still_unlock _ .pbuff .write)

theorem Inv.destroy_swaps {w : World} {l : List SlaveId} (h : w.Inv l) :
    Swapping (w.active_dev ≠ none) w w.bond_destroy := by
  have hclose := still_close_bond w
  have hrelease := h.close_bond.release_all_swaps
  rw [hclose.active] at hrelease
  exact (Swapping.still hclose).trans hrelease

/-- When an event may change the active slave. -/
def Moves (w : World) : Event → Prop
  | .enslave _ _ => w.bond.curr_active_slave = none
  | .release d => w.active_dev = some d
  | .release_all | .destroy | .free_all => w.active_dev ≠ none
  | .make => w.passive_slave ≠ none
  | .change_active d => w.Changes d
  | .test d => w.ChangesTo d
  | .mii_monitor | .arp_monitor _ => w.bond.kill_timers = false
  | _ => False

/-- Every event but the opening of the bond moves its filter along with the active slave and
leaves the bond down if it was. -/
theorem Inv.step_swaps {w v : World} {l : List SlaveId} (h : w.Inv l) {e : Event}
    (he : e ≠ .open_bond) (hv : w.step e = some v) : Swapping (w.Moves e) w v := by
  cases e with
  | open_bond => exact absurd rfl he
  | close_bond =>
    cases hv
    exact .still (still_close_bond w)
  | enslave env d =>
    simp only [World.step] at hv
    split_ifs at hv with hcond
    obtain ⟨hd, hfresh, hret⟩ := hcond
    cases hv
    exact h.enslave_swaps hd hfresh hret
  | release d =>
    simp only [World.step] at hv
    split_ifs at hv with hret
    cases hv
    exact h.release_swaps hret
  | release_all =>
    cases hv
    exact h.release_all_swaps
  | make =>
    cases hv
    exact h.make_swaps
  | brk env =>
    obtain ⟨⟨r, x⟩, hr, rfl⟩ := Option.map_eq_some_iff.mp hv
    exact .still (h.still_break hr)
  | change_active d =>
    cases hv
    exact h.change_active_swaps d
  | test d =>
    cases hv
    exact h.test_swaps d
  | arrive env skb =>
    simp only [World.step] at hv
    split_ifs at hv
    cases hv
    exact .still (Still.of_sansTraffic (receive_sansTraffic w env skb))
  | xmit env =>
    obtain ⟨⟨r, x⟩, hr, rfl⟩ := Option.map_eq_some_iff.mp hv
    exact .still (Still.of_sansTraffic (xmit_sansTraffic hr))
  | mii_monitor =>
    simp only [World.step] at hv
    split_ifs at hv
    cases hv
    exact h.mii_monitor_swaps
  | arp_monitor delta =>
    simp only [World.step] at hv
    split_ifs at hv
    cases hv
    exact h.arp_mon_swaps delta
  | device d r =>
    simp only [World.step] at hv
    split_ifs at hv with hd
    cases hv
    exact .still (still_other w hd fun _ => rfl)
  | address master_ip =>
    cases hv
    exact .still (Still.of_shape rfl rfl rfl rfl)
  | tick j =>
    cases hv
    exact .still (Still.of_shape rfl rfl rfl rfl)
  | destroy =>
    cases hv
    exact h.destroy_swaps
  | free_all =>
    cases hv
    have hkill : Still w (((w.lock .bond .write).setBond fun b =>
        { b with kill_timers := true }).unlock .bond .write) := by
      have hset : Still (w.lock .bond .write) ((w.lock .bond .write).setBond fun b =>
          { b with kill_timers := true }) := Still.of_shape rfl rfl rfl rfl
      exact ((still_lock _ _ _).trans hset).trans (still_unlock _ _ _)
    have hkilled : ((w.lock .bond .write).setBond fun b => { b with kill_timers := true }).Inv l :=
      (h.lock .bond .write).congr_pointers rfl rfl
    obtain ⟨hinv, hnone⟩ := (hkilled.unlock .bond .write).release_all
    have hrelease := (hkilled.unlock .bond .write).release_all_swaps
    rw [hkill.active] at hrelease
    have hdestroy := hinv.destroy_swaps.is_still (by
      unfold active_dev
      rw [hnone]
      exact fun hne => hne rfl)
    exact ((Swapping.still hkill).trans hrelease).trans (.still hdestroy)

end World

end Hoolock
