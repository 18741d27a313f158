import Hoolock.Reachable

set_option autoImplicit false

namespace Hoolock

namespace World

variable [Siblings]

omit [Siblings] in
theorem Ring.released {w v : World} {l : List SlaveId} {s : SlaveId} (h : w.Ring l) (hs : s ∈ l)
    (hv : v.shape = (w.shape.detach s).free s) : v.Ring (l.erase s) := by
  obtain ⟨m, k, hsm, rfl⟩ : ∃ m k, s ∉ m ∧ l = m ++ s :: k := by
    obtain ⟨m, k, hl, hsm⟩ := List.eq_append_cons_of_mem hs
    exact ⟨m, k, hsm, hl⟩
  rw [List.erase_append_right _ hsm, List.erase_cons_head]
  refine ((Ring.detach h).congr ?_ ?_ ?_)
  · exact (congrArg Shape.links hv)
  · exact (congrArg Shape.first_slave hv)
  · exact (congrArg Shape.slave_cnt hv)

/-- The slave `s` has left: its record is off the ring and its device is free again. -/
structure Left (w v : World) (s : SlaveId) : Prop where
  port : v.port = w.port
  mode : v.bond.params.mode = w.bond.params.mode
  dev : v.bond.dev = w.bond.dev
  pbuff : v.bond.pbuff = w.bond.pbuff
  shape : v.shape = (w.shape.detach s).free s
  owners : v.owners = fun e => if e = (w.slaves s).dev then (false, none) else w.owners e

omit [Siblings] in
theorem Inv.after_release {w v : World} {l : List SlaveId} (h : w.Inv l) {s : SlaveId}
    (hs : s ∈ l) (hl : Left w v s) (ha : ∀ t, v.bond.curr_active_slave = some t → t ∈ l.erase s)
    (hp : ∀ t, v.bond.primary_slave = some t → t ∈ l.erase s) : v.Inv (l.erase s) := by
  have hmem : ∀ t, t ∈ l.erase s ↔ t ≠ s ∧ t ∈ l := fun t => h.nodup.mem_erase_iff
  have hdev : ∀ t, (v.slaves t).dev = (w.slaves t).dev := congrFun (congrArg Shape.dev hl.shape)
  have hlive : ∀ t, v.live t = if t = s then false else w.live t :=
    congrFun (congrArg Shape.live hl.shape)
  have hother : ∀ t ∈ l, t ≠ s → (w.slaves t).dev ≠ (w.slaves s).dev :=
    fun t ht hts e => hts (h.distinct s hs t ht e)
  refine
    { toRing := h.toRing.released hs hl.shape, active := ha, primary := hp
      port := hl.port.trans h.port, mode := hl.mode.trans h.mode
      live := fun t ht => ?_, owned := fun t ht => ?_, foreign := fun t ht => ?_
      distinct := fun t ht u hu => ?_, enslaved := fun e hown => ?_
      empty := hl.pbuff.trans h.empty }
  · obtain ⟨hts, ht⟩ := (hmem t).mp ht
    simp [hlive, hts, h.live t ht]
  · obtain ⟨hts, ht⟩ := (hmem t).mp ht
    simp [hl.owners, hdev, hother t ht hts, hl.dev, h.owned t ht]
  · obtain ⟨_, ht⟩ := (hmem t).mp ht
    rw [hdev, hl.dev]
    exact h.foreign t ht
  · obtain ⟨_, ht⟩ := (hmem t).mp ht
    obtain ⟨_, hu⟩ := (hmem u).mp hu
    rw [hdev, hdev]
    exact h.distinct t ht u hu
  · rw [hl.owners, hl.dev] at hown
    by_cases he : e = (w.slaves s).dev
    · simp [he] at hown
    · simp only [he, if_false] at hown
      obtain ⟨t, ht, htd⟩ := h.enslaved e hown
      refine ⟨t, (hmem t).mpr ⟨?_, ht⟩, (hdev t).trans htd⟩
      rintro rfl
      exact he htd.symm

omit [Siblings] in
theorem release_device_bond (w : World) (s : SlaveId) (d : DevId) (r : Bool) :
    (w.release_device s d r).bond = w.bond := by
  have hfilter : ∀ x : World, (x.release_filter d).bond = x.bond := by
    intro x
    unfold release_filter
    dsimp only
    split_ifs <;> rfl
  unfold release_device
  dsimp only
  split_ifs <;> exact hfilter w.bond_del_vlans_from_slave

omit [Siblings] in
theorem release_device_owners (w : World) (s : SlaveId) (d : DevId) (r : Bool) :
    (w.release_device s d r).owners = fun e => if e = d then (false, none) else w.owners e := by
  have hmaster : ∀ x : World, (x.onDev d (netdev_set_master none)).2.owners =
      fun e => if e = d then (false, none) else x.owners e := by
    intro x
    funext e
    by_cases he : e = d
    · simp [owners, onDev, setDev, he, netdev_set_master, NetDevice.owner]
    · simp [owners, onDev, setDev, he]
  have hrest : ∀ x : World, (x.setDev d dev_close).owners = x.owners :=
    fun x => owners_setDev _ _ _ dev_close_owner
  have hfilter : (w.bond_del_vlans_from_slave.release_filter d).owners = w.owners :=
    release_filter_owners _ _
  unfold release_device
  dsimp only
  split_ifs
  · rw [restore_mac_owners, hrest, hmaster, hfilter]
  · rw [hrest, hmaster, hfilter]

omit [Siblings] in
theorem usable_congr {v w : World} {t : SlaveId} (hd : SameDevsBut w.bond.dev v w)
    (hp : v.bond.params = w.bond.params) (ht : (w.slaves t).dev ≠ w.bond.dev)
    (hs : (v.slaves t).dev = (w.slaves t).dev ∧ (v.slaves t).link = (w.slaves t).link ∧
      (v.slaves t).delay = (w.slaves t).delay) : v.Usable t ↔ w.Usable t := by
  obtain ⟨hdev, hlink, hdelay⟩ := hs
  have hup : IS_UP (v.slave_dev t) = IS_UP (w.slave_dev t) := by
    unfold slave_dev
    rw [hdev]
    exact hd.is_up ht
  unfold Usable
  rw [hup, hlink, hdelay, hp]

theorem release_master_spec {w : World} (h : w.bond.params.mode = .hoolock) :
    w.release_master.bond = w.bond ∧ w.release_master.owners = w.owners := by
  have hclear : ∀ x : World, x.clear_master.bond = x.bond := by
    intro x
    unfold clear_master
    dsimp only
    split_ifs <;> rfl
  unfold release_master
  split_ifs
  · exact ⟨(hclear _).trans (set_carrier_bond h),
      (clear_master_owners _).trans (set_carrier_owners h)⟩
  · exact ⟨rfl, setFeatures_owners _ _⟩
  · exact ⟨rfl, rfl⟩

/-- The active slave after `release_detach`: the old one when another slave has left,
else the one chosen among those that stay. -/
structure Reselected (w v : World) (l : List SlaveId) (s : SlaveId) : Prop where
  kept : w.bond.curr_active_slave ≠ some s →
    v.bond.curr_active_slave = w.bond.curr_active_slave
  none : w.bond.curr_active_slave = some s →
    (v.bond.curr_active_slave = none ↔ ∀ t ∈ l.erase s, ¬ w.Usable t)
  mem : w.bond.curr_active_slave = some s →
    ∀ t, v.bond.curr_active_slave = some t → t ∈ l.erase s

theorem release_detach_hoolock {w : World} (h : w.bond.params.mode = .hoolock) (s : SlaveId) :
    w.release_detach s =
      if w.bond.curr_active_slave = some s then
        ((((w.bond_detach_slave s).bond_compute_features.release_pointers
          s).bond_change_active_slave none).release_reselect).release_master
      else ((w.bond_detach_slave s).bond_compute_features.release_pointers s).release_master := by
  have hunbind : w.release_unbind s = w := by
    unfold release_unbind
    simp [h]
  have halb : ∀ x : World, x.bond.params.mode = .hoolock → x.release_alb s = x := by
    intro x hx
    unfold release_alb
    simp [hx]
  obtain ⟨a, ha⟩ : ∃ a, a = (w.bond_detach_slave s).bond_compute_features.release_pointers s :=
    ⟨_, rfl⟩
  have ham : a.bond.params.mode = .hoolock := by
    rw [ha]
    exact h
  unfold release_detach
  dsimp only
  rw [hunbind, ← ha]
  rw [halb a ham, halb _ (by rw [change_active_bond ham]; exact ham)]

theorem detached_members {w : World} {l : List SlaveId} (hm : w.bond.params.mode = .hoolock)
    (h : w.Members l) {s : SlaveId} (hs : s ∈ l) {a x : World}
    (ha : a = (w.bond_detach_slave s).bond_compute_features.release_pointers s)
    (hx : x = (((a.bond_change_active_slave none).unlock .bond .write).lock .bond .read).lock
      .curr_slave .write) :
    x.bond = { a.bond with curr_active_slave := none } ∧ x.Members (l.erase s) := by
  have ham : a.bond.params.mode = .hoolock := by
    rw [ha]
    exact hm
  have hap : a.bond.primary_slave =
      if w.bond.primary_slave = some s then none else w.bond.primary_slave := by
    rw [ha]
    rfl
  have hxb : x.bond = { a.bond with curr_active_slave := none } := by
    rw [hx]
    exact change_active_bond ham none
  have hxring : x.Ring (l.erase s) := by
    refine h.toRing.released hs (v := x.kfree_slave s) ?_ |>.congr rfl rfl rfl
    rw [shape_kfree]
    congr 1
    simp [hx, ha]
  refine ⟨hxb, { toRing := hxring, active := fun t ht => ?_, primary := fun t ht => ?_ }⟩
  · rw [hxb] at ht
    cases ht
  · rw [hxb] at ht
    have ht : a.bond.primary_slave = some t := ht
    rw [hap] at ht
    split_ifs at ht with hps
    refine h.nodup.mem_erase_iff.mpr ⟨?_, h.primary t ht⟩
    exact fun e => hps (e ▸ ht)

theorem detached_usable {w : World} {l : List SlaveId} (hm : w.bond.params.mode = .hoolock)
    (hfor : ∀ t ∈ l, (w.slaves t).dev ≠ w.bond.dev) {s : SlaveId} {a x : World}
    (ha : a = (w.bond_detach_slave s).bond_compute_features.release_pointers s)
    (hx : x = (((a.bond_change_active_slave none).unlock .bond .write).lock .bond .read).lock
      .curr_slave .write) (hxb : x.bond = { a.bond with curr_active_slave := none }) :
    ∀ t ∈ l.erase s, (x.Usable t ↔ w.Usable t) := by
  intro t ht
  have ham : a.bond.params.mode = .hoolock := by
    rw [ha]
    exact hm
  have hxs : x.slaves t = a.slaves t := by
    have hsame := change_active_slaves ham none t
    rw [hx]
    simp only [reduceCtorEq, false_and, if_false] at hsame
    exact hsame
  refine usable_congr ?_ ?_ (hfor t (List.mem_of_mem_erase ht)) ?_
  · intro d hd
    have hchange := change_active_devs ham none d
    have hdetach : a.devs d = w.devs d := by
      rw [ha]
      simp [release_pointers, bond_compute_features, setDev, setBond, bond_detach_slave,
        setLinks, hd]
    rw [hx]
    exact hchange.trans (congrArg NetDevice.sansFilter hdetach)
  · rw [hxb, ha]
    rfl
  · rw [hxs, ha]
    exact ⟨rfl, rfl, rfl⟩

theorem release_reselect_spec {a x : World} (ham : a.bond.params.mode = .hoolock)
    (hx : x = (((a.bond_change_active_slave none).unlock .bond .write).lock .bond .read).lock
      .curr_slave .write) (hxm : x.bond.params.mode = .hoolock) :
    (a.bond_change_active_slave none).release_reselect.bond =
        { x.bond with curr_active_slave := x.bond_find_best_slave } ∧
      (a.bond_change_active_slave none).release_reselect.owners = a.owners := by
  have hxo : x.owners = (a.bond_change_active_slave none).owners := by
    rw [hx]
    rfl
  unfold release_reselect
  dsimp only
  rw [← hx]
  refine ⟨select_active_bond hxm, ?_⟩
  exact (select_active_owners hxm).trans (hxo.trans (change_active_owners ham none))

theorem release_detach_spec {w : World} {l : List SlaveId} (hm : w.bond.params.mode = .hoolock)
    (h : w.Members l) (hfor : ∀ t ∈ l, (w.slaves t).dev ≠ w.bond.dev) {s : SlaveId}
    (hs : s ∈ l) :
    (w.release_detach s).owners = w.owners ∧
    (w.release_detach s).bond.primary_slave =
      (if w.bond.primary_slave = some s then none else w.bond.primary_slave) ∧
    Reselected w (w.release_detach s) l s := by
  obtain ⟨a, ha⟩ : ∃ a, a = (w.bond_detach_slave s).bond_compute_features.release_pointers s :=
    ⟨_, rfl⟩
  have ham : a.bond.params.mode = .hoolock := by
    rw [ha]
    exact hm
  have hao : a.owners = w.owners := by
    rw [ha]
    exact compute_features_owners (w.bond_detach_slave s)
  have hap : a.bond.primary_slave =
      if w.bond.primary_slave = some s then none else w.bond.primary_slave := by
    rw [ha]
    rfl
  have haa : a.bond.curr_active_slave = w.bond.curr_active_slave := by
    rw [ha]
    rfl
  rw [release_detach_hoolock hm, ← ha]
  by_cases hact : w.bond.curr_active_slave = some s
  · rw [if_pos hact]
    obtain ⟨x, hx⟩ : ∃ x, x = (((a.bond_change_active_slave none).unlock .bond .write).lock .bond
        .read).lock .curr_slave .write := ⟨_, rfl⟩
    obtain ⟨hxb, hxmem⟩ := detached_members hm h hs ha hx
    have hxm : x.bond.params.mode = .hoolock := by
      rw [hxb]
      exact ham
    obtain ⟨hyb, hyo⟩ := release_reselect_spec ham hx hxm
    obtain ⟨y, hy⟩ : ∃ y, y = (a.bond_change_active_slave none).release_reselect := ⟨_, rfl⟩
    rw [← hy] at hyb hyo ⊢
    have hym : y.bond.params.mode = .hoolock := by
      rw [hyb]
      exact hxm
    obtain ⟨hmb, hmo⟩ := release_master_spec hym
    have hus := detached_usable hm hfor ha hx hxb
    have hbest := hxmem.find_best_slave
    have hva : y.release_master.bond.curr_active_slave = x.bond_find_best_slave := by
      rw [hmb, hyb]
    refine ⟨hmo.trans (hyo.trans hao), ?_, fun hne => absurd hact hne, fun _ => ?_, fun _ => ?_⟩
    · rw [hmb, hyb, hxb]
      exact hap
    · rw [hva, hbest.1]
      exact forall₂_congr fun t ht => not_congr (hus t ht)
    · rw [hva]
      exact hbest.2
  · rw [if_neg hact]
    obtain ⟨hmb, hmo⟩ := release_master_spec ham
    refine ⟨hmo.trans hao, ?_, fun _ => ?_, fun he => absurd he hact, fun he => absurd he hact⟩
    · rw [hmb, hap]
    · rw [hmb, haa]

theorem Inv.release_eq {w v : World} {l : List SlaveId} {d : DevId} (h : w.Inv l)
    (hr : w.bond_release d = (0, v)) :
    ∃ s ∈ l, (w.slaves s).dev = d ∧ v.shape = (w.shape.detach s).free s ∧ ∃ r : Bool,
      v = (((((w.lock .bond .write).release_detach s).unlock .bond .write).release_device s d
        r).setDev d fun dev =>
          { dev with slave_inactive := false, bonding := false, slave_needarp := false }).kfree_slave
            s := by
  have hmaster : (w.devs d).iff_slave = true ∧ (w.devs d).master = some w.bond.dev := by
    by_contra hne
    unfold bond_release at hr
    rw [if_pos] at hr
    · simp [EINVAL] at hr
    · by_cases hi : (w.devs d).iff_slave = true
      · exact Or.inr fun hm => hne ⟨hi, hm⟩
      · simp [hi]
  obtain ⟨s, hs, hsd⟩ := h.enslaved d hmaster.2
  have hfind : w.bond_get_slave_by_dev d = some s := hsd ▸ h.get_slave hs
  obtain ⟨s', hs', hshape⟩ := shape_bond_release hr
  obtain rfl : s = s' := Option.some.inj (hfind.symm.trans hs')
  refine ⟨s, hs, hsd, hshape, ?_⟩
  have hlock : (w.lock .bond .write).bond_get_slave_by_dev d = some s := hfind
  unfold bond_release at hr
  simp only [hmaster, Bool.not_true, ne_eq, not_true_eq_false, or_self, if_false, hlock,
    Bool.false_eq_true] at hr
  exact ⟨_, (Prod.mk.inj hr).2.symm⟩

theorem Inv.release {w v : World} {l : List SlaveId} {d : DevId} (h : w.Inv l)
    (hr : w.bond_release d = (0, v)) :
    ∃ s ∈ l, (w.slaves s).dev = d ∧ Left w v s ∧ Reselected w v l s ∧ v.Inv (l.erase s) := by
  obtain ⟨s, hs, hsd, hshape, r, hrest⟩ := h.release_eq hr
  have hcore : v.core = w.core := by
    have := core_bond_release w d
    rw [hr] at this
    exact this
  obtain ⟨x, hx⟩ : ∃ x, x = (w.lock .bond .write).release_detach s := ⟨_, rfl⟩
  have hmem : (w.lock .bond .write).Members l :=
    { toRing := h.toRing.congr rfl rfl rfl, active := h.active, primary := h.primary }
  obtain ⟨hxo, hxp, hxr⟩ := release_detach_spec (w := w.lock .bond .write) h.mode hmem h.foreign hs
  rw [← hx] at hrest hxo hxp hxr
  have hvb : v.bond = x.bond := by
    rw [hrest]
    exact release_device_bond _ _ _ _
  have hvo : v.owners = fun e => if e = (w.slaves s).dev then (false, none) else w.owners e := by
    have h1 : v.owners = ((x.unlock .bond .write).release_device s d r).owners := by
      rw [hrest]
      exact owners_setDev ((x.unlock .bond .write).release_device s d r) d (fun dev =>
        { dev with slave_inactive := false, bonding := false, slave_needarp := false }) fun _ => rfl
    rw [h1, release_device_owners, hsd]
    funext e
    exact congrArg (fun o => if e = d then (false, none) else o) (congrFun hxo e)
  have hleft : Left w v s :=
    { port := congrArg Core.port hcore, mode := congrArg Core.mode hcore
      dev := congrArg Core.dev hcore, pbuff := congrArg Core.pbuff hcore
      shape := hshape, owners := hvo }
  have hres : Reselected w v l s :=
    { kept := fun hne => by
        rw [hvb]
        exact hxr.kept hne
      none := fun he => by
        rw [hvb]
        exact hxr.none he
      mem := fun he => by
        rw [hvb]
        exact hxr.mem he }
  have hne : ∀ t ∈ l, t ≠ s → t ∈ l.erase s := fun t ht hts => h.nodup.mem_erase_iff.mpr ⟨hts, ht⟩
  refine ⟨s, hs, hsd, hleft, hres, h.after_release hs hleft (fun t ht => ?_) fun t ht => ?_⟩
  · by_cases hact : w.bond.curr_active_slave = some s
    · exact hres.mem hact t ht
    · rw [hres.kept hact] at ht
      exact hne t (h.active t ht) fun e => hact (e ▸ ht)
  · rw [hvb, hxp] at ht
    split_ifs at ht with hps
    exact hne t (h.primary t ht) fun e => hps (e ▸ ht)

theorem release_first_left {w : World} {l : List SlaveId} {s : SlaveId} (h : w.Inv (s :: l)) :
    Left w (w.release_first s) s ∧ (w.release_first s).pointers = w.pointers := by
  have hcore := core_release_first w s
  have hm := h.mode
  obtain ⟨x, hx⟩ : ∃ x, x = ((w.bond_detach_slave s).unlock .bond .write).bond_compute_features :=
    ⟨_, rfl⟩
  have hxo : x.owners = w.owners := by
    rw [hx]
    exact compute_features_owners _
  have hxm : (w.bond_detach_slave s).bond.params.mode = .hoolock := hm
  obtain ⟨r, hr⟩ : ∃ r : Bool, w.release_first s = (((x.release_device s (w.slaves s).dev r).setDev
      (w.slaves s).dev fun dev => { dev with slave_inactive := false }).kfree_slave s).lock .bond
        .write := by
    refine ⟨x.bond.params.fail_over_mac == FailOverMac.none, ?_⟩
    unfold release_first release_unbind
    simp only [hm, reduceCtorEq, if_false, hx]
    have hmode : ((w.bond_detach_slave s).unlock .bond .write).bond.params.mode = .hoolock := hm
    simp only [hmode, reduceCtorEq, or_self, if_false]
  refine ⟨?_, ?_⟩
  · refine
      { port := congrArg Core.port hcore, mode := congrArg Core.mode hcore
        dev := congrArg Core.dev hcore, pbuff := congrArg Core.pbuff hcore
        shape := shape_release_first w s, owners := ?_ }
    rw [hr]
    have h1 := owners_setDev (x.release_device s (w.slaves s).dev r) (w.slaves s).dev
      (fun dev => { dev with slave_inactive := false }) fun _ => rfl
    rw [release_device_owners, hxo] at h1
    exact h1
  · rw [hr]
    have h1 : (x.release_device s (w.slaves s).dev r).bond = x.bond := release_device_bond _ _ _ _
    have h2 : x.pointers = w.pointers := by
      rw [hx]
      rfl
    exact (congrArg (fun b : Bonding => (b.curr_active_slave, b.primary_slave)) h1).trans h2

theorem Inv.release_each {w : World} {l : List SlaveId} (h : w.Inv l)
    (hp : w.pointers = (none, none)) :
    (release_each l.length w).Inv [] ∧ (release_each l.length w).pointers = (none, none) := by
  induction l generalizing w with
  | nil => exact ⟨h, hp⟩
  | cons s rest ih =>
    have hf : w.bond.first_slave = some s := h.head
    obtain ⟨hleft, hptr⟩ := release_first_left h
    rw [hp] at hptr
    have hact : (w.release_first s).bond.curr_active_slave = none := congrArg Prod.fst hptr
    have hprim : (w.release_first s).bond.primary_slave = none := congrArg Prod.snd hptr
    have hinv := h.after_release (by simp) hleft
      (fun t ht => absurd (hact.symm.trans ht) (by simp))
      fun t ht => absurd (hprim.symm.trans ht) (by simp)
    rw [List.erase_cons_head] at hinv
    have hstep : World.release_each (s :: rest).length w =
        World.release_each rest.length (w.release_first s) := by
      simp only [List.length_cons, World.release_each, hf]
    rw [hstep]
    exact ih hinv hptr

theorem release_all_eq (w : World) : ∃ x y : World,
    x = (w.lock .bond .write).netif_carrier_off (w.lock .bond .write).bond.dev ∧
    y = (x.setBond fun b =>
      { b with current_arp_slave := none, primary_slave := none }).bond_change_active_slave none ∧
    w.bond_release_all.2 = if x.bond.slave_cnt = 0 then x.unlock .bond .write
      else (World.release_each y.bond.slave_cnt.toNat y).clear_master.unlock .bond .write := by
  refine ⟨_, _, rfl, rfl, ?_⟩
  unfold bond_release_all
  dsimp only
  split_ifs <;> rfl

theorem Inv.release_all {w : World} {l : List SlaveId} (h : w.Inv l) :
    w.bond_release_all.2.Inv [] ∧ w.bond_release_all.2.bond.curr_active_slave = none := by
  obtain ⟨x, y, hx, hy, hall⟩ := release_all_eq w
  have hxo : x.owners = w.owners := by
    rw [hx]
    exact owners_setDev (w.lock .bond .write) w.bond.dev (fun dev => { dev with carrier := false })
      fun _ => rfl
  have hxi : x.Inv l := by
    refine h.congr_pointers ?_ (by rw [hx]; rfl)
    unfold base
    rw [hxo, hx]
    rfl
  have hcnt : x.bond.slave_cnt = l.length := hxi.count
  rw [hall]
  by_cases hz : x.bond.slave_cnt = 0
  · have hl : l = [] := by
      rw [hz] at hcnt
      exact List.length_eq_zero_iff.mp (by omega)
    subst hl
    rw [if_pos hz]
    refine ⟨hxi.congr_pointers rfl rfl, ?_⟩
    cases ha : x.bond.curr_active_slave with
    | none => exact ha
    | some a => exact absurd (hxi.active a ha) (by simp)
  · rw [if_neg hz]
    have hxm : (x.setBond fun b => { b with current_arp_slave := none, primary_slave := none
        }).bond.params.mode = .hoolock := hxi.mode
    have hyb := change_active_bond hxm none
    rw [← hy] at hyb
    have hyptr : y.pointers = (none, none) := by
      unfold pointers
      rw [hyb]
      rfl
    have hybase : y.base = x.base := by
      refine base_of ?_ ?_ ?_
      · rw [hy, core_change_active]
        rfl
      · rw [hy, shape_change_active]
        rfl
      · rw [hy, change_active_owners hxm]
        rfl
    have hyi : y.Inv l := by
      refine hxi.congr hybase (fun t ht => ?_) fun t ht => ?_
      · exact absurd ((congrArg Prod.fst hyptr).symm.trans ht) (by simp)
      · exact absurd ((congrArg Prod.snd hyptr).symm.trans ht) (by simp)
    have hlen : y.bond.slave_cnt.toNat = l.length := by
      rw [hyi.count]
      simp
    rw [hlen]
    obtain ⟨hri, hrp⟩ := hyi.release_each hyptr
    obtain ⟨z, hz⟩ : ∃ z, z = World.release_each l.length y := ⟨_, rfl⟩
    rw [← hz] at hri hrp ⊢
    have hcb : z.clear_master.bond = z.bond := by
      unfold clear_master
      dsimp only
      split_ifs <;> rfl
    have hzb : (z.clear_master.unlock .bond .write).base = z.base := by
      refine (base_of ?_ ?_ ?_ : z.clear_master.base = z.base)
      · simp
      · simp
      · exact clear_master_owners z
    refine ⟨hri.congr_pointers hzb ?_, ?_⟩
    · exact congrArg (fun b : Bonding => (b.curr_active_slave, b.primary_slave)) hcb
    · exact (congrArg Bonding.curr_active_slave hcb).trans (congrArg Prod.fst hrp)

end World

end Hoolock
