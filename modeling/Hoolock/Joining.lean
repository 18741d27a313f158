import Hoolock.Reachable

set_option autoImplicit false

namespace Hoolock

theorem Shape.attach_dev (S : Shape) (s : SlaveId) :
    (S.attach s).dev = S.dev ∧ (S.attach s).live = S.live := by
  unfold Shape.attach
  cases S.first_slave <;> exact ⟨rfl, rfl⟩

namespace World

variable [Siblings]

omit [Siblings] in
theorem active_flags_owners (w : World) (s : SlaveId) :
    (w.bond_set_slave_active_flags s).owners = w.owners := by
  unfold bond_set_slave_active_flags
  exact owners_setDev _ _ _ fun _ => rfl

theorem enslave_mode_hoolock {w : World} (h : w.bond.params.mode = .hoolock) (s : SlaveId) :
    w.enslave_mode s = if w.bond.curr_active_slave = none then
      (w.bond_set_slave_active_flags s).bond_change_active_slave (some s)
    else w.bond_set_slave_active_flags s := by
  unfold enslave_mode
  simp only [h]
  rfl

theorem enslave_mode_owners {w : World} (h : w.bond.params.mode = .hoolock) (s : SlaveId) :
    (w.enslave_mode s).owners = w.owners := by
  have hm : (w.bond_set_slave_active_flags s).bond.params.mode = .hoolock := h
  rw [enslave_mode_hoolock h]
  split_ifs
  · rw [change_active_owners hm, active_flags_owners]
  · exact active_flags_owners w s

theorem enslave_mode_bond {w : World} (h : w.bond.params.mode = .hoolock) (s : SlaveId) :
    (w.enslave_mode s).bond =
      { w.bond with curr_active_slave := some (w.bond.curr_active_slave.getD s) } := by
  have hm : (w.bond_set_slave_active_flags s).bond.params.mode = .hoolock := h
  rw [enslave_mode_hoolock h]
  cases ha : w.bond.curr_active_slave with
  | none =>
    simp only [if_true]
    rw [change_active_bond hm]
    rfl
  | some a =>
    simp only [reduceCtorEq, if_false, Option.getD_some]
    rw [← ha]
    rfl

omit [Siblings] in
theorem attach_slave_pointers (w : World) (s : SlaveId) :
    (w.bond_attach_slave s).pointers = w.pointers := by
  unfold bond_attach_slave
  cases w.bond.first_slave <;> rfl

omit [Siblings] in
theorem attach_slave_owners (w : World) (s : SlaveId) :
    (w.bond_attach_slave s).owners = w.owners := by
  unfold bond_attach_slave
  cases w.bond.first_slave <;> rfl

omit [Siblings] in
theorem enslave_link_bond (w : World) (d : DevId) (s : SlaveId) :
    (w.enslave_link d s).bond = w.bond := by
  unfold enslave_link
  split_ifs <;> rfl

omit [Siblings] in
theorem enslave_link_owners (w : World) (d : DevId) (s : SlaveId) :
    (w.enslave_link d s).owners = w.owners := by
  unfold enslave_link
  split_ifs <;> rfl

omit [Siblings] in
theorem enslave_primary_spec (w : World) (s : SlaveId) :
    (w.enslave_primary s).owners = w.owners ∧
    (w.enslave_primary s).bond.curr_active_slave = w.bond.curr_active_slave ∧
    ((w.enslave_primary s).bond.primary_slave = some s ∨
      (w.enslave_primary s).bond.primary_slave = w.bond.primary_slave) := by
  unfold enslave_primary
  split_ifs
  · exact ⟨rfl, rfl, Or.inl rfl⟩
  · exact ⟨rfl, rfl, Or.inr rfl⟩

theorem enslave_attach_spec {w : World} (hp : w.port = .k27) (h : w.bond.params.mode = .hoolock)
    (d : DevId) (s : SlaveId) :
    (w.enslave_attach d s).shape = w.shape.attach s ∧
    (w.enslave_attach d s).owners = w.owners ∧
    (w.enslave_attach d s).bond.curr_active_slave = some (w.bond.curr_active_slave.getD s) ∧
    ((w.enslave_attach d s).bond.primary_slave = some s ∨
      (w.enslave_attach d s).bond.primary_slave = w.bond.primary_slave) := by
  obtain ⟨a, ha⟩ : ∃ a, a = (((w.lock .bond .write).bond_attach_slave s).setSlave s fun x =>
      { x with delay := 0, link_failure_count := 0 }).bond_compute_features := ⟨_, rfl⟩
  have hcore : a.core = w.core.lock .bond .write := by simp [ha]
  have hshape : a.shape = w.shape.attach s := by simp [ha, shape_setSlave]
  have howners : a.owners = w.owners := by
    rw [ha, compute_features_owners]
    exact attach_slave_owners (w.lock .bond .write) s
  have hptr : a.pointers = w.pointers := by
    rw [ha]
    exact attach_slave_pointers (w.lock .bond .write) s
  have hport : a.port = .k27 := (congrArg Core.port hcore).trans hp
  have hmode : a.bond.params.mode = .hoolock := (congrArg Core.mode hcore).trans h
  obtain ⟨b, hb⟩ : ∃ b, b = (((a.unlock .bond .write).lock .bond .read).enslave_link d
      s).enslave_primary s := ⟨_, rfl⟩
  have hbm : b.bond.params.mode = .hoolock := by
    refine mode_of_core (w := (a.unlock .bond .write).lock .bond .read) ?_ hmode
    simp [hb]
  obtain ⟨hbo, hba, hbp⟩ :=
    enslave_primary_spec (((a.unlock .bond .write).lock .bond .read).enslave_link d s) s
  rw [← hb] at hbo hba hbp
  rw [enslave_link_owners] at hbo
  rw [enslave_link_bond] at hba hbp
  have hv : w.enslave_attach d s = ((((b.lock .curr_slave .write).enslave_mode s).unlock
      .curr_slave .write).bond_set_carrier.2).unlock .bond .read := by
    unfold enslave_attach
    dsimp only
    rw [← ha]
    simp only [hport]
    rw [← hb]
  have hlm : (b.lock .curr_slave .write).bond.params.mode = .hoolock := hbm
  have hem := enslave_mode_bond hlm s
  have hcm : (((b.lock .curr_slave .write).enslave_mode s).unlock .curr_slave
      .write).bond.params.mode = .hoolock := by
    change ((b.lock .curr_slave .write).enslave_mode s).bond.params.mode = .hoolock
    rw [hem]
    exact hlm
  rw [hv]
  refine ⟨?_, ?_, ?_, ?_⟩
  · simp [hb, hshape]
  · refine (set_carrier_owners hcm).trans ((enslave_mode_owners hlm s).trans ?_)
    exact hbo.trans howners
  · change (((b.lock .curr_slave .write).enslave_mode s).unlock .curr_slave
      .write).bond_set_carrier.2.bond.curr_active_slave = _
    rw [set_carrier_bond hcm]
    change ((b.lock .curr_slave .write).enslave_mode s).bond.curr_active_slave = _
    rw [hem]
    change some (b.bond.curr_active_slave.getD s) = _
    rw [hba]
    exact congrArg (fun p : Option SlaveId × Option SlaveId => some (p.1.getD s)) hptr
  · change (((b.lock .curr_slave .write).enslave_mode s).unlock .curr_slave
      .write).bond_set_carrier.2.bond.primary_slave = _ ∨ (((b.lock .curr_slave
      .write).enslave_mode s).unlock .curr_slave .write).bond_set_carrier.2.bond.primary_slave = _
    rw [set_carrier_bond hcm]
    change ((b.lock .curr_slave .write).enslave_mode s).bond.primary_slave = _ ∨
      ((b.lock .curr_slave .write).enslave_mode s).bond.primary_slave = _
    rw [hem]
    have hap : a.bond.primary_slave = w.bond.primary_slave := congrArg Prod.snd hptr
    exact hap ▸ hbp

/-- What a successful enslave has done, from the state the record is allocated in. -/
structure Enslaved (w v : World) (s : SlaveId) (d : DevId) : Prop where
  shape : v.shape = (w.shape.alloc s d).attach s
  free : (w.devs d).master = none
  owners : v.owners = fun e => if e = d then (true, some w.bond.dev) else w.owners e
  active : v.bond.curr_active_slave = some (w.bond.curr_active_slave.getD s)
  primary : v.bond.primary_slave = some s ∨ v.bond.primary_slave = w.bond.primary_slave

omit [Siblings] in
theorem Enslaved.dev_slave {w v : World} {s : SlaveId} {d : DevId} (h : Enslaved w v s d)
    (x : SlaveId) : (v.slaves x).dev = if x = s then d else (w.slaves x).dev := by
  have hdev := (congrArg Shape.dev h.shape).trans (Shape.attach_dev _ s).1
  exact congrFun hdev x

omit [Siblings] in
theorem Enslaved.live_slave {w v : World} {s : SlaveId} {d : DevId} (h : Enslaved w v s d)
    (x : SlaveId) : v.live x = if x = s then true else w.live x := by
  have hlive := (congrArg Shape.live h.shape).trans (Shape.attach_dev _ s).2
  exact congrFun hlive x

theorem enslave_opened_ok {env : EnslaveEnv} {w v : World} {d : DevId} {s : SlaveId}
    {f : BitVec 64} (hp : w.port = .k27) (hm : w.bond.params.mode = .hoolock)
    (h : enslave_opened env w d s f = (0, v)) :
    v = (((w.setSlave s fun x => { x with dev := d }).setDev d fun dev =>
      { dev with bonding := true }).bond_add_vlans_on_slave).enslave_attach d s := by
  obtain ⟨u, hu⟩ : ∃ u, u = (w.setSlave s fun x => { x with dev := d }).setDev d fun dev =>
      { dev with bonding := true } := ⟨_, rfl⟩
  have hum : u.bond.params.mode = .hoolock := by
    rw [hu]
    exact hm
  have hup : u.port = .k27 := by
    rw [hu]
    exact hp
  unfold enslave_opened at h
  dsimp only at h
  rw [← hu] at h
  simp only [hum, reduceCtorEq, or_self, if_false] at h
  obtain ⟨_, h⟩ := orGoto_ok h
  unfold enslave_filter at h
  simp only [hum, hup, USES_PRIMARY, beq_self_eq_true, if_true, reduceCtorEq, if_false] at h
  obtain ⟨_, h⟩ := orGoto_ok h
  rw [← hu]
  exact (Prod.mk.inj h).2.symm

omit [Siblings] in
theorem alloc_mac_spec {w u mac : World} {d : DevId} {s : SlaveId}
    (hu : u = (w.kzalloc_slave s).setSlave s fun x =>
      { x with perm_hwaddr := (w.devs d).dev_addr.take ETH_ALEN })
    (hmac : mac = (if u.bond.params.fail_over_mac = FailOverMac.none then
        u.onDev d fun dev =>
          dev_set_mac_address (u.bond_dev.dev_addr.take u.bond_dev.addr_len) dev.type dev
      else (0, u)).2) :
    (mac.setSlave s fun x => { x with dev := d }).shape = w.shape.alloc s d ∧
      mac.bond = w.bond ∧ mac.owners = w.owners ∧ mac.port = w.port := by
  refine ⟨?_, ?_, ?_, ?_⟩
  · rw [← shape_alloc w s d (fun x => { x with perm_hwaddr := (w.devs d).dev_addr.take ETH_ALEN })
      (fun _ => rfl) (fun _ => rfl), ← hu, hmac]
    split_ifs <;> rfl
  · rw [hmac, hu]
    split_ifs <;> rfl
  · have huo : u.owners = w.owners := by
      rw [hu]
      rfl
    rw [hmac]
    split_ifs
    · rw [owners_onDev _ _ _ fun _ => dev_set_mac_address_owner _ _ _, huo]
    · exact huo
  · rw [hmac, hu]
    split_ifs <;> rfl

omit [Siblings] in
theorem set_master_ok (m : DevId) (dev : NetDevice) :
    (netdev_set_master (some m) dev).1 = 0 ↔ dev.master = none := by
  unfold netdev_set_master
  cases dev.master with
  | none => simp
  | some k => simp [EBUSY]

omit [Siblings] in
theorem set_master_owners {w : World} {d m : DevId} (hfree : (w.devs d).master = none) :
    (w.onDev d (netdev_set_master (some m))).2.owners =
      fun e => if e = d then (true, some m) else w.owners e := by
  funext e
  by_cases he : e = d
  · simp [owners, onDev, setDev, he, netdev_set_master, hfree, NetDevice.owner]
  · simp [owners, onDev, setDev, he]

theorem enslave_alloc_ok {env : EnslaveEnv} {w v : World} {d : DevId} {s : SlaveId}
    {f : BitVec 64} (hp : w.port = .k27) (hm : w.bond.params.mode = .hoolock)
    (h : enslave_alloc env w d s f = (0, v)) : Enslaved w v s d := by
  unfold enslave_alloc at h
  dsimp only at h
  obtain ⟨u, hu⟩ : ∃ u, u = (w.kzalloc_slave s).setSlave s fun x =>
      { x with perm_hwaddr := (w.devs d).dev_addr.take ETH_ALEN } := ⟨_, rfl⟩
  rw [← hu] at h
  obtain ⟨_, h⟩ := orGoto_ok h
  obtain ⟨mac, hmac⟩ : ∃ mac, mac = (if u.bond.params.fail_over_mac = FailOverMac.none then
      u.onDev d fun dev =>
        dev_set_mac_address (u.bond_dev.dev_addr.take u.bond_dev.addr_len) dev.type dev
    else (0, u)).2 := ⟨_, rfl⟩
  rw [← hmac] at h
  obtain ⟨hshape, hbond, howners, hport⟩ := alloc_mac_spec hu hmac
  obtain ⟨hmaster, h⟩ := orGoto_ok h
  obtain ⟨_, h⟩ := orGoto_ok h
  have hfree : (mac.devs d).master = none := (set_master_ok _ _).mp hmaster
  have hset := set_master_owners (m := mac.bond.dev) hfree
  obtain ⟨o, ho⟩ : ∃ o, o = ((mac.onDev d (netdev_set_master (some mac.bond.dev))).2.onDev d
      (dev_open env.open_slave)).2 := ⟨_, rfl⟩
  rw [← ho] at h
  have hom : o.bond.params.mode = .hoolock := by
    rw [ho]
    exact (congrArg (fun b => b.params.mode) hbond).trans hm
  have hop : o.port = .k27 := by
    rw [ho]
    exact hport.trans hp
  have hv := enslave_opened_ok hop hom h
  obtain ⟨q, hq⟩ : ∃ q, q = ((o.setSlave s fun x => { x with dev := d }).setDev d fun dev =>
      { dev with bonding := true }).bond_add_vlans_on_slave := ⟨_, rfl⟩
  rw [← hq] at hv
  have hqb : q.bond = w.bond := by
    rw [hq, ho]
    exact hbond
  have hqs : q.shape = w.shape.alloc s d := by
    rw [hq, ho]
    exact hshape
  have hqo : q.owners = fun e => if e = d then (true, some w.bond.dev) else w.owners e := by
    have hopen : o.owners = _ :=
      ho ▸ (owners_onDev _ d (dev_open env.open_slave) fun _ => dev_open_owner _ _).trans hset
    have hbonding : q.owners = o.owners := by
      rw [hq]
      exact owners_setDev (o.setSlave s fun x => { x with dev := d }) d
        (fun dev => { dev with bonding := true }) fun _ => rfl
    rw [hbonding, hopen, howners, hbond]
  have hqp : q.port = .k27 := by
    rw [hq]
    exact hop
  have hqm : q.bond.params.mode = .hoolock := hqb ▸ hm
  obtain ⟨has, hao, haa, hap⟩ := enslave_attach_spec hqp hqm d s
  refine ⟨?_, ?_, ?_, ?_, ?_⟩
  · rw [hv, has, hqs]
  · have hd := congrFun howners d
    have := congrArg Prod.snd hd
    exact this.symm.trans hfree
  · rw [hv, hao, hqo]
  · rw [hv, haa, hqb]
  · rw [hv]
    exact hqb ▸ hap

theorem bond_enslave_ok {env : EnslaveEnv} {w v : World} {d : DevId} (hp : w.port = .k27)
    (hm : w.bond.params.mode = .hoolock) (h : bond_enslave env w d = (0, v)) :
    ∃ s, env.new_slave = some s ∧ Enslaved w v s d := by
  obtain ⟨u, hu⟩ : ∃ u, u = ((w.enslave_vlan d).enslave_type d).enslave_fom d := ⟨_, rfl⟩
  have hcore : u.core = w.core := by simp [hu]
  have hshape : u.shape = w.shape := by simp [hu]
  have hvlan : (w.enslave_vlan d).owners = w.owners ∧ (w.enslave_vlan d).pointers = w.pointers := by
    unfold enslave_vlan
    split_ifs
    · exact ⟨setFeatures_owners _ _, rfl⟩
    · exact ⟨setFeatures_owners _ _, rfl⟩
    · exact ⟨rfl, rfl⟩
  have htype : ∀ x : World, (x.enslave_type d).owners = x.owners ∧
      (x.enslave_type d).pointers = x.pointers := by
    intro x
    unfold enslave_type
    split_ifs
    · refine ⟨?_, rfl⟩
      exact owners_setDev x x.bond.dev (fun dev =>
        { dev with
          type := (x.devs d).type, hard_header_len := (x.devs d).hard_header_len
          addr_len := (x.devs d).addr_len }) fun _ => rfl
    · exact ⟨rfl, rfl⟩
  have hfom : ∀ x : World, (x.enslave_fom d).owners = x.owners ∧
      (x.enslave_fom d).pointers = x.pointers := by
    intro x
    unfold enslave_fom
    split_ifs <;> exact ⟨rfl, rfl⟩
  have ho : u.owners = w.owners := by rw [hu, (hfom _).1, (htype _).1, hvlan.1]
  have hptr : u.pointers = w.pointers := by rw [hu, (hfom _).2, (htype _).2, hvlan.2]
  unfold bond_enslave at h
  dsimp only at h
  rw [← hu] at h
  split_ifs at h
  · simp [EBUSY] at h
  · simp [EPERM] at h
  · simp [EPERM] at h
  · simp [EINVAL] at h
  · simp [EOPNOTSUPP] at h
  · cases hs : env.new_slave with
    | none =>
      rw [hs] at h
      simp [ENOMEM] at h
    | some s =>
      rw [hs] at h
      have hup : u.port = .k27 := (congrArg Core.port hcore).trans hp
      have hdev : u.bond.dev = w.bond.dev := congrArg Core.dev hcore
      have hact : u.bond.curr_active_slave = w.bond.curr_active_slave := congrArg Prod.fst hptr
      have hprim : u.bond.primary_slave = w.bond.primary_slave := congrArg Prod.snd hptr
      have hd : (u.devs d).master = (w.devs d).master := congrArg Prod.snd (congrFun ho d)
      have he := enslave_alloc_ok hup (mode_of_core hcore hm) h
      exact ⟨s, rfl, hshape ▸ he.shape, hd ▸ he.free, by rw [he.owners, hdev, ho],
        by rw [he.active, hact], hprim ▸ he.primary⟩

omit [Siblings] in
theorem Ring.enslaved {w v : World} {l : List SlaveId} {s : SlaveId} {d : DevId}
    (h : w.Ring l) (hs : s ∉ l) (hv : v.shape = (w.shape.alloc s d).attach s) :
    v.Ring (l ++ [s]) := by
  obtain ⟨a, ha⟩ : ∃ a, a = ((w.kzalloc_slave s).setSlave s id).setSlave s fun x =>
      { x with dev := d } := ⟨_, rfl⟩
  have hshape : a.shape = w.shape.alloc s d :=
    ha ▸ shape_alloc w s d id (fun _ => rfl) fun _ => rfl
  have hlinks : a.links = (w.links.setNext s none).setPrev s none := congrArg Shape.links hshape
  have hne : ∀ x ∈ l, x ≠ s := fun x hx e => hs (e ▸ hx)
  have hring : a.Ring l := by
    refine ⟨?_, ?_, ?_⟩
    · rw [hlinks]
      refine h.ring.congr_on (fun x hx => ?_) (fun x hx => ?_)
      · simp [hne x hx]
      · simp [hne x hx]
    · exact (congrArg Shape.first_slave hshape).trans h.head
    · exact (congrArg Shape.slave_cnt hshape).trans h.count
  refine (hring.attach hs).of_shape ?_
  rw [hv, shape_attach_slave, hshape]

omit [Siblings] in
theorem Inv.after_enslave {w v : World} {l : List SlaveId} (h : w.Inv l) {s : SlaveId} {d : DevId}
    (hlive : w.live s = false) (hd : d ≠ w.bond.dev) (he : Enslaved w v s d)
    (hc : v.core = w.core) : v.Inv (l ++ [s]) := by
  have hs : s ∉ l := by
    intro hs
    have := h.live s hs
    rw [hlive] at this
    cases this
  have hne : ∀ x ∈ l, x ≠ s := fun x hx e => hs (e ▸ hx)
  have hdev := he.dev_slave
  have hvlive := he.live_slave
  have hbd : v.bond.dev = w.bond.dev := congrArg Core.dev hc
  -- a device that was free belongs to no slave of the ring
  have hother : ∀ x ∈ l, (w.slaves x).dev ≠ d := by
    intro x hx e
    have hown := congrArg Prod.snd (h.owned x hx)
    rw [e] at hown
    have hfree : (w.devs d).master = none := he.free
    exact absurd (hfree.symm.trans hown) (by simp)
  refine
    { toRing := h.toRing.enslaved hs he.shape
      active := fun x hx => ?_, primary := fun x hx => ?_
      port := (congrArg Core.port hc).trans h.port, mode := (congrArg Core.mode hc).trans h.mode
      live := fun x hx => ?_, owned := fun x hx => ?_, foreign := fun x hx => ?_
      distinct := fun x hx y hy => ?_, enslaved := fun e hown => ?_
      empty := (congrArg Core.pbuff hc).trans h.empty }
  · rw [he.active] at hx
    cases ha : w.bond.curr_active_slave with
    | none => simp_all
    | some a =>
      rw [ha] at hx
      cases hx
      simp [h.active a ha]
  · rcases he.primary with hp | hp
    · rw [hp] at hx
      cases hx
      simp
    · simp [h.primary x (hp ▸ hx)]
  · rw [hvlive]
    rcases List.mem_append.mp hx with hx | hx
    · simp [h.live x hx]
    · simp_all
  · rw [he.owners, hdev, hbd]
    rcases List.mem_append.mp hx with hx | hx
    · simp [hne x hx, hother x hx, h.owned x hx]
    · simp_all
  · rw [hdev, hbd]
    rcases List.mem_append.mp hx with hx | hx
    · simp [hne x hx, h.foreign x hx]
    · simp_all
  · rw [hdev, hdev]
    rcases List.mem_append.mp hx with hx | hx <;> rcases List.mem_append.mp hy with hy | hy
    · simpa [hne x hx, hne y hy] using h.distinct x hx y hy
    · have hys : y = s := by simpa using hy
      simp only [hys, hne x hx, if_true, if_false]
      exact fun e => absurd e.symm (hother x hx)
    · have hxs : x = s := by simpa using hx
      simp only [hxs, hne y hy, if_true, if_false]
      exact fun e => absurd e (hother y hy)
    · simp_all
  · rw [he.owners, hbd] at hown
    by_cases hed : e = d
    · exact ⟨s, by simp, by simp [hdev, hed]⟩
    · simp only [hed, if_false] at hown
      obtain ⟨x, hx, hxd⟩ := h.enslaved e hown
      exact ⟨x, by simp [hx], by simp [hdev, hne x hx, hxd]⟩

end World

end Hoolock
