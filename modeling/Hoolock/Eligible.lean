import Hoolock.EnslavePaths
import Hoolock.Queries

/-!
No device of a HOOLOCK bond's slaves is ever made to wait for exact matches: what each call
does to the two flags, whether it works or fails.
-/

set_option autoImplicit false

namespace Hoolock

/-- `IFF_SLAVE_INACTIVE` and `IFF_SLAVE_NEEDARP` are clear. -/
def NetDevice.eligible (dev : NetDevice) : Bool := !dev.slave_inactive && !dev.slave_needarp

theorem set_mac_eligible (a : HwAddr) (n : Nat) (dev : NetDevice) :
    (dev_set_mac_address a n dev).2.eligible = dev.eligible := by
  unfold dev_set_mac_address
  split
  · rfl
  · split_ifs <;> rfl

theorem set_master_eligible (master : Option DevId) (dev : NetDevice) :
    (netdev_set_master master dev).2.eligible = dev.eligible := by
  unfold netdev_set_master
  cases master with
  | none => rfl
  | some m =>
    dsimp only
    split_ifs <;> rfl

theorem open_eligible (r : Int) (dev : NetDevice) : (dev_open r dev).2.eligible = dev.eligible := by
  unfold dev_open
  split_ifs <;> rfl

theorem close_eligible (dev : NetDevice) : (dev_close dev).eligible = dev.eligible := by
  unfold dev_close
  split_ifs <;> rfl

def Core.kind (c : Core) : Port × Mode := (c.port, c.mode)

namespace World

def kind (w : World) : Port × Mode := w.core.kind

/-- Port and mode stay, and no device stops being eligible. -/
structure Keeps (w v : World) : Prop where
  kind : v.kind = w.kind
  eligible : ∀ d, (w.devs d).eligible = true → (v.devs d).eligible = true

theorem Keeps.mode {w v : World} (h : Keeps w v) : v.bond.params.mode = w.bond.params.mode :=
  congrArg Prod.snd h.kind

theorem Keeps.port {w v : World} (h : Keeps w v) : v.port = w.port := congrArg Prod.fst h.kind

theorem Keeps.refl (w : World) : Keeps w w := ⟨rfl, fun _ h => h⟩

theorem Keeps.trans {w v u : World} (h : Keeps w v) (k : Keeps v u) : Keeps w u :=
  ⟨k.kind.trans h.kind, fun d hd => k.eligible d (h.eligible d hd)⟩

theorem Keeps.of_devs {w v : World} (hk : v.kind = w.kind) (hd : v.devs = w.devs) : Keeps w v :=
  ⟨hk, fun d h => by rw [hd]; exact h⟩

theorem keeps_lock (w : World) (n : LockName) (m : LockMode) : Keeps w (w.lock n m) :=
  Keeps.of_devs rfl rfl

theorem keeps_unlock (w : World) (n : LockName) (m : LockMode) : Keeps w (w.unlock n m) :=
  Keeps.of_devs rfl rfl

theorem Keeps.of_sameDevs {w v : World} (hk : v.kind = w.kind) (hd : SameDevs v w) :
    Keeps w v := by
  refine ⟨hk, fun d h => ?_⟩
  have hsame : (v.devs d).sansFilter.eligible = (w.devs d).sansFilter.eligible :=
    congrArg NetDevice.eligible (hd d)
  exact hsame.trans h

theorem keeps_setDev (w : World) (d : DevId) {f : NetDevice → NetDevice}
    (hf : ∀ dev : NetDevice, dev.eligible = true → (f dev).eligible = true) :
    Keeps w (w.setDev d f) := by
  refine ⟨rfl, fun e he => ?_⟩
  by_cases hed : e = d
  · simpa [setDev, hed] using hf _ (hed ▸ he)
  · simpa [setDev, hed] using he

theorem keeps_setDev_same (w : World) (d : DevId) {f : NetDevice → NetDevice}
    (hf : ∀ dev : NetDevice, (f dev).eligible = dev.eligible) : Keeps w (w.setDev d f) :=
  keeps_setDev w d fun dev h => (hf dev).trans h

theorem keeps_onDev (w : World) (d : DevId) {f : NetDevice → Int × NetDevice}
    (hf : ∀ dev : NetDevice, (f dev).2.eligible = dev.eligible) : Keeps w (w.onDev d f).2 :=
  keeps_setDev_same w d hf

theorem keeps_setFeatures (w : World) (f : BitVec 64 → BitVec 64) : Keeps w (w.setFeatures f) :=
  keeps_setDev_same w _ (by intro dev; rfl)

theorem keeps_compute_features (w : World) : Keeps w w.bond_compute_features := by
  unfold bond_compute_features
  exact keeps_setDev_same w _ (by intro dev; rfl)

theorem keeps_active_flags (w : World) (s : SlaveId) :
    Keeps w (w.bond_set_slave_active_flags s) := by
  have hslave : Keeps w (w.setSlave s fun x => { x with state := .active }) := Keeps.of_devs rfl rfl
  refine hslave.trans ?_
  unfold bond_set_slave_active_flags
  exact keeps_setDev _ _ (by intro dev _; rfl)

theorem active_flags_eligible (w : World) (s : SlaveId) :
    ((w.bond_set_slave_active_flags s).devs (w.slaves s).dev).eligible = true := by
  have hdev : ((w.setSlave s fun x => { x with state := .active }).slaves s).dev =
      (w.slaves s).dev := by
    simp [setSlave]
  unfold bond_set_slave_active_flags
  simp [setDev, hdev, NetDevice.eligible]

variable [Siblings]

theorem keeps_change_active {w : World} (h : w.bond.params.mode = .hoolock)
    (new : Option SlaveId) : Keeps w (w.bond_change_active_slave new) :=
  Keeps.of_sameDevs (congrArg Core.kind (core_change_active w new)) (change_active_devs h new)

theorem keeps_set_carrier {w : World} (h : w.bond.params.mode = .hoolock) :
    Keeps w w.bond_set_carrier.2 := by
  obtain ⟨f, hf, hc⟩ := set_carrier_hoolock h
  rw [hf]
  refine keeps_setDev_same w _ fun dev => ?_
  obtain ⟨c, hc⟩ := hc dev
  rw [hc]
  rfl

theorem keeps_select_active {w : World} (h : w.bond.params.mode = .hoolock) :
    Keeps w w.bond_select_active_slave := by
  have hchange := keeps_change_active h w.bond_find_best_slave
  unfold bond_select_active_slave
  dsimp only
  split_ifs
  · exact hchange.trans (keeps_set_carrier (hchange.mode.trans h))
  · exact Keeps.refl w

omit [Siblings] in
theorem keeps_err_free (w : World) (s : SlaveId) (f : BitVec 64) : Keeps w (w.err_free s f) := by
  unfold err_free err_undo_flags
  exact (Keeps.of_devs rfl rfl : Keeps w (w.kfree_slave s)).trans (keeps_setFeatures _ _)

omit [Siblings] in
theorem keeps_err_restore_mac (w : World) (d : DevId) (s : SlaveId) (f : BitVec 64) :
    Keeps w (w.err_restore_mac d s f) := by
  unfold err_restore_mac
  dsimp only
  split_ifs
  · exact (keeps_onDev w d fun dev => set_mac_eligible _ _ dev).trans (keeps_err_free _ s f)
  · exact keeps_err_free w s f

omit [Siblings] in
theorem keeps_labels (w : World) (d : DevId) (s : SlaveId) (f : BitVec 64) :
    Keeps w (w.err_outer d s f) ∧ Keeps w (w.err_open d s f) ∧ Keeps w (w.err_set_master d s f) := by
  have hmaster : ∀ x : World, Keeps x (x.onDev d (netdev_set_master none)).2 :=
    fun x => keeps_onDev x d (set_master_eligible none)
  have hclose : ∀ x : World, Keeps x (x.setDev d dev_close) :=
    fun x => keeps_setDev_same x d close_eligible
  have hmac := fun x : World => keeps_err_restore_mac x d s f
  unfold err_outer err_open err_set_master
  cases w.port with
  | k27 => exact ⟨((hclose w).trans (hmaster _)).trans (hmac _), (hmaster w).trans (hmac _), hmac w⟩
  | k24 => exact ⟨((hmaster w).trans (hclose _)).trans (hmac _), hmac w, (hclose w).trans (hmac _)⟩

theorem keeps_enslave_mode {w : World} (h : w.bond.params.mode = .hoolock) (s : SlaveId) :
    Keeps w (w.enslave_mode s) := by
  have hflags := keeps_active_flags w s
  rw [enslave_mode_hoolock h]
  split_ifs
  · exact hflags.trans (keeps_change_active (hflags.mode.trans h) _)
  · exact hflags

theorem enslave_mode_eligible {w : World} (h : w.bond.params.mode = .hoolock) (s : SlaveId) :
    ((w.enslave_mode s).devs (w.slaves s).dev).eligible = true := by
  have hflags := active_flags_eligible w s
  have hm : (w.bond_set_slave_active_flags s).bond.params.mode = .hoolock := h
  rw [enslave_mode_hoolock h]
  split_ifs
  · exact (keeps_change_active hm _).eligible _ hflags
  · exact hflags

def first_link (w : World) (d : DevId) : Link :=
  if w.bond.params.miimon = 0 ∨ w.bond_check_dev_link (w.devs d) then
    if w.bond.params.updelay ≠ 0 then .back else .up
  else .down

omit [Siblings] in
theorem enslave_link_slaves (w : World) (d : DevId) (s : SlaveId) :
    (∀ t, t ≠ s → (w.enslave_link d s).slaves t = w.slaves t) ∧
      ((w.enslave_link d s).slaves s).link = w.first_link d := by
  unfold enslave_link first_link
  split_ifs <;>
    exact ⟨fun t ht => setSlave_other w _ ht, congrArg Slave.link (setSlave_self w s _)⟩

structure Attached (w b : World) (d : DevId) (s : SlaveId) : Prop where
  keeps : Keeps w b
  shape : b.shape = w.shape.attach s
  active : b.bond.curr_active_slave = w.bond.curr_active_slave
  params : b.bond.params = w.bond.params
  dev : b.bond.dev = w.bond.dev
  devs : ∀ e, ∃ f n, b.devs e = { w.devs e with features := f, hard_header_len := n }
  others : ∀ t, t ≠ s → (b.slaves t).link = (w.slaves t).link ∧
    (b.slaves t).state = (w.slaves t).state
  link : (b.slaves s).link = w.first_link d

theorem enslave_attach_eq {w : World} (hp : w.port = .k27) (d : DevId) (s : SlaveId) :
    ∃ b : World, Attached w b d s ∧ w.enslave_attach d s =
      ((b.enslave_mode s).unlock .curr_slave .write).bond_set_carrier.2.unlock .bond .read := by
  obtain ⟨c, hc⟩ : ∃ c, c = ((w.lock .bond .write).bond_attach_slave s).setSlave s fun x =>
      { x with delay := 0, link_failure_count := 0 } := ⟨_, rfl⟩
  obtain ⟨a, ha⟩ : ∃ a, a = c.bond_compute_features := ⟨_, rfl⟩
  have hcore : a.core = w.core.lock .bond .write := by simp [ha, hc]
  have hshape : a.shape = w.shape.attach s := by simp [ha, hc, shape_setSlave]
  have hcbond : c.devs = w.devs ∧ c.bond.curr_active_slave = w.bond.curr_active_slave ∧
      c.bond.params = w.bond.params ∧ c.bond.dev = w.bond.dev := by
    rw [hc]
    unfold bond_attach_slave
    dsimp only
    cases (w.lock .bond .write).bond.first_slave <;> exact ⟨rfl, rfl, rfl, rfl⟩
  have hset : Keeps w c := by
    refine Keeps.of_devs ?_ hcbond.1
    have hattach := congrArg Core.kind (core_attach_slave (w.lock .bond .write) s)
    rw [hc]
    exact hattach
  have hak : Keeps w a := ha ▸ hset.trans (keeps_compute_features _)
  have hport : a.port = .k27 := (congrArg Core.port hcore).trans hp
  have hadevs : ∀ e, ∃ f n, a.devs e = { w.devs e with features := f, hard_header_len := n } := by
    intro e
    rw [ha, ← hcbond.1]
    unfold bond_compute_features
    dsimp only
    by_cases he : e = c.bond.dev
    · subst he
      exact ⟨_, _, if_pos rfl⟩
    · exact ⟨(c.devs e).features, (c.devs e).hard_header_len, if_neg he⟩
  obtain ⟨b, hb⟩ : ∃ b, b = ((((a.unlock .bond .write).lock .bond .read).enslave_link d
      s).enslave_primary s).lock .curr_slave .write := ⟨_, rfl⟩
  have hbbond : b.devs = a.devs ∧ b.bond.curr_active_slave = a.bond.curr_active_slave ∧
      b.bond.params = a.bond.params ∧ b.bond.dev = a.bond.dev := by
    rw [hb]
    unfold enslave_link enslave_primary lock unlock setSlave setBond
    split_ifs <;> exact ⟨rfl, rfl, rfl, rfl⟩
  have hab : Keeps a b := by
    refine Keeps.of_devs ?_ hbbond.1
    have hbc : b.core = (((a.core.unlock .bond .write).lock .bond .read)).lock .curr_slave
        .write := by simp [hb]
    have hkind := congrArg Core.kind hbc
    exact hkind
  have habond : a.bond = c.bond := ha ▸ rfl
  obtain ⟨hothers, hlink⟩ := enslave_link_slaves ((a.unlock .bond .write).lock .bond .read) d s
  have hbslaves : b.slaves = (((a.unlock .bond .write).lock .bond .read).enslave_link d s).slaves := by
    rw [hb]
    unfold enslave_primary
    split_ifs <;> rfl
  have hbothers : ∀ t, t ≠ s → (b.slaves t).link = (w.slaves t).link ∧
      (b.slaves t).state = (w.slaves t).state := by
    intro t ht
    have hcslave : c.slaves t = ((w.lock .bond .write).bond_attach_slave s).slaves t := by
      rw [hc, setSlave_other _ _ ht]
    have hbslave : b.slaves t = c.slaves t := by
      rw [hbslaves, hothers t ht, ha]
      rfl
    rw [hbslave, hcslave]
    unfold bond_attach_slave
    dsimp only
    cases (w.lock .bond .write).bond.first_slave <;> exact ⟨rfl, rfl⟩
  have hfirst : a.first_link d = w.first_link d := by
    obtain ⟨f, n, hd⟩ := hadevs d
    have hparams : a.bond.params = w.bond.params := habond ▸ hcbond.2.2.1
    have hcheck : a.bond_check_dev_link (a.devs d) = w.bond_check_dev_link (w.devs d) := by
      unfold bond_check_dev_link
      rw [hd, hparams]
    unfold first_link
    rw [hcheck, hparams]
  refine ⟨b, ⟨hak.trans hab, by simp [hb, hshape], ?_, ?_, ?_, ?_, ?_, ?_⟩, ?_⟩
  · rw [hbbond.2.1, habond, hcbond.2.1]
  · rw [hbbond.2.2.1, habond, hcbond.2.2.1]
  · rw [hbbond.2.2.2, habond, hcbond.2.2.2]
  · rw [hbbond.1]
    exact hadevs
  · exact hbothers
  · rw [hbslaves]
    exact hlink.trans hfirst
  · unfold enslave_attach
    dsimp only
    rw [← hc, ← ha]
    simp only [hport]
    rw [← hb]

theorem keeps_enslave_attach {w : World} (hp : w.port = .k27)
    (h : w.bond.params.mode = .hoolock) (d : DevId) (s : SlaveId) :
    Keeps w (w.enslave_attach d s) := by
  obtain ⟨b, hatt, heq⟩ := enslave_attach_eq hp d s
  have hb := hatt.keeps
  have hbm := keeps_enslave_mode (hb.mode.trans h) s
  have hcm : ((b.enslave_mode s).unlock .curr_slave .write).bond.params.mode = .hoolock :=
    hbm.mode.trans (hb.mode.trans h)
  have hset := (keeps_unlock (b.enslave_mode s) .curr_slave .write).trans (keeps_set_carrier hcm)
  rw [heq]
  exact ((hb.trans hbm).trans hset).trans (keeps_unlock _ _ _)

theorem enslave_attach_eligible {w : World} (hp : w.port = .k27)
    (h : w.bond.params.mode = .hoolock) (d : DevId) (s : SlaveId) :
    ((w.enslave_attach d s).slave_dev s).eligible = true := by
  obtain ⟨b, hatt, heq⟩ := enslave_attach_eq hp d s
  have hb := hatt.keeps
  have hflags := enslave_mode_eligible (hb.mode.trans h) s
  have hcm : ((b.enslave_mode s).unlock .curr_slave .write).bond.params.mode = .hoolock :=
    (keeps_enslave_mode (hb.mode.trans h) s).mode.trans (hb.mode.trans h)
  have hdev : ((w.enslave_attach d s).slaves s).dev = (b.slaves s).dev := by
    have hsame : (w.enslave_attach d s).shape = b.shape := by
      rw [heq]
      simp
    exact congrFun (congrArg Shape.dev hsame) s
  unfold slave_dev
  rw [hdev, heq]
  exact (keeps_set_carrier hcm).eligible _ hflags

omit [Siblings] in
theorem keeps_enslave_vlan (w : World) (d : DevId) : Keeps w (w.enslave_vlan d) := by
  obtain ⟨-, -, -, hvdev⟩ := enslave_vlan_spec w d
  refine ⟨congrArg Core.kind (core_enslave_vlan w d), fun e he => ?_⟩
  rw [hvdev e]
  exact he

omit [Siblings] in
theorem keeps_enslave_type (w : World) (d : DevId) : Keeps w (w.enslave_type d) := by
  obtain ⟨-, -, -, htdev, -⟩ := enslave_type_spec w d
  refine ⟨congrArg Core.kind (core_enslave_type w d), fun e he => ?_⟩
  rw [htdev e]
  exact he

omit [Siblings] in
theorem keeps_prepared (w : World) (d : DevId) : Keeps w (w.enslave_prepared d) := by
  have hfom : Keeps ((w.enslave_vlan d).enslave_type d) (w.enslave_prepared d) := by
    unfold enslave_prepared enslave_fom
    split_ifs
    · exact Keeps.of_devs rfl rfl
    · exact Keeps.refl _
  exact ((keeps_enslave_vlan w d).trans (keeps_enslave_type _ d)).trans hfom

theorem enslave_joined_eligible {w : World} (hp : w.port = .k27)
    (h : w.bond.params.mode = .hoolock) (d : DevId) (s : SlaveId) :
    ((w.enslave_joined d s).slave_dev s).eligible = true := by
  obtain ⟨x, hlinked, heq⟩ := enslave_joined_eq w d s
  have hmode : x.bond.params.mode = .hoolock := hlinked.bond ▸ h
  rw [heq]
  exact enslave_attach_eligible (hlinked.port.trans hp) hmode d s

theorem keeps_enslave_joined {w : World} (hp : w.port = .k27) (h : w.bond.params.mode = .hoolock)
    (d : DevId) (s : SlaveId) : Keeps w (w.enslave_joined d s) := by
  obtain ⟨x, hlinked, heq⟩ := enslave_joined_eq w d s
  have hxk : Keeps w x := by
    refine ⟨?_, fun e he => ?_⟩
    · exact Prod.ext hlinked.port (congrArg (fun b : Bonding => b.params.mode) hlinked.bond)
    · rw [hlinked.devs]
      split_ifs <;> exact he
  rw [heq]
  exact hxk.trans (keeps_enslave_attach (hlinked.port.trans hp) (hxk.mode.trans h) d s)

theorem keeps_enslave_alloc (env : EnslaveEnv) {w : World} (hp : w.port = .k27)
    (h : w.bond.params.mode = .hoolock) (d : DevId) (s : SlaveId) (f : BitVec 64) :
    Keeps w (enslave_alloc env w d s f).2 := by
  have hrecord : Keeps w (w.enslave_record d s) := Keeps.of_devs rfl rfl
  have hmac : ∀ x : World, Keeps x (x.enslave_mac d).2 := by
    intro x
    unfold enslave_mac
    split_ifs
    · exact keeps_onDev x d fun dev => set_mac_eligible _ _ dev
    · exact Keeps.refl x
  have hmaccore : ((w.enslave_record d s).enslave_mac d).2.core = w.core := by
    unfold enslave_mac
    split_ifs <;> rfl
  obtain ⟨x, hx⟩ : ∃ x, x = (w.enslave_record d s).enslave_mac d := ⟨_, rfl⟩
  have hxk : Keeps w x.2 := hx ▸ hrecord.trans (hmac _)
  rw [← hx] at hmaccore
  have hmaster := hxk.trans (keeps_onDev x.2 d (set_master_eligible (some x.2.bond.dev)))
  have hopen := hmaster.trans (keeps_onDev _ d (open_eligible env.open_slave))
  rw [enslave_alloc_eq, ← hx]
  by_cases h1 : x.1 = 0
  · rw [orGoto_next h1]
    by_cases h2 : (x.2.onDev d (netdev_set_master (some x.2.bond.dev))).1 = 0
    · rw [orGoto_next h2]
      by_cases h3 : ((x.2.onDev d (netdev_set_master (some x.2.bond.dev))).2.onDev d
          (dev_open env.open_slave)).1 = 0
      · have hport : ((x.2.onDev d (netdev_set_master (some x.2.bond.dev))).2.onDev d
            (dev_open env.open_slave)).2.port = .k27 := (congrArg Core.port hmaccore).trans hp
        have hjoined := hopen.trans (keeps_enslave_joined hport (hopen.mode.trans h) d s)
        rw [orGoto_next h3, enslave_opened_hoolock hport (hopen.mode.trans h)]
        split_ifs
        · exact hjoined.trans (keeps_labels _ d s f).1
        · exact hjoined
      · rw [orGoto_label h3]
        exact hopen.trans (keeps_labels _ d s f).2.1
    · rw [orGoto_label h2]
      exact hmaster.trans (keeps_labels _ d s f).2.2
  · rw [orGoto_label h1]
    exact hxk.trans (keeps_err_free _ s f)

theorem keeps_bond_enslave (env : EnslaveEnv) {w : World} (hp : w.port = .k27)
    (h : w.bond.params.mode = .hoolock) (d : DevId) : Keeps w (bond_enslave env w d).2 := by
  have hundo : ∀ x : World, Keeps x (x.err_undo_flags w.old_features) :=
    fun x => keeps_setFeatures x _
  have hprep := keeps_prepared w d
  have hvlan := keeps_enslave_vlan w d
  have htype := hvlan.trans (keeps_enslave_type _ d)
  unfold bond_enslave
  dsimp only
  split_ifs
  · exact Keeps.refl w
  · exact Keeps.refl w
  · exact hvlan.trans (hundo _)
  · exact hvlan.trans (hundo _)
  · exact htype.trans (hundo _)
  · cases env.new_slave with
    | none => exact hprep.trans (hundo _)
    | some s =>
      have hcore := (prepared w d).core
      exact hprep.trans (keeps_enslave_alloc env ((congrArg Core.port hcore).trans hp)
        ((congrArg Core.mode hcore).trans h) d s _)

omit [Siblings] in
theorem keeps_release_filter (w : World) (d : DevId) : Keeps w (w.release_filter d) := by
  have hoff : Keeps w (w.setDev d w.filter_off) := by
    refine keeps_setDev_same w d fun dev => ?_
    have hsame := congrArg NetDevice.eligible (filter_off_sansFilter w dev)
    exact hsame
  unfold release_filter
  dsimp only
  split_ifs
  · exact Keeps.refl w
  · exact hoff.trans (keeps_setDev_same _ d (by intro dev; rfl))
  · exact hoff

omit [Siblings] in
theorem keeps_release_device (w : World) (s : SlaveId) (d : DevId) (r : Bool) :
    Keeps w (w.release_device s d r) := by
  have hvlans : Keeps w w.bond_del_vlans_from_slave := Keeps.of_devs rfl rfl
  have hmaster := (hvlans.trans (keeps_release_filter _ d)).trans
    (keeps_onDev _ d (set_master_eligible none))
  have hclose := hmaster.trans (keeps_setDev_same _ d close_eligible)
  unfold release_device
  dsimp only
  split_ifs
  · exact hclose.trans (keeps_onDev _ d fun dev => set_mac_eligible _ _ dev)
  · exact hclose

omit [Siblings] in
theorem keeps_clear_master (w : World) : Keeps w w.clear_master := by
  have hclear := keeps_setDev_same w w.bond.dev (f := fun dev =>
    { dev with dev_addr := List.replicate dev.addr_len 0 ++ dev.dev_addr.drop dev.addr_len })
    (by intro dev; rfl)
  unfold clear_master
  dsimp only
  split_ifs
  · exact hclear.trans (keeps_setFeatures _ _)
  · exact hclear

theorem keeps_release_master {w : World} (h : w.bond.params.mode = .hoolock) :
    Keeps w w.release_master := by
  unfold release_master
  split_ifs
  · exact (keeps_set_carrier h).trans (keeps_clear_master _)
  · exact keeps_setFeatures w _
  · exact Keeps.refl w

theorem keeps_release_detach {w : World} (h : w.bond.params.mode = .hoolock) (s : SlaveId) :
    Keeps w (w.release_detach s) := by
  obtain ⟨a, ha⟩ : ∃ a, a = (w.bond_detach_slave s).bond_compute_features.release_pointers s :=
    ⟨_, rfl⟩
  have hak : Keeps w a := by
    have hdetach : Keeps w (w.bond_detach_slave s) := Keeps.of_devs rfl rfl
    have hfeatures := hdetach.trans (keeps_compute_features _)
    rw [ha]
    exact hfeatures.trans (Keeps.of_devs rfl rfl)
  have ham := hak.mode.trans h
  have hnone := keeps_change_active ham none
  have hreselect : ∀ x : World, x.bond.params.mode = .hoolock → Keeps x x.release_reselect := by
    intro x hx
    obtain ⟨y, hy⟩ : ∃ y, y = ((x.unlock .bond .write).lock .bond .read).lock .curr_slave .write :=
      ⟨_, rfl⟩
    have hyk : Keeps x y := hy ▸ ((keeps_unlock x .bond .write).trans (keeps_lock _ .bond
      .read)).trans (keeps_lock _ .curr_slave .write)
    have hsel := hyk.trans (keeps_select_active (hyk.mode.trans hx))
    unfold release_reselect
    dsimp only
    rw [← hy]
    exact ((hsel.trans (keeps_unlock _ _ _)).trans (keeps_unlock _ _ _)).trans (keeps_lock _ _ _)
  rw [release_detach_hoolock h, ← ha]
  split_ifs
  · have hre := (hak.trans hnone).trans (hreselect _ (hnone.mode.trans ham))
    exact hre.trans (keeps_release_master (hre.mode.trans h))
  · exact hak.trans (keeps_release_master ham)

theorem keeps_bond_release {w : World} (h : w.bond.params.mode = .hoolock) (d : DevId) :
    Keeps w (w.bond_release d).2 := by
  have hlock := keeps_lock w .bond .write
  unfold bond_release
  split
  · exact Keeps.refl w
  · dsimp only
    split
    · exact hlock.trans (keeps_unlock _ _ _)
    · rename_i s hs
      have hdetach := hlock.trans (keeps_release_detach (hlock.mode.trans h) s)
      have hdevice := fun r => (hdetach.trans (keeps_unlock _ .bond .write)).trans
        (keeps_release_device _ s d r)
      have hclear := fun r => (hdevice r).trans (keeps_setDev _ d (f := fun dev =>
        { dev with slave_inactive := false, bonding := false, slave_needarp := false })
        (by intro dev _; rfl))
      exact (hclear _).trans (Keeps.of_devs rfl rfl)

theorem keeps_release_first {w : World} (h : w.bond.params.mode = .hoolock) (s : SlaveId) :
    Keeps w (w.release_first s) := by
  have hunbind : w.release_unbind s = w := by
    unfold release_unbind
    simp [h]
  have hdetach : Keeps w ((w.bond_detach_slave s).unlock .bond .write) := Keeps.of_devs rfl rfl
  have hm := hdetach.mode.trans h
  have hdevice := (hdetach.trans (keeps_compute_features _)).trans
    (keeps_release_device _ s (w.slaves s).dev (((w.bond_detach_slave s).unlock .bond
      .write).bond_compute_features.bond.params.fail_over_mac == FailOverMac.none))
  have hclear := hdevice.trans (keeps_setDev _ (w.slaves s).dev (f := fun dev =>
    { dev with slave_inactive := false }) (by
      intro dev hdev
      unfold NetDevice.eligible at hdev ⊢
      simp_all))
  unfold release_first
  simp only [hunbind, hm, reduceCtorEq, or_self, if_false]
  exact hclear.trans (Keeps.of_devs rfl rfl)

omit [Siblings] in
/-- From `w` to `v` the ring and the mode stay and no device stops being eligible. -/
structure KeepsRing (w v : World) : Prop extends Keeps w v where
  shape : v.shape = w.shape

omit [Siblings] in
theorem KeepsRing.refl (w : World) : KeepsRing w w := ⟨Keeps.refl w, rfl⟩

omit [Siblings] in
theorem KeepsRing.trans {w v u : World} (h : KeepsRing w v) (k : KeepsRing v u) : KeepsRing w u :=
  ⟨h.toKeeps.trans k.toKeeps, k.shape.trans h.shape⟩

omit [Siblings] in
theorem KeepsRing.of_bond {w v : World} (hs : v.shape = w.shape) (hk : v.kind = w.kind)
    (hd : v.devs = w.devs) : KeepsRing w v := ⟨Keeps.of_devs hk hd, hs⟩

omit [Siblings] in
theorem KeepsRing.lock {w v : World} (h : KeepsRing w v) (n : LockName) (m : LockMode) :
    KeepsRing w (v.lock n m) := h.trans (KeepsRing.of_bond rfl rfl rfl)

omit [Siblings] in
theorem KeepsRing.unlock {w v : World} (h : KeepsRing w v) (n : LockName) (m : LockMode) :
    KeepsRing w (v.unlock n m) := h.trans (KeepsRing.of_bond rfl rfl rfl)

omit [Siblings] in
theorem keepsRing_buffer_mode (w : World) (k : Int) :
    KeepsRing w (w.setBond fun b => { b with buffer_mode := k }) :=
  KeepsRing.of_bond rfl rfl rfl

omit [Siblings] in
theorem keepsRing_setSlave (w : World) (s : SlaveId) {f : Slave → Slave} (hf : LinkUpdate f) :
    KeepsRing w (w.setSlave s f) :=
  KeepsRing.of_bond (shape_setSlave w s f hf.next hf.prev hf.dev) rfl rfl

theorem keepsRing_change_active {w : World} (h : w.bond.params.mode = .hoolock)
    (new : Option SlaveId) : KeepsRing w (w.bond_change_active_slave new) :=
  ⟨keeps_change_active h new, shape_change_active w new⟩

theorem keepsRing_set_carrier {w : World} (h : w.bond.params.mode = .hoolock) :
    KeepsRing w w.bond_set_carrier.2 := ⟨keeps_set_carrier h, shape_bond_set_carrier w⟩

theorem keepsRing_failover {w : World} (h : w.bond.params.mode = .hoolock) :
    KeepsRing w w.failover := by
  obtain ⟨x, hx⟩ : ∃ x, x = w.lock .curr_slave .write := ⟨_, rfl⟩
  have hxk : KeepsRing w x := hx ▸ (KeepsRing.refl w).lock .curr_slave .write
  have hsel : KeepsRing x x.bond_select_active_slave :=
    ⟨keeps_select_active (hxk.mode.trans h), shape_select_active x⟩
  unfold failover
  rw [← hx]
  exact (hxk.trans hsel).unlock .curr_slave .write

theorem keepsRing_commit {w : World} (h : w.bond.params.mode = .hoolock) (s : SlaveId) :
    KeepsRing w (w.commit s) := by
  obtain ⟨f, hf, hc | hc⟩ := commit_cases h s
  · rw [hc]
    exact keepsRing_setSlave w s hf
  · have hset := keepsRing_setSlave w s hf
    rw [hc]
    exact hset.trans (keepsRing_failover (hset.mode.trans h))

omit [Siblings] in
theorem KeepsRing.foldl {w : World} {f : World → SlaveId → World} (l : List SlaveId)
    (hf : ∀ v s, KeepsRing w v → KeepsRing v (f v s)) {v : World} (hv : KeepsRing w v) :
    KeepsRing w (l.foldl f v) := by
  induction l generalizing v with
  | nil => exact hv
  | cons a rest ih => exact ih (hv.trans (hf v a hv))

theorem keepsRing_miimon_work {w : World} (h : w.bond.params.mode = .hoolock) :
    KeepsRing w w.miimon_work := by
  have hinspect : KeepsRing w w.bond_miimon_inspect :=
    KeepsRing.foldl _ (fun v s _ => keepsRing_setSlave v s (inspect_linkUpdate v.bond.params fun x =>
      v.bond_check_dev_link (v.devs x.dev))) (KeepsRing.refl w)
  obtain ⟨x, hx⟩ : ∃ x, x = (w.bond_miimon_inspect.unlock .bond .read).lock .bond .read := ⟨_, rfl⟩
  have hxk : KeepsRing w x := hx ▸ (hinspect.unlock .bond .read).lock .bond .read
  have hcommit : KeepsRing w x.bond_miimon_commit := by
    have hall := KeepsRing.foldl x.bond_for_each_slave
      (fun v s hv => keepsRing_commit (hv.mode.trans h) s) hxk
    exact hall.trans (keepsRing_set_carrier (hall.mode.trans h))
  unfold miimon_work
  dsimp only
  split_ifs
  · rw [← hx]
    exact (hcommit.unlock .bond .read).lock .bond .read
  · exact hinspect

theorem keepsRing_mii_monitor {w : World} (h : w.bond.params.mode = .hoolock) :
    KeepsRing w w.bond_mii_monitor := by
  obtain ⟨x, han, -, hrun⟩ := mii_monitor_starts w
  have hxk : KeepsRing w x := by
    refine KeepsRing.of_bond ?_ ?_ han.devs
    · exact congrArg Base.shape han.onward.base
    · exact congrArg (fun b : Base => (b.port, b.mode)) han.onward.base
  rw [hrun]
  split_ifs
  · exact ((KeepsRing.refl w).lock .bond .read).unlock .bond .read
  · exact (hxk.trans (keepsRing_miimon_work (hxk.mode.trans h))).unlock .bond .read

omit [Siblings] in
theorem keepsRing_arp_turns (delta : BitVec 64) (l : List SlaveId) (b : Bool) (w : World) :
    KeepsRing w (l.foldl (arp_turn delta) (b, w)).2 := by
  induction l generalizing b w with
  | nil => exact KeepsRing.refl w
  | cons a rest ih =>
    obtain ⟨f, hf, hc⟩ := arp_slave_cases delta w a
    have hturn : KeepsRing w (arp_slave delta w a) := hc ▸ keepsRing_setSlave w a hf
    exact hturn.trans (ih _ _)

theorem keepsRing_arp_mon {w : World} (h : w.bond.params.mode = .hoolock) (delta : BitVec 64) :
    KeepsRing w (bond_loadbalance_arp_mon delta w) := by
  obtain ⟨v, hv⟩ : ∃ v, v = ((w.lock .bond .read).lock .curr_slave .read).unlock .curr_slave
      .read := ⟨_, rfl⟩
  have hvk : KeepsRing w v := hv ▸ (((KeepsRing.refl w).lock .bond .read).lock .curr_slave
    .read).unlock .curr_slave .read
  have hturns := hvk.trans (keepsRing_arp_turns delta v.bond_for_each_slave false v)
  rw [arp_mon_eq]
  dsimp only
  rw [← hv]
  split_ifs
  · exact ((KeepsRing.refl w).lock .bond .read).unlock .bond .read
  · exact (hturns.trans (keepsRing_failover (hturns.mode.trans h))).unlock .bond .read
  · exact hturns.unlock .bond .read

theorem keepsRing_make {w : World} (h : w.bond.params.mode = .hoolock) :
    KeepsRing w w.bond_ioctl_make.2 := by
  have hbegun : KeepsRing w w.make_begun :=
    ((KeepsRing.refl w).lock .bond .read).lock .curr_slave .write
  have hdone : ∀ x : World, KeepsRing x x.make_done := fun x =>
    ((keepsRing_buffer_mode x 1).unlock .curr_slave .write).unlock .bond .read
  cases hp : w.passive_slave with
  | none =>
    rw [make_none hp]
    exact hbegun.trans (hdone _)
  | some s =>
    rw [make_some hp]
    exact (hbegun.trans (keepsRing_change_active (hbegun.mode.trans h) _)).trans (hdone _)

theorem keepsRing_test {w : World} (h : w.bond.params.mode = .hoolock) (d : DevId) :
    KeepsRing w (w.bond_ioctl_hoolock_change_active d).2 := by
  obtain ⟨x, hx⟩ : ∃ x, x = (w.lock .bond .read).lock .curr_slave .write := ⟨_, rfl⟩
  have hxk : KeepsRing w x :=
    hx ▸ ((KeepsRing.refl w).lock .bond .read).lock .curr_slave .write
  unfold bond_ioctl_hoolock_change_active
  dsimp only
  rw [← hx]
  split
  · rename_i t ht
    have hchange := hxk.trans (keepsRing_change_active (hxk.mode.trans h) (some t))
    exact (hchange.unlock .curr_slave .write).unlock .bond .read
  · exact (hxk.unlock .curr_slave .write).unlock .bond .read

theorem keepsRing_ioctl_change_active {w : World} (h : w.bond.params.mode = .hoolock) (d : DevId) :
    KeepsRing w (w.bond_ioctl_change_active d).2 := by
  obtain ⟨x, hx⟩ : ∃ x, x = ((w.lock .bond .read).lock .curr_slave .read).unlock .curr_slave
      .read := ⟨_, rfl⟩
  have hxk : KeepsRing w x := hx ▸ (((KeepsRing.refl w).lock .bond .read).lock .curr_slave
    .read).unlock .curr_slave .read
  unfold bond_ioctl_change_active
  dsimp only
  rw [← hx]
  split_ifs
  · exact KeepsRing.refl w
  · exact KeepsRing.refl w
  · split
    · exact hxk.unlock .bond .read
    · rename_i s hs
      split_ifs
      · exact hxk.unlock .bond .read
      · have hlock := hxk.lock .curr_slave .write
        have hchange := hlock.trans (keepsRing_change_active (hlock.mode.trans h) (some s))
        exact (hchange.unlock .curr_slave .write).unlock .bond .read
      · exact hxk.unlock .bond .read

omit [Siblings] in
theorem keepsRing_setDev (w : World) (d : DevId) {f : NetDevice → NetDevice}
    (hf : ∀ dev : NetDevice, (f dev).eligible = dev.eligible) : KeepsRing w (w.setDev d f) :=
  ⟨keeps_setDev_same w d hf, rfl⟩

omit [Siblings] in
theorem keepsRing_open_bond (w : World) : KeepsRing w w.open_bond := by
  have hopen : KeepsRing w w.bond_open.2 := by
    unfold bond_open bond_register_hoolock
    dsimp only
    split_ifs <;> exact KeepsRing.of_bond rfl rfl rfl
  unfold open_bond
  split_ifs
  · exact KeepsRing.refl w
  · exact hopen.trans (keepsRing_setDev _ _ (by intro dev; rfl))

omit [Siblings] in
theorem keepsRing_close_bond (w : World) : KeepsRing w w.close_bond := by
  have hclose : ∀ x : World, KeepsRing x x.bond_close := by
    intro x
    have hmarked : ∀ v : World, KeepsRing v (v.setBond fun b =>
        { b with send_grat_arp := 0, kill_timers := true }) :=
      fun _ => KeepsRing.of_bond rfl rfl rfl
    have hunlisted : KeepsRing x x.bond_unregister_hoolock := KeepsRing.of_bond rfl rfl rfl
    unfold bond_close
    dsimp only
    split_ifs
    · exact ((hunlisted.lock .bond .write).trans (hmarked _)).unlock .bond .write
    · exact (((KeepsRing.refl x).lock .bond .write).trans (hmarked _)).unlock .bond .write
  have hstop : KeepsRing w (w.setDev w.bond.dev fun dev => { dev with running := false }) :=
    keepsRing_setDev w _ (by intro dev; rfl)
  unfold close_bond
  split_ifs
  · exact KeepsRing.refl w
  · exact (hstop.trans (hclose _)).trans (keepsRing_setDev _ _ (by intro dev; rfl))

omit [Siblings] in
theorem KeepsRing.of_sansTraffic {w v : World} (h : v.sansTraffic = w.sansTraffic) :
    KeepsRing w v := by
  have hshape : v.sansTraffic.shape = w.sansTraffic.shape := congrArg World.shape h
  have hkind : v.sansTraffic.kind = w.sansTraffic.kind := congrArg World.kind h
  have hdevs : v.sansTraffic.devs = w.sansTraffic.devs := congrArg World.devs h
  exact KeepsRing.of_bond hshape hkind hdevs

omit [Siblings] in
theorem closed_keepsRing (w : World) : Closed bond_hoolock_recv (KeepsRing w) where
  recv v skb d h := by
    have htraffic := recv_sansTraffic v skb d
    exact h.trans (KeepsRing.of_sansTraffic htraffic)
  users v _ h := h.trans (KeepsRing.of_bond (w := v) rfl rfl rfl)
  note v _ h := h.trans (KeepsRing.of_bond (w := v) rfl rfl rfl)

omit [Siblings] in
theorem keepsRing_break {w v : World} {env : Skb → PassEnv} {r : Int}
    (h : w.bond_ioctl_break env = some (r, v)) : KeepsRing w v := by
  have hlocked := (((KeepsRing.refl w).lock .pbuff .write).lock .bond .read).lock .curr_slave .write
  obtain ⟨u, hu, rfl⟩ := (closed_keepsRing w).break_ends
    (fun y hy => hy.trans (KeepsRing.of_bond rfl rfl rfl)) h
    (hlocked.trans (keepsRing_buffer_mode _ 0))
  exact ((hu.unlock .curr_slave .write).unlock .bond .read).unlock .pbuff .write

/-- One event, as in `step`, but enslaving and releasing may also fail.  The allocator hands
out a record that is neither in use nor on the ring. -/
def attempt (w : World) : Event → Option World
  | .enslave env slave_dev =>
    if env.new_slave.all fun s => !w.live s && !w.bond_for_each_slave.contains s then
      some (bond_enslave env w slave_dev).2
    else none
  | .release slave_dev => some (w.bond_release slave_dev).2
  | e => w.step e

omit [Siblings] in
structure Receiving (w : World) (l : List SlaveId) : Prop extends w.Ring l where
  port : w.port = .k27
  mode : w.bond.params.mode = .hoolock
  eligible : ∀ s ∈ l, (w.slave_dev s).eligible = true

omit [Siblings] in
theorem KeepsRing.receiving {w v : World} {l : List SlaveId} (h : KeepsRing w v)
    (hw : w.Receiving l) : v.Receiving l := by
  refine ⟨hw.toRing.of_shape h.shape, h.port.trans hw.port, h.mode.trans hw.mode, fun s hs => ?_⟩
  have hdev : (v.slaves s).dev = (w.slaves s).dev := congrFun (congrArg Shape.dev h.shape) s
  unfold slave_dev
  rw [hdev]
  exact h.eligible _ (hw.eligible s hs)

omit [Siblings] in
theorem Ring.get_slave_mem {w : World} {l : List SlaveId} (h : w.Ring l) {d : DevId} {s : SlaveId}
    (hs : w.bond_get_slave_by_dev d = some s) : s ∈ l := by
  refine CircularList.search_mem (fun a ha b hb => ?_) (fun a ha => ?_) hs
  · obtain ⟨c, hc, hnext, -⟩ := (h.ring.neighbours ha).1
    rw [hnext, Option.some.injEq] at hb
    exact hb ▸ hc
  · rw [h.head] at ha
    exact List.mem_of_mem_head? ha

omit [Siblings] in
theorem Receiving.left {w v : World} {l : List SlaveId} (h : w.Receiving l) {s : SlaveId}
    (hs : s ∈ l) (hk : Keeps w v) (hv : v.shape = (w.shape.detach s).free s) :
    v.Receiving (l.erase s) := by
  refine ⟨h.toRing.released hs hv, hk.port.trans h.port, hk.mode.trans h.mode, fun t ht => ?_⟩
  have hdev : (v.slaves t).dev = (w.slaves t).dev := congrFun (congrArg Shape.dev hv) t
  unfold slave_dev
  rw [hdev]
  exact hk.eligible _ (h.eligible t (List.mem_of_mem_erase ht))

theorem Receiving.release {w : World} {l : List SlaveId} (h : w.Receiving l) (d : DevId) :
    ∃ m, (w.bond_release d).2.Receiving m := by
  have hk := keeps_bond_release h.mode d
  by_cases hret : (w.bond_release d).1 = 0
  · obtain ⟨s, hs, hshape⟩ := shape_bond_release (v := (w.bond_release d).2) (Prod.ext hret rfl)
    exact ⟨l.erase s, h.left (h.toRing.get_slave_mem hs) hk hshape⟩
  · refine ⟨l, KeepsRing.receiving ⟨hk, ?_⟩ h⟩
    unfold bond_release at hret ⊢
    dsimp only at hret ⊢
    split_ifs with hmaster
    · rfl
    · rw [if_neg hmaster] at hret
      cases hfind : (w.lock .bond .write).bond_get_slave_by_dev d with
      | none => rfl
      | some s =>
        rw [hfind] at hret
        exact absurd rfl hret

theorem Receiving.release_each {w : World} {l : List SlaveId} (h : w.Receiving l) :
    (release_each l.length w).Receiving [] := by
  induction l generalizing w with
  | nil => exact h
  | cons s rest ih =>
    have hf : w.bond.first_slave = some s := h.head
    have hleft := h.left (by simp) (keeps_release_first h.mode s) (shape_release_first w s)
    rw [List.erase_cons_head] at hleft
    have hstep : World.release_each (s :: rest).length w =
        World.release_each rest.length (w.release_first s) := by
      simp only [List.length_cons, World.release_each, hf]
    rw [hstep]
    exact ih hleft

theorem Receiving.release_all {w : World} {l : List SlaveId} (h : w.Receiving l) :
    w.bond_release_all.2.Receiving [] := by
  obtain ⟨x, y, hx, hy, hall⟩ := release_all_eq w
  have hoff : KeepsRing (w.lock .bond .write) x := by
    rw [hx]
    unfold netif_carrier_off
    exact keepsRing_setDev _ _ (by intro dev; rfl)
  have hlock : KeepsRing w (w.lock .bond .write) := (KeepsRing.refl w).lock .bond .write
  have hunlock : ∀ u : World, KeepsRing u (u.unlock .bond .write) :=
    fun u => (KeepsRing.refl u).unlock .bond .write
  have hxr : x.Receiving l := (hlock.trans hoff).receiving h
  have hcnt : x.bond.slave_cnt = l.length := hxr.count
  rw [hall]
  by_cases hz : x.bond.slave_cnt = 0
  · have hl : l = [] := List.length_eq_zero_iff.mp (by omega)
    subst hl
    rw [if_pos hz]
    exact (hunlock x).receiving hxr
  · rw [if_neg hz]
    have hset : KeepsRing x (x.setBond fun b =>
        { b with current_arp_slave := none, primary_slave := none }) :=
      KeepsRing.of_bond rfl rfl rfl
    have hyr : y.Receiving l :=
      hy ▸ (hset.trans (keepsRing_change_active (hset.mode.trans hxr.mode) none)).receiving hxr
    have hlen : y.bond.slave_cnt.toNat = l.length := by
      rw [hyr.count]
      simp
    have hempty := hyr.release_each
    rw [hlen]
    have hclear : KeepsRing (World.release_each l.length y)
        (World.release_each l.length y).clear_master := ⟨keeps_clear_master _, by simp⟩
    exact (hclear.trans (hunlock _)).receiving hempty

omit [Siblings] in
theorem Receiving.undone {w v : World} {l : List SlaveId} (h : w.Receiving l) (hk : Keeps w v)
    (hh : v.holdings = w.holdings) (hs : ∀ t ∈ l, v.slaves t = w.slaves t) : v.Receiving l := by
  refine ⟨⟨?_, ?_, ?_⟩, hk.port.trans h.port, hk.mode.trans h.mode, fun t ht => ?_⟩
  · refine h.ring.congr_on (fun t ht => ?_) fun t ht => ?_
    · exact congrArg Slave.next (hs t ht)
    · exact congrArg Slave.prev (hs t ht)
  · exact (congrArg Holdings.first_slave hh).trans h.head
  · exact (congrArg Holdings.slave_cnt hh).trans h.count
  · unfold slave_dev
    rw [hs t ht]
    exact hk.eligible _ (h.eligible t ht)

theorem Receiving.enslave {w : World} {l : List SlaveId} (h : w.Receiving l) {env : EnslaveEnv}
    (hnew : ∀ s, env.new_slave = some s → s ∉ l) (d : DevId) :
    ∃ m, (bond_enslave env w d).2.Receiving m := by
  have hk := keeps_bond_enslave env h.port h.mode d
  cases hr : w.refuses d with
  | true =>
    obtain ⟨-, hsame⟩ := @bond_enslave_refused _ env w d hr
    rw [hsame]
    exact ⟨l, h⟩
  | false =>
    cases hu : w.unsuitable d with
    | true =>
      obtain ⟨-, hundone⟩ := @bond_enslave_unsuitable _ env w d hr hu
      exact ⟨l, h.undone hk hundone.holdings fun t _ => hundone.slaves t (by simp)⟩
    | false =>
      cases hs : starts env w d with
      | false =>
        obtain ⟨-, hundone⟩ := bond_enslave_fails h.port hr hu hs
        exact ⟨l, h.undone hk hundone.holdings fun t ht =>
          hundone.slaves t fun hts => hnew t hts ht⟩
      | true =>
        obtain ⟨s, x, hsome, he, hx, hcall⟩ := bond_enslave_starts h.port h.mode hr hu hs
        have hsl : s ∉ l := hnew s hsome
        -- `x` is also what the call ends in when the links can be made
        have hok := bond_enslave_joins { env with symlinks := 0 } h.port h.mode hr hu hs hsome hx
        have hxk : Keeps w x := by
          have hlinked := keeps_bond_enslave { env with symlinks := 0 } h.port h.mode d
          rw [hok] at hlinked
          exact hlinked
        have hxr : x.Receiving (l ++ [s]) := by
          refine ⟨h.toRing.enslaved hsl he.shape, hxk.port.trans h.port, hxk.mode.trans h.mode,
            fun t ht => ?_⟩
          by_cases hts : t = s
          · have hready := core_ready env w d s
            rw [hts, hx]
            exact enslave_joined_eligible ((congrArg Core.port hready).trans h.port)
              ((congrArg Core.mode hready).trans h.mode) d s
          · have hin : t ∈ l := by simpa [hts] using ht
            unfold slave_dev
            rw [he.dev_slave t, if_neg hts]
            exact hxk.eligible _ (h.eligible t hin)
        refine ⟨l ++ [s], ?_⟩
        rw [hcall]
        split_ifs
        · refine hxr.undone (keeps_labels x d s w.old_features).1 ?_ fun t _ => ?_
          · unfold holdings
            rw [(err_outer_kept x d s w.old_features).1]
          · rw [(err_outer_kept x d s w.old_features).2]
        · exact hxr

omit [Siblings] in
theorem Receiving.receive {w : World} {l : List SlaveId} (h : w.Receiving l) (env : PassEnv)
    (skb : Skb) : (w.receive env skb).Receiving l :=
  (KeepsRing.of_sansTraffic (receive_sansTraffic w env skb)).receiving h

theorem Receiving.attempt {w v : World} {l : List SlaveId} (h : w.Receiving l) {e : Event}
    (hv : w.attempt e = some v) : ∃ m, v.Receiving m := by
  have hsame : ∀ {u : World}, KeepsRing w u → ∃ m, u.Receiving m := fun k => ⟨l, k.receiving h⟩
  cases e with
  | enslave env d =>
    simp only [World.attempt] at hv
    split_ifs at hv with hnew
    cases hv
    refine h.enslave (fun s hs hmem => ?_) d
    rw [hs, h.toRing.for_each] at hnew
    simp [hmem] at hnew
  | release d =>
    cases hv
    exact h.release d
  | release_all =>
    cases hv
    exact ⟨[], h.release_all⟩
  | destroy =>
    cases hv
    exact ⟨[], ((keepsRing_close_bond w).receiving h).release_all⟩
  | free_all =>
    cases hv
    have hkill : KeepsRing w (((w.lock .bond .write).setBond fun b =>
        { b with kill_timers := true }).unlock .bond .write) := KeepsRing.of_bond rfl rfl rfl
    exact ⟨[], ((keepsRing_close_bond _).receiving (hkill.receiving h).release_all).release_all⟩
  | open_bond =>
    cases hv
    exact hsame (keepsRing_open_bond w)
  | close_bond =>
    cases hv
    exact hsame (keepsRing_close_bond w)
  | make =>
    cases hv
    exact hsame (keepsRing_make h.mode)
  | brk env =>
    obtain ⟨⟨r, x⟩, hr, rfl⟩ := Option.map_eq_some_iff.mp hv
    exact hsame (keepsRing_break hr)
  | change_active d =>
    cases hv
    exact hsame (keepsRing_ioctl_change_active h.mode d)
  | test d =>
    cases hv
    exact hsame (keepsRing_test h.mode d)
  | arrive env skb =>
    simp only [World.attempt, World.step] at hv
    split_ifs at hv
    cases hv
    exact ⟨l, h.receive env skb⟩
  | xmit env =>
    obtain ⟨⟨r, x⟩, hr, rfl⟩ := Option.map_eq_some_iff.mp hv
    exact hsame (KeepsRing.of_sansTraffic (xmit_sansTraffic hr))
  | mii_monitor =>
    simp only [World.attempt, World.step] at hv
    split_ifs at hv
    cases hv
    exact hsame (keepsRing_mii_monitor h.mode)
  | arp_monitor delta =>
    simp only [World.attempt, World.step] at hv
    split_ifs at hv
    cases hv
    exact hsame (keepsRing_arp_mon h.mode delta)
  | device d r =>
    simp only [World.attempt, World.step] at hv
    split_ifs at hv
    cases hv
    exact hsame (keepsRing_setDev w d (by intro dev; rfl))
  | address master_ip =>
    cases hv
    exact hsame (KeepsRing.of_bond rfl rfl rfl)
  | tick j =>
    cases hv
    exact hsame (KeepsRing.of_bond rfl rfl rfl)

omit [Siblings] in
theorem Receiving.frame {w : World} {l : List SlaveId} (h : w.Receiving l) {s : SlaveId}
    (hs : s ∈ l) {env : PassEnv} {skb : Skb} (hdev : skb.dev = (w.slaves s).dev)
    (hdrop : env.should_drop = true → (w.slave_dev s).slave_inactive = true) :
    w.frame env skb = ⟨{ skb with dev := (w.slave_dev s).master.getD skb.dev }, skb.dev, false⟩ := by
  have hinactive : (w.slave_dev s).slave_inactive = false := by
    have heligible := h.eligible s hs
    simp only [NetDevice.eligible, Bool.and_eq_true, Bool.not_eq_true'] at heligible
    exact heligible.1
  have htake : env.should_drop = false := by
    by_contra hd
    rw [hdrop (by simpa using hd)] at hinactive
    cases hinactive
  unfold World.frame
  rw [hdev, htake]
  unfold slave_dev
  cases (w.devs (w.slaves s).dev).master with
  | none =>
    simp only [Option.getD_none]
    rw [← hdev]
  | some m => rfl

/-- In every state of a bond in HOOLOCK mode, whatever was tried before, each device of the ring
has both flags clear, so a packet that came in on it is never left to exact matches and goes to
the device's master; and the master is the bond unless an enslave failed. -/
theorem slaves_stay_eligible {w v : World} {bond_dev : DevId} (h : w.Host bond_dev)
    {params : Params} (hm : params.mode = .hoolock) {es : List Event}
    (hv : Transition.run World.attempt (w.bond_init bond_dev params) es = some v) :
    ∃ l, v.Ring l ∧
      (∀ s ∈ l, (v.slave_dev s).slave_inactive = false ∧ (v.slave_dev s).slave_needarp = false) ∧
      (∀ s ∈ l, ∀ (env : PassEnv) (skb : Skb), skb.dev = (v.slaves s).dev →
        (env.should_drop = true → (v.slave_dev s).slave_inactive = true) →
        v.frame env skb =
          ⟨{ skb with dev := (v.slave_dev s).master.getD skb.dev }, skb.dev, false⟩) ∧
      (Transition.run World.step (w.bond_init bond_dev params) es = some v →
        ∀ s ∈ l, (v.slave_dev s).master = some v.bond.dev) := by
  have hstart : (w.bond_init bond_dev params).Receiving [] := by
    have hinv := h.inv hm
    exact ⟨hinv.toRing, hinv.port, hinv.mode, fun s hs => absurd hs (by simp)⟩
  obtain ⟨l, hl⟩ := Transition.run_invariant (fun u => ∃ l, u.Receiving l)
    (fun _ _ _ hi hs => hi.choose_spec.attempt hs) hv ⟨[], hstart⟩
  refine ⟨l, hl.toRing, fun s hs => ?_, fun s hs env skb => hl.frame hs, fun hstep s hs => ?_⟩
  · have heligible := hl.eligible s hs
    simpa [NetDevice.eligible] using heligible
  · obtain ⟨m, hinv⟩ := h.run_inv hm hstep
    rw [hl.toRing.unique hinv.toRing] at hs
    exact congrArg Prod.snd (hinv.owned s hs)

end World

/-- Both cards stay eligible when a third enslave fails and the bond is switched. -/
theorem two_slaves_eligible : ∃ v l,
    @Transition.run _ _ (@World.attempt noSiblings) bond0
      (two_slaves ++ [.enslave ⟨none, 0, 0⟩ 3, .make, .mii_monitor]) = some v ∧
    v.Ring l ∧ l ≠ [] ∧
    ∀ s ∈ l, (v.slave_dev s).slave_inactive = false ∧ (v.slave_dev s).slave_needarp = false := by
  have hrun : (@Transition.run _ _ (@World.attempt noSiblings) bond0
      (two_slaves ++ [.enslave ⟨none, 0, 0⟩ 3, .make, .mii_monitor])).any
        (fun v => v.bond.slave_cnt == 2) = true := by
    decide +kernel
  obtain ⟨v, hv, hcnt⟩ := (Option.any_eq_true _ _).mp hrun
  obtain ⟨l, hring, hflags, -, -⟩ :=
    @World.slaves_stay_eligible noSiblings _ _ _ machine_host _ rfl _ hv
  refine ⟨v, l, hv, hring, ?_, hflags⟩
  rintro rfl
  have hcount := hring.count
  rw [beq_iff_eq.mp hcnt] at hcount
  cases hcount

end Hoolock
