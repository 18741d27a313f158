import Hoolock.Lifetime

/-!
Every way through `bond_enslave` in HOOLOCK mode, by what decides it, and what a failing
call leaves behind.
-/

set_option autoImplicit false

namespace Hoolock

structure Holdings where
  first_slave : Option SlaveId
  slave_cnt : Int
  curr_active_slave : Option SlaveId
  current_arp_slave : Option SlaveId
  primary_slave : Option SlaveId

namespace World

def holdings (w : World) : Holdings :=
  { first_slave := w.bond.first_slave, slave_cnt := w.bond.slave_cnt,
    curr_active_slave := w.bond.curr_active_slave,
    current_arp_slave := w.bond.current_arp_slave, primary_slave := w.bond.primary_slave }

def refuses (w : World) (d : DevId) : Bool :=
  (w.devs d).iff_slave ||
    ((w.devs d).features &&& NETIF_F_VLAN_CHALLENGED != 0 && w.bond.vlan_list != [])

/-- The device is found unfit once the bond's features have been touched. -/
def unsuitable (w : World) (d : DevId) : Bool :=
  (w.devs d).iff_up || (w.bond.slave_cnt != 0 && w.bond_dev.type != (w.devs d).type) ||
    ((w.devs d).set_mac_address.isNone && w.bond.slave_cnt != 0 && !w.keeps_own_mac)

/-- The address the slave is given: the bond's, as long as the first slave wants it. -/
def master_addr (w : World) (d : DevId) : HwAddr :=
  w.bond_dev.dev_addr.take
    (if w.bond.slave_cnt = 0 ∧ (w.devs d).type ≠ ARPHRD_ETHER then (w.devs d).addr_len
    else w.bond_dev.addr_len)

/-- Record, address, master and `dev_open`: all four work. -/
def starts (env : EnslaveEnv) (w : World) (d : DevId) : Bool :=
  env.new_slave.isSome && (w.bond.params.fail_over_mac != .none ||
    (w.devs d).set_mac_address.all fun set => set (w.master_addr d) == 0) &&
    (w.devs d).master.isNone && (w.devs d).present && env.open_slave == 0

/-- A first slave whose address is fixed changes `fail_over_mac`. -/
def fom_after (w : World) (d : DevId) : FailOverMac :=
  if w.bond.slave_cnt = 0 ∧ (w.devs d).set_mac_address.isNone then .active
  else w.bond.params.fail_over_mac

/-- `int old_features` -/
def old_features (w : World) : BitVec 64 := (w.bond_dev.features.setWidth 32).signExtend 64

def enslave_prepared (w : World) (d : DevId) : World :=
  ((w.enslave_vlan d).enslave_type d).enslave_fom d

def enslave_record (w : World) (d : DevId) (s : SlaveId) : World :=
  (w.kzalloc_slave s).setSlave s fun x =>
    { x with perm_hwaddr := (w.devs d).dev_addr.take ETH_ALEN }

def enslave_mac (w : World) (d : DevId) : Int × World :=
  if w.bond.params.fail_over_mac = FailOverMac.none then
    w.onDev d fun dev =>
      dev_set_mac_address (w.bond_dev.dev_addr.take w.bond_dev.addr_len) dev.type dev
  else (0, w)

def enslave_ready (env : EnslaveEnv) (w : World) (d : DevId) (s : SlaveId) : World :=
  let w := ((w.enslave_record d s).enslave_mac d).2
  let w := (w.onDev d (netdev_set_master (some w.bond.dev))).2
  (w.onDev d (dev_open env.open_slave)).2

/-- Of `w` only the record `s` and the devices have changed, and their features have not. -/
structure Near (w x : World) (s : SlaveId) : Prop where
  port : x.port = w.port
  bond : x.bond = w.bond
  slaves : ∀ t, t ≠ s → x.slaves t = w.slaves t
  features : ∀ e, (x.devs e).features = (w.devs e).features

theorem Near.setDev {w x : World} {s : SlaveId} (h : Near w x s) (d : DevId)
    {f : NetDevice → NetDevice} (hf : ∀ dev, (f dev).features = dev.features) :
    Near w (x.setDev d f) s := by
  refine ⟨h.port, h.bond, h.slaves, fun e => ?_⟩
  rw [← h.features e]
  by_cases he : e = d
  · simp [World.setDev, he, hf]
  · simp [World.setDev, he]

theorem Near.onDev {w x : World} {s : SlaveId} (h : Near w x s) (d : DevId)
    {f : NetDevice → Int × NetDevice} (hf : ∀ dev, (f dev).2.features = dev.features) :
    Near w (x.onDev d f).2 s := h.setDev d hf

theorem near_record (w : World) (d : DevId) (s : SlaveId) : Near w (w.enslave_record d s) s := by
  refine ⟨rfl, rfl, fun t ht => ?_, fun _ => rfl⟩
  simp [enslave_record, kzalloc_slave, setSlave, ht]

theorem set_mac_features (a : HwAddr) (n : Nat) (dev : NetDevice) :
    (dev_set_mac_address a n dev).2.features = dev.features := by
  unfold dev_set_mac_address
  split
  · rfl
  · split_ifs <;> rfl

theorem set_master_features (master : Option DevId) (dev : NetDevice) :
    (netdev_set_master master dev).2.features = dev.features := by
  unfold netdev_set_master
  cases master with
  | none => rfl
  | some m =>
    dsimp only
    split_ifs <;> rfl

theorem open_features (r : Int) (dev : NetDevice) : (dev_open r dev).2.features = dev.features := by
  unfold dev_open
  split_ifs <;> rfl

structure Freed (w x : World) (s : SlaveId) (f : BitVec 64) : Prop where
  bond : x.bond = w.bond
  slaves : ∀ t, t ≠ s → x.slaves t = w.slaves t
  features : ∀ e, (x.devs e).features = if e = w.bond.dev then f else (w.devs e).features

theorem Near.err_free {w x : World} {s : SlaveId} (h : Near w x s) (f : BitVec 64) :
    Freed w (x.err_free s f) s f := by
  refine ⟨h.bond, h.slaves, fun e => ?_⟩
  have hdev : x.bond.dev = w.bond.dev := congrArg Bonding.dev h.bond
  rw [← h.features e, ← hdev]
  by_cases he : e = x.bond.dev
  · simp [World.err_free, err_undo_flags, setFeatures, kfree_slave, World.setDev, he]
  · simp [World.err_free, err_undo_flags, setFeatures, kfree_slave, World.setDev, he]

theorem Near.err_restore_mac {w x : World} {s : SlaveId} (h : Near w x s) (d : DevId)
    (f : BitVec 64) : Freed w (x.err_restore_mac d s f) s f := by
  unfold World.err_restore_mac
  dsimp only
  split_ifs
  · exact (h.onDev d fun dev => set_mac_features _ _ dev).err_free f
  · exact h.err_free f

theorem Near.err_set_master {w x : World} {s : SlaveId} (h : Near w x s) (hp : w.port = .k27)
    (d : DevId) (f : BitVec 64) : Freed w (x.err_set_master d s f) s f := by
  unfold World.err_set_master
  rw [h.port, hp]
  exact h.err_restore_mac d f

theorem Near.err_open {w x : World} {s : SlaveId} (h : Near w x s) (hp : w.port = .k27)
    (d : DevId) (f : BitVec 64) : Freed w (x.err_open d s f) s f := by
  unfold World.err_open
  rw [h.port, hp]
  exact (h.onDev d (set_master_features none)).err_restore_mac d f

theorem Near.mac {w x : World} {s : SlaveId} (h : Near w x s) (d : DevId) :
    Near w (x.enslave_mac d).2 s := by
  unfold enslave_mac
  split_ifs
  · exact h.onDev d fun dev => set_mac_features _ _ dev
  · exact h

theorem set_mac_ok (a : HwAddr) (dev : NetDevice) : (dev_set_mac_address a dev.type dev).1 = 0 ↔
    ∃ set, dev.set_mac_address = some set ∧ dev.present = true ∧ set a = 0 := by
  unfold dev_set_mac_address
  split
  · rename_i hset
    simp [hset, EOPNOTSUPP]
  · rename_i set hset
    cases hpres : dev.present with
    | false => simp [ENODEV]
    | true =>
      by_cases hret : set a = 0
      · simp [hset, hret]
      · simp [hset, hret]

theorem mac_ok (x : World) (d : DevId) : (x.enslave_mac d).1 = 0 ↔
    x.bond.params.fail_over_mac ≠ .none ∨ ∃ set, (x.devs d).set_mac_address = some set ∧
      (x.devs d).present = true ∧ set (x.bond_dev.dev_addr.take x.bond_dev.addr_len) = 0 := by
  unfold enslave_mac
  by_cases hfom : x.bond.params.fail_over_mac = .none
  · rw [if_pos hfom]
    exact (set_mac_ok _ _).trans (or_iff_right (not_not.mpr hfom)).symm
  · rw [if_neg hfom]
    exact iff_of_true rfl (Or.inl hfom)

theorem open_ok (r : Int) (dev : NetDevice) (hup : dev.iff_up = false) :
    (dev_open r dev).1 = 0 ↔ dev.present = true ∧ r = 0 := by
  unfold dev_open
  cases hpres : dev.present with
  | false => simp [hup, ENODEV]
  | true =>
    by_cases hr : r = 0
    · simp [hup, hr]
    · simp [hup, hr]

theorem set_mac_kept (a : HwAddr) (n : Nat) (dev : NetDevice) :
    (dev_set_mac_address a n dev).2.master = dev.master ∧
      (dev_set_mac_address a n dev).2.iff_up = dev.iff_up ∧
      (dev_set_mac_address a n dev).2.present = dev.present := by
  unfold dev_set_mac_address
  split
  · exact ⟨rfl, rfl, rfl⟩
  · split_ifs <;> exact ⟨rfl, rfl, rfl⟩

theorem mac_kept (x : World) (d : DevId) :
    ((x.enslave_mac d).2.devs d).master = (x.devs d).master ∧
      ((x.enslave_mac d).2.devs d).iff_up = (x.devs d).iff_up ∧
      ((x.enslave_mac d).2.devs d).present = (x.devs d).present := by
  unfold enslave_mac
  split_ifs
  · simp only [onDev, setDev, if_true]
    exact set_mac_kept _ _ _
  · exact ⟨rfl, rfl, rfl⟩

theorem set_master_kept (x : World) (d m : DevId) :
    ((x.onDev d (netdev_set_master (some m))).2.devs d).iff_up = (x.devs d).iff_up ∧
      ((x.onDev d (netdev_set_master (some m))).2.devs d).present = (x.devs d).present := by
  simp only [onDev, setDev, if_true]
  unfold netdev_set_master
  dsimp only
  split_ifs <;> exact ⟨rfl, rfl⟩

variable [Siblings]

def enslave_joined (w : World) (d : DevId) (s : SlaveId) : World :=
  (((w.setSlave s fun x => { x with dev := d }).setDev d fun dev =>
    { dev with bonding := true }).bond_add_vlans_on_slave).enslave_attach d s

omit [Siblings] in
/-- The record has its device and the device its mark; the slave is not attached yet. -/
structure Linked (w v : World) (d : DevId) (s : SlaveId) : Prop where
  port : v.port = w.port
  bond : v.bond = w.bond
  dev : (v.slaves s).dev = d
  others : ∀ t, t ≠ s → v.slaves t = w.slaves t
  devs : ∀ e, v.devs e = if e = d then { w.devs e with bonding := true } else w.devs e

theorem enslave_joined_eq (w : World) (d : DevId) (s : SlaveId) :
    ∃ v, Linked w v d s ∧ w.enslave_joined d s = v.enslave_attach d s := by
  refine ⟨((w.setSlave s fun x => { x with dev := d }).setDev d fun dev =>
    { dev with bonding := true }).bond_add_vlans_on_slave, ?_, rfl⟩
  have hrecord : ∀ t, t ≠ s → (w.setSlave s fun x => { x with dev := d }).slaves t = w.slaves t :=
    fun t ht => setSlave_other w _ ht
  exact
    { port := rfl, bond := rfl, others := hrecord, devs := fun e => rfl
      dev := congrArg Slave.dev (setSlave_self w s fun x => { x with dev := d }) }

theorem enslave_opened_hoolock {env : EnslaveEnv} {w : World} (hp : w.port = .k27)
    (hm : w.bond.params.mode = .hoolock) (d : DevId) (s : SlaveId) (f : BitVec 64) :
    enslave_opened env w d s f =
      if env.symlinks ≠ 0 then (env.symlinks, (w.enslave_joined d s).err_outer d s f)
      else (0, w.enslave_joined d s) := by
  obtain ⟨u, hu⟩ : ∃ u, u = (w.setSlave s fun x => { x with dev := d }).setDev d fun dev =>
      { dev with bonding := true } := ⟨_, rfl⟩
  have hum : u.bond.params.mode = .hoolock := hu ▸ hm
  have hup : u.port = .k27 := hu ▸ hp
  unfold enslave_opened enslave_filter enslave_joined orGoto
  dsimp only
  rw [← hu]
  simp only [hum, hup, USES_PRIMARY, beq_self_eq_true, if_true, reduceCtorEq, or_self, if_false,
    ne_eq, not_true_eq_false]

omit [Siblings] in
theorem orGoto_label {r : Int × World} (h : r.1 ≠ 0) (label : World → World)
    (next : World → Int × World) : orGoto r label next = (r.1, label r.2) := if_pos h

omit [Siblings] in
theorem orGoto_next {r : Int × World} (h : r.1 = 0) (label : World → World)
    (next : World → Int × World) : orGoto r label next = next r.2 := if_neg (not_not.mpr h)

theorem enslave_alloc_eq (env : EnslaveEnv) (w : World) (d : DevId) (s : SlaveId) (f : BitVec 64) :
    enslave_alloc env w d s f =
      orGoto ((w.enslave_record d s).enslave_mac d) (fun w => w.err_free s f) fun w =>
      orGoto (w.onDev d (netdev_set_master (some w.bond.dev)))
        (fun w => w.err_set_master d s f) fun w =>
      orGoto (w.onDev d (dev_open env.open_slave)) (fun w => w.err_open d s f) fun w =>
      enslave_opened env w d s f := rfl

omit [Siblings] in
def gets_through (env : EnslaveEnv) (w : World) (d : DevId) : Prop :=
  (w.bond.params.fail_over_mac ≠ .none ∨ ∃ set, (w.devs d).set_mac_address = some set ∧
    (w.devs d).present = true ∧ set (w.bond_dev.dev_addr.take w.bond_dev.addr_len) = 0) ∧
  (w.devs d).master = none ∧ (w.devs d).present = true ∧ env.open_slave = 0

theorem enslave_alloc_fails {env : EnslaveEnv} {w : World} (hp : w.port = .k27) {d : DevId}
    (hup : (w.devs d).iff_up = false) (s : SlaveId) (f : BitVec 64)
    (hno : ¬ gets_through env w d) :
    (enslave_alloc env w d s f).1 ≠ 0 ∧ Freed w (enslave_alloc env w d s f).2 s f := by
  have hnear := near_record w d s
  have hmac := mac_ok (w.enslave_record d s) d
  obtain ⟨hmaster, hmup, hmpres⟩ := mac_kept (w.enslave_record d s) d
  rw [enslave_alloc_eq]
  by_cases h1 : ((w.enslave_record d s).enslave_mac d).1 = 0
  · rw [orGoto_next h1]
    obtain ⟨x, hx⟩ : ∃ x, x = ((w.enslave_record d s).enslave_mac d).2 := ⟨_, rfl⟩
    have hxn : Near w x s := hx ▸ hnear.mac d
    rw [← hx] at hmaster hmup hmpres ⊢
    have hset := set_master_ok x.bond.dev (x.devs d)
    obtain ⟨hsup, hspres⟩ := set_master_kept x d x.bond.dev
    by_cases h2 : (x.onDev d (netdev_set_master (some x.bond.dev))).1 = 0
    · rw [orGoto_next h2]
      obtain ⟨y, hy⟩ : ∃ y, y = (x.onDev d (netdev_set_master (some x.bond.dev))).2 := ⟨_, rfl⟩
      have hyn : Near w y s := hy ▸ hxn.onDev d (set_master_features _)
      rw [← hy] at hsup hspres ⊢
      have hopen := open_ok env.open_slave (y.devs d) (hsup.trans (hmup.trans hup))
      have h3 : (y.onDev d (dev_open env.open_slave)).1 ≠ 0 := by
        intro h3
        obtain ⟨hpres, hret⟩ := hopen.mp h3
        refine hno ⟨hmac.mp h1, ?_, ?_, hret⟩
        · exact hmaster.symm.trans (hset.mp h2)
        · exact (hspres.trans hmpres).symm.trans hpres
      rw [orGoto_label h3]
      exact ⟨h3, (hyn.onDev d (open_features _)).err_open hp d f⟩
    · rw [orGoto_label h2]
      exact ⟨h2, (hxn.onDev d (set_master_features _)).err_set_master hp d f⟩
  · rw [orGoto_label h1]
    exact ⟨h1, (hnear.mac d).err_free f⟩

theorem enslave_alloc_works {env : EnslaveEnv} {w : World} {d : DevId}
    (hup : (w.devs d).iff_up = false) (s : SlaveId) (f : BitVec 64)
    (hyes : gets_through env w d) :
    enslave_alloc env w d s f = enslave_opened env (enslave_ready env w d s) d s f := by
  obtain ⟨hmac, hfree, hpres, hret⟩ := hyes
  obtain ⟨hmaster, hmup, hmpres⟩ := mac_kept (w.enslave_record d s) d
  have h1 : ((w.enslave_record d s).enslave_mac d).1 = 0 := (mac_ok _ _).mpr hmac
  rw [enslave_alloc_eq, orGoto_next h1]
  unfold enslave_ready
  obtain ⟨x, hx⟩ : ∃ x, x = ((w.enslave_record d s).enslave_mac d).2 := ⟨_, rfl⟩
  rw [← hx] at hmaster hmup hmpres ⊢
  obtain ⟨hsup, hspres⟩ := set_master_kept x d x.bond.dev
  have h2 : (x.onDev d (netdev_set_master (some x.bond.dev))).1 = 0 :=
    (set_master_ok _ _).mpr (hmaster.trans hfree)
  have h3 : ((x.onDev d (netdev_set_master (some x.bond.dev))).2.onDev d
      (dev_open env.open_slave)).1 = 0 :=
    (open_ok _ _ (hsup.trans (hmup.trans hup))).mpr ⟨hspres.trans (hmpres.trans hpres), hret⟩
  rw [orGoto_next h2, orGoto_next h3]

omit [Siblings] in
structure Prepared (w u : World) (d : DevId) : Prop where
  holdings : u.holdings = w.holdings
  core : u.core = w.core
  slaves : u.slaves = w.slaves
  fom : u.bond.params.fail_over_mac = w.fom_after d
  features : ∀ e, e ≠ w.bond.dev → (u.devs e).features = (w.devs e).features
  iff_up : (u.devs d).iff_up = (w.devs d).iff_up
  present : (u.devs d).present = (w.devs d).present
  master : (u.devs d).master = (w.devs d).master
  set_mac : (u.devs d).set_mac_address = (w.devs d).set_mac_address
  addr : u.bond_dev.dev_addr.take u.bond_dev.addr_len = w.master_addr d

omit [Siblings] in
theorem enslave_vlan_spec (w : World) (d : DevId) :
    (w.enslave_vlan d).bond = w.bond ∧ (w.enslave_vlan d).slaves = w.slaves ∧
      (∀ e, e ≠ w.bond.dev → (w.enslave_vlan d).devs e = w.devs e) ∧
      ∀ e, (w.enslave_vlan d).devs e =
        { w.devs e with features := ((w.enslave_vlan d).devs e).features } := by
  have hset : ∀ g : BitVec 64 → BitVec 64, (∀ e, e ≠ w.bond.dev →
      (w.setFeatures g).devs e = w.devs e) ∧
      ∀ e, (w.setFeatures g).devs e = { w.devs e with features := ((w.setFeatures g).devs e).features } := by
    intro g
    constructor
    · intro e he
      simp [setFeatures, setDev, he]
    · intro e
      by_cases he : e = w.bond.dev
      · simp [setFeatures, setDev, he]
      · simp [setFeatures, setDev, he]
  unfold enslave_vlan
  split_ifs
  · exact ⟨rfl, rfl, hset _⟩
  · exact ⟨rfl, rfl, hset _⟩
  · exact ⟨rfl, rfl, fun _ _ => rfl, fun _ => rfl⟩

omit [Siblings] in
theorem enslave_type_spec (w : World) (d : DevId) :
    (w.enslave_type d).holdings = w.holdings ∧ (w.enslave_type d).slaves = w.slaves ∧
      (w.enslave_type d).bond.params = w.bond.params ∧
      (∀ e, (w.enslave_type d).devs e =
        { w.devs e with
          type := ((w.enslave_type d).devs e).type
          hard_header_len := ((w.enslave_type d).devs e).hard_header_len
          addr_len := ((w.enslave_type d).devs e).addr_len }) ∧
      (w.enslave_type d).bond_dev.addr_len =
        if w.bond.slave_cnt = 0 ∧ (w.devs d).type ≠ ARPHRD_ETHER then (w.devs d).addr_len
        else w.bond_dev.addr_len := by
  unfold enslave_type
  by_cases hcond : w.bond.slave_cnt = 0 ∧ (w.devs d).type ≠ ARPHRD_ETHER
  · simp only [if_pos hcond]
    refine ⟨rfl, rfl, rfl, fun e => ?_, ?_⟩
    · by_cases he : e = w.bond.dev
      · simp [bond_setup_by_slave, setDev, setBond, he]
      · simp [bond_setup_by_slave, setDev, setBond, he]
    · simp [bond_dev, bond_setup_by_slave, setDev, setBond]
  · rw [if_neg hcond, if_neg hcond]
    exact ⟨rfl, rfl, rfl, fun _ => rfl, rfl⟩

omit [Siblings] in
theorem prepared (w : World) (d : DevId) : Prepared w (w.enslave_prepared d) d := by
  obtain ⟨v, hv⟩ : ∃ v, v = w.enslave_vlan d := ⟨_, rfl⟩
  obtain ⟨hvb, hvs, hvother, hvdev⟩ := enslave_vlan_spec w d
  rw [← hv] at hvb hvs hvother hvdev
  obtain ⟨t, ht⟩ : ∃ t, t = v.enslave_type d := ⟨_, rfl⟩
  obtain ⟨hth, hts, htp, htdev, htlen⟩ := enslave_type_spec v d
  rw [← ht] at hth hts htp htdev htlen
  have hvh : v.holdings = w.holdings := by
    unfold holdings
    rw [hvb]
  have hcore : (w.enslave_prepared d).core = w.core := by simp [enslave_prepared]
  have htcore : t.core = w.core := by simp [ht, hv]
  have htd : t.bond.dev = w.bond.dev := congrArg Core.dev htcore
  have hcnt : t.bond.slave_cnt = w.bond.slave_cnt := congrArg Holdings.slave_cnt (hth.trans hvh)
  -- all that is read of the devices later comes through both stages
  have hdev : ∀ e, (t.devs e).iff_up = (w.devs e).iff_up ∧ (t.devs e).present = (w.devs e).present ∧
      (t.devs e).master = (w.devs e).master ∧
      (t.devs e).set_mac_address = (w.devs e).set_mac_address ∧
      (t.devs e).dev_addr = (w.devs e).dev_addr := by
    intro e
    rw [htdev e, hvdev e]
    exact ⟨rfl, rfl, rfl, rfl, rfl⟩
  have hprep : w.enslave_prepared d = t.enslave_fom d := by rw [ht, hv]; rfl
  have hfom : (t.enslave_fom d).holdings = t.holdings ∧ (t.enslave_fom d).slaves = t.slaves ∧
      (t.enslave_fom d).devs = t.devs ∧ (t.enslave_fom d).bond.dev = t.bond.dev ∧
      (t.enslave_fom d).bond.params.fail_over_mac = w.fom_after d := by
    unfold enslave_fom fom_after
    rw [hcnt, (hdev d).2.2.2.1]
    split_ifs
    · exact ⟨rfl, rfl, rfl, rfl, rfl⟩
    · refine ⟨rfl, rfl, rfl, rfl, ?_⟩
      rw [htp, hvb]
  obtain ⟨hfh, hfs, hfdevs, hfdev, hffom⟩ := hfom
  rw [hprep] at hcore ⊢
  refine
    { holdings := hfh.trans (hth.trans hvh), core := hcore, slaves := hfs.trans (hts.trans hvs)
      fom := hffom, features := fun e he => ?_, iff_up := ?_, present := ?_, master := ?_
      set_mac := ?_, addr := ?_ }
  · rw [hfdevs, htdev e]
    rw [hvother e he]
  · rw [hfdevs, (hdev d).1]
  · rw [hfdevs, (hdev d).2.1]
  · rw [hfdevs, (hdev d).2.2.1]
  · rw [hfdevs, (hdev d).2.2.2.1]
  · unfold bond_dev master_addr
    rw [hfdevs, hfdev, htd, (hdev w.bond.dev).2.2.2.2]
    have hlen : (t.devs w.bond.dev).addr_len = if w.bond.slave_cnt = 0 ∧
        (w.devs d).type ≠ ARPHRD_ETHER then (w.devs d).addr_len else w.bond_dev.addr_len := by
      unfold bond_dev at htlen
      rw [htd] at htlen
      rw [htlen, hvb, hvdev d, hvdev w.bond.dev]
      rfl
    rw [hlen]
    rfl

omit [Siblings] in
/-- A failing call has left everything as it was, but for the record it freed, the value of
`fail_over_mac` and what `int old_features` lost of the bond's features. -/
structure Undone (w v : World) (s : Option SlaveId) (fom : FailOverMac) : Prop where
  holdings : v.holdings = w.holdings
  fail_over_mac : v.bond.params.fail_over_mac = fom
  slaves : ∀ t, s ≠ some t → v.slaves t = w.slaves t
  features : ∀ e, (v.devs e).features = if e = w.bond.dev then w.old_features
    else (w.devs e).features

omit [Siblings] in
theorem undo_flags_features {w u : World} (hdev : u.bond.dev = w.bond.dev)
    (hf : ∀ e, e ≠ w.bond.dev → (u.devs e).features = (w.devs e).features) (f : BitVec 64) (e : DevId) :
    ((u.err_undo_flags f).devs e).features = if e = w.bond.dev then f else (w.devs e).features := by
  by_cases he : e = w.bond.dev
  · simp [err_undo_flags, setFeatures, setDev, hdev, he]
  · simp [err_undo_flags, setFeatures, setDev, hdev, he, hf e he]

theorem bond_enslave_refused {env : EnslaveEnv} {w : World} {d : DevId} (h : w.refuses d = true) :
    (bond_enslave env w d).1 ≠ 0 ∧ (bond_enslave env w d).2 = w := by
  unfold refuses at h
  rw [Bool.or_eq_true, Bool.and_eq_true, bne_iff_ne, bne_iff_ne] at h
  unfold bond_enslave
  dsimp only
  by_cases hs : (w.devs d).iff_slave = true
  · rw [if_pos hs]
    exact ⟨by simp [EBUSY], rfl⟩
  · rw [if_neg hs, if_pos (h.resolve_left hs)]
    exact ⟨by simp [EPERM], rfl⟩

omit [Siblings] in
theorem unsuitable_iff (w : World) (d : DevId) : w.unsuitable d = true ↔
    (w.devs d).iff_up = true ∨
    ((w.enslave_vlan d).bond.slave_cnt ≠ 0 ∧ (w.enslave_vlan d).bond_dev.type ≠ (w.devs d).type) ∨
    ((w.devs d).set_mac_address.isNone = true ∧
      ((w.enslave_vlan d).enslave_type d).bond.slave_cnt ≠ 0 ∧
      (!((w.enslave_vlan d).enslave_type d).keeps_own_mac) = true) := by
  obtain ⟨hvb, -, -, hvdev⟩ := enslave_vlan_spec w d
  obtain ⟨hth, -, htp, -, -⟩ := enslave_type_spec (w.enslave_vlan d) d
  have hcnt : ((w.enslave_vlan d).enslave_type d).bond.slave_cnt = w.bond.slave_cnt := by
    have ht := congrArg Holdings.slave_cnt hth
    exact ht.trans (congrArg Bonding.slave_cnt hvb)
  have htype : (w.enslave_vlan d).bond_dev.type = w.bond_dev.type := by
    unfold bond_dev
    rw [hvb, hvdev w.bond.dev]
  have hport : ((w.enslave_vlan d).enslave_type d).port = w.port := by
    have hcore : ((w.enslave_vlan d).enslave_type d).core = w.core := by simp
    exact congrArg Core.port hcore
  have hkeeps : ((w.enslave_vlan d).enslave_type d).keeps_own_mac = w.keeps_own_mac := by
    unfold keeps_own_mac
    rw [hport, htp, hvb]
  unfold unsuitable
  rw [hcnt, htype, hkeeps, hvb]
  simp only [Bool.or_eq_true, Bool.and_eq_true, bne_iff_ne, or_assoc, and_assoc]

theorem bond_enslave_unsuitable {env : EnslaveEnv} {w : World} {d : DevId}
    (h : w.refuses d = false) (hu : w.unsuitable d = true) :
    (bond_enslave env w d).1 ≠ 0 ∧
      Undone w (bond_enslave env w d).2 none w.bond.params.fail_over_mac := by
  obtain ⟨hslave, hvlan⟩ : ¬ (w.devs d).iff_slave = true ∧
      ¬ ((w.devs d).features &&& NETIF_F_VLAN_CHALLENGED ≠ 0 ∧ w.bond.vlan_list ≠ []) := by
    simpa [refuses] using h
  obtain ⟨hvb, hvs, hvother, hvdev⟩ := enslave_vlan_spec w d
  obtain ⟨hth, hts, htp, htdev, -⟩ := enslave_type_spec (w.enslave_vlan d) d
  have hvundone : Undone w ((w.enslave_vlan d).err_undo_flags w.old_features) none
      w.bond.params.fail_over_mac := by
    refine ⟨?_, congrArg (fun b => b.params.fail_over_mac) hvb, fun t _ => congrFun hvs t, ?_⟩
    · have hh : (w.enslave_vlan d).holdings = w.holdings := by
        unfold holdings
        rw [hvb]
      exact hh
    · refine undo_flags_features (congrArg Bonding.dev hvb) (fun e he => ?_) _
      rw [hvother e he]
  have htundone : Undone w (((w.enslave_vlan d).enslave_type d).err_undo_flags w.old_features) none
      w.bond.params.fail_over_mac := by
    have hdev : ((w.enslave_vlan d).enslave_type d).bond.dev = w.bond.dev := by
      have hcore : ((w.enslave_vlan d).enslave_type d).core = w.core := by simp
      exact congrArg Core.dev hcore
    have hh : ((w.enslave_vlan d).enslave_type d).holdings = w.holdings := by
      rw [hth]
      unfold holdings
      rw [hvb]
    refine ⟨hh, ?_, fun t _ => congrFun (hts.trans hvs) t, ?_⟩
    · exact (congrArg Params.fail_over_mac htp).trans
        (congrArg (fun b : Bonding => b.params.fail_over_mac) hvb)
    · refine undo_flags_features hdev (fun e he => ?_) _
      rw [htdev e, hvother e he]
  have hcheck := (unsuitable_iff w d).mp hu
  unfold bond_enslave
  dsimp only
  rw [if_neg hslave, if_neg hvlan]
  by_cases hup : (w.devs d).iff_up = true
  · rw [if_pos hup]
    exact ⟨by simp [EPERM], hvundone⟩
  · rw [if_neg hup]
    by_cases htype : (w.enslave_vlan d).bond.slave_cnt ≠ 0 ∧
        (w.enslave_vlan d).bond_dev.type ≠ (w.devs d).type
    · rw [if_pos htype]
      exact ⟨by simp [EINVAL], hvundone⟩
    · rw [if_neg htype, if_pos ((hcheck.resolve_left hup).resolve_left htype)]
      exact ⟨by simp [EOPNOTSUPP], htundone⟩

theorem bond_enslave_suitable {env : EnslaveEnv} {w : World} {d : DevId}
    (h : w.refuses d = false) (hu : w.unsuitable d = false) :
    bond_enslave env w d = match env.new_slave with
      | none => (-ENOMEM, (w.enslave_prepared d).err_undo_flags w.old_features)
      | some s => enslave_alloc env (w.enslave_prepared d) d s w.old_features := by
  obtain ⟨hslave, hvlan⟩ : ¬ (w.devs d).iff_slave = true ∧
      ¬ ((w.devs d).features &&& NETIF_F_VLAN_CHALLENGED ≠ 0 ∧ w.bond.vlan_list ≠ []) := by
    simpa [refuses] using h
  have hcheck := mt (unsuitable_iff w d).mpr (by rw [hu]; decide)
  obtain ⟨hup, hrest⟩ := not_or.mp hcheck
  obtain ⟨htype, hmac⟩ := not_or.mp hrest
  unfold bond_enslave
  dsimp only
  rw [if_neg hslave, if_neg hvlan, if_neg hup, if_neg htype, if_neg hmac]
  rfl

omit [Siblings] in
/-- A device that cannot change its address is not asked to: it has been found unfit, or
`fail_over_mac` allows it to keep its own. -/
theorem starts_iff {env : EnslaveEnv} {w : World} (hp : w.port = .k27) {d : DevId}
    (hu : w.unsuitable d = false) :
    starts env w d = true ↔
      env.new_slave.isSome = true ∧ gets_through env (w.enslave_prepared d) d := by
  have hprep := prepared w d
  have hkeeps : (w.devs d).set_mac_address = none → w.fom_after d ≠ .none := by
    intro hnone
    unfold fom_after
    by_cases hcnt : w.bond.slave_cnt = 0
    · simp [hcnt, hnone]
    · have hown : w.keeps_own_mac = true := by
        simp only [unsuitable, hnone, Option.isNone_none, Bool.true_and, Bool.or_eq_false_iff,
          Bool.and_eq_false_iff, bne_eq_false_iff_eq, Bool.not_eq_false'] at hu
        exact hu.2.resolve_left hcnt
      unfold keeps_own_mac at hown
      rw [hp] at hown
      rw [beq_iff_eq] at hown
      rw [if_neg (fun hboth => hcnt hboth.1), hown]
      decide
  unfold gets_through starts
  rw [hprep.fom, hprep.set_mac, hprep.present, hprep.master, hprep.addr]
  cases hset : (w.devs d).set_mac_address with
  | none =>
    have hfom := hkeeps hset
    simp [hfom, and_assoc]
  | some set =>
    have hfom : w.fom_after d = w.bond.params.fail_over_mac := by
      unfold fom_after
      rw [hset]
      exact if_neg (by simp)
    simp [hfom, and_assoc]
    intro _ _ hpres _
    rw [and_iff_right hpres]

theorem bond_enslave_fails {env : EnslaveEnv} {w : World} (hp : w.port = .k27) {d : DevId}
    (h : w.refuses d = false) (hu : w.unsuitable d = false) (hs : starts env w d = false) :
    (bond_enslave env w d).1 ≠ 0 ∧
      Undone w (bond_enslave env w d).2 env.new_slave (w.fom_after d) := by
  have hprep := prepared w d
  have hdev : (w.enslave_prepared d).bond.dev = w.bond.dev := congrArg Core.dev hprep.core
  rw [bond_enslave_suitable h hu]
  cases hnew : env.new_slave with
  | none =>
    refine ⟨by simp [ENOMEM], hprep.holdings, hprep.fom, fun t _ => congrFun hprep.slaves t, ?_⟩
    exact undo_flags_features hdev hprep.features _
  | some s =>
    have hno : ¬ gets_through env (w.enslave_prepared d) d := by
      intro hyes
      have htrue := (starts_iff hp hu).mpr ⟨by rw [hnew]; rfl, hyes⟩
      rw [hs] at htrue
      cases htrue
    have hup : ((w.enslave_prepared d).devs d).iff_up = false := by
      rw [hprep.iff_up]
      simp only [unsuitable, Bool.or_eq_false_iff] at hu
      exact hu.1.1
    obtain ⟨hret, hfreed⟩ := enslave_alloc_fails ((congrArg Core.port hprep.core).trans hp) hup s
      w.old_features hno
    refine ⟨hret, ?_, ?_, fun t ht => ?_, fun e => ?_⟩
    · have hh : (enslave_alloc env (w.enslave_prepared d) d s w.old_features).2.holdings =
          (w.enslave_prepared d).holdings := by
        unfold holdings
        rw [hfreed.bond]
      exact hh.trans hprep.holdings
    · exact (congrArg (fun b : Bonding => b.params.fail_over_mac) hfreed.bond).trans hprep.fom
    · have hts : t ≠ s := fun e => ht (congrArg some e.symm)
      exact (hfreed.slaves t hts).trans (congrFun hprep.slaves t)
    · rw [hfreed.features e, hdev]
      by_cases he : e = w.bond.dev
      · rw [if_pos he, if_pos he]
      · rw [if_neg he, if_neg he, hprep.features e he]

omit [Siblings] in
theorem core_ready (env : EnslaveEnv) (w : World) (d : DevId) (s : SlaveId) :
    (enslave_ready env (w.enslave_prepared d) d s).core = w.core := by
  have hmac : ∀ v : World, ((v.enslave_record d s).enslave_mac d).2.core = v.core := by
    intro v
    unfold enslave_mac
    split_ifs
    · rw [core_onDev]
      rfl
    · rfl
  unfold enslave_ready
  dsimp only
  rw [core_onDev, core_onDev]
  exact (hmac _).trans (prepared w d).core

omit [Siblings] in
theorem err_outer_kept (w : World) (d : DevId) (s : SlaveId) (f : BitVec 64) :
    (w.err_outer d s f).bond = w.bond ∧ (w.err_outer d s f).slaves = w.slaves := by
  have hrestore : ∀ x : World, (x.err_restore_mac d s f).bond = x.bond ∧
      (x.err_restore_mac d s f).slaves = x.slaves := by
    intro x
    unfold err_restore_mac
    dsimp only
    split_ifs <;> exact ⟨rfl, rfl⟩
  unfold err_outer
  cases w.port with
  | k24 => exact hrestore _
  | k27 => exact hrestore _

theorem bond_enslave_joins (env : EnslaveEnv) {w : World} (hp : w.port = .k27)
    (hm : w.bond.params.mode = .hoolock) {d : DevId} (h : w.refuses d = false)
    (hu : w.unsuitable d = false) (hs : starts env w d = true) {s : SlaveId}
    (hnew : env.new_slave = some s) {x : World}
    (hx : x = (enslave_ready env (w.enslave_prepared d) d s).enslave_joined d s) :
    bond_enslave env w d = if env.symlinks ≠ 0 then
      (env.symlinks, x.err_outer d s w.old_features) else (0, x) := by
  have hprep := prepared w d
  obtain ⟨-, hyes⟩ := (starts_iff hp hu).mp hs
  have hup : ((w.enslave_prepared d).devs d).iff_up = false := by
    rw [hprep.iff_up]
    simp only [unsuitable, Bool.or_eq_false_iff] at hu
    exact hu.1.1
  have hready := core_ready env w d s
  rw [bond_enslave_suitable h hu, hnew]
  dsimp only
  rw [enslave_alloc_works hup s _ hyes, hx]
  exact enslave_opened_hoolock ((congrArg Core.port hready).trans hp)
    ((congrArg Core.mode hready).trans hm) d s _

/-- With record, address, master and open device it comes down to the symlinks, and by then the
slave is on the ring. -/
theorem bond_enslave_starts {env : EnslaveEnv} {w : World} (hp : w.port = .k27)
    (hm : w.bond.params.mode = .hoolock) {d : DevId} (h : w.refuses d = false)
    (hu : w.unsuitable d = false) (hs : starts env w d = true) :
    ∃ s x, env.new_slave = some s ∧ Enslaved w x s d ∧
      x = (enslave_ready env (w.enslave_prepared d) d s).enslave_joined d s ∧
      bond_enslave env w d = if env.symlinks ≠ 0 then
        (env.symlinks, x.err_outer d s w.old_features) else (0, x) := by
  obtain ⟨s, hnew⟩ := Option.isSome_iff_exists.mp ((starts_iff hp hu).mp hs).1
  obtain ⟨x, hx⟩ : ∃ x, x = (enslave_ready env (w.enslave_prepared d) d s).enslave_joined d s :=
    ⟨_, rfl⟩
  -- the state is the one that a call with working symlinks ends in
  have hok : bond_enslave { env with symlinks := 0 } w d = (0, x) :=
    bond_enslave_joins { env with symlinks := 0 } hp hm h hu hs hnew hx
  obtain ⟨t, ht, he⟩ := bond_enslave_ok hp hm hok
  obtain rfl : s = t := Option.some.inj (hnew.symm.trans ht)
  exact ⟨s, x, hnew, he, hx, bond_enslave_joins env hp hm h hu hs hnew hx⟩

theorem bond_enslave_zero {env : EnslaveEnv} {w : World} (hp : w.port = .k27)
    (hm : w.bond.params.mode = .hoolock) {d : DevId} (h : (bond_enslave env w d).1 = 0) :
    ∃ s, env.new_slave = some s ∧ Enslaved w (bond_enslave env w d).2 s d ∧
      (bond_enslave env w d).2 = (enslave_ready env (w.enslave_prepared d) d s).enslave_joined d s := by
  have hr : w.refuses d = false := by
    by_contra hne
    exact (bond_enslave_refused (by simpa using hne)).1 h
  have hu : w.unsuitable d = false := by
    by_contra hne
    exact (bond_enslave_unsuitable hr (by simpa using hne)).1 h
  have hs : starts env w d = true := by
    by_contra hne
    exact (bond_enslave_fails hp hr hu (by simpa using hne)).1 h
  obtain ⟨s, x, hnew, he, hx, hcall⟩ := bond_enslave_starts hp hm hr hu hs
  by_cases hlinks : env.symlinks = 0
  · rw [if_neg (not_not.mpr hlinks)] at hcall
    rw [hcall]
    exact ⟨s, hnew, he, hx⟩
  · rw [if_pos hlinks] at hcall
    rw [hcall] at h
    exact absurd h hlinks

end World

end Hoolock
