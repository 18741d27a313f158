import Hoolock.ActiveSlave

set_option autoImplicit false

namespace Hoolock

def ETH_ALEN : Nat := 6
def ETH_HLEN : Nat := 14
def ARPHRD_ETHER : Nat := 1
def MULTICAST_LACPDU_ADDR : HwAddr := [0x01, 0x80, 0xc2, 0x00, 0x00, 0x02]

def BOND_VLAN_FEATURES : BitVec 64 :=
  NETIF_F_VLAN_CHALLENGED ||| NETIF_F_HW_VLAN_RX ||| NETIF_F_HW_VLAN_TX |||
    NETIF_F_HW_VLAN_FILTER

/-- What enslaving meets outside the driver: the allocator's answer, the result of
the device's own open routine and that of `bond_create_slave_symlinks`. -/
structure EnslaveEnv where
  new_slave : Option SlaveId
  open_slave : Int
  symlinks : Int

def Shape.attach (S : Shape) (new_slave : SlaveId) : Shape :=
  match S.first_slave with
  | none =>
    { S with
      links := S.links.single new_slave
      first_slave := some new_slave
      slave_cnt := S.slave_cnt + 1 }
  | some first =>
    { S with links := S.links.insertBefore first new_slave, slave_cnt := S.slave_cnt + 1 }

def Shape.detach (S : Shape) (slave : SlaveId) : Shape :=
  { S with
    links := S.links.unlink slave
    first_slave :=
      if S.first_slave = some slave then (if S.slave_cnt > 1 then S.links.next slave else none)
      else S.first_slave
    slave_cnt := S.slave_cnt - 1 }

def Shape.alloc (S : Shape) (slave : SlaveId) (slave_dev : DevId) : Shape :=
  { S with
    links := (S.links.setNext slave none).setPrev slave none
    dev := fun s => if s = slave then slave_dev else S.dev s
    live := fun s => if s = slave then true else S.live s }

def Shape.free (S : Shape) (slave : SlaveId) : Shape :=
  { S with live := fun s => if s = slave then false else S.live s }

namespace World

def onDev (w : World) (d : DevId) (f : NetDevice → Int × NetDevice) : Int × World :=
  ((f (w.devs d)).1, w.setDev d fun dev => (f dev).2)

@[simp] theorem core_onDev (w : World) (d : DevId) (f : NetDevice → Int × NetDevice) :
    (w.onDev d f).2.core = w.core := rfl

@[simp] theorem shape_onDev (w : World) (d : DevId) (f : NetDevice → Int × NetDevice) :
    (w.onDev d f).2.shape = w.shape := rfl

/-- `if (res) goto label;` -/
def orGoto (r : Int × World) (label : World → World) (next : World → Int × World) :
    Int × World :=
  if r.1 ≠ 0 then (r.1, label r.2) else next r.2

theorem core_orGoto {c : Core} {r : Int × World} {label : World → World}
    {next : World → Int × World} (hr : r.2.core = c)
    (hl : ∀ w : World, w.core = c → (label w).core = c)
    (hn : ∀ w : World, w.core = c → (next w).2.core = c) : (orGoto r label next).2.core = c := by
  unfold orGoto
  split_ifs
  · exact hl _ hr
  · exact hn _ hr

def kzalloc_slave (w : World) (slave : SlaveId) : World :=
  let w := { w with live := fun s => if s = slave then true else w.live s }
  w.setSlave slave fun _ => Slave.zeroed

def kfree_slave (w : World) (slave : SlaveId) : World :=
  { w with live := fun s => if s = slave then false else w.live s }

@[simp] theorem core_kzalloc (w : World) (s : SlaveId) : (w.kzalloc_slave s).core = w.core := rfl

@[simp] theorem core_kfree (w : World) (s : SlaveId) : (w.kfree_slave s).core = w.core := rfl

@[simp] theorem shape_kfree (w : World) (s : SlaveId) :
    (w.kfree_slave s).shape = w.shape.free s := rfl

/-- The link state of a device; a driver that cannot tell counts as up. -/
def bond_check_dev_link (w : World) (dev : NetDevice) : Bool :=
  if w.bond.params.use_carrier then dev.carrier
  else match dev.mii_link with
    | some up => up
    | none => dev.ethtool_link.getD true

def bond_compute_features (w : World) : World :=
  let bond_dev := w.bond_dev
  let features :=
    bond_dev.features &&& ~~~(NETIF_F_ALL_CSUM ||| BOND_VLAN_FEATURES) |||
      (NETIF_F_SG ||| NETIF_F_FRAGLIST ||| NETIF_F_HIGHDMA ||| NETIF_F_GSO_MASK |||
        NETIF_F_NO_CSUM)
  let (features, max_hard_header_len) := w.bond_for_each_slave.foldl
    (fun (acc : BitVec 64 × Nat) s =>
      (netdev_compute_features acc.1 (w.slave_dev s).features,
        max acc.2 (w.slave_dev s).hard_header_len))
    (features, max ETH_HLEN bond_dev.hard_header_len)
  w.setDev w.bond.dev fun dev =>
    { dev with
      features := features ||| (bond_dev.features &&& BOND_VLAN_FEATURES)
      hard_header_len := max_hard_header_len }

def bond_setup_by_slave (w : World) (slave_dev : DevId) : World :=
  let sd := w.devs slave_dev
  let w := w.setDev w.bond.dev fun dev =>
    { dev with type := sd.type, hard_header_len := sd.hard_header_len, addr_len := sd.addr_len }
  w.setBond fun b => { b with setup_by_slave := true }

/-- The drivers' VLAN routines are not modelled, the lock around them is. -/
def bond_add_vlans_on_slave (w : World) : World :=
  (w.lock .bond .write).unlock .bond .write

def bond_del_vlans_from_slave (w : World) : World :=
  (w.lock .bond .write).unlock .bond .write

def bond_has_challenged_slaves (w : World) : Bool :=
  w.bond_for_each_slave.any fun s => (w.slave_dev s).features &&& NETIF_F_VLAN_CHALLENGED != 0

def setFeatures (w : World) (f : BitVec 64 → BitVec 64) : World :=
  w.setDev w.bond.dev fun dev => { dev with features := f dev.features }

/-! The labels at the end of `bond_enslave`, each falling through to the next -/

def err_undo_flags (w : World) (old_features : BitVec 64) : World :=
  w.setFeatures fun _ => old_features

def err_free (w : World) (new_slave : SlaveId) (old_features : BitVec 64) : World :=
  (w.kfree_slave new_slave).err_undo_flags old_features

def err_restore_mac (w : World) (slave_dev : DevId) (new_slave : SlaveId)
    (old_features : BitVec 64) : World :=
  let w := if w.bond.params.fail_over_mac = FailOverMac.none then
      (w.onDev slave_dev fun dev =>
        dev_set_mac_address (w.slaves new_slave).perm_hwaddr dev.type dev).2
    else w
  w.err_free new_slave old_features

/-- The two kernels have the labels for closing and for unsetting the master in
opposite order: this is the first of the two in either. -/
def err_outer (w : World) (slave_dev : DevId) (new_slave : SlaveId)
    (old_features : BitVec 64) : World :=
  match w.port with
  | .k27 =>
    let w := w.setDev slave_dev dev_close
    let w := (w.onDev slave_dev (netdev_set_master none)).2
    w.err_restore_mac slave_dev new_slave old_features
  | .k24 =>
    let w := (w.onDev slave_dev (netdev_set_master none)).2
    let w := w.setDev slave_dev dev_close
    w.err_restore_mac slave_dev new_slave old_features

/-- `goto err_unset_master` in 2.6.27, `goto err_restore_mac` in 2.6.24 -/
def err_open (w : World) (slave_dev : DevId) (new_slave : SlaveId)
    (old_features : BitVec 64) : World :=
  match w.port with
  | .k27 =>
    let w := (w.onDev slave_dev (netdev_set_master none)).2
    w.err_restore_mac slave_dev new_slave old_features
  | .k24 => w.err_restore_mac slave_dev new_slave old_features

/-- `goto err_restore_mac` in 2.6.27, `goto err_close` in 2.6.24 -/
def err_set_master (w : World) (slave_dev : DevId) (new_slave : SlaveId)
    (old_features : BitVec 64) : World :=
  match w.port with
  | .k27 => w.err_restore_mac slave_dev new_slave old_features
  | .k24 => (w.setDev slave_dev dev_close).err_restore_mac slave_dev new_slave old_features

/-! `bond_enslave` itself, from the last stage to the first -/

variable [Siblings]

def enslave_link (w : World) (slave_dev : DevId) (new_slave : SlaveId) : World :=
  if w.bond.params.miimon = 0 ∨ w.bond_check_dev_link (w.devs slave_dev) then
    if w.bond.params.updelay ≠ 0 then
      w.setSlave new_slave fun s => { s with link := .back, delay := w.bond.params.updelay }
    else w.setSlave new_slave fun s => { s with link := .up }
  else w.setSlave new_slave fun s => { s with link := .down }

def enslave_primary (w : World) (new_slave : SlaveId) : World :=
  if USES_PRIMARY w.port w.bond.params.mode ∧ w.bond.params.primary ≠ [] ∧
      w.bond.params.primary = (w.slave_dev new_slave).name then
    w.setBond fun b => { b with primary_slave := some new_slave }
  else w

/-- `switch (bond->params.mode)` -/
def enslave_mode (w : World) (new_slave : SlaveId) : World :=
  match w.bond.params.mode with
  | .activebackup => (w.bond_set_slave_inactive_flags new_slave).bond_select_active_slave
  | .ieee8023ad =>
    let w := w.bond_set_slave_inactive_flags new_slave
    let w := if w.bond.slave_cnt = 1 then w.sibling .bond_3ad_init else w
    w.sibling (.bond_3ad_bind_slave new_slave)
  | .tlb | .alb =>
    let w := w.setSlave new_slave fun s => { s with state := .active }
    w.bond_set_slave_inactive_flags new_slave
  | .hoolock =>
    let w := w.bond_set_slave_active_flags new_slave
    if w.bond.curr_active_slave = none then w.bond_change_active_slave (some new_slave) else w
  | .roundrobin | .xor | .broadcast =>
    let w := w.setSlave new_slave fun s => { s with state := .active }
    if w.bond.curr_active_slave = none then
      w.setBond fun b => { b with curr_active_slave := some new_slave }
    else w

/-- From attaching the slave to setting the carrier.  2.6.24 holds the write lock
throughout, 2.6.27 goes over to a read lock and `curr_slave_lock`. -/
def enslave_attach (w : World) (slave_dev : DevId) (new_slave : SlaveId) : World :=
  let w := w.lock .bond .write
  let w := w.bond_attach_slave new_slave
  let w := w.setSlave new_slave fun s => { s with delay := 0, link_failure_count := 0 }
  let w := w.bond_compute_features
  match w.port with
  | .k27 =>
    let w := (w.unlock .bond .write).lock .bond .read
    let w := (w.enslave_link slave_dev new_slave).enslave_primary new_slave
    let w := w.lock .curr_slave .write
    let w := w.enslave_mode new_slave
    let w := w.unlock .curr_slave .write
    w.bond_set_carrier.2.unlock .bond .read
  | .k24 =>
    let w := (w.enslave_link slave_dev new_slave).enslave_primary new_slave
    let w := w.enslave_mode new_slave
    w.bond_set_carrier.2.unlock .bond .write

def enslave_filter (w : World) (slave_dev : DevId) (label : World → World)
    (next : World → Int × World) : Int × World :=
  if USES_PRIMARY w.port w.bond.params.mode then next w
  else
    let promisc := if w.bond_dev.iff_promisc then
      w.onDev slave_dev (dev_set_promiscuity w.port 1) else (0, w)
    orGoto promisc label fun w =>
    let allmulti := if w.bond_dev.iff_allmulti then
      w.onDev slave_dev (dev_set_allmulti w.port 1) else (0, w)
    orGoto allmulti label fun w =>
    let mc_list := w.bond_dev.mc_list
    next (w.setDev slave_dev fun dev =>
      mc_list.foldl (fun dev dmi => dev_mc_add dmi.da_addr dev) dev)

/-- From `new_slave->dev = slave_dev` on: the device is open and has its master. -/
def enslave_opened (env : EnslaveEnv) (w : World) (slave_dev : DevId) (new_slave : SlaveId)
    (old_features : BitVec 64) : Int × World :=
  let err_close := fun w : World => w.err_outer slave_dev new_slave old_features
  let w := w.setSlave new_slave fun s => { s with dev := slave_dev }
  let w := w.setDev slave_dev fun dev => { dev with bonding := true }
  let alb := if w.bond.params.mode = .tlb ∨ w.bond.params.mode = .alb then
    Siblings.call (.bond_alb_init_slave new_slave) w else (0, w)
  orGoto alb err_close fun w =>
  w.enslave_filter slave_dev err_close fun w =>
  let w := if w.bond.params.mode = .ieee8023ad then
    w.setDev slave_dev (dev_mc_add MULTICAST_LACPDU_ADDR) else w
  let w := w.bond_add_vlans_on_slave.enslave_attach slave_dev new_slave
  orGoto (env.symlinks, w) err_close fun w => (0, w)

/-- From the allocation of the slave record on. -/
def enslave_alloc (env : EnslaveEnv) (w : World) (slave_dev : DevId) (new_slave : SlaveId)
    (old_features : BitVec 64) : Int × World :=
  let hwaddr := (w.devs slave_dev).dev_addr.take ETH_ALEN
  let w := w.kzalloc_slave new_slave
  let w := w.setSlave new_slave fun s => { s with perm_hwaddr := hwaddr }
  let sa_data := w.bond_dev.dev_addr.take w.bond_dev.addr_len
  let mac := if w.bond.params.fail_over_mac = FailOverMac.none then
      w.onDev slave_dev fun dev => dev_set_mac_address sa_data dev.type dev
    else (0, w)
  orGoto mac (fun w => w.err_free new_slave old_features) fun w =>
  orGoto (w.onDev slave_dev (netdev_set_master (some w.bond.dev)))
    (fun w => w.err_set_master slave_dev new_slave old_features) fun w =>
  orGoto (w.onDev slave_dev (dev_open env.open_slave))
    (fun w => w.err_open slave_dev new_slave old_features) fun w =>
  w.enslave_opened env slave_dev new_slave old_features

def enslave_vlan (w : World) (slave_dev : DevId) : World :=
  if (w.devs slave_dev).features &&& NETIF_F_VLAN_CHALLENGED ≠ 0 then
    w.setFeatures (· ||| NETIF_F_VLAN_CHALLENGED)
  else if w.bond.slave_cnt = 0 then w.setFeatures (· &&& ~~~NETIF_F_VLAN_CHALLENGED)
  else w

/-- A device that cannot change its address needs a bond that lets it keep its own. -/
def keeps_own_mac (w : World) : Bool :=
  match w.port with
  | .k27 => w.bond.params.fail_over_mac == .active
  | .k24 => w.bond.params.fail_over_mac != .none

def enslave_type (w : World) (slave_dev : DevId) : World :=
  if w.bond.slave_cnt = 0 ∧ (w.devs slave_dev).type ≠ ARPHRD_ETHER then
    w.bond_setup_by_slave slave_dev
  else w

/-- A first slave that cannot change its address makes the bond follow it. -/
def enslave_fom (w : World) (slave_dev : DevId) : World :=
  if w.bond.slave_cnt = 0 ∧ (w.devs slave_dev).set_mac_address.isNone then
    w.setBond fun b => { b with params := { b.params with fail_over_mac := .active } }
  else w

def bond_enslave (env : EnslaveEnv) (w : World) (slave_dev : DevId) : Int × World :=
  let sd := w.devs slave_dev
  -- `int old_features`: the low word, with its sign
  let old_features := (w.bond_dev.features.setWidth 32).signExtend 64
  if sd.iff_slave then (-EBUSY, w)
  else if sd.features &&& NETIF_F_VLAN_CHALLENGED ≠ 0 ∧ w.bond.vlan_list ≠ [] then (-EPERM, w)
  else
    let w := w.enslave_vlan slave_dev
    if sd.iff_up then (-EPERM, w.err_undo_flags old_features)
    else if w.bond.slave_cnt ≠ 0 ∧ w.bond_dev.type ≠ sd.type then
      (-EINVAL, w.err_undo_flags old_features)
    else
      let w := w.enslave_type slave_dev
      if sd.set_mac_address.isNone ∧ w.bond.slave_cnt ≠ 0 ∧ !w.keeps_own_mac then
        (-EOPNOTSUPP, w.err_undo_flags old_features)
      else
        let w := w.enslave_fom slave_dev
        match env.new_slave with
        | none => (-ENOMEM, w.err_undo_flags old_features)
        | some new_slave => w.enslave_alloc env slave_dev new_slave old_features

def release_filter (w : World) (slave_dev : DevId) : World :=
  if USES_PRIMARY w.port w.bond.params.mode then w
  else
    let w := w.setDev slave_dev w.filter_off
    if w.bond.params.mode = .ieee8023ad then
      w.setDev slave_dev (dev_mc_delete MULTICAST_LACPDU_ADDR) else w

def restore_mac (w : World) (slave_dev : DevId) (perm_hwaddr : HwAddr) : World :=
  (w.onDev slave_dev fun dev => dev_set_mac_address perm_hwaddr dev.type dev).2

/-- The master without slaves: no address and, without VLANs, no VLANs to come. -/
def clear_master (w : World) : World :=
  let w := w.setDev w.bond.dev fun dev =>
    { dev with dev_addr := List.replicate dev.addr_len 0 ++ dev.dev_addr.drop dev.addr_len }
  if w.bond.vlan_list = [] then w.setFeatures (· ||| NETIF_F_VLAN_CHALLENGED) else w

/-- The 802.3ad code is told before the slave is detached. -/
def release_unbind (w : World) (slave : SlaveId) : World :=
  if w.bond.params.mode = .ieee8023ad then w.sibling (.bond_3ad_unbind_slave slave) else w

def release_pointers (w : World) (slave : SlaveId) : World :=
  w.setBond fun b =>
    { b with
      current_arp_slave := none
      primary_slave := if b.primary_slave = some slave then none else b.primary_slave }

/-- Called with `bond->lock` held for writing, which is dropped around the call. -/
def release_alb (w : World) (slave : SlaveId) : World :=
  if w.bond.params.mode = .tlb ∨ w.bond.params.mode = .alb then
    ((w.unlock .bond .write).sibling (.bond_alb_deinit_slave slave)).lock .bond .write
  else w

def release_reselect (w : World) : World :=
  let w := ((w.unlock .bond .write).lock .bond .read).lock .curr_slave .write
  let w := w.bond_select_active_slave
  ((w.unlock .curr_slave .write).unlock .bond .read).lock .bond .write

def release_master (w : World) : World :=
  if w.bond.slave_cnt = 0 then w.bond_set_carrier.2.clear_master
  else if w.bond_dev.features &&& NETIF_F_VLAN_CHALLENGED ≠ 0 ∧
      !w.bond_has_challenged_slaves then
    w.setFeatures (· &&& ~~~NETIF_F_VLAN_CHALLENGED)
  else w

/-- The part of `bond_release` under the lock, the slave found. -/
def release_detach (w : World) (slave : SlaveId) : World :=
  let w := w.release_unbind slave
  let oldcurrent := w.bond.curr_active_slave
  let w := (w.bond_detach_slave slave).bond_compute_features.release_pointers slave
  if oldcurrent = some slave then
    (((w.bond_change_active_slave none).release_alb slave).release_reselect).release_master
  else (w.release_alb slave).release_master

/-- What is undone outside the locks, the same in both kinds of release. -/
def release_device (w : World) (slave : SlaveId) (slave_dev : DevId) (restore : Bool) : World :=
  let w := w.bond_del_vlans_from_slave.release_filter slave_dev
  let w := (w.onDev slave_dev (netdev_set_master none)).2
  let w := w.setDev slave_dev dev_close
  if restore then w.restore_mac slave_dev (w.slaves slave).perm_hwaddr else w

def bond_release (w : World) (slave_dev : DevId) : Int × World :=
  if !(w.devs slave_dev).iff_slave ∨ (w.devs slave_dev).master ≠ some w.bond.dev then
    (-EINVAL, w)
  else
    let w := w.lock .bond .write
    match w.bond_get_slave_by_dev slave_dev with
    | none => (-EINVAL, w.unlock .bond .write)
    | some slave =>
      let w := (w.release_detach slave).unlock .bond .write
      let restore : Bool := match w.port with
        | .k27 => w.bond.params.fail_over_mac != .active
        | .k24 => w.bond.params.fail_over_mac == .none
      let w := w.release_device slave slave_dev restore
      let w := w.setDev slave_dev fun dev =>
        { dev with slave_inactive := false, bonding := false, slave_needarp := false }
      (0, w.kfree_slave slave)

/-- One turn of the loop of `bond_release_all`, entered and left with the lock held. -/
def release_first (w : World) (slave : SlaveId) : World :=
  let w := w.release_unbind slave
  let slave_dev := (w.slaves slave).dev
  let w := (w.bond_detach_slave slave).unlock .bond .write
  let w := if w.bond.params.mode = .tlb ∨ w.bond.params.mode = .alb then
    w.sibling (.bond_alb_deinit_slave slave) else w
  let w := w.bond_compute_features
  let w := w.release_device slave slave_dev (w.bond.params.fail_over_mac == .none)
  let w := w.setDev slave_dev fun dev => { dev with slave_inactive := false }
  (w.kfree_slave slave).lock .bond .write

/-- Each turn lowers `slave_cnt`, and the turn that brings it to zero clears
`first_slave`: `n = slave_cnt` turns are all there are. -/
def release_each : Nat → World → World
  | 0, w => w
  | n + 1, w =>
    match w.bond.first_slave with
    | none => w
    | some slave => release_each n (w.release_first slave)

def bond_release_all (w : World) : Int × World :=
  let w := w.lock .bond .write
  let w := w.netif_carrier_off w.bond.dev
  if w.bond.slave_cnt = 0 then (0, w.unlock .bond .write)
  else
    let w := w.setBond fun b => { b with current_arp_slave := none, primary_slave := none }
    let w := w.bond_change_active_slave none
    let w := release_each w.bond.slave_cnt.toNat w
    (0, w.clear_master.unlock .bond .write)

omit [Siblings] in
@[simp] theorem core_attach_slave (w : World) (s : SlaveId) :
    (w.bond_attach_slave s).core = w.core := by
  unfold bond_attach_slave
  cases w.bond.first_slave <;> rfl

omit [Siblings] in
@[simp] theorem core_detach_slave (w : World) (s : SlaveId) :
    (w.bond_detach_slave s).core = w.core := rfl

omit [Siblings] in
@[simp] theorem core_compute_features (w : World) : w.bond_compute_features.core = w.core := rfl

omit [Siblings] in
@[simp] theorem shape_compute_features (w : World) :
    w.bond_compute_features.shape = w.shape := rfl

omit [Siblings] in
@[simp] theorem core_setFeatures (w : World) (f : BitVec 64 → BitVec 64) :
    (w.setFeatures f).core = w.core := rfl

omit [Siblings] in
@[simp] theorem shape_setFeatures (w : World) (f : BitVec 64 → BitVec 64) :
    (w.setFeatures f).shape = w.shape := rfl

omit [Siblings] in
@[simp] theorem core_add_vlans (w : World) : w.bond_add_vlans_on_slave.core = w.core := by
  simp [bond_add_vlans_on_slave]

omit [Siblings] in
@[simp] theorem core_del_vlans (w : World) : w.bond_del_vlans_from_slave.core = w.core := by
  simp [bond_del_vlans_from_slave]

omit [Siblings] in
@[simp] theorem shape_del_vlans (w : World) : w.bond_del_vlans_from_slave.shape = w.shape := rfl

omit [Siblings] in
@[simp] theorem core_err_restore_mac (w : World) (d : DevId) (s : SlaveId) (f : BitVec 64) :
    (w.err_restore_mac d s f).core = w.core := by
  unfold err_restore_mac
  split_ifs <;> rfl

omit [Siblings] in
@[simp] theorem core_err_outer (w : World) (d : DevId) (s : SlaveId) (f : BitVec 64) :
    (w.err_outer d s f).core = w.core := by
  unfold err_outer
  cases w.port <;> simp

omit [Siblings] in
@[simp] theorem core_err_open (w : World) (d : DevId) (s : SlaveId) (f : BitVec 64) :
    (w.err_open d s f).core = w.core := by
  unfold err_open
  cases w.port <;> simp

omit [Siblings] in
@[simp] theorem core_err_set_master (w : World) (d : DevId) (s : SlaveId) (f : BitVec 64) :
    (w.err_set_master d s f).core = w.core := by
  unfold err_set_master
  cases w.port <;> simp

omit [Siblings] in
@[simp] theorem core_enslave_link (w : World) (d : DevId) (s : SlaveId) :
    (w.enslave_link d s).core = w.core := by
  unfold enslave_link
  split_ifs <;> simp

omit [Siblings] in
@[simp] theorem shape_enslave_link (w : World) (d : DevId) (s : SlaveId) :
    (w.enslave_link d s).shape = w.shape := by
  unfold enslave_link
  split_ifs <;> simp [shape_setSlave]

omit [Siblings] in
@[simp] theorem core_enslave_primary (w : World) (s : SlaveId) :
    (w.enslave_primary s).core = w.core := by
  unfold enslave_primary
  split_ifs <;> rfl

omit [Siblings] in
@[simp] theorem shape_enslave_primary (w : World) (s : SlaveId) :
    (w.enslave_primary s).shape = w.shape := by
  unfold enslave_primary
  split_ifs <;> rfl

@[simp] theorem core_enslave_mode (w : World) (s : SlaveId) :
    (w.enslave_mode s).core = w.core := by
  unfold enslave_mode
  dsimp only
  split
  · simp
  · split_ifs <;> simp
  · simp
  · simp
  · split_ifs <;> simp
  all_goals split_ifs <;> simp

@[simp] theorem shape_enslave_mode (w : World) (s : SlaveId) :
    (w.enslave_mode s).shape = w.shape := by
  unfold enslave_mode
  dsimp only
  split
  · simp
  · split_ifs <;> simp
  · simp [shape_setSlave]
  · simp [shape_setSlave]
  · split_ifs <;> simp
  all_goals split_ifs <;> simp [shape_setSlave]

@[simp] theorem core_enslave_attach (w : World) (d : DevId) (s : SlaveId) :
    (w.enslave_attach d s).core = w.core := by
  unfold enslave_attach
  dsimp only
  split <;> simp

omit [Siblings] in
theorem core_enslave_filter {c : Core} {w : World} {d : DevId} {label : World → World}
    {next : World → Int × World} (hw : w.core = c)
    (hl : ∀ w : World, w.core = c → (label w).core = c)
    (hn : ∀ w : World, w.core = c → (next w).2.core = c) :
    (w.enslave_filter d label next).2.core = c := by
  unfold enslave_filter
  split
  · exact hn w hw
  · refine core_orGoto ?_ hl fun w hw => core_orGoto ?_ hl fun w hw => hn _ hw
    · split_ifs <;> exact hw
    · split_ifs <;> exact hw

theorem core_enslave_opened {c : Core} (env : EnslaveEnv) {w : World} (d : DevId) (s : SlaveId)
    (f : BitVec 64) (hw : w.core = c) : (enslave_opened env w d s f).2.core = c := by
  have herr : ∀ w : World, w.core = c → (w.err_outer d s f).core = c := by
    intro w hw
    rw [core_err_outer, hw]
  unfold enslave_opened
  refine core_orGoto ?_ herr fun w hw => core_enslave_filter hw herr fun w hw =>
    core_orGoto ?_ herr fun w hw => hw
  · split_ifs <;> simp [hw]
  · rw [core_enslave_attach, core_add_vlans]
    split_ifs <;> simp [hw]

theorem core_enslave_alloc {c : Core} (env : EnslaveEnv) {w : World} (d : DevId) (s : SlaveId)
    (f : BitVec 64) (hw : w.core = c) : (enslave_alloc env w d s f).2.core = c := by
  unfold enslave_alloc
  refine core_orGoto ?_ (fun w hw => hw) fun w hw => core_orGoto (by simp [hw])
    (fun w hw => by simp [hw]) fun w hw => core_orGoto (by simp [hw])
    (fun w hw => by simp [hw]) fun w hw => core_enslave_opened env d s f hw
  split_ifs <;> simp [hw]

omit [Siblings] in
@[simp] theorem core_enslave_vlan (w : World) (d : DevId) :
    (w.enslave_vlan d).core = w.core := by
  unfold enslave_vlan
  split_ifs <;> rfl

omit [Siblings] in
@[simp] theorem core_enslave_type (w : World) (d : DevId) :
    (w.enslave_type d).core = w.core := by
  unfold enslave_type
  split_ifs <;> rfl

omit [Siblings] in
@[simp] theorem core_enslave_fom (w : World) (d : DevId) :
    (w.enslave_fom d).core = w.core := by
  unfold enslave_fom
  split_ifs <;> rfl

@[simp] theorem core_bond_enslave (env : EnslaveEnv) (w : World) (d : DevId) :
    (bond_enslave env w d).2.core = w.core := by
  unfold bond_enslave
  dsimp only
  split_ifs
  · rfl
  · rfl
  · exact core_enslave_vlan w d
  · exact core_enslave_vlan w d
  · exact (core_enslave_type _ d).trans (core_enslave_vlan w d)
  · have hw : (((w.enslave_vlan d).enslave_type d).enslave_fom d).core = w.core := by simp
    cases env.new_slave with
    | none => exact hw
    | some s => exact core_enslave_alloc env d s _ hw

omit [Siblings] in
@[simp] theorem core_release_filter (w : World) (d : DevId) :
    (w.release_filter d).core = w.core := by
  unfold release_filter
  dsimp only
  split_ifs <;> simp

omit [Siblings] in
@[simp] theorem shape_release_filter (w : World) (d : DevId) :
    (w.release_filter d).shape = w.shape := by
  unfold release_filter
  dsimp only
  split_ifs <;> simp

omit [Siblings] in
@[simp] theorem core_restore_mac (w : World) (d : DevId) (a : HwAddr) :
    (w.restore_mac d a).core = w.core := rfl

omit [Siblings] in
@[simp] theorem shape_restore_mac (w : World) (d : DevId) (a : HwAddr) :
    (w.restore_mac d a).shape = w.shape := rfl

omit [Siblings] in
@[simp] theorem core_clear_master (w : World) : w.clear_master.core = w.core := by
  unfold clear_master
  dsimp only
  split_ifs <;> simp

omit [Siblings] in
@[simp] theorem shape_clear_master (w : World) : w.clear_master.shape = w.shape := by
  unfold clear_master
  dsimp only
  split_ifs <;> simp

@[simp] theorem core_release_unbind (w : World) (s : SlaveId) :
    (w.release_unbind s).core = w.core := by
  unfold release_unbind
  split_ifs <;> simp

@[simp] theorem shape_release_unbind (w : World) (s : SlaveId) :
    (w.release_unbind s).shape = w.shape := by
  unfold release_unbind
  split_ifs <;> simp

omit [Siblings] in
@[simp] theorem core_release_pointers (w : World) (s : SlaveId) :
    (w.release_pointers s).core = w.core := rfl

omit [Siblings] in
@[simp] theorem shape_release_pointers (w : World) (s : SlaveId) :
    (w.release_pointers s).shape = w.shape := rfl

@[simp] theorem core_release_alb (w : World) (s : SlaveId) :
    (w.release_alb s).core = w.core := by
  unfold release_alb
  split_ifs <;> simp

@[simp] theorem shape_release_alb (w : World) (s : SlaveId) :
    (w.release_alb s).shape = w.shape := by
  unfold release_alb
  split_ifs <;> simp

@[simp] theorem core_release_reselect (w : World) : w.release_reselect.core = w.core := by
  simp [release_reselect]

@[simp] theorem shape_release_reselect (w : World) : w.release_reselect.shape = w.shape := by
  simp [release_reselect]

@[simp] theorem core_release_master (w : World) : w.release_master.core = w.core := by
  unfold release_master
  split_ifs <;> simp

@[simp] theorem shape_release_master (w : World) : w.release_master.shape = w.shape := by
  unfold release_master
  split_ifs <;> simp

@[simp] theorem core_release_detach (w : World) (s : SlaveId) :
    (w.release_detach s).core = w.core := by
  unfold release_detach
  dsimp only
  split_ifs <;> simp

omit [Siblings] in
@[simp] theorem core_release_device (w : World) (s : SlaveId) (d : DevId) (r : Bool) :
    (w.release_device s d r).core = w.core := by
  unfold release_device
  dsimp only
  split_ifs <;> simp

omit [Siblings] in
@[simp] theorem shape_release_device (w : World) (s : SlaveId) (d : DevId) (r : Bool) :
    (w.release_device s d r).shape = w.shape := by
  unfold release_device
  dsimp only
  split_ifs <;> simp

@[simp] theorem core_bond_release (w : World) (d : DevId) :
    (w.bond_release d).2.core = w.core := by
  unfold bond_release
  split
  · rfl
  · dsimp only
    split <;> simp

@[simp] theorem core_release_first (w : World) (s : SlaveId) :
    (w.release_first s).core = w.core := by
  unfold release_first
  dsimp only
  split_ifs <;> simp

@[simp] theorem core_release_each (n : Nat) (w : World) : (release_each n w).core = w.core := by
  induction n generalizing w with
  | zero => rfl
  | succ n ih =>
    unfold release_each
    split
    · rfl
    · rw [ih, core_release_first]

omit [Siblings] in
@[simp] theorem core_forget_pointers (w : World) :
    (w.setBond fun b => { b with current_arp_slave := none, primary_slave := none }).core =
      w.core := rfl

@[simp] theorem core_bond_release_all (w : World) : w.bond_release_all.2.core = w.core := by
  unfold bond_release_all
  dsimp only
  split_ifs <;> simp [netif_carrier_off]

omit [Siblings] in
@[simp] theorem shape_attach_slave (w : World) (s : SlaveId) :
    (w.bond_attach_slave s).shape = w.shape.attach s := by
  have hf : w.shape.first_slave = w.bond.first_slave := rfl
  unfold bond_attach_slave Shape.attach
  rw [hf]
  cases h : w.bond.first_slave with
  | none => rfl
  | some a =>
    change Shape.mk _ w.bond.first_slave _ _ _ = Shape.mk _ (some a) _ _ _
    rw [h]
    rfl

omit [Siblings] in
@[simp] theorem shape_detach_slave (w : World) (s : SlaveId) :
    (w.bond_detach_slave s).shape = w.shape.detach s := rfl

theorem shape_release_detach (w : World) (s : SlaveId) :
    (w.release_detach s).shape = w.shape.detach s := by
  unfold release_detach
  dsimp only
  split_ifs <;> simp

theorem shape_release_first (w : World) (s : SlaveId) :
    (w.release_first s).shape = (w.shape.detach s).free s := by
  unfold release_first
  dsimp only
  split_ifs <;> simp

theorem shape_bond_release {w v : World} {d : DevId} (h : w.bond_release d = (0, v)) :
    ∃ s, w.bond_get_slave_by_dev d = some s ∧ v.shape = (w.shape.detach s).free s := by
  have hlock : (w.lock .bond .write).bond_get_slave_by_dev d = w.bond_get_slave_by_dev d := rfl
  unfold bond_release at h
  split at h
  · cases h
  · dsimp only at h
    rw [hlock] at h
    cases hs : w.bond_get_slave_by_dev d with
    | none =>
      rw [hs] at h
      cases h
    | some s =>
      rw [hs] at h
      refine ⟨s, rfl, ?_⟩
      simp only [Prod.mk.injEq, true_and] at h
      rw [← h]
      simp [shape_release_detach]

omit [Siblings] in
theorem orGoto_ok {r : Int × World} {label : World → World} {next : World → Int × World}
    {v : World} (h : orGoto r label next = (0, v)) : r.1 = 0 ∧ next r.2 = (0, v) := by
  unfold orGoto at h
  split_ifs at h with hr
  · exact absurd (Prod.mk.inj h).1 hr
  · exact ⟨not_not.mp hr, h⟩

omit [Siblings] in
@[simp] theorem shape_enslave_vlan (w : World) (d : DevId) :
    (w.enslave_vlan d).shape = w.shape := by
  unfold enslave_vlan
  split_ifs <;> rfl

omit [Siblings] in
@[simp] theorem shape_enslave_type (w : World) (d : DevId) :
    (w.enslave_type d).shape = w.shape := by
  unfold enslave_type
  split_ifs <;> rfl

omit [Siblings] in
@[simp] theorem shape_enslave_fom (w : World) (d : DevId) :
    (w.enslave_fom d).shape = w.shape := by
  unfold enslave_fom
  split_ifs <;> rfl

omit [Siblings] in
theorem shape_alloc (w : World) (s : SlaveId) (d : DevId) (f : Slave → Slave)
    (hn : ∀ x, (f x).next = x.next) (hp : ∀ x, (f x).prev = x.prev) :
    (((w.kzalloc_slave s).setSlave s f).setSlave s fun x => { x with dev := d }).shape =
      w.shape.alloc s d := by
  simp only [shape, links, Shape.alloc, Shape.mk.injEq]
  refine ⟨?_, rfl, rfl, ?_, rfl⟩
  · refine congr (congrArg _ (funext fun t => ?_)) (funext fun t => ?_)
    · by_cases ht : t = s
      · simp [kzalloc_slave, setSlave, Slave.zeroed, ht, hn]
      · simp [kzalloc_slave, setSlave, ht]
    · by_cases ht : t = s
      · simp [kzalloc_slave, setSlave, Slave.zeroed, ht, hp]
      · simp [kzalloc_slave, setSlave, ht]
  · funext t
    by_cases ht : t = s
    · simp [setSlave, ht]
    · simp [kzalloc_slave, setSlave, ht]

end World

end Hoolock
