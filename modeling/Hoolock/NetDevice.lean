import Hoolock.Kernel

/-!
The device operations of `dev.c` that enslaving, releasing and switching
slaves rest on.  Each works on one device.
-/

set_option autoImplicit false

namespace Hoolock

def netdev_set_master (master : Option DevId) (slave : NetDevice) : Int × NetDevice :=
  match master with
  | some m =>
    if slave.master.isSome then (-EBUSY, slave)
    else (0, { slave with master := some m, iff_slave := true })
  | none => (0, { slave with master := none, iff_slave := false })

/-- A flag kept by a counter, as IFF_PROMISC and IFF_ALLMULTI are.  Only the
2.6.27 kernel refuses to let an increment wrap the counter to zero. -/
def countedFlag (port : Port) (inc : Int) (count : BitVec 32) : Int × Bool × BitVec 32 :=
  let n := count + BitVec.ofInt 32 inc
  match port with
  | .k24 => (0, n != 0, n)
  | .k27 =>
    if n = 0 then
      if inc < 0 then (0, false, n) else (-EOVERFLOW, true, count)
    else (0, true, n)

def dev_set_promiscuity (port : Port) (inc : Int) (dev : NetDevice) : Int × NetDevice :=
  let (err, flag, n) := countedFlag port inc dev.promiscuity
  (err, { dev with iff_promisc := flag, promiscuity := n })

def dev_set_allmulti (port : Port) (inc : Int) (dev : NetDevice) : Int × NetDevice :=
  let (err, flag, n) := countedFlag port inc dev.allmulti
  (err, { dev with iff_allmulti := flag, allmulti := n })

/-- `__dev_addr_add` for a local reference, the allocation succeeding. -/
def dev_addr_add (addr : HwAddr) (list : List DevAddr) : List DevAddr :=
  if list.any (·.da_addr == addr) then
    list.map fun da => if da.da_addr = addr then { da with da_users := da.da_users + 1 } else da
  else ⟨addr, 1⟩ :: list

def dev_addr_delete (addr : HwAddr) : List DevAddr → List DevAddr
  | [] => []
  | da :: rest =>
    if da.da_addr = addr then
      if da.da_users - 1 ≠ 0 then { da with da_users := da.da_users - 1 } :: rest else rest
    else da :: dev_addr_delete addr rest

def dev_mc_add (addr : HwAddr) (dev : NetDevice) : NetDevice :=
  { dev with mc_list := dev_addr_add addr dev.mc_list }

def dev_mc_delete (addr : HwAddr) (dev : NetDevice) : NetDevice :=
  { dev with mc_list := dev_addr_delete addr dev.mc_list }

def dev_set_mac_address (sa_data : HwAddr) (sa_family : Nat) (dev : NetDevice) :
    Int × NetDevice :=
  match dev.set_mac_address with
  | none => (-EOPNOTSUPP, dev)
  | some set =>
    if sa_family ≠ dev.type then (-EINVAL, dev)
    else if !dev.present then (-ENODEV, dev)
    else if set sa_data ≠ 0 then (set sa_data, dev)
    else (0, { dev with dev_addr := sa_data })

/-- `opened` is what the driver's `validate_addr` and `open` report. -/
def dev_open (opened : Int) (dev : NetDevice) : Int × NetDevice :=
  if dev.iff_up then (0, dev)
  else if !dev.present then (-ENODEV, dev)
  else if opened ≠ 0 then (opened, { dev with running := false })
  else (0, { dev with running := true, iff_up := true })

def dev_close (dev : NetDevice) : NetDevice :=
  if dev.iff_up then { dev with running := false, iff_up := false } else dev

def NETIF_F_SG : BitVec 64 := 1
def NETIF_F_IP_CSUM : BitVec 64 := 2
def NETIF_F_NO_CSUM : BitVec 64 := 4
def NETIF_F_HW_CSUM : BitVec 64 := 8
def NETIF_F_IPV6_CSUM : BitVec 64 := 16
def NETIF_F_HIGHDMA : BitVec 64 := 32
def NETIF_F_FRAGLIST : BitVec 64 := 64
def NETIF_F_HW_VLAN_TX : BitVec 64 := 128
def NETIF_F_HW_VLAN_RX : BitVec 64 := 256
def NETIF_F_HW_VLAN_FILTER : BitVec 64 := 512
def NETIF_F_VLAN_CHALLENGED : BitVec 64 := 1024
def NETIF_F_GSO : BitVec 64 := 2048
def NETIF_F_LLTX : BitVec 64 := 4096
def NETIF_F_GSO_MASK : BitVec 64 := 0xffff0000
def NETIF_F_GSO_ROBUST : BitVec 64 := 0x40000
def NETIF_F_GSO_SOFTWARE : BitVec 64 := 0x190000
def NETIF_F_ALL_CSUM : BitVec 64 :=
  NETIF_F_IP_CSUM ||| NETIF_F_IPV6_CSUM ||| NETIF_F_NO_CSUM ||| NETIF_F_HW_CSUM

/-- The result is an `int`, so that bit 31 fills the upper half of what the caller stores. -/
def netdev_compute_features (all one : BitVec 64) : BitVec 64 :=
  let all := if all &&& NETIF_F_NO_CSUM ≠ 0 ∧ one &&& NETIF_F_NO_CSUM = 0 then
    all ^^^ (NETIF_F_NO_CSUM ||| NETIF_F_HW_CSUM) else all
  let all := if all &&& NETIF_F_HW_CSUM ≠ 0 ∧ one &&& NETIF_F_HW_CSUM = 0 then
    all ^^^ (NETIF_F_HW_CSUM ||| NETIF_F_IP_CSUM ||| NETIF_F_IPV6_CSUM) else all
  let one := if one &&& NETIF_F_GSO ≠ 0 then one ||| NETIF_F_GSO_SOFTWARE else one
  let one := one ||| NETIF_F_GSO
  let all := if one &&& NETIF_F_GSO_ROBUST ≠ 0 then all ||| NETIF_F_GSO_ROBUST else all
  let all := all &&& (one ||| NETIF_F_LLTX)
  let all := if all &&& NETIF_F_ALL_CSUM = 0 then all &&& ~~~NETIF_F_SG else all
  let all := if all &&& NETIF_F_SG = 0 then all &&& ~~~NETIF_F_GSO_MASK else all
  (all.setWidth 32).signExtend 64

def NetDevice.sansFilter (dev : NetDevice) : NetDevice :=
  { dev with
    iff_promisc := false, iff_allmulti := false, promiscuity := 0, allmulti := 0, mc_list := [] }

@[simp] theorem dev_set_promiscuity_sansFilter (port : Port) (inc : Int) (dev : NetDevice) :
    (dev_set_promiscuity port inc dev).2.sansFilter = dev.sansFilter := rfl

@[simp] theorem dev_set_allmulti_sansFilter (port : Port) (inc : Int) (dev : NetDevice) :
    (dev_set_allmulti port inc dev).2.sansFilter = dev.sansFilter := rfl

@[simp] theorem dev_mc_add_sansFilter (addr : HwAddr) (dev : NetDevice) :
    (dev_mc_add addr dev).sansFilter = dev.sansFilter := rfl

@[simp] theorem dev_mc_delete_sansFilter (addr : HwAddr) (dev : NetDevice) :
    (dev_mc_delete addr dev).sansFilter = dev.sansFilter := rfl

/-- What the filter operations do not touch. -/
theorem NetDevice.same_state {dev other : NetDevice} (h : dev.sansFilter = other.sansFilter) :
    dev.iff_up = other.iff_up ∧ dev.present = other.present :=
  ⟨congrArg (·.iff_up) h, congrArg (·.present) h⟩

theorem foldl_sansFilter (f : HwAddr → NetDevice → NetDevice)
    (hf : ∀ a dev, (f a dev).sansFilter = dev.sansFilter) (l : List DevAddr) (dev : NetDevice) :
    (l.foldl (fun dev dmi => f dmi.da_addr dev) dev).sansFilter = dev.sansFilter := by
  induction l generalizing dev with
  | nil => rfl
  | cons dmi rest ih => exact (ih _).trans (hf _ _)

end Hoolock
