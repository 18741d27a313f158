import Mathlib.Data.BitVec
import Hoolock.CircularList

/-!
The objects the driver works on: network devices, slave records, the bonding
record and its locks, socket buffers and packet handlers.  Pointers to heap
objects are the objects' names.
-/

set_option autoImplicit false

namespace Hoolock

/-- The two kernels the driver is kept for, 2.6.24 and 2.6.27. -/
inductive Port where
  | k24 | k27
  deriving DecidableEq, Repr

abbrev DevId := Nat
abbrev SlaveId := Nat
abbrev HwAddr := List UInt8

/-- What a pointer holds.  A `struct net_device` and a `struct slave` are
distinct heap objects, so no address of one is an address of the other. -/
inductive Addr where
  | null
  | net_device : DevId → Addr
  | slave : SlaveId → Addr
  deriving DecidableEq, Repr

def Addr.ofSlave : Option SlaveId → Addr
  | none => .null
  | some s => .slave s

def EPERM : Int := 1
def EFAULT : Int := 14
def EBUSY : Int := 16
def ENODEV : Int := 19
def EINVAL : Int := 22
def ENOMEM : Int := 12
def EOVERFLOW : Int := 75
def EOPNOTSUPP : Int := 95
def EHOOLOCKBUFF : Int := 132
def NET_RX_SUCCESS : Int := 0
def NET_RX_DROP : Int := 1

inductive Mode where
  | roundrobin | activebackup | xor | broadcast | ieee8023ad | tlb | alb | hoolock
  deriving DecidableEq, Repr

inductive Link where
  | up | fail | down | back
  deriving DecidableEq, Repr

inductive SlaveState where
  | active | backup
  deriving DecidableEq, Repr

inductive FailOverMac where
  | none | active | follow
  deriving DecidableEq, Repr

structure DevAddr where
  da_addr : HwAddr
  da_users : Int
  deriving DecidableEq, Repr

structure NetDevice where
  name : List Char
  iff_up : Bool
  iff_slave : Bool
  iff_promisc : Bool
  iff_allmulti : Bool
  /-- `__LINK_STATE_START`, what `netif_running` reads -/
  running : Bool
  /-- what `netif_carrier_ok` reads -/
  carrier : Bool
  present : Bool
  linkwatch_pending : Bool
  master : Option DevId
  slave_inactive : Bool
  slave_needarp : Bool
  bonding : Bool
  type : Nat
  addr_len : Nat
  hard_header_len : Nat
  features : BitVec 64
  dev_addr : HwAddr
  /-- the driver's own routine, by the error code it returns -/
  set_mac_address : Option (HwAddr → Int)
  promiscuity : BitVec 32
  allmulti : BitVec 32
  mc_list : List DevAddr
  /-- the link as read through the MII ioctls, when the driver answers them -/
  mii_link : Option Bool
  /-- the link as read through `ethtool_ops->get_link`, when there is one -/
  ethtool_link : Option Bool
  trans_start : BitVec 64
  last_rx : BitVec 64

structure Slave where
  dev : DevId
  next : Option SlaveId
  prev : Option SlaveId
  delay : Int
  link : Link
  /-- `none` is `BOND_LINK_NOCHANGE` -/
  new_link : Option Link
  state : SlaveState
  link_failure_count : Nat
  perm_hwaddr : HwAddr
  deriving DecidableEq, Repr

/-- The fields of a zeroed record: link and state 0 are UP and ACTIVE. -/
def Slave.zeroed : Slave :=
  { dev := 0, next := none, prev := none, delay := 0, link := .up, new_link := some .up,
    state := .active, link_failure_count := 0, perm_hwaddr := [] }

structure Params where
  mode : Mode
  miimon : Nat
  num_grat_arp : Int
  arp_interval : Nat
  arp_validate : Nat
  use_carrier : Bool
  fail_over_mac : FailOverMac
  updelay : Int
  downdelay : Int
  primary : List Char
  deriving DecidableEq, Repr

structure Be32 where
  b0 : UInt8
  b1 : UInt8
  b2 : UInt8
  b3 : UInt8
  deriving DecidableEq, Repr

def ntohl (a : Be32) : BitVec 32 :=
  a.b0.toBitVec ++ a.b1.toBitVec ++ a.b2.toBitVec ++ a.b3.toBitVec

theorem append_inj {v w : Nat} {x y : BitVec v} {s t : BitVec w} (h : x ++ s = y ++ t) :
    x = y ∧ s = t := by
  have hlow := congrArg (BitVec.extractLsb' 0 w) h
  have hhigh := congrArg (BitVec.extractLsb' w v) h
  rw [BitVec.extractLsb'_append_eq_right, BitVec.extractLsb'_append_eq_right] at hlow
  rw [BitVec.extractLsb'_append_eq_left, BitVec.extractLsb'_append_eq_left] at hhigh
  exact ⟨hhigh, hlow⟩

theorem ntohl_injective {a b : Be32} (h : ntohl a = ntohl b) : a = b := by
  obtain ⟨a0, a1, a2, a3⟩ := a
  obtain ⟨b0, b1, b2, b3⟩ := b
  obtain ⟨h, h3⟩ := append_inj h
  obtain ⟨h, h2⟩ := append_inj h
  obtain ⟨h0, h1⟩ := append_inj h
  rw [Be32.mk.injEq]
  exact ⟨UInt8.toBitVec_inj.mp h0, UInt8.toBitVec_inj.mp h1, UInt8.toBitVec_inj.mp h2,
    UInt8.toBitVec_inj.mp h3⟩

/-- A socket buffer.  `network_header` is the memory from the network header on. -/
structure Skb where
  id : Nat
  dev : DevId
  protocol : Nat
  network_header : List UInt8
  vlan_tci : Nat
  /-- the `TC_NCLS` bit of `tc_verd` -/
  tc_ncls : Bool
  /-- the socket the buffer was sent from -/
  sk : Option Nat
  deriving DecidableEq, Repr

/-- `ip_hdr(skb)->saddr`: four bytes at a fixed offset, whatever the protocol is. -/
def Skb.saddr (skb : Skb) : Be32 :=
  ⟨skb.network_header.getD 12 0, skb.network_header.getD 13 0,
   skb.network_header.getD 14 0, skb.network_header.getD 15 0⟩

inductive PacketFunc where
  | bond_hoolock_recv
  | other
  deriving DecidableEq, Repr

/-- A registered packet handler; `id` tells list nodes apart. -/
structure PacketType where
  id : Nat
  type : Nat
  dev : Option DevId
  func : PacketFunc
  af_packet_priv : Option Nat
  deriving DecidableEq, Repr

structure Bonding where
  dev : DevId
  first_slave : Option SlaveId
  curr_active_slave : Option SlaveId
  current_arp_slave : Option SlaveId
  primary_slave : Option SlaveId
  slave_cnt : Int
  kill_timers : Bool
  /-- an `s8` -/
  send_grat_arp : BitVec 8
  setup_by_slave : Bool
  master_ip : Be32
  params : Params
  vlan_list : List Nat
  /-- `hoolock_pt.type` is set -/
  hoolock_pt : Bool
  buffer_mode : Int
  pbuff : List Skb

inductive LockName where
  | bond | curr_slave | pbuff | rwsem
  deriving DecidableEq, Repr

inductive LockMode where
  | read | write
  deriving DecidableEq, Repr

/-- How often each lock is held in each mode by the running context. -/
abbrev Locks := LockName → LockMode → Int

def Locks.add (L : Locks) (l : LockName) (m : LockMode) (k : Int) : Locks :=
  fun l' m' => if l' = l ∧ m' = m then L l' m' + k else L l' m'

@[simp] theorem Locks.add_add (L : Locks) (l : LockName) (m : LockMode) (j k : Int) :
    (L.add l m j).add l m k = L.add l m (j + k) := by
  funext l' m'
  by_cases h : l' = l ∧ m' = m
  · simp [add, h, Int.add_assoc]
  · simp [add, h]

@[simp] theorem Locks.add_zero (L : Locks) (l : LockName) (m : LockMode) : L.add l m 0 = L := by
  funext l' m'
  simp [add]

/-- One call of a handler's `func`: the packet, the value returned, the users
count before the caller took its reference and after the handler returned, and
whether the packet was then in `pbuff`. -/
structure Invocation where
  pt : PacketType
  skb : Skb
  ret : Int
  users_before : Int
  users_after : Int
  queued : Bool
  deriving DecidableEq, Repr

/-- Everything one bond can see. -/
structure World where
  port : Port
  devs : DevId → NetDevice
  registered : List DevId
  slaves : SlaveId → Slave
  /-- allocated and not yet freed -/
  live : SlaveId → Bool
  bond : Bonding
  locks : Locks
  ptype_all : List PacketType
  ptype_base : Nat → List PacketType
  users : Nat → Int
  trace : List Invocation
  jiffies : BitVec 64

namespace World

def bond_dev (w : World) : NetDevice := w.devs w.bond.dev

def lock (w : World) (l : LockName) (m : LockMode) : World :=
  { w with locks := w.locks.add l m 1 }

def unlock (w : World) (l : LockName) (m : LockMode) : World :=
  { w with locks := w.locks.add l m (-1) }

def setDev (w : World) (d : DevId) (f : NetDevice → NetDevice) : World :=
  { w with devs := fun e => if e = d then f (w.devs e) else w.devs e }

def setSlave (w : World) (s : SlaveId) (f : Slave → Slave) : World :=
  { w with slaves := fun t => if t = s then f (w.slaves t) else w.slaves t }

def setBond (w : World) (f : Bonding → Bonding) : World := { w with bond := f w.bond }

def kfree_skb (w : World) (skb : Skb) : World :=
  { w with users := fun i => if i = skb.id then w.users i - 1 else w.users i }

def atomic_inc (w : World) (skb : Skb) : World :=
  { w with users := fun i => if i = skb.id then w.users i + 1 else w.users i }

def skb_queue_tail (w : World) (skb : Skb) : World :=
  let w := w.lock .pbuff .write
  let w := w.setBond fun b => { b with pbuff := b.pbuff ++ [skb] }
  w.unlock .pbuff .write

def links (w : World) : CircularList.Links SlaveId :=
  ⟨fun s => (w.slaves s).next, fun s => (w.slaves s).prev⟩

end World

end Hoolock
