import Hoolock.Ioctl
import Hoolock.Monitor
import Hoolock.Transition

/-!
A bond's life from `bond_init` on, as a sequence of events: administration, the
handover calls, traffic, the monitors, and whatever the slave devices do.
-/

set_option autoImplicit false

namespace Hoolock

def ETH_P_ALL : Nat := 3

/-- What can change about a device from outside. -/
structure Reading where
  iff_up : Bool
  running : Bool
  carrier : Bool
  present : Bool
  mii_link : Option Bool
  ethtool_link : Option Bool
  trans_start : BitVec 64
  last_rx : BitVec 64

def NetDevice.read (dev : NetDevice) (r : Reading) : NetDevice :=
  { dev with
    iff_up := r.iff_up, running := r.running, carrier := r.carrier, present := r.present
    mii_link := r.mii_link, ethtool_link := r.ethtool_link
    trans_start := r.trans_start, last_rx := r.last_rx }

inductive Event where
  | open_bond
  | close_bond
  | enslave (env : EnslaveEnv) (slave_dev : DevId)
  | release (slave_dev : DevId)
  | release_all
  | make
  | brk (env : Skb → PassEnv)
  | change_active (slave_dev : DevId)
  | test (slave_dev : DevId)
  | arrive (env : PassEnv) (skb : Skb)
  | xmit (env : TagEnv)
  | mii_monitor
  | arp_monitor (delta_in_ticks : BitVec 64)
  | device (d : DevId) (r : Reading)
  | address (master_ip : Be32)
  | tick (jiffies : BitVec 64)
  | destroy
  | free_all

namespace World

def hoolock_pt (w : World) : PacketType :=
  { id := 0, type := ETH_P_ALL, dev := some w.bond.dev, func := .bond_hoolock_recv,
    af_packet_priv := none }

def bond_init (w : World) (bond_dev : DevId) (params : Params) : World :=
  let bond : Bonding :=
    { dev := bond_dev, first_slave := none, curr_active_slave := none,
      current_arp_slave := none, primary_slave := none, slave_cnt := 0, kill_timers := false,
      send_grat_arp := 0, setup_by_slave := false, master_ip := ⟨0, 0, 0, 0⟩, params,
      vlan_list := [], hoolock_pt := false, buffer_mode := 0, pbuff := [] }
  let w := { w with bond }
  let w := w.setDev bond_dev fun dev => { dev with bonding := true }
  w.setFeatures (· ||| NETIF_F_VLAN_CHALLENGED ||| NETIF_F_LLTX ||| NETIF_F_HW_VLAN_TX |||
    NETIF_F_HW_VLAN_RX ||| NETIF_F_HW_VLAN_FILTER)

def bond_register_hoolock (w : World) : World :=
  if w.bond.hoolock_pt then w
  else
    let w := { w with ptype_all := w.hoolock_pt :: w.ptype_all }
    w.setBond fun b => { b with hoolock_pt := true }

def bond_unregister_hoolock (w : World) : World :=
  let w := { w with ptype_all := w.ptype_all.erase w.hoolock_pt }
  w.setBond fun b => { b with hoolock_pt := false }

def bond_open (w : World) : Int × World :=
  let w := w.setBond fun b => { b with kill_timers := false }
  (0, if w.bond.params.mode = .hoolock then w.bond_register_hoolock else w)

def bond_close (w : World) : World :=
  let w := if w.bond.params.mode = .hoolock then w.bond_unregister_hoolock else w
  let w := w.lock .bond .write
  let w := w.setBond fun b => { b with send_grat_arp := 0, kill_timers := true }
  w.unlock .bond .write

def open_bond (w : World) : World :=
  if w.bond_dev.iff_up ∨ !w.bond_dev.present then w
  else w.bond_open.2.setDev w.bond.dev fun dev => { dev with running := true, iff_up := true }

def close_bond (w : World) : World :=
  if !w.bond_dev.iff_up then w
  else
    let w := w.setDev w.bond.dev fun dev => { dev with running := false }
    w.bond_close.setDev w.bond.dev fun dev => { dev with iff_up := false }

variable [Siblings]

/-- `bond_destroy`: unregistering a device closes it and tells the bond's own notifier,
which releases all slaves. -/
def bond_destroy (w : World) : World := w.close_bond.bond_release_all.2

/-- `bond_free_all` on this bond, its work cancelled first. -/
def bond_free_all (w : World) : World :=
  let w := w.lock .bond .write
  let w := w.setBond fun b => { b with kill_timers := true }
  let w := w.unlock .bond .write
  w.bond_release_all.2.bond_destroy

/-- A packet with a number of its own arrives with one reference. -/
def receive (w : World) (env : PassEnv) (skb : Skb) : World :=
  let w := { w with users := fun i => if i = skb.id then 1 else w.users i }
  (w.netif_receive_skb bond_hoolock_recv env skb).2

def fresh (w : World) (skb : Skb) : Bool :=
  w.users skb.id == 0 && w.trace.all (·.skb.id != skb.id) && w.bond.pbuff.all (·.id != skb.id)

/-- One event; `none` when it cannot happen here or does not return.  The source does not keep
a bond from being its own slave, the model does: `.enslave` and `.device` are about cards. -/
def step (w : World) : Event → Option World
  | .open_bond => some w.open_bond
  | .close_bond => some w.close_bond
  | .enslave env slave_dev =>
    if slave_dev ≠ w.bond.dev ∧ env.new_slave.all (fun s => !w.live s) ∧
        (bond_enslave env w slave_dev).1 = 0 then
      some (bond_enslave env w slave_dev).2
    else none
  | .release slave_dev =>
    if (w.bond_release slave_dev).1 = 0 then some (w.bond_release slave_dev).2 else none
  | .release_all => some w.bond_release_all.2
  | .make => some w.bond_ioctl_make.2
  | .brk env => (w.bond_ioctl_break env).map (·.2)
  | .change_active slave_dev => some (w.bond_ioctl_change_active slave_dev).2
  | .test slave_dev => some (w.bond_ioctl_hoolock_change_active slave_dev).2
  | .arrive env skb => if w.fresh skb then some (w.receive env skb) else none
  | .xmit env => (w.bond_xmit_hoolock env).map (·.2)
  | .mii_monitor => if w.bond.params.miimon ≠ 0 then some w.bond_mii_monitor else none
  | .arp_monitor delta =>
    if w.bond.params.arp_interval ≠ 0 then some (bond_loadbalance_arp_mon delta w) else none
  | .device d r => if d ≠ w.bond.dev then some (w.setDev d (·.read r)) else none
  | .address master_ip => some (w.setBond fun b => { b with master_ip })
  | .tick jiffies => some { w with jiffies }
  | .destroy => some w.bond_destroy
  | .free_all => some w.bond_free_all

/-- The machine before the bond exists: no device has it for a master and no packet
handler is the bond's. -/
structure Host (w : World) (bond_dev : DevId) : Prop where
  port : w.port = .k27
  master : ∀ d, (w.devs d).master ≠ some bond_dev
  handlers : ∀ pt ∈ w.ptype_all, pt.func = .other

end World

/-! A machine with two Ethernet cards and no bond yet, for examples of runs -/

def eth0 : List Char := ['e', 't', 'h', '0']
def eth1 : List Char := ['e', 't', 'h', '1']

def NetDevice.ethernet (name : List Char) (hwaddr : UInt8) : NetDevice :=
  { name, iff_up := false, iff_slave := false, iff_promisc := false, iff_allmulti := false,
    running := false, carrier := true, present := true, linkwatch_pending := false,
    master := none, slave_inactive := false, slave_needarp := false, bonding := false,
    type := ARPHRD_ETHER, addr_len := ETH_ALEN, hard_header_len := ETH_HLEN, features := 0,
    dev_addr := [0, 0, 0, 0, 0, hwaddr], set_mac_address := some fun _ => 0, promiscuity := 0,
    allmulti := 0, mc_list := [], mii_link := none, ethtool_link := none, trans_start := 0,
    last_rx := 0 }

/-- Device 0 is to become the bond, devices 1 and 2 are the cards. -/
def machine : World :=
  { port := .k27
    devs := fun d => if d = 1 then .ethernet eth0 1 else if d = 2 then .ethernet eth1 2
      else .ethernet ['b', 'o', 'n', 'd', '0'] 0
    registered := [0, 1, 2], slaves := fun _ => Slave.zeroed, live := fun _ => false
    bond :=
      { dev := 0, first_slave := none, curr_active_slave := none, current_arp_slave := none,
        primary_slave := none, slave_cnt := 0, kill_timers := false, send_grat_arp := 0,
        setup_by_slave := false, master_ip := ⟨0, 0, 0, 0⟩, params := ⟨.hoolock, 0, 1, 0, 0, true,
          .none, 0, 0, []⟩, vlan_list := [], hoolock_pt := false, buffer_mode := 0, pbuff := [] }
    locks := fun _ _ => 0, ptype_all := [], ptype_base := fun _ => [], users := fun _ => 0
    trace := [], jiffies := 0 }

def hoolock_params : Params :=
  { mode := .hoolock, miimon := 100, num_grat_arp := 1, arp_interval := 0, arp_validate := 0,
    use_carrier := true, fail_over_mac := .none, updelay := 0, downdelay := 0, primary := [] }

def bond0 : World := machine.bond_init 0 hoolock_params

/-- Nothing on the way up interferes, every handler accepts. -/
def PassEnv.plain : PassEnv :=
  { vlan_takes := false, netpoll_takes := false, should_drop := false, net_alive := true
    ing := .absent, bridge := .absent, macvlan := .absent, verdict := fun _ => ⟨0, by decide⟩ }

def EnslaveEnv.plain (new_slave : SlaveId) : EnslaveEnv :=
  { new_slave := some new_slave, open_slave := 0, symlinks := 0 }

def IoctlEnv.plain : IoctlEnv :=
  { mii := none, copy_from_user := true, copy_to_user := true, slave_id := 0, capable := true
    ifr_slave := [], enslave := .plain 0, pass := fun _ => .plain }

def Reading.no_carrier : Reading :=
  { iff_up := false, running := false, carrier := false, present := true, mii_link := none
    ethtool_link := none, trans_start := 0, last_rx := 0 }

def two_slaves : List Event :=
  [.open_bond, .enslave (.plain 0) 1, .enslave (.plain 1) 2]

theorem machine_host : machine.Host 0 where
  port := rfl
  master d := by
    simp only [machine]
    split_ifs <;> simp [NetDevice.ethernet]
  handlers _ h := by simp [machine] at h

theorem ring_of_two {w : World} (hnext : (w.slaves 0).next = some 1 ∧ (w.slaves 1).next = some 0)
    (hprev : (w.slaves 0).prev = some 1 ∧ (w.slaves 1).prev = some 0)
    (hhead : w.bond.first_slave = some 0) (hcount : w.bond.slave_cnt = 2) : w.Ring [0, 1] where
  ring := by
    refine ⟨by decide, (CircularList.chain_cons_iff _ 0 [1]).mpr ⟨?_, hnext.2, hprev.1⟩⟩
    exact List.isChain_cons_cons.mpr ⟨⟨hnext.1, hprev.2⟩, List.isChain_singleton 1⟩
  head := hhead
  count := hcount

end Hoolock
