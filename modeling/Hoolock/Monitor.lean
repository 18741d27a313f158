import Hoolock.Handover

/-!
The two link monitors of 2.6.27 that run on a HOOLOCK bond.
-/

set_option autoImplicit false

namespace Hoolock

namespace World

def UINT_MAX : Nat := 4294967295

def count_failure (s : Slave) : Slave :=
  { s with link_failure_count :=
      if s.link_failure_count < UINT_MAX then s.link_failure_count + 1
      else s.link_failure_count }

/-- `if (slave->delay <= 0) slave->new_link = BOND_LINK_DOWN; else slave->delay--;` -/
def inspect_fail (slave : Slave) : Slave :=
  if slave.delay ≤ 0 then { slave with new_link := some .down }
  else { slave with delay := slave.delay - 1 }

/-- `if (slave->delay <= 0) slave->new_link = BOND_LINK_UP; else slave->delay--;` -/
def inspect_back (slave : Slave) : Slave :=
  if slave.delay ≤ 0 then { slave with new_link := some .up }
  else { slave with delay := slave.delay - 1 }

/-- `switch (slave->link)`, given what the link reads. -/
def inspect_link (params : Params) (link_state : Bool) (slave : Slave) : Slave :=
  match slave.link, link_state with
  | .up, true => slave
  | .up, false => inspect_fail { slave with link := .fail, delay := params.downdelay }
  | .fail, true => { slave with link := .up }
  | .fail, false => inspect_fail slave
  | .down, false => slave
  | .down, true => inspect_back { slave with link := .back, delay := params.updelay }
  | .back, false => { slave with link := .down }
  | .back, true => inspect_back slave

def inspect_slave (params : Params) (link_state : Bool) (slave : Slave) : Slave :=
  inspect_link params link_state { slave with new_link := none }

def inspect (w : World) (s : SlaveId) : World :=
  w.setSlave s fun slave =>
    inspect_slave w.bond.params (w.bond_check_dev_link (w.devs slave.dev)) slave

def bond_miimon_inspect (w : World) : World := w.bond_for_each_slave.foldl inspect w

/-- The number `bond_miimon_inspect` returns is not zero. -/
def miimon_changes (w : World) : Bool :=
  w.bond_for_each_slave.any fun s => (w.slaves s).new_link.isSome

variable [Siblings]

def failover (w : World) : World :=
  (w.lock .curr_slave .write).bond_select_active_slave.unlock .curr_slave .write

def link_change (w : World) (s : SlaveId) (link : Link) : World :=
  let w := if w.bond.params.mode = .ieee8023ad then
    w.sibling (.bond_3ad_handle_link_change s link) else w
  if w.bond.params.mode = .tlb ∨ w.bond.params.mode = .alb then
    w.sibling (.bond_alb_handle_link_change s link) else w

def commit_up (w : World) (s : SlaveId) : World :=
  let w := w.setSlave s fun slave => { slave with link := .up }
  let w := if w.bond.params.mode = .ieee8023ad ∨
      (w.bond.params.mode = .activebackup ∧ w.bond.primary_slave ≠ some s) then
      w.setSlave s fun slave => { slave with state := .backup }
    else if w.bond.params.mode ≠ .activebackup then
      w.setSlave s fun slave => { slave with state := .active }
    else w
  let w := w.link_change s .up
  if w.bond.curr_active_slave = none ∨ w.bond.primary_slave = some s then w.failover else w

def commit_down (w : World) (s : SlaveId) : World :=
  let w := w.setSlave s count_failure
  let w := w.setSlave s fun slave => { slave with link := .down }
  let w := if w.bond.params.mode = .activebackup ∨ w.bond.params.mode = .ieee8023ad then
    w.bond_set_slave_inactive_flags s else w
  let w := w.link_change s .down
  if w.bond.curr_active_slave = some s then w.failover else w

def commit (w : World) (s : SlaveId) : World :=
  match (w.slaves s).new_link with
  | none => w
  | some .up => w.commit_up s
  | some .down => w.commit_down s
  | some _ => w.setSlave s fun slave => { slave with new_link := none }

def bond_miimon_commit (w : World) : World :=
  (w.bond_for_each_slave.foldl commit w).bond_set_carrier.2

def bond_mii_monitor (w : World) : World :=
  let w := w.lock .bond .read
  if w.bond.kill_timers ∨ w.bond.slave_cnt = 0 then w.unlock .bond .read
  else
    let w := if w.bond.send_grat_arp ≠ 0 then
        ((w.lock .curr_slave .read).bond_send_gratuitous_arp).unlock .curr_slave .read
      else w
    let w := w.bond_miimon_inspect
    let w := if w.miimon_changes then
        -- the read lock is dropped for `rtnl_lock` and again after the commit
        let w := ((w.unlock .bond .read).lock .bond .read).bond_miimon_commit
        (w.unlock .bond .read).lock .bond .read
      else w
    w.unlock .bond .read

/-- `time_before_eq(a, b)` and `time_after_eq(b, a)` of 64-bit jiffies -/
def time_before_eq (a b : BitVec 64) : Bool := 0 ≤ (b - a).toInt

/-- Both traffic stamps of the device are within one interval. -/
def arp_recent (w : World) (delta_in_ticks : BitVec 64) (dev : NetDevice) : Bool :=
  time_before_eq w.jiffies (dev.trans_start + delta_in_ticks) &&
    time_before_eq w.jiffies (dev.last_rx + delta_in_ticks)

/-- One of the traffic stamps of the device is two intervals old. -/
def arp_timed_out (w : World) (delta_in_ticks : BitVec 64) (dev : NetDevice) : Bool :=
  time_before_eq (dev.trans_start + 2 * delta_in_ticks) w.jiffies ||
    time_before_eq (dev.last_rx + 2 * delta_in_ticks) w.jiffies

def arp_slave (delta_in_ticks : BitVec 64) (w : World) (s : SlaveId) : World :=
  if (w.slaves s).link ≠ .up then
    if w.arp_recent delta_in_ticks (w.slave_dev s) then
      w.setSlave s fun slave => { slave with link := .up, state := .active }
    else w
  else if w.arp_timed_out delta_in_ticks (w.slave_dev s) then
    w.setSlave s fun slave => count_failure { slave with link := .down, state := .backup }
  else w

def arp_failover (delta_in_ticks : BitVec 64) (w : World) (s : SlaveId) : Bool :=
  if (w.slaves s).link ≠ .up then
    w.bond.curr_active_slave == none && w.arp_recent delta_in_ticks (w.slave_dev s)
  else w.bond.curr_active_slave == some s && w.arp_timed_out delta_in_ticks (w.slave_dev s)

def arp_turn (delta_in_ticks : BitVec 64) (acc : Bool × World) (s : SlaveId) : Bool × World :=
  (acc.1 || acc.2.arp_failover delta_in_ticks s, arp_slave delta_in_ticks acc.2 s)

/-- `delta_in_ticks` is `msecs_to_jiffies(bond->params.arp_interval)`. -/
def bond_loadbalance_arp_mon (delta_in_ticks : BitVec 64) (w : World) : World :=
  let w := w.lock .bond .read
  if w.bond.kill_timers ∨ w.bond.slave_cnt = 0 then w.unlock .bond .read
  else
    let w := (w.lock .curr_slave .read).unlock .curr_slave .read
    let (do_failover, w) := w.bond_for_each_slave.foldl (arp_turn delta_in_ticks) (false, w)
    let w := if do_failover then w.failover else w
    w.unlock .bond .read

end World

end Hoolock
