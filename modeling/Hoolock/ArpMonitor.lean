import Hoolock.Monitor

/-!
The ARP monitor of active-backup mode in 2.6.27: what it finds out, what it does about it, and
its search for a slave that answers.
-/

set_option autoImplicit false

namespace Hoolock

/-- The bond with the two time stamps that only this monitor reads. -/
structure ArpBond where
  world : World
  stamp : SlaveId → BitVec 64
  last_arp_rx : SlaveId → BitVec 64

namespace World

def primary_waits (w : World) : Option SlaveId :=
  match w.bond.primary_slave with
  | some p =>
    if w.bond.curr_active_slave ≠ some p ∧ (w.slaves p).link = .up then some p else none
  | none => none

end World

namespace ArpBond

def change (n : ArpBond) (f : World → World) : ArpBond := { n with world := f n.world }

def stamp_slave (n : ArpBond) (s : SlaveId) : ArpBond :=
  { n with stamp := fun t => if t = s then n.world.jiffies else n.stamp t }

/-- `if (bond->curr_active_slave) bond->curr_active_slave->jiffies = jiffies;` -/
def stamp_active (n : ArpBond) : ArpBond :=
  match n.world.bond.curr_active_slave with
  | some active => n.stamp_slave active
  | none => n

def slave_last_rx (n : ArpBond) (s : SlaveId) : BitVec 64 :=
  if n.world.slave_do_arp_validate s then n.last_arp_rx s else (n.world.slave_dev s).last_rx

def heard (n : ArpBond) (delta_in_ticks : BitVec 64) (s : SlaveId) : Bool :=
  World.time_before_eq n.world.jiffies (n.slave_last_rx s + delta_in_ticks)

def sent (n : ArpBond) (delta_in_ticks : BitVec 64) (s : SlaveId) : Bool :=
  World.time_before_eq n.world.jiffies ((n.world.slave_dev s).trans_start + delta_in_ticks)

/-- A backup slave is down after three intervals without a word, unless a search is on. -/
def backup_silent (n : ArpBond) (delta_in_ticks : BitVec 64) (s : SlaveId) : Bool :=
  (n.world.slaves s).state == .backup && n.world.bond.current_arp_slave == none &&
    !World.time_before_eq n.world.jiffies (n.slave_last_rx s + 3 * delta_in_ticks)

/-- The active slave is down after two intervals without sending or without hearing. -/
def active_silent (n : ArpBond) (delta_in_ticks : BitVec 64) (s : SlaveId) : Bool :=
  (n.world.slaves s).state == .active &&
    (World.time_before_eq ((n.world.slave_dev s).trans_start + 2 * delta_in_ticks)
        n.world.jiffies ||
      World.time_before_eq (n.slave_last_rx s + 2 * delta_in_ticks) n.world.jiffies)

/-- The `new_link` that one slave gets in the loop of `bond_ab_arp_inspect`. -/
def verdict (n : ArpBond) (delta_in_ticks : BitVec 64) (s : SlaveId) : Option Link :=
  if (n.world.slaves s).link ≠ .up then
    if n.heard delta_in_ticks s then some .up else none
  else if !World.time_before_eq (n.stamp s + 2 * delta_in_ticks) n.world.jiffies then none
  else if n.backup_silent delta_in_ticks s || n.active_silent delta_in_ticks s then some .down
  else none

def inspect (delta_in_ticks : BitVec 64) (n : ArpBond) (s : SlaveId) : ArpBond :=
  n.change fun w => w.setSlave s fun slave =>
    { slave with new_link := n.verdict delta_in_ticks s }

def bond_ab_arp_inspect (n : ArpBond) (delta_in_ticks : BitVec 64) : Bool × ArpBond :=
  let n := n.world.bond_for_each_slave.foldl (inspect delta_in_ticks) n
  let n := n.change (·.lock .curr_slave .read)
  let commit := n.world.miimon_changes || n.world.primary_waits.isSome
  (commit, n.change (·.unlock .curr_slave .read))

variable [Siblings]

def bond_change_active_slave (n : ArpBond) (new_active : Option SlaveId) : ArpBond :=
  let old_active := n.world.bond.curr_active_slave
  let m := n.change (·.bond_change_active_slave new_active)
  match new_active with
  | some new => if old_active = some new then m else { m with stamp := (n.stamp_slave new).stamp }
  | none => m

def bond_select_active_slave (n : ArpBond) : ArpBond :=
  let best_slave := n.world.bond_find_best_slave
  if best_slave ≠ n.world.bond.curr_active_slave then
    (n.bond_change_active_slave best_slave).change (·.bond_set_carrier.2)
  else n

def set_arp_slave (n : ArpBond) (slave : Option SlaveId) : ArpBond :=
  n.change (·.setBond fun b => { b with current_arp_slave := slave })

def commit_up (delta_in_ticks : BitVec 64) (n : ArpBond) (s : SlaveId) : ArpBond :=
  let n := n.change (·.lock .curr_slave .write)
  let n :=
    if n.world.bond.curr_active_slave = none ∧ n.sent delta_in_ticks s then
      let n := n.change (·.setSlave s fun slave => { slave with link := .up })
      (n.bond_change_active_slave (some s)).set_arp_slave none
    else if n.world.bond.curr_active_slave ≠ some s then
      let n := n.change (·.setSlave s fun slave => { slave with link := .up })
      (n.change (·.bond_set_slave_inactive_flags s)).set_arp_slave none
    else n
  n.change (·.unlock .curr_slave .write)

def commit_down (n : ArpBond) (s : SlaveId) : ArpBond :=
  let n := n.change (·.setSlave s World.count_failure)
  let n := n.change (·.setSlave s fun slave => { slave with link := .down })
  if n.world.bond.curr_active_slave = some s then
    let n := n.change (·.bond_set_slave_inactive_flags s)
    let n := n.change (·.lock .curr_slave .write)
    let n := n.bond_select_active_slave
    let n := n.stamp_active.change (·.unlock .curr_slave .write)
    n.set_arp_slave none
  else if (n.world.slaves s).state = .backup then n.change (·.bond_set_slave_inactive_flags s)
  else n

def commit (delta_in_ticks : BitVec 64) (n : ArpBond) (s : SlaveId) : ArpBond :=
  match (n.world.slaves s).new_link with
  | none => n
  | some .up => n.commit_up delta_in_ticks s
  | some .down => n.commit_down s
  | some _ => n

def commit_primary (n : ArpBond) : ArpBond :=
  let n := match n.world.primary_waits with
    | some p => ((n.change (·.lock .curr_slave .write)).bond_change_active_slave
        (some p)).change (·.unlock .curr_slave .write)
    | none => n
  n.change (·.bond_set_carrier.2)

def bond_ab_arp_commit (n : ArpBond) (delta_in_ticks : BitVec 64) : ArpBond :=
  (n.world.bond_for_each_slave.foldl (commit delta_in_ticks) n).commit_primary

omit [Siblings] in
/-- The next candidate for the active slave; it is told apart as the sender of the probes. -/
def candidate (n : ArpBond) (s : SlaveId) : ArpBond :=
  let n := n.change (·.setSlave s fun slave => { slave with link := .back })
  let n := n.change (·.bond_set_slave_active_flags s)
  (n.stamp_slave s).set_arp_slave (some s)

omit [Siblings] in
def passed_over (n : ArpBond) (s : SlaveId) : ArpBond :=
  if (n.world.slaves s).link = .up then
    let n := n.change (·.setSlave s fun slave => World.count_failure { slave with link := .down })
    n.change (·.bond_set_slave_inactive_flags s)
  else n

omit [Siblings] in
/-- The search, which ends at the first slave that is up. -/
def next_candidate (n : ArpBond) : List SlaveId → Option SlaveId × ArpBond
  | [] => (none, n)
  | s :: rest =>
    if IS_UP (n.world.slave_dev s) then (some s, n.candidate s)
    else (n.passed_over s).next_candidate rest

omit [Siblings] in
/-- The slave that `bond_arp_send_all` is called for comes first. -/
def bond_ab_arp_probe (n : ArpBond) : Option SlaveId × ArpBond :=
  let n := n.change (·.lock .curr_slave .read)
  let active := n.world.bond.curr_active_slave
  let n := n.change (·.unlock .curr_slave .read)
  if active.isSome then (active, n)
  else
    let n := if n.world.bond.current_arp_slave = none then
      n.set_arp_slave n.world.bond.first_slave else n
    match n.world.bond.current_arp_slave with
    | none => (none, n)
    | some c =>
      let n := n.change (·.bond_set_slave_inactive_flags c)
      n.next_candidate (n.world.bond_for_each_slave_from (n.world.slaves c).next)

/-- `delta_in_ticks` is `msecs_to_jiffies(bond->params.arp_interval)`; the slave that probes are
sent from comes first. -/
def bond_activebackup_arp_mon (n : ArpBond) (delta_in_ticks : BitVec 64) :
    Option SlaveId × ArpBond :=
  let n := n.change (·.lock .bond .read)
  if n.world.bond.kill_timers ∨ n.world.bond.slave_cnt = 0 then
    (none, n.change (·.unlock .bond .read))
  else
    let n := if n.world.bond.send_grat_arp ≠ 0 then
      n.change fun w => ((w.lock .curr_slave .read).bond_send_gratuitous_arp).unlock .curr_slave
        .read else n
    let (changes, n) := n.bond_ab_arp_inspect delta_in_ticks
    let n := if changes then
        -- the read lock is dropped for `rtnl_lock` and again after the commit
        let n := n.change fun w => (w.unlock .bond .read).lock .bond .read
        let n := n.bond_ab_arp_commit delta_in_ticks
        n.change fun w => (w.unlock .bond .read).lock .bond .read
      else n
    let (probed, n) := n.bond_ab_arp_probe
    (probed, n.change (·.unlock .bond .read))

end ArpBond

end Hoolock
