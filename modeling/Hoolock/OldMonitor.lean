import Hoolock.Monitor

/-!
The MII monitor of 2.6.24: it inspects the slaves without the locks that a failover needs, and
starts again with them as soon as it comes upon something to do.
-/

set_option autoImplicit false

namespace Hoolock

structure Inspection where
  world : World
  do_failover : Bool

namespace Inspection

variable [Siblings]

omit [Siblings] in
def setSlave (p : Inspection) (s : SlaveId) (f : Slave → Slave) : Inspection :=
  { p with world := p.world.setSlave s f }

/-- `BOND_LINK_FAIL` and the link stays down; the inspection stops here when the first is true. -/
def stays_down (have_locks : Bool) (oldcurrent : Option SlaveId) (p : Inspection) (s : SlaveId) :
    Bool × Inspection :=
  if (p.world.slaves s).delay ≤ 0 then
    if !have_locks then (true, p)
    else
      let w := p.world.setSlave s fun slave => { slave with link := .down }
      let w := if w.bond.params.mode = .activebackup ∨ w.bond.params.mode = .ieee8023ad then
        w.bond_set_slave_inactive_flags s else w
      (false, ⟨w.link_change s .down, p.do_failover || oldcurrent == some s⟩)
  else (false, p.setSlave s fun slave => { slave with delay := slave.delay - 1 })

def stays_up (have_locks : Bool) (oldcurrent : Option SlaveId) (p : Inspection) (s : SlaveId) :
    Bool × Inspection :=
  if (p.world.slaves s).delay = 0 then
    if !have_locks then (true, p)
    else
      let w := p.world.setSlave s fun slave => { slave with link := .up }
      let w := if w.bond.params.mode = .ieee8023ad then
          w.setSlave s fun slave => { slave with state := .backup }
        else if w.bond.params.mode ≠ .activebackup then
          w.setSlave s fun slave => { slave with state := .active }
        else if w.bond.primary_slave ≠ some s then
          w.setSlave s fun slave => { slave with state := .backup }
        else w
      let w := w.link_change s .up
      (false, ⟨w, p.do_failover || (oldcurrent == none || w.bond.primary_slave == some s)⟩)
  else (false, p.setSlave s fun slave => { slave with delay := slave.delay - 1 })

def slave (have_locks : Bool) (oldcurrent : Option SlaveId) (p : Inspection) (s : SlaveId) :
    Bool × Inspection :=
  match (p.world.slaves s).link, p.world.bond_check_dev_link (p.world.slave_dev s) with
  | .up, true =>
    if oldcurrent = none then
      if !have_locks then (true, p) else (false, { p with do_failover := true })
    else (false, p)
  | .up, false =>
    stays_down have_locks oldcurrent (p.setSlave s fun slave => World.count_failure
      { slave with link := .fail, delay := p.world.bond.params.downdelay }) s
  | .fail, false => p.stays_down have_locks oldcurrent s
  | .fail, true => (false, p.setSlave s fun slave => { slave with link := .up })
  | .down, false => (false, p)
  | .down, true =>
    stays_up have_locks oldcurrent (p.setSlave s fun slave =>
      { slave with link := .back, delay := p.world.bond.params.updelay }) s
  | .back, false => (false, p.setSlave s fun slave => { slave with link := .down })
  | .back, true => p.stays_up have_locks oldcurrent s

/-- The loop of `__bond_mii_monitor`. -/
def slaves (have_locks : Bool) (oldcurrent : Option SlaveId) :
    Inspection → List SlaveId → Bool × Inspection
  | p, [] => (false, p)
  | p, s :: rest =>
    let r := p.slave have_locks oldcurrent s
    if r.1 then r else slaves have_locks oldcurrent r.2 rest

end Inspection

namespace World

variable [Siblings]

omit [Siblings] in
def announce_24 (w : World) : World :=
  if w.bond.send_grat_arp ≠ 0 then
    if w.bond.curr_active_slave.any fun s => (w.slave_dev s).linkwatch_pending then w
    else w.bond_send_gratuitous_arp.setBond fun b => { b with send_grat_arp := 0 }
  else w

set_option linter.style.nameCheck false in
def __bond_mii_monitor (have_locks : Bool) (w : World) : Bool × World :=
  if w.bond.slave_cnt = 0 then (false, w)
  else
    let w := w.announce_24
    let w := w.lock .curr_slave .read
    let oldcurrent := w.bond.curr_active_slave
    let w := w.unlock .curr_slave .read
    let r := Inspection.slaves have_locks oldcurrent ⟨w, false⟩ w.bond_for_each_slave
    if r.1 then (true, r.2.world)
    else (false, if r.2.do_failover then r.2.world.failover else r.2.world.bond_set_carrier.2)

def bond_mii_monitor_24 (w : World) : World :=
  let w := w.lock .bond .read
  if w.bond.kill_timers then w.unlock .bond .read
  else
    let (again, w) := w.__bond_mii_monitor false
    let w := if again then
        -- the read lock is dropped for `rtnl_lock` and again after the second inspection
        let w := (w.unlock .bond .read).lock .bond .read
        let w := (w.__bond_mii_monitor true).2
        (w.unlock .bond .read).lock .bond .read
      else w
    w.unlock .bond .read

/-- The MII monitor of the world's kernel. -/
def monitor (w : World) : World :=
  match w.port with
  | .k24 => w.bond_mii_monitor_24
  | .k27 => w.bond_mii_monitor

end World

end Hoolock
