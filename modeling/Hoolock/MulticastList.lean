import Hoolock.FilterMoves

/-!
The receive settings of the bond itself. `dev_set_rx_mode` hands them to
`bond_set_multicast_list`, which passes on what differs from the copy it saved last.
-/

set_option autoImplicit false

namespace Hoolock

namespace World

/-- One device call for each slave in turn, up to the first error. -/
def push_each (g : NetDevice → Int × NetDevice) : World → List SlaveId → Int × World
  | w, [] => (0, w)
  | w, s :: rest =>
    let (err, w) := w.onDev (w.slaves s).dev g
    if err ≠ 0 then (err, w) else push_each g w rest

/-- A device call for the active slave or, where the mode has none, for all slaves. -/
def push (w : World) (g : NetDevice → Int × NetDevice) : Int × World :=
  if USES_PRIMARY w.port w.bond.params.mode then
    match w.bond.curr_active_slave with
    | some s => w.onDev (w.slaves s).dev g
    | none => (0, w)
  else push_each g w w.bond_for_each_slave

def bond_set_promiscuity (w : World) (inc : Int) : Int × World :=
  w.push (dev_set_promiscuity w.port inc)

def bond_set_allmulti (w : World) (inc : Int) : Int × World :=
  w.push (dev_set_allmulti w.port inc)

def bond_mc_add (w : World) (addr : HwAddr) : World :=
  (w.push fun dev => (0, dev_mc_add addr dev)).2

def bond_mc_delete (w : World) (addr : HwAddr) : World :=
  (w.push fun dev => (0, dev_mc_delete addr dev)).2

end World

def bond_mc_list_find_dmi (dmi : DevAddr) (mc_list : List DevAddr) : Option DevAddr :=
  mc_list.find? (·.da_addr == dmi.da_addr)

/-- The allocations succeed; each copy goes to the head of the list. -/
def bond_mc_list_copy (mc_list bond : List DevAddr) : List DevAddr :=
  mc_list.foldl (fun bond dmi => dmi :: bond) bond

/-- The bond with its own unicast addresses and with what `struct bonding` has saved of the
settings of its device: `iff_promisc` and `iff_allmulti` of `flags`, and `mc_list`. -/
structure Master where
  world : World
  iff_promisc : Bool
  iff_allmulti : Bool
  mc_list : List DevAddr
  uc_list : List DevAddr
  uc_promisc : Bool

inductive RxEvent where
  | call (e : Event)
  | set_promiscuity (on : Bool)
  | set_allmulti (on : Bool)
  | mc_add (addr : HwAddr)
  | mc_delete (addr : HwAddr)
  | unicast_add (addr : HwAddr)
  | unicast_delete (addr : HwAddr)
  | set_rx_mode

namespace Master

def dev (m : Master) : NetDevice := m.world.bond_dev

def setDev (m : Master) (f : NetDevice → NetDevice) : Master :=
  { m with world := m.world.setDev m.world.bond.dev f }

theorem dev_setDev (m : Master) (f : NetDevice → NetDevice) : (m.setDev f).dev = f m.dev := by
  unfold dev setDev World.bond_dev World.setDev
  simp

def bond_set_multicast_list (m : Master) : Master :=
  let w := m.world
  let w := if w.bond_dev.iff_promisc && !m.iff_promisc then (w.bond_set_promiscuity 1).2 else w
  let w := if !w.bond_dev.iff_promisc && m.iff_promisc then (w.bond_set_promiscuity (-1)).2 else w
  let w := if w.bond_dev.iff_allmulti && !m.iff_allmulti then (w.bond_set_allmulti 1).2 else w
  let w := if !w.bond_dev.iff_allmulti && m.iff_allmulti then (w.bond_set_allmulti (-1)).2 else w
  let w := w.lock .bond .read
  let m := { m with
    iff_promisc := w.bond_dev.iff_promisc, iff_allmulti := w.bond_dev.iff_allmulti }
  let w := w.bond_dev.mc_list.foldl (fun w dmi =>
    if (bond_mc_list_find_dmi dmi m.mc_list).isNone then w.bond_mc_add dmi.da_addr else w) w
  let w := m.mc_list.foldl (fun w dmi =>
    if (bond_mc_list_find_dmi dmi w.bond_dev.mc_list).isNone then w.bond_mc_delete dmi.da_addr
    else w) w
  { m with
    world := w.unlock .bond .read, mc_list := bond_mc_list_copy w.bond_dev.mc_list [] }

/-- `__dev_set_rx_mode` puts a device without a unicast filter of its own in promiscuous mode
while it has secondary addresses. -/
def set_unicast (m : Master) : Master :=
  if 0 < m.uc_list.length ∧ !m.uc_promisc then
    { m.setDev fun dev => (dev_set_promiscuity m.world.port 1 dev).2 with uc_promisc := true }
  else if m.uc_list.length = 0 ∧ m.uc_promisc then
    { m.setDev fun dev => (dev_set_promiscuity m.world.port (-1) dev).2 with uc_promisc := false }
  else m

def dev_set_rx_mode (m : Master) : Master :=
  if !m.dev.iff_up then m
  else if !m.dev.present then m
  else m.set_unicast.bond_set_multicast_list

def dev_set_promiscuity (m : Master) (inc : Int) : Master :=
  let (err, world) :=
    m.world.onDev m.world.bond.dev (Hoolock.dev_set_promiscuity m.world.port inc)
  let n := { m with world }
  if err < 0 then n
  else if n.dev.iff_promisc ≠ m.dev.iff_promisc then n.dev_set_rx_mode
  else n

def dev_set_allmulti (m : Master) (inc : Int) : Master :=
  let (err, world) := m.world.onDev m.world.bond.dev (Hoolock.dev_set_allmulti m.world.port inc)
  let n := { m with world }
  if err < 0 then n
  else if n.dev.iff_allmulti ≠ m.dev.iff_allmulti then n.dev_set_rx_mode
  else n

def dev_mc_add (m : Master) (addr : HwAddr) : Master :=
  (m.setDev (Hoolock.dev_mc_add addr)).dev_set_rx_mode

def dev_mc_delete (m : Master) (addr : HwAddr) : Master :=
  if m.dev.mc_list.any (·.da_addr == addr) then
    (m.setDev (Hoolock.dev_mc_delete addr)).dev_set_rx_mode
  else m

def dev_unicast_add (m : Master) (addr : HwAddr) : Master :=
  { m with uc_list := dev_addr_add addr m.uc_list }.dev_set_rx_mode

def dev_unicast_delete (m : Master) (addr : HwAddr) : Master :=
  if m.uc_list.any (·.da_addr == addr) then
    { m with uc_list := dev_addr_delete addr m.uc_list }.dev_set_rx_mode
  else m

def dev_open (m : Master) : Master :=
  if m.dev.iff_up then m
  else if !m.dev.present then m
  else { m with world := m.world.open_bond }.dev_set_rx_mode

variable [Siblings]

def call (m : Master) : Event → Option Master
  | .open_bond => some m.dev_open
  | .free_all => some { m with world := m.world.bond_free_all, mc_list := [] }
  | e => (m.world.step e).map fun world => { m with world }

def step (m : Master) : RxEvent → Option Master
  | .call e => m.call e
  | .set_promiscuity on => some (m.dev_set_promiscuity (if on then 1 else -1))
  | .set_allmulti on => some (m.dev_set_allmulti (if on then 1 else -1))
  | .mc_add addr => some (m.dev_mc_add addr)
  | .mc_delete addr => some (m.dev_mc_delete addr)
  | .unicast_add addr => some (m.dev_unicast_add addr)
  | .unicast_delete addr => some (m.dev_unicast_delete addr)
  | .set_rx_mode => some m.dev_set_rx_mode

end Master

/-- The bond just created: nothing is saved yet and there are no secondary addresses. -/
def World.bond_master (w : World) (bond_dev : DevId) (params : Params) : Master :=
  { world := w.bond_init bond_dev params, iff_promisc := false, iff_allmulti := false
    mc_list := [], uc_list := [], uc_promisc := false }

end Hoolock
