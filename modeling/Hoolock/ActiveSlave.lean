import Hoolock.SlaveRing

set_option autoImplicit false

namespace Hoolock

/-- The part of the state that only the entry points, the receive path and the
handover itself change. -/
structure Core where
  port : Port
  locks : Locks
  dev : DevId
  mode : Mode
  hoolock_pt : Bool
  master_ip : Be32
  buffer_mode : Int
  pbuff : List Skb
  ptype_all : List PacketType
  ptype_base : Nat → List PacketType
  users : Nat → Int
  trace : List Invocation

def Core.lock (c : Core) (l : LockName) (m : LockMode) : Core :=
  { c with locks := c.locks.add l m 1 }

def Core.unlock (c : Core) (l : LockName) (m : LockMode) : Core :=
  { c with locks := c.locks.add l m (-1) }

@[simp] theorem Core.lock_unlock (c : Core) (l : LockName) (m : LockMode) :
    (c.lock l m).unlock l m = c := by
  simp [lock, unlock]

@[simp] theorem Core.unlock_lock (c : Core) (l : LockName) (m : LockMode) :
    (c.unlock l m).lock l m = c := by
  simp [lock, unlock]

/-- How the slaves hang together: who is linked to whom, whose device is whose, and
which records are allocated. -/
structure Shape where
  links : CircularList.Links SlaveId
  first_slave : Option SlaveId
  slave_cnt : Int
  dev : SlaveId → DevId
  live : SlaveId → Bool

namespace World

def core (w : World) : Core :=
  { port := w.port, locks := w.locks, dev := w.bond.dev, mode := w.bond.params.mode,
    hoolock_pt := w.bond.hoolock_pt, master_ip := w.bond.master_ip,
    buffer_mode := w.bond.buffer_mode, pbuff := w.bond.pbuff, ptype_all := w.ptype_all,
    ptype_base := w.ptype_base, users := w.users, trace := w.trace }

def shape (w : World) : Shape :=
  { links := w.links, first_slave := w.bond.first_slave, slave_cnt := w.bond.slave_cnt,
    dev := fun s => (w.slaves s).dev, live := w.live }

@[simp] theorem core_lock (w : World) (l : LockName) (m : LockMode) :
    (w.lock l m).core = w.core.lock l m := rfl

@[simp] theorem core_unlock (w : World) (l : LockName) (m : LockMode) :
    (w.unlock l m).core = w.core.unlock l m := rfl

@[simp] theorem core_setDev (w : World) (d : DevId) (f : NetDevice → NetDevice) :
    (w.setDev d f).core = w.core := rfl

@[simp] theorem core_setSlave (w : World) (s : SlaveId) (f : Slave → Slave) :
    (w.setSlave s f).core = w.core := rfl

@[simp] theorem core_setLinks (w : World) (L : CircularList.Links SlaveId) :
    (w.setLinks L).core = w.core := rfl

@[simp] theorem shape_lock (w : World) (l : LockName) (m : LockMode) :
    (w.lock l m).shape = w.shape := rfl

@[simp] theorem shape_unlock (w : World) (l : LockName) (m : LockMode) :
    (w.unlock l m).shape = w.shape := rfl

@[simp] theorem shape_setDev (w : World) (d : DevId) (f : NetDevice → NetDevice) :
    (w.setDev d f).shape = w.shape := rfl

theorem shape_setSlave (w : World) (s : SlaveId) (f : Slave → Slave)
    (hn : ∀ x, (f x).next = x.next) (hp : ∀ x, (f x).prev = x.prev)
    (hd : ∀ x, (f x).dev = x.dev) : (w.setSlave s f).shape = w.shape := by
  have hsel : ∀ {β : Type} (g : Slave → β), (∀ x, g (f x) = g x) →
      ∀ t, g ((w.setSlave s f).slaves t) = g (w.slaves t) := by
    intro β g hg t
    by_cases h : t = s
    · simp [setSlave, h, hg]
    · simp [setSlave, h]
  simp only [shape, links]
  refine congr (congr (congr (congr (congrArg Shape.mk ?_) rfl) rfl) ?_) rfl
  · exact congr (congrArg _ (funext (hsel _ hn))) (funext (hsel _ hp))
  · exact funext (hsel _ hd)

theorem Ring.of_shape {w v : World} {l : List SlaveId} (h : w.Ring l)
    (hs : v.shape = w.shape) : v.Ring l :=
  h.congr (congrArg Shape.links hs) (congrArg Shape.first_slave hs)
    (congrArg Shape.slave_cnt hs)

end World

namespace World

/-- `if (slave) f(slave)` -/
def onSlave (w : World) (slave : Option SlaveId) (f : World → SlaveId → World) : World :=
  match slave with
  | some s => f w s
  | none => w

theorem onSlave_keeps {β : Sort _} (g : World → β) {w : World} {slave : Option SlaveId}
    {f : World → SlaveId → World} (h : ∀ s, g (f w s) = g w) : g (w.onSlave slave f) = g w := by
  cases slave with
  | none => rfl
  | some s => exact h s

@[simp] theorem core_onSlave {w : World} {slave : Option SlaveId} {f : World → SlaveId → World}
    (h : ∀ s, (f w s).core = w.core) : (w.onSlave slave f).core = w.core :=
  onSlave_keeps core h

@[simp] theorem shape_onSlave {w : World} {slave : Option SlaveId} {f : World → SlaveId → World}
    (h : ∀ s, (f w s).shape = w.shape) : (w.onSlave slave f).shape = w.shape :=
  onSlave_keeps shape h

def memcpy (dst src : HwAddr) (n : Nat) : HwAddr := src.take n ++ dst.drop n

def netif_carrier_on (w : World) (d : DevId) : World :=
  w.setDev d fun dev => { dev with carrier := true }

def netif_carrier_off (w : World) (d : DevId) : World :=
  w.setDev d fun dev => { dev with carrier := false }

/-- `arp_validate & (1 << slave->state)` -/
def slave_do_arp_validate (w : World) (s : SlaveId) : Bool :=
  match (w.slaves s).state with
  | .active => w.bond.params.arp_validate.testBit 0
  | .backup => w.bond.params.arp_validate.testBit 1

def bond_set_slave_inactive_flags (w : World) (slave : SlaveId) : World :=
  let w := if w.bond.params.mode ≠ .tlb ∧ w.bond.params.mode ≠ .alb then
      w.setSlave slave fun s => { s with state := .backup }
    else w
  let needarp := w.slave_do_arp_validate slave
  w.setDev (w.slaves slave).dev fun dev =>
    { dev with slave_inactive := true, slave_needarp := dev.slave_needarp || needarp }

def bond_set_slave_active_flags (w : World) (slave : SlaveId) : World :=
  let w := w.setSlave slave fun s => { s with state := .active }
  w.setDev (w.slaves slave).dev fun dev =>
    { dev with slave_inactive := false, slave_needarp := false }

def filter_off (w : World) (dev : NetDevice) : NetDevice :=
  let dev := if w.bond_dev.iff_promisc then (dev_set_promiscuity w.port (-1) dev).2 else dev
  let dev := if w.bond_dev.iff_allmulti then (dev_set_allmulti w.port (-1) dev).2 else dev
  w.bond_dev.mc_list.foldl (fun dev dmi => dev_mc_delete dmi.da_addr dev) dev

def filter_on (w : World) (dev : NetDevice) : NetDevice :=
  let dev := if w.bond_dev.iff_promisc then (dev_set_promiscuity w.port 1 dev).2 else dev
  let dev := if w.bond_dev.iff_allmulti then (dev_set_allmulti w.port 1 dev).2 else dev
  w.bond_dev.mc_list.foldl (fun dev dmi => dev_mc_add dmi.da_addr dev) dev

def bond_mc_swap (w : World) (new_active old_active : Option SlaveId) : World :=
  if !USES_PRIMARY w.port w.bond.params.mode then w
  else
    let w := w.onSlave old_active fun w s => w.setDev (w.slaves s).dev w.filter_off
    w.onSlave new_active fun w s => w.setDev (w.slaves s).dev w.filter_on

/-- `memcpy(bond->dev->dev_addr, new_active->dev->dev_addr, new_active->dev->addr_len)` -/
def copy_dev_addr (w : World) (new_active : SlaveId) : World :=
  let new_dev := w.slave_dev new_active
  w.setDev w.bond.dev fun dev =>
    { dev with dev_addr := memcpy dev.dev_addr new_dev.dev_addr new_dev.addr_len }

def bond_do_fail_over_mac (w : World) (new_active : SlaveId) (old_active : Option SlaveId) :
    World :=
  let new_dev := w.slave_dev new_active
  match w.bond.params.fail_over_mac with
  | .none => w
  | .active => w.copy_dev_addr new_active
  | .follow =>
    let w := (w.unlock .curr_slave .write).unlock .bond .read
    let (sa_data, sa_family) := match old_active with
      | some old => ((w.slave_dev old).dev_addr, new_dev.type)
      | none => (w.bond_dev.dev_addr, w.bond_dev.type)
    let rv := (dev_set_mac_address sa_data sa_family new_dev).1
    let w := w.setDev (w.slaves new_active).dev fun dev =>
      (dev_set_mac_address sa_data sa_family dev).2
    let w := w.onSlave old_active fun w old =>
      if rv ≠ 0 then w
      else w.setDev (w.slaves old).dev fun dev =>
        (dev_set_mac_address new_dev.dev_addr dev.type dev).2
    (w.lock .bond .read).lock .curr_slave .write

/-- In 2.6.27 a pending announcement is counted down, in 2.6.24 it is not. -/
def bond_send_gratuitous_arp (w : World) : World :=
  match w.port with
  | .k24 => w
  | .k27 => w.onSlave w.bond.curr_active_slave fun w s =>
    if w.bond.send_grat_arp = 0 ∨ (w.slave_dev s).linkwatch_pending then w
    else w.setBond fun b => { b with send_grat_arp := b.send_grat_arp - 1 }

/-- The active-backup part of `bond_change_active_slave` in 2.6.27. -/
def activebackup_changed_27 (w : World) (new_active old_active : Option SlaveId) : World :=
  let w := w.onSlave old_active bond_set_slave_inactive_flags
  w.onSlave new_active fun w new =>
    let w := w.bond_set_slave_active_flags new
    let w := if w.bond.params.fail_over_mac ≠ FailOverMac.none then
      w.bond_do_fail_over_mac new old_active else w
    let w := w.setBond fun b => { b with send_grat_arp := BitVec.ofInt 8 b.params.num_grat_arp }
    let w := w.bond_send_gratuitous_arp
    -- `netdev_bonding_change` is called with both locks dropped
    let w := (w.unlock .curr_slave .write).unlock .bond .read
    (w.lock .bond .read).lock .curr_slave .write

def activebackup_changed_24 (w : World) (new_active old_active : Option SlaveId) : World :=
  let w := w.onSlave old_active bond_set_slave_inactive_flags
  let w := w.onSlave new_active fun w new =>
    let w := w.bond_set_slave_active_flags new
    if w.bond.params.fail_over_mac ≠ FailOverMac.none then w.copy_dev_addr new else w
  match w.bond.curr_active_slave with
  | some s =>
    if (w.slave_dev s).linkwatch_pending then w.setBond fun b => { b with send_grat_arp := 1 }
    else w.bond_send_gratuitous_arp
  | none => w.bond_send_gratuitous_arp

def find_best (w : World) : List SlaveId → Int → Option SlaveId → Option SlaveId
  | [], _, bestslave => bestslave
  | s :: rest, mintime, bestslave =>
    if IS_UP (w.slave_dev s) then
      if (w.slaves s).link = .up then some s
      else if (w.slaves s).link = .back ∧ (w.slaves s).delay < mintime then
        find_best w rest (w.slaves s).delay (some s)
      else find_best w rest mintime bestslave
    else find_best w rest mintime bestslave

def bond_find_best_slave (w : World) : Option SlaveId :=
  match (match w.bond.curr_active_slave with
    | some s => some s
    | none => if w.bond.slave_cnt > 0 then w.bond.first_slave else none) with
  | none => none
  | some new_active =>
    let start := match w.bond.primary_slave with
      | some p => if w.bond.params.arp_interval = 0 ∧ IS_UP (w.slave_dev p) then p else new_active
      | none => new_active
    find_best w (w.bond_for_each_slave_from (some start)) w.bond.params.updelay none

@[simp] theorem core_setBond_active (w : World) (s : Option SlaveId) :
    (w.setBond fun b => { b with curr_active_slave := s }).core = w.core := rfl

@[simp] theorem core_setBond_grat_arp (w : World) (f : Bonding → BitVec 8) :
    (w.setBond fun b => { b with send_grat_arp := f b }).core = w.core := rfl

@[simp] theorem shape_setBond_active (w : World) (s : Option SlaveId) :
    (w.setBond fun b => { b with curr_active_slave := s }).shape = w.shape := rfl

@[simp] theorem shape_setBond_grat_arp (w : World) (f : Bonding → BitVec 8) :
    (w.setBond fun b => { b with send_grat_arp := f b }).shape = w.shape := rfl

@[simp] theorem core_inactive_flags (w : World) (s : SlaveId) :
    (w.bond_set_slave_inactive_flags s).core = w.core := by
  unfold bond_set_slave_inactive_flags
  split_ifs <;> simp

@[simp] theorem shape_inactive_flags (w : World) (s : SlaveId) :
    (w.bond_set_slave_inactive_flags s).shape = w.shape := by
  unfold bond_set_slave_inactive_flags
  split_ifs <;> simp [shape_setSlave]

@[simp] theorem core_active_flags (w : World) (s : SlaveId) :
    (w.bond_set_slave_active_flags s).core = w.core := rfl

@[simp] theorem shape_active_flags (w : World) (s : SlaveId) :
    (w.bond_set_slave_active_flags s).shape = w.shape := by
  simp [bond_set_slave_active_flags, shape_setSlave]

@[simp] theorem core_mc_swap (w : World) (new old : Option SlaveId) :
    (w.bond_mc_swap new old).core = w.core := by
  unfold bond_mc_swap
  split_ifs
  · rfl
  · exact (core_onSlave fun s => by simp).trans (core_onSlave fun s => by simp)

@[simp] theorem shape_mc_swap (w : World) (new old : Option SlaveId) :
    (w.bond_mc_swap new old).shape = w.shape := by
  unfold bond_mc_swap
  split_ifs
  · rfl
  · exact (shape_onSlave fun s => by simp).trans (shape_onSlave fun s => by simp)

@[simp] theorem core_copy_dev_addr (w : World) (s : SlaveId) :
    (w.copy_dev_addr s).core = w.core := rfl

@[simp] theorem shape_copy_dev_addr (w : World) (s : SlaveId) :
    (w.copy_dev_addr s).shape = w.shape := rfl

@[simp] theorem core_fail_over_mac (w : World) (new : SlaveId) (old : Option SlaveId) :
    (w.bond_do_fail_over_mac new old).core = w.core := by
  unfold bond_do_fail_over_mac
  cases w.bond.params.fail_over_mac with
  | none => rfl
  | active => rfl
  | follow =>
    dsimp only
    rw [core_lock, core_lock, core_onSlave]
    · simp
    · intro s
      split_ifs <;> simp

@[simp] theorem shape_fail_over_mac (w : World) (new : SlaveId) (old : Option SlaveId) :
    (w.bond_do_fail_over_mac new old).shape = w.shape := by
  unfold bond_do_fail_over_mac
  cases w.bond.params.fail_over_mac with
  | none => rfl
  | active => rfl
  | follow =>
    dsimp only
    rw [shape_lock, shape_lock, shape_onSlave]
    · simp
    · intro s
      split_ifs <;> simp

@[simp] theorem core_gratuitous_arp (w : World) : w.bond_send_gratuitous_arp.core = w.core := by
  unfold bond_send_gratuitous_arp
  cases w.port with
  | k24 => rfl
  | k27 =>
    refine core_onSlave fun s => ?_
    split_ifs <;> simp

@[simp] theorem shape_gratuitous_arp (w : World) :
    w.bond_send_gratuitous_arp.shape = w.shape := by
  unfold bond_send_gratuitous_arp
  cases w.port with
  | k24 => rfl
  | k27 =>
    refine shape_onSlave fun s => ?_
    split_ifs <;> simp

@[simp] theorem core_activebackup_27 (w : World) (new old : Option SlaveId) :
    (w.activebackup_changed_27 new old).core = w.core := by
  unfold activebackup_changed_27
  rw [core_onSlave]
  · simp
  · intro s
    dsimp only
    split_ifs <;> simp

@[simp] theorem shape_activebackup_27 (w : World) (new old : Option SlaveId) :
    (w.activebackup_changed_27 new old).shape = w.shape := by
  unfold activebackup_changed_27
  rw [shape_onSlave]
  · simp
  · intro s
    dsimp only
    split_ifs <;> simp

@[simp] theorem core_activebackup_24 (w : World) (new old : Option SlaveId) :
    (w.activebackup_changed_24 new old).core = w.core := by
  have hflags : ∀ v : World, (v.onSlave new fun w new =>
      if (w.bond_set_slave_active_flags new).bond.params.fail_over_mac ≠ FailOverMac.none then
        (w.bond_set_slave_active_flags new).copy_dev_addr new
      else w.bond_set_slave_active_flags new).core = v.core := by
    intro v
    refine core_onSlave fun s => ?_
    split_ifs <;> simp
  have hold : (w.onSlave old bond_set_slave_inactive_flags).core = w.core :=
    core_onSlave fun s => core_inactive_flags w s
  unfold activebackup_changed_24
  dsimp only
  split
  · split_ifs
    · exact (core_setBond_grat_arp _ fun _ => 1).trans ((hflags _).trans hold)
    · exact (core_gratuitous_arp _).trans ((hflags _).trans hold)
  · exact (core_gratuitous_arp _).trans ((hflags _).trans hold)

@[simp] theorem shape_activebackup_24 (w : World) (new old : Option SlaveId) :
    (w.activebackup_changed_24 new old).shape = w.shape := by
  have hflags : ∀ v : World, (v.onSlave new fun w new =>
      if (w.bond_set_slave_active_flags new).bond.params.fail_over_mac ≠ FailOverMac.none then
        (w.bond_set_slave_active_flags new).copy_dev_addr new
      else w.bond_set_slave_active_flags new).shape = v.shape := by
    intro v
    refine shape_onSlave fun s => ?_
    split_ifs <;> simp
  have hold : (w.onSlave old bond_set_slave_inactive_flags).shape = w.shape :=
    shape_onSlave fun s => shape_inactive_flags w s
  unfold activebackup_changed_24
  dsimp only
  split
  · split_ifs
    · exact (shape_setBond_grat_arp _ fun _ => 1).trans ((hflags _).trans hold)
    · exact (shape_gratuitous_arp _).trans ((hflags _).trans hold)
  · exact (shape_gratuitous_arp _).trans ((hflags _).trans hold)

theorem find_best_none {w : World} {l : List SlaveId} {mintime : Int} {best : Option SlaveId} :
    find_best w l mintime best = none ↔ best = none ∧ ∀ s ∈ l, IS_UP (w.slave_dev s) →
      (w.slaves s).link ≠ .up ∧ ((w.slaves s).link = .back → mintime ≤ (w.slaves s).delay) := by
  induction l generalizing mintime best with
  | nil => simp [find_best]
  | cons s rest ih =>
    unfold find_best
    split
    · rename_i hup
      split
      · rename_i hlink
        simp [hup, hlink]
      · rename_i hlink
        split
        · rename_i hback
          rw [ih]
          have := hback.2
          simp [hup, hback.1]
          omega
        · rename_i hback
          rw [ih, List.forall_mem_cons]
          have hs : (w.slaves s).link ≠ .up ∧
              ((w.slaves s).link = .back → mintime ≤ (w.slaves s).delay) :=
            ⟨hlink, fun e => Int.not_lt.mp fun hlt => hback ⟨e, hlt⟩⟩
          exact and_congr_right fun _ => (and_iff_right fun _ => hs).symm
    · rename_i hup
      rw [ih, List.forall_mem_cons]
      simp [hup]

theorem find_best_usable {w : World} {l : List SlaveId} {mintime : Int} {best : Option SlaveId}
    {s : SlaveId} (h : find_best w l mintime best = some s) :
    best = some s ∨ s ∈ l ∧ IS_UP (w.slave_dev s) ∧ ((w.slaves s).link = .up ∨
      (w.slaves s).link = .back ∧ (w.slaves s).delay < mintime) := by
  induction l generalizing mintime best with
  | nil => exact Or.inl h
  | cons a rest ih =>
    unfold find_best at h
    split at h
    · rename_i hup
      split at h
      · rename_i hlink
        cases h
        exact Or.inr ⟨by simp, hup, Or.inl hlink⟩
      · split at h
        · rename_i hback
          rcases ih h with hbest | ⟨hm, hsup, hlink⟩
          · cases hbest
            exact Or.inr ⟨by simp, hup, Or.inr hback⟩
          · refine Or.inr ⟨by simp [hm], hsup, hlink.imp_right fun hs => ⟨hs.1, ?_⟩⟩
            omega
        · exact (ih h).imp_right fun hm => ⟨by simp [hm.1], hm.2⟩
    · exact (ih h).imp_right fun hm => ⟨by simp [hm.1], hm.2⟩

theorem find_best_up {w : World} {l : List SlaveId} {mintime : Int} {best : Option SlaveId}
    {t : SlaveId} (ht : t ∈ l) (hup : IS_UP (w.slave_dev t)) (hlink : (w.slaves t).link = .up) :
    ∃ s, find_best w l mintime best = some s ∧ (w.slaves s).link = .up := by
  induction l generalizing mintime best with
  | nil => exact absurd ht (by simp)
  | cons a rest ih =>
    have hrest : ¬ (IS_UP (w.slave_dev a) ∧ (w.slaves a).link = .up) → t ∈ rest := by
      intro hne
      rcases List.mem_cons.mp ht with rfl | hm
      · exact absurd ⟨hup, hlink⟩ hne
      · exact hm
    unfold find_best
    split
    · split
      · rename_i ha
        exact ⟨a, rfl, ha⟩
      · rename_i ha
        split
        · exact ih (hrest fun hboth => ha hboth.2)
        · exact ih (hrest fun hboth => ha hboth.2)
    · rename_i ha
      exact ih (hrest fun hboth => ha hboth.1)

def Usable (w : World) (s : SlaveId) : Prop :=
  IS_UP (w.slave_dev s) ∧ ((w.slaves s).link = .up ∨
    (w.slaves s).link = .back ∧ (w.slaves s).delay < w.bond.params.updelay)

instance (w : World) (s : SlaveId) : Decidable (w.Usable s) := by
  unfold Usable
  infer_instance

/-- Every slave the bond's own pointers name is on its ring. -/
structure Members (w : World) (l : List SlaveId) : Prop extends w.Ring l where
  active : ∀ s, w.bond.curr_active_slave = some s → s ∈ l
  primary : ∀ s, w.bond.primary_slave = some s → s ∈ l

theorem find_best_of_mem {w : World} {l : List SlaveId} (h : w.Ring l) {a : SlaveId}
    (ha : a ∈ l) :
    (find_best w (w.bond_for_each_slave_from (some a)) w.bond.params.updelay none = none ↔
      ∀ s ∈ l, ¬ w.Usable s) ∧
    ∀ s, find_best w (w.bond_for_each_slave_from (some a)) w.bond.params.updelay none = some s →
      s ∈ l ∧ w.Usable s := by
  refine ⟨?_, fun s hs => ?_⟩
  · rw [find_best_none]
    simp only [h.mem_for_each_from ha, Usable, true_and]
    refine forall₂_congr fun s _ => ?_
    rw [not_and, not_or, not_and, not_lt]
  · rcases find_best_usable hs with hbest | ⟨hm, husable⟩
    · cases hbest
    · exact ⟨(h.mem_for_each_from ha s).mp hm, husable⟩

theorem Members.best_from {w : World} {l : List SlaveId} (h : w.Members l) :
    l = [] ∧ w.bond_find_best_slave = none ∨
    ∃ a ∈ l, w.bond_find_best_slave =
      find_best w (w.bond_for_each_slave_from (some a)) w.bond.params.updelay none := by
  have hstart : ∀ a ∈ l, (match w.bond.primary_slave with
      | some p => if w.bond.params.arp_interval = 0 ∧ IS_UP (w.slave_dev p) then p else a
      | none => a) ∈ l := by
    intro a ha
    cases hp : w.bond.primary_slave with
    | none => exact ha
    | some p =>
      dsimp only
      split
      · exact h.primary p hp
      · exact ha
  unfold bond_find_best_slave
  cases hact : w.bond.curr_active_slave with
  | some a => exact Or.inr ⟨_, hstart a (h.active a hact), rfl⟩
  | none =>
    cases l with
    | nil =>
      have hc := h.count
      simp only [List.length_nil, Nat.cast_zero] at hc
      simp [hc]
    | cons a t =>
      have hf : w.bond.first_slave = some a := h.head
      have hc := h.count
      have hpos : w.bond.slave_cnt > 0 := by
        rw [hc]
        simp
      simp only [hpos, if_true, hf]
      exact Or.inr ⟨_, hstart a (by simp), rfl⟩

theorem Members.find_best_slave {w : World} {l : List SlaveId} (h : w.Members l) :
    (w.bond_find_best_slave = none ↔ ∀ s ∈ l, ¬ w.Usable s) ∧
    ∀ s, w.bond_find_best_slave = some s → s ∈ l := by
  rcases h.best_from with ⟨rfl, hbest⟩ | ⟨a, ha, hbest⟩
  · rw [hbest]
    simp
  · rw [hbest]
    obtain ⟨hnone, hsome⟩ := find_best_of_mem h.toRing ha
    exact ⟨hnone, fun s hs => (hsome s hs).1⟩

theorem Members.best_usable {w : World} {l : List SlaveId} (h : w.Members l) {s : SlaveId}
    (hs : w.bond_find_best_slave = some s) : w.Usable s := by
  rcases h.best_from with ⟨rfl, hbest⟩ | ⟨a, ha, hbest⟩
  · rw [hbest] at hs
    cases hs
  · exact ((find_best_of_mem h.toRing ha).2 s (hbest ▸ hs)).2

theorem Members.best_up {w : World} {l : List SlaveId} (h : w.Members l) {t : SlaveId}
    (ht : t ∈ l) (hup : IS_UP (w.slave_dev t)) (hlink : (w.slaves t).link = .up) :
    ∃ s, w.bond_find_best_slave = some s ∧ (w.slaves s).link = .up := by
  rcases h.best_from with ⟨rfl, _⟩ | ⟨a, ha, hbest⟩
  · exact absurd ht (by simp)
  · rw [hbest]
    exact find_best_up ((h.mem_for_each_from ha t).mpr ht) hup hlink

end World

inductive SiblingCall where
  | bond_alb_init | bond_alb_deinit
  | bond_alb_init_slave (slave : SlaveId)
  | bond_alb_deinit_slave (slave : SlaveId)
  | bond_alb_handle_link_change (slave : SlaveId) (link : Link)
  | bond_alb_handle_active_change (new_slave : Option SlaveId)
  | bond_3ad_init
  | bond_3ad_bind_slave (slave : SlaveId)
  | bond_3ad_unbind_slave (slave : SlaveId)
  | bond_3ad_handle_link_change (slave : SlaveId) (link : Link)
  | bond_3ad_set_carrier

/-- What the balancing files do is open; they give back the locks they take, know
nothing of the handover and never relink slaves. -/
class Siblings where
  call : SiblingCall → World → Int × World
  call_core : ∀ c w, (call c w).2.core = w.core
  call_shape : ∀ c w, (call c w).2.shape = w.shape

attribute [simp] Siblings.call_core Siblings.call_shape

/-- A kernel built without them: every call succeeds and does nothing. -/
@[reducible] def noSiblings : Siblings where
  call _ w := (0, w)
  call_core _ _ := rfl
  call_shape _ _ := rfl

variable [Siblings]

namespace World

def sibling (w : World) (c : SiblingCall) : World := (Siblings.call c w).2

@[simp] theorem core_sibling (w : World) (c : SiblingCall) : (w.sibling c).core = w.core :=
  Siblings.call_core c w

@[simp] theorem shape_sibling (w : World) (c : SiblingCall) : (w.sibling c).shape = w.shape :=
  Siblings.call_shape c w

def bond_set_carrier (w : World) : Int × World :=
  if w.bond.slave_cnt ≠ 0 ∧ w.bond.params.mode = .ieee8023ad then
    Siblings.call .bond_3ad_set_carrier w
  else if w.bond.slave_cnt ≠ 0 ∧
      w.bond_for_each_slave.any (fun s => (w.slaves s).link == .up) then
    if !w.bond_dev.carrier then (1, w.netif_carrier_on w.bond.dev) else (0, w)
  else if w.bond_dev.carrier then (1, w.netif_carrier_off w.bond.dev)
  else (0, w)

@[simp] theorem core_bond_set_carrier (w : World) : w.bond_set_carrier.2.core = w.core := by
  unfold bond_set_carrier
  split_ifs <;> simp [netif_carrier_on, netif_carrier_off]

@[simp] theorem shape_bond_set_carrier (w : World) : w.bond_set_carrier.2.shape = w.shape := by
  unfold bond_set_carrier
  split_ifs <;> simp [netif_carrier_on, netif_carrier_off]

/-- A slave taken into use while it waits out its updelay counts as up. -/
def promote_link (w : World) (new_active : SlaveId) : World :=
  if (w.slaves new_active).link = .back then
    let w := w.setSlave new_active fun s => { s with delay := 0, link := .up }
    let w := if w.bond.params.mode = .ieee8023ad then
      w.sibling (.bond_3ad_handle_link_change new_active .up) else w
    if w.bond.params.mode = .tlb ∨ w.bond.params.mode = .alb then
      w.sibling (.bond_alb_handle_link_change new_active .up) else w
  else w

@[simp] theorem core_promote_link (w : World) (s : SlaveId) :
    (w.promote_link s).core = w.core := by
  unfold promote_link
  dsimp only
  split_ifs <;> simp

@[simp] theorem shape_promote_link (w : World) (s : SlaveId) :
    (w.promote_link s).shape = w.shape := by
  unfold promote_link
  dsimp only
  split_ifs <;> simp [shape_setSlave]

/-- The balancing modes leave the pointer to `bond_alb_handle_active_change`. -/
def install_active (w : World) (new_active old_active : Option SlaveId) : World :=
  if w.bond.params.mode = .tlb ∨ w.bond.params.mode = .alb then
    let w := w.sibling (.bond_alb_handle_active_change new_active)
    let w := w.onSlave old_active bond_set_slave_inactive_flags
    w.onSlave new_active bond_set_slave_active_flags
  else w.setBond fun b => { b with curr_active_slave := new_active }

@[simp] theorem core_install_active (w : World) (new old : Option SlaveId) :
    (w.install_active new old).core = w.core := by
  unfold install_active
  split_ifs <;> simp

@[simp] theorem shape_install_active (w : World) (new old : Option SlaveId) :
    (w.install_active new old).shape = w.shape := by
  unfold install_active
  split_ifs <;> simp

def bond_change_active_slave (w : World) (new_active : Option SlaveId) : World :=
  let old_active := w.bond.curr_active_slave
  if old_active = new_active then w
  else
    let w := w.onSlave new_active promote_link
    let w := w.bond_mc_swap new_active old_active
    let w := w.install_active new_active old_active
    if w.bond.params.mode ≠ .activebackup then w
    else if w.port = .k27 then w.activebackup_changed_27 new_active old_active
    else w.activebackup_changed_24 new_active old_active

@[simp] theorem core_change_active (w : World) (new : Option SlaveId) :
    (w.bond_change_active_slave new).core = w.core := by
  unfold bond_change_active_slave
  dsimp only
  split_ifs <;> simp

@[simp] theorem shape_change_active (w : World) (new : Option SlaveId) :
    (w.bond_change_active_slave new).shape = w.shape := by
  unfold bond_change_active_slave
  dsimp only
  split_ifs <;> simp

def bond_select_active_slave (w : World) : World :=
  let best_slave := w.bond_find_best_slave
  if best_slave ≠ w.bond.curr_active_slave then
    (w.bond_change_active_slave best_slave).bond_set_carrier.2
  else w

@[simp] theorem core_select_active (w : World) :
    w.bond_select_active_slave.core = w.core := by
  unfold bond_select_active_slave
  dsimp only
  split_ifs <;> simp

@[simp] theorem shape_select_active (w : World) :
    w.bond_select_active_slave.shape = w.shape := by
  unfold bond_select_active_slave
  dsimp only
  split_ifs <;> simp

end World

end Hoolock
