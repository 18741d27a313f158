import Hoolock.Switching

/-!
The slaves of a HOOLOCK bond over its whole life: every run from `bond_init` keeps
the ring, the devices' masters and the bond's own pointers in step.
-/

set_option autoImplicit false

namespace Hoolock

def NetDevice.owner (dev : NetDevice) : Bool × Option DevId := (dev.iff_slave, dev.master)

theorem NetDevice.same_owner {dev other : NetDevice} (h : dev.sansFilter = other.sansFilter) :
    dev.owner = other.owner := by
  have howner := congrArg NetDevice.owner h
  exact howner

namespace World

def owners (w : World) (d : DevId) : Bool × Option DevId := (w.devs d).owner

def pointers (w : World) : Option SlaveId × Option SlaveId :=
  (w.bond.curr_active_slave, w.bond.primary_slave)

theorem owners_setDev (w : World) (d : DevId) (f : NetDevice → NetDevice)
    (hf : ∀ dev, (f dev).owner = dev.owner) : (w.setDev d f).owners = w.owners := by
  funext e
  by_cases h : e = d
  · simp [owners, setDev, h, hf]
  · simp [owners, setDev, h]

theorem owners_onDev (w : World) (d : DevId) (f : NetDevice → Int × NetDevice)
    (hf : ∀ dev, (f dev).2.owner = dev.owner) : (w.onDev d f).2.owners = w.owners :=
  owners_setDev w d _ hf

theorem SameDevs.owners {v w : World} (h : SameDevs v w) : v.owners = w.owners :=
  funext fun d => NetDevice.same_owner (h d)

theorem dev_set_mac_address_owner (a : HwAddr) (n : Nat) (dev : NetDevice) :
    (dev_set_mac_address a n dev).2.owner = dev.owner := by
  unfold dev_set_mac_address
  split
  · rfl
  · split_ifs <;> rfl

theorem dev_open_owner (r : Int) (dev : NetDevice) : (dev_open r dev).2.owner = dev.owner := by
  unfold dev_open
  split_ifs <;> rfl

theorem dev_close_owner (dev : NetDevice) : (dev_close dev).owner = dev.owner := by
  unfold dev_close
  split_ifs <;> rfl

theorem compute_features_owners (w : World) : w.bond_compute_features.owners = w.owners := by
  unfold bond_compute_features
  exact owners_setDev _ _ _ fun _ => rfl

theorem setFeatures_owners (w : World) (f : BitVec 64 → BitVec 64) :
    (w.setFeatures f).owners = w.owners :=
  owners_setDev _ _ _ fun _ => rfl

theorem release_filter_owners (w : World) (d : DevId) :
    (w.release_filter d).owners = w.owners := by
  have hoff : (w.setDev d w.filter_off).owners = w.owners := by
    exact owners_setDev _ _ _ fun dev => NetDevice.same_owner (filter_off_sansFilter w dev)
  unfold release_filter
  dsimp only
  split_ifs
  · rfl
  · exact (owners_setDev _ d (dev_mc_delete MULTICAST_LACPDU_ADDR) fun _ => rfl).trans hoff
  · exact hoff

theorem restore_mac_owners (w : World) (d : DevId) (a : HwAddr) :
    (w.restore_mac d a).owners = w.owners :=
  owners_onDev _ _ _ fun _ => dev_set_mac_address_owner _ _ _

theorem clear_master_owners (w : World) : w.clear_master.owners = w.owners := by
  unfold clear_master
  dsimp only
  split_ifs
  · exact (setFeatures_owners _ _).trans (owners_setDev _ _ _ fun _ => rfl)
  · exact owners_setDev _ _ _ fun _ => rfl

/-- What the events before and after share: settings, queue, ring and masters. -/
structure Base where
  port : Port
  mode : Mode
  dev : DevId
  pbuff : List Skb
  shape : Shape
  owners : DevId → Bool × Option DevId

def base (w : World) : Base :=
  { port := w.port, mode := w.bond.params.mode, dev := w.bond.dev, pbuff := w.bond.pbuff,
    shape := w.shape, owners := w.owners }

@[simp] theorem base_lock (w : World) (n : LockName) (m : LockMode) :
    (w.lock n m).base = w.base := rfl

@[simp] theorem base_unlock (w : World) (n : LockName) (m : LockMode) :
    (w.unlock n m).base = w.base := rfl

@[simp] theorem pointers_lock (w : World) (n : LockName) (m : LockMode) :
    (w.lock n m).pointers = w.pointers := rfl

@[simp] theorem pointers_unlock (w : World) (n : LockName) (m : LockMode) :
    (w.unlock n m).pointers = w.pointers := rfl

@[simp] theorem base_setBond_buffer (w : World) (k : Int) :
    (w.setBond fun b => { b with buffer_mode := k }).base = w.base := rfl

@[simp] theorem pointers_setBond_buffer (w : World) (k : Int) :
    (w.setBond fun b => { b with buffer_mode := k }).pointers = w.pointers := rfl

theorem base_of {v w : World} (hc : v.core = w.core) (hs : v.shape = w.shape)
    (ho : v.owners = w.owners) : v.base = w.base := by
  have hp : v.port = w.port := congrArg Core.port hc
  have hm : v.bond.params.mode = w.bond.params.mode := congrArg Core.mode hc
  have hd : v.bond.dev = w.bond.dev := congrArg Core.dev hc
  have hq : v.bond.pbuff = w.bond.pbuff := congrArg Core.pbuff hc
  simp only [base, hp, hm, hd, hq, hs, ho]

theorem base_setDev (w : World) (d : DevId) (f : NetDevice → NetDevice)
    (hf : ∀ dev, (f dev).owner = dev.owner) : (w.setDev d f).base = w.base := by
  unfold base
  rw [owners_setDev w d f hf]
  rfl

/-- The ring `l` and the masters of the devices tell the same story. -/
structure Inv (w : World) (l : List SlaveId) : Prop extends w.Members l where
  port : w.port = .k27
  mode : w.bond.params.mode = .hoolock
  live : ∀ s ∈ l, w.live s = true
  owned : ∀ s ∈ l, w.owners (w.slaves s).dev = (true, some w.bond.dev)
  foreign : ∀ s ∈ l, (w.slaves s).dev ≠ w.bond.dev
  distinct : ∀ s ∈ l, ∀ t ∈ l, (w.slaves t).dev = (w.slaves s).dev → t = s
  enslaved : ∀ d, (w.owners d).2 = some w.bond.dev → ∃ s ∈ l, (w.slaves s).dev = d
  empty : w.bond.pbuff = []

theorem Inv.congr {v w : World} {l : List SlaveId} (h : w.Inv l) (hb : v.base = w.base)
    (ha : ∀ s, v.bond.curr_active_slave = some s → s ∈ l)
    (hp : ∀ s, v.bond.primary_slave = some s → s ∈ l) : v.Inv l := by
  have hs : v.shape = w.shape := congrArg Base.shape hb
  have ho : v.owners = w.owners := congrArg Base.owners hb
  have hd : v.bond.dev = w.bond.dev := congrArg Base.dev hb
  have hsd : ∀ s, (v.slaves s).dev = (w.slaves s).dev := congrFun (congrArg Shape.dev hs)
  have hlive : v.live = w.live := congrArg Shape.live hs
  refine
    { toRing := h.toRing.of_shape hs, active := ha, primary := hp
      port := (congrArg Base.port hb).trans h.port
      mode := (congrArg Base.mode hb).trans h.mode
      live := hlive ▸ h.live, owned := ?_, foreign := ?_, distinct := ?_, enslaved := ?_
      empty := (congrArg Base.pbuff hb).trans h.empty }
  · simpa only [ho, hd, hsd] using h.owned
  · simpa only [hd, hsd] using h.foreign
  · simpa only [hsd] using h.distinct
  · simpa only [ho, hd, hsd] using h.enslaved

theorem Inv.congr_pointers {v w : World} {l : List SlaveId} (h : w.Inv l)
    (hb : v.base = w.base) (hp : v.pointers = w.pointers) : v.Inv l := by
  have ha : v.bond.curr_active_slave = w.bond.curr_active_slave := congrArg Prod.fst hp
  have hpr : v.bond.primary_slave = w.bond.primary_slave := congrArg Prod.snd hp
  exact h.congr hb (fun s hs => h.active s (ha ▸ hs)) fun s hs => h.primary s (hpr ▸ hs)

theorem Inv.lock {w : World} {l : List SlaveId} (h : w.Inv l) (n : LockName) (m : LockMode) :
    (w.lock n m).Inv l :=
  h.congr_pointers (base_lock w n m) (pointers_lock w n m)

theorem Inv.unlock {w : World} {l : List SlaveId} (h : w.Inv l) (n : LockName) (m : LockMode) :
    (w.unlock n m).Inv l :=
  h.congr_pointers (base_unlock w n m) (pointers_unlock w n m)

theorem Inv.buffer {w : World} {l : List SlaveId} (h : w.Inv l) (k : Int) :
    (w.setBond fun b => { b with buffer_mode := k }).Inv l :=
  h.congr_pointers (base_setBond_buffer w k) (pointers_setBond_buffer w k)

theorem Inv.get_slave {w : World} {l : List SlaveId} (h : w.Inv l) {s : SlaveId} (hs : s ∈ l) :
    w.bond_get_slave_by_dev (w.slaves s).dev = some s :=
  h.toRing.get_slave_by_dev hs (h.distinct s hs)

theorem Host.inv {w : World} {bond_dev : DevId} (h : w.Host bond_dev) {params : Params}
    (hm : params.mode = .hoolock) : (w.bond_init bond_dev params).Inv [] := by
  have ho : (w.bond_init bond_dev params).owners = w.owners := by
    unfold bond_init
    refine (setFeatures_owners _ _).trans ?_
    exact owners_setDev _ bond_dev (fun dev => { dev with bonding := true }) fun _ => rfl
  refine
    { ring := CircularList.Links.isRing_nil _, head := rfl, count := rfl
      active := fun s hs => ?_, primary := fun s hs => ?_, port := h.port, mode := hm
      live := fun _ hs => ?_, owned := fun _ hs => ?_, foreign := fun _ hs => ?_
      distinct := fun _ hs => ?_, enslaved := fun d hd => ?_, empty := rfl }
  · cases hs
  · cases hs
  · cases hs
  · cases hs
  · cases hs
  · cases hs
  · rw [ho] at hd
    exact absurd hd (h.master d)

variable [Siblings]

theorem set_carrier_owners {w : World} (h : w.bond.params.mode = .hoolock) :
    w.bond_set_carrier.2.owners = w.owners := by
  obtain ⟨f, hf, hc⟩ := set_carrier_hoolock h
  rw [hf]
  refine owners_setDev _ _ _ fun dev => ?_
  obtain ⟨c, hc⟩ := hc dev
  rw [hc]
  rfl

theorem select_active_owners {w : World} (h : w.bond.params.mode = .hoolock) :
    w.bond_select_active_slave.owners = w.owners := by
  unfold bond_select_active_slave
  dsimp only
  split_ifs
  · have hm : (w.bond_change_active_slave w.bond_find_best_slave).bond.params.mode = .hoolock := by
      rw [change_active_bond h]
      exact h
    rw [set_carrier_owners hm, (change_active_devs h _).owners]
  · rfl

omit [Siblings] in
theorem mode_of_core {v w : World} (h : v.core = w.core)
    (hm : w.bond.params.mode = .hoolock) : v.bond.params.mode = .hoolock :=
  (congrArg Core.mode h).trans hm

theorem change_active_owners {w : World} (h : w.bond.params.mode = .hoolock)
    (new : Option SlaveId) : (w.bond_change_active_slave new).owners = w.owners :=
  (change_active_devs h new).owners

end World

end Hoolock
