import Hoolock.Lifetime
import Hoolock.Rollback

/-!
The two settings the bond passes on to all its slaves, the MTU and the hardware address.  When
a slave refuses, the bond goes round once more and puts its own old value back.
-/

set_option autoImplicit false

namespace Hoolock

open CircularList Rollback

def EADDRNOTAVAIL : Int := 99

/-- A driver's `change_mtu`, by the error code it returns; it stores the value it accepts. -/
abbrev MtuDrivers := DevId → Option (Int → Int)

namespace World

def bond_for_each_slave_from_to (w : World) (start : Option SlaveId) (stop : SlaveId) :
    List SlaveId :=
  walkUntil w.links.next (w.links.next stop) w.bond.slave_cnt.toNat start

theorem Ring.for_each_to {w : World} {l m : List SlaveId} {x : SlaveId}
    (h : w.Ring (l ++ x :: m)) :
    w.bond_for_each_slave_from_to w.bond.first_slave x = if m = [] then [] else l ++ [x] := by
  unfold bond_for_each_slave_from_to
  rw [h.head, h.count]
  exact h.ring.walkUntil_past

/-- The MTUs are kept beside the world, which holds what else the call reads. -/
def dev_set_mtu (w : World) (drivers : MtuDrivers) (new_mtu : Int) (mtu : DevId → Int)
    (d : DevId) : Int × (DevId → Int) :=
  if new_mtu = mtu d then (0, mtu)
  else if new_mtu < 0 then (-EINVAL, mtu)
  else if !(w.devs d).present then (-ENODEV, mtu)
  else match drivers d with
    | some change_mtu =>
      if change_mtu new_mtu ≠ 0 then (change_mtu new_mtu, mtu)
      else (0, Function.update mtu d new_mtu)
    | none => (0, Function.update mtu d new_mtu)

def bond_change_mtu (w : World) (drivers : MtuDrivers) (new_mtu : Int) (mtu : DevId → Int) :
    Int × (DevId → Int) :=
  let set (new_mtu : Int) (mtu : DevId → Int) (s : SlaveId) :=
    w.dev_set_mtu drivers new_mtu mtu (w.slaves s).dev
  match tryAll (set new_mtu) mtu w.bond_for_each_slave with
  | (_, none, mtu) => (0, Function.update mtu w.bond.dev new_mtu)
  | (res, some slave, mtu) =>
    -- unwind from head to the slave that failed
    (res, applyAll (fun mtu s => set (mtu w.bond.dev) mtu s) mtu
      (w.bond_for_each_slave_from_to w.bond.first_slave slave))

def slave_set_mac (sa_data : HwAddr) (sa_family : Nat) (w : World) (s : SlaveId) : Int × World :=
  if (w.slave_dev s).set_mac_address.isNone then (-EOPNOTSUPP, w)
  else w.onDev (w.slaves s).dev (dev_set_mac_address sa_data sa_family)

/-- `is_valid_ether_addr` is a kernel header's, and a parameter. -/
def bond_set_mac_address (w : World) (is_valid_ether_addr : HwAddr → Bool) (sa_data : HwAddr)
    (sa_family : Nat) : Int × World :=
  if w.keeps_own_mac then (0, w)
  else if !is_valid_ether_addr sa_data then (-EADDRNOTAVAIL, w)
  else match tryAll (slave_set_mac sa_data sa_family) w w.bond_for_each_slave with
    | (_, none, w) =>
      (0, w.setDev w.bond.dev fun dev =>
        { dev with dev_addr := memcpy dev.dev_addr sa_data dev.addr_len })
    | (res, some slave, w) =>
      let tmp_sa := w.bond_dev.dev_addr.take w.bond_dev.addr_len
      (res, applyAll
        (fun v s => v.onDev (v.slaves s).dev (dev_set_mac_address tmp_sa w.bond_dev.type)) w
        (w.bond_for_each_slave_from_to w.bond.first_slave slave))

/-- The slaves `l` have devices of their own, and the bond's device is none of them. -/
structure Cards (w : World) (l : List SlaveId) : Prop extends w.Ring l where
  apart : (l.map fun s => (w.slaves s).dev).Nodup
  foreign : ∀ s ∈ l, (w.slaves s).dev ≠ w.bond.dev

def devices (w : World) (l : List SlaveId) : List DevId := l.map fun s => (w.slaves s).dev

def mtu_code (w : World) (drivers : MtuDrivers) (new_mtu current : Int) (d : DevId) : Int :=
  (w.dev_set_mtu drivers new_mtu (fun _ => current) d).1

theorem dev_set_mtu_eq (w : World) (drivers : MtuDrivers) (v : Int) (mtu : DevId → Int)
    (d : DevId) : w.dev_set_mtu drivers v mtu d = (w.mtu_code drivers v (mtu d) d,
      if w.mtu_code drivers v (mtu d) d = 0 then Function.update mtu d v else mtu) := by
  unfold mtu_code dev_set_mtu
  by_cases hsame : v = mtu d
  · simp [hsame]
  · by_cases hneg : v < 0
    · simp [hsame, hneg, EINVAL]
    · cases hp : (w.devs d).present with
      | false => simp [hsame, hneg, ENODEV]
      | true =>
        cases hd : drivers d with
        | none => simp [hsame, hneg]
        | some change_mtu =>
          by_cases hcode : change_mtu v = 0
          · simp [hsame, hneg, hcode]
          · simp [hsame, hneg, hcode]

theorem dev_set_mtu_sets (w : World) (drivers : MtuDrivers) (v : Int) :
    Sets (fun (mtu : DevId → Int) d => mtu d) (fun _ => True) (w.dev_set_mtu drivers v) v where
  keeps _ := trivial
  done {mtu d} _ hok := by
    rw [dev_set_mtu_eq] at hok ⊢
    simp [show w.mtu_code drivers v (mtu d) d = 0 from hok]
  refused {mtu d} hno := by
    rw [dev_set_mtu_eq] at hno ⊢
    simp [show w.mtu_code drivers v (mtu d) d ≠ 0 from hno]
  other {mtu a b} hne := by
    rw [dev_set_mtu_eq]
    dsimp only
    split_ifs <;> simp [hne]
  steady {mtu a b} hne := by
    simp only [dev_set_mtu_eq]
    split_ifs <;> simp [hne]

/-- The bond and its slaves have the new MTU, or an error is reported and no device has
another MTU than before. -/
def MtuAllOrNothing (w : World) (l : List SlaveId) (new_mtu : Int) (mtu : DevId → Int)
    (r : Int × (DevId → Int)) : Prop :=
  (r.1 = 0 ∧ r.2 w.bond.dev = new_mtu ∧ ∀ s ∈ l, r.2 (w.slaves s).dev = new_mtu) ∨
    (r.1 ≠ 0 ∧ r.2 = mtu)

def TakesMtu (w : World) (drivers : MtuDrivers) (new_mtu : Int) (mtu : DevId → Int)
    (s : SlaveId) : Prop :=
  (w.dev_set_mtu drivers new_mtu mtu (w.slaves s).dev).1 = 0

def unwound (front back : List SlaveId) (x : SlaveId) : List SlaveId :=
  if back = [] then [] else front ++ [x]

theorem Cards.mem_devices {w : World} {l m : List SlaveId} (h : w.Cards l) (hm : m ⊆ l)
    {s : SlaveId} (hs : s ∈ l) : (w.slaves s).dev ∈ w.devices m ↔ s ∈ m := by
  constructor
  · intro hd
    obtain ⟨t, ht, he⟩ := List.mem_map.mp hd
    exact List.inj_on_of_nodup_map h.apart (hm ht) hs he ▸ ht
  · exact fun hs => List.mem_map_of_mem hs

theorem Cards.apart_of {w : World} {l m : List SlaveId} (h : w.Cards l) (hm : m.Sublist l) :
    (w.devices m).Nodup :=
  (hm.map fun s => (w.slaves s).dev).nodup h.apart

theorem unwound_sublist (front back : List SlaveId) (x : SlaveId) :
    (unwound front back x).Sublist (front ++ x :: back) := by
  unfold unwound
  split_ifs
  · exact List.nil_sublist _
  · simp

theorem unwind_mtu {w : World} (drivers : MtuDrivers) {l : List SlaveId}
    (hfor : ∀ s ∈ l, (w.slaves s).dev ≠ w.bond.dev) (mtu : DevId → Int) :
    applyAll (fun mtu s => w.dev_set_mtu drivers (mtu w.bond.dev) mtu (w.slaves s).dev) mtu l =
      applyAll (w.dev_set_mtu drivers (mtu w.bond.dev)) mtu (w.devices l) := by
  have hsets := w.dev_set_mtu_sets drivers (mtu w.bond.dev)
  refine (applyAll_congr (I := fun m => m w.bond.dev = mtu w.bond.dev) ?_ ?_ rfl).trans
    (applyAll_map (fun s => (w.slaves s).dev) _ mtu l)
  · intro m hm s hs
    exact (hsets.other (hfor s hs).symm).trans hm
  · intro m hm s _
    simp [hm]

theorem change_mtu_accepted {w : World} {drivers : MtuDrivers} {new : Int} {mtu : DevId → Int}
    {l : List SlaveId} (h : w.Cards l) (hok : ∀ s ∈ l, w.TakesMtu drivers new mtu s) :
    w.MtuAllOrNothing l new mtu (w.bond_change_mtu drivers new mtu) := by
  have hsets := w.dev_set_mtu_sets drivers new
  have hall := hsets.tryAll_all (f := fun s => (w.slaves s).dev) h.apart hok
  have hdone : ∀ s ∈ l, applyAll (w.dev_set_mtu drivers new) mtu (w.devices l) (w.slaves s).dev =
      new := by
    intro s hs
    have hmem : (w.slaves s).dev ∈ w.devices l := List.mem_map_of_mem hs
    exact (hsets.applyAll_get trivial h.apart _).trans (if_pos ⟨hmem, hok s hs⟩)
  left
  unfold bond_change_mtu
  simp only [h.for_each, hall, true_and]
  refine ⟨by simp, fun s hs => ?_⟩
  simp only [Function.update_of_ne (h.foreign s hs)]
  exact hdone s hs

theorem change_mtu_refused {w : World} {drivers : MtuDrivers} {new : Int} {mtu : DevId → Int}
    {front back : List SlaveId} {x : SlaveId} (h : w.Cards (front ++ x :: back))
    (hok : ∀ s ∈ front, w.TakesMtu drivers new mtu s) (hx : ¬ w.TakesMtu drivers new mtu x) :
    w.bond_change_mtu drivers new mtu =
      ((w.dev_set_mtu drivers new mtu (w.slaves x).dev).1,
        applyAll (w.dev_set_mtu drivers (mtu w.bond.dev))
          (applyAll (w.dev_set_mtu drivers new) mtu (w.devices front))
          (w.devices (unwound front back x))) := by
  have hsets := w.dev_set_mtu_sets drivers new
  have hstop := hsets.tryAll_stops (f := fun s => (w.slaves s).dev) h.apart hok hx
  have hfor : ∀ s ∈ unwound front back x, (w.slaves s).dev ≠ w.bond.dev :=
    fun s hs => h.foreign s ((unwound_sublist front back x).subset hs)
  have hbond : w.bond.dev ∉ w.devices front := by
    intro hm
    obtain ⟨s, hs, he⟩ := List.mem_map.mp hm
    exact h.foreign s (by simp [hs]) he
  have hown : applyAll (w.dev_set_mtu drivers new) mtu (w.devices front) w.bond.dev =
      mtu w.bond.dev := hsets.applyAll_other hbond mtu
  unfold bond_change_mtu
  simp only [h.for_each, hstop, h.toRing.for_each_to]
  rw [← hown]
  exact congrArg _ (unwind_mtu drivers hfor _)

theorem mtu_code_congr (w : World) (drivers : MtuDrivers) (v : Int) {mtu m : DevId → Int}
    {d : DevId} (h : m d = mtu d) :
    (w.dev_set_mtu drivers v m d).1 = (w.dev_set_mtu drivers v mtu d).1 := by
  simp [dev_set_mtu_eq, h]

/-- With drivers that take the bond's own MTU back once they have taken another, changing the
MTU is all or nothing exactly when the unwinding has nothing to repair that it leaves out or
gets wrong: no slave is unwound when the last one refuses, and in front of another one the
slaves get the bond's MTU, whatever their own was. -/
theorem change_mtu_all_or_nothing_iff {w : World} {l : List SlaveId} (h : w.Cards l)
    (drivers : MtuDrivers) (new : Int) (mtu : DevId → Int)
    (hback : ∀ s ∈ l, w.TakesMtu drivers new mtu s → ∀ m, w.TakesMtu drivers (mtu w.bond.dev) m s) :
    w.MtuAllOrNothing l new mtu (w.bond_change_mtu drivers new mtu) ↔
      ∀ front x back, l = front ++ x :: back → (∀ s ∈ front, w.TakesMtu drivers new mtu s) →
        ¬ w.TakesMtu drivers new mtu x →
        if back = [] then ∀ s ∈ front, mtu (w.slaves s).dev = new
        else (∀ s ∈ front, mtu (w.slaves s).dev = mtu w.bond.dev) ∧
          (w.TakesMtu drivers (mtu w.bond.dev) mtu x →
            mtu (w.slaves x).dev = mtu w.bond.dev) := by
  have hsets := w.dev_set_mtu_sets drivers new
  have hundo := w.dev_set_mtu_sets drivers (mtu w.bond.dev)
  refine iff_first_refusal (fun hok => change_mtu_accepted h hok) ?_
  rintro front x back rfl hok hx
  have hcode : (w.dev_set_mtu drivers new mtu (w.slaves x).dev).1 ≠ 0 := hx
  have hnd : (w.devices (front ++ [x])).Nodup := h.apart_of (by simp)
  rw [change_mtu_refused h hok hx]
  simp only [MtuAllOrNothing, hcode, false_and, false_or, ne_eq, not_false_eq_true, true_and]
  rw [funext_iff]
  cases back with
  | nil =>
    simp only [unwound, if_true]
    have hfront : (w.devices front).Nodup :=
      h.apart_of (List.sublist_append_left front [x])
    exact hsets.unrepaired_iff (f := fun s => (w.slaves s).dev) (s := mtu) trivial hfront hok
  | cons b back =>
    simp only [unwound, reduceCtorEq, if_false]
    have hxd : (w.slaves x).dev ∉ w.devices front := by
      intro hm
      have hin := (h.mem_devices (List.sublist_append_left _ _).subset (by simp)).mp hm
      exact (List.nodup_append.mp h.nodup).2.2 x hin x (by simp) rfl
    have hxm : applyAll (w.dev_set_mtu drivers new) mtu (w.devices front) (w.slaves x).dev =
        mtu (w.slaves x).dev := hsets.applyAll_other hxd mtu
    have hrest := hsets.repaired_iff hundo (f := fun s => (w.slaves s).dev) (s := mtu) trivial
      hnd hok fun s hs => hback s (List.mem_append_left _ hs) (hok s hs) _
    refine hrest.trans (and_congr Iff.rfl (imp_congr ?_ Iff.rfl))
    exact Iff.of_eq (congrArg (· = 0) (mtu_code_congr w drivers (mtu w.bond.dev) hxm))

theorem set_mac_code (sa_data addr : HwAddr) (sa_family : Nat) (dev : NetDevice) :
    (dev_set_mac_address sa_data sa_family { dev with dev_addr := addr }).1 =
      (dev_set_mac_address sa_data sa_family dev).1 := by
  unfold dev_set_mac_address
  cases dev.set_mac_address with
  | none => rfl
  | some set =>
    dsimp only
    split_ifs <;> rfl

theorem dev_set_mac_address_eq (sa_data : HwAddr) (sa_family : Nat) (dev : NetDevice) :
    dev_set_mac_address sa_data sa_family dev = ((dev_set_mac_address sa_data sa_family dev).1,
      if (dev_set_mac_address sa_data sa_family dev).1 = 0 then { dev with dev_addr := sa_data }
      else dev) := by
  unfold dev_set_mac_address
  cases dev.set_mac_address with
  | none => simp [EOPNOTSUPP]
  | some set =>
    by_cases ht : sa_family = dev.type
    · cases hp : dev.present with
      | false => simp [ht, ENODEV]
      | true =>
        by_cases hcode : set sa_data = 0
        · simp [ht, hcode]
        · simp [ht, hcode]
    · simp [ht, EINVAL]

def set_mac (sa_data : HwAddr) (sa_family : Nat) (w : World) (d : DevId) : Int × World :=
  w.onDev d (dev_set_mac_address sa_data sa_family)

theorem set_mac_eq (sa_data : HwAddr) (sa_family : Nat) (w : World) (d : DevId) :
    w.set_mac sa_data sa_family d = ((dev_set_mac_address sa_data sa_family (w.devs d)).1,
      if (dev_set_mac_address sa_data sa_family (w.devs d)).1 = 0 then
        w.setDev d fun dev => { dev with dev_addr := sa_data }
      else w) := by
  unfold set_mac onDev
  refine congrArg _ ?_
  split_ifs with hcode
  · refine congrArg (fun devs => { w with devs }) (funext fun e => ?_)
    by_cases he : e = d
    · subst he
      simp only [if_true]
      rw [dev_set_mac_address_eq, if_pos hcode]
    · simp [he]
  · refine congrArg (fun devs => { w with devs }) (funext fun e => ?_)
    by_cases he : e = d
    · subst he
      simp only [if_true]
      rw [dev_set_mac_address_eq, if_neg hcode]
    · simp [he]

/-- Two worlds that differ in the devices' addresses at most. -/
structure SameButMac (w v : World) : Prop where
  slaves : v.slaves = w.slaves
  bond : v.bond = w.bond
  devs : ∀ d, ∃ addr, v.devs d = { w.devs d with dev_addr := addr }

theorem SameButMac.refl (w : World) : w.SameButMac w := ⟨rfl, rfl, fun _ => ⟨_, rfl⟩⟩

theorem SameButMac.set_mac {w v : World} (h : w.SameButMac v) (sa_data : HwAddr)
    (sa_family : Nat) (d : DevId) : w.SameButMac (v.set_mac sa_data sa_family d).2 := by
  rw [set_mac_eq]
  dsimp only
  split_ifs
  · refine ⟨h.slaves, h.bond, fun e => ?_⟩
    obtain ⟨addr, ha⟩ := h.devs e
    by_cases he : e = d
    · subst he
      exact ⟨sa_data, by simp [setDev, ha]⟩
    · exact ⟨addr, by simp [setDev, he, ha]⟩
  · exact h

theorem SameButMac.code {w v : World} (h : w.SameButMac v) (sa_data : HwAddr) (sa_family : Nat)
    (d : DevId) : (dev_set_mac_address sa_data sa_family (v.devs d)).1 =
      (dev_set_mac_address sa_data sa_family (w.devs d)).1 := by
  obtain ⟨addr, ha⟩ := h.devs d
  rw [ha, set_mac_code]

theorem set_mac_sets (w : World) (sa_data : HwAddr) (sa_family : Nat) :
    Sets (fun (v : World) d => (v.devs d).dev_addr) w.SameButMac
      (set_mac sa_data sa_family) sa_data where
  keeps {v d} h := h.set_mac sa_data sa_family d
  done {v d} _ hok := by
    rw [set_mac_eq] at hok ⊢
    simp [show (dev_set_mac_address sa_data sa_family (v.devs d)).1 = 0 from hok, setDev]
  refused {v d} hno := by
    rw [set_mac_eq] at hno ⊢
    simp [show (dev_set_mac_address sa_data sa_family (v.devs d)).1 ≠ 0 from hno]
  other {v d e} hne := by
    rw [set_mac_eq]
    dsimp only
    split_ifs <;> simp [setDev, hne]
  steady {v d e} hne := by
    simp only [set_mac_eq]
    split_ifs <;> simp [setDev, hne]

theorem SameButMac.slave_set_mac {w v : World} (h : w.SameButMac v) (sa_data : HwAddr)
    (sa_family : Nat) (s : SlaveId) : v.slave_set_mac sa_data sa_family s =
      v.set_mac sa_data sa_family (w.slaves s).dev := by
  have hs : (v.slaves s).dev = (w.slaves s).dev := by rw [h.slaves]
  unfold World.slave_set_mac
  split_ifs with hnone
  · have hcode : (dev_set_mac_address sa_data sa_family (v.devs (w.slaves s).dev)).1 =
        -EOPNOTSUPP := by
      rw [slave_dev, hs, Option.isNone_iff_eq_none] at hnone
      simp [dev_set_mac_address, hnone]
    rw [set_mac_eq, hcode]
    simp [EOPNOTSUPP]
  · rw [hs]
    rfl

/-- The bond has the new address and so have its slaves, or an error is reported and no device
has another address than before. -/
def MacAllOrNothing (w : World) (l : List SlaveId) (sa_data : HwAddr) (r : Int × World) : Prop :=
  (r.1 = 0 ∧
    r.2.bond_dev.dev_addr = memcpy w.bond_dev.dev_addr sa_data w.bond_dev.addr_len ∧
    ∀ s ∈ l, (r.2.slave_dev s).dev_addr = sa_data) ∨
  (r.1 ≠ 0 ∧ ∀ d, (r.2.devs d).dev_addr = (w.devs d).dev_addr)

def TakesMac (w : World) (sa_data : HwAddr) (sa_family : Nat) (s : SlaveId) : Prop :=
  (dev_set_mac_address sa_data sa_family (w.slave_dev s)).1 = 0

def own_mac (w : World) : HwAddr := w.bond_dev.dev_addr.take w.bond_dev.addr_len

theorem set_mac_accepted {w : World} {l : List SlaveId} (h : w.Cards l)
    (hown : w.keeps_own_mac = false) {is_valid_ether_addr : HwAddr → Bool} {sa_data : HwAddr}
    {sa_family : Nat} (hvalid : is_valid_ether_addr sa_data = true)
    (hok : ∀ s ∈ l, w.TakesMac sa_data sa_family s) :
    w.MacAllOrNothing l sa_data
      (w.bond_set_mac_address is_valid_ether_addr sa_data sa_family) := by
  have hsets := w.set_mac_sets sa_data sa_family
  have hcodes : ∀ s ∈ l, (w.set_mac sa_data sa_family (w.slaves s).dev).1 = 0 := hok
  have hall := hsets.tryAll_all (f := fun s => (w.slaves s).dev) h.apart hcodes
  have hsame := hsets.applyAll_keeps (SameButMac.refl w) (w.devices l)
  obtain ⟨v, hv⟩ : ∃ v, v = applyAll (set_mac sa_data sa_family) w (w.devices l) := ⟨_, rfl⟩
  have htry : tryAll (slave_set_mac sa_data sa_family) w l = (0, none, v) := by
    rw [hv]
    refine (tryAll_congr (fun t ht s _ => ht.set_mac sa_data sa_family (w.slaves s).dev)
      (fun t ht s _ => ht.slave_set_mac sa_data sa_family s) (SameButMac.refl w)).trans hall
  rw [← hv] at hsame
  have hbond : w.bond.dev ∉ w.devices l := by
    intro hm
    obtain ⟨s, hs, he⟩ := List.mem_map.mp hm
    exact h.foreign s hs he
  have haddr : (v.devs w.bond.dev).dev_addr = w.bond_dev.dev_addr := by
    rw [hv]
    exact hsets.applyAll_other hbond w
  have hdone : ∀ s ∈ l, (v.devs (w.slaves s).dev).dev_addr = sa_data := by
    intro s hs
    rw [hv]
    have hmem : (w.slaves s).dev ∈ w.devices l := List.mem_map_of_mem hs
    exact (hsets.applyAll_get (SameButMac.refl w) h.apart _).trans (if_pos ⟨hmem, hok s hs⟩)
  have hlen : (v.devs w.bond.dev).addr_len = w.bond_dev.addr_len := by
    obtain ⟨addr, ha⟩ := hsame.devs w.bond.dev
    rw [ha]
    rfl
  left
  unfold bond_set_mac_address
  simp only [hown, hvalid, Bool.not_true, Bool.false_eq_true, if_false, h.for_each, htry, true_and]
  refine ⟨?_, fun s hs => ?_⟩
  · simp only [bond_dev, setDev, hsame.bond, if_true, hlen, haddr]
  · simp only [slave_dev, setDev, hsame.slaves, hsame.bond, if_neg (h.foreign s hs)]
    exact hdone s hs

theorem set_mac_refused {w : World} {is_valid_ether_addr : HwAddr → Bool} {sa_data : HwAddr}
    {sa_family : Nat} {front back : List SlaveId} {x : SlaveId} (h : w.Cards (front ++ x :: back))
    (hown : w.keeps_own_mac = false) (hvalid : is_valid_ether_addr sa_data = true)
    (hok : ∀ s ∈ front, w.TakesMac sa_data sa_family s) (hx : ¬ w.TakesMac sa_data sa_family x) :
    w.bond_set_mac_address is_valid_ether_addr sa_data sa_family =
      ((dev_set_mac_address sa_data sa_family (w.slave_dev x)).1,
        applyAll (set_mac w.own_mac w.bond_dev.type)
          (applyAll (set_mac sa_data sa_family) w (w.devices front))
          (w.devices (unwound front back x))) := by
  have hsets := w.set_mac_sets sa_data sa_family
  have hstop := hsets.tryAll_stops (f := fun s => (w.slaves s).dev) h.apart hok hx
  have hsame := hsets.applyAll_keeps (SameButMac.refl w) (w.devices front)
  obtain ⟨v, hv⟩ : ∃ v, v = applyAll (set_mac sa_data sa_family) w (w.devices front) := ⟨_, rfl⟩
  have htry : tryAll (slave_set_mac sa_data sa_family) w (front ++ x :: back) =
      ((dev_set_mac_address sa_data sa_family (w.slave_dev x)).1, some x, v) := by
    rw [hv]
    refine (tryAll_congr (fun t ht s _ => ht.set_mac sa_data sa_family (w.slaves s).dev)
      (fun t ht s _ => ht.slave_set_mac sa_data sa_family s) (SameButMac.refl w)).trans hstop
  rw [← hv] at hsame ⊢
  have hbond : w.bond.dev ∉ w.devices front := by
    intro hm
    obtain ⟨s, hs, he⟩ := List.mem_map.mp hm
    exact h.foreign s (by simp [hs]) he
  have hdev : v.bond_dev = w.bond_dev := by
    obtain ⟨addr, ha⟩ := hsame.devs w.bond.dev
    have haddr : (v.devs w.bond.dev).dev_addr = (w.devs w.bond.dev).dev_addr := by
      rw [hv]
      exact hsets.applyAll_other hbond w
    rw [ha] at haddr
    unfold bond_dev
    rw [hsame.bond, ha]
    dsimp only at haddr
    rw [haddr]
  have hto : v.bond_for_each_slave_from_to v.bond.first_slave x = unwound front back x := by
    have hlinks : v.links = w.links := by
      unfold links
      rw [hsame.slaves]
    unfold bond_for_each_slave_from_to
    rw [hlinks, hsame.bond]
    exact h.toRing.for_each_to
  unfold bond_set_mac_address
  simp only [hown, hvalid, Bool.not_true, Bool.false_eq_true, if_false, h.for_each, htry, hdev, hto]
  refine congrArg _ ?_
  refine (applyAll_congr (fun t ht s _ => ht.set_mac _ _ (w.slaves s).dev) (fun t ht s _ => ?_)
    hsame).trans (applyAll_map (fun s => (w.slaves s).dev) _ v _)
  rw [ht.slaves]
  rfl

/-- The same holds of the hardware address, as far as it is handed on to the slaves at all. -/
theorem set_mac_all_or_nothing_iff {w : World} {l : List SlaveId} (h : w.Cards l)
    (hown : w.keeps_own_mac = false) {is_valid_ether_addr : HwAddr → Bool} {sa_data : HwAddr}
    (sa_family : Nat) (hvalid : is_valid_ether_addr sa_data = true)
    (hback : ∀ s ∈ l, w.TakesMac sa_data sa_family s → w.TakesMac w.own_mac w.bond_dev.type s) :
    w.MacAllOrNothing l sa_data (w.bond_set_mac_address is_valid_ether_addr sa_data sa_family) ↔
      ∀ front x back, l = front ++ x :: back →
        (∀ s ∈ front, w.TakesMac sa_data sa_family s) → ¬ w.TakesMac sa_data sa_family x →
        if back = [] then ∀ s ∈ front, (w.slave_dev s).dev_addr = sa_data
        else (∀ s ∈ front, (w.slave_dev s).dev_addr = w.own_mac) ∧
          (w.TakesMac w.own_mac w.bond_dev.type x → (w.slave_dev x).dev_addr = w.own_mac) := by
  have hsets := w.set_mac_sets sa_data sa_family
  have hundo := w.set_mac_sets w.own_mac w.bond_dev.type
  have hrefl := SameButMac.refl w
  refine iff_first_refusal (fun hok => set_mac_accepted h hown hvalid hok) ?_
  rintro front x back rfl hok hx
  have hcode : (dev_set_mac_address sa_data sa_family (w.slave_dev x)).1 ≠ 0 := hx
  have hsame := hsets.applyAll_keeps hrefl (w.devices front)
  rw [set_mac_refused h hown hvalid hok hx]
  simp only [MacAllOrNothing, hcode, false_and, false_or, ne_eq, not_false_eq_true, true_and]
  cases back with
  | nil =>
    simp only [unwound, if_true]
    have hfront : (w.devices front).Nodup :=
      h.apart_of (List.sublist_append_left front [x])
    exact hsets.unrepaired_iff (f := fun s => (w.slaves s).dev) hrefl hfront hok
  | cons b back =>
    simp only [unwound, reduceCtorEq, if_false]
    have hnd : (w.devices (front ++ [x])).Nodup := h.apart_of (by simp)
    have hrest := hsets.repaired_iff hundo (f := fun s => (w.slaves s).dev) hrefl
      hnd hok fun s hs =>
        (hsame.code w.own_mac w.bond_dev.type _).trans
          (hback s (List.mem_append_left _ hs) (hok s hs))
    refine hrest.trans (and_congr Iff.rfl (imp_congr ?_ Iff.rfl))
    exact Iff.of_eq (congrArg (· = 0) (hsame.code w.own_mac w.bond_dev.type (w.slaves x).dev))

theorem Inv.cards {w : World} {l : List SlaveId} (h : w.Inv l) : w.Cards l where
  toRing := h.toRing
  foreign := h.foreign
  apart := by
    refine (List.nodup_map_iff_inj_on h.nodup).mpr fun s hs t ht he => ?_
    exact h.distinct t ht s hs he

end World

theorem two_cards_joined : ∃ u, Transition.run (@World.step noSiblings) bond0 two_slaves = some u ∧
    u.Cards [0, 1] ∧ u.bond.dev = 0 ∧ (u.slaves 0).dev = 1 ∧ (u.slaves 1).dev = 2 ∧
    (u.devs 1).present = true ∧ (u.devs 2).present = true ∧ u.keeps_own_mac = false := by
  have hrun : (Transition.run (@World.step noSiblings) bond0 two_slaves).any (fun u =>
      u.bond_for_each_slave == [0, 1] && (u.bond.dev == 0 && ((u.slaves 0).dev == 1 &&
      ((u.slaves 1).dev == 2 && ((u.devs 1).present && ((u.devs 2).present &&
      !u.keeps_own_mac)))))) = true := by
    decide +kernel
  obtain ⟨u, hu, hcond⟩ := (Option.any_eq_true _ _).mp hrun
  simp only [Bool.and_eq_true, beq_iff_eq, Bool.not_eq_true'] at hcond
  obtain ⟨hl, hrest⟩ := hcond
  obtain ⟨l, hinv⟩ := @World.Host.run_inv noSiblings _ _ _ machine_host _ rfl _ hu
  obtain rfl : l = [0, 1] := hinv.for_each.symm.trans hl
  exact ⟨u, hu, hinv.cards, hrest⟩

def small_mtu (d : DevId) : MtuDrivers := fun e =>
  if e = d then some fun new_mtu => if new_mtu ≤ 1500 then 0 else -EINVAL else none

theorem takes_small {w : World} {s : SlaveId} (hp : (w.devs (w.slaves s).dev).present = true)
    (d : DevId) (v : Int) (mtu : DevId → Int) : w.TakesMtu (small_mtu d) v mtu s ↔
      v = mtu (w.slaves s).dev ∨ 0 ≤ v ∧ ((w.slaves s).dev = d → v ≤ 1500) := by
  unfold World.TakesMtu World.dev_set_mtu small_mtu
  by_cases hsame : v = mtu (w.slaves s).dev
  · simp [hsame]
  · by_cases hneg : v < 0
    · simp [hsame, hneg, EINVAL]
    · have hpos : 0 ≤ v := by omega
      by_cases hd : (w.slaves s).dev = d
      · subst hd
        by_cases hv : v ≤ 1500 <;> simp [hsame, hneg, hp, hpos, hv, EINVAL]
      · simp [hsame, hneg, hp, hpos, hd]

/-- When the second card refuses, the first keeps the new MTU; when the first refuses, both
keep the old one. -/
theorem jumbo_frames_stay_on_first_card :
    ∃ u, Transition.run (@World.step noSiblings) bond0 two_slaves = some u ∧
      ¬ u.MtuAllOrNothing [0, 1] 9000 (fun _ => 1500)
        (u.bond_change_mtu (small_mtu 2) 9000 fun _ => 1500) ∧
      u.MtuAllOrNothing [0, 1] 9000 (fun _ => 1500)
        (u.bond_change_mtu (small_mtu 1) 9000 fun _ => 1500) := by
  obtain ⟨u, hu, hcards, -, h0, h1, hp1, hp2, -⟩ := two_cards_joined
  have htakes : ∀ s ∈ [0, 1], ∀ d v mtu, u.TakesMtu (small_mtu d) v mtu s ↔
      v = mtu (u.slaves s).dev ∨ 0 ≤ v ∧ ((u.slaves s).dev = d → v ≤ 1500) := by
    intro s hs
    refine takes_small ?_
    simp only [List.mem_cons, List.not_mem_nil, or_false] at hs
    rcases hs with rfl | rfl
    · rwa [h0]
    · rwa [h1]
  have hback : ∀ d, ∀ s ∈ [0, 1], ∀ m, u.TakesMtu (small_mtu d) 1500 m s :=
    fun d s hs m => (htakes s hs d 1500 m).mpr (Or.inr ⟨by decide, fun _ => by decide⟩)
  refine ⟨u, hu, ?_, ?_⟩
  · rw [World.change_mtu_all_or_nothing_iff hcards (small_mtu 2) 9000 (fun _ => 1500)
      fun s hs _ => hback 2 s hs]
    intro hall
    have hlast := hall [0] 1 [] rfl (by simp [htakes, h0]) (by simp [htakes, h1])
    simp at hlast
  · rw [World.change_mtu_all_or_nothing_iff hcards (small_mtu 1) 9000 (fun _ => 1500)
      fun s hs _ => hback 1 s hs]
    intro front x back hl hok _
    cases front with
    | nil => simp
    | cons s front =>
      obtain rfl : 0 = s := (List.cons.inj hl).1
      have hfirst := (htakes 0 (by simp) 1 9000 _).mp (hok 0 (by simp))
      simp [h0] at hfirst

/-- The second card takes no address but the one it has. -/
def stubborn (u : World) : World :=
  u.setDev 2 fun dev =>
    { dev with set_mac_address := some fun a => if a = [0, 0, 0, 0, 0, 0] then 0 else -EBUSY }

/-- Neither a multicast address nor all zeroes, as the header has it. -/
def valid_ether_addr (addr : HwAddr) : Bool :=
  addr.getD 0 0 &&& 1 == 0 && addr.any (· != 0)

theorem first_card_keeps_new_address :
    ∃ u, Transition.run (@World.step noSiblings) bond0 two_slaves = some u ∧
      ¬ (stubborn u).MacAllOrNothing [0, 1] [2, 0, 0, 0, 0, 9]
        ((stubborn u).bond_set_mac_address valid_ether_addr [2, 0, 0, 0, 0, 9] ARPHRD_ETHER) := by
  have hrun : (Transition.run (@World.step noSiblings) bond0 two_slaves).any (fun u =>
      decide ((dev_set_mac_address [2, 0, 0, 0, 0, 9] ARPHRD_ETHER ((stubborn u).slave_dev 0)).1 = 0)
      && (decide ((dev_set_mac_address [2, 0, 0, 0, 0, 9] ARPHRD_ETHER
        ((stubborn u).slave_dev 1)).1 ≠ 0) && (decide ((dev_set_mac_address (stubborn u).own_mac
        (stubborn u).bond_dev.type ((stubborn u).slave_dev 0)).1 = 0) &&
      ((stubborn u).slave_dev 0).dev_addr != [2, 0, 0, 0, 0, 9]))) = true := by
    decide +kernel
  obtain ⟨u, hu, hcards, -, -, -, -, -, hown⟩ := two_cards_joined
  rw [hu, Option.any_some] at hrun
  simp only [Bool.and_eq_true, decide_eq_true_eq, bne_iff_ne] at hrun
  obtain ⟨hfirst, hsecond, hback, haddr⟩ := hrun
  have hcards : (stubborn u).Cards [0, 1] :=
    ⟨hcards.toRing.congr rfl rfl rfl, hcards.apart, hcards.foreign⟩
  refine ⟨u, hu, ?_⟩
  rw [World.set_mac_all_or_nothing_iff hcards hown ARPHRD_ETHER (by decide) ?_]
  · intro hall
    have hlast := hall [0] 1 [] rfl (fun s hs => List.mem_singleton.mp hs ▸ hfirst) hsecond
    exact haddr (by simpa using hlast)
  · intro s hs htakes
    simp only [List.mem_cons, List.not_mem_nil, or_false] at hs
    rcases hs with rfl | rfl
    · exact hback
    · exact absurd htakes hsecond

end Hoolock
