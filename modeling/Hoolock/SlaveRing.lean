import Hoolock.NetDevice

/-!
The ring of slave records of `bonding.h`, and the two wrappers through which
slaves are attached to it and detached from it.
-/

set_option autoImplicit false

namespace Hoolock

open CircularList

/-- The 2.6.24 port leaves HOOLOCK out of the modes that use a primary. -/
def USES_PRIMARY (port : Port) : Mode → Bool
  | .activebackup | .tlb | .alb => true
  | .hoolock => port == .k27
  | _ => false

def IS_UP (dev : NetDevice) : Bool := dev.iff_up && dev.running && dev.carrier

namespace World

def slave_dev (w : World) (s : SlaveId) : NetDevice := w.devs (w.slaves s).dev

def BOND_IS_OK (w : World) : Bool :=
  w.bond_dev.iff_up && w.bond_dev.running && decide (0 < w.bond.slave_cnt)

def setLinks (w : World) (L : Links SlaveId) : World :=
  { w with slaves := fun s => { w.slaves s with next := L.next s, prev := L.prev s } }

@[simp] theorem links_setLinks (w : World) (L : Links SlaveId) : (w.setLinks L).links = L := rfl

/-- The positions `bond_for_each_slave_from` visits, in order. -/
def bond_for_each_slave_from (w : World) (start : Option SlaveId) : List SlaveId :=
  walk w.links.next w.bond.slave_cnt.toNat start

def bond_for_each_slave (w : World) : List SlaveId :=
  w.bond_for_each_slave_from w.bond.first_slave

/-- The loop variable after the search loop, found or not. -/
def bond_get_slave_by_dev (w : World) (slave_dev : DevId) : Option SlaveId :=
  search w.links.next (fun s => (w.slaves s).dev == slave_dev) w.bond.slave_cnt.toNat
    w.bond.first_slave

def bond_attach_slave (w : World) (new_slave : SlaveId) : World :=
  let w := match w.bond.first_slave with
    | none =>
      (w.setLinks (w.links.single new_slave)).setBond fun b =>
        { b with first_slave := some new_slave }
    | some first => w.setLinks (w.links.insertBefore first new_slave)
  w.setBond fun b => { b with slave_cnt := b.slave_cnt + 1 }

def bond_detach_slave (w : World) (slave : SlaveId) : World :=
  -- `slave->next` is read after its neighbours are joined and before it is cleared
  let next := w.links.next slave
  let w := w.setLinks (w.links.unlink slave)
  w.setBond fun b =>
    { b with
      first_slave :=
        if b.first_slave = some slave then (if b.slave_cnt > 1 then next else none)
        else b.first_slave
      slave_cnt := b.slave_cnt - 1 }

/-- The slaves `l`, in this order from `first_slave`, are the bond's ring. -/
structure Ring (w : World) (l : List SlaveId) : Prop where
  ring : w.links.IsRing l
  head : w.bond.first_slave = l.head?
  count : w.bond.slave_cnt = l.length

theorem Ring.nodup {w : World} {l : List SlaveId} (h : w.Ring l) : l.Nodup := h.ring.1

theorem Ring.congr {w v : World} {l : List SlaveId} (h : w.Ring l) (hl : v.links = w.links)
    (hf : v.bond.first_slave = w.bond.first_slave) (hc : v.bond.slave_cnt = w.bond.slave_cnt) :
    v.Ring l := ⟨hl ▸ h.ring, hf.trans h.head, hc.trans h.count⟩

theorem Ring.for_each {w : World} {l : List SlaveId} (h : w.Ring l) :
    w.bond_for_each_slave = l := by
  unfold bond_for_each_slave bond_for_each_slave_from
  rw [h.head, h.count]
  cases l with
  | nil => rfl
  | cons a t => exact h.ring.walk_head

theorem Ring.mem_for_each_from {w : World} {l : List SlaveId} (h : w.Ring l) {a : SlaveId}
    (ha : a ∈ l) (x : SlaveId) : x ∈ w.bond_for_each_slave_from (some a) ↔ x ∈ l := by
  unfold bond_for_each_slave_from
  rw [h.count]
  exact h.ring.mem_walk ha x

theorem Ring.unique {w : World} {l m : List SlaveId} (h : w.Ring l) (k : w.Ring m) : l = m :=
  h.for_each.symm.trans k.for_each

theorem Ring.attach {w : World} {l : List SlaveId} (h : w.Ring l) {x : SlaveId} (hx : x ∉ l) :
    (w.bond_attach_slave x).Ring (l ++ [x]) := by
  have hhead := h.head
  have hcount := h.count
  cases l with
  | nil =>
    simp only [List.head?_nil] at hhead
    refine ⟨?_, ?_, ?_⟩
    · simp only [bond_attach_slave, hhead]
      exact Links.isRing_single w.links x
    · simp [bond_attach_slave, hhead, setBond]
    · simp [bond_attach_slave, hhead, setBond, setLinks, hcount]
  | cons a t =>
    simp only [List.head?_cons] at hhead
    refine ⟨?_, ?_, ?_⟩
    · simp only [bond_attach_slave, hhead]
      exact h.ring.insertBefore hx
    · simp [bond_attach_slave, hhead, setBond, setLinks]
    · simp [bond_attach_slave, hhead, setBond, setLinks, hcount]

theorem Ring.next_head {w : World} {x b : SlaveId} {t : List SlaveId} (h : w.Ring (x :: b :: t)) :
    w.links.next x = some b := by
  have hc := ((chain_cons_iff _ x (b :: t)).mp h.ring.2).1
  rw [List.isChain_cons_cons] at hc
  exact hc.1.1

theorem Ring.detach {w : World} {x : SlaveId} {l m : List SlaveId} (h : w.Ring (l ++ x :: m)) :
    (w.bond_detach_slave x).Ring (l ++ m) := by
  have hhead := h.head
  have hcount := h.count
  refine ⟨h.ring.unlink, ?_, ?_⟩
  · cases l with
    | nil =>
      cases m with
      | nil => simp_all [bond_detach_slave, setBond, setLinks]
      | cons b t =>
        have hn : w.links.next x = some b := Ring.next_head h
        have hgt : w.bond.slave_cnt > 1 := by
          rw [hcount]
          simp
        have hf : w.bond.first_slave = some x := hhead
        simp [bond_detach_slave, setBond, setLinks, hf, hgt, hn]
    | cons a t =>
      have hax : a ≠ x := by
        intro e
        have hnd := h.nodup
        rw [List.cons_append, List.nodup_cons] at hnd
        exact hnd.1 (by simp [e])
      have hf : w.bond.first_slave = some a := hhead
      simp [bond_detach_slave, setBond, setLinks, hf, hax]
  · simp only [bond_detach_slave, setBond, setLinks, hcount, List.length_append,
      List.length_cons]
    push_cast
    omega

theorem Ring.get_slave_by_dev {w : World} {l : List SlaveId} (h : w.Ring l) {s : SlaveId}
    (hs : s ∈ l) (hd : ∀ t ∈ l, (w.slaves t).dev = (w.slaves s).dev → t = s) :
    w.bond_get_slave_by_dev (w.slaves s).dev = some s := by
  refine search_eq_find ?_
  have hw : walk w.links.next w.bond.slave_cnt.toNat w.bond.first_slave = l := h.for_each
  rw [hw, List.find?_eq_some_iff_append]
  refine ⟨by simp, ?_⟩
  obtain ⟨m, k, rfl⟩ := List.append_of_mem hs
  refine ⟨m, k, rfl, fun t ht => ?_⟩
  have hne : t ≠ s := by
    rintro rfl
    have hnd := h.nodup
    rw [List.nodup_append] at hnd
    exact hnd.2.2 t ht t (by simp) rfl
  have := fun e => hne (hd t (by simp [ht]) e)
  simpa using this

end World

end Hoolock
