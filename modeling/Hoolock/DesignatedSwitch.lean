import Hoolock.Queries
import Hoolock.Eligible

set_option autoImplicit false

namespace Hoolock

open CircularList

namespace World

/-- What the helper answers for a device of no slave: the search stops at the first slave. -/
theorem Ring.get_slave_foreign {w : World} {l : List SlaveId} (h : w.Ring l) {d : DevId}
    (hd : ∀ s ∈ l, (w.slaves s).dev ≠ d) : w.bond_get_slave_by_dev d = l.head? := by
  unfold bond_get_slave_by_dev
  rw [h.head, h.count]
  cases l with
  | nil => rfl
  | cons a t =>
    refine h.ring.search_fails fun s hs => ?_
    exact beq_eq_false_iff_ne.mpr (hd s hs)

theorem Ring.get_slave_found {w : World} {l : List SlaveId} (h : w.Ring l) {d : DevId}
    (hd : ∃ s ∈ l, (w.slaves s).dev = d) :
    ∃ s ∈ l, (w.slaves s).dev = d ∧ w.bond_get_slave_by_dev d = some s := by
  have hfound : (l.find? fun s => (w.slaves s).dev == d).isSome := by
    rw [List.find?_isSome]
    obtain ⟨s, hs, hsd⟩ := hd
    exact ⟨s, hs, beq_iff_eq.mpr hsd⟩
  obtain ⟨s, hs⟩ := Option.isSome_iff_exists.mp hfound
  have hw : walk w.links.next w.bond.slave_cnt.toNat w.bond.first_slave = l := h.for_each
  have hsd := List.find?_some hs
  refine ⟨s, List.mem_of_find?_eq_some hs, beq_iff_eq.mp hsd, search_eq_find ?_⟩
  rw [hw]
  exact hs

section switching

variable [Siblings]

theorem Ring.test_changes {w : World} {l : List SlaveId} (h : w.Ring l) {d : DevId} {s : SlaveId}
    (hs : w.bond_get_slave_by_dev d = some s) :
    (w.bond_ioctl_hoolock_change_active d).2 =
      ((w.make_begun.bond_change_active_slave (some s)).unlock .curr_slave .write).unlock
        .bond .read := by
  have hget : (w.lock .bond .read).bond_get_slave_by_dev d = some s := hs
  have hring : w.make_begun.Ring l := h.congr rfl rfl rfl
  have hfind : (w.make_begun.bond_for_each_slave.find? fun slave_pos =>
      some slave_pos == some s) = some s := by
    rw [hring.for_each]
    have hsome : (l.find? fun slave_pos => some slave_pos == some s).isSome := by
      rw [List.find?_isSome]
      exact ⟨s, h.get_slave_mem hs, beq_self_eq_true _⟩
    obtain ⟨t, ht⟩ := Option.isSome_iff_exists.mp hsome
    have hts := List.find?_some ht
    rw [ht, beq_iff_eq.mp hts]
  unfold bond_ioctl_hoolock_change_active
  dsimp only
  rw [hget]
  have hlocks : (w.lock .bond .read).lock .curr_slave .write = w.make_begun := rfl
  rw [hlocks, hfind]

theorem Ring.test_installs {w : World} {l : List SlaveId} (h : w.Ring l) (hs : w.SwitchesAs)
    {d : DevId} {s : SlaveId} (hd : w.bond_get_slave_by_dev d = some s) :
    (w.bond_ioctl_hoolock_change_active d).2.bond.curr_active_slave = some s := by
  have hbegun : w.make_begun.SwitchesAs := hs
  rw [h.test_changes hd]
  exact change_active_installs hbegun s

theorem Ring.test_foreign {w : World} {l : List SlaveId} (h : w.Ring l) (hs : w.SwitchesAs)
    {d : DevId} (hd : ∀ s ∈ l, (w.slaves s).dev ≠ d) {a : SlaveId} (ha : l.head? = some a) :
    (w.bond_ioctl_hoolock_change_active d).1 = 0 ∧
      (w.bond_ioctl_hoolock_change_active d).2.bond.curr_active_slave = some a :=
  ⟨rfl, h.test_installs hs ((h.get_slave_foreign hd).trans ha)⟩

theorem change_active_refuses {w : World} {d : DevId} (hd : (w.devs d).master ≠ some w.bond.dev) :
    w.bond_ioctl_change_active d = (-EINVAL, w) := by
  unfold bond_ioctl_change_active
  dsimp only
  split_ifs with hmode hmaster
  · rfl
  · rfl
  · exact absurd (Or.inr hd) hmaster

/-- What the caller of TEST is to find: the slave of the device installed, or an error and
nothing changed. -/
def Designated (w : World) (l : List SlaveId) (d : DevId) : Prop :=
  let v := w.bond_ioctl_hoolock_change_active d
  ((∃ s ∈ l, (w.slaves s).dev = d) →
    v.1 = 0 ∧ ∃ s ∈ l, (w.slaves s).dev = d ∧ v.2.bond.curr_active_slave = some s) ∧
  ((∀ s ∈ l, (w.slaves s).dev ≠ d) →
    v.1 < 0 ∧ v.2.bond.curr_active_slave = w.bond.curr_active_slave ∧ v.2.slaves = w.slaves)

theorem test_designates {w : World} {l : List SlaveId} (h : w.Ring l) (hs : w.SwitchesAs)
    (d : DevId) : w.Designated l d ↔ ∃ s ∈ l, (w.slaves s).dev = d := by
  have hret : (w.bond_ioctl_hoolock_change_active d).1 = 0 := rfl
  constructor
  · rintro ⟨-, hforeign⟩
    by_contra hnone
    push Not at hnone
    obtain ⟨hneg, -⟩ := hforeign hnone
    omega
  · intro hd
    refine ⟨fun _ => ?_, fun hnone => ?_⟩
    · obtain ⟨s, hsl, hsd, hget⟩ := h.get_slave_found hd
      exact ⟨hret, s, hsl, hsd, h.test_installs hs hget⟩
    · obtain ⟨s, hsl, hsd⟩ := hd
      exact absurd hsd (hnone s hsl)

end switching

end World

theorem second_card_active :
    ∃ u, Transition.run (@World.step noSiblings) bond0 (two_slaves ++ [.make]) = some u ∧
      u.Ring [0, 1] ∧ @World.SwitchesAs noSiblings u ∧ u.bond.curr_active_slave = some 1 ∧
      (u.slaves 0).dev = 1 ∧ (u.slaves 1).dev = 2 ∧ u.bond.dev = 0 ∧
      (u.devs 0).master = none := by
  have hrun : (Transition.run (@World.step noSiblings) bond0 (two_slaves ++ [.make])).any
      (fun u => u.bond_for_each_slave == [0, 1] && (u.bond.curr_active_slave == some 1 &&
        ((u.slaves 0).dev == 1 && ((u.slaves 1).dev == 2 && (u.bond.dev == 0 &&
          (u.devs 0).master == none))))) = true := by
    decide +kernel
  obtain ⟨u, hu, hcond⟩ := (Option.any_eq_true _ _).mp hrun
  simp only [Bool.and_eq_true, beq_iff_eq] at hcond
  obtain ⟨hlist, hact, hfirst, hsecond, hdev, hmaster⟩ := hcond
  obtain ⟨l, hi⟩ := @World.Host.run_inv noSiblings machine u 0 machine_host hoolock_params rfl _ hu
  have hl : l = [0, 1] := hi.for_each.symm.trans hlist
  have hs : @World.SwitchesAs noSiblings u := fun hmode => by simp [hi.mode] at hmode
  exact ⟨u, hu, hl ▸ hi.toRing, hs, hact, hfirst, hsecond, hdev, hmaster⟩

/-- TEST for the bond's own interface moves the bond to its first slave and reports success;
CHANGEACTIVE refuses it. -/
theorem test_takes_any_device :
    ∃ u, Transition.run (@World.step noSiblings) bond0 (two_slaves ++ [.make]) = some u ∧
      u.Ring [0, 1] ∧ @World.SwitchesAs noSiblings u ∧ u.bond.curr_active_slave = some 1 ∧
      (∀ s ∈ [0, 1], (u.slaves s).dev ≠ u.bond.dev) ∧
      (@World.bond_ioctl_hoolock_change_active noSiblings u u.bond.dev).1 = 0 ∧
      (@World.bond_ioctl_hoolock_change_active noSiblings u
        u.bond.dev).2.bond.curr_active_slave = some 0 ∧
      @World.bond_ioctl_change_active noSiblings u u.bond.dev = (-EINVAL, u) ∧
      ¬ @World.Designated noSiblings u [0, 1] u.bond.dev := by
  obtain ⟨u, hu, hring, hs, hact, hfirst, hsecond, hdev, hmaster⟩ := second_card_active
  have hforeign : ∀ s ∈ [0, 1], (u.slaves s).dev ≠ u.bond.dev := by
    intro s hs
    simp only [List.mem_cons, List.not_mem_nil, or_false] at hs
    rcases hs with rfl | rfl
    · rw [hfirst, hdev]
      decide
    · rw [hsecond, hdev]
      decide
  obtain ⟨hret, hmoved⟩ := @World.Ring.test_foreign noSiblings u [0, 1] hring hs _ hforeign 0 rfl
  have hrefused := @World.change_active_refuses noSiblings u u.bond.dev (by
    rw [hdev, hmaster]
    simp)
  refine ⟨u, hu, hring, hs, hact, hforeign, hret, hmoved, hrefused, ?_⟩
  rintro ⟨-, h⟩
  obtain ⟨hneg, -⟩ := h hforeign
  omega

/-- Each slave's own device does select it. -/
theorem two_cards_designated :
    ∃ u, Transition.run (@World.step noSiblings) bond0 (two_slaves ++ [.make]) = some u ∧
      u.Ring [0, 1] ∧ @World.Designated noSiblings u [0, 1] 1 ∧
      @World.Designated noSiblings u [0, 1] 2 ∧ ¬ @World.Designated noSiblings u [0, 1] 0 := by
  obtain ⟨u, hu, hring, hs, -, hfirst, hsecond, -⟩ := second_card_active
  refine ⟨u, hu, hring, ?_, ?_, ?_⟩
  · exact (@World.test_designates noSiblings u [0, 1] hring hs 1).mpr ⟨0, by simp, hfirst⟩
  · exact (@World.test_designates noSiblings u [0, 1] hring hs 2).mpr ⟨1, by simp, hsecond⟩
  · rw [@World.test_designates noSiblings u [0, 1] hring hs 0]
    rintro ⟨s, hs, hsd⟩
    simp only [List.mem_cons, List.not_mem_nil, or_false] at hs
    rcases hs with rfl | rfl <;> simp_all

end Hoolock
