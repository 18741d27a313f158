import Hoolock.Client
import Hoolock.Queries

set_option autoImplicit false

namespace Hoolock

def eth : Bool → List Char
  | false => eth0
  | true => eth1

theorem eth_injective {i j : Bool} (h : eth i = eth j) : i = j := by
  cases i <;> cases j <;> first | rfl | cases h

namespace World

theorem setBond_lock (w : World) (l : LockName) (m : LockMode) (f : Bonding → Bonding) :
    (w.lock l m).setBond f = (w.setBond f).lock l m := rfl

/-- The ring has two slaves, `s false` on eth0 and `s true` on eth1, in either order. -/
structure Pair (w : World) (s : Bool → SlaveId) : Prop where
  inv : ∃ l, w.Inv l ∧ (l = [s false, s true] ∨ l = [s true, s false])
  name : ∀ i, (w.slave_dev (s i)).name = eth i

theorem Pair.ne {w : World} {s : Bool → SlaveId} (h : w.Pair s) (a : Bool) : s (!a) ≠ s a := by
  intro heq
  have hn := h.name a
  rw [← heq, h.name] at hn
  cases a <;> cases eth_injective hn

theorem Pair.empty {w : World} {s : Bool → SlaveId} (h : w.Pair s) : w.bond.pbuff = [] := by
  obtain ⟨l, hi, _⟩ := h.inv
  exact hi.empty

theorem Pair.active {w : World} {s : Bool → SlaveId} (h : w.Pair s) {t : SlaveId}
    (ht : w.bond.curr_active_slave = some t) : ∃ a, t = s a := by
  obtain ⟨l, hi, hl⟩ := h.inv
  have hmem := hi.active t ht
  rcases hl with rfl | rfl
  · rcases List.mem_pair.mp hmem with rfl | rfl
    · exact ⟨false, rfl⟩
    · exact ⟨true, rfl⟩
  · rcases List.mem_pair.mp hmem with rfl | rfl
    · exact ⟨true, rfl⟩
    · exact ⟨false, rfl⟩

theorem Inv.pair {w : World} {l : List SlaveId} (h : w.Inv l)
    (hn : (w.bond_for_each_slave.map fun s => (w.slave_dev s).name).Perm [eth0, eth1]) :
    ∃ s, w.Pair s := by
  rw [h.for_each] at hn
  have hlen : l.length = 2 := by
    have := hn.length_eq
    simpa using this
  obtain ⟨x, y, rfl⟩ := List.length_eq_two.mp hlen
  have hnames : (w.slave_dev x).name = eth0 ∧ (w.slave_dev y).name = eth1 ∨
      (w.slave_dev x).name = eth1 ∧ (w.slave_dev y).name = eth0 := by
    have hxm := hn.mem_iff (a := (w.slave_dev x).name)
    have hym := hn.mem_iff (a := (w.slave_dev y).name)
    have h0 := hn.mem_iff (a := eth0)
    have h1 := hn.mem_iff (a := eth1)
    simp only [List.map_cons, List.map_nil, List.mem_cons, List.not_mem_nil, or_false] at *
    have hne : eth0 ≠ eth1 := by decide
    grind
  rcases hnames with ⟨hx, hy⟩ | ⟨hx, hy⟩
  · refine ⟨fun i => if i then y else x, ⟨_, h, Or.inl rfl⟩, fun i => ?_⟩
    cases i
    · exact hx
    · exact hy
  · refine ⟨fun i => if i then x else y, ⟨_, h, Or.inr rfl⟩, fun i => ?_⟩
    cases i
    · exact hy
    · exact hx

theorem Pair.of_line_up {v w : World} {s : Bool → SlaveId} (h : w.Pair s) {m : List SlaveId}
    (hm : v.Inv m) (hl : v.line_up = w.line_up) :
    v.Pair s ∧ v.bond.curr_active_slave = w.bond.curr_active_slave := by
  obtain ⟨l, hi, hring⟩ := h.inv
  have hsecond := congrArg Prod.snd hl
  unfold line_up at hsecond
  rw [hm.for_each, hi.for_each] at hsecond
  dsimp only at hsecond
  have hml : m = l := by
    have hfst := congrArg (List.map Prod.fst) hsecond
    simpa [List.map_map, Function.comp_def] using hfst
  subst hml
  have hname : ∀ t ∈ m, (v.slave_dev t).name = (w.slave_dev t).name := by
    intro t ht
    have hpoint := List.map_inj_left.mp hsecond t ht
    exact (Prod.mk.inj hpoint).2
  refine ⟨⟨⟨m, hm, hring⟩, fun i => ?_⟩, congrArg Prod.fst hl⟩
  have hmem : s i ∈ m := by
    rcases hring with rfl | rfl <;> cases i <;> simp
  rw [hname _ hmem]
  exact h.name i

theorem Pair.step_beside [Siblings] {v w : World} {s : Bool → SlaveId} (h : w.Pair s) {e : Event}
    (hv : w.step e = some v) (hl : v.line_up = w.line_up) :
    v.Pair s ∧ v.bond.curr_active_slave = w.bond.curr_active_slave := by
  obtain ⟨l, hi, _⟩ := h.inv
  obtain ⟨m, hm⟩ := hi.step hv
  exact h.of_line_up hm hl

theorem Pair.slave_name {w : World} {s : Bool → SlaveId} (h : w.Pair s) (a : Bool) :
    (w.slave_reply (s a)).slave_name = eth a := by
  have hname : (w.slave_reply (s a)).slave_name = ((w.slave_dev (s a)).name).take IFNAMSIZ := rfl
  rw [hname, h.name]
  cases a <;> rfl

theorem Pair.passive {w : World} {s : Bool → SlaveId} (h : w.Pair s) {a : Bool}
    (ha : w.bond.curr_active_slave = some (s a)) : w.passive_slave = some (s (!a)) := by
  have hne := h.ne a
  obtain ⟨l, hi, hl⟩ := h.inv
  unfold passive_slave
  rw [hi.for_each, ha]
  rcases hl with rfl | rfl <;> cases a <;> simp_all

theorem Pair.getpassive {w : World} {s : Bool → SlaveId} (h : w.Pair s) {a : Bool}
    (ha : w.bond.curr_active_slave = some (s a)) :
    w.bond_getpassive = (0, w.slave_reply (s (!a)), w) := getpassive_some (h.passive ha)

theorem Pair.make [Siblings] {w : World} {s : Bool → SlaveId} (h : w.Pair s) {a : Bool}
    (ha : w.bond.curr_active_slave = some (s a)) :
    w.bond_ioctl_make.2.Pair s ∧ w.bond_ioctl_make.2.bond.curr_active_slave = some (s (!a)) ∧
      w.bond_ioctl_make.2.bond.buffer_mode = 1 := by
  obtain ⟨l, hi, hl⟩ := h.inv
  have hs : w.SwitchesAs := fun hmode => by simp [hi.mode] at hmode
  obtain ⟨-, -, hname, hinst⟩ := make_switches hi.toRing hs
  refine ⟨⟨⟨l, hi.make, hl⟩, fun i => ?_⟩, hinst _ (h.passive ha), ?_⟩
  · rw [hname]
    exact h.name i
  · exact congrArg Core.buffer_mode (core_make w)

theorem Pair.brk {w : World} {s : Bool → SlaveId} (h : w.Pair s) (env : Skb → PassEnv) :
    w.bond_ioctl_break env = some (0, w.setBond fun b => { b with buffer_mode := 0 }) ∧
      (w.setBond fun b => { b with buffer_mode := 0 }).Pair s := by
  obtain ⟨l, hi, hl⟩ := h.inv
  have hr := break_empty h.empty env
  simp only [setBond_lock, lock_unlock] at hr
  exact ⟨hr, ⟨l, hi.brk hr, hl⟩, h.name⟩

end World

end Hoolock
