import Hoolock.HardHandover
import Hoolock.MobileSpec

/-!
The two clients follow the two kinds of handover: `client` the soft one, over the pipes and the
bond's active slave, `hard_client` the hard one, over the pipes.
-/

set_option autoImplicit false

namespace Hoolock

open Simulation MobileSpec

namespace Net

variable {s : Bool → SlaveId} {z : Int} {n m : Net}

/-- The pipes that are up, and the interface of the active slave. -/
structure Shows (s : Bool → SlaveId) (z : Int) (n : Net) (x : Mobile Bool) : Prop where
  good : n.Good s False z
  forked : ∀ i, n.procs.failed i = false
  connected : ∀ i, i ∈ x.connected ↔ n.up i
  active : ∀ a, x.active = some a ↔ n.world.bond.curr_active_slave = some (s a)

theorem Ok.is_up {i : Bool} (h : n.Ok i) (hf : ∀ i, n.procs.failed i = false) : n.up i := by
  rcases h with hup | hfailed
  · exact hup
  · rw [hf i] at hfailed
    cases hfailed

theorem injective_of_pair {w : World} (h : w.Pair s) : Function.Injective s := by
  intro i j hij
  have hnames : eth i = eth j := by rw [← h.name i, ← h.name j, hij]
  exact eth_injective hnames

def mobile (s : Bool → SlaveId) (n : Net) : Mobile Bool where
  connected := {i | n.up i}
  active :=
    if n.world.bond.curr_active_slave = some (s false) then some false
    else if n.world.bond.curr_active_slave = some (s true) then some true
    else none

/-- The plumber and its children are left alone, and the active slave is. -/
structure Aside (n m : Net) : Prop where
  plumber : m.plumber = n.plumber
  procs : m.procs = n.procs
  active : m.world.bond.curr_active_slave = n.world.bond.curr_active_slave

theorem Shows.aside {x : Mobile Bool} (h : Shows s z n x) (hm : m.Good s False z)
    (ha : Aside n m) : Shows s z m x where
  good := hm
  forked := by
    rw [ha.procs]
    exact h.forked
  connected i := by
    rw [h.connected i]
    unfold up
    rw [ha.plumber, ha.procs]
  active a := by
    rw [ha.active]
    exact h.active a

section moves

variable [Siblings]

omit [Siblings] in
theorem Good.asked (h : n.Good s False z) {cmd : List Char} (hcmd : n.command = some cmd) :
    (∃ i, cmd = Plumber.make_line i) ∨
      ∃ a, n.world.bond.curr_active_slave = some (s a) ∧ cmd = Plumber.break_line (!a) := by
  obtain ⟨_, _, _, a, hact, hst⟩ := h
  rcases hst.awaits hcmd with hpc | hpc | hpc
  · simp only [Stage, hpc] at hst
    rcases hst with ⟨hasked, _⟩ | ⟨hanswered, _⟩
    · exact Or.inl ⟨a, Option.some.inj (hcmd.symm.trans hasked.1)⟩
    · rw [hanswered.1] at hcmd
      cases hcmd
  · simp only [Stage, hpc] at hst
    obtain ⟨_, ⟨hasked, _⟩ | ⟨hanswered, _⟩⟩ := hst
    · exact Or.inl ⟨!a, Option.some.inj (hcmd.symm.trans hasked.1)⟩
    · rw [hanswered.1] at hcmd
      cases hcmd
  · simp only [Stage, hpc] at hst
    rcases hst with ⟨hasked, _⟩ | ⟨hanswered, _⟩
    · exact Or.inr ⟨a, hact (by simp [hpc]), Option.some.inj (hcmd.symm.trans hasked.1)⟩
    · rw [hanswered.1] at hcmd
      cases hcmd

theorem Shows.plumber {x : Mobile Bool} (h : Shows s z n x) {pid : Int} (hpos : 0 < pid)
    (hm : n.step (.plumber pid) = some m) : ∃ y, Shows s z m y ∧ Soft x y := by
  have hgood := h.good.step hm fun _ _ hno => hno.elim
  have hforked := step_forked hm (fun _ hmove => by cases hmove; exact hpos) h.forked
  have hkeeps := h.good.keeps
  simp only [step] at hm
  split_ifs at hm with hfork
  obtain ⟨cmd, hcmd, rfl⟩ := Option.map_eq_some_iff.mp hm
  rcases h.good.asked hcmd with ⟨i, rfl⟩ | ⟨a, hact, rfl⟩
  · refine ⟨{ x with connected := insert i x.connected },
      ⟨hgood, hforked, fun j => ?_, h.active⟩, Soft.join x i⟩
    obtain ⟨_, _, hother⟩ := hkeeps.make hfork rfl
    by_cases hj : j = i
    · rw [hj]
      exact ⟨fun _ => hkeeps.make_up hfork hpos rfl, fun _ => Set.mem_insert i x.connected⟩
    · rw [Set.mem_insert_iff, or_iff_right hj, h.connected j]
      exact (hother j hj).1.symm
  · have hinactive : x.active ≠ some (!a) := by
      intro hx
      have hsame := ((h.active (!a)).mp hx).symm.trans hact
      exact h.good.pair.ne a (Option.some.inj hsame)
    refine ⟨{ x with connected := x.connected \ {!a} },
      ⟨hgood, hforked, fun j => ?_, h.active⟩, Soft.leave x hinactive⟩
    obtain ⟨_, hdown, hother, _⟩ := hkeeps.break (n := pid) rfl
    by_cases hj : j = !a
    · rw [hj]
      exact ⟨fun hmem => absurd rfl hmem.2, fun hup => absurd hup hdown⟩
    · rw [Set.mem_sdiff, Set.mem_singleton_iff, and_iff_left hj, h.connected j]
      exact (hother j hj).symm

theorem Shows.make {x : Mobile Bool} (h : Shows s z n x) (hpc : n.client.pc = .bond_make)
    {env : IoctlEnv} (hm : n.client_step env = some m) : ∃ y, Shows s z m y ∧ Soft x y := by
  have hgood := h.good.client_step hm
  obtain ⟨hpair, _, _, a, hact, hst⟩ := h.good
  simp only [Stage, hpc] at hst
  obtain ⟨_, hact', _⟩ := hpair.make (hact (by simp [hpc]))
  have hconnected : (!a) ∈ x.connected :=
    (h.connected (!a)).mpr ((hst.2.1 (!a)).is_up h.forked)
  simp only [client_step, hpc] at hm
  rw [ioctl_ok (World.do_make n.world env)] at hm
  cases hm
  refine ⟨{ x with active := some (!a) }, ⟨hgood, h.forked, h.connected, fun b => ?_⟩,
    Soft.switch x hconnected⟩
  change some (!a) = some b ↔ n.world.bond_ioctl_make.2.bond.curr_active_slave = some (s b)
  rw [hact', Option.some_inj, Option.some_inj]
  exact (injective_of_pair hpair).eq_iff.symm

end moves

end Net

namespace HardNet

variable {n m : HardNet}

def pipes (n : HardNet) : Set Bool := {i | 0 < n.server.plumber.pid i}

theorem Only.subset {p : Plumber} {i : Bool} (h : Only p (some i)) :
    {j | 0 < p.pid j} = ∅ ∨ {j | 0 < p.pid j} = {i} := by
  by_cases hi : 0 < p.pid i
  · right
    ext j
    refine ⟨fun hj => (Option.some.inj (h j hj)).symm, ?_⟩
    rintro rfl
    exact hi
  · left
    ext j
    refine ⟨fun hj => ?_, fun hj => hj.elim⟩
    obtain rfl := Option.some.inj (h j hj)
    exact hi hj

section moves

variable [Siblings]

end moves

end HardNet

end Hoolock
