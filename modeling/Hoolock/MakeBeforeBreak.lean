import Hoolock.Agreement
import Hoolock.PlumbLedger

/-!
Make before break: while the client goes through its handovers the active slave keeps its
pipe.
-/

set_option autoImplicit false

namespace Hoolock

def Pc.next : Pc → Pc
  | .get_active_first => .connect_first
  | .connect_first => .await_first
  | .await_first => .loop_head
  | .loop_head => .get_active
  | .get_active => .get_passive
  | .get_passive => .prompt
  | .prompt => .make_req
  | .make_req => .make_ack
  | .make_ack => .connect_make
  | .connect_make => .await_made
  | .await_made => .bond_make
  | .bond_make => .break_req
  | .break_req => .break_ack
  | .break_ack => .bond_break
  | .bond_break => .connect_break
  | .connect_break => .await_broken
  | .await_broken => .kill_iperf
  | .kill_iperf => .loop_head

/-- Every exit of the client: a failed call, the key that quits, another answer than an
acknowledgement. -/
def Pc.may_exit (pc : Pc) : Bool :=
  Net.can_fail pc || pc = .prompt || pc = .make_ack || pc = .break_ack

theorem can_fail_may_exit {pc : Pc} (h : Net.can_fail pc = true) : pc.may_exit = true := by
  simp [Pc.may_exit, h]

def Pc.begun : Pc → Bool
  | .get_active_first | .connect_first | .await_first => false
  | _ => true

theorem begun_next {pc : Pc} (h : pc.begun = true) : pc.next.begun = true := by
  cases pc <;> first | rfl | cases h

namespace Net

variable {s : Bool → SlaveId} {alone : Prop} {z : Int} {n m : Net}

section client

variable [Siblings]

omit [Siblings] in
theorem serve_failed (p : Plumber) (procs : Procs) (buffer : List Char) {pid : Int}
    (hpid : 0 < pid) (h : ∀ i, procs.failed i = false) (i : Bool) :
    (p.serve procs buffer pid).2.failed i = false := by
  have hne : pid ≠ -1 := by omega
  rw [Plumber.serve_eq_turn]
  rcases p.turn_cases buffer pid with hidle | ⟨j, _, ⟨_, child, hfork⟩ | hbreak⟩
  · rw [hidle]
    exact h i
  · rw [hfork]
    simp [Plumber.Syscall.perform, Procs.fork, hne, h]
  · rw [hbreak]
    split_ifs <;> exact h i

theorem ioctl_cases {env : IoctlEnv} {cmd : Nat} {k : Net → Reply → Net}
    (h : n.ioctl env cmd k = some m) :
    ∃ w, m = { n with world := w }.exit ∨ ∃ r, m = k { n with world := w } r := by
  unfold ioctl at h
  obtain ⟨r, _, rfl⟩ := Option.map_eq_some_iff.mp h
  dsimp only
  split_ifs
  · exact ⟨_, Or.inl rfl⟩
  · exact ⟨_, Or.inr ⟨_, rfl⟩⟩

theorem client_step_cases {env : IoctlEnv} (hm : n.client_step env = some m) :
    m.procs = n.procs ∧
      (m.client.pc = n.client.pc.next ∧ m.client.exited = n.client.exited ∨
        n.client.pc.may_exit = true ∧ ∃ w, m = { n with world := w }.exit) := by
  cases hpc : n.client.pc <;> simp only [Net.client_step, hpc] at hm
  case get_active_first | get_active | get_passive | bond_make | bond_break =>
    obtain ⟨w, rfl | ⟨r, rfl⟩⟩ := ioctl_cases hm
    · exact ⟨rfl, Or.inr ⟨rfl, w, rfl⟩⟩
    · exact ⟨rfl, Or.inl ⟨rfl, rfl⟩⟩
  case await_first | await_made | await_broken =>
    obtain ⟨_, rfl⟩ := heard_some hm
    exact ⟨rfl, Or.inl ⟨rfl, rfl⟩⟩
  case prompt | make_ack | break_ack =>
    cases hm
  all_goals
    cases hm
    exact ⟨rfl, Or.inl ⟨rfl, rfl⟩⟩

theorem step_cases {move : Move} (hm : n.step move = some m) :
    (m.client.pc = n.client.pc.next ∧ m.client.exited = false) ∨
      (m.client.pc = n.client.pc ∧ (n.answer.isSome = true → m.answer.isSome = true) ∧
        (m.client.exited = n.client.exited ∨ n.client.pc.may_exit = true)) := by
  cases move with
  | client env =>
    simp only [step] at hm
    split at hm
    · cases hm
    · rename_i hexit
      obtain ⟨_, ⟨hpc, hsame⟩ | ⟨hmay, w, rfl⟩⟩ := client_step_cases hm
      · have hno : n.client.exited = false := by simpa using hexit
        exact Or.inl ⟨hpc, hsame.trans hno⟩
      · exact Or.inr ⟨rfl, id, Or.inr hmay⟩
  | fails =>
    simp only [step] at hm
    split at hm
    · rename_i hcond
      cases hm
      exact Or.inr ⟨rfl, id, Or.inr (can_fail_may_exit hcond.2)⟩
    · cases hm
  | key c =>
    simp only [step] at hm
    split at hm
    · rename_i hcond
      have hno : n.client.exited = false := by simpa using hcond.1
      split at hm
      · cases hm
        exact Or.inr ⟨rfl, id, Or.inr (by rw [hcond.2]; rfl)⟩
      · cases hm
        exact Or.inl ⟨by rw [hcond.2]; rfl, hno⟩
    · cases hm
  | plumber pid =>
    simp only [step] at hm
    split at hm
    · obtain ⟨cmd, _, rfl⟩ := Option.map_eq_some_iff.mp hm
      exact Or.inr ⟨rfl, fun _ => rfl, Or.inl rfl⟩
    · cases hm
  | nox cmd =>
    simp only [step] at hm
    split at hm
    · cases hm
    · rename_i hexit
      have hno : n.client.exited = false := by simpa using hexit
      obtain ⟨req, _, hm⟩ := Option.bind_eq_some_iff.mp hm
      split at hm
      · rename_i hpc
        cases hm
        split
        · exact Or.inr ⟨rfl, id, Or.inr (by rw [hpc]; rfl)⟩
        · exact Or.inl ⟨by rw [hpc]; rfl, hno⟩
      · rename_i hpc
        cases hm
        split
        · exact Or.inr ⟨rfl, id, Or.inr (by rw [hpc]; rfl)⟩
        · exact Or.inl ⟨by rw [hpc]; rfl, hno⟩
      · cases hm
  | bond e =>
    simp only [step] at hm
    obtain ⟨w, _, hm⟩ := Option.bind_eq_some_iff.mp hm
    split at hm
    · cases hm
      exact Or.inr ⟨rfl, id, Or.inl rfl⟩
    · cases hm

theorem step_forked {move : Move} (hm : n.step move = some m)
    (hmove : ∀ pid, move = .plumber pid → 0 < pid) (h : ∀ i, n.procs.failed i = false) (i : Bool) :
    m.procs.failed i = false := by
  have hsame : m.procs = n.procs → m.procs.failed i = false := by
    intro heq
    rw [heq]
    exact h i
  cases move with
  | client env =>
    simp only [step] at hm
    split at hm
    · cases hm
    · exact hsame (client_step_cases hm).1
  | fails =>
    simp only [step] at hm
    split at hm <;> cases hm
    exact h i
  | key c =>
    simp only [step] at hm
    split_ifs at hm <;> cases hm <;> exact h i
  | plumber pid =>
    simp only [step] at hm
    split at hm
    · obtain ⟨cmd, _, rfl⟩ := Option.map_eq_some_iff.mp hm
      exact serve_failed n.plumber n.procs cmd (hmove pid rfl) h i
    · cases hm
  | nox cmd =>
    simp only [step] at hm
    split at hm
    · cases hm
    · obtain ⟨req, _, hm⟩ := Option.bind_eq_some_iff.mp hm
      split at hm
      · cases hm
        split <;> exact h i
      · cases hm
        split <;> exact h i
      · cases hm
  | bond e =>
    simp only [step] at hm
    obtain ⟨w, _, hm⟩ := Option.bind_eq_some_iff.mp hm
    split at hm <;> cases hm
    exact h i

theorem run_forked {moves : List Move} (hrun : Transition.run step n moves = some m)
    (hmoves : ∀ pid, .plumber pid ∈ moves → 0 < pid) (h : ∀ i, n.procs.failed i = false) :
    ∀ i, m.procs.failed i = false := by
  have halong : Transition.Along (fun _ move => ∀ pid, move = .plumber pid → 0 < pid) step n
      moves := by
    refine Transition.along_of_mem (fun move hmem _ pid hpid => ?_) n
    rw [hpid] at hmem
    exact hmoves pid hmem
  exact Transition.run_invariant_along (fun k => ∀ i, k.procs.failed i = false)
    (fun _ _ _ hk hmove hstep => step_forked hstep hmove hk) hrun halong h

omit [Siblings] in
def Replied (n : Net) : Prop :=
  n.client.pc.begun = true ∨ n.client.pc = .await_first ∧ n.answer.isSome = true

theorem replied_step {move : Move} (hm : n.step move = some m) (h : n.Replied) : m.Replied := by
  rcases h with hbegun | ⟨hpc, hans⟩
  · left
    rcases step_cases hm with ⟨hnext, _⟩ | ⟨hsame, _⟩
    · rw [hnext]
      exact begun_next hbegun
    · rw [hsame]
      exact hbegun
  · rcases step_cases hm with ⟨hnext, _⟩ | ⟨hsame, hkept, _⟩
    · left
      rw [hnext, hpc]
      rfl
    · exact Or.inr ⟨hsame.trans hpc, hkept hans⟩

theorem Good.replied (h : n.Good s alone z) {pid : Int} (hm : n.step (.plumber pid) = some m) :
    m.Replied := by
  obtain ⟨_, _, _, a, _, hst⟩ := h
  simp only [Net.step] at hm
  split at hm
  · obtain ⟨cmd, hcmd, rfl⟩ := Option.map_eq_some_iff.mp hm
    rcases hst.awaits hcmd with hpc | hpc | hpc
    · exact Or.inr ⟨hpc, rfl⟩
    · left
      dsimp only
      rw [hpc]
      rfl
    · left
      dsimp only
      rw [hpc]
      rfl
  · cases hm

theorem run_replied {moves : List Move} (hrun : Transition.run step n moves = some m)
    (h : n.Good s alone z) (hb : ∀ e, .bond e ∈ moves → alone → e.handover_call = false)
    {pid : Int} (hmem : .plumber pid ∈ moves) : m.Replied := by
  obtain ⟨pre, post, rfl⟩ := List.append_of_mem hmem
  obtain ⟨k, hpre, hrest⟩ := Transition.run_append_some.mp hrun
  obtain ⟨k', hserve, hpost⟩ := Transition.run_cons_some.mp hrest
  have hk : k.Good s alone z := run_good hpre h fun e he => hb e (by simp [he])
  exact Transition.run_invariant Replied (fun _ _ _ hr hstep => replied_step hstep hr) hpost
    (hk.replied hserve)

omit [Siblings] in
theorem Good.connected (h : n.Good s alone z) (hr : n.Replied) :
    ∃ a, n.world.bond.curr_active_slave = some (s a) ∧ n.Ok a ∧
      (n.client.pc = .loop_head → ¬ n.up (!a)) := by
  obtain ⟨_, _, _, a, hact, hst⟩ := h
  have hpast : n.client.pc ≠ .get_active_first ∧ n.client.pc ≠ .connect_first := by
    rcases hr with hbegun | ⟨hpc, _⟩
    · constructor <;> rintro hpc <;> rw [hpc] at hbegun <;> cases hbegun
    · rw [hpc]
      simp
  refine ⟨a, hact hpast.1, ?_⟩
  cases hpc : n.client.pc <;> simp only [Stage, hpc] at hst
  case get_active_first => exact absurd hpc hpast.1
  case connect_first => exact absurd hpc hpast.2
  case await_first =>
    rcases hst with ⟨hasked, _⟩ | ⟨_, hone⟩
    · rcases hr with hbegun | ⟨_, hans⟩
      · rw [hpc] at hbegun
        cases hbegun
      · rw [hasked.2] at hans
        cases hans
    · exact ⟨hone.1, fun h => absurd h (by decide)⟩
  case loop_head => exact ⟨hst.2.1, fun _ => hst.2.2⟩
  case get_active | kill_iperf => exact ⟨hst.2.1, fun h => absurd h (by decide)⟩
  case get_passive | prompt | make_req | make_ack | connect_make =>
    exact ⟨hst.2.1.1, fun h => absurd h (by decide)⟩
  case await_made =>
    rcases hst.2 with ⟨_, hone⟩ | ⟨_, hboth⟩
    · exact ⟨hone.1, fun h => absurd h (by decide)⟩
    · exact ⟨hboth a, fun h => absurd h (by decide)⟩
  case await_broken =>
    rcases hst with ⟨_, hboth⟩ | ⟨_, hone⟩
    · exact ⟨hboth a, fun h => absurd h (by decide)⟩
    · exact ⟨hone.1, fun h => absurd h (by decide)⟩
  all_goals exact ⟨hst.2.1 a, fun h => absurd h (by decide)⟩

/-- In every run of the client, a plumber that is not in hard mode and whose forks succeed,
and a bond with the slaves eth0 and eth1: from the first answer of the plumber on the pipe of
the active slave is up, and at the loop head it is the only one. -/
theorem make_before_break {machine w : World} {bond_dev : DevId} (h : machine.Host bond_dev)
    {params : Params} (hm : params.mode = .hoolock) {before : List Event}
    (hw : Transition.run World.step (machine.bond_init bond_dev params) before = some w)
    (hnames : (w.bond_for_each_slave.map fun s => (w.slave_dev s).name).Perm [eth0, eth1])
    (is_lossy : Bool) {moves : List Move} {n : Net}
    (hn : Transition.run Net.step (start w is_lossy) moves = some n)
    (hfork : ∀ pid, .plumber pid ∈ moves → 0 < pid) {pid : Int} (hserved : .plumber pid ∈ moves) :
    ∃ t i, n.world.bond.curr_active_slave = some t ∧ (n.world.slave_dev t).name = eth i ∧
      n.up i ∧ (n.client.pc = .loop_head → ∀ j, n.up j ↔ j = i) := by
  obtain ⟨l, hi⟩ := h.run_inv hm hw
  have hnobody : ∀ e, .bond e ∈ moves → False → e.handover_call = false :=
    fun _ _ hno => hno.elim
  obtain ⟨s, hstart⟩ := start_good False hi hnames is_lossy
  have hgood := run_good hn hstart hnobody
  have hforked := run_forked hn hfork fun _ => rfl
  have hreplied := run_replied hn hstart hnobody hserved
  obtain ⟨a, hact, hok, hhead⟩ := hgood.connected hreplied
  have hup : n.up a := by
    rcases hok with hup | hfailed
    · exact hup
    · rw [hforked a] at hfailed
      cases hfailed
  refine ⟨s a, a, hact, hgood.pair.name a, hup, fun hpc j => ⟨fun hj => ?_, fun hj => ?_⟩⟩
  · by_contra hne
    have hother : j = !a := by
      cases j <;> cases a <;> simp_all
    exact hhead hpc (hother ▸ hj)
  · rw [hj]
    exact hup

end client

end Net

def opening : List Move :=
  [.client .plain, .client .plain, .plumber 100, .client .plain, .client .plain, .client .plain,
    .client .plain]

def making (pid : Int) : List Move :=
  [.key '\n', .client .plain, .nox MAKE_ACK, .client .plain, .plumber pid, .client .plain,
    .client .plain, .client .plain]

def breaking : List Move :=
  [.nox BREAK_ACK, .client .plain, .client .plain, .plumber 102, .client .plain, .client .plain]

def carded : Option World := Transition.run (@World.step noSiblings) bond0 two_slaves

def carded_run (moves : List Move) : Option (World × Net) :=
  carded.bind fun w => (Transition.run (@Net.step noSiblings) (Net.start w false) moves).map
    fun n => (w, n)

theorem carded_run_some {moves : List Move} {w : World} {n : Net}
    (h : carded_run moves = some (w, n)) :
    carded = some w ∧
      Transition.run (@Net.step noSiblings) (Net.start w false) moves = some n := by
  unfold carded_run at h
  obtain ⟨w', hw, h⟩ := Option.bind_eq_some_iff.mp h
  obtain ⟨n', hn, heq⟩ := Option.map_eq_some_iff.mp h
  cases heq
  exact ⟨hw, hn⟩

theorem carded_names {w : World} (h : carded = some w) :
    (w.bond_for_each_slave.map fun s => (w.slave_dev s).name).Perm [eth0, eth1] := by
  have hnames : carded.all (fun w => decide
      ((w.bond_for_each_slave.map fun s => (w.slave_dev s).name).Perm [eth0, eth1])) = true := by
    decide +kernel
  rw [h] at hnames
  exact of_decide_eq_true hnames

theorem handover_connected :
    ∃ w n, carded_run (opening ++ making 101 ++ breaking) = some (w, n) ∧
      n.client.pc = .loop_head ∧
      ∃ t i, n.world.bond.curr_active_slave = some t ∧ (n.world.slave_dev t).name = eth i ∧
        n.up i ∧ (n.client.pc = .loop_head → ∀ j, n.up j ↔ j = i) := by
  have hrun : (carded_run (opening ++ making 101 ++ breaking)).any
      (fun r => decide (r.2.client.pc = .loop_head)) = true := by
    decide +kernel
  obtain ⟨⟨w, n⟩, hr, hpc⟩ := (Option.any_eq_true _ _).mp hrun
  obtain ⟨hw, hn⟩ := carded_run_some hr
  refine ⟨w, n, hr, of_decide_eq_true hpc, ?_⟩
  refine @Net.make_before_break noSiblings machine w 0 machine_host hoolock_params rfl two_slaves
    hw (carded_names hw) false _ n hn (fun pid hpid => ?_) 100 ?_
  · simp [opening, making, breaking] at hpid
    omega
  · simp [opening]

end Hoolock
