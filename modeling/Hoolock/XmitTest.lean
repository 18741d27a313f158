import Hoolock.MakeBeforeBreak

/-!
The test program `xmit_test`, which hands over on every key, composed with the plumber and
the bond.
-/

set_option autoImplicit false

namespace Hoolock

inductive TestPc where
  | get_active | get_passive | prompt
  | connect_make | await_made | bond_make
  | connect_break | await_broken | bond_break
  deriving DecidableEq

structure XmitTest where
  pc : TestPc
  exited : Bool
  act_slave : List Char
  pas_slave : List Char
  /-- how often the loop was gone through -/
  iterations : ℕ

/-- The test program, the plumber with its children, the bond, and what is on its way
between them. -/
structure TestNet where
  world : World
  test : XmitTest
  plumber : Plumber
  procs : Procs
  command : Option (List Char)
  answer : Option String

inductive TestMove where
  | test (env : IoctlEnv)
  | fails
  | key
  | plumber (pid : Int)
  | bond (e : Event)

/-- `plumb_cmd[5]` is overwritten in this template too. -/
def test_break_cmd (slave : List Char) : List Char :=
  plumb_cmd ['b', 'r', 'e', 'a', 'k', ' ', 'x'] 5 slave

namespace TestNet

def go (n : TestNet) (pc : TestPc) : TestNet := { n with test := { n.test with pc } }

def exit (n : TestNet) : TestNet := { n with test := { n.test with exited := true } }

def heard (n : TestNet) (pc : TestPc) : Option TestNet :=
  n.answer.map fun _ => { n with answer := none }.go pc

section moves

variable [Siblings]

def ioctl (n : TestNet) (env : IoctlEnv) (cmd : Nat) (k : TestNet → Reply → TestNet) :
    Option TestNet :=
  (n.world.bond_do_ioctl env cmd).map fun r =>
    let m := { n with world := r.2.2 }
    if r.1 < 0 then m.exit else k m r.2.1

def test_step (n : TestNet) (env : IoctlEnv) : Option TestNet :=
  match n.test.pc with
  | .get_active => n.ioctl env SIOCBONDHOOLOCKGETACTIVE fun n reply =>
      { n with test := { n.test with act_slave := reply.slave_name } }.go .get_passive
  | .get_passive => n.ioctl env SIOCBONDHOOLOCKGETPASSIVE fun n reply =>
      { n with test := { n.test with pas_slave := reply.slave_name } }.go .prompt
  | .prompt => none
  | .connect_make =>
    some ({ n with command := some (make_cmd n.test.pas_slave) }.go .await_made)
  | .await_made => n.heard .bond_make
  | .bond_make => n.ioctl env SIOCBONDHOOLOCKMAKE fun n _ => n.go .connect_break
  | .connect_break =>
    some ({ n with command := some (test_break_cmd n.test.act_slave) }.go .await_broken)
  | .await_broken => n.heard .bond_break
  | .bond_break => n.ioctl env SIOCBONDHOOLOCKBREAK fun n _ =>
      { n with test := { n.test with iterations := n.test.iterations + 1 } }.go .get_active

def can_fail : TestPc → Bool
  | .get_active | .get_passive | .connect_make | .bond_make | .connect_break | .bond_break => true
  | _ => false

def step (n : TestNet) : TestMove → Option TestNet
  | .test env => if n.test.exited then none else n.test_step env
  | .fails => if !n.test.exited ∧ can_fail n.test.pc then some n.exit else none
  | .key => if !n.test.exited ∧ n.test.pc = .prompt then some (n.go .connect_make) else none
  | .plumber pid =>
    if n.procs.may_fork pid then
      n.command.map fun buffer =>
        let r := n.plumber.serve n.procs buffer pid
        { n with plumber := r.1, procs := r.2, command := none, answer := some Plumber.answer }
    else none
  | .bond e =>
    (n.world.step e).bind fun world =>
      if world.line_up = n.world.line_up then some { n with world } else none

end moves

def start (w : World) (p : Plumber) (procs : Procs) : TestNet :=
  { world := w, test := ⟨.get_active, false, [], [], 0⟩, plumber := p, procs
    command := none, answer := none }

def up (n : TestNet) (i : Bool) : Prop := n.plumber.up n.procs i

def Exact (n : TestNet) : Prop :=
  ∀ i, n.up i ↔ ∃ t, n.world.bond.curr_active_slave = some t ∧ (n.world.slave_dev t).name = eth i

def Both (n : TestNet) : Prop := ∀ i, n.up i

/-- The pipe of the active slave is up, and after a handover the other one too. -/
def Left (n : TestNet) (a : Bool) : Prop := n.up a ∧ (0 < n.test.iterations → n.Both)

def Silent (n : TestNet) : Prop := n.command = none ∧ n.answer = none

def Asked (n : TestNet) (cmd : List Char) : Prop := n.command = some cmd ∧ n.answer = none

def Answered (n : TestNet) : Prop := n.command = none ∧ n.answer.isSome = true

/-- What holds at each point of the test program, `a` the interface of the active slave. -/
def Stage (n : TestNet) (a : Bool) : Prop :=
  match n.test.pc with
  | .get_active => n.Silent ∧ n.Left a
  | .get_passive => n.Silent ∧ n.Left a ∧ n.test.act_slave = eth a
  | .prompt | .connect_make =>
    n.Silent ∧ n.Left a ∧ n.test.act_slave = eth a ∧ n.test.pas_slave = eth (!a)
  | .await_made =>
    n.test.act_slave = eth a ∧
      (n.Asked (Plumber.make_line (!a)) ∧ n.up a ∨ n.Answered ∧ n.Both)
  | .bond_make => n.Silent ∧ n.Both ∧ n.test.act_slave = eth a
  | .connect_break => n.Silent ∧ n.Both ∧ n.test.act_slave = eth (!a)
  | .await_broken => n.Both ∧ (n.Asked (test_break_cmd (eth (!a))) ∨ n.Answered)
  | .bond_break => n.Silent ∧ n.Both

structure Good (n : TestNet) (s : Bool → SlaveId) : Prop where
  pair : n.world.Pair s
  keeps : n.plumber.Keeps n.procs
  stage : ∃ a, n.world.bond.curr_active_slave = some (s a) ∧ n.Stage a

/-- The plumber takes no interface from a break of the test program. -/
theorem break_unaddressed (i : Bool) : Plumber.addressed (test_break_cmd (eth i)) = none := by
  cases i <;> decide

variable {n m : TestNet} {s : Bool → SlaveId}

theorem Good.go (h : n.Good s) (test : XmitTest) (command : Option (List Char))
    (answer : Option String)
    (hstage : ∀ a, n.Stage a → { n with test, command, answer }.Stage a) :
    { n with test, command, answer }.Good s := by
  obtain ⟨hpair, hkeeps, a, ha, hst⟩ := h
  exact ⟨hpair, hkeeps, a, ha, hstage a hst⟩

theorem Good.exit (h : n.Good s) : n.exit.Good s :=
  h.go { n.test with exited := true } n.command n.answer fun _ hst => hst

theorem Good.heard (h : n.Good s) {pc : TestPc} (hm : n.heard pc = some m)
    (hstage : ∀ a, n.answer.isSome = true → n.Stage a →
      ({ n with answer := none }.go pc).Stage a) : m.Good s := by
  unfold TestNet.heard at hm
  obtain ⟨x, hx, rfl⟩ := Option.map_eq_some_iff.mp hm
  have hans : n.answer.isSome = true := by rw [hx]; rfl
  exact h.go { n.test with pc } n.command none fun a hst => hstage a hans hst

section test

variable [Siblings]

theorem ioctl_ok {env : IoctlEnv} {cmd : Nat} {k : TestNet → Reply → TestNet} {reply : Reply}
    {w : World} (h : n.world.bond_do_ioctl env cmd = some (0, reply, w)) :
    n.ioctl env cmd k = some (k { n with world := w } reply) := by
  unfold ioctl
  rw [h]
  rfl

theorem Good.get_active (h : n.Good s) (hpc : n.test.pc = .get_active) {env : IoctlEnv}
    (hm : n.test_step env = some m) : m.Good s := by
  obtain ⟨hpair, hkeeps, a, hact, hst⟩ := h
  simp only [Stage, hpc] at hst
  simp only [test_step, hpc] at hm
  have hret := World.do_getactive n.world env
  rw [World.getactive_some hact] at hret
  rw [ioctl_ok hret] at hm
  cases hm
  exact ⟨hpair, hkeeps, a, hact, hst.1, hst.2, hpair.slave_name a⟩

theorem Good.get_passive (h : n.Good s) (hpc : n.test.pc = .get_passive) {env : IoctlEnv}
    (hm : n.test_step env = some m) : m.Good s := by
  obtain ⟨hpair, hkeeps, a, hact, hst⟩ := h
  simp only [Stage, hpc] at hst
  simp only [test_step, hpc] at hm
  have hret := World.do_getpassive n.world env
  rw [hpair.getpassive hact] at hret
  rw [ioctl_ok hret] at hm
  cases hm
  exact ⟨hpair, hkeeps, a, hact, hst.1, hst.2.1, hst.2.2, hpair.slave_name (!a)⟩

theorem Good.bond_make (h : n.Good s) (hpc : n.test.pc = .bond_make) {env : IoctlEnv}
    (hm : n.test_step env = some m) : m.Good s := by
  obtain ⟨hpair, hkeeps, a, hact, hst⟩ := h
  simp only [Stage, hpc] at hst
  simp only [test_step, hpc] at hm
  obtain ⟨hpair', hact', _⟩ := hpair.make hact
  rw [ioctl_ok (World.do_make n.world env)] at hm
  cases hm
  refine ⟨hpair', hkeeps, !a, hact', hst.1, hst.2.1, ?_⟩
  rw [Bool.not_not]
  exact hst.2.2

theorem Good.bond_break (h : n.Good s) (hpc : n.test.pc = .bond_break) {env : IoctlEnv}
    (hm : n.test_step env = some m) : m.Good s := by
  obtain ⟨hpair, hkeeps, a, hact, hst⟩ := h
  simp only [Stage, hpc] at hst
  simp only [test_step, hpc] at hm
  obtain ⟨hbrk, hpair'⟩ := hpair.brk env.pass
  have hret := World.do_break n.world env
  rw [hbrk] at hret
  rw [ioctl_ok hret] at hm
  cases hm
  exact ⟨hpair', hkeeps, a, hact, hst.1, hst.2 a, fun _ => hst.2⟩

theorem Good.test_step (h : n.Good s) {env : IoctlEnv} (hm : n.test_step env = some m) :
    m.Good s := by
  cases hpc : n.test.pc with
  | get_active => exact h.get_active hpc hm
  | get_passive => exact h.get_passive hpc hm
  | bond_make => exact h.bond_make hpc hm
  | bond_break => exact h.bond_break hpc hm
  | prompt =>
    simp only [TestNet.test_step, hpc] at hm
    cases hm
  | connect_make =>
    simp only [TestNet.test_step, hpc] at hm
    cases hm
    refine h.go { n.test with pc := .await_made } (some (make_cmd n.test.pas_slave)) n.answer
      fun a hst => ?_
    simp only [Stage, hpc] at hst
    refine ⟨hst.2.2.1, Or.inl ⟨⟨?_, hst.1.2⟩, hst.2.1.1⟩⟩
    dsimp only
    rw [hst.2.2.2, Net.make_cmd_eth]
  | connect_break =>
    simp only [TestNet.test_step, hpc] at hm
    cases hm
    refine h.go { n.test with pc := .await_broken } (some (test_break_cmd n.test.act_slave))
      n.answer fun a hst => ?_
    simp only [Stage, hpc] at hst
    refine ⟨hst.2.1, Or.inl ⟨?_, hst.1.2⟩⟩
    dsimp only
    rw [hst.2.2]
  | await_made =>
    simp only [TestNet.test_step, hpc] at hm
    refine h.heard hm fun a hans hst => ?_
    simp only [Stage, hpc] at hst
    obtain ⟨hname, ⟨hasked, _⟩ | ⟨hanswered, hboth⟩⟩ := hst
    · rw [hasked.2] at hans
      cases hans
    · exact ⟨⟨hanswered.1, rfl⟩, hboth, hname⟩
  | await_broken =>
    simp only [TestNet.test_step, hpc] at hm
    refine h.heard hm fun a hans hst => ?_
    simp only [Stage, hpc] at hst
    obtain ⟨hboth, hasked | hanswered⟩ := hst
    · rw [hasked.2] at hans
      cases hans
    · exact ⟨⟨hanswered.1, rfl⟩, hboth⟩

omit [Siblings] in
theorem Stage.awaits {a : Bool} (h : n.Stage a) {cmd : List Char} (hc : n.command = some cmd) :
    n.test.pc = .await_made ∨ n.test.pc = .await_broken := by
  cases hpc : n.test.pc with
  | await_made => exact Or.inl rfl
  | await_broken => exact Or.inr rfl
  | _ =>
    simp only [Stage, hpc] at h
    rw [h.1.1] at hc
    cases hc

theorem Good.plumber (h : n.Good s) {pid : Int} (hpid : 0 < pid)
    (hm : n.step (.plumber pid) = some m) : m.Good s := by
  obtain ⟨hpair, hkeeps, a, hact, hst⟩ := h
  simp only [step] at hm
  split at hm
  · rename_i hfork
    obtain ⟨cmd, hcmd, rfl⟩ := Option.map_eq_some_iff.mp hm
    rcases hst.awaits hcmd with hpc | hpc
    · simp only [Stage, hpc] at hst
      obtain ⟨hname, ⟨hasked, hup⟩ | ⟨hanswered, _⟩⟩ := hst
      · obtain rfl : Plumber.make_line (!a) = cmd := Option.some.inj (hasked.1.symm.trans hcmd)
        obtain ⟨hkeeps', _, hother⟩ := hkeeps.make hfork rfl
        have hmade := hkeeps.make_up hfork hpid (i := !a) rfl
        refine ⟨hpair, hkeeps', a, hact, ?_⟩
        simp only [Stage, hpc]
        refine ⟨hname, Or.inr ⟨⟨rfl, rfl⟩, fun i => ?_⟩⟩
        by_cases hi : i = !a
        · rw [hi]
          exact hmade
        · have hia : i = a := by
            cases i <;> cases a <;> simp_all
          rw [hia]
          exact (hother a (by simp)).1.mpr hup
      · rw [hanswered.1] at hcmd
        cases hcmd
    · simp only [Stage, hpc] at hst
      obtain ⟨hboth, hasked | hanswered⟩ := hst
      · obtain rfl : test_break_cmd (eth (!a)) = cmd :=
          Option.some.inj (hasked.1.symm.trans hcmd)
        rw [n.plumber.serve_unaddressed n.procs pid (break_unaddressed (!a))]
        refine ⟨hpair, hkeeps, a, hact, ?_⟩
        simp only [Stage, hpc]
        exact ⟨hboth, Or.inr ⟨rfl, rfl⟩⟩
      · rw [hanswered.1] at hcmd
        cases hcmd
  · cases hm

theorem Good.key (h : n.Good s) (hm : n.step .key = some m) : m.Good s := by
  simp only [step] at hm
  split at hm
  · rename_i hcond
    cases hm
    have hpc := hcond.2
    refine h.go { n.test with pc := .connect_make } n.command n.answer fun a hst => ?_
    simp only [Stage, hpc] at hst
    exact hst
  · cases hm

theorem Good.bond (h : n.Good s) {e : Event} (hm : n.step (.bond e) = some m) : m.Good s := by
  obtain ⟨hpair, hkeeps, a, hact, hst⟩ := h
  simp only [step] at hm
  obtain ⟨w, hw, hm⟩ := Option.bind_eq_some_iff.mp hm
  split at hm
  · rename_i hline
    cases hm
    obtain ⟨hpair', hsame⟩ := hpair.step_beside hw hline
    exact ⟨hpair', hkeeps, a, hsame.trans hact, hst⟩
  · cases hm

theorem Good.step (h : n.Good s) {move : TestMove} (hm : n.step move = some m)
    (hfork : ∀ pid, move = .plumber pid → 0 < pid) : m.Good s := by
  cases move with
  | test env =>
    simp only [TestNet.step] at hm
    split at hm
    · cases hm
    · exact h.test_step hm
  | fails =>
    simp only [TestNet.step] at hm
    split at hm
    · cases hm
      exact h.exit
    · cases hm
  | key => exact h.key hm
  | plumber pid => exact h.plumber (hfork pid rfl) hm
  | bond e => exact h.bond hm

theorem run_good {moves : List TestMove} (hrun : Transition.run step n moves = some m)
    (h : n.Good s) (hfork : ∀ pid, .plumber pid ∈ moves → 0 < pid) : m.Good s := by
  have halong : Transition.Along (fun _ move => ∀ pid, move = .plumber pid → 0 < pid) step n
      moves := by
    refine Transition.along_of_mem (fun move hmem _ pid hpid => ?_) n
    rw [hpid] at hmem
    exact hfork pid hmem
  exact Transition.run_invariant_along (Good · s) (fun _ _ _ hg hc hstep => hg.step hstep hc)
    hrun halong h

end test

theorem start_good {w : World} {p : Plumber} {procs : Procs} (hpair : w.Pair s)
    (hkeeps : p.Keeps procs) {t : SlaveId} (hact : w.bond.curr_active_slave = some t)
    (hexact : (start w p procs).Exact) : (start w p procs).Good s := by
  obtain ⟨a, rfl⟩ := hpair.active hact
  have hup : (start w p procs).up a := (hexact a).mpr ⟨s a, hact, hpair.name a⟩
  exact ⟨hpair, hkeeps, a, hact, ⟨rfl, rfl⟩, hup, fun hpos => absurd hpos (Nat.lt_irrefl 0)⟩

theorem Good.not_exact (h : n.Good s) (hboth : n.Both) : ¬ n.Exact := by
  intro hexact
  obtain ⟨a, hact, _⟩ := h.stage
  obtain ⟨t, ht, hname⟩ := (hexact (!a)).mp (hboth (!a))
  rw [hact] at ht
  obtain rfl : s a = t := Option.some.inj ht
  rw [h.pair.name] at hname
  have hsame := eth_injective hname
  cases a <;> cases hsame

/-- In every run of the test program, a plumber that is not in hard mode and whose forks
succeed, and a bond with the slaves eth0 and eth1, started with the pipe of the active slave
only: after each iteration both pipes are up, so never exactly that of the active slave, and
no break it can send names an interface to the plumber. -/
theorem handover_never_exact [Siblings] {machine w : World} {bond_dev : DevId}
    (h : machine.Host bond_dev) {params : Params} (hm : params.mode = .hoolock)
    {before : List Event}
    (hw : Transition.run World.step (machine.bond_init bond_dev params) before = some w)
    (hnames : (w.bond_for_each_slave.map fun s => (w.slave_dev s).name).Perm [eth0, eth1])
    {p : Plumber} {procs : Procs} (hkeeps : p.Keeps procs) {t : SlaveId}
    (hact : w.bond.curr_active_slave = some t) (hexact : (start w p procs).Exact)
    {moves : List TestMove} {n : TestNet}
    (hn : Transition.run step (start w p procs) moves = some n)
    (hfork : ∀ pid, .plumber pid ∈ moves → 0 < pid) (hpc : n.test.pc = .get_active)
    (hiter : 0 < n.test.iterations) :
    ¬ n.Exact ∧ n.Both ∧ ∀ i, Plumber.addressed (test_break_cmd (eth i)) = none := by
  obtain ⟨l, hi⟩ := h.run_inv hm hw
  obtain ⟨s, hpair⟩ := hi.pair hnames
  have hgood := run_good hn (start_good hpair hkeeps hact hexact) hfork
  have hboth : n.Both := by
    obtain ⟨a, _, hst⟩ := hgood.stage
    simp only [Stage, hpc] at hst
    exact hst.2.2 hiter
  exact ⟨hgood.not_exact hboth, hboth, break_unaddressed⟩

end TestNet

def test_plumber : Plumber := ⟨false, false, 100, -1⟩

def test_procs : Procs := Procs.none_running.fork false 100 ⟨0, 0, false⟩

def test_handover : List TestMove :=
  [.test .plain, .test .plain, .key, .test .plain, .plumber 101, .test .plain, .test .plain,
    .test .plain, .plumber 102, .test .plain, .test .plain]

theorem test_keeps : test_plumber.Keeps test_procs :=
  (Plumber.keeps_none false).forked (i := false) (by decide) (by decide)

theorem carded_active {w : World} (h : carded = some w) :
    w.bond.curr_active_slave = some 0 ∧ (w.slave_dev 0).name = eth false := by
  have hall : carded.all (fun w => decide
      (w.bond.curr_active_slave = some 0 ∧ (w.slave_dev 0).name = eth false)) = true := by
    decide +kernel
  rw [h] at hall
  exact of_decide_eq_true hall

theorem carded_exact {w : World} (h : carded = some w) :
    (TestNet.start w test_plumber test_procs).Exact := by
  obtain ⟨hact, hname⟩ := carded_active h
  intro i
  have hup : (TestNet.start w test_plumber test_procs).up i ↔ 0 < test_plumber.pid i :=
    test_keeps.up_iff i
  have hactive : (∃ t, w.bond.curr_active_slave = some t ∧ (w.slave_dev t).name = eth i) ↔
      i = false := by
    rw [hact]
    constructor
    · rintro ⟨t, ht, hi⟩
      cases ht
      exact eth_injective (hi.symm.trans hname)
    · rintro rfl
      exact ⟨0, rfl, hname⟩
  rw [hup]
  refine Iff.trans ?_ hactive.symm
  cases i <;> decide

def handed_over : Option (World × TestNet) :=
  carded.bind fun w => (Transition.run (@TestNet.step noSiblings)
    (TestNet.start w test_plumber test_procs) test_handover).map fun n => (w, n)

theorem handed_over_some {w : World} {n : TestNet} (h : handed_over = some (w, n)) :
    carded = some w ∧ Transition.run (@TestNet.step noSiblings)
      (TestNet.start w test_plumber test_procs) test_handover = some n := by
  unfold handed_over at h
  obtain ⟨w', hw, h⟩ := Option.bind_eq_some_iff.mp h
  obtain ⟨n', hn, heq⟩ := Option.map_eq_some_iff.mp h
  cases heq
  exact ⟨hw, hn⟩

theorem both_after_handover :
    ∃ w n, handed_over = some (w, n) ∧ n.test.iterations = 1 ∧ ¬ n.Exact ∧ n.Both ∧
      ∀ i, Plumber.addressed (test_break_cmd (eth i)) = none := by
  have hrun : handed_over.any (fun r => decide
      (r.2.test.pc = .get_active ∧ r.2.test.iterations = 1)) = true := by
    decide +kernel
  obtain ⟨⟨w, n⟩, hr, hfacts⟩ := (Option.any_eq_true _ _).mp hrun
  obtain ⟨hpc, hiter⟩ := of_decide_eq_true hfacts
  have hpos : 0 < n.test.iterations := lt_of_lt_of_eq Nat.one_pos hiter.symm
  obtain ⟨hw, hn⟩ := handed_over_some hr
  refine ⟨w, n, hr, hiter, ?_⟩
  refine @TestNet.handover_never_exact noSiblings machine w 0 machine_host hoolock_params rfl
    two_slaves hw (carded_names hw) test_plumber test_procs test_keeps 0 (carded_active hw).1
    (carded_exact hw) test_handover n hn (fun pid hpid => ?_) hpc hpos
  simp [test_handover] at hpid
  omega

/-- The bond has moved to eth1, both commands were answered, and the pipe of eth0 is up. -/
theorem old_pipe_stays_up :
    ∃ w n, carded = some w ∧ Transition.run (@TestNet.step noSiblings)
        (TestNet.start w test_plumber test_procs) test_handover = some n ∧
      test_plumber.Keeps test_procs ∧ (TestNet.start w test_plumber test_procs).Exact ∧
      n.test.pc = .get_active ∧ n.test.iterations = 1 ∧
      n.world.bond.curr_active_slave = some 1 ∧ (n.world.slave_dev 1).name = eth true ∧
      n.up false ∧ ¬ n.Exact := by
  have hrun : handed_over.any (fun r => decide
      (r.2.test.pc = .get_active ∧ r.2.test.iterations = 1 ∧
        r.2.world.bond.curr_active_slave = some 1 ∧ (r.2.world.slave_dev 1).name = eth true ∧
        r.2.procs.running 100 = some (r.2.plumber.pipe false))) = true := by
    decide +kernel
  obtain ⟨⟨w, n⟩, hr, hfacts⟩ := (Option.any_eq_true _ _).mp hrun
  obtain ⟨hpc, hiter, hact, hname, hrunning⟩ := of_decide_eq_true hfacts
  obtain ⟨hw, hn⟩ := handed_over_some hr
  have hup : n.up false := ⟨100, hrunning⟩
  refine ⟨w, n, hw, hn, test_keeps, carded_exact hw, hpc, hiter, hact, hname, hup, ?_⟩
  intro hexact
  obtain ⟨t, ht, hwrong⟩ := (hexact false).mp hup
  rw [hact] at ht
  cases ht
  rw [hname] at hwrong
  cases eth_injective hwrong

end Hoolock
