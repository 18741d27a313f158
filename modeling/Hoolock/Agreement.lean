import Hoolock.TwoCards

/-!
What client, plumber and bond agree on at each point of the client, whatever fails.
-/

set_option autoImplicit false

namespace Hoolock

namespace Net

def up (n : Net) (i : Bool) : Prop := n.plumber.up n.procs i

/-- The pipe is up, or the last `fork` for it failed. -/
def Ok (n : Net) (i : Bool) : Prop := n.up i ∨ n.procs.failed i = true

def NoneUp (n : Net) : Prop := ∀ i, ¬ n.up i

def One (n : Net) (a : Bool) : Prop := n.Ok a ∧ ¬ n.up (!a)

def Both (n : Net) : Prop := ∀ i, n.Ok i

def Silent (n : Net) : Prop := n.command = none ∧ n.answer = none

def Asked (n : Net) (cmd : List Char) : Prop := n.command = some cmd ∧ n.answer = none

def Answered (n : Net) : Prop := n.command = none ∧ n.answer.isSome = true

/-- What holds at each point of the client, `a` the interface of the active slave. -/
def Stage (n : Net) (a : Bool) : Prop :=
  match n.client.pc with
  | .get_active_first => n.Silent ∧ n.NoneUp
  | .connect_first => n.Silent ∧ n.NoneUp ∧ n.client.act_slave = eth a
  | .await_first => n.Asked (Plumber.make_line a) ∧ n.NoneUp ∨ n.Answered ∧ n.One a
  | .loop_head | .get_active => n.Silent ∧ n.One a
  | .get_passive => n.Silent ∧ n.One a ∧ n.client.act_slave = eth a
  | .prompt | .make_req | .make_ack | .connect_make =>
    n.Silent ∧ n.One a ∧ n.client.act_slave = eth a ∧ n.client.pas_slave = eth (!a)
  | .await_made =>
    n.client.act_slave = eth a ∧
      (n.Asked (Plumber.make_line (!a)) ∧ n.One a ∨ n.Answered ∧ n.Both)
  | .bond_make => n.Silent ∧ n.Both ∧ n.client.act_slave = eth a
  | .break_req | .break_ack | .bond_break | .connect_break =>
    n.Silent ∧ n.Both ∧ n.client.act_slave = eth (!a)
  | .await_broken => n.Asked (Plumber.break_line (!a)) ∧ n.Both ∨ n.Answered ∧ n.One a
  | .kill_iperf => n.Silent ∧ n.One a

end Net

def Pc.in_handover : Pc → Bool
  | .break_req | .break_ack | .bond_break => true
  | _ => false

namespace Net

/-- The flag is set in the handover; before the first it is as found, `z`. -/
def Flag (n : Net) (z : Int) : Prop :=
  if n.client.pc.in_handover then n.world.bond.buffer_mode = 1
  else n.world.bond.buffer_mode = 0 ∨ n.world.bond.buffer_mode = z

/-- The invariant of the composition; `alone` says that nobody else calls MAKE or BREAK. -/
structure Good (n : Net) (s : Bool → SlaveId) (alone : Prop) (z : Int) : Prop where
  pair : n.world.Pair s
  keeps : n.plumber.Keeps n.procs
  flag : alone → n.Flag z
  stage : ∃ a, (n.client.pc ≠ .get_active_first →
    n.world.bond.curr_active_slave = some (s a)) ∧ n.Stage a

theorem make_cmd_eth (i : Bool) : make_cmd (eth i) = Plumber.make_line i := by
  cases i <;> decide

theorem break_cmd_eth (i : Bool) : break_cmd (eth i) = Plumber.break_line i := by
  cases i <;> decide

variable {s : Bool → SlaveId} {alone : Prop} {z : Int} {n m : Net}

theorem Good.exit (h : n.Good s alone z) : n.exit.Good s alone z := by
  obtain ⟨hpair, hkeeps, hflag, hstage⟩ := h
  exact ⟨hpair, hkeeps, hflag, hstage⟩

theorem Good.go (h : n.Good s alone z) (client : Client) (command : Option (List Char))
    (answer : Option String) (request : Option Int)
    (hflag : client.pc.in_handover = n.client.pc.in_handover)
    (hpc : n.client.pc ≠ .get_active_first)
    (hstage : ∀ a, n.Stage a → { n with client, command, answer, request }.Stage a) :
    { n with client, command, answer, request }.Good s alone z := by
  obtain ⟨hpair, hkeeps, hold, a, ha, hst⟩ := h
  refine ⟨hpair, hkeeps, fun hal => ?_, a, fun _ => ha hpc, hstage a hst⟩
  have hkept := hold hal
  unfold Flag at hkept ⊢
  dsimp only
  rw [hflag]
  exact hkept

theorem heard_some {pc : Pc} (h : n.heard pc = some m) :
    n.answer.isSome = true ∧ m = { n with answer := none }.go pc := by
  unfold heard at h
  obtain ⟨x, hx, rfl⟩ := Option.map_eq_some_iff.mp h
  exact ⟨by rw [hx]; rfl, rfl⟩

theorem Good.heard (h : n.Good s alone z) {pc : Pc} (hm : n.heard pc = some m)
    (hflag : pc.in_handover = n.client.pc.in_handover) (hpc : n.client.pc ≠ .get_active_first)
    (hstage : ∀ a, n.answer.isSome = true → n.Stage a → ({ n with answer := none }.go pc).Stage a) :
    m.Good s alone z := by
  obtain ⟨hans, rfl⟩ := heard_some hm
  exact h.go { n.client with pc } n.command none n.request hflag hpc
    fun a ha => hstage a hans ha

section client

variable [Siblings]

theorem ioctl_ok {env : IoctlEnv} {cmd : Nat} {k : Net → Reply → Net} {reply : Reply}
    {w : World} (h : n.world.bond_do_ioctl env cmd = some (0, reply, w)) :
    n.ioctl env cmd k = some (k { n with world := w } reply) := by
  unfold ioctl
  rw [h]
  rfl

theorem ioctl_err {env : IoctlEnv} {cmd : Nat} {k : Net → Reply → Net} {r : Int} {reply : Reply}
    {w : World} (h : n.world.bond_do_ioctl env cmd = some (r, reply, w)) (hr : r < 0) :
    n.ioctl env cmd k = some ({ n with world := w }.exit) := by
  unfold ioctl
  rw [h]
  exact congrArg some (if_pos hr)

theorem Good.get_active_first (h : n.Good s alone z) (hpc : n.client.pc = .get_active_first)
    {env : IoctlEnv} (hm : n.client_step env = some m) : m.Good s alone z := by
  obtain ⟨hpair, hkeeps, hflag, b, _, hfirst⟩ := h
  have hst := hfirst
  simp only [Stage, hpc] at hst
  simp only [client_step, hpc] at hm
  cases hact : n.world.bond.curr_active_slave with
  | none =>
    have hret := World.do_getactive n.world env
    rw [World.getactive_none hact] at hret
    rw [ioctl_err hret (by decide)] at hm
    cases hm
    obtain ⟨⟨l, hi, hl⟩, hname⟩ := hpair
    refine ⟨⟨⟨l, (hi.lock .bond .read).lock .curr_slave .read, hl⟩, hname⟩, hkeeps, hflag, b,
      fun hne => absurd hpc hne, hfirst⟩
  | some t =>
    obtain ⟨a, rfl⟩ := hpair.active hact
    have hret := World.do_getactive n.world env
    rw [World.getactive_some hact] at hret
    rw [ioctl_ok hret] at hm
    cases hm
    unfold Flag at hflag
    rw [hpc] at hflag
    refine ⟨hpair, hkeeps, hflag, a, fun _ => hact, ?_⟩
    exact ⟨hst.1, hst.2, hpair.slave_name a⟩

theorem Good.get_active (h : n.Good s alone z) (hpc : n.client.pc = .get_active)
    {env : IoctlEnv} (hm : n.client_step env = some m) : m.Good s alone z := by
  obtain ⟨hpair, hkeeps, hflag, a, hact, hst⟩ := h
  have hact := hact (by simp [hpc])
  simp only [Stage, hpc] at hst
  simp only [client_step, hpc] at hm
  have hret := World.do_getactive n.world env
  rw [World.getactive_some hact] at hret
  rw [ioctl_ok hret] at hm
  cases hm
  unfold Flag at hflag
  rw [hpc] at hflag
  exact ⟨hpair, hkeeps, hflag, a, fun _ => hact, hst.1, hst.2, hpair.slave_name a⟩

theorem Good.get_passive (h : n.Good s alone z) (hpc : n.client.pc = .get_passive)
    {env : IoctlEnv} (hm : n.client_step env = some m) : m.Good s alone z := by
  obtain ⟨hpair, hkeeps, hflag, a, hact, hst⟩ := h
  have hact := hact (by simp [hpc])
  simp only [Stage, hpc] at hst
  simp only [client_step, hpc] at hm
  have hret := World.do_getpassive n.world env
  rw [hpair.getpassive hact] at hret
  rw [ioctl_ok hret] at hm
  cases hm
  unfold Flag at hflag
  rw [hpc] at hflag
  exact ⟨hpair, hkeeps, hflag, a, fun _ => hact, hst.1, hst.2.1, hst.2.2,
    hpair.slave_name (!a)⟩

/-- MAKE moves the active slave to the interface whose pipe has just been asked for. -/
theorem Good.bond_make (h : n.Good s alone z) (hpc : n.client.pc = .bond_make)
    {env : IoctlEnv} (hm : n.client_step env = some m) : m.Good s alone z := by
  obtain ⟨hpair, hkeeps, _, a, hact, hst⟩ := h
  have hact := hact (by simp [hpc])
  simp only [Stage, hpc] at hst
  simp only [client_step, hpc] at hm
  obtain ⟨hpair', hact', hmode⟩ := hpair.make hact
  rw [ioctl_ok (World.do_make n.world env)] at hm
  cases hm
  refine ⟨hpair', hkeeps, fun _ => hmode, !a, fun _ => hact', hst.1, hst.2.1, ?_⟩
  rw [Bool.not_not]
  exact hst.2.2

theorem Good.bond_break (h : n.Good s alone z) (hpc : n.client.pc = .bond_break)
    {env : IoctlEnv} (hm : n.client_step env = some m) : m.Good s alone z := by
  obtain ⟨hpair, hkeeps, _, a, hact, hst⟩ := h
  have hact := hact (by simp [hpc])
  simp only [Stage, hpc] at hst
  simp only [client_step, hpc] at hm
  obtain ⟨hbrk, hpair'⟩ := hpair.brk env.pass
  have hret := World.do_break n.world env
  rw [hbrk] at hret
  rw [ioctl_ok hret] at hm
  cases hm
  exact ⟨hpair', hkeeps, fun _ => Or.inl rfl, a, fun _ => hact, hst⟩

theorem Good.client_step (h : n.Good s alone z) {env : IoctlEnv}
    (hm : n.client_step env = some m) : m.Good s alone z := by
  cases hpc : n.client.pc with
  | get_active_first => exact h.get_active_first hpc hm
  | get_active => exact h.get_active hpc hm
  | get_passive => exact h.get_passive hpc hm
  | bond_make => exact h.bond_make hpc hm
  | bond_break => exact h.bond_break hpc hm
  | prompt =>
    simp only [Net.client_step, hpc] at hm
    cases hm
  | make_ack =>
    simp only [Net.client_step, hpc] at hm
    cases hm
  | break_ack =>
    simp only [Net.client_step, hpc] at hm
    cases hm
  | connect_first =>
    simp only [Net.client_step, hpc] at hm
    cases hm
    refine h.go { n.client with pc := .await_first } (some (make_cmd n.client.act_slave))
      n.answer n.request (by rw [hpc]; rfl) (by simp [hpc]) fun a hst => ?_
    simp only [Stage, hpc] at hst
    refine Or.inl ⟨⟨?_, hst.1.2⟩, hst.2.1⟩
    dsimp only
    rw [hst.2.2, make_cmd_eth]
  | connect_make =>
    simp only [Net.client_step, hpc] at hm
    cases hm
    refine h.go { n.client with pc := .await_made } (some (make_cmd n.client.pas_slave))
      n.answer n.request (by rw [hpc]; rfl) (by simp [hpc]) fun a hst => ?_
    simp only [Stage, hpc] at hst
    refine ⟨hst.2.2.1, Or.inl ⟨⟨?_, hst.1.2⟩, hst.2.1⟩⟩
    dsimp only
    rw [hst.2.2.2, make_cmd_eth]
  | connect_break =>
    simp only [Net.client_step, hpc] at hm
    cases hm
    refine h.go { n.client with pc := .await_broken } (some (break_cmd n.client.act_slave))
      n.answer n.request (by rw [hpc]; rfl) (by simp [hpc]) fun a hst => ?_
    simp only [Stage, hpc] at hst
    refine Or.inl ⟨⟨?_, hst.1.2⟩, hst.2.1⟩
    dsimp only
    rw [hst.2.2, break_cmd_eth]
  | loop_head =>
    simp only [Net.client_step, hpc] at hm
    cases hm
    refine h.go { n.client with pc := .get_active } n.command n.answer n.request
      (by rw [hpc]; rfl) (by simp [hpc]) fun a hst => ?_
    simp only [Stage, hpc] at hst
    exact hst
  | kill_iperf =>
    simp only [Net.client_step, hpc] at hm
    cases hm
    refine h.go { n.client with pc := .loop_head } n.command n.answer n.request
      (by rw [hpc]; rfl) (by simp [hpc]) fun a hst => ?_
    simp only [Stage, hpc] at hst
    exact hst
  | make_req =>
    simp only [Net.client_step, hpc] at hm
    cases hm
    refine h.go { n.client with pc := .make_ack } n.command n.answer (some MAKE_REQ)
      (by rw [hpc]; rfl) (by simp [hpc]) fun a hst => ?_
    simp only [Stage, hpc] at hst
    exact hst
  | break_req =>
    simp only [Net.client_step, hpc] at hm
    cases hm
    refine h.go { n.client with pc := .break_ack } n.command n.answer (some BREAK_REQ)
      (by rw [hpc]; rfl) (by simp [hpc]) fun a hst => ?_
    simp only [Stage, hpc] at hst
    exact hst
  | await_first =>
    simp only [Net.client_step, hpc] at hm
    refine h.heard hm (by rw [hpc]; rfl) (by simp [hpc]) fun a hans hst => ?_
    simp only [Stage, hpc] at hst
    rcases hst with ⟨hasked, _⟩ | ⟨hanswered, hone⟩
    · rw [hasked.2] at hans
      cases hans
    · exact ⟨⟨hanswered.1, rfl⟩, hone⟩
  | await_made =>
    simp only [Net.client_step, hpc] at hm
    refine h.heard hm (by rw [hpc]; rfl) (by simp [hpc]) fun a hans hst => ?_
    simp only [Stage, hpc] at hst
    obtain ⟨hname, ⟨hasked, _⟩ | ⟨hanswered, hboth⟩⟩ := hst
    · rw [hasked.2] at hans
      cases hans
    · exact ⟨⟨hanswered.1, rfl⟩, hboth, hname⟩
  | await_broken =>
    simp only [Net.client_step, hpc] at hm
    refine h.heard hm (by rw [hpc]; rfl) (by simp [hpc]) fun a hans hst => ?_
    simp only [Stage, hpc] at hst
    rcases hst with ⟨hasked, _⟩ | ⟨hanswered, hone⟩
    · rw [hasked.2] at hans
      cases hans
    · exact ⟨⟨hanswered.1, rfl⟩, hone⟩

omit [Siblings] in
theorem Stage.awaits {a : Bool} (h : n.Stage a) {cmd : List Char} (hc : n.command = some cmd) :
    n.client.pc = .await_first ∨ n.client.pc = .await_made ∨ n.client.pc = .await_broken := by
  cases hpc : n.client.pc with
  | await_first => exact Or.inl rfl
  | await_made => exact Or.inr (Or.inl rfl)
  | await_broken => exact Or.inr (Or.inr rfl)
  | _ =>
    simp only [Stage, hpc] at h
    rw [h.1.1] at hc
    cases hc

theorem Good.plumber (h : n.Good s alone z) {pid : Int} (hm : n.step (.plumber pid) = some m) :
    m.Good s alone z := by
  obtain ⟨hpair, hkeeps, hflag, a, hact, hst⟩ := h
  simp only [step] at hm
  split at hm
  · rename_i hfork
    obtain ⟨cmd, hcmd, rfl⟩ := Option.map_eq_some_iff.mp hm
    rcases hst.awaits hcmd with hpc | hpc | hpc
    · simp only [Stage, hpc] at hst
      rcases hst with ⟨hasked, hnone⟩ | ⟨hanswered, _⟩
      · obtain rfl : Plumber.make_line a = cmd := Option.some.inj (hasked.1.symm.trans hcmd)
        obtain ⟨hkeeps', hok, hother⟩ := hkeeps.make hfork rfl
        refine ⟨hpair, hkeeps', hflag, a, hact, ?_⟩
        simp only [Stage, hpc]
        refine Or.inr ⟨⟨rfl, rfl⟩, hok, ?_⟩
        exact fun hup => hnone _ ((hother (!a) (by simp)).1.mp hup)
      · rw [hanswered.1] at hcmd
        cases hcmd
    · simp only [Stage, hpc] at hst
      obtain ⟨hname, ⟨hasked, hone⟩ | ⟨hanswered, _⟩⟩ := hst
      · obtain rfl : Plumber.make_line (!a) = cmd := Option.some.inj (hasked.1.symm.trans hcmd)
        obtain ⟨hkeeps', hok, hother⟩ := hkeeps.make hfork rfl
        refine ⟨hpair, hkeeps', hflag, a, hact, ?_⟩
        simp only [Stage, hpc]
        refine ⟨hname, Or.inr ⟨⟨rfl, rfl⟩, fun i => ?_⟩⟩
        by_cases hi : i = !a
        · rw [hi]
          exact hok
        · have hia : i = a := by
            cases i <;> cases a <;> simp_all
          obtain ⟨hup, hfailed⟩ := hother i hi
          rw [hia] at hup hfailed
          rw [hia]
          exact hone.1.imp hup.mpr fun hf => hfailed.trans hf
      · rw [hanswered.1] at hcmd
        cases hcmd
    · simp only [Stage, hpc] at hst
      rcases hst with ⟨hasked, hboth⟩ | ⟨hanswered, _⟩
      · obtain rfl : Plumber.break_line (!a) = cmd := Option.some.inj (hasked.1.symm.trans hcmd)
        obtain ⟨hkeeps', hdown, hother, hfailed⟩ := hkeeps.break rfl
        refine ⟨hpair, hkeeps', hflag, a, hact, ?_⟩
        simp only [Stage, hpc]
        refine Or.inr ⟨⟨rfl, rfl⟩, ?_, hdown⟩
        exact (hboth a).imp (hother a (by simp)).mpr fun hf => (congrFun hfailed a).trans hf
      · rw [hanswered.1] at hcmd
        cases hcmd
  · cases hm

omit [Siblings] in
theorem Good.next (h : n.Good s alone z) (pc : Pc) (request : Option Int)
    (hflag : pc.in_handover = n.client.pc.in_handover) (hpc : n.client.pc ≠ .get_active_first)
    (hstage : ∀ a, n.Stage a → (n.go pc).Stage a) : ({ n with request }.go pc).Good s alone z :=
  h.go { n.client with pc } n.command n.answer request hflag hpc hstage

theorem Good.nox (h : n.Good s alone z) {cmd : Int} (hm : n.step (.nox cmd) = some m) :
    m.Good s alone z := by
  simp only [step] at hm
  split at hm
  · cases hm
  · obtain ⟨req, hreq, hm⟩ := Option.bind_eq_some_iff.mp hm
    have hexit : ({ n with request := none }.exit).Good s alone z := by
      obtain ⟨hpair, hkeeps, hflag, hstage⟩ := h
      exact ⟨hpair, hkeeps, hflag, hstage⟩
    split at hm
    · rename_i hpc
      cases hm
      split
      · exact hexit
      · refine h.next .connect_make none (by rw [hpc]; rfl) (by simp [hpc]) fun a hst => ?_
        simp only [Stage, hpc] at hst
        exact hst
    · rename_i hpc
      cases hm
      split
      · exact hexit
      · refine h.next .bond_break none (by rw [hpc]; rfl) (by simp [hpc]) fun a hst => ?_
        simp only [Stage, hpc] at hst
        exact hst
    · cases hm

theorem Good.key (h : n.Good s alone z) {c : Char} (hm : n.step (.key c) = some m) :
    m.Good s alone z := by
  simp only [step] at hm
  split at hm
  · rename_i hcond
    split at hm
    · cases hm
      exact h.exit
    · cases hm
      have hpc := hcond.2
      refine h.next .make_req n.request (by rw [hpc]; rfl) (by simp [hpc]) fun a hst => ?_
      simp only [Stage, hpc] at hst
      exact hst
  · cases hm

theorem Good.bond (h : n.Good s alone z) {e : Event} (hm : n.step (.bond e) = some m)
    (he : alone → e.handover_call = false) : m.Good s alone z := by
  obtain ⟨hpair, hkeeps, hflag, a, hact, hst⟩ := h
  simp only [step] at hm
  obtain ⟨w, hw, hm⟩ := Option.bind_eq_some_iff.mp hm
  split at hm
  · rename_i hline
    cases hm
    obtain ⟨hpair', hsame⟩ := hpair.step_beside hw hline
    refine ⟨hpair', hkeeps, fun hal => ?_, a, fun hpc => hsame.trans (hact hpc), hst⟩
    have hmode := World.step_latest hw
    rw [latest_of_other (he hal)] at hmode
    have hkept := hflag hal
    unfold Flag at hkept ⊢
    dsimp only
    rw [hmode]
    exact hkept
  · cases hm

theorem Good.step (h : n.Good s alone z) {move : Move} (hm : n.step move = some m)
    (hb : ∀ e, move = .bond e → alone → e.handover_call = false) : m.Good s alone z := by
  cases move with
  | client env =>
    simp only [Net.step] at hm
    split at hm
    · cases hm
    · exact h.client_step hm
  | fails =>
    simp only [Net.step] at hm
    split at hm
    · cases hm
      exact h.exit
    · cases hm
  | key c => exact h.key hm
  | plumber pid => exact h.plumber hm
  | nox cmd => exact h.nox hm
  | bond e => exact h.bond hm (hb e rfl)

omit [Siblings] in
theorem start_good (alone : Prop) {w : World} {l : List SlaveId} (h : w.Inv l)
    (hn : (w.bond_for_each_slave.map fun s => (w.slave_dev s).name).Perm [eth0, eth1])
    (is_lossy : Bool) : ∃ s, (start w is_lossy).Good s alone w.bond.buffer_mode := by
  obtain ⟨s, hpair⟩ := h.pair hn
  refine ⟨s, hpair, Plumber.keeps_none is_lossy, fun _ => Or.inr rfl, false,
    fun hpc => absurd rfl hpc, ⟨⟨rfl, rfl⟩, ?_⟩⟩
  rintro i ⟨k, hk⟩
  cases hk

theorem run_good {moves : List Move} (hrun : Transition.run step n moves = some m)
    (h : n.Good s alone z)
    (hb : ∀ e, .bond e ∈ moves → alone → e.handover_call = false) : m.Good s alone z := by
  have hbond : Transition.Along
      (fun _ move => ∀ e, move = .bond e → alone → e.handover_call = false) step n moves := by
    refine Transition.along_of_mem (fun move hmem _ e he => ?_) n
    rw [he] at hmem
    exact hb e hmem
  exact Transition.run_invariant_along (fun k => k.Good s alone z)
    (fun _ _ _ hk hmove hstep => hk.step hstep hmove) hrun hbond h

end client

end Net

end Hoolock
