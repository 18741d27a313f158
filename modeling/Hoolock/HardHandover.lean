import Hoolock.CommandQueue
import Hoolock.MakeBeforeBreak

/-!
The hard handover of `hard_client`, for comparison: break first, then make, with the plumber
and the bond.  The client goes on when a read fails, so several of its commands may be on
their way.
-/

set_option autoImplicit false

namespace Hoolock

open CommandQueue

inductive HardPc where
  | get_hwaddr | get_active | connect_first | await_first
  | start_prompt | connect_oh | fork_iperf | prompt
  | connect_break | await_broken | connect_make | await_made | kill_prompt | kill_iperf
  deriving DecidableEq

inductive HardCall where
  | fork (result : Int)
  | kill (pid : Int)

structure HardClient where
  pc : HardPc
  exited : Bool
  act_slave : List Char
  act_ch : Char
  pas_ch : Char
  iperf_pid : Int
  calls : List HardCall

/-- What `fork` may return: -1, or the number of a new process. -/
def HardClient.may_fork (client : HardClient) (pid : Int) : Bool :=
  pid == -1 || decide (0 < pid) && client.calls.all fun
    | .fork result => result != pid
    | .kill _ => true

structure HardNet where
  world : World
  client : HardClient
  server : PlumbServer
  /-- connections that the plumber has not accepted, with what was written to them -/
  commands : List (List Char)
  /-- the answer to the last of them -/
  answer : Option String

/-- One move of one of them.  `fails` is the failure of the connect or ioctl that the client
is about to make, `deaf` that of its read; `plumber` is the next connection, without what is
read from it if that fails. -/
inductive HardMove where
  | client (env : IoctlEnv)
  | fails
  | deaf
  | key (a : Char)
  | fork (pid : Int)
  | plumber (accepted read : Bool) (pid : Int) (written : Bool)
  | bond (e : Event)

/-- `strcpy` of a command and a character put over its last. -/
def make_ch (c : Char) : List Char := plumb_cmd ['m', 'a', 'k', 'e', ' ', 'x'] 5 [' ', ' ', ' ', c]

def break_ch (c : Char) : List Char :=
  plumb_cmd ['b', 'r', 'e', 'a', 'k', ' ', 'x'] 6 [' ', ' ', ' ', c]

/-- `'1' + '0' - c`, for a `char` of eight bits -/
def other_ch (c : Char) : Char := Char.ofNat ((97 + 256 - c.toNat % 256) % 256)

namespace HardNet

def go (n : HardNet) (pc : HardPc) : HardNet := { n with client := { n.client with pc } }

def exit (n : HardNet) : HardNet := { n with client := { n.client with exited := true } }

def tell (n : HardNet) (cmd : List Char) : HardNet :=
  { n with commands := n.commands ++ [cmd], answer := none }

def kill_iperf (n : HardNet) : HardNet :=
  { n with client := { n.client with calls := n.client.calls ++ [.kill n.client.iperf_pid] } }

/-- The read of the plumber's answer, which is not looked at, and what follows. -/
def heard (n : HardNet) : Option HardNet :=
  match n.client.pc with
  | .await_first =>
    some ({ n with client := { n.client with act_ch := n.client.act_slave.getD 3 '\x00' } }.go
      .start_prompt)
  | .await_broken => some (n.go .connect_make)
  | .await_made =>
    some ({ n with client := { n.client with act_ch := other_ch n.client.act_ch } }.go
      .kill_prompt)
  | _ => none

def can_fail : HardPc → Bool
  | .get_hwaddr | .get_active | .connect_first | .connect_oh | .connect_break
  | .connect_make => true
  | _ => false

section moves

variable [Siblings]

def client_step (n : HardNet) (env : IoctlEnv) : Option HardNet :=
  match n.client.pc with
  | .get_hwaddr => some (n.go .get_active)
  | .get_active =>
    (n.world.bond_do_ioctl env SIOCBONDHOOLOCKGETACTIVE).map fun r =>
      let m := { n with world := r.2.2 }
      if r.1 < 0 then m.exit
      else { m with client := { m.client with act_slave := r.2.1.slave_name } }.go .connect_first
  | .connect_first => some ((n.tell (make_cmd n.client.act_slave)).go .await_first)
  | .connect_oh => some (n.go .fork_iperf)
  | .connect_break => some ((n.tell (break_ch n.client.act_ch)).go .await_broken)
  | .connect_make => some ((n.tell (make_ch n.client.pas_ch)).go .await_made)
  | .kill_iperf => some (n.kill_iperf.go .start_prompt)
  | .await_first | .await_broken | .await_made =>
    n.answer.bind fun _ => { n with answer := none }.heard
  | .start_prompt | .fork_iperf | .prompt | .kill_prompt => none

def step (n : HardNet) : HardMove → Option HardNet
  | .client env => if n.client.exited then none else n.client_step env
  | .fails => if !n.client.exited ∧ can_fail n.client.pc then some n.exit else none
  | .deaf => if n.client.exited then none else n.heard
  | .key a =>
    if n.client.exited then none
    else
      match n.client.pc with
      | .start_prompt =>
        some ({ n with client := { n.client with pas_ch := other_ch n.client.act_ch } }.go
          .connect_oh)
      | .prompt => some (if a = 'q' then n.kill_iperf.exit else n.go .connect_break)
      | .kill_prompt => some (n.go .kill_iperf)
      | _ => none
  | .fork pid =>
    if !n.client.exited ∧ n.client.pc = .fork_iperf ∧ n.client.may_fork pid then
      some ({ n with client := { n.client with
        iperf_pid := pid, calls := n.client.calls ++ [HardCall.fork pid] } }.go .prompt)
    else none
  | .plumber accepted read pid written =>
    match n.commands with
    | [] => none
    | cmd :: rest =>
      (n.server.serve ⟨accepted, if read then some cmd else none, pid, written⟩).map fun server =>
        { n with server, commands := rest
                 answer := if accepted ∧ read ∧ written ∧ rest = [] then some Plumber.answer
                           else n.answer }
  | .bond e => (n.world.step e).map fun world => { n with world }

end moves

def start (w : World) (p : Plumber) : HardNet :=
  { world := w, client := ⟨.get_hwaddr, false, [], '\x00', '\x00', -1, []⟩
    server := PlumbServer.start p, commands := [], answer := none }

def iface (c : Char) : Option Bool :=
  if c = '0' then some false else if c = '1' then some true else none

theorem make_ch_line (i : Bool) : make_ch (Plumber.digit i) = Plumber.make_line i := by
  cases i <;> decide

theorem break_ch_line (i : Bool) : break_ch (Plumber.digit i) = Plumber.break_line i := by
  cases i <;> decide

theorem iface_cases (c : Char) :
    (∃ i, c = Plumber.digit i ∧ iface c = some i) ∨
      (iface c = none ∧ Plumber.addressed (make_ch c) = none ∧
        Plumber.addressed (break_ch c) = none) := by
  unfold iface
  by_cases h0 : c = '0'
  · exact Or.inl ⟨false, h0, if_pos h0⟩
  · by_cases h1 : c = '1'
    · refine Or.inl ⟨true, h1, ?_⟩
      rw [if_neg h0, if_pos h1]
    · right
      by_cases hz : c = '\x00'
      · rw [hz]
        decide
      · simp [h0, h1, hz, Plumber.addressed, make_ch, break_ch, plumb_cmd, Plumber.starts]

/-- What a command does to the pipe that is up, if there is one. -/
inductive Effect : List Char → Option Bool → Option Bool → Prop
  | make {c : Char} {v : Option Bool} (h : v = iface c) : Effect (make_ch c) none v
  | brk {c : Char} {u : Option Bool} (h : u = none ∨ u = iface c) : Effect (break_ch c) u none

def Only (p : Plumber) (u : Option Bool) : Prop := ∀ i, 0 < p.pid i → u = some i

def Shows (p : Plumber) (u : Option Bool) : Prop := ∀ i, 0 < p.pid i ↔ u = some i

/-- The pipe that the plumber makes for an interface, in hard mode from the first switch of the
mobile. -/
def link (p : Plumber) (i : Bool) : Dpipe := ⟨if p.is_hard then 0 else i.toNat, i.toNat, p.is_lossy⟩

theorem turn_make (p : Plumber) (i : Bool) (n : Int) :
    p.turn (Plumber.make_line i) n =
      if p.pid i < 0 then (p.setPid i n, [.fork i (link p i) n]) else (p, []) := by
  obtain ⟨hard, lossy, pid0, pid1⟩ := p
  cases i <;> cases hard <;> rfl

theorem turn_break (p : Plumber) (i : Bool) (n : Int) :
    p.turn (Plumber.break_line i) n =
      (p.setPid i (-1), if 0 < p.pid i then [.kill (p.pid i)] else []) := by
  cases i <;> rfl

theorem turn_unaddressed (p : Plumber) {buffer : List Char} (n : Int)
    (h : Plumber.addressed buffer = none) : p.turn buffer n = (p, []) := by
  rcases p.turn_cases buffer n with hidle | ⟨i, hi, -⟩
  · exact hidle
  · rw [h] at hi
    cases hi

theorem Effect.only {cmd : List Char} {u v : Option Bool} (h : Effect cmd u v) {p : Plumber}
    (hp : Only p u) (n : Int) : Only (p.turn cmd n).1 v := by
  cases h with
  | @make c v hv =>
    rw [hv]
    have hdown : ∀ i, ¬ 0 < p.pid i := fun i hi => by cases hp i hi
    obtain ⟨i, rfl, hi⟩ | ⟨hnone, haddr, -⟩ := iface_cases c
    · rw [make_ch_line, turn_make, hi]
      intro j hj
      split_ifs at hj
      · rw [Plumber.pid_setPid] at hj
        split_ifs at hj with hij
        · rw [hij]
        · exact absurd hj (hdown j)
      · exact absurd hj (hdown j)
    · rw [turn_unaddressed p n haddr, hnone]
      exact hp
  | @brk c u hu =>
    obtain ⟨i, rfl, hi⟩ | ⟨hnone, -, haddr⟩ := iface_cases c
    · rw [break_ch_line, turn_break]
      intro j hj
      rw [Plumber.pid_setPid] at hj
      split_ifs at hj with hij
      · omega
      · have hup := hp j hj
        rw [hup, hi] at hu
        rcases hu with hu | hu
        · cases hu
        · exact absurd (Option.some.inj hu) hij
    · rw [hnone, or_self] at hu
      rw [turn_unaddressed p n haddr, ← hu]
      exact hp

/-- The pipe that is up when the plumber has served all that the client has sent. -/
def expected (c : HardClient) : Option Bool :=
  match c.pc with
  | .get_hwaddr | .get_active | .connect_first => none
  | .await_first => iface (c.act_slave.getD 3 '\x00')
  | .start_prompt | .connect_oh | .fork_iperf | .prompt | .connect_break => iface c.act_ch
  | .await_broken | .connect_make => none
  | .await_made => iface (other_ch c.act_ch)
  | .kill_prompt | .kill_iperf => iface c.act_ch

/-- Inside a handover the other interface's character is the one the client has for it. -/
def Paired (c : HardClient) : Prop :=
  match c.pc with
  | .connect_oh | .fork_iperf | .prompt | .connect_break | .await_broken | .connect_make
  | .await_made => c.pas_ch = other_ch c.act_ch
  | _ => True

/-- The plumber is left alone, and what was on its way to it still leads to what the client
expects. -/
structure Sends (n m : HardNet) : Prop where
  server : m.server = n.server
  leads : ∀ u, Leads Effect u n.commands (expected n.client) →
    Leads Effect u m.commands (expected m.client)
  paired : Paired m.client

variable {n m : HardNet}

theorem Sends.quiet (hserver : m.server = n.server) (hcmds : m.commands = n.commands)
    (hexp : expected m.client = expected n.client) (hp : Paired m.client) : Sends n m where
  server := hserver
  leads u hu := by rwa [hcmds, hexp]
  paired := hp

theorem Sends.told {cmd : List Char} (hserver : m.server = n.server)
    (hcmds : m.commands = n.commands ++ [cmd])
    (heff : Effect cmd (expected n.client) (expected m.client)) (hp : Paired m.client) :
    Sends n m where
  server := hserver
  leads u hu := by
    rw [hcmds]
    exact hu.send heff
  paired := hp

theorem heard_sends (h : Paired n.client) (answer : Option String)
    (hm : { n with answer }.heard = some m) : Sends n m := by
  unfold heard at hm
  cases hpc : n.client.pc <;> simp only [hpc, Option.some.injEq, reduceCtorEq] at hm
  · subst hm
    exact Sends.quiet rfl rfl (by simp [expected, hpc, go]) trivial
  · subst hm
    refine Sends.quiet rfl rfl (by simp [expected, hpc, go]) ?_
    simpa [Paired, hpc, go] using h
  · subst hm
    exact Sends.quiet rfl rfl (by simp [expected, hpc, go]) trivial

section moves

variable [Siblings]

theorem client_sends (h : Paired n.client) {env : IoctlEnv} (hm : n.client_step env = some m) :
    Sends n m := by
  unfold client_step at hm
  cases hpc : n.client.pc <;> simp only [hpc, reduceCtorEq] at hm
  case get_hwaddr =>
    cases hm
    exact Sends.quiet rfl rfl (by simp [expected, hpc, go]) trivial
  case get_active =>
    obtain ⟨r, -, rfl⟩ := Option.map_eq_some_iff.mp hm
    split_ifs
    · refine Sends.quiet rfl rfl rfl ?_
      simp [Paired, exit, hpc]
    · exact Sends.quiet rfl rfl (by simp [expected, hpc, go]) trivial
  case connect_first =>
    cases hm
    refine Sends.told rfl rfl ?_ trivial
    simp only [expected, hpc, go]
    exact Effect.make rfl
  case connect_oh =>
    cases hm
    refine Sends.quiet rfl rfl (by simp [expected, hpc, go]) ?_
    simpa [Paired, hpc, go] using h
  case connect_break =>
    cases hm
    refine Sends.told rfl rfl ?_ ?_
    · simp only [expected, hpc, go]
      exact Effect.brk (Or.inr rfl)
    · simpa [Paired, hpc, go, tell] using h
  case connect_make =>
    cases hm
    simp only [Paired, hpc] at h
    refine Sends.told rfl rfl ?_ ?_
    · simp only [expected, hpc, go, tell]
      exact Effect.make (by rw [h])
    · simpa [Paired, go, tell] using h
  case kill_iperf =>
    cases hm
    exact Sends.quiet rfl rfl (by simp [expected, hpc, go, kill_iperf]) trivial
  all_goals
    obtain ⟨-, -, hheard⟩ := Option.bind_eq_some_iff.mp hm
    exact heard_sends h none hheard

theorem step_sends (h : Paired n.client) {move : HardMove}
    (hmove : ∀ a r pid w, move ≠ .plumber a r pid w) (hm : n.step move = some m) : Sends n m := by
  cases move with
  | client env =>
    simp only [step] at hm
    split_ifs at hm
    exact client_sends h hm
  | fails =>
    simp only [step] at hm
    split_ifs at hm
    cases hm
    exact Sends.quiet rfl rfl rfl h
  | deaf =>
    simp only [step] at hm
    split_ifs at hm
    exact heard_sends h n.answer hm
  | key a =>
    simp only [step] at hm
    split at hm
    · cases hm
    · cases hpc : n.client.pc <;> simp only [hpc, Option.some.injEq, reduceCtorEq] at hm
      · subst hm
        exact Sends.quiet rfl rfl (by simp [expected, hpc, go]) rfl
      · subst hm
        split_ifs
        · exact Sends.quiet rfl rfl rfl h
        · refine Sends.quiet rfl rfl (by simp [expected, hpc, go]) ?_
          simpa [Paired, hpc, go] using h
      · subst hm
        exact Sends.quiet rfl rfl (by simp [expected, hpc, go]) trivial
  | fork pid =>
    simp only [step] at hm
    split_ifs at hm with hcond
    cases hm
    refine Sends.quiet rfl rfl (by simp [expected, hcond.2.1, go]) ?_
    simpa [Paired, hcond.2.1, go] using h
  | plumber a r pid w => exact absurd rfl (hmove a r pid w)
  | bond e =>
    obtain ⟨w, -, rfl⟩ := Option.map_eq_some_iff.mp hm
    exact Sends.quiet rfl rfl rfl h

omit [Siblings] in
theorem server_serves {s t : PlumbServer} {a r w : Bool} {cmd : List Char} {pid : Int}
    (h : s.serve ⟨a, if r then some cmd else none, pid, w⟩ = some t) :
    s.exited = false ∧
      (t = { s with exited := true } ∨
        ((s.plumber.turn cmd pid).2.all (Plumber.Syscall.allowed s.calls) = true ∧
          t = ⟨(s.plumber.turn cmd pid).1, s.calls ++ (s.plumber.turn cmd pid).2, !w⟩)) := by
  unfold PlumbServer.serve at h
  cases hexit : s.exited with
  | true => simp [hexit] at h
  | false =>
    cases a with
    | false =>
      simp [hexit] at h
      exact ⟨rfl, Or.inl h.symm⟩
    | true =>
      cases r with
      | false =>
        simp [hexit] at h
        exact ⟨rfl, Or.inl h.symm⟩
      | true =>
        by_cases hall : (s.plumber.turn cmd pid).2.all (Plumber.Syscall.allowed s.calls) = true
        · simp only [hexit, Bool.false_eq_true, if_false, Bool.not_true, if_true, hall] at h
          cases h
          exact ⟨rfl, Or.inr ⟨hall, rfl⟩⟩
        · simp [hexit, hall] at h

theorem plumber_serves {a r w : Bool} {pid : Int} (hm : n.step (.plumber a r pid w) = some m) :
    n.server.exited = false ∧ m.client = n.client ∧
      ∃ cmd, n.commands = cmd :: m.commands ∧
        ((m.server = { n.server with exited := true }) ∨
          ((n.server.plumber.turn cmd pid).2.all (Plumber.Syscall.allowed n.server.calls) =
              true ∧
            m.server = ⟨(n.server.plumber.turn cmd pid).1,
              n.server.calls ++ (n.server.plumber.turn cmd pid).2, !w⟩)) := by
  simp only [step] at hm
  cases hcmds : n.commands with
  | nil =>
    rw [hcmds] at hm
    cases hm
  | cons cmd rest =>
    rw [hcmds] at hm
    obtain ⟨server, hserve, rfl⟩ := Option.map_eq_some_iff.mp hm
    obtain ⟨hlive, hcase⟩ := server_serves hserve
    exact ⟨hlive, rfl, cmd, rfl, hcase⟩

/-- The pipes are as `P` says for the interface `u`, and what is on its way, if the plumber
still serves it, leads from there to what the client expects. -/
structure Tracks (P : Plumber → Option Bool → Prop) (n : HardNet) : Prop where
  booked : Plumber.Booked n.server.plumber n.server.calls
  paired : Paired n.client
  pipes : ∃ u, P n.server.plumber u ∧
    (n.server.exited = false → Leads Effect u n.commands (expected n.client))

theorem Tracks.step {P : Plumber → Option Bool → Prop} (h : Tracks P n) {move : HardMove}
    (hserved : ∀ a r pid w cmd u v, move = .plumber a r pid w → Effect cmd u v →
      P n.server.plumber u → P (n.server.plumber.turn cmd pid).1 v)
    (hm : n.step move = some m) : Tracks P m := by
  obtain ⟨hbooked, hpaired, u, hu, hleads⟩ := h
  by_cases hmove : ∃ a r pid w, move = .plumber a r pid w
  · obtain ⟨a, r, pid, w, rfl⟩ := hmove
    obtain ⟨halive, hclient, cmd, hcmds, hcase⟩ := plumber_serves hm
    have hpaired' : Paired m.client := by rwa [hclient]
    rcases hcase with hended | ⟨hallowed, hserver⟩
    · refine ⟨by rwa [hended], hpaired', u, by rwa [hended], fun hlive => ?_⟩
      rw [hended] at hlive
      cases hlive
    · have hnow := hleads halive
      rw [hcmds] at hnow
      obtain ⟨v, heff, hrest⟩ := hnow
      refine ⟨?_, hpaired', v, ?_, fun _ => by rwa [hclient]⟩
      · rw [hserver]
        exact hbooked.turn hallowed
      · rw [hserver]
        exact hserved a r pid w cmd u v rfl heff hu
  · have hother : ∀ a r pid w, move ≠ .plumber a r pid w :=
      fun a r pid w he => hmove ⟨a, r, pid, w, he⟩
    obtain ⟨hserver, hleads', hpaired'⟩ := step_sends hpaired hother hm
    refine ⟨by rwa [hserver], hpaired', u, by rwa [hserver], fun hlive => ?_⟩
    rw [hserver] at hlive
    exact hleads' u (hleads hlive)

omit [Siblings] in
theorem Tracks.outstanding {P : Plumber → Option Bool → Prop} (h : Tracks P n) (i : Bool) :
    Plumber.outstanding n.server.calls i =
      if 0 < n.server.plumber.pid i then [n.server.plumber.pid i] else [] := by
  rcases h.booked.pid_cases i with ⟨hneg, hnone⟩ | ⟨hpos, hone⟩
  · rw [if_neg (by omega), hnone]
  · rw [if_pos hpos, hone]

end moves

end HardNet

def HardCall.event : HardCall → Option (Custody.Event Unit Int)
  | .fork result => if result = -1 then none else some (.acquire () result)
  | .kill pid => some (.release pid)

namespace HardClient

def books (c : HardClient) : List (Custody.Event Unit Int) := c.calls.filterMap HardCall.event

def iperfs (c : HardClient) : List Int := Custody.held c.books ()

def serving (c : HardClient) : Bool :=
  match c.pc with
  | .prompt => !c.exited
  | .connect_break | .await_broken | .connect_make | .await_made | .kill_prompt
  | .kill_iperf => true
  | _ => false

/-- The client knows its only iperf server, and stops only where it asks for a key or calls
something that can fail. -/
structure Keeps (c : HardClient) : Prop where
  orderly : Custody.Orderly c.books
  only : c.iperfs = if c.serving then [c.iperf_pid] else []
  stopped : c.exited = true → c.pc = .prompt ∨ HardNet.can_fail c.pc = true

variable {c d : HardClient}

theorem Keeps.on (h : c.Keeps) (hcalls : d.calls = c.calls) (hpid : d.iperf_pid = c.iperf_pid)
    (hserving : d.serving = c.serving)
    (hstop : d.exited = true → d.pc = .prompt ∨ HardNet.can_fail d.pc = true) : d.Keeps := by
  have hbooks : d.books = c.books := by
    unfold books
    rw [hcalls]
  refine ⟨by rw [hbooks]; exact h.orderly, ?_, hstop⟩
  have honly := h.only
  unfold iperfs at honly ⊢
  rw [hbooks, hserving, hpid]
  exact honly

theorem Keeps.forked (h : c.Keeps) (hidle : c.serving = false) {pid : Int} (hpos : 0 < pid)
    (hfork : c.may_fork pid = true) (hcalls : d.calls = c.calls ++ [.fork pid])
    (hpid : d.iperf_pid = pid) (hserving : d.serving = true)
    (hstop : d.exited = true → d.pc = .prompt ∨ HardNet.can_fail d.pc = true) : d.Keeps := by
  have hne : pid ≠ -1 := by omega
  have hbooks : d.books = c.books ++ [.acquire () pid] := by
    unfold books
    rw [hcalls, List.filterMap_append]
    simp [HardCall.event, hne]
  have hfresh : Custody.Fresh c.books pid := by
    intro _ hmem
    unfold may_fork at hfork
    simp only [beq_iff_eq, hne, Bool.or_eq_true, false_or, Bool.and_eq_true, decide_eq_true_eq,
      List.all_eq_true] at hfork
    unfold Custody.acquired books at hmem
    obtain ⟨event, hevent, hacquired⟩ := List.mem_filterMap.mp hmem
    obtain ⟨call, hcall, hof⟩ := List.mem_filterMap.mp hevent
    have hother := hfork.2 call hcall
    cases call with
    | fork result =>
      simp only [HardCall.event] at hof
      split_ifs at hof
      cases hof
      have hsame : result = pid := by simpa using hacquired
      simp [hsame] at hother
    | kill other =>
      cases hof
      cases hacquired
  have honly := h.only
  rw [hidle] at honly
  refine ⟨?_, ?_, hstop⟩
  · rw [hbooks]
    exact h.orderly.acquire hfresh ()
  · unfold iperfs at honly ⊢
    rw [hbooks, Custody.held_acquire h.orderly hfresh, honly, hserving, hpid]
    rfl

theorem Keeps.killed (h : c.Keeps) (hbusy : c.serving = true)
    (hcalls : d.calls = c.calls ++ [.kill c.iperf_pid]) (hserving : d.serving = false)
    (hstop : d.exited = true → d.pc = .prompt ∨ HardNet.can_fail d.pc = true) : d.Keeps := by
  have hbooks : d.books = c.books ++ [.release c.iperf_pid] := by
    unfold books
    rw [hcalls, List.filterMap_append]
    rfl
  have honly := h.only
  rw [if_pos hbusy] at honly
  have hheld : c.iperf_pid ∈ Custody.held c.books () := by
    have hmem : c.iperf_pid ∈ c.iperfs := by simp [honly]
    exact hmem
  refine ⟨?_, ?_, hstop⟩
  · rw [hbooks]
    exact h.orderly.release hheld
  · unfold iperfs at honly ⊢
    rw [hbooks, Custody.held_release, honly, hserving]
    simp

end HardClient

namespace HardNet

variable {n m : HardNet}

theorem heard_keeps (h : n.client.Keeps) (answer : Option String)
    (hm : { n with answer }.heard = some m) (hlive : n.client.exited = false) :
    m.client.Keeps := by
  unfold heard at hm
  cases hpc : n.client.pc <;> simp only [hpc, Option.some.injEq, reduceCtorEq] at hm
  all_goals
    subst hm
    exact h.on rfl rfl (by simp [HardClient.serving, hpc, go]) (by simp [go, hlive])

section moves

variable [Siblings]

theorem client_keeps (h : n.client.Keeps) (hlive : n.client.exited = false) {env : IoctlEnv}
    (hm : n.client_step env = some m) : m.client.Keeps := by
  unfold client_step at hm
  cases hpc : n.client.pc <;> simp only [hpc, reduceCtorEq] at hm
  case get_active =>
    obtain ⟨r, -, rfl⟩ := Option.map_eq_some_iff.mp hm
    split_ifs
    · exact h.on rfl rfl (by simp [HardClient.serving, hpc, exit])
        (fun _ => Or.inr (by simp [exit, hpc, can_fail]))
    · exact h.on rfl rfl (by simp [HardClient.serving, hpc, go]) (by simp [go, hlive])
  case kill_iperf =>
    cases hm
    exact h.killed (by simp [HardClient.serving, hpc]) rfl
      (by simp [HardClient.serving, go]) (by simp [go, HardNet.kill_iperf, hlive])
  case await_first =>
    obtain ⟨-, -, hheard⟩ := Option.bind_eq_some_iff.mp hm
    exact heard_keeps h none hheard hlive
  case await_broken =>
    obtain ⟨-, -, hheard⟩ := Option.bind_eq_some_iff.mp hm
    exact heard_keeps h none hheard hlive
  case await_made =>
    obtain ⟨-, -, hheard⟩ := Option.bind_eq_some_iff.mp hm
    exact heard_keeps h none hheard hlive
  all_goals
    cases hm
    exact h.on rfl rfl (by simp [HardClient.serving, hpc, go, tell]) (by simp [go, tell, hlive])

theorem step_keeps (h : n.client.Keeps) {move : HardMove} (hm : n.step move = some m)
    (hfork : ∀ pid, move = .fork pid → 0 < pid) : m.client.Keeps := by
  cases move with
  | client env =>
    simp only [step] at hm
    split at hm
    · cases hm
    · rename_i hlive
      exact client_keeps h (by simpa using hlive) hm
  | fails =>
    simp only [step] at hm
    split_ifs at hm with hcond
    cases hm
    refine h.on rfl rfl ?_ fun _ => Or.inr hcond.2
    have hnot : n.client.pc ≠ .prompt := by
      intro hpc
      rw [hpc] at hcond
      simp [can_fail] at hcond
    unfold HardClient.serving exit
    cases hpc : n.client.pc <;> simp_all
  | deaf =>
    simp only [step] at hm
    split at hm
    · cases hm
    · rename_i hlive
      exact heard_keeps h n.answer hm (by simpa using hlive)
  | key a =>
    simp only [step] at hm
    split at hm
    · cases hm
    · rename_i hexit
      have hlive : n.client.exited = false := by simpa using hexit
      cases hpc : n.client.pc <;> simp only [hpc, Option.some.injEq, reduceCtorEq] at hm
      · subst hm
        exact h.on rfl rfl (by simp [HardClient.serving, hpc, go]) (by simp [go, hlive])
      · subst hm
        split_ifs
        · exact h.killed (by simp [HardClient.serving, hpc, hlive]) rfl
            (by simp [HardClient.serving, exit, HardNet.kill_iperf, hpc])
            (fun _ => Or.inl (by simp [exit, HardNet.kill_iperf, hpc]))
        · exact h.on rfl rfl (by simp [HardClient.serving, hpc, go, hlive]) (by simp [go, hlive])
      · subst hm
        exact h.on rfl rfl (by simp [HardClient.serving, hpc, go]) (by simp [go, hlive])
  | fork pid =>
    simp only [step] at hm
    split_ifs at hm with hcond
    cases hm
    obtain ⟨hlive, hpc, hmay⟩ := hcond
    have hlive' : n.client.exited = false := by simpa using hlive
    exact h.forked (by simp [HardClient.serving, hpc]) (hfork pid rfl) hmay rfl rfl
      (by simp [HardClient.serving, go, hlive']) (by simp [go, hlive'])
  | plumber a r pid w =>
    obtain ⟨-, hclient, -⟩ := plumber_serves hm
    rwa [hclient]
  | bond e =>
    obtain ⟨w, -, rfl⟩ := Option.map_eq_some_iff.mp hm
    exact h

/-- As long as its own forks succeed, the client kills only iperf servers that it has started,
each once, and has one at most; when it has ended one is left only where the connection for
the break or the make has failed. -/
theorem one_iperf {w : World} {p : Plumber} {moves : List HardMove}
    (hforks : ∀ pid, .fork pid ∈ moves → 0 < pid)
    (hrun : Transition.run step (start w p) moves = some n) :
    (∀ pid ∈ Custody.released n.client.books, pid ∈ Custody.acquired n.client.books ()) ∧
      (Custody.released n.client.books).Nodup ∧ n.client.iperfs.length ≤ 1 ∧
      (n.client.exited = true → n.client.iperfs ≠ [] →
        n.client.pc = .connect_break ∨ n.client.pc = .connect_make) := by
  have hstart : (start w p).client.Keeps := by
    refine ⟨Custody.Orderly.nil, ?_, ?_⟩
    · simp [HardClient.iperfs, HardClient.books, start, HardClient.serving, Custody.held,
        Custody.acquired]
    · simp [start]
  have halong : Transition.Along (fun _ move => ∀ pid, move = .fork pid → 0 < pid) step
      (start w p) moves := by
    refine Transition.along_of_mem (fun move hmem _ pid hmove => ?_) _
    rw [hmove] at hmem
    exact hforks pid hmem
  have hkeeps : n.client.Keeps := Transition.run_invariant_along (fun s => s.client.Keeps)
    (fun s move t hs hfork hstep => step_keeps hs hstep hfork) hrun halong hstart
  refine ⟨fun pid hpid => ?_, hkeeps.orderly.once, ?_, fun hexit hleft => ?_⟩
  · obtain ⟨_, hknown⟩ := hkeeps.orderly.known pid hpid
    exact hknown
  · rw [hkeeps.only]
    split_ifs <;> simp
  · rw [hkeeps.only] at hleft
    have hserving : n.client.serving = true := by
      by_contra hidle
      simp [hidle] at hleft
    unfold HardClient.serving at hserving
    rcases hkeeps.stopped hexit with hpc | hfail
    · simp [hpc, hexit] at hserving
    · cases hpc : n.client.pc <;> simp_all [can_fail]

end moves

def hard_args : List (List Char) :=
  [['p', 'l', 'u', 'm', 'b'], ['p', 'l', 'a', 'i', 'n'], ['h', 'a', 'r', 'd']]

def hasty : List HardMove :=
  [.client .plain, .client .plain, .client .plain, .plumber true true 101 true, .client .plain,
    .key ' ', .client .plain, .fork 501, .key ' ', .client .plain, .deaf, .client .plain]

def served : List HardMove :=
  [.plumber true true 102 true, .plumber true true 103 true, .client .plain, .key ' ',
    .client .plain]

def hard_run (moves : List HardMove) : Option (World × Plumber × HardNet) :=
  carded.bind fun w => (Plumber.main hard_args).bind fun p =>
    (Transition.run (@step noSiblings) (start w p) moves).map fun n => (w, p, n)

theorem hard_run_some {moves : List HardMove} {w : World} {p : Plumber}
    (h : hard_run moves = some (w, p, n)) : Plumber.main hard_args = some p ∧
      Transition.run (@step noSiblings) (start w p) moves = some n := by
  unfold hard_run at h
  obtain ⟨w', -, h⟩ := Option.bind_eq_some_iff.mp h
  obtain ⟨p', hp, h⟩ := Option.bind_eq_some_iff.mp h
  obtain ⟨n', hn, heq⟩ := Option.map_eq_some_iff.mp h
  cases heq
  exact ⟨hp, hn⟩

theorem hasty_handover_one_iperf : ∃ w p n, hard_run (hasty ++ served) = some (w, p, n) ∧
    Custody.released n.client.books = [501] ∧ n.client.iperfs.length ≤ 1 := by
  have hrun : (hard_run (hasty ++ served)).any (fun r =>
      Custody.released r.2.2.client.books == [501]) = true := by
    decide +kernel
  obtain ⟨⟨w, p, n⟩, hr, hkilled⟩ := (Option.any_eq_true _ _).mp hrun
  obtain ⟨-, hn⟩ := hard_run_some hr
  refine ⟨w, p, n, hr, by simpa using hkilled,
    (@one_iperf n noSiblings w p (hasty ++ served) ?_ hn).2.2.1⟩
  intro pid hmem
  simp only [hasty, served, List.cons_append, List.nil_append, List.mem_cons, reduceCtorEq,
    HardMove.fork.injEq, List.not_mem_nil, false_or, or_false] at hmem
  omega

end HardNet

end Hoolock
