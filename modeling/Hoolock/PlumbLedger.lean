import Hoolock.Custody
import Hoolock.Plumb
import Hoolock.Transition

set_option autoImplicit false

namespace Hoolock

namespace Plumber

/-- A system call of the plumber about its children. -/
inductive Syscall where
  | fork (i : Bool) (child : Dpipe) (result : Int)
  | kill (pid : Int)

/-- The command line of the server; without both arguments it ends at once. -/
def main (argv : List (List Char)) : Option Plumber :=
  if argv.length < 3 then none
  else
    some
      { is_hard := starts (argv.getD 2 []) ['h', 'a', 'r', 'd']
        is_lossy := starts (argv.getD 1 []) ['l', 'o', 's', 's', 'y']
        eth0_pid := -1, eth1_pid := -1 }

def turn (p : Plumber) (buffer : List Char) (pid : Int) : Plumber × List Syscall :=
  if starts buffer ['m', 'a', 'k', 'e'] then
    if buffer[5]? = some '0' then
      if p.eth0_pid < 0 then ({ p with eth0_pid := pid }, [.fork false ⟨0, 0, p.is_lossy⟩ pid])
      else (p, [])
    else if buffer[5]? = some '1' then
      if p.eth1_pid < 0 then
        ({ p with eth1_pid := pid },
          [.fork true ⟨if p.is_hard then 0 else 1, 1, p.is_lossy⟩ pid])
      else (p, [])
    else (p, [])
  else if starts buffer ['b', 'r', 'e', 'a', 'k'] then
    if buffer[6]? = some '0' then
      ({ p with eth0_pid := -1 }, if 0 < p.eth0_pid then [.kill p.eth0_pid] else [])
    else if buffer[6]? = some '1' then
      ({ p with eth1_pid := -1 }, if 0 < p.eth1_pid then [.kill p.eth1_pid] else [])
    else (p, [])
  else (p, [])

def Syscall.perform (procs : Procs) : Syscall → Procs
  | .fork i child pid => procs.fork i pid child
  | .kill pid => procs.kill pid

theorem serve_eq_turn (p : Plumber) (procs : Procs) (buffer : List Char) (pid : Int) :
    p.serve procs buffer pid =
      ((p.turn buffer pid).1, (p.turn buffer pid).2.foldl Syscall.perform procs) := by
  unfold serve turn
  split_ifs <;> rfl

def addressed (buffer : List Char) : Option Bool :=
  if starts buffer ['m', 'a', 'k', 'e'] then
    if buffer[5]? = some '0' then some false
    else if buffer[5]? = some '1' then some true
    else none
  else if starts buffer ['b', 'r', 'e', 'a', 'k'] then
    if buffer[6]? = some '0' then some false
    else if buffer[6]? = some '1' then some true
    else none
  else none

/-- All that a turn can do: nothing, a fork for an interface without a child, or the end of
the child of an interface. -/
theorem turn_cases (p : Plumber) (buffer : List Char) (pid : Int) :
    p.turn buffer pid = (p, []) ∨
      ∃ i, addressed buffer = some i ∧
        (p.pid i < 0 ∧ (∃ child, p.turn buffer pid = (p.setPid i pid, [.fork i child pid])) ∨
          p.turn buffer pid =
            (p.setPid i (-1), if 0 < p.pid i then [.kill (p.pid i)] else [])) := by
  unfold turn addressed
  by_cases hmake : starts buffer ['m', 'a', 'k', 'e'] = true
  · rw [if_pos hmake, if_pos hmake]
    by_cases h0 : buffer[5]? = some '0'
    · rw [if_pos h0, if_pos h0]
      by_cases hneg : p.eth0_pid < 0
      · right
        exact ⟨false, rfl, Or.inl ⟨hneg, _, if_pos hneg⟩⟩
      · exact Or.inl (if_neg hneg)
    · rw [if_neg h0, if_neg h0]
      by_cases h1 : buffer[5]? = some '1'
      · rw [if_pos h1, if_pos h1]
        by_cases hneg : p.eth1_pid < 0
        · right
          exact ⟨true, rfl, Or.inl ⟨hneg, _, if_pos hneg⟩⟩
        · exact Or.inl (if_neg hneg)
      · exact Or.inl (if_neg h1)
  · rw [if_neg hmake, if_neg hmake]
    by_cases hbreak : starts buffer ['b', 'r', 'e', 'a', 'k'] = true
    · rw [if_pos hbreak, if_pos hbreak]
      by_cases h0 : buffer[6]? = some '0'
      · rw [if_pos h0, if_pos h0]
        right
        exact ⟨false, rfl, Or.inr rfl⟩
      · rw [if_neg h0, if_neg h0]
        by_cases h1 : buffer[6]? = some '1'
        · rw [if_pos h1, if_pos h1]
          right
          exact ⟨true, rfl, Or.inr rfl⟩
        · exact Or.inl (if_neg h1)
    · exact Or.inl (if_neg hbreak)

theorem serve_unaddressed (p : Plumber) (procs : Procs) {buffer : List Char} (pid : Int)
    (h : addressed buffer = none) : p.serve procs buffer pid = (p, procs) := by
  rcases p.turn_cases buffer pid with hidle | ⟨i, hi, _⟩
  · rw [serve_eq_turn, hidle]
    rfl
  · rw [h] at hi
    cases hi

def Syscall.event : Syscall → Option (Custody.Event Bool Int)
  | .fork i _ result => if result = -1 then none else some (.acquire i result)
  | .kill pid => some (.release pid)

def books (calls : List Syscall) : List (Custody.Event Bool Int) := calls.filterMap Syscall.event

def forked (calls : List Syscall) (i : Bool) : List Int := Custody.acquired (books calls) i

def killed (calls : List Syscall) : List Int := Custody.released (books calls)

def outstanding (calls : List Syscall) (i : Bool) : List Int := Custody.held (books calls) i

/-- `fork` returns -1 or the number of a new process. -/
def Syscall.allowed (calls : List Syscall) : Syscall → Bool
  | .fork _ _ result =>
    result == -1 || decide (0 < result) && [false, true].all fun i => result ∉ forked calls i
  | .kill _ => true

/-- Each variable is -1 and no child of its interface is left, or it is the only one left. -/
structure Booked (p : Plumber) (calls : List Syscall) : Prop where
  orderly : Custody.Orderly (books calls)
  positive : ∀ i, ∀ n ∈ forked calls i, 0 < n
  remembered : ∀ i, p.pid i = -1 ∧ outstanding calls i = [] ∨ outstanding calls i = [p.pid i]

theorem books_append (calls more : List Syscall) :
    books (calls ++ more) = books calls ++ books more := by
  simp [books]

variable {p : Plumber} {calls : List Syscall}

theorem Booked.pid_cases (h : Booked p calls) (i : Bool) :
    p.pid i = -1 ∧ outstanding calls i = [] ∨
      0 < p.pid i ∧ outstanding calls i = [p.pid i] := by
  rcases h.remembered i with hnone | hone
  · exact Or.inl hnone
  · right
    have hmem : p.pid i ∈ outstanding calls i := by simp [hone]
    exact ⟨h.positive i _ (Custody.mem_held.mp hmem).1, hone⟩

theorem Booked.fork_failed (h : Booked p calls) {i : Bool} (hi : p.pid i < 0) (child : Dpipe) :
    Booked (p.setPid i (-1)) (calls ++ [.fork i child (-1)]) := by
  have hbooks : books (calls ++ [.fork i child (-1)]) = books calls := by
    rw [books_append]
    exact List.append_nil _
  have hnone : p.pid i = -1 := by
    rcases h.pid_cases i with ⟨hneg, _⟩ | ⟨hpos, _⟩ <;> omega
  have hpid := pid_setPid_same hnone
  refine ⟨?_, ?_, fun j => ?_⟩
  · rw [hbooks]
    exact h.orderly
  · unfold forked
    rw [hbooks]
    exact h.positive
  · unfold outstanding
    rw [hpid, hbooks]
    exact h.remembered j

theorem Booked.forked (h : Booked p calls) {i : Bool} {n : Int} (hi : p.pid i < 0) (hn : 0 < n)
    (hfresh : Custody.Fresh (books calls) n) (child : Dpipe) :
    Booked (p.setPid i n) (calls ++ [.fork i child n]) := by
  have hbooks : books (calls ++ [.fork i child n]) = books calls ++ [.acquire i n] := by
    have hne : n ≠ -1 := by omega
    rw [books_append]
    simp [books, Syscall.event, hne]
  have hnone : outstanding calls i = [] := by
    rcases h.pid_cases i with ⟨_, hnone⟩ | ⟨hpos, _⟩
    · exact hnone
    · omega
  refine ⟨?_, fun j m hm => ?_, fun j => ?_⟩
  · rw [hbooks]
    exact h.orderly.acquire hfresh i
  · unfold Plumber.forked at hm
    rw [hbooks, Custody.acquired_acquire, List.mem_append] at hm
    rcases hm with hm | hm
    · exact h.positive j m hm
    · split_ifs at hm with hij
      · obtain rfl : m = n := by simpa using hm
        exact hn
      · simp at hm
  · unfold outstanding
    rw [pid_setPid, hbooks, Custody.held_acquire h.orderly hfresh]
    by_cases hj : j = i
    · right
      rw [if_pos hj.symm, if_pos hj, hj]
      exact congrArg (· ++ [n]) hnone
    · rw [if_neg (Ne.symm hj), if_neg hj, List.append_nil]
      exact h.remembered j

theorem Booked.broken (h : Booked p calls) (i : Bool) :
    Booked (p.setPid i (-1)) (calls ++ if 0 < p.pid i then [.kill (p.pid i)] else []) := by
  rcases h.pid_cases i with ⟨hneg, hnone⟩ | ⟨hpos, hone⟩
  · have hpid := pid_setPid_same hneg
    rw [if_neg (by omega), List.append_nil]
    exact ⟨h.orderly, h.positive, fun j => by rw [hpid]; exact h.remembered j⟩
  · have hbooks : books (calls ++ [.kill (p.pid i)]) = books calls ++ [.release (p.pid i)] := by
      rw [books_append]
      rfl
    have hheld : p.pid i ∈ Custody.held (books calls) i := by
      have hmem : p.pid i ∈ outstanding calls i := by simp [hone]
      exact hmem
    rw [if_pos hpos]
    refine ⟨?_, fun j m hm => ?_, fun j => ?_⟩
    · rw [hbooks]
      exact h.orderly.release hheld
    · unfold Plumber.forked at hm
      rw [hbooks, Custody.acquired_release] at hm
      exact h.positive j m hm
    · unfold outstanding
      rw [pid_setPid, hbooks]
      by_cases hj : j = i
      · left
        rw [if_pos hj, hj, Custody.held_release]
        refine ⟨rfl, ?_⟩
        have hone' : Custody.held (books calls) i = [p.pid i] := hone
        simp [hone']
      · rw [if_neg hj, Custody.held_release_other h.orderly hheld (Ne.symm hj)]
        exact h.remembered j

theorem Booked.turn (h : Booked p calls) {buffer : List Char} {n : Int}
    (hallowed : ((p.turn buffer n).2.all (Syscall.allowed calls)) = true) :
    Booked (p.turn buffer n).1 (calls ++ (p.turn buffer n).2) := by
  rcases p.turn_cases buffer n with hidle | ⟨i, _, ⟨hneg, child, hfork⟩ | hbreak⟩
  · rw [hidle, List.append_nil]
    exact h
  · rw [hfork] at hallowed ⊢
    by_cases hfail : n = -1
    · rw [hfail]
      exact h.fork_failed hneg child
    · have hnew : 0 < n ∧ Custody.Fresh (books calls) n := by
        simp [Syscall.allowed, hfail] at hallowed
        refine ⟨hallowed.1, fun j => ?_⟩
        cases j
        · exact hallowed.2.1
        · exact hallowed.2.2
      exact h.forked hneg hnew.1 hnew.2 child
  · rw [hbreak]
    exact h.broken i

theorem turn_other (p : Plumber) (buffer : List Char) (n : Int) {i j : Bool}
    (hi : addressed buffer = some i) (hj : j ≠ i) : (p.turn buffer n).1.pid j = p.pid j := by
  rcases p.turn_cases buffer n with hidle | ⟨k, hk, ⟨_, child, hfork⟩ | hbreak⟩
  · rw [hidle]
  · obtain rfl : i = k := Option.some.inj (hi.symm.trans hk)
    rw [hfork, pid_setPid, if_neg hj]
  · obtain rfl : i = k := Option.some.inj (hi.symm.trans hk)
    rw [hbreak, pid_setPid, if_neg hj]

end Plumber

/-- A connection to the server: whether `accept` succeeds, what `read` puts into the buffer
unless it fails, what `fork` returns, if it is called, and whether the answer is written. -/
structure Connection where
  accepted : Bool
  buffer : Option (List Char)
  pid : Int
  written : Bool

/-- The server, the system calls it has made, and whether it has ended. -/
structure PlumbServer where
  plumber : Plumber
  calls : List Plumber.Syscall
  exited : Bool

namespace PlumbServer

open Plumber

def start (p : Plumber) : PlumbServer := ⟨p, [], false⟩

def serve (s : PlumbServer) (c : Connection) : Option PlumbServer :=
  if s.exited then none
  else if !c.accepted then some { s with exited := true }
  else
    match c.buffer with
    | none => some { s with exited := true }
    | some buffer =>
      let r := s.plumber.turn buffer c.pid
      if r.2.all (Syscall.allowed s.calls) then some ⟨r.1, s.calls ++ r.2, !c.written⟩
      else none

theorem booked_start {argv : List (List Char)} {p : Plumber} (h : Plumber.main argv = some p) :
    Booked p [] := by
  unfold Plumber.main at h
  split_ifs at h
  cases h
  refine ⟨Custody.Orderly.nil, ?_, fun i => Or.inl ?_⟩
  · simp [Plumber.forked, books, Custody.acquired]
  · cases i <;> exact ⟨rfl, rfl⟩

theorem serve_cases {s t : PlumbServer} {c : Connection} (h : s.serve c = some t) :
    t.plumber = s.plumber ∧ t.calls = s.calls ∨
      ∃ buffer, c.buffer = some buffer ∧ t.plumber = (s.plumber.turn buffer c.pid).1 ∧
        t.calls = s.calls ++ (s.plumber.turn buffer c.pid).2 ∧
        (s.plumber.turn buffer c.pid).2.all (Syscall.allowed s.calls) = true := by
  unfold serve at h
  cases hbuffer : c.buffer with
  | none =>
    rw [hbuffer] at h
    left
    split_ifs at h <;> cases h <;> exact ⟨rfl, rfl⟩
  | some buffer =>
    rw [hbuffer] at h
    dsimp only at h
    split_ifs at h with hexited haccept hallowed
    · left
      cases h
      exact ⟨rfl, rfl⟩
    · right
      cases h
      exact ⟨buffer, rfl, rfl, rfl, hallowed⟩

theorem serve_booked (s : PlumbServer) (c : Connection) (t : PlumbServer)
    (h : Booked s.plumber s.calls) (hserve : s.serve c = some t) :
    Booked t.plumber t.calls := by
  rcases serve_cases hserve with ⟨hp, hcalls⟩ | ⟨buffer, _, hp, hcalls, hallowed⟩
  · rw [hp, hcalls]
    exact h
  · rw [hp, hcalls]
    exact h.turn hallowed

/-- Whatever is sent to the server and whatever `fork` returns: each variable is -1 and no
child of its interface is left, or it is the number of the only one left; only children were
killed, each at most once; and a command about one interface leaves the other one's variable
alone. -/
theorem plumb_books {argv : List (List Char)} {p : Plumber} {connections : List Connection}
    {s : PlumbServer} (hmain : Plumber.main argv = some p)
    (hrun : Transition.run serve (start p) connections = some s) :
    (∀ i, s.plumber.pid i = -1 ∧ outstanding s.calls i = [] ∨
      0 < s.plumber.pid i ∧ outstanding s.calls i = [s.plumber.pid i]) ∧
    (∀ n ∈ killed s.calls, 0 < n ∧ ∃ i, n ∈ forked s.calls i) ∧ (killed s.calls).Nodup ∧
    ∀ c t buffer i j, s.serve c = some t → c.buffer = some buffer →
      addressed buffer = some i → j ≠ i → t.plumber.pid j = s.plumber.pid j := by
  have hbooked : Booked s.plumber s.calls :=
    Transition.run_invariant (fun s => Booked s.plumber s.calls) serve_booked hrun
      (booked_start hmain)
  refine ⟨hbooked.pid_cases, fun n hn => ?_, hbooked.orderly.once, ?_⟩
  · obtain ⟨i, hi⟩ := hbooked.orderly.known n hn
    exact ⟨hbooked.positive i n hi, i, hi⟩
  · intro c t buffer i j hserve hbuffer hi hj
    rcases serve_cases hserve with ⟨hp, _⟩ | ⟨other, hother, hp, _, _⟩
    · rw [hp]
    · obtain rfl : buffer = other := Option.some.inj (hbuffer.symm.trans hother)
      rw [hp]
      exact turn_other s.plumber buffer c.pid hi hj

def busy_args : List (List Char) :=
  [['p', 'l', 'u', 'm', 'b'], ['l', 'o', 's', 's', 'y'], ['s', 'o', 'f', 't']]

def busy : List Connection :=
  [⟨true, some (make_line true), -1, true⟩, ⟨true, some (make_line true), 101, true⟩,
    ⟨true, some (make_line true), 102, true⟩, ⟨true, some (break_line false), 102, true⟩,
    ⟨true, some ['b', 'r', 'e', 'a', 'k', '1', 'x'], 102, true⟩,
    ⟨true, some (break_line true), 102, true⟩, ⟨true, some (make_line true), 102, true⟩,
    ⟨true, some (make_line false), 103, true⟩, ⟨true, none, 104, true⟩]

theorem busy_books : ∃ p s, Plumber.main busy_args = some p ∧
    Transition.run serve (start p) busy = some s ∧
    (s.plumber.eth0_pid = 103 ∧ s.plumber.eth1_pid = 102 ∧ killed s.calls = [101]) ∧
    (∀ i, s.plumber.pid i = -1 ∧ outstanding s.calls i = [] ∨
      0 < s.plumber.pid i ∧ outstanding s.calls i = [s.plumber.pid i]) := by
  have hany : ((Plumber.main busy_args).any fun p =>
      (Transition.run serve (start p) busy).any fun s => decide
        (s.plumber.eth0_pid = 103 ∧ s.plumber.eth1_pid = 102 ∧ killed s.calls = [101])) =
      true := by
    decide +kernel
  obtain ⟨p, hmain, hafter⟩ := (Option.any_eq_true _ _).mp hany
  obtain ⟨s, hrun, hs⟩ := (Option.any_eq_true _ _).mp hafter
  have hbooks := plumb_books hmain hrun
  exact ⟨p, s, hmain, hrun, of_decide_eq_true hs, hbooks.1⟩

end PlumbServer

end Hoolock
