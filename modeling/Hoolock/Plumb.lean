import Mathlib.Data.List.Basic

/-!
The plumber: a server that makes and breaks the two vde pipes of the mobile on command.
-/

set_option autoImplicit false

namespace Hoolock

/-- What a `dpipe` child connects. -/
structure Dpipe where
  mobile : Nat
  openflow : Nat
  lossy : Bool
  deriving DecidableEq

/-- The children that are alive, and for each interface (`false` is eth0, `true` is eth1)
whether the last `fork` for it failed. -/
structure Procs where
  running : Int → Option Dpipe
  failed : Bool → Bool

namespace Procs

def none_running : Procs := ⟨fun _ => none, fun _ => false⟩

def may_fork (procs : Procs) (pid : Int) : Bool :=
  pid == -1 || decide (0 < pid) && (procs.running pid).isNone

def fork (procs : Procs) (i : Bool) (pid : Int) (child : Dpipe) : Procs :=
  if pid = -1 then { procs with failed := fun j => if j = i then true else procs.failed j }
  else
    { running := fun p => if p = pid then some child else procs.running p
      failed := fun j => if j = i then false else procs.failed j }

def kill (procs : Procs) (pid : Int) : Procs :=
  { procs with running := fun p => if p = pid then none else procs.running p }

end Procs

structure Plumber where
  is_hard : Bool
  is_lossy : Bool
  eth0_pid : Int
  eth1_pid : Int

namespace Plumber

/-- `strncmp(buffer, cmd, strlen(cmd)) == 0` -/
def starts (buffer cmd : List Char) : Bool := cmd.isPrefixOf buffer

/-- One turn of the server's loop; `pid` is what `fork` returns, if it is called. -/
def serve (p : Plumber) (procs : Procs) (buffer : List Char) (pid : Int) : Plumber × Procs :=
  if starts buffer ['m', 'a', 'k', 'e'] then
    if buffer[5]? = some '0' then
      if p.eth0_pid < 0 then
        ({ p with eth0_pid := pid }, procs.fork false pid ⟨0, 0, p.is_lossy⟩)
      else (p, procs)
    else if buffer[5]? = some '1' then
      if p.eth1_pid < 0 then
        ({ p with eth1_pid := pid },
          procs.fork true pid ⟨if p.is_hard then 0 else 1, 1, p.is_lossy⟩)
      else (p, procs)
    else (p, procs)
  else if starts buffer ['b', 'r', 'e', 'a', 'k'] then
    if buffer[6]? = some '0' then
      ({ p with eth0_pid := -1 }, if 0 < p.eth0_pid then procs.kill p.eth0_pid else procs)
    else if buffer[6]? = some '1' then
      ({ p with eth1_pid := -1 }, if 0 < p.eth1_pid then procs.kill p.eth1_pid else procs)
    else (p, procs)
  else (p, procs)

/-- The text the plumber answers with, whatever it did. -/
def answer : String := "Plumber executed the command!"

def pid (p : Plumber) : Bool → Int
  | false => p.eth0_pid
  | true => p.eth1_pid

/-- The pipe of an interface when the plumber is not in hard mode. -/
def pipe (p : Plumber) (i : Bool) : Dpipe := ⟨i.toNat, i.toNat, p.is_lossy⟩

def digit : Bool → Char
  | false => '0'
  | true => '1'

/-- The plumber remembers exactly its living children. -/
structure Keeps (p : Plumber) (procs : Procs) : Prop where
  soft : p.is_hard = false
  child : ∀ i, p.pid i = -1 ∨ 0 < p.pid i ∧ procs.running (p.pid i) = some (p.pipe i)
  only : ∀ n d, procs.running n = some d → ∃ i, p.pid i = n ∧ 0 < n ∧ d = p.pipe i

def up (p : Plumber) (procs : Procs) (i : Bool) : Prop :=
  ∃ n, procs.running n = some (p.pipe i)

theorem pipe_injective (p : Plumber) {i j : Bool} (h : p.pipe i = p.pipe j) : i = j := by
  have hm := congrArg Dpipe.mobile h
  cases i <;> cases j <;> first | rfl | cases hm

theorem Keeps.up_iff {p : Plumber} {procs : Procs} (h : p.Keeps procs) (i : Bool) :
    p.up procs i ↔ 0 < p.pid i := by
  constructor
  · rintro ⟨n, hn⟩
    obtain ⟨j, hj, hpos, hd⟩ := h.only n _ hn
    rw [p.pipe_injective hd, hj]
    exact hpos
  · intro hpos
    rcases h.child i with hneg | ⟨_, hrun⟩
    · omega
    · exact ⟨_, hrun⟩

def setPid (p : Plumber) (i : Bool) (n : Int) : Plumber :=
  match i with
  | false => { p with eth0_pid := n }
  | true => { p with eth1_pid := n }

theorem pid_setPid (p : Plumber) (i j : Bool) (n : Int) :
    (p.setPid i n).pid j = if j = i then n else p.pid j := by
  cases i <;> cases j <;> rfl

theorem pid_setPid_same {p : Plumber} {i : Bool} {n : Int} (h : p.pid i = n) (j : Bool) :
    (p.setPid i n).pid j = p.pid j := by
  rw [pid_setPid]
  split_ifs with hj
  · rw [hj, h]
  · rfl

@[simp] theorem pipe_setPid (p : Plumber) (i j : Bool) (n : Int) :
    (p.setPid i n).pipe j = p.pipe j := by
  cases i <;> rfl

@[simp] theorem is_hard_setPid (p : Plumber) (i : Bool) (n : Int) :
    (p.setPid i n).is_hard = p.is_hard := by
  cases i <;> rfl

def make_line (i : Bool) : List Char := ['m', 'a', 'k', 'e', ' ', digit i]

def break_line (i : Bool) : List Char := ['b', 'r', 'e', 'a', 'k', ' ', digit i]

theorem serve_make (p : Plumber) (procs : Procs) (i : Bool) (n : Int) (h : p.is_hard = false) :
    p.serve procs (make_line i) n =
      if p.pid i < 0 then (p.setPid i n, procs.fork i n (p.pipe i)) else (p, procs) := by
  obtain ⟨hard, lossy, pid0, pid1⟩ := p
  cases h
  cases i <;> rfl

theorem serve_break (p : Plumber) (procs : Procs) (i : Bool) (n : Int) :
    p.serve procs (break_line i) n =
      (p.setPid i (-1), if 0 < p.pid i then procs.kill (p.pid i) else procs) := by
  cases i <;> rfl

theorem Keeps.pid_injective {p : Plumber} {procs : Procs} (h : p.Keeps procs) {i j : Bool}
    (hi : 0 < p.pid i) (hij : p.pid i = p.pid j) : i = j := by
  rcases h.child i with hneg | ⟨_, hri⟩
  · omega
  · rcases h.child j with hneg | ⟨_, hrj⟩
    · omega
    · rw [hij, hrj] at hri
      exact (p.pipe_injective (Option.some.inj hri)).symm

theorem keeps_none (is_lossy : Bool) :
    (⟨false, is_lossy, -1, -1⟩ : Plumber).Keeps .none_running where
  soft := rfl
  child i := by cases i <;> exact Or.inl rfl
  only n d hd := by cases hd

theorem Keeps.forked {p : Plumber} {procs : Procs} (h : p.Keeps procs) {i : Bool} {n : Int}
    (hi : p.pid i < 0) (hn : procs.may_fork n = true) :
    (p.setPid i n).Keeps (procs.fork i n (p.pipe i)) := by
  unfold Procs.may_fork at hn
  by_cases hfail : n = -1
  · have hnone : p.pid i = n := by
      rcases h.child i with hneg | ⟨hpos, _⟩ <;> omega
    have hsame := pid_setPid_same hnone
    unfold Procs.fork
    rw [if_pos hfail]
    refine ⟨by simp [h.soft], fun j => ?_, fun m d hm => ?_⟩
    · rw [hsame, pipe_setPid]
      exact h.child j
    · obtain ⟨j, hj, hpos, hd⟩ := h.only m d hm
      exact ⟨j, by rw [hsame, hj], hpos, by rw [hd, pipe_setPid]⟩
  · have hnew : 0 < n ∧ procs.running n = none := by simpa [hfail] using hn
    unfold Procs.fork
    rw [if_neg hfail]
    refine ⟨by simp [h.soft], fun j => ?_, fun m d hm => ?_⟩
    · rw [pid_setPid, pipe_setPid]
      by_cases hj : j = i
      · right
        simp [hj, hnew.1]
      · rw [if_neg hj]
        rcases h.child j with hneg | ⟨hpos, hrun⟩
        · exact Or.inl hneg
        · have hne : p.pid j ≠ n := by
            intro heq
            rw [heq, hnew.2] at hrun
            cases hrun
          right
          simp [hpos, hne, hrun]
    · dsimp only at hm
      by_cases hmn : m = n
      · rw [if_pos hmn] at hm
        refine ⟨i, ?_, hmn ▸ hnew.1, ?_⟩
        · rw [pid_setPid, if_pos rfl, hmn]
        · rw [pipe_setPid]
          exact (Option.some.inj hm).symm
      · rw [if_neg hmn] at hm
        obtain ⟨j, hj, hpos, hd⟩ := h.only m d hm
        have hji : j ≠ i := by
          rintro rfl
          omega
        exact ⟨j, by rw [pid_setPid, if_neg hji, hj], hpos, by rw [hd, pipe_setPid]⟩

theorem Keeps.killed {p : Plumber} {procs : Procs} (h : p.Keeps procs) (i : Bool) :
    (p.setPid i (-1)).Keeps (if 0 < p.pid i then procs.kill (p.pid i) else procs) := by
  have hrun : ∀ m, (if 0 < p.pid i then procs.kill (p.pid i) else procs).running m =
      if 0 < p.pid i ∧ m = p.pid i then none else procs.running m := by
    intro m
    by_cases hpos : 0 < p.pid i
    · simp [Procs.kill, hpos]
    · simp [hpos]
  refine ⟨by simp [h.soft], fun j => ?_, fun m d hm => ?_⟩
  · rw [pid_setPid, pipe_setPid, hrun]
    by_cases hj : j = i
    · left
      rw [if_pos hj]
    · rw [if_neg hj]
      rcases h.child j with hneg | ⟨hpos, hj'⟩
      · exact Or.inl hneg
      · right
        have hne : ¬ (0 < p.pid i ∧ p.pid j = p.pid i) := by
          rintro ⟨_, heq⟩
          exact hj (h.pid_injective hpos heq)
        rw [if_neg hne]
        exact ⟨hpos, hj'⟩
  · rw [hrun] at hm
    split_ifs at hm with hcond
    obtain ⟨j, hj, hpos, hd⟩ := h.only m d hm
    have hji : j ≠ i := by
      rintro rfl
      exact hcond ⟨by omega, hj.symm⟩
    exact ⟨j, by rw [pid_setPid, if_neg hji, hj], hpos, by rw [hd, pipe_setPid]⟩

/-- After a make the pipe is up, or the last fork for it failed; the other pipe is as it
was. -/
theorem Keeps.make {p : Plumber} {procs : Procs} (h : p.Keeps procs) {i : Bool} {n : Int}
    (hn : procs.may_fork n = true) {r : Plumber × Procs}
    (hr : r = p.serve procs (make_line i) n) :
    r.1.Keeps r.2 ∧ (r.1.up r.2 i ∨ r.2.failed i = true) ∧
      ∀ j, j ≠ i → (r.1.up r.2 j ↔ p.up procs j) ∧ r.2.failed j = procs.failed j := by
  rw [p.serve_make procs i n h.soft] at hr
  by_cases hi : p.pid i < 0
  · rw [if_pos hi] at hr
    rw [hr]
    have hkeeps := h.forked hi hn
    refine ⟨hkeeps, ?_, fun j hj => ⟨?_, ?_⟩⟩
    · by_cases hfail : n = -1
      · right
        simp [Procs.fork, hfail]
      · left
        rw [hkeeps.up_iff, pid_setPid, if_pos rfl]
        have hnew : 0 < n ∧ procs.running n = none := by
          simpa [Procs.may_fork, hfail] using hn
        exact hnew.1
    · rw [hkeeps.up_iff, h.up_iff, pid_setPid, if_neg hj]
    · unfold Procs.fork
      split_ifs <;> simp [hj]
  · rw [if_neg hi] at hr
    rw [hr]
    refine ⟨h, Or.inl ?_, fun j _ => ⟨Iff.rfl, rfl⟩⟩
    rw [h.up_iff]
    rcases h.child i with hneg | ⟨hpos, _⟩
    · omega
    · exact hpos

theorem Keeps.make_up {p : Plumber} {procs : Procs} (h : p.Keeps procs) {i : Bool} {n : Int}
    (hn : procs.may_fork n = true) (hpos : 0 < n) {r : Plumber × Procs}
    (hr : r = p.serve procs (make_line i) n) : r.1.up r.2 i := by
  have hkeeps := (h.make hn hr).1
  rw [p.serve_make procs i n h.soft] at hr
  rw [hkeeps.up_iff, hr]
  split_ifs with hi
  · rw [pid_setPid, if_pos rfl]
    exact hpos
  · rcases h.child i with hneg | ⟨hup, _⟩
    · omega
    · exact hup

/-- After a break the pipe is down; the other pipe is as it was. -/
theorem Keeps.break {p : Plumber} {procs : Procs} (h : p.Keeps procs) {i : Bool} {n : Int}
    {r : Plumber × Procs} (hr : r = p.serve procs (break_line i) n) :
    r.1.Keeps r.2 ∧ ¬ r.1.up r.2 i ∧
      (∀ j, j ≠ i → (r.1.up r.2 j ↔ p.up procs j)) ∧ r.2.failed = procs.failed := by
  rw [p.serve_break procs i n] at hr
  rw [hr]
  have hkeeps := h.killed i
  refine ⟨hkeeps, ?_, fun j hj => ?_, ?_⟩
  · rw [hkeeps.up_iff, pid_setPid, if_pos rfl]
    omega
  · rw [hkeeps.up_iff, h.up_iff, pid_setPid, if_neg hj]
  · split_ifs <;> rfl

end Plumber

end Hoolock
