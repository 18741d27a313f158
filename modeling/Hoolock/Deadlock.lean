import Hoolock.Replay
import Hoolock.Lifetime
import Hoolock.LockProgram

/-!
The handover calls as programs over `bond->lock`, `bond->curr_slave_lock` and
`pbuff.lock`, and when any number of them can deadlock.
-/

set_option autoImplicit false

namespace Hoolock

open LockProgram

abbrev Request := LockName × LockMode

/-- Readers share, a writer excludes everybody, itself included; `pbuff.lock` is only ever
taken as a writer. -/
def locking : Locking World Request where
  conflict r r' := r.1 = r'.1 ∧ (r.2 = .write ∨ r'.2 = .write)
  grant r w := w.lock r.1 r.2
  drop r w := w.unlock r.1 r.2

abbrev Code := Prog World Request

variable [Siblings]

namespace Code

/-- `bond_ioctl_make`; in HOOLOCK mode the switch takes no lock of its own. -/
def make : Code :=
  .lock (.bond, .read) <| .lock (.curr_slave, .write) <|
  .exec World.switch_to_passive <|
  .exec (fun w => w.setBond fun b => { b with buffer_mode := 1 }) <|
  .unlock (.curr_slave, .write) <| .unlock (.bond, .read) .done

omit [Siblings] in
/-- `skb_queue_tail` takes `pbuff.lock` itself. -/
def skb_queue_tail (skb : Skb) (k : Code) : Code :=
  .lock (.pbuff, .write) <|
  .exec (fun w => w.setBond fun b => { b with pbuff := b.pbuff ++ [skb] }) <|
  .unlock (.pbuff, .write) k

omit [Siblings] in
def skb_dequeue (k : Code) : Code :=
  .lock (.pbuff, .write) <|
  .exec (fun w => w.setBond fun b => { b with pbuff := b.pbuff.tail }) <|
  .unlock (.pbuff, .write) k

omit [Siblings] in
def recv_out (skb : Skb) : Code :=
  .unlock (.curr_slave, .read) <| .unlock (.bond, .read) <|
  .exec (fun w => w.kfree_skb skb) .done

omit [Siblings] in
def recv (skb : Skb) (orig_dev : DevId) : Code :=
  .lock (.bond, .read) <| .read fun w =>
  let curr_ip := w.bond.master_ip
  .unlock (.bond, .read) <|
  if ntohl skb.saddr = ntohl curr_ip then .exec (fun w => w.kfree_skb skb) .done
  else
    .lock (.bond, .read) <| .lock (.curr_slave, .read) <| .read fun w =>
    if w.buffer_test orig_dev then
      .lock (.pbuff, .write) <| skb_queue_tail skb <| .unlock (.pbuff, .write) <| recv_out skb
    else recv_out skb

omit [Siblings] in
/-- `netif_receive_skb` as far as these locks go: the bond's handler called each time that
the pass calls it. -/
def pass (env : PassEnv) (skb : Skb) : Code :=
  .read fun w => (w.plan false env skb).called.foldr (fun pt k =>
    match pt.func with
    | .bond_hoolock_recv => .call (recv (w.frame env skb).skb (w.frame env skb).orig_dev) k
    | .other => k) .done

omit [Siblings] in
def brk_body (env : Skb → PassEnv) : Code :=
  .read fun w =>
  match w.bond.pbuff with
  | [] => .done
  | pb :: _ => skb_dequeue <| .read fun w =>
    match w.bond.curr_active_slave with
    | none => .fault
    | some s => .call (pass (env pb) { pb with dev := (w.slaves s).dev }) .done

omit [Siblings] in
def brk_loop (env : Skb → PassEnv) : Code :=
  .loop (fun w => !w.bond.pbuff.isEmpty) (brk_body env) <|
  .unlock (.curr_slave, .write) <| .unlock (.bond, .read) <| .unlock (.pbuff, .write) .done

omit [Siblings] in
def brk (env : Skb → PassEnv) : Code :=
  .lock (.pbuff, .write) <| .lock (.bond, .read) <| .lock (.curr_slave, .write) <|
  .exec (fun w => w.setBond fun b => { b with buffer_mode := 0 }) <| brk_loop env

omit [Siblings] in
/-- `bond_xmit_hoolock`; what becomes of the frame does not matter here. -/
def xmit : Code :=
  .lock (.bond, .read) <| .read fun w =>
  if !w.BOND_IS_OK then .unlock (.bond, .read) .done
  else
    match w.bond.curr_active_slave with
    | none => .fault
    | some _ => .unlock (.bond, .read) .done

omit [Siblings] in
def getactive : Code :=
  .lock (.bond, .read) <| .lock (.curr_slave, .read) <| .read fun w =>
  match w.bond.curr_active_slave with
  -- returns with both locks held
  | none => .done
  | some _ => .unlock (.curr_slave, .read) <| .unlock (.bond, .read) .done

omit [Siblings] in
def getpassive : Code :=
  .lock (.bond, .read) <| .lock (.curr_slave, .read) <|
  .unlock (.curr_slave, .read) <| .unlock (.bond, .read) .done

end Code

inductive Call where
  | make
  | brk (env : Skb → PassEnv)
  | recv (skb : Skb) (orig_dev : DevId)
  | xmit
  | getactive
  | getpassive

def Call.code : Call → Code
  | .make => Code.make
  | .brk env => Code.brk env
  | .recv skb orig_dev => Code.recv skb orig_dev
  | .xmit => Code.xmit
  | .getactive => Code.getactive
  | .getpassive => Code.getpassive

theorem make_alone (w : World) :
    Relation.ReflTransGen (Alone locking) (w, .start Code.make)
      (w.bond_ioctl_make.2, ⟨[], []⟩) := by
  refine .head (Alone.lock (by simp)) (.head (Alone.lock (by simp [locking])) ?_)
  refine .head (Alone.free rfl rfl) (.head (Alone.free rfl rfl) ?_)
  refine .head (Alone.free rfl rfl) (.head (Alone.free rfl rfl) ?_)
  exact .single (Alone.free rfl rfl)

omit [Siblings] in
theorem recv_alone (w : World) (skb : Skb) (d : DevId) :
    Relation.ReflTransGen (Alone locking) (w, .start (Code.recv skb d))
      ((w.bond_hoolock_recv skb d).2, ⟨[], []⟩) := by
  refine .head (Alone.lock (by simp)) ?_
  rw [World.bond_hoolock_recv_eq]
  unfold World.bond_hoolock_recv_on
  dsimp only
  by_cases hown : ntohl skb.saddr = ntohl (w.lock .bond .read).bond.master_ip
  · rw [if_pos hown]
    refine .head (Alone.read (congrArg (Prog.unlock _) (if_pos hown))) ?_
    refine .head (Alone.free rfl rfl) ?_
    refine .head (Alone.free rfl rfl) ?_
    exact .single (Alone.free rfl rfl)
  · rw [if_neg hown]
    refine .head (Alone.read (congrArg (Prog.unlock _) (if_neg hown))) ?_
    refine .head (Alone.free rfl rfl) ?_
    refine .head (Alone.lock (by simp)) ?_
    refine .head (Alone.lock (by simp [locking])) ?_
    refine .head (Alone.read (if_neg ?_)) ?_
    · rw [World.buffer_test_false]
      simp
    refine .head (Alone.free rfl rfl) ?_
    refine .head (Alone.free rfl rfl) ?_
    refine .head (Alone.free rfl rfl) ?_
    exact .single (Alone.free rfl rfl)

omit [Siblings] in
theorem xmit_alone {w v : World} {env : TagEnv} {r : Sent}
    (h : w.bond_xmit_hoolock env = some (r, v)) :
    Relation.ReflTransGen (Alone locking) (w, .start Code.xmit) (v, ⟨[], []⟩) := by
  obtain ⟨rfl, hcase⟩ := World.xmit_cases h
  refine .head (Alone.lock (by simp)) ?_
  have hread : (if (!(w.lock .bond .read).BOND_IS_OK) = true then
      (.unlock (.bond, .read) .done : Code)
    else
      match (w.lock .bond .read).bond.curr_active_slave with
      | none => .fault
      | some _ => .unlock (.bond, .read) .done) = .unlock (.bond, .read) .done := by
    rcases hcase with hok | ⟨s, hs⟩
    · rw [if_pos hok]
    · rw [hs]
      simp
  refine .head (Alone.read hread) ?_
  refine .head (Alone.free rfl rfl) ?_
  exact .single (Alone.free rfl rfl)

omit [Siblings] in
theorem getactive_alone (w : World) :
    Relation.ReflTransGen (Alone locking) (w, .start Code.getactive)
      (w.bond_getactive.2.2, ⟨[], if w.bond.curr_active_slave.isSome then []
        else [(.curr_slave, .read), (.bond, .read)]⟩) := by
  refine .head (Alone.lock (by simp)) ?_
  refine .head (Alone.lock (by simp [locking])) ?_
  have hsame : ((w.lock .bond .read).lock .curr_slave .read).bond.curr_active_slave =
      w.bond.curr_active_slave := rfl
  unfold World.bond_getactive
  dsimp only
  rw [hsame]
  cases ha : w.bond.curr_active_slave with
  | none =>
    have hread : (match w.bond.curr_active_slave with
      | none => (.done : Code)
      | some _ => .unlock (.curr_slave, .read) (.unlock (.bond, .read) .done)) = .done := by
      rw [ha]
    refine .head (Alone.read hread) ?_
    exact .single (Alone.free rfl rfl)
  | some s =>
    have hread : (match w.bond.curr_active_slave with
      | none => (.done : Code)
      | some _ => .unlock (.curr_slave, .read) (.unlock (.bond, .read) .done)) =
        .unlock (.curr_slave, .read) (.unlock (.bond, .read) .done) := by
      rw [ha]
    refine .head (Alone.read hread) ?_
    refine .head (Alone.free rfl rfl) ?_
    refine .head (Alone.free rfl rfl) ?_
    exact .single (Alone.free rfl rfl)

omit [Siblings] in
theorem getpassive_alone (w : World) :
    Relation.ReflTransGen (Alone locking) (w, .start Code.getpassive)
      (w.bond_getpassive.2.2, ⟨[], []⟩) := by
  have hend : w.bond_getpassive.2.2 = (((w.lock .bond .read).lock .curr_slave .read).unlock
      .curr_slave .read).unlock .bond .read := by
    unfold World.bond_getpassive
    dsimp only
    split <;> rfl
  rw [hend]
  refine .head (Alone.lock (by simp)) ?_
  refine .head (Alone.lock (by simp [locking])) ?_
  refine .head (Alone.free rfl rfl) ?_
  refine .head (Alone.free rfl rfl) ?_
  exact .single (Alone.free rfl rfl)

omit [Siblings] in
theorem brk_enters (w : World) (env : Skb → PassEnv) :
    Relation.ReflTransGen (Alone locking) (w, .start (Code.brk env))
      ((((w.lock .pbuff .write).lock .bond .read).lock .curr_slave .write).setBond
        fun b => { b with buffer_mode := 0 },
      ⟨[Code.brk_loop env], [(.curr_slave, .write), (.bond, .read), (.pbuff, .write)]⟩) := by
  refine .head (Alone.lock (by simp)) ?_
  refine .head (Alone.lock (by simp [locking])) ?_
  refine .head (Alone.lock (by simp [locking])) ?_
  exact .single (Alone.free rfl rfl)

omit [Siblings] in
theorem brk_alone {w : World} (h : w.bond.pbuff = []) {env : Skb → PassEnv} {r : Int × World}
    (hr : w.bond_ioctl_break env = some r) :
    Relation.ReflTransGen (Alone locking) (w, .start (Code.brk env)) (r.2, ⟨[], []⟩) := by
  have hq : ((((w.lock .pbuff .write).lock .bond .read).lock .curr_slave .write).setBond
      fun b => { b with buffer_mode := 0 }).bond.pbuff = [] := h
  rw [World.break_empty h, Option.some.injEq] at hr
  rw [← hr]
  refine (brk_enters w env).trans ?_
  refine .head (Alone.loop_out ?_) ?_
  · rw [hq]
    rfl
  refine .head (Alone.free rfl rfl) ?_
  refine .head (Alone.free rfl rfl) ?_
  refine .head (Alone.free rfl rfl) ?_
  exact .single (Alone.free rfl rfl)

/-- `pbuff.lock`, then `bond->lock`, then `curr_slave_lock`. -/
def rank (r : Request) : Nat :=
  match r.1 with
  | .pbuff => 0
  | .bond => 1
  | .curr_slave => 2
  | .rwsem => 3

omit [Siblings] in
theorem rank_of_conflict (r r' : Request) (h : locking.conflict r r') : rank r = rank r' := by
  unfold rank
  rw [h.1]

def OfQueue (J : World → Prop) : Prop :=
  ∀ v w : World, v.bond.pbuff = w.bond.pbuff → J w → J v

omit [Siblings] in
theorem OfQueue.grant {J : World → Prop} (h : OfQueue J) (r : Request) (w : World) (hw : J w) :
    J (locking.grant r w) := h _ w rfl hw

omit [Siblings] in
theorem OfQueue.drop {J : World → Prop} (h : OfQueue J) (r : Request) (w : World) (hw : J w) :
    J (locking.drop r w) := h _ w rfl hw

section ordered

variable {J : World → Prop}

theorem make_ordered (h : OfQueue J) :
    Ordered locking J rank Code.make [] fun _ => True := by
  have hswitch : ∀ w : World, J w → J w.switch_to_passive := fun w hw =>
    h _ w (congrArg Core.pbuff (World.core_switch_to_passive w)) hw
  refine ⟨by decide, h.grant _, by decide, h.grant _, hswitch, fun w hw => h _ w rfl hw, ?_⟩
  exact ⟨h.drop _, h.drop _, trivial⟩

omit [Siblings] in
/-- The handler takes `pbuff.lock` on a path that is never taken. -/
theorem recv_ordered (h : OfQueue J) (skb : Skb) (d : DevId) :
    Ordered locking J rank (Code.recv skb d) [] fun _ => True := by
  have hfree : ∀ w : World, J w → J (w.kfree_skb skb) := fun w hw => h _ w rfl hw
  refine ⟨by decide, h.grant _, fun w hw => ⟨h.drop _, ?_⟩⟩
  split_ifs
  · exact ⟨hfree, trivial⟩
  · refine ⟨by decide, h.grant _, by decide, h.grant _, fun v hv => ?_⟩
    dsimp only
    rw [World.buffer_test_false, if_neg (by simp)]
    exact ⟨h.drop _, h.drop _, hfree, trivial⟩

omit [Siblings] in
theorem xmit_ordered (h : OfQueue J) : Ordered locking J rank Code.xmit [] fun _ => True := by
  refine ⟨by decide, h.grant _, fun w hw => ?_⟩
  dsimp only
  split_ifs
  · exact ⟨h.drop _, trivial⟩
  · cases w.bond.curr_active_slave with
    | none => trivial
    | some s => exact ⟨h.drop _, trivial⟩

omit [Siblings] in
theorem getactive_ordered (h : OfQueue J) :
    Ordered locking J rank Code.getactive [] fun _ => True := by
  refine ⟨by decide, h.grant _, by decide, h.grant _, fun w hw => ?_⟩
  dsimp only
  cases w.bond.curr_active_slave with
  | none => trivial
  | some s => exact ⟨h.drop _, h.drop _, trivial⟩

omit [Siblings] in
theorem getpassive_ordered (h : OfQueue J) :
    Ordered locking J rank Code.getpassive [] fun _ => True :=
  ⟨by decide, h.grant _, by decide, h.grant _, h.drop _, h.drop _, trivial⟩

omit [Siblings] in
theorem brk_ordered (h : OfQueue J) (hempty : ∀ w, J w → w.bond.pbuff = [])
    (env : Skb → PassEnv) : Ordered locking J rank (Code.brk env) [] fun _ => True := by
  refine ⟨by decide, h.grant _, by decide, h.grant _, by decide, h.grant _,
    fun w hw => h _ w rfl hw, fun w hw ht => ?_, h.drop _, h.drop _, h.drop _, trivial⟩
  dsimp only at ht
  rw [hempty w hw] at ht
  cases ht

end ordered

theorem call_inOrder {J : World → Prop} (h : OfQueue J) {c : Call}
    (hbrk : ∀ env, c = .brk env → ∀ w, J w → w.bond.pbuff = []) :
    (Thread.start c.code).InOrder locking J rank := by
  cases c with
  | make => exact (make_ordered h).start
  | brk env => exact (brk_ordered h (hbrk env rfl) env).start
  | recv skb d => exact (recv_ordered h skb d).start
  | xmit => exact (xmit_ordered h).start
  | getactive => exact (getactive_ordered h).start
  | getpassive => exact (getpassive_ordered h).start

omit [Siblings] in
/-- `skb_dequeue` asks for the `pbuff.lock` that BREAK holds. -/
theorem brk_waits_for_itself {w : World} (h : w.bond.pbuff ≠ []) (env : Skb → PassEnv) :
    ∃ v th, Relation.ReflTransGen (Alone locking) (w, .start (Code.brk env)) (v, th) ∧
      th.wants = some (.pbuff, .write) ∧ (.pbuff, .write) ∈ th.held := by
  obtain ⟨v, hv⟩ : ∃ v, v = (((w.lock .pbuff .write).lock .bond .read).lock .curr_slave
    .write).setBond fun b => { b with buffer_mode := 0 } := ⟨_, rfl⟩
  have hq : v.bond.pbuff = w.bond.pbuff := by
    rw [hv]
    rfl
  obtain ⟨pb, rest, hpb⟩ := List.exists_cons_of_ne_nil h
  have hread : ∃ k, (match v.bond.pbuff with
      | [] => (.done : Code)
      | pb :: _ => Code.skb_dequeue <| .read fun w =>
        match w.bond.curr_active_slave with
        | none => .fault
        | some s => .call (Code.pass (env pb) { pb with dev := (w.slaves s).dev }) .done) =
        .lock (.pbuff, .write) k := by
    rw [hq, hpb]
    exact ⟨_, rfl⟩
  obtain ⟨k, hk⟩ := hread
  have hpath := brk_enters w env
  rw [← hv] at hpath
  refine ⟨v, _, hpath.trans (.head (Alone.loop_in ?_) (.single (Alone.read hk))), rfl, by simp⟩
  rw [hq, hpb]
  rfl

theorem brk_deadlocks {ι : Type} [DecidableEq ι] {calls : ι → Call} {w : World}
    (h : w.bond.pbuff ≠ []) {i : ι} {env : Skb → PassEnv} (hi : calls i = .brk env) :
    ∃ t, Relation.ReflTransGen (State.Step locking) ⟨w, fun i => .start (calls i).code⟩ t ∧
      t.Deadlock locking := by
  obtain ⟨v, th, hpath, hwants, hheld⟩ := brk_waits_for_itself h env
  have hlift := Alone.lift (T := fun i => Thread.start (calls i).code) (i := i)
    (fun _ _ => rfl) hpath
  have hstart : Function.update (fun i => Thread.start (calls i).code) i
      (Thread.start (Code.brk env)) = fun i => Thread.start (calls i).code := by
    rw [Function.update_eq_self_iff, hi]
    rfl
  dsimp only at hlift
  rw [hstart] at hlift
  refine ⟨_, hlift, i, .single ⟨(.pbuff, .write), (.pbuff, .write), ?_, ?_, rfl, Or.inl rfl⟩⟩
  · simpa using hwants
  · simpa using hheld

/-- Any number of handover calls, in any interleaving, are free of deadlock just in case
the queue is empty or none of them is BREAK. -/
theorem handover_deadlock_free_iff {ι : Type} [DecidableEq ι] (calls : ι → Call) (w : World) :
    (∀ t, Relation.ReflTransGen (State.Step locking) ⟨w, fun i => .start (calls i).code⟩ t →
      ¬ t.Deadlock locking) ↔
    w.bond.pbuff = [] ∨ ∀ i env, calls i ≠ .brk env := by
  constructor
  · intro hfree
    by_contra hno
    rw [not_or] at hno
    obtain ⟨hne, hcalls⟩ := hno
    push Not at hcalls
    obtain ⟨i, env, hi⟩ := hcalls
    obtain ⟨t, ht, hdead⟩ := brk_deadlocks hne hi
    exact hfree t ht hdead
  · intro hcase t ht
    rcases hcase with hq | hno
    · refine reachable_no_deadlock (J := fun v => v.bond.pbuff = []) rank_of_conflict hq
        (fun i => ?_) ht
      exact call_inOrder (fun _ _ heq hw => heq.trans hw) fun _ _ _ hw => hw
    · refine reachable_no_deadlock (J := fun _ => True) rank_of_conflict trivial
        (fun i => ?_) ht
      exact call_inOrder (fun _ _ _ _ => trivial) fun env hc => absurd hc (hno i env)

omit [Siblings] in
/-- One queued packet and one call of BREAK. -/
theorem break_deadlocks :
    ∃ t, Relation.ReflTransGen (State.Step locking)
      ⟨bond0.setBond fun b => { b with buffer_mode := 1, pbuff := [on_card 1 2] },
        fun _ : Unit => .start (@Call.code noSiblings (.brk fun _ => .plain))⟩ t ∧
      t.Deadlock locking := by
  have hne : (bond0.setBond fun b =>
      { b with buffer_mode := 1, pbuff := [on_card 1 2] }).bond.pbuff ≠ [] := List.cons_ne_nil _ _
  exact @brk_deadlocks noSiblings Unit _ (fun _ => .brk fun _ => .plain) _ hne () _ rfl

end Hoolock
