import Hoolock.DeliveryPlan

set_option autoImplicit false

namespace Hoolock

namespace World

@[simp] theorem users_lock (w : World) (n : LockName) (m : LockMode) :
    (w.lock n m).users = w.users := rfl

@[simp] theorem users_unlock (w : World) (n : LockName) (m : LockMode) :
    (w.unlock n m).users = w.users := rfl

@[simp] theorem bond_lock (w : World) (n : LockName) (m : LockMode) :
    (w.lock n m).bond = w.bond := rfl

@[simp] theorem bond_unlock (w : World) (n : LockName) (m : LockMode) :
    (w.unlock n m).bond = w.bond := rfl

@[simp] theorem trace_lock (w : World) (n : LockName) (m : LockMode) :
    (w.lock n m).trace = w.trace := rfl

@[simp] theorem trace_unlock (w : World) (n : LockName) (m : LockMode) :
    (w.unlock n m).trace = w.trace := rfl

@[simp] theorem users_queue_tail (w : World) (skb : Skb) :
    (w.skb_queue_tail skb).users = w.users := rfl

@[simp] theorem trace_queue_tail (w : World) (skb : Skb) :
    (w.skb_queue_tail skb).trace = w.trace := rfl

@[simp] theorem pbuff_queue_tail (w : World) (skb : Skb) :
    (w.skb_queue_tail skb).bond.pbuff = w.bond.pbuff ++ [skb] := rfl

@[simp] theorem users_kfree (w : World) (skb : Skb) (i : Nat) :
    (w.kfree_skb skb).users i = if i = skb.id then w.users i - 1 else w.users i := rfl

@[simp] theorem bond_kfree (w : World) (skb : Skb) : (w.kfree_skb skb).bond = w.bond := rfl

@[simp] theorem trace_kfree (w : World) (skb : Skb) : (w.kfree_skb skb).trace = w.trace := rfl

theorem hook_effect (b : Bool) (w : World) (skb : Skb) (d : DevId) :
    (hook b w skb d).2.users = (w.kfree_skb skb).users ∧
    (hook b w skb d).2.trace = w.trace ∧
    (hook b w skb d).2.bond.pbuff =
      w.bond.pbuff ++ (if b && !w.own_ip skb then [skb] else []) := by
  have hip : (w.lock .bond .read).bond.master_ip = w.bond.master_ip := rfl
  unfold hook bond_hoolock_recv_on own_ip
  dsimp only
  rw [hip]
  by_cases hown : ntohl skb.saddr = ntohl w.bond.master_ip
  · rw [if_pos hown]
    refine ⟨?_, ?_, ?_⟩
    · funext i
      simp
    · simp
    · simp [hown]
  · rw [if_neg hown]
    cases b with
    | false =>
      refine ⟨?_, ?_, ?_⟩
      · funext i
        simp
      · simp
      · simp
    | true =>
      refine ⟨?_, ?_, ?_⟩
      · funext i
        simp
      · simp
      · simp [hown]

def in_pbuff (w : World) (id : Nat) : Bool := w.bond.pbuff.any (·.id == id)

theorem in_pbuff_mono {v w : World} {q : List Skb} {id : Nat}
    (h : v.bond.pbuff = w.bond.pbuff ++ q) (hin : w.in_pbuff id = true) :
    v.in_pbuff id = true := by
  unfold in_pbuff at hin ⊢
  rw [h, List.any_append, hin, Bool.true_or]

structure Called (v : World) (pt : PacketType) (skb : Skb) (n m : Int) (c : Invocation) :
    Prop where
  handler : c.pt = pt
  packet : c.skb = skb
  before : c.users_before = n
  after : c.users_after = m
  queued : c.queued = v.in_pbuff skb.id

theorem func_effect (w : World) (b : Bool) (env : PassEnv) (pt : PacketType) (skb : Skb)
    (d : DevId) (n : Int) :
    (w.func (hook b) env pt skb d n).2.users = (w.kfree_skb skb).users ∧
    (w.func (hook b) env pt skb d n).2.bond.pbuff =
      w.bond.pbuff ++ (if w.keeps b skb pt then [skb] else []) ∧
    ∃ c, (w.func (hook b) env pt skb d n).2.trace = w.trace ++ [c] ∧
      Called (w.func (hook b) env pt skb d n).2 pt skb n (w.users skb.id - 1) c := by
  obtain ⟨hu, ht, hq⟩ := hook_effect b w skb d
  unfold func keeps
  cases pt.func with
  | other =>
    refine ⟨rfl, by simp, _, rfl, rfl, rfl, rfl, ?_, rfl⟩
    simp
  | bond_hoolock_recv =>
    refine ⟨hu, ?_, _, congrArg (· ++ _) ht, rfl, rfl, rfl, ?_, rfl⟩
    · rw [beq_self_eq_true, Bool.true_and]
      exact hq
    · dsimp only
      rw [hu]
      simp

theorem deliver_effect (w : World) (b : Bool) (env : PassEnv) (pt : PacketType) (skb : Skb)
    (d : DevId) :
    (w.deliver_skb (hook b) env pt skb d).2.users = w.users ∧
    (w.deliver_skb (hook b) env pt skb d).2.bond.pbuff =
      w.bond.pbuff ++ (if w.keeps b skb pt then [skb] else []) ∧
    ∃ c, (w.deliver_skb (hook b) env pt skb d).2.trace = w.trace ++ [c] ∧
      Called (w.deliver_skb (hook b) env pt skb d).2 pt skb (w.users skb.id)
        (w.users skb.id) c := by
  obtain ⟨hu, hq, c, ht, hc⟩ := func_effect (w.atomic_inc skb) b env pt skb d (w.users skb.id)
  refine ⟨?_, hq, c, ht, hc.handler, hc.packet, hc.before, ?_, hc.queued⟩
  · refine hu.trans ?_
    funext i
    by_cases hi : i = skb.id
    · simp [atomic_inc, hi]
    · simp [atomic_inc, hi]
  · rw [hc.after]
    simp [atomic_inc]

theorem deliver_all_effect (w : World) (b : Bool) (env : PassEnv) (f : Frame)
    (l : List PacketType) :
    (w.deliver_all b env f l).users = w.users ∧
    (w.deliver_all b env f l).bond.pbuff =
      w.bond.pbuff ++ (l.filter (w.keeps b f.skb)).map (fun _ => f.skb) ∧
    ∃ cs, (w.deliver_all b env f l).trace = w.trace ++ cs ∧ cs.map Invocation.pt = l ∧
      ∀ c ∈ cs, c.skb = f.skb ∧ c.users_before = w.users f.skb.id ∧
        c.users_after = w.users f.skb.id ∧
        (c.queued = true → (w.deliver_all b env f l).in_pbuff f.skb.id = true) := by
  induction l generalizing w with
  | nil => exact ⟨rfl, by simp [deliver_all], [], by simp [deliver_all], rfl, by simp⟩
  | cons pt rest ih =>
    obtain ⟨v, hv⟩ : ∃ v, v = (w.deliver_skb (hook b) env pt f.skb f.orig_dev).2 := ⟨_, rfl⟩
    obtain ⟨hu, hq, c, ht, hc⟩ := deliver_effect w b env pt f.skb f.orig_dev
    rw [← hv] at hu hq ht hc
    have htable : v.table = w.table :=
      hv ▸ (closed_table b w.table).deliver_skb env pt f.skb f.orig_dev rfl
    have hstep : w.deliver_all b env f (pt :: rest) = v.deliver_all b env f rest := by
      rw [hv]
      rfl
    obtain ⟨hu', hq', cs, ht', hmap, hcs⟩ := ih v
    rw [hstep]
    refine ⟨hu'.trans hu, ?_, c :: cs, ?_, ?_, ?_⟩
    · rw [hq', hq, keeps_of_table htable]
      by_cases hk : w.keeps b f.skb pt = true
      · simp [hk]
      · simp [hk]
    · rw [ht', ht, List.append_assoc]
      rfl
    · rw [List.map_cons, hmap, hc.handler]
    · intro x hx
      rcases List.mem_cons.mp hx with rfl | hx
      · refine ⟨hc.packet, hc.before, hc.after, fun hqueued => ?_⟩
        rw [hc.queued] at hqueued
        exact in_pbuff_mono hq' hqueued
      · have hxs := hcs x hx
        rw [hu] at hxs
        exact hxs

def last_users (w : World) (id : Nat) : Ending → Int
  | .kept => w.users id
  | _ => w.users id - 1

/-- Carrying out a plan: exactly the planned handlers are called, in order, each on this
packet, and the queue gets the packet from each that keeps it. -/
theorem carry_out_effect (w : World) (b : Bool) (env : PassEnv) (f : Frame) (p : Plan) :
    (w.carry_out b env f p).users f.skb.id = w.last_users f.skb.id p.ending ∧
    (∀ i, i ≠ f.skb.id → (w.carry_out b env f p).users i = w.users i) ∧
    (w.carry_out b env f p).bond.pbuff =
      w.bond.pbuff ++ (p.called.filter (w.keeps b f.skb)).map (fun _ => f.skb) ∧
    ∃ cs, (w.carry_out b env f p).trace = w.trace ++ cs ∧ cs.map Invocation.pt = p.called ∧
      (∀ c ∈ cs, c.skb = f.skb ∧ c.users_before = w.users f.skb.id ∧
        (c.queued = true → (w.carry_out b env f p).in_pbuff f.skb.id = true)) ∧
      ∀ c ∈ cs.take p.lent.length, c.users_after = w.users f.skb.id := by
  obtain ⟨v, hv⟩ : ∃ v, v = w.deliver_all b env f p.lent := ⟨_, rfl⟩
  obtain ⟨hu, hq, cs, ht, hmap, hcs⟩ := deliver_all_effect w b env f p.lent
  rw [← hv] at hu hq ht
  have hkeeps : v.keeps b f.skb = w.keeps b f.skb :=
    keeps_of_table (hv ▸ deliver_all_table w b env f p.lent) b f.skb
  have hlen : cs.length = p.lent.length := by rw [← hmap, List.length_map]
  unfold carry_out
  dsimp only
  rw [← hv]
  cases hend : p.ending with
  | kept =>
    have hcalled : p.called = p.lent := by simp [Plan.called, hend]
    rw [hcalled]
    refine ⟨congrFun hu _, fun i _ => congrFun hu i, hq, cs, ht, hmap,
      fun c hc => ⟨(hcs c hc).1, (hcs c hc).2.1, ?_⟩, fun c hc => ?_⟩
    · rw [hv]
      exact (hcs c hc).2.2.2
    · exact (hcs c (List.mem_of_mem_take hc)).2.2.1
  | freed =>
    have hcalled : p.called = p.lent := by simp [Plan.called, hend]
    rw [hcalled]
    refine ⟨?_, fun i hi => ?_, hq, cs, ht, hmap,
      fun c hc => ⟨(hcs c hc).1, (hcs c hc).2.1, ?_⟩, fun c hc => ?_⟩
    · simp [last_users, hu]
    · simp [hi, hu]
    · rw [hv]
      exact (hcs c hc).2.2.2
    · exact (hcs c (List.mem_of_mem_take hc)).2.2.1
  | direct pt =>
    have hcalled : p.called = p.lent ++ [pt] := by simp [Plan.called, hend]
    obtain ⟨hu', hq', c, ht', hc⟩ := func_effect v b env pt f.skb f.orig_dev (v.users f.skb.id)
    rw [hcalled]
    refine ⟨?_, fun i hi => ?_, ?_, cs ++ [c], ?_, ?_, fun x hx => ?_, fun x hx => ?_⟩
    · rw [hu']
      simp [last_users, hu]
    · rw [hu']
      simp [hi, hu]
    · rw [hq', hq, hkeeps, List.filter_append, List.map_append, List.append_assoc]
      congr 2
      by_cases hk : w.keeps b f.skb pt = true
      · simp [hk]
      · simp [hk]
    · rw [ht', ht, List.append_assoc]
    · rw [List.map_append, hmap]
      simp [hc.handler]
    · rcases List.mem_append.mp hx with hx | hx
      · refine ⟨(hcs x hx).1, (hcs x hx).2.1, fun hqueued => in_pbuff_mono hq' ?_⟩
        rw [hv]
        exact (hcs x hx).2.2.2 hqueued
      · obtain rfl : x = c := by simpa using hx
        refine ⟨hc.packet, by rw [hc.before, hu], fun hqueued => ?_⟩
        rw [hc.queued] at hqueued
        exact hqueued
    · rw [List.take_append_of_le_length (by omega)] at hx
      exact (hcs x (List.mem_of_mem_take hx)).2.2.1

end World

end Hoolock
