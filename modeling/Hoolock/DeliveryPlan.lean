import Hoolock.Handover

/-!
What a pass of `netif_receive_skb` does, told without its late deliveries: which
handlers are called with a reference of their own, in what order, and how the packet's own
reference ends.
-/

set_option autoImplicit false

namespace Hoolock

/-- How the packet's own reference ends: with a direct call of the last handler, with
`kfree_skb`, or not at all. -/
inductive Ending where
  | direct (pt : PacketType)
  | freed
  | kept
  deriving DecidableEq

structure Plan where
  lent : List PacketType
  ending : Ending

namespace Plan

def called (p : Plan) : List PacketType :=
  match p.ending with
  | .direct pt => p.lent ++ [pt]
  | _ => p.lent

/-- The end of the function: the last handler waits for its direct call. -/
def close (l : List PacketType) : Plan :=
  match l.getLast? with
  | some pt => ⟨l.dropLast, .direct pt⟩
  | none => ⟨[], .freed⟩

def after (l : List PacketType) (p : Plan) : Plan := ⟨l ++ p.lent, p.ending⟩

@[simp] theorem called_after (l : List PacketType) (p : Plan) :
    (p.after l).called = l ++ p.called := by
  unfold called after
  cases p.ending <;> simp

theorem dropLast_append_toList {α : Type} (l : List α) :
    l.dropLast ++ l.getLast?.toList = l := by
  cases h : l.getLast? with
  | none =>
    rw [List.getLast?_eq_none_iff.mp h]
    rfl
  | some a => exact List.dropLast_append_getLast? a h

@[simp] theorem called_close (l : List PacketType) : (close l).called = l := by
  unfold close called
  cases h : l.getLast? with
  | none => exact (List.getLast?_eq_none_iff.mp h).symm
  | some pt =>
    dsimp only
    exact List.dropLast_append_getLast? pt h

theorem after_close (k : List PacketType) {l : List PacketType} (h : l ≠ []) :
    (close l).after k = close (k ++ l) := by
  rcases List.eq_nil_or_concat l with rfl | ⟨m, pt, rfl⟩
  · exact absurd rfl h
  · have hlast : (k ++ (m ++ [pt])).getLast? = some pt := by simp
    have hdrop : (k ++ (m ++ [pt])).dropLast = k ++ m := by
      rw [← List.append_assoc, List.dropLast_concat]
    rw [List.concat_eq_append]
    unfold close after
    rw [hlast, hdrop]
    simp

end Plan

namespace PassEnv

/-- Some hook takes the packet; a packet marked `TC_NCLS` skips the ingress filter. -/
def takes (env : PassEnv) (tc_ncls : Bool) : Bool :=
  !tc_ncls && env.ing == .takes || env.bridge == .takes || env.macvlan == .takes

def present (env : PassEnv) (tc_ncls : Bool) : Bool :=
  !tc_ncls && env.ing != .absent || env.bridge != .absent || env.macvlan != .absent

theorem takes_here {env : PassEnv} (h : env.ing = .takes) : env.takes false = true := by
  unfold takes
  rw [h]
  rfl

theorem present_here {env : PassEnv} (h : env.ing = .passes) : env.present false = true := by
  unfold present
  rw [h]
  rfl

theorem takes_past {env : PassEnv} (h : env.ing ≠ .takes) (tc_ncls : Bool) :
    env.takes tc_ncls = env.takes true := by
  unfold takes
  rw [beq_eq_false_iff_ne.mpr h, Bool.and_false, Bool.and_false]

theorem present_past {env : PassEnv} (h : env.ing = .absent) (tc_ncls : Bool) :
    env.present tc_ncls = env.present true := by
  unfold present
  rw [h, bne_self_eq_false, Bool.and_false, Bool.and_false]

end PassEnv

namespace Frame

def taps (f : Frame) (port : Port) (all : List PacketType) : List PacketType :=
  if f.skb.tc_ncls then [] else all.filter (f.accepts port)

def protos (f : Frame) (port : Port) (base : List PacketType) : List PacketType :=
  base.filter fun pt => pt.type == f.skb.protocol && f.accepts port pt

/-- `keeps` tells the handlers that queue the packet and report so. -/
def plan (f : Frame) (env : PassEnv) (keeps : PacketType → Bool)
    (taps protos : List PacketType) : Plan :=
  if taps.dropLast.any keeps then ⟨taps.dropLast, .kept⟩
  else if env.takes f.skb.tc_ncls then ⟨taps, .freed⟩
  else if env.present f.skb.tc_ncls then (Plan.close protos).after taps
  else if protos ≠ [] ∧ taps.getLast?.any keeps then ⟨taps, .kept⟩
  else Plan.close (taps ++ protos)

end Frame

namespace World

/-- The bond's handler with the outcome `b` of its buffer test. -/
def hook (b : Bool) : Recv := fun w skb _ => w.bond_hoolock_recv_on (fun _ => b) skb

/-- The test of the source never succeeds. -/
theorem recv_hook : bond_hoolock_recv = hook false := by
  funext w skb d
  rw [bond_hoolock_recv_eq]
  rfl

def own_ip (w : World) (skb : Skb) : Bool := ntohl skb.saddr == ntohl w.bond.master_ip

/-- The words are compared in host order, which tells the same addresses apart. -/
theorem own_ip_iff (w : World) (skb : Skb) :
    w.own_ip skb = true ↔ skb.saddr = w.bond.master_ip := by
  unfold own_ip
  rw [beq_iff_eq]
  exact ⟨ntohl_injective, congrArg ntohl⟩

def keeps (w : World) (b : Bool) (skb : Skb) (pt : PacketType) : Bool :=
  pt.func == .bond_hoolock_recv && b && !w.own_ip skb

def deliver_all (w : World) (b : Bool) (env : PassEnv) (f : Frame) (l : List PacketType) :
    World :=
  l.foldl (fun v pt => (v.deliver_skb (hook b) env pt f.skb f.orig_dev).2) w

def carry_out (w : World) (b : Bool) (env : PassEnv) (f : Frame) (p : Plan) : World :=
  let v := w.deliver_all b env f p.lent
  match p.ending with
  | .direct pt => (v.func (hook b) env pt f.skb f.orig_dev (v.users f.skb.id)).2
  | .freed => v.kfree_skb f.skb
  | .kept => v

/-- The settings a pass reads and leaves alone. -/
structure Table where
  port : Port
  ptype_all : List PacketType
  ptype_base : Nat → List PacketType
  master_ip : Be32

def table (w : World) : Table := ⟨w.port, w.ptype_all, w.ptype_base, w.bond.master_ip⟩

@[simp] theorem table_lock (w : World) (n : LockName) (m : LockMode) :
    (w.lock n m).table = w.table := rfl

@[simp] theorem table_unlock (w : World) (n : LockName) (m : LockMode) :
    (w.unlock n m).table = w.table := rfl

@[simp] theorem table_kfree_skb (w : World) (skb : Skb) : (w.kfree_skb skb).table = w.table := rfl

@[simp] theorem table_skb_queue_tail (w : World) (skb : Skb) :
    (w.skb_queue_tail skb).table = w.table := by
  simp only [skb_queue_tail, table_unlock]
  rfl

theorem port_of_table {v w : World} (h : v.table = w.table) : v.port = w.port :=
  congrArg Table.port h

theorem keeps_of_table {v w : World} (h : v.table = w.table) (b : Bool) (skb : Skb) :
    v.keeps b skb = w.keeps b skb := by
  have hip : v.bond.master_ip = w.bond.master_ip := congrArg Table.master_ip h
  funext pt
  unfold World.keeps own_ip
  rw [hip]

theorem hook_table (b : Bool) (w : World) (skb : Skb) (d : DevId) :
    (hook b w skb d).2.table = w.table := by
  unfold hook bond_hoolock_recv_on
  dsimp only
  split_ifs <;> simp

theorem closed_table (b : Bool) (t : Table) : Closed (hook b) fun v => v.table = t where
  recv v skb d h := (hook_table b v skb d).trans h
  users _ _ h := h
  note _ _ h := h

/-- The code `-EHOOLOCKBUFF` comes from a handler that queued the packet and from no other. -/
theorem deliver_ret (w : World) (b : Bool) (env : PassEnv) (pt : PacketType) (skb : Skb)
    (d : DevId) : (w.deliver_skb (hook b) env pt skb d).1 = -EHOOLOCKBUFF ↔
      w.keeps b skb pt = true := by
  unfold deliver_skb func keeps own_ip
  cases pt.func with
  | other => simpa using (env.verdict pt).property
  | bond_hoolock_recv =>
    unfold hook bond_hoolock_recv_on
    dsimp only
    have hip : ((w.atomic_inc skb).lock .bond .read).bond.master_ip = w.bond.master_ip := rfl
    rw [hip]
    cases b <;> split_ifs <;> simp_all [NET_RX_SUCCESS, EHOOLOCKBUFF]

theorem deliver_all_table (w : World) (b : Bool) (env : PassEnv) (f : Frame)
    (l : List PacketType) : (w.deliver_all b env f l).table = w.table := by
  have hloop : ∀ v : World, v.table = w.table → (v.deliver_all b env f l).table = w.table := by
    induction l with
    | nil => exact fun v hv => hv
    | cons pt rest ih =>
      exact fun v hv => ih _ ((closed_table b w.table).deliver_skb env pt f.skb f.orig_dev hv)
  exact hloop w rfl

end World

open World

namespace Frame

theorem deliver_world (f : Frame) (b : Bool) (env : PassEnv) (p : Pass) :
    (f.deliver (hook b) env p).world = p.world.deliver_all b env f p.pt_prev.toList := by
  unfold deliver
  cases p.pt_prev <;> rfl

theorem deliver_buffered (f : Frame) (recv : Recv) (env : PassEnv) (p : Pass) :
    (f.deliver recv env p).buffered = p.buffered := by
  unfold deliver
  cases p.pt_prev <;> rfl

theorem deliver_ret (f : Frame) (b : Bool) (env : PassEnv) (p : Pass) :
    (p.pt_prev.isSome && (f.deliver (hook b) env p).ret == -EHOOLOCKBUFF) =
      p.pt_prev.any (p.world.keeps b f.skb) := by
  unfold deliver
  cases h : p.pt_prev with
  | none => simp
  | some pt =>
    have hr := World.deliver_ret p.world b env pt f.skb f.orig_dev
    rw [Bool.eq_iff_iff]
    simpa using hr

theorem deliver_all_append (w : World) (b : Bool) (env : PassEnv) (f : Frame)
    (l m : List PacketType) :
    w.deliver_all b env f (l ++ m) = (w.deliver_all b env f l).deliver_all b env f m := by
  unfold World.deliver_all
  exact List.foldl_append

theorem taps_spec (f : Frame) (b : Bool) (env : PassEnv) (l : List PacketType) (p : Pass) :
    (l.foldl (f.tap (hook b) env) p).world = p.world.deliver_all b env f
        (p.pt_prev.toList ++ l.filter (f.accepts p.world.port)).dropLast ∧
    (l.foldl (f.tap (hook b) env) p).pt_prev =
        (p.pt_prev.toList ++ l.filter (f.accepts p.world.port)).getLast? ∧
    (l.foldl (f.tap (hook b) env) p).buffered = (p.buffered ||
        (p.pt_prev.toList ++ l.filter (f.accepts p.world.port)).dropLast.any
          (p.world.keeps b f.skb)) := by
  induction l generalizing p with
  | nil =>
    cases h : p.pt_prev with
    | none => simp [h, World.deliver_all]
    | some pt => simp [h, World.deliver_all]
  | cons pt rest ih =>
    rw [List.foldl_cons]
    by_cases hacc : f.accepts p.world.port pt = true
    · obtain ⟨q, hq⟩ : ∃ q, q = f.tap (hook b) env p pt := ⟨_, rfl⟩
      have hqw : q.world = p.world.deliver_all b env f p.pt_prev.toList := by
        rw [hq]
        unfold tap
        rw [if_pos hacc]
        exact deliver_world f b env p
      have hqp : q.pt_prev = some pt := by
        rw [hq]
        unfold tap
        rw [if_pos hacc]
      have hqb : q.buffered = (p.buffered || p.pt_prev.any (p.world.keeps b f.skb)) := by
        rw [hq]
        unfold tap
        rw [if_pos hacc]
        dsimp only
        rw [deliver_buffered, deliver_ret]
      have htable : q.world.table = p.world.table := hqw ▸ deliver_all_table _ b env f _
      obtain ⟨hw, hp, hb⟩ := ih q
      rw [port_of_table htable, keeps_of_table htable] at hb
      rw [port_of_table htable] at hw hp
      rw [← hq, hw, hp, hb, hqw, hqp, hqb, List.filter_cons_of_pos hacc, ← deliver_all_append]
      cases p.pt_prev with
      | none => simp
      | some a => simp [Bool.or_assoc]
    · have hskip : f.tap (hook b) env p pt = p := by
        unfold tap
        rw [if_neg hacc]
      rw [hskip, List.filter_cons_of_neg hacc]
      exact ih p

theorem protocols_skip (f : Frame) (b : Bool) (env : PassEnv) {pt : PacketType}
    (rest : List PacketType) {p : Pass}
    (hacc : ¬ (pt.type = f.skb.protocol ∧ f.accepts p.world.port pt = true)) :
    f.protocols (hook b) env (pt :: rest) p = f.protocols (hook b) env rest p ∧
      f.protos p.world.port (pt :: rest) = f.protos p.world.port rest := by
  constructor
  · rw [protocols, if_neg hacc]
  · unfold protos
    rw [List.filter_cons_of_neg]
    simpa using hacc

/-- The loop over `ptype_base` when no waiting handler queues the packet. -/
theorem protocols_through (f : Frame) (b : Bool) (env : PassEnv) {l : List PacketType}
    {p : Pass} (hl : ∀ pt ∈ l, p.world.keeps b f.skb pt = false)
    (hp : p.pt_prev.any (p.world.keeps b f.skb) = false) :
    (f.protocols (hook b) env l p).1.world = p.world.deliver_all b env f
        (p.pt_prev.toList ++ f.protos p.world.port l).dropLast ∧
    (f.protocols (hook b) env l p).1.pt_prev =
        (p.pt_prev.toList ++ f.protos p.world.port l).getLast? ∧
    (f.protocols (hook b) env l p).2 = false := by
  induction l generalizing p with
  | nil =>
    cases h : p.pt_prev with
    | none => simp [protocols, protos, h, World.deliver_all]
    | some pt => simp [protocols, protos, h, World.deliver_all]
  | cons pt rest ih =>
    by_cases hacc : pt.type = f.skb.protocol ∧ f.accepts p.world.port pt = true
    · obtain ⟨q, hq⟩ : ∃ q, q = f.deliver (hook b) env p := ⟨_, rfl⟩
      have hqw : q.world = p.world.deliver_all b env f p.pt_prev.toList :=
        hq ▸ deliver_world f b env p
      have htable : q.world.table = p.world.table := hqw ▸ deliver_all_table _ b env f _
      have hret := deliver_ret f b env p
      rw [hp, ← hq] at hret
      have hstep : f.protocols (hook b) env (pt :: rest) p =
          f.protocols (hook b) env rest { q with pt_prev := some pt } := by
        rw [protocols, if_pos hacc]
        dsimp only
        rw [← hq, if_neg]
        rintro ⟨hsome, hcode⟩
        simp [hsome, hcode] at hret
      have hmatch : f.protos p.world.port (pt :: rest) = pt :: f.protos p.world.port rest := by
        unfold protos
        rw [List.filter_cons_of_pos]
        simpa using hacc
      obtain ⟨hw, hpv, hout⟩ := ih (p := { q with pt_prev := some pt })
        (fun x hx => by
          rw [keeps_of_table htable]
          exact hl x (by simp [hx]))
        (by
          rw [Option.any_some, keeps_of_table htable]
          exact hl pt (by simp))
      dsimp only at hw hpv
      rw [port_of_table htable] at hw hpv
      rw [hstep, hw, hpv, hout, hqw, hmatch, ← deliver_all_append]
      cases p.pt_prev with
      | none => simp
      | some a => simp
    · obtain ⟨hstep, hmatch⟩ := f.protocols_skip b env rest hacc
      rw [hstep, hmatch]
      exact ih (fun x hx => hl x (by simp [hx])) hp

/-- The loop is left at its first match when the waiting handler queues the packet. -/
theorem protocols_out (f : Frame) (b : Bool) (env : PassEnv) {l : List PacketType}
    {p : Pass} (hl : f.protos p.world.port l ≠ [])
    (hp : p.pt_prev.any (p.world.keeps b f.skb) = true) :
    (f.protocols (hook b) env l p).1.world =
        p.world.deliver_all b env f p.pt_prev.toList ∧
    (f.protocols (hook b) env l p).2 = true := by
  induction l with
  | nil => exact absurd rfl hl
  | cons pt rest ih =>
    by_cases hacc : pt.type = f.skb.protocol ∧ f.accepts p.world.port pt = true
    · have hret := deliver_ret f b env p
      rw [hp] at hret
      have hboth := Bool.and_eq_true_iff.mp hret
      have hstep : f.protocols (hook b) env (pt :: rest) p = (f.deliver (hook b) env p, true) := by
        rw [protocols, if_pos hacc]
        dsimp only
        rw [if_pos ⟨hboth.1, eq_of_beq hboth.2⟩]
      rw [hstep]
      exact ⟨deliver_world f b env p, rfl⟩
    · obtain ⟨hstep, hmatch⟩ := f.protocols_skip b env rest hacc
      rw [hstep]
      exact ih (hmatch ▸ hl)

theorem protocols_none (f : Frame) (b : Bool) (env : PassEnv) {l : List PacketType}
    {p : Pass} (hl : f.protos p.world.port l = []) :
    f.protocols (hook b) env l p = (p, false) := by
  induction l with
  | nil => rfl
  | cons pt rest ih =>
    unfold protos at hl
    rw [List.filter_eq_nil_iff] at hl
    have hskip : ¬ (pt.type = f.skb.protocol ∧ f.accepts p.world.port pt = true) := by
      have := hl pt (by simp)
      simpa using this
    rw [protocols, if_neg hskip]
    refine ih (List.filter_eq_nil_iff.mpr fun x hx => hl x (by simp [hx]))

theorem carry_out_after (w : World) (b : Bool) (env : PassEnv) (f : Frame)
    (l : List PacketType) (p : Plan) :
    (w.deliver_all b env f l).carry_out b env f p = w.carry_out b env f (p.after l) := by
  unfold World.carry_out Plan.after
  dsimp only
  rw [deliver_all_append]

theorem finish_spec (f : Frame) (b : Bool) (env : PassEnv) {w : World} {l : List PacketType}
    {p : Pass} (hw : p.world = w.deliver_all b env f l.dropLast)
    (hp : p.pt_prev = l.getLast?) :
    (f.finish (hook b) env p).2 = w.carry_out b env f (Plan.close l) := by
  unfold finish Plan.close
  rw [hp, hw]
  cases h : l.getLast? with
  | none =>
    rw [List.getLast?_eq_none_iff.mp h]
    rfl
  | some pt => rfl

theorem handle_spec (f : Frame) (b : Bool) (env : PassEnv) (hk : Hook) (p : Pass) :
    f.handle (hook b) env hk p = match hk with
      | .absent => (p, false)
      | .passes => ({ f.deliver (hook b) env p with pt_prev := none }, false)
      | .takes => ({ f.deliver (hook b) env p with
          pt_prev := none
          world := (p.world.deliver_all b env f p.pt_prev.toList).kfree_skb f.skb }, true) := by
  unfold handle
  cases hk with
  | absent => rfl
  | passes => rfl
  | takes =>
    dsimp only
    rw [deliver_world]

theorem protocols_finish (f : Frame) (b : Bool) (env : PassEnv) {l : List PacketType}
    (p : Pass) (hl : ∀ pt ∈ l, p.world.keeps b f.skb pt = false) :
    (if (f.protocols (hook b) env l p).2 then
        ((f.protocols (hook b) env l p).1.ret, (f.protocols (hook b) env l p).1.world)
      else f.finish (hook b) env (f.protocols (hook b) env l p).1).2 =
    p.world.carry_out b env f
      (if f.protos p.world.port l ≠ [] ∧ p.pt_prev.any (p.world.keeps b f.skb) then
        ⟨p.pt_prev.toList, .kept⟩
      else Plan.close (p.pt_prev.toList ++ f.protos p.world.port l)) := by
  by_cases hprev : p.pt_prev.any (p.world.keeps b f.skb) = true
  · by_cases hnil : f.protos p.world.port l = []
    · rw [protocols_none f b env hnil, if_neg (by simp), if_neg (by simp [hnil]), hnil]
      refine finish_spec f b env ?_ ?_
      · cases p.pt_prev <;> rfl
      · cases p.pt_prev <;> rfl
    · obtain ⟨hw, hout⟩ := protocols_out f b env hnil hprev
      rw [hout, if_pos rfl, if_pos ⟨hnil, hprev⟩, hw]
      rfl
  · have hprev : p.pt_prev.any (p.world.keeps b f.skb) = false := by simpa using hprev
    obtain ⟨hw, hp, hout⟩ := protocols_through f b env hl hprev
    rw [hout, if_neg (by simp), if_neg (by simp [hprev])]
    exact finish_spec f b env hw hp

theorem upper_spec (f : Frame) (b : Bool) (env : PassEnv) (p : Pass)
    (hbase : ∀ pt ∈ p.world.ptype_base (f.skb.protocol % 16),
      p.world.keeps b f.skb pt = false) :
    (f.upper (hook b) env p).2 = p.world.carry_out b env f
      (let protos := f.protos p.world.port (p.world.ptype_base (f.skb.protocol % 16))
      if env.takes true then ⟨p.pt_prev.toList, .freed⟩
      else if env.present true then (Plan.close protos).after p.pt_prev.toList
      else if protos ≠ [] ∧ p.pt_prev.any (p.world.keeps b f.skb) then
        ⟨p.pt_prev.toList, .kept⟩
      else Plan.close (p.pt_prev.toList ++ protos)) := by
  -- after a hook that lets the packet through no handler waits
  have hthrough : ∀ q : Pass, q.pt_prev = none →
      q.world = p.world.deliver_all b env f p.pt_prev.toList →
      (if (f.protocols (hook b) env (q.world.ptype_base (f.skb.protocol % 16)) q).2 then
          ((f.protocols (hook b) env (q.world.ptype_base (f.skb.protocol % 16)) q).1.ret,
            (f.protocols (hook b) env (q.world.ptype_base (f.skb.protocol % 16)) q).1.world)
        else f.finish (hook b) env
          (f.protocols (hook b) env (q.world.ptype_base (f.skb.protocol % 16)) q).1).2 =
      p.world.carry_out b env f ((Plan.close (f.protos p.world.port
        (p.world.ptype_base (f.skb.protocol % 16)))).after p.pt_prev.toList) := by
    intro q hnone hw
    have htable : q.world.table = p.world.table := hw ▸ deliver_all_table _ b env f _
    have hpb : q.world.ptype_base = p.world.ptype_base := congrArg Table.ptype_base htable
    have hfin := protocols_finish f b env (l := q.world.ptype_base (f.skb.protocol % 16)) q
      fun pt hpt => by
        rw [keeps_of_table htable]
        rw [hpb] at hpt
        exact hbase pt hpt
    rw [hfin, hnone, hpb, port_of_table htable, hw]
    simp only [Option.any_none, Bool.false_eq_true, and_false, if_false, Option.toList_none,
      List.nil_append]
    exact carry_out_after _ b env f _ _
  unfold upper
  simp only [handle_spec]
  cases hbr : env.bridge with
  | takes => simp [PassEnv.takes, hbr, World.carry_out]
  | passes =>
    cases hmac : env.macvlan with
    | takes => simp [PassEnv.takes, hbr, hmac, World.carry_out, deliver_world, World.deliver_all]
    | passes =>
      simp only [PassEnv.takes, PassEnv.present, hbr, hmac]
      exact hthrough { f.deliver (hook b) env p with pt_prev := none } rfl
        (deliver_world f b env p)
    | absent =>
      simp only [PassEnv.takes, PassEnv.present, hbr, hmac]
      exact hthrough { f.deliver (hook b) env p with pt_prev := none } rfl
        (deliver_world f b env p)
  | absent =>
    cases hmac : env.macvlan with
    | takes => simp [PassEnv.takes, hbr, hmac, World.carry_out]
    | passes =>
      simp only [PassEnv.takes, PassEnv.present, hbr, hmac]
      exact hthrough { f.deliver (hook b) env p with pt_prev := none } rfl
        (deliver_world f b env p)
    | absent =>
      simp only [PassEnv.takes, PassEnv.present, hbr, hmac]
      exact protocols_finish f b env p hbase

theorem deliver_all_pending {w v : World} {b : Bool} {env : PassEnv} {f : Frame}
    {l : List PacketType} (hv : v = w.deliver_all b env f l.dropLast) :
    v.deliver_all b env f l.getLast?.toList = w.deliver_all b env f l := by
  rw [hv, ← deliver_all_append, Plan.dropLast_append_toList]

theorem start_spec (f : Frame) (b : Bool) (env : PassEnv) (w : World)
    (hbase : ∀ pt ∈ w.ptype_base (f.skb.protocol % 16), w.keeps b f.skb pt = false) :
    (f.start (hook b) env w).2 = w.carry_out b env f
      (f.plan env (w.keeps b f.skb) (f.taps w.port w.ptype_all)
        (f.protos w.port (w.ptype_base (f.skb.protocol % 16)))) := by
  unfold start
  by_cases hncls : f.skb.tc_ncls = true
  · rw [if_pos hncls, upper_spec f b env _ hbase]
    simp [plan, taps, hncls, Plan.after]
  · rw [if_neg hncls]
    have hncls : f.skb.tc_ncls = false := by simpa using hncls
    obtain ⟨p, hp⟩ : ∃ p, p = w.ptype_all.foldl (f.tap (hook b) env)
        { ret := NET_RX_DROP, pt_prev := none, buffered := false, world := w } := ⟨_, rfl⟩
    obtain ⟨T, hT⟩ : ∃ T, T = f.taps w.port w.ptype_all := ⟨_, rfl⟩
    have hTf : T = w.ptype_all.filter (f.accepts w.port) := by
      rw [hT, taps, if_neg (by simp [hncls])]
    obtain ⟨hw, hprev, hbuf⟩ := taps_spec f b env w.ptype_all
      { ret := NET_RX_DROP, pt_prev := none, buffered := false, world := w }
    simp only [Option.toList_none, List.nil_append, Bool.false_or, ← hTf, ← hp] at hw hprev hbuf
    have htable : p.world.table = w.table := hw ▸ deliver_all_table _ b env f _
    have hpb : p.world.ptype_base = w.ptype_base := congrArg Table.ptype_base htable
    have hall : p.world.deliver_all b env f p.pt_prev.toList = w.deliver_all b env f T := by
      rw [hprev]
      exact deliver_all_pending hw
    -- what comes after the loop, from a state in which all taps were called
    have hupper : ∀ q : Pass, q.pt_prev = none → q.world = w.deliver_all b env f T →
        (f.upper (hook b) env q).2 = w.carry_out b env f
          (if env.takes true then ⟨T, .freed⟩
          else (Plan.close (f.protos w.port (w.ptype_base (f.skb.protocol % 16)))).after T) := by
      intro q hnone hq
      have hqt : q.world.table = w.table := hq ▸ deliver_all_table _ b env f _
      have hqb : q.world.ptype_base = w.ptype_base := congrArg Table.ptype_base hqt
      rw [upper_spec f b env q fun pt hpt => by
        rw [keeps_of_table hqt]
        rw [hqb] at hpt
        exact hbase pt hpt]
      rw [hnone, hqb, port_of_table hqt, hq, carry_out_after]
      split_ifs <;> simp_all [Plan.after]
    unfold lower
    dsimp only
    rw [← hp, ← hT, hbuf]
    unfold plan
    by_cases hkeep : T.dropLast.any (w.keeps b f.skb) = true
    · rw [if_pos hkeep, if_pos hkeep, hw]
      rfl
    · rw [if_neg hkeep, if_neg hkeep, handle_spec]
      cases hing : env.ing with
      | takes =>
        rw [hncls, if_pos (PassEnv.takes_here hing)]
        simp only [if_true, World.carry_out, ← hall]
      | passes =>
        rw [PassEnv.takes_past (by simp [hing]), hncls, PassEnv.present_here hing, if_pos rfl]
        exact hupper { f.deliver (hook b) env p with pt_prev := none } rfl
          ((deliver_world f b env p).trans hall)
      | absent =>
        have hsplit := Plan.dropLast_append_toList T
        have hup := upper_spec f b env p fun pt hpt => by
          rw [keeps_of_table htable]
          rw [hpb] at hpt
          exact hbase pt hpt
        rw [PassEnv.takes_past (by simp [hing]), PassEnv.present_past hing]
        refine hup.trans ?_
        rw [hprev, hpb, port_of_table htable, keeps_of_table htable, hw, carry_out_after]
        dsimp only
        split_ifs
        · rw [Plan.after, hsplit]
        · rw [Plan.after, Plan.after, Plan.after, ← List.append_assoc, hsplit]
        · rw [Plan.after, hsplit]
        · cases hlast : T.getLast? with
          | none => rw [List.getLast?_eq_none_iff.mp hlast]; rfl
          | some pt =>
            rw [hlast] at hsplit
            rw [Plan.after_close _ (by simp), ← List.append_assoc, hsplit]

end Frame

namespace World

def plan (w : World) (b : Bool) (env : PassEnv) (skb : Skb) : Plan :=
  let f := w.frame env skb
  let p := f.plan env (w.keeps b f.skb) (f.taps w.port w.ptype_all)
    (f.protos w.port (w.ptype_base (f.skb.protocol % 16)))
  match w.port with
  | .k27 =>
    if skb.vlan_tci ≠ 0 ∧ env.vlan_takes then ⟨[], .freed⟩
    else if env.netpoll_takes then ⟨[], .freed⟩
    else if !env.net_alive then ⟨[], .kept⟩
    else p
  | .k24 =>
    if env.netpoll_takes then ⟨[], .freed⟩
    else if f.exact then ⟨[], .freed⟩
    else p

theorem frame_id (w : World) (env : PassEnv) (skb : Skb) :
    (w.frame env skb).skb.id = skb.id := by
  unfold frame
  split
  · rfl
  · split_ifs <;> rfl

/-- `netif_receive_skb` carries out its plan, in both kernels. -/
theorem netif_receive_skb_plan (w : World) (b : Bool) (env : PassEnv) (skb : Skb)
    (hbase : ∀ k, ∀ pt ∈ w.ptype_base k, pt.func = .other) :
    (w.netif_receive_skb (hook b) env skb).2 =
      w.carry_out b env (w.frame env skb) (w.plan b env skb) := by
  obtain ⟨f, hf⟩ : ∃ f, f = w.frame env skb := ⟨_, rfl⟩
  have hid : f.skb.id = skb.id := hf ▸ frame_id w env skb
  have hkfree : ∀ v : World, v.kfree_skb f.skb = v.kfree_skb skb := by
    intro v
    unfold kfree_skb
    rw [hid]
  have hstart := f.start_spec b env w fun pt hpt => by
    unfold World.keeps
    rw [hbase _ pt hpt]
    rfl
  unfold netif_receive_skb plan
  rw [← hf]
  cases hport : w.port with
  | k27 =>
    rw [hport] at hstart
    dsimp only
    split_ifs
    · exact (hkfree w).symm
    · exact (hkfree w).symm
    · rfl
    · exact hstart
  | k24 =>
    rw [hport] at hstart
    dsimp only
    split_ifs
    · exact (hkfree w).symm
    · exact (hkfree w).symm
    · exact hstart

end World

end Hoolock
