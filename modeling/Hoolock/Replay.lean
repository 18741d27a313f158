import Hoolock.References

/-!
BREAK replays the queue: which handlers it calls on which packet, in what order.  The
handler lists as `dev_add_pack` builds them.
-/

set_option autoImplicit false

namespace Hoolock

namespace World

def dev_add_pack (w : World) (pt : PacketType) : World :=
  if pt.type = ETH_P_ALL then { w with ptype_all := pt :: w.ptype_all }
  else
    { w with
      ptype_base := fun k => if k = pt.type % 16 then pt :: w.ptype_base k else w.ptype_base k }

/-- The lists hold each node once; the bond's handler, of type `ETH_P_ALL`, is among the taps
if anywhere. -/
structure HandlerLists (w : World) : Prop where
  all : ∀ pt ∈ w.ptype_all, pt.type = ETH_P_ALL
  base : ∀ k, ∀ pt ∈ w.ptype_base k, pt.type ≠ ETH_P_ALL ∧ pt.func = .other
  nodup_all : w.ptype_all.Nodup
  nodup_base : ∀ k, (w.ptype_base k).Nodup

/-- Registration keeps the lists in order: a node is registered once, and only the bond's
own node, of type `ETH_P_ALL`, has the bond's handler. -/
theorem HandlerLists.dev_add_pack {w : World} (h : w.HandlerLists) {pt : PacketType}
    (hnew : pt ∉ w.ptype_all ∧ ∀ k, pt ∉ w.ptype_base k)
    (hfunc : pt.type ≠ ETH_P_ALL → pt.func = .other) : (w.dev_add_pack pt).HandlerLists := by
  unfold World.dev_add_pack
  by_cases htype : pt.type = ETH_P_ALL
  · rw [if_pos htype]
    refine ⟨fun x hx => ?_, h.base, List.nodup_cons.mpr ⟨hnew.1, h.nodup_all⟩, h.nodup_base⟩
    rcases List.mem_cons.mp hx with rfl | hx
    · exact htype
    · exact h.all x hx
  · rw [if_neg htype]
    refine ⟨h.all, fun k x hx => ?_, h.nodup_all, fun k => ?_⟩
    · dsimp only at hx
      split_ifs at hx with hk
      · rcases List.mem_cons.mp hx with rfl | hx
        · exact ⟨htype, hfunc htype⟩
        · exact h.base k x hx
      · exact h.base k x hx
    · dsimp only
      split_ifs with hk
      · exact List.nodup_cons.mpr ⟨hnew.2 k, h.nodup_base k⟩
      · exact h.nodup_base k

theorem bond_register_hoolock_eq (w : World) (h : w.bond.hoolock_pt = false) :
    w.bond_register_hoolock =
      (w.dev_add_pack w.hoolock_pt).setBond fun b => { b with hoolock_pt := true } := by
  unfold bond_register_hoolock dev_add_pack
  rw [if_neg (by simp [h])]
  rw [if_pos (show w.hoolock_pt.type = ETH_P_ALL from rfl)]

def log (w v : World) : List (PacketType × Nat) :=
  (v.trace.drop w.trace.length).map fun c => (c.pt, c.skb.id)

theorem log_of_trace {w v : World} {cs : List Invocation} (h : v.trace = w.trace ++ cs) :
    log w v = cs.map fun c => (c.pt, c.skb.id) := by
  unfold log
  rw [h, List.drop_left]

theorem log_of_same {w v : World} (h : v.trace = w.trace) : log w v = [] := by
  have hnil : v.trace = w.trace ++ [] := by rw [h, List.append_nil]
  rw [log_of_trace hnil, List.map_nil]

theorem pass_trace (w : World) (b : Bool) (env : PassEnv) (skb : Skb)
    (hbase : ∀ k, ∀ pt ∈ w.ptype_base k, pt.func = .other) :
    ∃ cs, (w.netif_receive_skb (hook b) env skb).2.trace = w.trace ++ cs ∧
      cs.map (fun c => (c.pt, c.skb.id)) = (w.plan b env skb).called.map fun pt => (pt, skb.id) := by
  rw [netif_receive_skb_plan w b env skb hbase]
  obtain ⟨_, _, _, cs, ht, hmap, hcs, _⟩ :=
    carry_out_effect w b env (w.frame env skb) (w.plan b env skb)
  refine ⟨cs, ht, ?_⟩
  rw [← hmap, List.map_map]
  refine List.map_congr_left fun c hc => ?_
  rw [(hcs c hc).1, frame_id]
  rfl

theorem pass_log (w : World) (b : Bool) (env : PassEnv) (skb : Skb)
    (hbase : ∀ k, ∀ pt ∈ w.ptype_base k, pt.func = .other) :
    log w (w.netif_receive_skb (hook b) env skb).2 =
      (w.plan b env skb).called.map fun pt => (pt, skb.id) := by
  obtain ⟨cs, ht, hmap⟩ := pass_trace w b env skb hbase
  rw [log_of_trace ht, hmap]

theorem pass_queues_nothing (w : World) (env : PassEnv) (skb : Skb)
    (hbase : ∀ k, ∀ pt ∈ w.ptype_base k, pt.func = .other) :
    (w.netif_receive_skb (hook false) env skb).2.bond.pbuff = w.bond.pbuff := by
  rw [netif_receive_skb_plan w false env skb hbase]
  obtain ⟨_, _, hq, _⟩ :=
    carry_out_effect w false env (w.frame env skb) (w.plan false env skb)
  have hnone : ((w.plan false env skb).called.filter
      (w.keeps false (w.frame env skb).skb)) = [] := by
    rw [List.filter_eq_nil_iff]
    intro pt _
    simp [keeps]
  rw [hq, hnone, List.map_nil, List.append_nil]

/-- The settings that decide who gets a packet that BREAK replays. -/
structure Scene where
  table : Table
  devs : DevId → NetDevice
  slaves : SlaveId → Slave
  active : Option SlaveId

def scene (w : World) : Scene := ⟨w.table, w.devs, w.slaves, w.bond.curr_active_slave⟩

theorem scene_lock (w : World) (n : LockName) (m : LockMode) : (w.lock n m).scene = w.scene := rfl

theorem scene_unlock (w : World) (n : LockName) (m : LockMode) :
    (w.unlock n m).scene = w.scene := rfl

theorem scene_skb_queue_tail (w : World) (skb : Skb) : (w.skb_queue_tail skb).scene = w.scene := rfl

theorem scene_kfree_skb (w : World) (skb : Skb) : (w.kfree_skb skb).scene = w.scene := rfl

theorem scene_skb_dequeue (w : World) : w.skb_dequeue.scene = w.scene := rfl

theorem hook_scene (b : Bool) (w : World) (skb : Skb) (d : DevId) :
    (hook b w skb d).2.scene = w.scene := by
  unfold hook bond_hoolock_recv_on
  dsimp only
  split_ifs <;> simp only [scene_lock, scene_unlock, scene_kfree_skb, scene_skb_queue_tail]

theorem closed_scene (b : Bool) (s : Scene) : Closed (hook b) fun v => v.scene = s where
  recv v skb d h := (hook_scene b v skb d).trans h
  users _ _ h := h
  note _ _ h := h

theorem plan_of_scene {v w : World} (h : v.scene = w.scene) (b : Bool) (env : PassEnv)
    (skb : Skb) : v.plan b env skb = w.plan b env skb := by
  have htable : v.table = w.table := congrArg Scene.table h
  have hdevs : v.devs = w.devs := congrArg Scene.devs h
  have hall : v.ptype_all = w.ptype_all := congrArg Table.ptype_all htable
  have hbase : v.ptype_base = w.ptype_base := congrArg Table.ptype_base htable
  have hframe : v.frame env skb = w.frame env skb := by
    unfold frame
    rw [hdevs]
  unfold plan
  dsimp only
  rw [hframe, hall, hbase, port_of_table htable, keeps_of_table htable]

/-- BREAK's pass for the packet `pb`, on the device of slave `s`. -/
def replay (w : World) (env : Skb → PassEnv) (s : SlaveId) (pb : Skb) : Plan :=
  w.plan false (env pb) { pb with dev := (w.slaves s).dev }

theorem replay_of_scene {v w : World} (h : v.scene = w.scene) (env : Skb → PassEnv)
    (s : SlaveId) (pb : Skb) : v.replay env s pb = w.replay env s pb := by
  have hslaves : v.slaves = w.slaves := congrArg Scene.slaves h
  unfold replay
  rw [plan_of_scene h, hslaves]

theorem break_loop_replays (env : Skb → PassEnv) {s : SlaveId} (q : List Skb) {w : World}
    (hbase : ∀ k, ∀ pt ∈ w.ptype_base k, pt.func = .other)
    (ha : w.bond.curr_active_slave = some s) (hq : w.bond.pbuff = q) (ret : Int) :
    ∃ r, break_loop (hook false) env q.length ret w = some r ∧ r.2.bond.pbuff = [] ∧
      r.2.scene = w.scene ∧
      ∃ cs, r.2.trace = w.trace ++ cs ∧ cs.map (fun c => (c.pt, c.skb.id)) =
        q.flatMap fun pb => (w.replay env s pb).called.map fun pt => (pt, pb.id) := by
  induction q generalizing w ret with
  | nil => exact ⟨(ret, w), by simp [break_loop, hq], hq, rfl, [], by simp, rfl⟩
  | cons pb rest ih =>
    obtain ⟨x, hx⟩ : ∃ x, x = w.skb_dequeue := ⟨_, rfl⟩
    have hxscene : x.scene = w.scene := hx ▸ scene_skb_dequeue w
    have hxbase : x.ptype_base = w.ptype_base := congrArg (fun t => t.table.ptype_base) hxscene
    have hxb : ∀ k, ∀ pt ∈ x.ptype_base k, pt.func = .other := by
      rw [hxbase]
      exact hbase
    have hxa : x.bond.curr_active_slave = some s := (congrArg Scene.active hxscene).trans ha
    have hxq : x.bond.pbuff = rest := by
      have htail : x.bond.pbuff = w.bond.pbuff.tail := by
        rw [hx]
        rfl
      rw [htail, hq, List.tail_cons]
    have hxt : x.trace = w.trace := by
      rw [hx]
      rfl
    obtain ⟨y, hy⟩ : ∃ y, y = x.netif_receive_skb (hook false) (env pb)
        { pb with dev := (x.slaves s).dev } := ⟨_, rfl⟩
    have hyscene : y.2.scene = w.scene :=
      hy ▸ (closed_scene false w.scene).netif_receive_skb (env pb) _ hxscene
    have hybase : y.2.ptype_base = w.ptype_base :=
      congrArg (fun t => t.table.ptype_base) hyscene
    obtain ⟨cs, hcs, hmap⟩ := pass_trace x false (env pb)
      { pb with dev := (x.slaves s).dev } hxb
    rw [← hy, hxt] at hcs
    have hplan : x.plan false (env pb) { pb with dev := (x.slaves s).dev } =
        w.replay env s pb := replay_of_scene hxscene env s pb
    rw [hplan] at hmap
    obtain ⟨r, hr, hempty, hscene, ds, hds, hdmap⟩ := ih (w := y.2)
      (by
        rw [hybase]
        exact hbase)
      ((congrArg Scene.active hyscene).trans ha)
      (by rw [hy, pass_queues_nothing x _ _ hxb, hxq]) y.1
    refine ⟨r, ?_, hempty, hscene.trans hyscene, cs ++ ds, ?_, ?_⟩
    · rw [List.length_cons]
      unfold break_loop
      rw [hq]
      dsimp only
      rw [← hx, hxa]
      dsimp only
      rw [← hy]
      exact hr
    · rw [hds, hcs, List.append_assoc]
    · rw [List.map_append, hmap, hdmap, List.flatMap_cons]
      congr 1
      refine List.flatMap_congr fun pb' _ => ?_
      rw [replay_of_scene hyscene]

/-- BREAK returns, clears the flag, empties the queue and replays it in order. -/
theorem break_replays (w : World) (env : Skb → PassEnv) {s : SlaveId}
    (hbase : ∀ k, ∀ pt ∈ w.ptype_base k, pt.func = .other)
    (ha : w.bond.curr_active_slave = some s) :
    ∃ r, w.bond_ioctl_break env = some r ∧ r.2.bond.pbuff = [] ∧ r.2.scene = w.scene ∧
      ∃ cs, r.2.trace = w.trace ++ cs ∧ cs.map (fun c => (c.pt, c.skb.id)) =
        w.bond.pbuff.flatMap fun pb => (w.replay env s pb).called.map fun pt => (pt, pb.id) := by
  obtain ⟨x, hx⟩ : ∃ x, x = ((((w.lock .pbuff .write).lock .bond .read).lock .curr_slave
    .write).setBond fun b => { b with buffer_mode := 0 }) := ⟨_, rfl⟩
  have hscene : x.scene = w.scene := by
    rw [hx]
    rfl
  have hq : x.bond.pbuff = w.bond.pbuff := by
    rw [hx]
    rfl
  have ht : x.trace = w.trace := by
    rw [hx]
    rfl
  have hxb : x.ptype_base = w.ptype_base := congrArg (fun t => t.table.ptype_base) hscene
  obtain ⟨r, hr, hempty, hrscene, cs, hcs, hmap⟩ := break_loop_replays env w.bond.pbuff (w := x)
    (by
      rw [hxb]
      exact hbase)
    ((congrArg Scene.active hscene).trans ha) hq 0
  refine ⟨(r.1, ((r.2.unlock .curr_slave .write).unlock .bond .read).unlock .pbuff .write),
    ?_, hempty, hrscene.trans hscene, cs, hcs.trans (by rw [ht]), ?_⟩
  · unfold bond_ioctl_break
    dsimp only
    rw [← hx, hq, recv_hook, hr]
  · rw [hmap]
    refine List.flatMap_congr fun pb _ => ?_
    rw [replay_of_scene hscene]

/-- BREAK fails to return only where it reads `curr_active_slave->dev` through a null
pointer. -/
theorem break_returns_iff (w : World) (env : Skb → PassEnv)
    (hbase : ∀ k, ∀ pt ∈ w.ptype_base k, pt.func = .other) :
    w.bond_ioctl_break env ≠ none ↔ w.bond.pbuff = [] ∨ w.bond.curr_active_slave ≠ none := by
  cases ha : w.bond.curr_active_slave with
  | some s =>
    obtain ⟨r, hr, _⟩ := w.break_replays env hbase ha
    simp [hr]
  | none =>
    have hsame : ((((w.lock .pbuff .write).lock .bond .read).lock .curr_slave .write).setBond
        fun b => { b with buffer_mode := 0 }).skb_dequeue.bond.curr_active_slave = none := ha
    unfold bond_ioctl_break
    cases hq : w.bond.pbuff with
    | nil => simp [break_loop, setBond, lock, hq]
    | cons pb rest =>
      have hlen : ((((w.lock .pbuff .write).lock .bond .read).lock .curr_slave .write).setBond
          fun b => { b with buffer_mode := 0 }).bond.pbuff = pb :: rest := hq
      dsimp only
      rw [hlen, List.length_cons]
      unfold break_loop
      rw [hlen]
      dsimp only
      rw [hsame]
      simp

end World

end Hoolock
