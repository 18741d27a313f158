import Hoolock.Flush
import Hoolock.ExactlyOnce

/-!
What BREAK returns: the answer of the last handler that the last queued packet meets.
-/

set_option autoImplicit false

namespace Hoolock

def PassEnv.answer (env : PassEnv) (pt : PacketType) : Int :=
  match pt.func with
  | .bond_hoolock_recv => NET_RX_SUCCESS
  | .other => (env.verdict pt).val

/-- The return value is the answer of `pt`; without a handler it is no error. -/
def PassEnv.Reports (env : PassEnv) (pt : Option PacketType) (ret : Int) : Prop :=
  match pt with
  | none => 0 ≤ ret
  | some pt => ret = env.answer pt

theorem PassEnv.Reports.nonneg_iff {env : PassEnv} {pt : Option PacketType} {ret : Int}
    (h : env.Reports pt ret) : 0 ≤ ret ↔ ∀ a ∈ pt, 0 ≤ env.answer a := by
  cases pt with
  | none =>
    refine iff_of_true h fun a ha => ?_
    cases ha
  | some a =>
    have hret : ret = env.answer a := h
    rw [hret]
    simp

def PassEnv.last_of (env : PassEnv) (tc_ncls : Bool) (taps protos : List PacketType) :
    Option PacketType :=
  if env.takes tc_ncls then taps.getLast?
  else if env.present tc_ncls then protos.getLast?
  else (taps ++ protos).getLast?

namespace World

/-- The handler whose answer the pass of a packet returns. -/
def last_asked (w : World) (env : PassEnv) (skb : Skb) : Option PacketType :=
  if w.dropped_early env skb || !w.namespace_alive env then none
  else env.last_of skb.tc_ncls (w.matching env skb).1 (w.matching env skb).2

theorem func_answer (w : World) (env : PassEnv) (pt : PacketType) (skb : Skb) (d : DevId)
    (n : Int) : (w.func (hook false) env pt skb d n).1 = env.answer pt := by
  unfold func PassEnv.answer
  cases pt.func with
  | other => rfl
  | bond_hoolock_recv =>
    unfold hook bond_hoolock_recv_on
    dsimp only
    split_ifs with hown htest
    · rfl
    · exact absurd htest id
    · rfl

theorem keeps_false (w : World) (skb : Skb) (pt : PacketType) : w.keeps false skb pt = false := by
  simp [keeps]

end World

namespace Frame

open World

variable {env : PassEnv}

/-- Once the waiting handler is called, the answer of `t` is the one at hand. -/
def Owes (f : Frame) (env : PassEnv) (t : Option PacketType) (p : Pass) : Prop :=
  env.Reports t (f.deliver (hook false) env p).ret

theorem owes_waiting (f : Frame) {p : Pass} (h : p.pt_prev = none → 0 ≤ p.ret) :
    f.Owes env p.pt_prev p := by
  unfold Owes deliver
  cases hp : p.pt_prev with
  | none => exact h hp
  | some pt =>
    exact (p.world.atomic_inc f.skb).func_answer env pt f.skb f.orig_dev (p.world.users f.skb.id)

theorem Owes.handle {f : Frame} {t : Option PacketType} {p : Pass} (h : f.Owes env t p)
    (hk : Hook) :
    f.Owes env t (f.handle (hook false) env hk p).1 ∧
      ((f.handle (hook false) env hk p).2 = true →
        env.Reports t (f.handle (hook false) env hk p).1.ret) ∧
      ((f.handle (hook false) env hk p).2 = true ↔ hk = .takes) ∧
      (f.handle (hook false) env hk p).1.pt_prev =
        (if hk = .absent then p.pt_prev else none) ∧
      (f.handle (hook false) env hk p).1.world.table = p.world.table := by
  have hdeliver : (f.deliver (hook false) env p).world.table = p.world.table := by
    rw [deliver_world]
    exact deliver_all_table _ _ _ _ _
  cases hk with
  | absent => exact ⟨h, fun hgone => absurd hgone (by simp [Frame.handle]), by simp [Frame.handle],
      rfl, rfl⟩
  | passes => exact ⟨h, fun hgone => absurd hgone (by simp [Frame.handle]), by simp [Frame.handle],
      rfl, hdeliver⟩
  | takes => exact ⟨h, fun _ => h, by simp [Frame.handle], rfl, hdeliver⟩

theorem finish_reports (f : Frame) (env : PassEnv) (p : Pass) {l : List PacketType} :
    env.Reports (p.pt_prev.toList ++ f.protos p.world.port l).getLast?
      (if (f.protocols (hook false) env l p).2 then
        ((f.protocols (hook false) env l p).1.ret, (f.protocols (hook false) env l p).1.world)
      else f.finish (hook false) env (f.protocols (hook false) env l p).1).1 := by
  obtain ⟨-, hprev, hout⟩ := f.protocols_through false env (l := l) (p := p)
    (fun pt _ => keeps_false _ _ pt) (by
      cases p.pt_prev with
      | none => rfl
      | some a => exact keeps_false _ _ a)
  rw [hout, if_neg (by simp)]
  unfold finish
  rw [hprev]
  cases (p.pt_prev.toList ++ f.protos p.world.port l).getLast? with
  | none => exact (by decide : (0 : Int) ≤ NET_RX_DROP)
  | some pt => exact func_answer _ env pt f.skb f.orig_dev _

theorem takes_true (env : PassEnv) :
    env.takes true = true ↔ env.bridge = .takes ∨ env.macvlan = .takes := by
  simp [PassEnv.takes]

theorem upper_reports (f : Frame) {t : Option PacketType} {p : Pass} (h : f.Owes env t p) :
    env.Reports
      (let protos := f.protos p.world.port (p.world.ptype_base (f.skb.protocol % 16))
      if env.takes true then t
      else if env.present true then protos.getLast?
      else (p.pt_prev.toList ++ protos).getLast?)
      (f.upper (hook false) env p).1 := by
  obtain ⟨hq, hqret, hqgone, hqprev, hqtable⟩ := h.handle env.bridge
  obtain ⟨q, hqdef⟩ : ∃ q, q = f.handle (hook false) env env.bridge p := ⟨_, rfl⟩
  rw [← hqdef] at hq hqret hqgone hqprev hqtable
  obtain ⟨-, hrret, hrgone, hrprev, hrtable⟩ := hq.handle env.macvlan
  obtain ⟨r, hrdef⟩ : ∃ r, r = f.handle (hook false) env env.macvlan q.1 := ⟨_, rfl⟩
  rw [← hrdef] at hrret hrgone hrprev hrtable
  have htable : r.1.world.table = p.world.table := hrtable.trans hqtable
  have hbase : r.1.world.ptype_base = p.world.ptype_base := congrArg Table.ptype_base htable
  have hport : r.1.world.port = p.world.port := congrArg Table.port htable
  have hend := f.finish_reports env r.1
    (l := r.1.world.ptype_base (f.skb.protocol % 16))
  unfold upper
  dsimp only
  rw [← hqdef]
  by_cases hbridge : env.bridge = .takes
  · rw [if_pos (hqgone.mpr hbridge), if_pos ((takes_true env).mpr (Or.inl hbridge))]
    exact hqret (hqgone.mpr hbridge)
  · rw [if_neg fun hg => hbridge (hqgone.mp hg), ← hrdef]
    by_cases hmacvlan : env.macvlan = .takes
    · rw [if_pos (hrgone.mpr hmacvlan), if_pos ((takes_true env).mpr (Or.inr hmacvlan))]
      exact hrret (hrgone.mpr hmacvlan)
    · have hgone : ¬ env.takes true = true := by simp [takes_true, hbridge, hmacvlan]
      have hleft : r.1.pt_prev = if env.present true then none else p.pt_prev := by
        rw [hrprev, hqprev]
        by_cases hb : env.bridge = .absent
        · by_cases hm : env.macvlan = .absent
          · simp [hb, hm, PassEnv.present]
          · simp [hb, hm, PassEnv.present]
        · simp [hb, PassEnv.present]
      rw [if_neg fun hg => hmacvlan (hrgone.mp hg), if_neg hgone]
      rw [hleft, hbase, hport] at hend
      rw [hbase]
      by_cases hpresent : env.present true = true
      · rw [if_pos hpresent] at hend ⊢
        exact hend
      · rw [if_neg hpresent] at hend ⊢
        exact hend

theorem last_of_last {α : Type} (l m : List α) :
    (l.getLast?.toList ++ m).getLast? = (l ++ m).getLast? := by
  cases h : l.getLast? with
  | none => simp [List.getLast?_eq_none_iff.mp h]
  | some a => simp [List.getLast?_append, List.getLast?_cons, h]

theorem taps_untouched (f : Frame) (env : PassEnv) (l : List PacketType) {p : Pass}
    (h : p.pt_prev = none → 0 ≤ p.ret) :
    (l.foldl (f.tap (hook false) env) p).pt_prev = none →
      0 ≤ (l.foldl (f.tap (hook false) env) p).ret := by
  induction l generalizing p with
  | nil => exact h
  | cons pt rest ih =>
    refine ih ?_
    unfold tap
    split_ifs
    · intro hnone
      cases hnone
    · exact h

theorem lower_reports (f : Frame) (env : PassEnv) (w : World) (hncls : f.skb.tc_ncls = false) :
    env.Reports
      (env.last_of false (f.taps w.port w.ptype_all)
        (f.protos w.port (w.ptype_base (f.skb.protocol % 16))))
      (f.lower (hook false) env w).1 := by
  obtain ⟨p, hp⟩ : ∃ p, p = w.ptype_all.foldl (f.tap (hook false) env)
      { ret := NET_RX_DROP, pt_prev := none, buffered := false, world := w } := ⟨_, rfl⟩
  obtain ⟨T, hT⟩ : ∃ T, T = f.taps w.port w.ptype_all := ⟨_, rfl⟩
  have hTf : T = w.ptype_all.filter (f.accepts w.port) := by
    rw [hT, taps, if_neg (by simp [hncls])]
  have hdrop := f.taps_untouched env w.ptype_all
    (p := { ret := NET_RX_DROP, pt_prev := none, buffered := false, world := w })
    fun _ => (by decide : (0 : Int) ≤ NET_RX_DROP)
  obtain ⟨hw, hprev, hbuf⟩ := f.taps_spec false env w.ptype_all
    { ret := NET_RX_DROP, pt_prev := none, buffered := false, world := w }
  simp only [Option.toList_none, List.nil_append, Bool.false_or, ← hTf, ← hp] at hw hprev hbuf hdrop
  have hkept : p.buffered = false := by
    rw [hbuf, List.any_eq_false]
    intro pt _
    simp [keeps_false]
  have htable : p.world.table = w.table := hw ▸ deliver_all_table _ _ env f _
  have hbase : p.world.ptype_base = w.ptype_base := congrArg Table.ptype_base htable
  have hport : p.world.port = w.port := congrArg Table.port htable
  have howes : f.Owes env T.getLast? p := hprev ▸ f.owes_waiting hdrop
  obtain ⟨hq, hqret, hqgone, hqprev, hqtable⟩ := howes.handle env.ing
  obtain ⟨q, hqdef⟩ : ∃ q, q = f.handle (hook false) env env.ing p := ⟨_, rfl⟩
  rw [← hqdef] at hq hqret hqgone hqprev hqtable
  have hqbase : q.1.world.ptype_base = w.ptype_base := (congrArg Table.ptype_base hqtable).trans hbase
  have hqport : q.1.world.port = w.port := (congrArg Table.port hqtable).trans hport
  have hup := f.upper_reports hq
  rw [hqbase, hqport] at hup
  unfold lower PassEnv.last_of
  dsimp only
  rw [← hp, hkept]
  simp only [Bool.false_eq_true, if_false]
  rw [← hqdef, ← hT]
  cases hing : env.ing with
  | takes =>
    rw [if_pos (PassEnv.takes_here hing), if_pos (hqgone.mpr hing)]
    exact hqret (hqgone.mpr hing)
  | passes =>
    have hpast := PassEnv.takes_past (show env.ing ≠ .takes by simp [hing]) false
    have hstays : ¬ q.2 = true := by rw [hqgone, hing]; simp
    have hnone : q.1.pt_prev = none := by rw [hqprev, hing, if_neg (by simp)]
    rw [hnone] at hup
    rw [if_neg hstays, hpast, PassEnv.present_here hing, if_pos rfl]
    simpa using hup
  | absent =>
    have hpast := PassEnv.takes_past (show env.ing ≠ .takes by simp [hing]) false
    have hstays : ¬ q.2 = true := by rw [hqgone, hing]; simp
    have hsame : q.1.pt_prev = T.getLast? := by rw [hqprev, hing, if_pos rfl, hprev]
    rw [hsame] at hup
    dsimp only at hup
    rw [last_of_last] at hup
    rw [if_neg hstays, hpast, PassEnv.present_past hing]
    exact hup

theorem start_reports (f : Frame) (env : PassEnv) (w : World) :
    env.Reports
      (env.last_of f.skb.tc_ncls (f.taps w.port w.ptype_all)
        (f.protos w.port (w.ptype_base (f.skb.protocol % 16))))
      (f.start (hook false) env w).1 := by
  unfold start
  cases hncls : f.skb.tc_ncls with
  | false => exact f.lower_reports env w hncls
  | true =>
    obtain ⟨p, hp⟩ : ∃ p : Pass,
        p = { ret := NET_RX_DROP, pt_prev := none, buffered := false, world := w } := ⟨_, rfl⟩
    have hnone : f.taps w.port w.ptype_all = [] := by simp [taps, hncls]
    have hprev : p.pt_prev = none := by rw [hp]
    have hret : p.ret = NET_RX_DROP := by rw [hp]
    have howes : f.Owes env none p := by
      rw [← hprev]
      refine f.owes_waiting fun _ => ?_
      rw [hret]
      decide
    have hup := f.upper_reports howes
    rw [hprev] at hup
    rw [hnone, if_pos rfl, ← hp]
    unfold PassEnv.last_of
    rw [hp] at hup ⊢
    exact hup

end Frame

namespace World

theorem pass_reports (w : World) (env : PassEnv) (skb : Skb) :
    env.Reports (w.last_asked env skb) (w.netif_receive_skb (hook false) env skb).1 := by
  have hdrop : (0 : Int) ≤ NET_RX_DROP := by decide
  have hsuccess : (0 : Int) ≤ NET_RX_SUCCESS := by decide
  have hstart := (w.frame env skb).start_reports env w
  rw [frame_ncls] at hstart
  unfold netif_receive_skb last_asked dropped_early namespace_alive
  cases hport : w.port with
  | k27 =>
    dsimp only
    by_cases hvlan : skb.vlan_tci ≠ 0 ∧ env.vlan_takes = true
    · rw [if_pos hvlan, if_pos (by simp [hvlan])]
      exact hsuccess
    · have hnot : (skb.vlan_tci != 0 && env.vlan_takes) = false := by
        simpa using hvlan
      rw [if_neg hvlan, hnot]
      cases env.netpoll_takes with
      | true => exact hdrop
      | false =>
        cases env.net_alive with
        | false => exact hdrop
        | true => exact hstart
  | k24 =>
    dsimp only
    cases env.netpoll_takes with
    | true => exact hdrop
    | false =>
      cases (w.frame env skb).exact with
      | true => exact hdrop
      | false => exact hstart

theorem last_asked_of_scene {v w : World} (h : v.scene = w.scene) (env : PassEnv) (skb : Skb) :
    v.last_asked env skb = w.last_asked env skb := by
  have htable : v.table = w.table := congrArg Scene.table h
  have hdevs : v.devs = w.devs := congrArg Scene.devs h
  have hport : v.port = w.port := port_of_table htable
  have hall : v.ptype_all = w.ptype_all := congrArg Table.ptype_all htable
  have hbase : v.ptype_base = w.ptype_base := congrArg Table.ptype_base htable
  have hframe : v.frame env skb = w.frame env skb := by
    unfold frame
    rw [hdevs]
  unfold last_asked dropped_early namespace_alive matching
  rw [hport, hframe, hall, hbase]

/-- A caller that is told of an error finds the handover as it was. -/
def FailsUntouched (w : World) (call : Option (Int × World)) : Prop :=
  ∀ ret v, call = some (ret, v) → ret < 0 →
    v.bond.buffer_mode = w.bond.buffer_mode ∧ v.bond.pbuff = w.bond.pbuff

/-- What the last queued packet comes to, once the packets `q` before it went up. -/
def last_result (receive : Receive) (w : World) (s : SlaveId) (q : List Skb) (pb : Skb) : Int :=
  (turn receive (w.slaves s).dev
    (q.foldl (turn receive (w.slaves s).dev) (0, w.break_begun)) pb).1

theorem Flushed.untouched_iff {receive : Receive} {w : World} {s : SlaveId} {r : Int × World}
    (h : Flushed receive w s r) :
    w.FailsUntouched (some r) ↔
      ∀ q pb, w.bond.pbuff = q ++ [pb] → 0 ≤ w.last_result receive s q pb := by
  obtain ⟨t, ht, hr⟩ := h.turns
  have hempty : r.2.bond.pbuff = [] := by rw [h.bond]
  have hret : r.1 = t.1 := by rw [hr]
  constructor
  · intro huntouched q pb hq
    have hlast : w.last_result receive s q pb = r.1 := by
      rw [hret, ht, hq, List.foldl_append]
      rfl
    by_contra hneg
    have hkept := (huntouched r.1 r.2 rfl (by omega)).2
    rw [hempty, hq] at hkept
    simp at hkept
  · intro hlast ret v hv hneg
    cases hv
    rcases List.eq_nil_or_concat w.bond.pbuff with hnil | ⟨q, pb, hq⟩
    · rw [hnil, List.foldl_nil] at ht
      rw [ht] at hret
      have hzero : ret = 0 := hret
      omega
    · rw [List.concat_eq_append] at hq
      have hnonneg := hlast q pb hq
      have hsame : w.last_result receive s q pb = ret := by
        have hfold : ret = t.1 := hret
        rw [hfold, ht, hq, List.foldl_append]
        rfl
      omega

theorem break_over_none {receive : Receive} {w : World} (ha : w.bond.curr_active_slave = none) :
    w.FailsUntouched (w.break_over receive) := by
  intro ret v hv hneg
  unfold break_over at hv
  cases hq : w.bond.pbuff with
  | nil =>
    have hlen : w.break_begun.bond.pbuff = [] := hq
    rw [hlen, List.length_nil] at hv
    unfold drain at hv
    rw [if_pos hlen] at hv
    cases hv
    omega
  | cons pb rest =>
    have hlen : w.break_begun.bond.pbuff = pb :: rest := hq
    have hact : w.break_begun.skb_dequeue.bond.curr_active_slave = none := ha
    rw [hlen, List.length_cons] at hv
    unfold drain at hv
    rw [hlen] at hv
    dsimp only at hv
    rw [hact] at hv
    cases hv

theorem turns_scene (env : Skb → PassEnv) (d : DevId) (q : List Skb) (r : Int × World) :
    (q.foldl (turn (receive_up env) d) r).2.scene = r.2.scene := by
  induction q generalizing r with
  | nil => rfl
  | cons pb rest ih =>
    have hturn : (turn (receive_up env) d r pb).2.scene = r.2.scene := by
      unfold turn receive_up
      rw [recv_hook]
      exact (closed_scene false r.2.scene).netif_receive_skb (env pb) _ (scene_skb_dequeue r.2)
    rw [List.foldl_cons, ih, hturn]

theorem last_result_reports (w : World) (env : Skb → PassEnv) (s : SlaveId) (q : List Skb)
    (pb : Skb) : (env pb).Reports (w.last_asked (env pb) { pb with dev := (w.slaves s).dev })
      (w.last_result (receive_up env) s q pb) := by
  obtain ⟨x, hx⟩ : ∃ x, x = (q.foldl (turn (receive_up env) (w.slaves s).dev)
    (0, w.break_begun)).2.skb_dequeue := ⟨_, rfl⟩
  have hscene : x.scene = w.scene := by
    have hflag : ∀ v : World, (v.setBond fun b => { b with buffer_mode := 0 }).scene = v.scene :=
      fun _ => rfl
    rw [hx, scene_skb_dequeue, turns_scene]
    unfold break_begun
    rw [hflag, scene_lock, scene_lock, scene_lock]
  have hpass := x.pass_reports (env pb) { pb with dev := (w.slaves s).dev }
  rw [last_asked_of_scene hscene, hx] at hpass
  unfold last_result turn receive_up
  rw [recv_hook]
  unfold turn receive_up at hpass
  rw [recv_hook] at hpass
  exact hpass

/-- BREAK may be taken to have failed when it reports an error exactly if the handler asked
last for the last queued packet does not answer with one: on the receive path of `dev.c`, and
on any other on which no handover begins.  In `dev.c` the other handlers answer any `int` but
the driver's own `-EHOOLOCKBUFF`, on another path they answer as they like. -/
theorem break_untouched_iff (w : World) :
    (∀ env, w.FailsUntouched (w.bond_ioctl_break env) ↔
      ∀ s ∈ w.bond.curr_active_slave, ∀ pb ∈ w.bond.pbuff.getLast?,
        ∀ pt ∈ w.last_asked (env pb) { pb with dev := (w.slaves s).dev },
          0 ≤ (env pb).answer pt) ∧
    ∀ receive, (∀ pb v skb, Passes v (receive pb v skb).2) →
      (w.FailsUntouched (w.break_over receive) ↔
        ∀ s ∈ w.bond.curr_active_slave, ∀ q pb, w.bond.pbuff = q ++ [pb] →
          0 ≤ w.last_result receive s q pb) := by
  have hover : ∀ receive, (∀ pb v skb, Passes v (receive pb v skb).2) →
      (w.FailsUntouched (w.break_over receive) ↔
        ∀ s ∈ w.bond.curr_active_slave, ∀ q pb, w.bond.pbuff = q ++ [pb] →
          0 ≤ w.last_result receive s q pb) := by
    intro receive hr
    cases ha : w.bond.curr_active_slave with
    | none =>
      refine iff_of_true (break_over_none ha) fun s hs => ?_
      cases hs
    | some s =>
      obtain ⟨r, hbreak, hflushed⟩ := break_over_flushes hr ha
      rw [hbreak, hflushed.untouched_iff]
      simp
  refine ⟨fun env => ?_, hover⟩
  rw [bond_ioctl_break_eq, hover _ (receive_up_passes env)]
  refine forall₂_congr fun s _ => ?_
  constructor
  · intro h pb hpb
    obtain ⟨q, hq⟩ := List.getLast?_eq_some_iff.mp hpb
    exact (w.last_result_reports env s q pb).nonneg_iff.mp (h q pb hq)
  · intro h q pb hq
    refine (w.last_result_reports env s q pb).nonneg_iff.mpr (h pb ?_)
    rw [hq, List.getLast?_concat]
    rfl

end World

/-- A netfilter rule drops every packet with `-EPERM`. -/
def PassEnv.firewalled : PassEnv := { PassEnv.plain with verdict := fun _ => ⟨-EPERM, by decide⟩ }

/-- A handover is on, with one packet buffered and the IPv4 handler registered. -/
def one_buffered (u : World) : World :=
  (u.dev_add_pack ip_packet_type).setBond fun b =>
    { b with buffer_mode := 1, pbuff := [on_card 7 2] }

/-- BREAK does all of its work and answers `-EPERM`. -/
theorem break_reports_the_firewall :
    ∃ u v, Transition.run (@World.step noSiblings) bond0 two_slaves = some u ∧
      (one_buffered u).bond_ioctl_break (fun _ => .firewalled) = some (-EPERM, v) ∧
      v.bond.buffer_mode = 0 ∧ v.bond.pbuff = [] ∧
      ¬ (one_buffered u).FailsUntouched
        ((one_buffered u).bond_ioctl_break fun _ => .firewalled) := by
  have hrun : (Transition.run (@World.step noSiblings) bond0 two_slaves).any (fun u =>
      ((one_buffered u).bond_ioctl_break fun _ => .firewalled).any fun r =>
        r.1 == -EPERM && (r.2.bond.buffer_mode == 0 && r.2.bond.pbuff == [])) = true := by
    decide +kernel
  obtain ⟨u, hu, hcall⟩ := (Option.any_eq_true _ _).mp hrun
  obtain ⟨r, hr, hcond⟩ := (Option.any_eq_true _ _).mp hcall
  simp only [Bool.and_eq_true, beq_iff_eq] at hcond
  obtain ⟨hret, hmode, hqueue⟩ := hcond
  have hbreak : (one_buffered u).bond_ioctl_break (fun _ => .firewalled) = some (-EPERM, r.2) := by
    rw [hr, ← hret]
  refine ⟨u, r.2, hu, hbreak, hmode, hqueue, fun huntouched => ?_⟩
  obtain ⟨-, hkept⟩ := huntouched (-EPERM) r.2 hbreak (by decide)
  rw [hqueue] at hkept
  cases hkept

/-- When the handler takes the packet the answer is not an error, through the one path or
another that queues nothing. -/
theorem accepted_break_succeeds :
    ∃ u, Transition.run (@World.step noSiblings) bond0 two_slaves = some u ∧
      (one_buffered u).FailsUntouched ((one_buffered u).bond_ioctl_break fun _ => .plain) ∧
      (one_buffered u).FailsUntouched ((one_buffered u).break_over fun _ w _ => (0, w)) := by
  have hrun : (Transition.run (@World.step noSiblings) bond0 two_slaves).isSome = true := by
    decide +kernel
  obtain ⟨u, hu⟩ := Option.isSome_iff_exists.mp hrun
  have hiff := (one_buffered u).break_untouched_iff
  refine ⟨u, hu, (hiff.1 _).mpr ?_, (hiff.2 _ fun _ w _ => World.Passes.refl w).mpr ?_⟩
  · intro s _ pb _ pt _
    unfold PassEnv.answer
    cases pt.func with
    | other => exact (by decide : (0 : Int) ≤ 0)
    | bond_hoolock_recv => exact (by decide : (0 : Int) ≤ NET_RX_SUCCESS)
  · intro s _ q pb _
    exact le_refl 0

end Hoolock
