import Hoolock.PassEffect
import Hoolock.Session

set_option autoImplicit false

namespace Hoolock

namespace Plan

/-- The plan keeps the packet's own reference just in case it queues the packet. -/
def Fair (keeps : PacketType → Bool) (p : Plan) : Prop :=
  p.ending = .kept ↔ p.called.any keeps = true

theorem close_ending (l : List PacketType) : (close l).ending ≠ .kept := by
  unfold close
  cases l.getLast? <;> simp

theorem fair_close (keeps : PacketType → Bool) (l : List PacketType) :
    (close l).Fair keeps ↔ l.any keeps = false := by
  have hending := close_ending l
  unfold Fair
  rw [called_close]
  simp [hending]

theorem fair_close_after (keeps : PacketType → Bool) (k l : List PacketType) :
    ((close l).after k).Fair keeps ↔ (k ++ l).any keeps = false := by
  have hending : ((close l).after k).ending ≠ .kept := close_ending l
  unfold Fair
  rw [called_after, called_close]
  simp [hending]

end Plan

namespace Frame

/-- When a pass is fair: no matching tap queues the packet, or another tap is called after
the one that does, or no hook is there and a protocol handler wants the packet. -/
theorem plan_fair (f : Frame) (env : PassEnv) {keeps : PacketType → Bool}
    (taps : List PacketType) {protos : List PacketType}
    (hprotos : ∀ pt ∈ protos, keeps pt = false) :
    (f.plan env keeps taps protos).Fair keeps ↔
      taps.any keeps = false ∨ taps.dropLast.any keeps = true ∨
        env.present f.skb.tc_ncls = false ∧ protos ≠ [] := by
  have hnone : protos.any keeps = false := by
    rw [List.any_eq_false]
    intro pt hpt
    simp [hprotos pt hpt]
  have hsplit : taps.any keeps = (taps.dropLast.any keeps || taps.getLast?.any keeps) := by
    rcases List.eq_nil_or_concat taps with rfl | ⟨m, pt, rfl⟩
    · rfl
    · rw [List.concat_eq_append, List.dropLast_concat, List.any_append]
      simp
  have htakes : env.takes f.skb.tc_ncls = true → env.present f.skb.tc_ncls = true := by
    unfold PassEnv.takes PassEnv.present
    cases f.skb.tc_ncls <;> cases env.ing <;> cases env.bridge <;> cases env.macvlan <;> decide
  unfold plan
  by_cases hdrop : taps.dropLast.any keeps = true
  · rw [if_pos hdrop]
    simp [Plan.Fair, Plan.called, hdrop]
  · rw [if_neg hdrop]
    have hdrop : taps.dropLast.any keeps = false := by simpa using hdrop
    by_cases ht : env.takes f.skb.tc_ncls = true
    · have hp := htakes ht
      rw [if_pos ht]
      simp [Plan.Fair, Plan.called, hdrop, hp]
    · rw [if_neg ht]
      by_cases hp : env.present f.skb.tc_ncls = true
      · rw [if_pos hp, Plan.fair_close_after, List.any_append, hnone]
        simp [hdrop, hp]
      · rw [if_neg hp]
        have hp : env.present f.skb.tc_ncls = false := by simpa using hp
        by_cases hlast : protos ≠ [] ∧ taps.getLast?.any keeps = true
        · rw [if_pos hlast]
          have hany : taps.any keeps = true := by
            rw [hsplit, hlast.2, Bool.or_true]
          simp only [Plan.Fair, Plan.called, hany, hp, true_and]
          exact ⟨fun _ => Or.inr (Or.inr hlast.1), fun _ => trivial⟩
        · rw [if_neg hlast, Plan.fair_close, List.any_append, hnone, Bool.or_false, hdrop, hp]
          by_cases hnil : protos = []
          · simp [hnil]
          · have hl : taps.getLast?.any keeps = false := by
              have := not_and.mp hlast hnil
              simpa using this
            have hany : taps.any keeps = false := by
              rw [hsplit, hdrop, hl]
              rfl
            simp [hany]

end Frame

namespace World

/-- The count of packet `id` over the calls from `w` to `v`: at the end it is 1 for a queued
packet and 0 for any other, and it is never 0 when the packet is handed over, nor afterwards
while it is queued or has calls to come. -/
structure Balanced (w v : World) (id : Nat) : Prop where
  final : v.users id = if v.in_pbuff id then 1 else 0
  during : ∀ cs c ds, v.trace = w.trace ++ (cs ++ c :: ds) → c.skb.id = id →
    1 ≤ c.users_before ∧
      (c.queued = true ∨ (∃ d ∈ ds, d.skb.id = id) → 1 ≤ c.users_after)

theorem in_pbuff_append {v w : World} {l : List PacketType} {keeps : PacketType → Bool}
    {skb : Skb} (h : v.bond.pbuff = w.bond.pbuff ++ (l.filter keeps).map (fun _ => skb))
    (hout : w.in_pbuff skb.id = false) : v.in_pbuff skb.id = l.any keeps := by
  unfold in_pbuff at hout ⊢
  rw [h, List.any_append, hout, Bool.false_or, Bool.eq_iff_iff, List.any_eq_true,
    List.any_eq_true]
  simp

theorem carry_out_balanced (w : World) (b : Bool) (env : PassEnv) (f : Frame) (p : Plan)
    (husers : w.users f.skb.id = 1) (hout : w.in_pbuff f.skb.id = false) :
    Balanced w (w.carry_out b env f p) f.skb.id ↔ p.Fair (w.keeps b f.skb) := by
  obtain ⟨hlast, _, hq, cs, ht, hmap, hcs, hlent⟩ := carry_out_effect w b env f p
  have hin := in_pbuff_append hq hout
  have hkept : w.last_users f.skb.id p.ending = if p.ending = .kept then 1 else 0 := by
    cases hend : p.ending <;> simp [last_users, husers]
  rw [hkept] at hlast
  constructor
  · intro h
    have hfinal := h.final
    rw [hlast, hin] at hfinal
    unfold Plan.Fair
    by_cases hend : p.ending = .kept <;> cases hany : p.called.any (w.keeps b f.skb) <;>
      simp [hend, hany] at hfinal ⊢
  · intro hfair
    have hfinal : (w.carry_out b env f p).users f.skb.id =
        if p.called.any (w.keeps b f.skb) = true then 1 else 0 := by
      rw [hlast]
      exact if_congr hfair rfl rfl
    refine ⟨by rw [hfinal, hin], fun as c ds hsplit hid => ?_⟩
    have hcs' : cs = as ++ c :: ds := List.append_cancel_left (ht.symm.trans hsplit)
    have hc := hcs c (by simp [hcs'])
    refine ⟨by rw [hc.2.1, husers], fun hcause => ?_⟩
    by_cases hpos : as.length < p.lent.length
    · have hmem : c ∈ cs.take p.lent.length := by
        rw [hcs', List.take_append]
        refine List.mem_append_right _ ?_
        have : 0 < p.lent.length - as.length := by omega
        obtain ⟨k, hk⟩ := Nat.exists_eq_succ_of_ne_zero (Nat.pos_iff_ne_zero.mp this)
        rw [hk]
        simp
      rw [hlent c hmem, husers]
    · -- the last, direct call: the plan is fair, so nothing queued the packet
      have hlen := congrArg List.length hmap
      rw [List.length_map, hcs'] at hlen
      simp only [List.length_append, List.length_cons] at hlen
      cases hend : p.ending with
      | direct pt =>
        have hnone : p.called.any (w.keeps b f.skb) = false := by
          unfold Plan.Fair at hfair
          rw [hend] at hfair
          simpa using hfair
        have hcalled : p.called.length = p.lent.length + 1 := by
          simp [Plan.called, hend]
        rcases hcause with hqueued | ⟨d, hd, _⟩
        · have := hc.2.2 hqueued
          rw [hin, hnone] at this
          cases this
        · have := List.length_pos_of_mem hd
          omega
      | kept =>
        have hcalled : p.called.length = p.lent.length := by
          simp [Plan.called, hend]
        omega
      | freed =>
        have hcalled : p.called.length = p.lent.length := by
          simp [Plan.called, hend]
        omega

/-- The packet is dropped before the first handler is looked at. -/
def dropped_early (w : World) (env : PassEnv) (skb : Skb) : Bool :=
  match w.port with
  | .k27 => skb.vlan_tci != 0 && env.vlan_takes || env.netpoll_takes
  | .k24 => env.netpoll_takes || (w.frame env skb).exact

def namespace_alive (w : World) (env : PassEnv) : Bool := w.port == .k24 || env.net_alive

/-- The taps and the protocol handlers that want the packet, in list order. -/
def matching (w : World) (env : PassEnv) (skb : Skb) : List PacketType × List PacketType :=
  let f := w.frame env skb
  (f.taps w.port w.ptype_all, f.protos w.port (w.ptype_base (f.skb.protocol % 16)))

theorem frame_ncls (w : World) (env : PassEnv) (skb : Skb) :
    (w.frame env skb).skb.tc_ncls = skb.tc_ncls := by
  unfold frame
  split
  · rfl
  · split_ifs <;> rfl

theorem keeps_frame (w : World) (b : Bool) (env : PassEnv) (skb : Skb) :
    w.keeps b (w.frame env skb).skb = w.keeps b skb := by
  unfold frame
  split
  · rfl
  · split_ifs <;> rfl

theorem plan_eq (w : World) (b : Bool) (env : PassEnv) (skb : Skb) :
    w.plan b env skb =
      if w.dropped_early env skb then ⟨[], .freed⟩
      else if !w.namespace_alive env then ⟨[], .kept⟩
      else (w.frame env skb).plan env (w.keeps b skb) (w.matching env skb).1
        (w.matching env skb).2 := by
  have hkeeps := w.keeps_frame b env skb
  unfold plan dropped_early namespace_alive matching
  cases hport : w.port with
  | k27 =>
    by_cases hvlan : skb.vlan_tci ≠ 0 ∧ env.vlan_takes = true
    · simp [hvlan]
    · by_cases hpoll : env.netpoll_takes = true
      · simp [hpoll]
      · have hearly : (skb.vlan_tci != 0 && env.vlan_takes || env.netpoll_takes) = false := by
          simp only [not_and, Bool.not_eq_true] at hvlan hpoll
          by_cases h0 : skb.vlan_tci = 0
          · simp [h0, hpoll]
          · simp [hvlan h0, hpoll]
        simp [hvlan, hpoll, hkeeps]
  | k24 =>
    by_cases hpoll : env.netpoll_takes = true
    · simp [hpoll]
    · by_cases hexact : (w.frame env skb).exact = true
      · simp [hexact]
      · simp [hpoll, hexact, hkeeps]

/-- When a pass balances the count: the packet is dropped early, or none of the matching
taps queues it, or a tap follows the one that does, or no hook is there and some protocol
handler wants the packet. -/
def PassBalances (w : World) (b : Bool) (env : PassEnv) (skb : Skb) : Prop :=
  w.dropped_early env skb = true ∨
    w.namespace_alive env = true ∧
      ((w.matching env skb).1.any (w.keeps b skb) = false ∨
        (w.matching env skb).1.dropLast.any (w.keeps b skb) = true ∨
        env.present skb.tc_ncls = false ∧ (w.matching env skb).2 ≠ [])

theorem plan_fair_iff (w : World) (b : Bool) (env : PassEnv) (skb : Skb)
    (hbase : ∀ k, ∀ pt ∈ w.ptype_base k, pt.func = .other) :
    (w.plan b env skb).Fair (w.keeps b skb) ↔ w.PassBalances b env skb := by
  have hprotos : ∀ pt ∈ (w.matching env skb).2, w.keeps b skb pt = false := by
    intro pt hpt
    have hmem := List.mem_of_mem_filter hpt
    unfold keeps
    rw [hbase _ pt hmem]
    rfl
  have hfair := (w.frame env skb).plan_fair env (w.matching env skb).1 hprotos
  rw [frame_ncls] at hfair
  rw [plan_eq]
  unfold PassBalances
  by_cases hearly : w.dropped_early env skb = true
  · simp [hearly, Plan.Fair, Plan.called]
  · by_cases halive : w.namespace_alive env = true
    · simp [hearly, halive, hfair]
    · simp [hearly, halive, Plan.Fair, Plan.called]

theorem pass_balanced_iff (w : World) (b : Bool) (env : PassEnv) (skb : Skb)
    (hbase : ∀ k, ∀ pt ∈ w.ptype_base k, pt.func = .other)
    (husers : w.users skb.id = 1) (hout : w.in_pbuff skb.id = false) :
    Balanced w (w.netif_receive_skb (hook b) env skb).2 skb.id ↔
      w.PassBalances b env skb := by
  have hid := w.frame_id env skb
  have hcarry := w.carry_out_balanced b env (w.frame env skb) (w.plan b env skb)
  rw [hid, keeps_frame] at hcarry
  rw [netif_receive_skb_plan w b env skb hbase, hcarry husers hout]
  exact w.plan_fair_iff b env skb hbase

def nit_wants (skb : Skb) (dev : DevId) (pt : PacketType) : Bool :=
  (pt.dev == some dev || pt.dev == none) &&
    (pt.af_packet_priv == none || pt.af_packet_priv != skb.sk)

def handed (skb : Skb) (dev : DevId) (l : List PacketType) (clones : List Nat) :
    List (PacketType × Nat) :=
  (l.filter (nit_wants skb dev)).zip clones

theorem zip_seconds {α β : Type} (l : List α) (k : List β) :
    (l.zip k).map Prod.snd = k.take l.length := by
  induction l generalizing k with
  | nil => simp
  | cons a l ih =>
    cases k with
    | nil => rfl
    | cons b k => simp [ih]

def hand_clone (recv : Recv) (env : PassEnv) (skb : Skb) (w : World) (h : PacketType × Nat) :
    World :=
  ((w.skb_clone skb h.2).2.func recv env h.1 { skb with id := h.2 } skb.dev 1).2

theorem dev_queue_xmit_nit_eq (recv : Recv) (env : PassEnv) (skb : Skb) (dev : DevId)
    (l : List PacketType) (clones : List Nat) (w : World) :
    dev_queue_xmit_nit recv env skb dev l clones w =
      (handed skb dev l clones).foldl (hand_clone recv env skb) w := by
  induction l generalizing clones w with
  | nil => rfl
  | cons pt rest ih =>
    unfold dev_queue_xmit_nit
    by_cases hwants : nit_wants skb dev pt = true
    · have hcond : (pt.dev = some dev ∨ pt.dev = none) ∧
          (pt.af_packet_priv = none ∨ pt.af_packet_priv ≠ skb.sk) := by
        simpa [nit_wants] using hwants
      rw [if_pos hcond]
      unfold handed
      rw [List.filter_cons_of_pos hwants]
      cases clones with
      | nil => rfl
      | cons id clones =>
        rw [List.zip_cons_cons, List.foldl_cons]
        have husers : (w.skb_clone skb id).2.users id = 1 := by simp [skb_clone]
        dsimp only
        rw [husers]
        exact ih clones _
    · have hcond : ¬ ((pt.dev = some dev ∨ pt.dev = none) ∧
          (pt.af_packet_priv = none ∨ pt.af_packet_priv ≠ skb.sk)) := by
        simpa [nit_wants] using hwants
      rw [if_neg hcond]
      unfold handed
      rw [List.filter_cons_of_neg hwants]
      exact ih clones w

theorem hand_clones_effect (w : World) (b : Bool) (env : PassEnv) (skb : Skb)
    (hs : List (PacketType × Nat)) :
    (∀ i, (hs.foldl (hand_clone (hook b) env skb) w).users i =
      if i ∈ hs.map Prod.snd then 0 else w.users i) ∧
    (hs.foldl (hand_clone (hook b) env skb) w).bond.pbuff = w.bond.pbuff ++
      (hs.filter fun h => w.keeps b skb h.1).map (fun h => { skb with id := h.2 }) ∧
    ∃ cs, (hs.foldl (hand_clone (hook b) env skb) w).trace = w.trace ++ cs ∧
      cs.map (fun c => c.skb.id) = hs.map Prod.snd ∧
      ∀ c ∈ cs, c.users_before = 1 ∧ (c.queued = true →
        (hs.foldl (hand_clone (hook b) env skb) w).in_pbuff c.skb.id = true) := by
  induction hs generalizing w with
  | nil => exact ⟨by simp, by simp, [], by simp, rfl, by simp⟩
  | cons h rest ih =>
    obtain ⟨v, hv⟩ : ∃ v, v = hand_clone (hook b) env skb w h := ⟨_, rfl⟩
    obtain ⟨x, hx⟩ : ∃ x, x = (w.skb_clone skb h.2).2 := ⟨_, rfl⟩
    obtain ⟨hu, hq, c, ht, hc⟩ := func_effect x b env h.1 { skb with id := h.2 } skb.dev 1
    have hstep : hand_clone (hook b) env skb w h =
        (x.func (hook b) env h.1 { skb with id := h.2 } skb.dev 1).2 := by
      rw [hx]
      rfl
    rw [← hstep, ← hv] at hu hq ht hc
    have htable : v.table = w.table := by
      rw [hv, hstep]
      refine (closed_table b w.table).func env h.1 _ skb.dev 1 ?_
      rw [hx]
      rfl
    have husers : ∀ i, v.users i = if i = h.2 then 0 else w.users i := by
      intro i
      rw [hu, hx]
      by_cases hi : i = h.2
      · simp [skb_clone, hi]
      · simp [skb_clone, hi]
    have hqueue : v.bond.pbuff = w.bond.pbuff ++
        (if w.keeps b skb h.1 then [{ skb with id := h.2 }] else []) := by
      rw [hq, hx]
      rfl
    have htrace : v.trace = w.trace ++ [c] := by
      rw [ht, hx]
      rfl
    obtain ⟨hu', hq', cs, ht', hids, hcs⟩ := ih v
    rw [List.foldl_cons, ← hv]
    refine ⟨fun i => ?_, ?_, c :: cs, ?_, ?_, fun y hy => ?_⟩
    · rw [hu', husers, List.map_cons]
      by_cases hi : i = h.2
      · simp [hi]
      · have hmem : i ∈ h.2 :: rest.map Prod.snd ↔ i ∈ rest.map Prod.snd := by
          rw [List.mem_cons, or_iff_right hi]
        rw [if_neg hi]
        exact if_congr hmem.symm rfl rfl
    · rw [hq', hqueue, keeps_of_table htable]
      by_cases hk : w.keeps b skb h.1 = true
      · simp [hk]
      · simp [hk]
    · rw [ht', htrace]
      simp
    · rw [List.map_cons, hids, hc.packet]
      rfl
    · rcases List.mem_cons.mp hy with rfl | hy
      · refine ⟨hc.before, fun hqueued => ?_⟩
        rw [hc.queued] at hqueued
        rw [hc.packet]
        exact in_pbuff_mono hq' hqueued
      · exact hcs y hy

theorem clone_balanced_iff (w : World) (b : Bool) (env : PassEnv) (skb : Skb) (dev : DevId)
    (clones : List Nat) (hnodup : clones.Nodup) (hout : ∀ id ∈ clones, w.in_pbuff id = false)
    {h : PacketType × Nat} (hh : h ∈ handed skb dev w.ptype_all clones) :
    Balanced w (dev_queue_xmit_nit (hook b) env skb dev w.ptype_all clones w) h.2 ↔
      w.keeps b skb h.1 = false := by
  obtain ⟨hs, hhs⟩ : ∃ hs, hs = handed skb dev w.ptype_all clones := ⟨_, rfl⟩
  obtain ⟨v, hv⟩ : ∃ v, v = hs.foldl (hand_clone (hook b) env skb) w := ⟨_, rfl⟩
  obtain ⟨hu, hq, cs, ht, hids, hcs⟩ := hand_clones_effect w b env skb hs
  rw [dev_queue_xmit_nit_eq, ← hhs, ← hv]
  rw [← hv] at hu hq ht hcs
  rw [← hhs] at hh
  have hsub : (hs.map Prod.snd).Sublist clones := by
    rw [hhs, handed, zip_seconds]
    exact List.take_sublist _ _
  have hids_nodup : (hs.map Prod.snd).Nodup := hsub.nodup hnodup
  have hzero : v.users h.2 = 0 := by
    rw [hu, if_pos (List.mem_map_of_mem hh)]
  have hin : v.in_pbuff h.2 = w.keeps b skb h.1 := by
    have hfresh := hout h.2 (hsub.subset (List.mem_map_of_mem hh))
    unfold in_pbuff at hfresh ⊢
    rw [hq, List.any_append, hfresh, Bool.false_or, Bool.eq_iff_iff, List.any_eq_true]
    constructor
    · rintro ⟨x, hx, hid⟩
      obtain ⟨k, hk, rfl⟩ := List.mem_map.mp hx
      obtain ⟨hmem, hkeep⟩ := List.mem_filter.mp hk
      have hsame : k.2 = h.2 := eq_of_beq hid
      have heq : k = h := List.inj_on_of_nodup_map hids_nodup hmem hh hsame
      rw [← heq]
      exact hkeep
    · intro hkeep
      exact ⟨{ skb with id := h.2 }, List.mem_map.mpr ⟨h, List.mem_filter.mpr ⟨hh, hkeep⟩, rfl⟩,
        beq_self_eq_true _⟩
  constructor
  · intro hbal
    have hfinal := hbal.final
    rw [hzero, hin] at hfinal
    cases hk : w.keeps b skb h.1 with
    | false => rfl
    | true => simp [hk] at hfinal
  · intro hk
    rw [hk] at hin
    refine ⟨by rw [hzero, hin]; rfl, fun as c ds hsplit hid => ?_⟩
    have hcs' : cs = as ++ c :: ds := List.append_cancel_left (ht.symm.trans hsplit)
    have hc := hcs c (by simp [hcs'])
    refine ⟨by rw [hc.1], fun hcause => ?_⟩
    rcases hcause with hqueued | ⟨d, hd, hdid⟩
    · have hqueued := hc.2 hqueued
      rw [hid, hin] at hqueued
      cases hqueued
    · -- no clone is handed over twice
      have hnd : (cs.map (fun c => c.skb.id)).Nodup := hids ▸ hids_nodup
      rw [hcs', List.map_append, List.map_cons] at hnd
      have hnot := (List.nodup_cons.mp (List.nodup_append.mp hnd).2.1).1
      exact absurd (List.mem_map.mpr ⟨d, hd, hdid.trans hid.symm⟩) hnot

/-- Reference counts, on receipt and on the transmit tap, with the outcome `b` of the
buffer test. -/
theorem references_balance_iff (w : World) (b : Bool) (env : PassEnv) (skb sent : Skb)
    (dev : DevId) (clones : List Nat)
    (hbase : ∀ k, ∀ pt ∈ w.ptype_base k, pt.func = .other)
    (husers : w.users skb.id = 1) (hout : w.in_pbuff skb.id = false)
    (hnodup : clones.Nodup) (hfresh : ∀ id ∈ clones, w.in_pbuff id = false) :
    (Balanced w (w.netif_receive_skb (hook b) env skb).2 skb.id ↔ w.PassBalances b env skb) ∧
    ∀ h ∈ handed sent dev w.ptype_all clones,
      (Balanced w (dev_queue_xmit_nit (hook b) env sent dev w.ptype_all clones w) h.2 ↔
        w.keeps b sent h.1 = false) := by
  have hpass := w.pass_balanced_iff b env skb hbase husers hout
  refine ⟨hpass, fun h hh => ?_⟩
  exact w.clone_balanced_iff b env sent dev clones hnodup hfresh hh

end World

def on_card (id : Nat) (dev : DevId) : Skb :=
  { id, dev, protocol := 0x0800, network_header := List.replicate 20 1, vlan_tci := 0
    tc_ncls := false, sk := none }

def listening : World :=
  { bond0.open_bond.setDev 2 (fun dev => { dev with master := some 0 }) with
    users := fun i => if i = 1 then 1 else 0 }

def ip_packet_type : PacketType :=
  { id := 1, type := 0x0800, dev := none, func := .other, af_packet_priv := none }

def ip_listening : World :=
  { listening with ptype_base := fun k => if k = 0 then [ip_packet_type] else [] }

/-- The handler queues the packet and IP has it instead of the final free. -/
theorem listening_references :
    (World.Balanced ip_listening
        (ip_listening.netif_receive_skb (World.hook true) .plain (on_card 1 2)).2 1 ↔
      ip_listening.PassBalances true .plain (on_card 1 2)) ∧
    (∀ h ∈ World.handed (on_card 2 0) 0 ip_listening.ptype_all [3],
      (World.Balanced ip_listening (World.dev_queue_xmit_nit (World.hook true) .plain
          (on_card 2 0) 0 ip_listening.ptype_all [3] ip_listening) h.2 ↔
        ip_listening.keeps true (on_card 2 0) h.1 = false)) ∧
    ip_listening.PassBalances true .plain (on_card 1 2) := by
  have hbase : ∀ k, ∀ pt ∈ ip_listening.ptype_base k, pt.func = .other := by
    intro k pt hpt
    unfold ip_listening at hpt
    dsimp only at hpt
    split_ifs at hpt
    · rw [List.mem_singleton.mp hpt]
      rfl
    · cases hpt
  obtain ⟨hpass, hclones⟩ := World.references_balance_iff ip_listening true .plain (on_card 1 2)
    (on_card 2 0) 0 [3] hbase rfl rfl (by decide) (by decide)
  exact ⟨hpass, hclones, Or.inr ⟨rfl, Or.inr (Or.inr ⟨rfl, by decide⟩)⟩⟩

/-- Called last and directly, the handler frees the packet that it queues. -/
theorem queued_packet_is_freed :
    ∃ w, Transition.run (@World.step noSiblings) bond0 two_slaves = some w ∧
      ∃ v, v = { w with users := fun i => if i = 1 then 1 else w.users i } ∧
        v.in_pbuff 1 = false ∧
        ¬ World.Balanced v (v.netif_receive_skb (World.hook true) .plain (on_card 1 2)).2 1 := by
  have hrun : (Transition.run (@World.step noSiblings) bond0 two_slaves).any
      (fun w =>
        let v := { w with users := fun i => if i = 1 then 1 else w.users i }
        let u := (v.netif_receive_skb (World.hook true) .plain (on_card 1 2)).2
        !v.in_pbuff 1 && u.in_pbuff 1 && u.users 1 == 0) = true := by
    decide +kernel
  obtain ⟨w, hw, hp⟩ := (Option.any_eq_true _ _).mp hrun
  simp only [Bool.and_eq_true, Bool.not_eq_true', beq_iff_eq] at hp
  obtain ⟨⟨hout, hin⟩, hzero⟩ := hp
  refine ⟨w, hw, _, rfl, hout, fun hbal => ?_⟩
  have hfinal := hbal.final
  rw [hin, hzero] at hfinal
  cases hfinal

end Hoolock
