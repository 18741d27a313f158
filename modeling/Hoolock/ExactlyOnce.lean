import Hoolock.Replay

/-!
How often a matching handler sees a packet, over the pass of its arrival and, when it is
queued, the replay by BREAK.
-/

set_option autoImplicit false

namespace Hoolock

namespace Frame

theorem called_through (f : Frame) (env : PassEnv) {keeps : PacketType → Bool}
    {taps : List PacketType} (protos : List PacketType) (h : taps.any keeps = false) :
    (f.plan env keeps taps protos).called =
      taps ++ if env.takes f.skb.tc_ncls then [] else protos := by
  have hdrop : ¬ taps.dropLast.any keeps = true := by
    intro hany
    obtain ⟨pt, hpt, hk⟩ := List.any_eq_true.mp hany
    rw [List.any_eq_false] at h
    exact h pt (List.mem_of_mem_dropLast hpt) hk
  have hlast : ¬ taps.getLast?.any keeps = true := by
    intro hany
    obtain ⟨pt, hpt, hk⟩ := (Option.any_eq_true _ _).mp hany
    rw [List.any_eq_false] at h
    exact h pt (List.mem_of_getLast? hpt) hk
  unfold plan
  rw [if_neg hdrop]
  by_cases ht : env.takes f.skb.tc_ncls = true
  · rw [if_pos ht, if_pos ht, List.append_nil]
    rfl
  · rw [if_neg ht, if_neg ht]
    by_cases hp : env.present f.skb.tc_ncls = true
    · rw [if_pos hp, Plan.called_after, Plan.called_close]
    · rw [if_neg hp, if_neg (fun hboth => hlast hboth.2), Plan.called_close]

/-- The verdict of the handler that queues the packet is read: a matching tap follows it,
or no hook is there and a protocol handler matches. -/
def Noticed (env : PassEnv) (tc_ncls : Bool) (keeps : PacketType → Bool)
    (taps protos : List PacketType) : Prop :=
  taps.dropLast.any keeps = true ∨
    taps.any keeps = true ∧ env.present tc_ncls = false ∧ protos ≠ []

theorem called_noticed (f : Frame) {env : PassEnv} {keeps : PacketType → Bool}
    {taps protos : List PacketType} (h : Noticed env f.skb.tc_ncls keeps taps protos) :
    (f.plan env keeps taps protos).called.any keeps = true ∧
      (f.plan env keeps taps protos).called.Sublist taps := by
  unfold plan
  by_cases hdrop : taps.dropLast.any keeps = true
  · rw [if_pos hdrop]
    exact ⟨hdrop, List.dropLast_sublist taps⟩
  · rw [if_neg hdrop]
    obtain ⟨hany, hp, hne⟩ := h.resolve_left hdrop
    have ht : ¬ env.takes f.skb.tc_ncls = true := by
      revert hp
      unfold PassEnv.takes PassEnv.present
      cases f.skb.tc_ncls <;> cases env.ing <;> cases env.bridge <;> cases env.macvlan <;> decide
    have hlast : taps.getLast?.any keeps = true := by
      rcases List.eq_nil_or_concat taps with rfl | ⟨m, pt, rfl⟩
      · cases hany
      · rw [List.concat_eq_append] at hdrop hany ⊢
        rw [List.dropLast_concat] at hdrop
        rw [List.any_append] at hany
        simpa [hdrop] using hany
    rw [if_neg ht, if_neg (by simp [hp]), if_pos ⟨hne, hlast⟩]
    exact ⟨hany, List.Sublist.refl taps⟩

end Frame

namespace World

theorem HandlerLists.base_other {w : World} (h : w.HandlerLists) :
    ∀ k, ∀ pt ∈ w.ptype_base k, pt.func = .other := fun k pt hpt => (h.base k pt hpt).2

theorem matching_taps (w : World) (env : PassEnv) (skb : Skb) :
    (w.matching env skb).1.Sublist w.ptype_all := by
  unfold matching
  dsimp only
  unfold Frame.taps
  split_ifs
  · exact List.nil_sublist _
  · exact List.filter_sublist

theorem matching_protos (w : World) (env : PassEnv) (skb : Skb) :
    ∃ k, (w.matching env skb).2.Sublist (w.ptype_base k) :=
  ⟨_, List.filter_sublist⟩

theorem HandlerLists.matching_nodup {w : World} (h : w.HandlerLists) (env : PassEnv)
    (skb : Skb) : ((w.matching env skb).1 ++ (w.matching env skb).2).Nodup := by
  have htaps := w.matching_taps env skb
  obtain ⟨k, hprotos⟩ := w.matching_protos env skb
  refine List.nodup_append.mpr
    ⟨htaps.nodup h.nodup_all, hprotos.nodup (h.nodup_base k), fun x hx y hy heq => ?_⟩
  have htype := (h.base k y (hprotos.subset hy)).1
  exact htype (heq ▸ h.all x (htaps.subset hx))

theorem HandlerLists.of_table {v w : World} (h : w.HandlerLists) (ht : v.table = w.table) :
    v.HandlerLists := by
  have hall : v.ptype_all = w.ptype_all := congrArg Table.ptype_all ht
  have hbase : v.ptype_base = w.ptype_base := congrArg Table.ptype_base ht
  obtain ⟨a, b, c, d⟩ := h
  exact ⟨hall ▸ a, hbase ▸ b, hall ▸ c, hbase ▸ d⟩

theorem count_pairs (l : List PacketType) (pt : PacketType) (id : Nat) :
    (l.map fun x => (x, id)).count (pt, id) = l.count pt :=
  List.count_map_of_injective l (fun x => (x, id)) (fun _ _ h => (Prod.mk.inj h).1) pt

theorem plan_reached {w : World} (b : Bool) {env : PassEnv} {skb : Skb}
    (hin : w.dropped_early env skb = false) (halive : w.namespace_alive env = true) :
    w.plan b env skb = (w.frame env skb).plan env (w.keeps b skb) (w.matching env skb).1
      (w.matching env skb).2 := by
  rw [plan_eq, if_neg (by simp [hin]), if_neg (by simp [halive])]

theorem count_through {w : World} {b : Bool} {env : PassEnv} {skb : Skb}
    (hl : w.HandlerLists) (hin : w.dropped_early env skb = false)
    (halive : w.namespace_alive env = true)
    (hnone : (w.matching env skb).1.any (w.keeps b skb) = false) :
    (∀ pt ∈ (w.matching env skb).1, (w.plan b env skb).called.count pt = 1) ∧
    ∀ pt ∈ (w.matching env skb).2,
      (w.plan b env skb).called.count pt = if env.takes skb.tc_ncls then 0 else 1 := by
  have hnd := hl.matching_nodup env skb
  have hcalled := (w.frame env skb).called_through env (w.matching env skb).2 hnone
  rw [frame_ncls] at hcalled
  rw [plan_reached b hin halive, hcalled]
  have hdisj := (List.nodup_append.mp hnd).2.2
  by_cases ht : env.takes skb.tc_ncls = true
  · simp only [if_pos ht, List.append_nil]
    refine ⟨fun pt hpt => List.count_eq_one_of_mem (List.nodup_append.mp hnd).1 hpt,
      fun pt hpt => List.count_eq_zero.mpr fun hmem => hdisj pt hmem pt hpt rfl⟩
  · simp only [if_neg ht]
    refine ⟨fun pt hpt => List.count_eq_one_of_mem hnd (List.mem_append_left _ hpt),
      fun pt hpt => List.count_eq_one_of_mem hnd (List.mem_append_right _ hpt)⟩

theorem count_replays {f : Skb → Plan} {front back : List Skb} {pb : Skb}
    (hother : ∀ x ∈ front ++ back, x.id ≠ pb.id) (pt : PacketType) :
    ((front ++ pb :: back).flatMap fun x => (f x).called.map fun pt => (pt, x.id)).count
      (pt, pb.id) = (f pb).called.count pt := by
  have hzero : ∀ l : List Skb, (∀ x ∈ l, x.id ≠ pb.id) →
      (l.flatMap fun x => (f x).called.map fun pt => (pt, x.id)).count (pt, pb.id) = 0 := by
    intro l hl
    refine List.count_eq_zero.mpr fun hmem => ?_
    obtain ⟨x, hx, hmem⟩ := List.mem_flatMap.mp hmem
    obtain ⟨_, _, heq⟩ := List.mem_map.mp hmem
    exact hl x hx (Prod.mk.inj heq).2
  have hfront := hzero front fun x hx => hother x (List.mem_append_left _ hx)
  have hback := hzero back fun x hx => hother x (List.mem_append_right _ hx)
  rw [List.flatMap_append, List.flatMap_cons, List.count_append, List.count_append, hfront,
    hback, count_pairs]
  omega

/-- The queued packet as BREAK hands it to `netif_receive_skb` again. -/
def again (u : World) (s : SlaveId) (pb : Skb) : Skb := { pb with dev := (u.slaves s).dev }

/-- A packet that is not dropped on its way and not queued is seen once by every matching
handler, unless a hook takes it before the protocol handlers.  A queued one whose verdict is
read reaches no protocol handler before BREAK, and then is seen once by each, unless a hook
takes it there, and once by each tap. -/
theorem handlers_called_once (w : World) (b : Bool) (env : PassEnv) (skb : Skb)
    (hl : w.HandlerLists) (hin : w.dropped_early env skb = false)
    (halive : w.namespace_alive env = true) {v : World}
    (hv : v = (w.netif_receive_skb (hook b) env skb).2) :
    ((w.matching env skb).1.any (w.keeps b skb) = false →
      (∀ pt ∈ (w.matching env skb).1, (log w v).count (pt, skb.id) = 1) ∧
      ∀ pt ∈ (w.matching env skb).2,
        (log w v).count (pt, skb.id) = if env.takes skb.tc_ncls then 0 else 1) ∧
    (Frame.Noticed env skb.tc_ncls (w.keeps b skb) (w.matching env skb).1
        (w.matching env skb).2 →
      (w.frame env skb).skb ∈ v.bond.pbuff ∧
      (∀ pt, pt.type ≠ ETH_P_ALL → (log w v).count (pt, skb.id) = 0) ∧
      ∀ (u : World) (s : SlaveId) (envs : Skb → PassEnv) (front back : List Skb),
        u.table = w.table → u.bond.curr_active_slave = some s →
        u.bond.pbuff = front ++ (w.frame env skb).skb :: back →
        (∀ x ∈ front ++ back, x.id ≠ skb.id) →
        u.dropped_early (envs (w.frame env skb).skb) (u.again s (w.frame env skb).skb) = false →
        u.namespace_alive (envs (w.frame env skb).skb) = true →
        ∃ r, u.bond_ioctl_break envs = some r ∧
          (∀ pt ∈ (u.matching (envs (w.frame env skb).skb)
              (u.again s (w.frame env skb).skb)).2,
            (log w v ++ log u r.2).count (pt, skb.id) =
              if (envs (w.frame env skb).skb).takes skb.tc_ncls then 0 else 1) ∧
          ∀ pt ∈ (u.matching (envs (w.frame env skb).skb)
              (u.again s (w.frame env skb).skb)).1,
            (log u r.2).count (pt, skb.id) = 1) := by
  have hlog := w.pass_log b env skb hl.base_other
  rw [← hv] at hlog
  refine ⟨fun hnone => ?_, fun hnoticed => ?_⟩
  · have hcount := count_through hl hin halive hnone
    rw [hlog]
    refine ⟨fun pt hpt => ?_, fun pt hpt => ?_⟩
    · rw [count_pairs]
      exact hcount.1 pt hpt
    · rw [count_pairs]
      exact hcount.2 pt hpt
  · obtain ⟨pb, hpb⟩ : ∃ pb, pb = (w.frame env skb).skb := ⟨_, rfl⟩
    have hid : pb.id = skb.id := hpb ▸ frame_id w env skb
    have hncls : pb.tc_ncls = skb.tc_ncls := hpb ▸ frame_ncls w env skb
    rw [← hpb]
    have hnoticed' := (w.frame env skb).called_noticed (frame_ncls w env skb ▸ hnoticed)
    rw [← plan_reached b hin halive] at hnoticed'
    have hfirst : ∀ pt, pt.type ≠ ETH_P_ALL → (log w v).count (pt, skb.id) = 0 := by
      intro pt htype
      rw [hlog, count_pairs]
      refine List.count_eq_zero.mpr fun hmem => htype ?_
      have htap := hnoticed'.2.subset hmem
      exact hl.all pt ((w.matching_taps env skb).subset htap)
    refine ⟨?_, hfirst, ?_⟩
    · obtain ⟨_, _, hq, _⟩ := carry_out_effect w b env (w.frame env skb) (w.plan b env skb)
      rw [← netif_receive_skb_plan w b env skb hl.base_other, ← hv, keeps_frame] at hq
      obtain ⟨pt, hpt, hk⟩ := List.any_eq_true.mp hnoticed'.1
      rw [hq, hpb]
      exact List.mem_append_right _ (List.mem_map.mpr ⟨pt, List.mem_filter.mpr ⟨hpt, hk⟩, rfl⟩)
    · intro u s envs front back htable ha hq hother hdrop hualive
      have hul := hl.of_table htable
      obtain ⟨r, hr, _, _, cs, hcs, hmap⟩ := u.break_replays envs hul.base_other ha
      rw [hq] at hmap
      have hcount := count_through (b := false) hul hdrop hualive
        (List.any_eq_false.mpr fun pt _ => by simp [keeps])
      have hrlog : ∀ pt, (log u r.2).count (pt, skb.id) =
          (u.plan false (envs pb) (u.again s pb)).called.count pt := by
        intro pt
        rw [log_of_trace hcs, hmap, ← hid]
        exact count_replays (fun x hx => hid ▸ hother x hx) pt
      refine ⟨r, hr, fun pt hpt => ?_, fun pt hpt => ?_⟩
      · have htype : pt.type ≠ ETH_P_ALL := (hul.base _ pt (List.mem_of_mem_filter hpt)).1
        rw [List.count_append, hfirst pt htype, hrlog, hcount.2 pt hpt, Nat.zero_add]
        unfold again
        rw [hncls]
      · rw [hrlog]
        exact hcount.1 pt hpt

end World

def sniffer : PacketType :=
  { id := 2, type := ETH_P_ALL, dev := none, func := .other, af_packet_priv := none }

def tapped : World := (listening.dev_add_pack ip_packet_type).dev_add_pack sniffer

theorem tapped_lists : tapped.HandlerLists := by
  have hall : listening.ptype_all = [listening.hoolock_pt] := rfl
  have hbase : ∀ k, listening.ptype_base k = [] := fun _ => rfl
  have hl : listening.HandlerLists := by
    refine ⟨?_, ?_, ?_, ?_⟩
    · rw [hall]
      decide
    · intro k pt hpt
      rw [hbase] at hpt
      cases hpt
    · rw [hall]
      exact List.nodup_singleton _
    · intro k
      rw [hbase]
      exact List.nodup_nil
  have hip : (listening.dev_add_pack ip_packet_type).HandlerLists := by
    refine hl.dev_add_pack ⟨by rw [hall]; decide, fun k => ?_⟩ fun _ => rfl
    rw [hbase]
    exact List.not_mem_nil
  refine hip.dev_add_pack ⟨by decide, fun k hmem => ?_⟩ fun _ => rfl
  obtain ⟨htype, _⟩ := hip.base k _ hmem
  exact htype rfl

theorem tapped_delivery :
    (World.log tapped
      (tapped.netif_receive_skb (World.hook false) .plain (on_card 1 2)).2).count
        (sniffer, 1) = 1 ∧
    (World.log tapped
      (tapped.netif_receive_skb (World.hook false) .plain (on_card 1 2)).2).count
        (ip_packet_type, 1) = 1 := by
  have h := (World.handlers_called_once tapped false .plain (on_card 1 2) tapped_lists
    (by decide) (by decide) rfl).1 (by decide)
  exact ⟨h.1 sniffer (by decide), h.2 ip_packet_type (by decide)⟩

/-- An ingress filter that takes the packet keeps it from the IP handler for good. -/
theorem taken_packet_is_not_delivered :
    tapped.hoolock_pt ∈ tapped.ptype_all ∧ tapped.HandlerLists ∧
    ip_packet_type ∈ (tapped.matching { PassEnv.plain with ing := .takes } (on_card 1 2)).2 ∧
    (tapped.netif_receive_skb (World.hook false) { PassEnv.plain with ing := .takes }
      (on_card 1 2)).2.in_pbuff 1 = false ∧
    (World.log tapped (tapped.netif_receive_skb (World.hook false)
      { PassEnv.plain with ing := .takes } (on_card 1 2)).2).count (ip_packet_type, 1) = 0 :=
  ⟨by decide, tapped_lists, by decide, by decide, by decide⟩

end Hoolock
