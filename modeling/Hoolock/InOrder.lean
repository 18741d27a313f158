import Hoolock.ExactlyOnce
import Hoolock.HandoverFlag

/-!
What a handover promises the protocol handlers: between MAKE and BREAK packets from the
active slave wait, and BREAK delivers them in the order of their arrival.
-/

set_option autoImplicit false

namespace Hoolock

namespace World

def proto_log (w v : World) : List (PacketType × Nat) :=
  (log w v).filter fun c => c.1.type != ETH_P_ALL

/-- The protocol handlers that a pass without buffering brings the packet to. -/
def reaches (w : World) (env : PassEnv) (skb : Skb) : List PacketType :=
  if w.dropped_early env skb || !w.namespace_alive env || env.takes skb.tc_ncls then []
  else (w.matching env skb).2

theorem proto_log_of_same {w v : World} (h : v.trace = w.trace) : proto_log w v = [] := by
  unfold proto_log
  rw [log_of_same h]
  rfl

theorem break_empty_effect {w : World} (h : w.bond.pbuff = []) {env : Skb → PassEnv}
    {r : Int × World} (hr : w.bond_ioctl_break env = some r) :
    r.2.trace = w.trace ∧ r.2.table = w.table ∧ r.2.bond.pbuff = [] := by
  rw [break_empty h, Option.some.injEq] at hr
  rw [← hr]
  dsimp only
  refine ⟨?_, ?_, ?_⟩
  · simp only [trace_unlock]
    rfl
  · simp only [table_unlock]
    rfl
  · simp only [bond_unlock]
    exact h

def on_active (w : World) (pb : Skb) : Skb :=
  match w.bond.curr_active_slave with
  | some s => w.again s pb
  | none => pb

/-- The packet has to wait for BREAK: it reaches the handlers during a handover, on the
active slave's device and not from the bond's own address. -/
def must_wait (w : World) (env : PassEnv) (skb : Skb) : Bool :=
  w.bond.buffer_mode == 1 &&
    w.bond.curr_active_slave.any (fun a => (w.slaves a).dev == skb.dev) &&
    !w.own_ip skb && !w.dropped_early env skb && w.namespace_alive env

end World

namespace World

structure Registered (w : World) : Prop where
  lists : w.HandlerLists
  unlisted : w.bond.hoolock_pt = false → w.hoolock_pt ∉ w.ptype_all

structure Registry where
  dev : DevId
  hoolock_pt : Bool
  ptype_all : List PacketType
  ptype_base : Nat → List PacketType

def registry (w : World) : Registry :=
  ⟨w.bond.dev, w.bond.hoolock_pt, w.ptype_all, w.ptype_base⟩

theorem registry_of_core {v w : World} (h : v.core = w.core) : v.registry = w.registry :=
  congrArg (fun c : Core => Registry.mk c.dev c.hoolock_pt c.ptype_all c.ptype_base) h

theorem break_registry {w v : World} {env : Skb → PassEnv} {r : Int}
    (h : w.bond_ioctl_break env = some (r, v)) : v.registry = w.registry := by
  have hclosed : Closed bond_hoolock_recv fun x => x.registry = w.registry :=
    { recv := fun x skb d hx => by
        have hb := congrArg registry (recv_sansTraffic x skb d)
        exact hb.trans hx
      users := fun _ _ hx => hx
      note := fun _ _ hx => hx }
  obtain ⟨u, hu, rfl⟩ := hclosed.break_ends (fun _ hy => hy) h rfl
  exact hu

theorem Registered.congr {v w : World} (h : w.Registered) (hv : v.registry = w.registry) :
    v.Registered := by
  have hdev : v.bond.dev = w.bond.dev := congrArg Registry.dev hv
  have hflag : v.bond.hoolock_pt = w.bond.hoolock_pt := congrArg Registry.hoolock_pt hv
  have hall : v.ptype_all = w.ptype_all := congrArg Registry.ptype_all hv
  have hbase : v.ptype_base = w.ptype_base := congrArg Registry.ptype_base hv
  have hnode : v.hoolock_pt = w.hoolock_pt := by
    unfold hoolock_pt
    rw [hdev]
  obtain ⟨⟨a, b, c, d⟩, hun⟩ := h
  refine ⟨⟨hall ▸ a, hbase ▸ b, hall ▸ c, hbase ▸ d⟩, fun hf => ?_⟩
  rw [hnode, hall]
  exact hun (hflag.symm.trans hf)

theorem Registered.register {w : World} (h : w.Registered) :
    w.bond_register_hoolock.Registered := by
  by_cases hflag : w.bond.hoolock_pt = true
  · unfold bond_register_hoolock
    rw [if_pos hflag]
    exact h
  · have hflag : w.bond.hoolock_pt = false := by simpa using hflag
    have hbase : ∀ k, w.hoolock_pt ∉ w.ptype_base k := fun k hmem =>
      (h.lists.base k _ hmem).1 rfl
    have hadd := h.lists.dev_add_pack ⟨h.unlisted hflag, hbase⟩ fun htype => absurd rfl htype
    rw [bond_register_hoolock_eq w hflag]
    obtain ⟨a, b, c, d⟩ := hadd
    exact ⟨⟨a, b, c, d⟩, fun hf => by cases hf⟩

theorem Registered.open_bond {w : World} (h : w.Registered) : w.open_bond.Registered := by
  obtain ⟨x, hx⟩ : ∃ x, x = w.setBond fun b => { b with kill_timers := false } := ⟨_, rfl⟩
  have hreg : x.Registered := hx ▸ h.congr rfl
  have hopen : w.bond_open.2.Registered := by
    unfold bond_open
    dsimp only
    rw [← hx]
    split_ifs
    · exact hreg.register
    · exact hreg
  unfold World.open_bond
  split_ifs
  · exact h
  · exact hopen.congr rfl

theorem Registered.close_bond {w : World} (h : w.Registered) : w.close_bond.Registered := by
  unfold World.close_bond bond_close
  dsimp only
  split_ifs
  · exact h
  · obtain ⟨⟨a, b, c, d⟩, _⟩ := h
    refine ⟨⟨fun pt hpt => a pt (List.mem_of_mem_erase hpt), b, c.erase _, d⟩, fun _ => ?_⟩
    exact c.not_mem_erase
  · exact h.congr rfl

theorem Registered.release_all [Siblings] {w : World} (h : w.Registered) :
    w.bond_release_all.2.Registered :=
  h.congr (registry_of_core (core_bond_release_all w))

theorem Registered.destroy [Siblings] {w : World} (h : w.Registered) :
    w.bond_destroy.Registered :=
  h.close_bond.release_all

theorem Registered.step [Siblings] {w v : World} (h : w.Registered) {e : Event}
    (hv : w.step e = some v) : v.Registered := by
  have haside : e.aside = true → v.Registered :=
    fun ha => h.congr (registry_of_core (step_core ha hv))
  cases e with
  | open_bond =>
    cases hv
    exact h.open_bond
  | close_bond =>
    cases hv
    exact h.close_bond
  | make =>
    cases hv
    have hr := congrArg (fun c : Core => Registry.mk c.dev c.hoolock_pt c.ptype_all c.ptype_base)
      (core_make w)
    exact h.congr hr
  | brk env =>
    obtain ⟨⟨r, x⟩, hr, rfl⟩ := Option.map_eq_some_iff.mp hv
    exact h.congr (break_registry hr)
  | arrive env skb =>
    simp only [World.step] at hv
    split_ifs at hv
    cases hv
    have hr := congrArg registry (receive_sansTraffic w env skb)
    exact h.congr hr
  | address ip =>
    cases hv
    exact h.congr rfl
  | destroy =>
    cases hv
    exact h.destroy
  | free_all =>
    cases hv
    have hkill : (((w.lock .bond .write).setBond fun b =>
        { b with kill_timers := true }).unlock .bond .write).Registered := h.congr rfl
    exact hkill.release_all.destroy
  | _ => exact haside rfl

end World

/-- A bond in a run of arrivals, MAKE and BREAK, and the packets that wait for BREAK. -/
structure Waiting where
  world : World
  due : List Skb

namespace Waiting

variable [Siblings]

/-- Packets have numbers of their own, those that wait included. -/
def step (s : Waiting) : Event → Option Waiting
  | .arrive env skb =>
    if s.due.all (·.id != skb.id) then
      (s.world.step (.arrive env skb)).map fun v =>
        ⟨v, if s.world.must_wait env skb then s.due ++ [(s.world.frame env skb).skb] else s.due⟩
    else none
  | .make => (s.world.step .make).map fun v => ⟨v, s.due⟩
  | .brk env => (s.world.step (.brk env)).map fun v => ⟨v, []⟩
  | _ => none

/-- BREAK brings exactly the waiting packets to the protocol handlers, in their order;
before it no protocol handler is called on one of them. -/
def Ordered (s : Waiting) (e : Event) (t : Waiting) : Prop :=
  match e with
  | .brk env => World.proto_log s.world t.world = s.due.flatMap fun pb =>
      (s.world.reaches (env pb) (s.world.on_active pb)).map fun pt => (pt, pb.id)
  | _ => ∀ c ∈ World.proto_log s.world t.world, ∀ pb ∈ t.due, c.2 ≠ pb.id

def InOrder (s : Waiting) (e : Event) : Prop := ∀ t, s.step e = some t → s.Ordered e t

/-- No packet that has to wait has anywhere to go: when it arrives no protocol handler
wants it or a hook takes it, and so when BREAK is called. -/
def NowhereToGo (s : Waiting) : Event → Prop
  | .arrive env skb => s.world.must_wait env skb = true → s.world.reaches env skb = []
  | .brk env => ∀ pb ∈ s.due, s.world.reaches (env pb) (s.world.on_active pb) = []
  | _ => True

def Ready (s : Waiting) : Prop := s.world.bond.pbuff = [] ∧ s.world.HandlerLists

omit [Siblings] in
theorem receive_eq (w : World) (env : PassEnv) (skb : Skb) :
    w.receive env skb =
      ({ w with users := fun i => if i = skb.id then 1 else w.users i }.netif_receive_skb
        (World.hook false) env skb).2 := by
  unfold World.receive
  rw [World.recv_hook]

omit [Siblings] in
theorem Ready.receive {w : World} (hq : w.bond.pbuff = []) (hl : w.HandlerLists) (env : PassEnv)
    (skb : Skb) :
    (w.receive env skb).bond.pbuff = [] ∧ (w.receive env skb).HandlerLists := by
  have hl' : { w with users := fun i => if i = skb.id then 1 else w.users i }.HandlerLists :=
    hl.of_table rfl
  rw [receive_eq]
  constructor
  · exact (World.pass_queues_nothing _ env skb hl'.base_other).trans hq
  · exact hl'.of_table ((World.closed_table false _).netif_receive_skb env skb rfl)

theorem step_arrive {s t : Waiting} {env : PassEnv} {skb : Skb}
    (ht : s.step (.arrive env skb) = some t) :
    (∀ pb ∈ s.due, skb.id ≠ pb.id) ∧ t.world = s.world.receive env skb ∧
      t.due = if s.world.must_wait env skb then s.due ++ [(s.world.frame env skb).skb]
        else s.due := by
  unfold step at ht
  by_cases hdue : s.due.all (·.id != skb.id) = true
  · simp only [if_pos hdue] at ht
    obtain ⟨v, hv, rfl⟩ := Option.map_eq_some_iff.mp ht
    unfold World.step at hv
    by_cases hfresh : s.world.fresh skb = true
    · simp only [if_pos hfresh] at hv
      cases hv
      refine ⟨fun pb hpb heq => ?_, rfl, rfl⟩
      have hne := List.all_eq_true.mp hdue pb hpb
      simp [heq] at hne
    · simp only [if_neg hfresh] at hv
      cases hv
  · simp only [if_neg hdue] at ht
    cases ht

theorem step_make {s t : Waiting} (ht : s.step .make = some t) :
    t = ⟨s.world.bond_ioctl_make.2, s.due⟩ := by
  unfold step World.step at ht
  cases ht
  rfl

theorem step_brk {s t : Waiting} {env : Skb → PassEnv}
    (ht : s.step (.brk env) = some t) :
    ∃ r, s.world.bond_ioctl_break env = some r ∧ t.world = r.2 := by
  unfold step World.step at ht
  obtain ⟨v, hv, rfl⟩ := Option.map_eq_some_iff.mp ht
  obtain ⟨r, hr, rfl⟩ := Option.map_eq_some_iff.mp hv
  exact ⟨r, hr, rfl⟩

/-- BREAK finds the queue empty and is in order just in case nothing was to be delivered. -/
theorem brk_ordered {s t : Waiting} (h : s.Ready) {env : Skb → PassEnv}
    (ht : s.step (.brk env) = some t) :
    s.Ordered (.brk env) t ↔ s.NowhereToGo (.brk env) := by
  obtain ⟨r, hr, hw⟩ := step_brk ht
  have htrace : t.world.trace = s.world.trace := hw ▸ (World.break_empty_effect h.1 hr).1
  unfold Ordered NowhereToGo
  dsimp only
  rw [World.proto_log_of_same htrace]
  constructor
  · intro hnil pb hpb
    have hpart := List.flatMap_eq_nil_iff.mp hnil.symm pb hpb
    exact List.map_eq_nil_iff.mp hpart
  · intro hall
    refine (List.flatMap_eq_nil_iff.mpr fun pb hpb => ?_).symm
    rw [hall pb hpb]
    rfl

theorem make_ordered {s t : Waiting} (ht : s.step .make = some t) : s.Ordered .make t := by
  have htrace : s.world.bond_ioctl_make.2.trace = s.world.trace :=
    congrArg Core.trace (World.core_make s.world)
  rw [step_make ht]
  unfold Ordered
  dsimp only
  rw [World.proto_log_of_same htrace]
  simp

theorem Ready.step {s t : Waiting} (h : s.Ready) {e : Event} (ht : s.step e = some t) :
    t.Ready := by
  cases e with
  | arrive env skb =>
    obtain ⟨_, hw, _⟩ := step_arrive ht
    unfold Ready
    rw [hw]
    exact Ready.receive h.1 h.2 env skb
  | make =>
    rw [step_make ht]
    have hcore := World.core_make s.world
    have hall : s.world.bond_ioctl_make.2.ptype_all = s.world.ptype_all :=
      congrArg Core.ptype_all hcore
    have hbase : s.world.bond_ioctl_make.2.ptype_base = s.world.ptype_base :=
      congrArg Core.ptype_base hcore
    have hqueue : s.world.bond_ioctl_make.2.bond.pbuff = s.world.bond.pbuff :=
      congrArg Core.pbuff hcore
    obtain ⟨a, b, c, d⟩ := h.2
    exact ⟨hqueue.trans h.1, hall ▸ a, hbase ▸ b, hall ▸ c, hbase ▸ d⟩
  | brk env =>
    obtain ⟨r, hr, hw⟩ := step_brk ht
    obtain ⟨_, htable, hqueue⟩ := World.break_empty_effect h.1 hr
    unfold Ready
    rw [hw]
    exact ⟨hqueue, h.2.of_table htable⟩
  | _ => cases ht

end Waiting

end Hoolock
