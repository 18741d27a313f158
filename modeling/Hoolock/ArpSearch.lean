import Mathlib.Data.List.Find
import Hoolock.ArpMonitor
import Hoolock.CyclicSearch
import Hoolock.Session

/-!
The search of the ARP monitor: every slave that is up gets its turn, and one that answers
becomes the active slave.
-/

set_option autoImplicit false

namespace Hoolock

open CircularList

namespace World

/-- What the search goes by: the ring, the bond's pointers, and which of the other devices are up
and when they last sent. -/
structure Outline where
  shape : Shape
  dev : DevId
  mode : Mode
  port : Port
  active : Option SlaveId
  arp : Option SlaveId
  primary : Option SlaveId
  kill_timers : Bool
  jiffies : BitVec 64
  devices : DevId → Bool × BitVec 64

def outline (w : World) : Outline :=
  { shape := w.shape, dev := w.bond.dev, mode := w.bond.params.mode, port := w.port,
    active := w.bond.curr_active_slave, arp := w.bond.current_arp_slave,
    primary := w.bond.primary_slave, kill_timers := w.bond.kill_timers, jiffies := w.jiffies
    devices := fun d => if d = w.bond.dev then (false, 0) else
      (IS_UP (w.devs d), (w.devs d).trans_start) }

def marks (w : World) : SlaveId → Option Link := fun s => (w.slaves s).new_link

@[simp] theorem outline_lock (w : World) (l : LockName) (m : LockMode) :
    (w.lock l m).outline = w.outline := rfl

@[simp] theorem outline_unlock (w : World) (l : LockName) (m : LockMode) :
    (w.unlock l m).outline = w.outline := rfl

theorem outline_setSlave (w : World) (s : SlaveId) {f : Slave → Slave}
    (hn : ∀ x, (f x).next = x.next) (hp : ∀ x, (f x).prev = x.prev)
    (hd : ∀ x, (f x).dev = x.dev) : (w.setSlave s f).outline = w.outline := by
  have hshape := shape_setSlave w s f hn hp hd
  unfold outline
  rw [hshape]
  rfl

theorem outline_setDev (w : World) (d : DevId) {f : NetDevice → NetDevice}
    (hf : ∀ dev, IS_UP (f dev) = IS_UP dev ∧ (f dev).trans_start = dev.trans_start) :
    (w.setDev d f).outline = w.outline := by
  have hdevs : ∀ e, IS_UP ((w.setDev d f).devs e) = IS_UP (w.devs e) ∧
      ((w.setDev d f).devs e).trans_start = (w.devs e).trans_start := by
    intro e
    by_cases he : e = d
    · simp [setDev, he, hf]
    · simp [setDev, he]
  unfold outline
  simp only [shape_setDev, hdevs]
  rfl

theorem marks_setSlave (w : World) (s : SlaveId) {f : Slave → Slave}
    (hf : ∀ x, (f x).new_link = x.new_link) : (w.setSlave s f).marks = w.marks := by
  funext t
  by_cases ht : t = s
  · simp [marks, setSlave, ht, hf]
  · simp [marks, setSlave, ht]

@[simp] theorem marks_setDev (w : World) (d : DevId) (f : NetDevice → NetDevice) :
    (w.setDev d f).marks = w.marks := rfl

@[simp] theorem outline_inactive_flags (w : World) (s : SlaveId) :
    (w.bond_set_slave_inactive_flags s).outline = w.outline := by
  have hflag : ∀ (x : World) (d : DevId) (b : Bool), (x.setDev d fun dev =>
      { dev with slave_inactive := true, slave_needarp := dev.slave_needarp || b }).outline =
      x.outline := fun x d b => outline_setDev x d fun _ => ⟨rfl, rfl⟩
  unfold bond_set_slave_inactive_flags
  dsimp only
  rw [hflag]
  split_ifs
  · exact outline_setSlave w s (fun _ => rfl) (fun _ => rfl) fun _ => rfl
  · rfl

@[simp] theorem marks_inactive_flags (w : World) (s : SlaveId) :
    (w.bond_set_slave_inactive_flags s).marks = w.marks := by
  unfold bond_set_slave_inactive_flags
  dsimp only
  rw [marks_setDev]
  split_ifs
  · exact marks_setSlave w s fun _ => rfl
  · rfl

@[simp] theorem outline_active_flags (w : World) (s : SlaveId) :
    (w.bond_set_slave_active_flags s).outline = w.outline := by
  unfold bond_set_slave_active_flags
  dsimp only
  exact (outline_setDev _ _ (by intro dev; exact ⟨rfl, rfl⟩)).trans
    (outline_setSlave w s (fun _ => rfl) (fun _ => rfl) fun _ => rfl)

@[simp] theorem marks_active_flags (w : World) (s : SlaveId) :
    (w.bond_set_slave_active_flags s).marks = w.marks :=
  marks_setSlave w s (f := fun x => { x with state := .active }) fun _ => rfl

@[simp] theorem outline_gratuitous_arp (w : World) :
    w.bond_send_gratuitous_arp.outline = w.outline := by
  unfold bond_send_gratuitous_arp
  cases w.port with
  | k24 => rfl
  | k27 =>
    refine onSlave_keeps outline fun s => ?_
    split_ifs <;> rfl

@[simp] theorem marks_gratuitous_arp (w : World) : w.bond_send_gratuitous_arp.marks = w.marks := by
  unfold bond_send_gratuitous_arp
  cases w.port with
  | k24 => rfl
  | k27 =>
    refine onSlave_keeps marks fun s => ?_
    split_ifs <;> rfl

theorem gratuitous_keeps_active (w : World) :
    w.bond_send_gratuitous_arp.bond.curr_active_slave = w.bond.curr_active_slave :=
  congrArg Outline.active (outline_gratuitous_arp w)

def picked (w : World) : Option SlaveId × (SlaveId → Option Link) :=
  (w.bond.curr_active_slave, w.marks)

theorem picked_inactive_flags (w : World) (s : SlaveId) :
    (w.bond_set_slave_inactive_flags s).picked = w.picked :=
  Prod.ext (congrArg Outline.active (outline_inactive_flags w s)) (marks_inactive_flags w s)

theorem picked_active_flags (w : World) (s : SlaveId) :
    (w.bond_set_slave_active_flags s).picked = w.picked :=
  Prod.ext (congrArg Outline.active (outline_active_flags w s)) (marks_active_flags w s)

theorem picked_fail_over_mac (w : World) (new : SlaveId) (old : Option SlaveId) :
    (w.bond_do_fail_over_mac new old).picked = w.picked := by
  unfold bond_do_fail_over_mac
  cases w.bond.params.fail_over_mac with
  | none => rfl
  | active => rfl
  | follow =>
    have hold : ∀ (x : World) (f : World → SlaveId → World),
        (∀ s, (f x s).picked = x.picked) → (x.onSlave old f).picked = x.picked :=
      fun x f hf => onSlave_keeps picked hf
    refine hold _ _ fun s => ?_
    split_ifs <;> rfl

theorem picked_activebackup_27 (w : World) (new old : Option SlaveId) :
    (w.activebackup_changed_27 new old).picked = w.picked := by
  have hlocks : ∀ x : World, (((((x.unlock .curr_slave .write).unlock .bond .read).lock .bond
      .read).lock .curr_slave .write).picked) = x.picked := fun _ => rfl
  have hgrat : ∀ x : World, x.bond_send_gratuitous_arp.picked = x.picked := fun x =>
    Prod.ext (gratuitous_keeps_active x) (marks_gratuitous_arp x)
  have hset : ∀ x : World, (x.setBond fun b =>
      { b with send_grat_arp := BitVec.ofInt 8 b.params.num_grat_arp }).picked = x.picked :=
    fun _ => rfl
  have hmac : ∀ (x : World) (s : SlaveId), (if x.bond.params.fail_over_mac ≠ .none then
      x.bond_do_fail_over_mac s old else x).picked = x.picked := by
    intro x s
    split_ifs
    · exact picked_fail_over_mac x s old
    · rfl
  unfold activebackup_changed_27
  refine (onSlave_keeps picked fun s => ?_).trans
    (onSlave_keeps picked fun s => picked_inactive_flags w s)
  dsimp only
  rw [hlocks, hgrat, hset, hmac, picked_active_flags]

theorem promote_picked {w : World} (hm : w.bond.params.mode = .activebackup) (s : SlaveId)
    [Siblings] : (w.promote_link s).picked = w.picked := by
  have hset : (w.setSlave s fun x => { x with delay := 0, link := .up }).bond.params.mode =
      .activebackup := hm
  unfold promote_link
  simp only [hset, reduceCtorEq, or_self, if_false]
  split_ifs
  · exact Prod.ext rfl (marks_setSlave w s fun _ => rfl)
  · rfl

theorem picked_mc_swap (w : World) (new old : Option SlaveId) :
    (w.bond_mc_swap new old).picked = w.picked := by
  unfold bond_mc_swap
  split_ifs
  · rfl
  · exact (onSlave_keeps picked fun _ => rfl).trans (onSlave_keeps picked fun _ => rfl)

theorem change_active_picked [Siblings] {w : World} (hp : w.port = .k27)
    (hm : w.bond.params.mode = .activebackup) (new : Option SlaveId) :
    (w.bond_change_active_slave new).picked = (new, w.marks) := by
  obtain ⟨y, hy⟩ : ∃ y, y = (w.onSlave new promote_link).bond_mc_swap new
    w.bond.curr_active_slave := ⟨_, rfl⟩
  obtain ⟨x, hx⟩ : ∃ x, x = y.install_active new w.bond.curr_active_slave := ⟨_, rfl⟩
  have hycore : y.core = w.core := by simp [hy]
  have hxcore : x.core = w.core := by simp [hx, hycore]
  have hym : y.bond.params.mode = .activebackup := (congrArg Core.mode hycore).trans hm
  have hxm : x.bond.params.mode = .activebackup := (congrArg Core.mode hxcore).trans hm
  have hxp : x.port = .k27 := (congrArg Core.port hxcore).trans hp
  have hymarks : y.marks = w.marks := by
    have hpicked : y.picked = w.picked := by
      rw [hy, picked_mc_swap]
      exact onSlave_keeps picked fun s => promote_picked hm s
    exact congrArg Prod.snd hpicked
  have hxpicked : x.picked = (new, w.marks) := by
    rw [hx]
    unfold install_active
    simp only [hym, reduceCtorEq, or_self, if_false]
    exact Prod.ext rfl hymarks
  unfold bond_change_active_slave
  dsimp only
  rw [← hy, ← hx]
  by_cases hsame : w.bond.curr_active_slave = new
  · rw [if_pos hsame]
    exact Prod.ext hsame rfl
  · rw [if_neg hsame]
    simp only [hxm, hxp, ne_eq, not_true_eq_false, if_false, if_true]
    exact (picked_activebackup_27 _ _ _).trans hxpicked

def search_order (w : World) : List SlaveId :=
  match w.bond.current_arp_slave.or w.bond.first_slave with
  | some c => w.bond_for_each_slave_from (w.slaves c).next
  | none => []

structure Searchable (w : World) (l : List SlaveId) : Prop where
  ring : w.Ring l
  foreign : ∀ s ∈ l, (w.slaves s).dev ≠ w.bond.dev
  mode : w.bond.params.mode = .activebackup
  port : w.port = .k27
  runs : w.bond.kill_timers = false
  arp : ∀ c, w.bond.current_arp_slave = some c → c ∈ l

section outline

variable {w v : World} {l : List SlaveId}

theorem Searchable.of_outline (h : w.Searchable l) (ho : v.outline = w.outline) :
    v.Searchable l := by
  have hshape : v.shape = w.shape := congrArg Outline.shape ho
  have hdev : v.bond.dev = w.bond.dev := congrArg Outline.dev ho
  have hslaves : ∀ t, (v.slaves t).dev = (w.slaves t).dev :=
    congrFun (congrArg Shape.dev hshape)
  refine ⟨h.ring.of_shape hshape, fun s hs => ?_, ?_, ?_, ?_, fun c hc => ?_⟩
  · rw [hslaves, hdev]
    exact h.foreign s hs
  · exact (congrArg Outline.mode ho).trans h.mode
  · exact (congrArg Outline.port ho).trans h.port
  · exact (congrArg Outline.kill_timers ho).trans h.runs
  · have harp : v.bond.current_arp_slave = w.bond.current_arp_slave := congrArg Outline.arp ho
    exact h.arp c (harp ▸ hc)

theorem device_of_outline (hd : v.outline.dev = w.outline.dev)
    (hs : v.outline.shape = w.outline.shape) (ho : v.outline.devices = w.outline.devices)
    {s : SlaveId} (hf : (w.slaves s).dev ≠ w.bond.dev) :
    IS_UP (v.slave_dev s) = IS_UP (w.slave_dev s) ∧
      (v.slave_dev s).trans_start = (w.slave_dev s).trans_start := by
  have hdev : v.bond.dev = w.bond.dev := hd
  have hslave : (v.slaves s).dev = (w.slaves s).dev := congrFun (congrArg Shape.dev hs) s
  have hsame := congrFun ho (w.slaves s).dev
  simp only [outline, hdev, if_neg hf, Prod.mk.injEq] at hsame
  unfold slave_dev
  rw [hslave]
  exact hsame

theorem search_order_of_outline (ho : v.outline = w.outline) :
    v.search_order = w.search_order := by
  have hshape : v.shape = w.shape := congrArg Outline.shape ho
  have harp : v.bond.current_arp_slave = w.bond.current_arp_slave := congrArg Outline.arp ho
  have hfirst : v.bond.first_slave = w.bond.first_slave := congrArg Shape.first_slave hshape
  have hcnt : v.bond.slave_cnt = w.bond.slave_cnt := congrArg Shape.slave_cnt hshape
  have hnext : ∀ c, (v.slaves c).next = (w.slaves c).next :=
    congrFun (congrArg Links.next (congrArg Shape.links hshape))
  have hlinks : v.links.next = w.links.next := funext hnext
  unfold search_order bond_for_each_slave_from
  rw [harp, hfirst, hcnt, hlinks]
  simp only [hnext]

theorem order_from {c : SlaveId} {m k : List SlaveId} (h : w.Ring (m ++ c :: k))
    (hc : w.bond.current_arp_slave.or w.bond.first_slave = some c) :
    w.search_order = k ++ m ++ [c] := by
  have hnext : (w.slaves c).next = w.links.next c := rfl
  unfold search_order bond_for_each_slave_from
  rw [hc, h.count]
  dsimp only
  rw [hnext, Int.toNat_natCast]
  exact h.ring.from_next.2

theorem Searchable.start (h : w.Searchable l) {a : SlaveId} (ha : a ∈ l) :
    ∃ c ∈ l, w.bond.current_arp_slave.or w.bond.first_slave = some c := by
  cases harp : w.bond.current_arp_slave with
  | some c => exact ⟨c, h.arp c harp, rfl⟩
  | none =>
    have hhead := h.ring.head
    cases l with
    | nil => cases ha
    | cons b t => exact ⟨b, by simp, by simpa using hhead⟩

theorem Searchable.order_perm (h : w.Searchable l) : w.search_order.Perm l := by
  cases l with
  | nil =>
    have hhead : w.bond.first_slave = none := h.ring.head
    have harp : w.bond.current_arp_slave = none := by
      cases hc : w.bond.current_arp_slave with
      | none => rfl
      | some c => cases h.arp c hc
    simp [search_order, harp, hhead]
  | cons a t =>
    obtain ⟨c, hc, hstart⟩ := h.start (List.mem_cons_self (a := a) (l := t))
    obtain ⟨m, k, hl⟩ := List.append_of_mem hc
    have hring := h.ring
    rw [hl] at hring
    have hperm : (k ++ (m ++ [c])).Perm (m ++ [c] ++ k) := List.perm_append_comm
    rw [order_from hring hstart, hl, List.append_assoc]
    simpa using hperm

theorem Searchable.order_after (h : w.Searchable l) {s : SlaveId} {p : SlaveId → Bool}
    (hfind : w.search_order.find? p = some s) (hshape : v.shape = w.shape)
    (harp : v.bond.current_arp_slave = some s) :
    v.search_order = CyclicSearch.advance p w.search_order := by
  obtain ⟨before, after, hsplit, hbefore, hs⟩ := CyclicSearch.find_split p hfind
  have hmem : s ∈ l := h.order_perm.mem_iff.mp (List.mem_of_find?_eq_some hfind)
  obtain ⟨c, hc, hstart⟩ := h.start hmem
  obtain ⟨m, k, hl⟩ := List.append_of_mem hc
  have hring := h.ring
  rw [hl] at hring
  have horder := order_from hring hstart
  have hrotated := hring.ring.from_next.1
  rw [← horder, hsplit] at hrotated
  have hlen : (before ++ s :: after).length = l.length := by
    rw [← hsplit]
    exact h.order_perm.length_eq
  have hlinks : v.links = w.links := congrArg Shape.links hshape
  have hcnt : v.bond.slave_cnt = l.length := (congrArg Shape.slave_cnt hshape).trans h.ring.count
  have hnext : (v.slaves s).next = v.links.next s := rfl
  rw [hsplit, CyclicSearch.advance_append p hbefore hs]
  unfold search_order bond_for_each_slave_from
  rw [harp, hcnt]
  dsimp only [Option.some_or]
  rw [hnext, hlinks, Int.toNat_natCast, ← hlen]
  exact hrotated.from_next.2

end outline

end World

namespace ArpBond

variable {n m : ArpBond} {l : List SlaveId} {delta : BitVec 64}

/-! The inspection -/

theorem verdict_inspect (n : ArpBond) (s t : SlaveId) :
    (n.inspect delta s).verdict delta t = n.verdict delta t := by
  have hslave : ∀ {β : Type} (g : Slave → β), (∀ x (k : Option Link),
      g { x with new_link := k } = g x) →
      g ((n.inspect delta s).world.slaves t) = g (n.world.slaves t) := by
    intro β g hg
    by_cases ht : t = s
    · simp [inspect, change, World.setSlave, ht, hg]
    · simp [inspect, change, World.setSlave, ht]
  have hlink := hslave Slave.link fun _ _ => rfl
  have hstate := hslave Slave.state fun _ _ => rfl
  have hdev := hslave Slave.dev fun _ _ => rfl
  have hvalidate : (n.inspect delta s).world.slave_do_arp_validate t =
      n.world.slave_do_arp_validate t := by
    unfold World.slave_do_arp_validate
    rw [hstate]
    rfl
  have hslave_dev : (n.inspect delta s).world.slave_dev t = n.world.slave_dev t := by
    unfold World.slave_dev
    rw [hdev]
    rfl
  unfold verdict heard backup_silent active_silent slave_last_rx
  rw [hlink, hstate, hvalidate, hslave_dev]
  rfl

theorem inspect_loop (delta : BitVec 64) (l : List SlaveId) (n : ArpBond) :
    let m := l.foldl (inspect delta) n
    m.world.outline = n.world.outline ∧
      (∀ s, (m.world.slaves s).link = (n.world.slaves s).link) ∧
      (∀ s ∈ l, m.world.marks s = n.verdict delta s) ∧
      ∀ s ∉ l, m.world.marks s = n.world.marks s := by
  induction l generalizing n with
  | nil => simp
  | cons a rest ih =>
    obtain ⟨houtline, hlink, hin, hout⟩ := ih (n.inspect delta a)
    have hfirst : (n.inspect delta a).world.outline = n.world.outline :=
      World.outline_setSlave n.world a (f := fun slave =>
        { slave with new_link := n.verdict delta a }) (fun _ => rfl) (fun _ => rfl) fun _ => rfl
    have hkeep : ∀ s, ((n.inspect delta a).world.slaves s).link = (n.world.slaves s).link := by
      intro s
      by_cases hs : s = a <;> simp [inspect, change, World.setSlave, hs]
    have hmark : ∀ s, (n.inspect delta a).world.marks s =
        if s = a then n.verdict delta a else n.world.marks s := by
      intro s
      by_cases hs : s = a <;> simp [inspect, change, World.setSlave, World.marks, hs]
    refine ⟨houtline.trans hfirst, fun s => (hlink s).trans (hkeep s), fun s hs => ?_,
      fun s hs => ?_⟩
    · by_cases hrest : s ∈ rest
      · exact (hin s hrest).trans (verdict_inspect n a s)
      · have hsa : s = a := by simpa [hrest] using hs
        rw [List.foldl_cons, hout s hrest, hmark, if_pos hsa, hsa]
    · rw [List.mem_cons, not_or] at hs
      rw [List.foldl_cons, hout s hs.2, hmark, if_neg hs.1]

theorem verdict_up {s : SlaveId} (h : n.verdict delta s = some .up) :
    (n.world.slaves s).link ≠ .up ∧ n.heard delta s = true := by
  unfold verdict at h
  split_ifs at h with hlink hheard
  · exact ⟨hlink, hheard⟩
  · cases h

/-! What is done about one slave -/

variable [Siblings]

theorem core_change_active (n : ArpBond) (new : Option SlaveId) :
    (n.bond_change_active_slave new).world.core = n.world.core := by
  have hworld : (n.bond_change_active_slave new).world =
      n.world.bond_change_active_slave new := by
    unfold bond_change_active_slave
    cases new with
    | none => rfl
    | some s =>
      dsimp only
      split_ifs <;> rfl
  rw [hworld, World.core_change_active]

theorem core_commit_up (n : ArpBond) (s : SlaveId) :
    (n.commit_up delta s).world.core = n.world.core := by
  have hclear : ∀ k : ArpBond, (k.set_arp_slave none).world.core = k.world.core := fun _ => rfl
  have hlock : ∀ k : ArpBond, k.world.core = n.world.core.lock .curr_slave .write →
      (k.change (·.unlock .curr_slave .write)).world.core = n.world.core := by
    intro k hk
    simp [change, hk]
  unfold commit_up
  dsimp only
  refine hlock _ ?_
  split_ifs
  · rw [hclear, core_change_active]
    simp [change]
  · rw [hclear]
    simp [change]
  · simp [change]

theorem core_commit_down (n : ArpBond) (s : SlaveId) :
    (n.commit_down s).world.core = n.world.core := by
  have hclear : ∀ k : ArpBond, (k.set_arp_slave none).world.core = k.world.core := fun _ => rfl
  have hstamp : ∀ k : ArpBond, k.stamp_active.world.core = k.world.core := by
    intro k
    unfold stamp_active
    cases k.world.bond.curr_active_slave <;> rfl
  have hselect : ∀ k : ArpBond, k.bond_select_active_slave.world.core = k.world.core := by
    intro k
    unfold bond_select_active_slave
    dsimp only
    split_ifs
    · simp [change, core_change_active]
    · rfl
  unfold commit_down
  dsimp only
  split_ifs
  · rw [hclear]
    simp only [change, World.core_unlock]
    rw [hstamp, hselect]
    simp
  · simp [change]
  · simp [change]

theorem core_commit (n : ArpBond) (s : SlaveId) :
    (n.commit delta s).world.core = n.world.core := by
  unfold commit
  split
  · rfl
  · exact core_commit_up n s
  · exact core_commit_down n s
  · rfl

theorem commit_aside (delta : BitVec 64) {s : SlaveId} (hmark : n.world.marks s ≠ some .up)
    (hactive : n.world.bond.curr_active_slave ≠ some s) :
    (n.commit delta s).world.outline = n.world.outline ∧
      (n.commit delta s).world.marks = n.world.marks ∧
      ∀ t, (n.world.slaves t).link ≠ .up → ((n.commit delta s).world.slaves t).link ≠ .up := by
  have hsame : n.world.outline = n.world.outline ∧ n.world.marks = n.world.marks ∧
      ∀ t, (n.world.slaves t).link ≠ .up → (n.world.slaves t).link ≠ .up :=
    ⟨rfl, rfl, fun _ h => h⟩
  unfold commit
  unfold World.marks at hmark
  cases hk : (n.world.slaves s).new_link with
  | none => exact hsame
  | some k =>
    cases k with
    | up => exact absurd hk hmark
    | fail => exact hsame
    | back => exact hsame
    | down =>
      obtain ⟨w, hw⟩ : ∃ w, w = (n.world.setSlave s World.count_failure).setSlave s fun slave =>
        { slave with link := .down } := ⟨_, rfl⟩
      have hcounted : (n.world.setSlave s World.count_failure).outline = n.world.outline :=
        World.outline_setSlave _ _ (fun _ => rfl) (fun _ => rfl) fun _ => rfl
      have hwo : w.outline = n.world.outline := by
        rw [hw, ← hcounted]
        exact World.outline_setSlave _ _ (by intro x; rfl) (by intro x; rfl) (by intro x; rfl)
      have hwm : w.marks = n.world.marks := by
        have hfirst := World.marks_setSlave n.world s (f := World.count_failure) fun _ => rfl
        rw [hw, ← hfirst]
        exact World.marks_setSlave _ s (by intro x; rfl)
      have hwl : ∀ t, (w.slaves t).link = if t = s then .down else (n.world.slaves t).link := by
        intro t
        rw [hw]
        by_cases ht : t = s <;> simp [World.setSlave, World.count_failure, ht]
      have hwa : w.bond.curr_active_slave ≠ some s := by
        rw [hw]
        exact hactive
      have hdown : ∀ t, (n.world.slaves t).link ≠ .up → (w.slaves t).link ≠ .up := by
        intro t ht
        rw [hwl]
        split_ifs
        · simp
        · exact ht
      have hflags : ∀ t, ((w.bond_set_slave_inactive_flags s).slaves t).link = (w.slaves t).link := by
        intro t
        unfold World.bond_set_slave_inactive_flags
        by_cases ht : t = s
        · subst ht
          split_ifs <;> simp [World.setSlave, World.setDev]
        · split_ifs <;> simp [World.setSlave, World.setDev, ht]
      dsimp only
      unfold commit_down change
      dsimp only
      rw [← hw, if_neg hwa]
      split_ifs
      · refine ⟨?_, ?_, fun t ht => ?_⟩
        · exact (World.outline_inactive_flags w s).trans hwo
        · exact (World.marks_inactive_flags w s).trans hwm
        · dsimp only
          rw [hflags]
          exact hdown t ht
      · exact ⟨hwo, hwm, hdown⟩

theorem commit_heard {s : SlaveId} (hp : n.world.port = .k27)
    (hm : n.world.bond.params.mode = .activebackup) (hmark : n.world.marks s = some .up)
    (hidle : n.world.bond.curr_active_slave = none) (hsent : n.sent delta s = true) :
    (n.commit delta s).world.picked = (some s, n.world.marks) := by
  obtain ⟨w, hw⟩ : ∃ w, w = (n.world.lock .curr_slave .write).setSlave s fun slave =>
    { slave with link := .up } := ⟨_, rfl⟩
  have hwm : w.bond.params.mode = .activebackup := by
    rw [hw]
    exact hm
  have hwp : w.port = .k27 := by
    rw [hw]
    exact hp
  have hmarks : w.marks = n.world.marks := by
    rw [hw]
    exact World.marks_setSlave _ s fun _ => rfl
  have hpicked := World.change_active_picked hwp hwm (some s)
  rw [hmarks] at hpicked
  have hcond : (n.change (·.lock .curr_slave .write)).world.bond.curr_active_slave = none ∧
      (n.change (·.lock .curr_slave .write)).sent delta s = true := ⟨hidle, hsent⟩
  have hchange : ∀ k : ArpBond, (k.bond_change_active_slave (some s)).world =
      k.world.bond_change_active_slave (some s) := by
    intro k
    unfold bond_change_active_slave
    dsimp only
    split_ifs <;> rfl
  unfold World.marks at hmark
  unfold commit
  rw [hmark]
  unfold commit_up
  dsimp only
  rw [if_pos hcond]
  unfold set_arp_slave change
  dsimp only
  rw [hchange]
  dsimp only
  rw [← hw]
  exact hpicked

theorem commit_later {s a : SlaveId} (hmark : n.world.marks s = some .up)
    (ha : n.world.bond.curr_active_slave = some a) :
    (n.commit delta s).world.picked = (some a, n.world.marks) := by
  have hsome : ¬ ((n.change (·.lock .curr_slave .write)).world.bond.curr_active_slave = none ∧
      (n.change (·.lock .curr_slave .write)).sent delta s = true) := by
    rintro ⟨hnone, -⟩
    have hnone : n.world.bond.curr_active_slave = none := hnone
    rw [ha] at hnone
    cases hnone
  unfold World.marks at hmark
  unfold commit
  rw [hmark]
  unfold commit_up
  dsimp only
  rw [if_neg hsome]
  split_ifs
  · unfold set_arp_slave change
    have hflags := World.picked_inactive_flags ((n.world.lock .curr_slave .write).setSlave s
      fun slave => { slave with link := .up }) s
    refine Prod.ext ?_ ?_
    · exact (congrArg Prod.fst hflags).trans ha
    · exact (congrArg Prod.snd hflags).trans (World.marks_setSlave _ s fun _ => rfl)
  · exact Prod.ext ha rfl

theorem commit_rest {a : SlaveId} (ha : n.world.bond.curr_active_slave = some a)
    (hmark : n.world.marks a = some .up) (delta : BitVec 64) (l : List SlaveId) :
    (l.foldl (commit delta) n).world.picked = (some a, n.world.marks) := by
  induction l generalizing n with
  | nil => exact Prod.ext ha rfl
  | cons s rest ih =>
    have hone : (n.commit delta s).world.picked = (some a, n.world.marks) := by
      by_cases hs : n.world.marks s = some .up
      · exact commit_later hs ha
      · have hne : n.world.bond.curr_active_slave ≠ some s := by
          rw [ha]
          rintro hsame
          obtain rfl := Option.some.inj hsame
          exact hs hmark
        obtain ⟨houtline, hmarks, -⟩ := n.commit_aside delta hs hne
        exact Prod.ext ((congrArg World.Outline.active houtline).trans ha) hmarks
    have hactive : (n.commit delta s).world.bond.curr_active_slave = some a :=
      congrArg Prod.fst hone
    have hmarks : (n.commit delta s).world.marks = n.world.marks := congrArg Prod.snd hone
    have hrest := ih hactive (by rw [hmarks]; exact hmark)
    rw [hmarks] at hrest
    exact hrest

omit [Siblings] in
theorem sent_of_outline (ho : m.world.outline = n.world.outline) {s : SlaveId}
    (hf : (n.world.slaves s).dev ≠ n.world.bond.dev) : m.sent delta s = n.sent delta s := by
  have hdevice := World.device_of_outline (congrArg World.Outline.dev ho)
    (congrArg World.Outline.shape ho) (congrArg World.Outline.devices ho) hf
  have hjiffies : m.world.jiffies = n.world.jiffies := congrArg World.Outline.jiffies ho
  unfold sent
  rw [hdevice.2, hjiffies]

/-- Either a slave that is heard becomes the active slave, or none is and the search goes on. -/
theorem commit_loop (h : n.world.Searchable l) (hidle : n.world.bond.curr_active_slave = none)
    {r : List SlaveId} (hr : ∀ s ∈ r, s ∈ l)
    (hsent : ∀ s ∈ r, n.world.marks s = some .up → n.sent delta s = true) :
    let m := r.foldl (commit delta) n
    (m.world.bond.curr_active_slave ≠ none ∧ ∃ s ∈ r, n.world.marks s = some .up) ∨
      m.world.outline = n.world.outline ∧ (∀ s ∈ r, n.world.marks s ≠ some .up) ∧
        ∀ t, (n.world.slaves t).link ≠ .up → (m.world.slaves t).link ≠ .up := by
  induction r generalizing n with
  | nil => exact Or.inr ⟨rfl, by simp, fun _ ht => ht⟩
  | cons a rest ih =>
    have hrest : ∀ s ∈ rest, s ∈ l := fun s hs => hr s (List.mem_cons_of_mem a hs)
    by_cases hmark : n.world.marks a = some .up
    · left
      have hone := commit_heard h.port h.mode hmark hidle (hsent a List.mem_cons_self hmark)
      have hactive : (n.commit delta a).world.bond.curr_active_slave = some a :=
        congrArg Prod.fst hone
      have hmarks : (n.commit delta a).world.marks = n.world.marks := congrArg Prod.snd hone
      have hall := commit_rest hactive (by rw [hmarks]; exact hmark) delta rest
      have hlast : ((a :: rest).foldl (commit delta) n).world.bond.curr_active_slave = some a :=
        congrArg Prod.fst hall
      refine ⟨?_, a, List.mem_cons_self, hmark⟩
      rw [hlast]
      simp
    · have hne : n.world.bond.curr_active_slave ≠ some a := by
        rw [hidle]
        simp
      obtain ⟨houtline, hmarks, hlinks⟩ := n.commit_aside delta hmark hne
      have hactive : (n.commit delta a).world.bond.curr_active_slave = none :=
        (congrArg World.Outline.active houtline).trans hidle
      have hsame : ∀ s ∈ rest, (n.commit delta a).sent delta s = n.sent delta s :=
        fun s hs => sent_of_outline houtline (h.foreign s (hrest s hs))
      have hnext := ih (h.of_outline houtline) hactive hrest fun s hs hup => by
        rw [hmarks] at hup
        rw [hsame s hs]
        exact hsent s (List.mem_cons_of_mem a hs) hup
      rw [hmarks, houtline] at hnext
      rcases hnext with ⟨hsome, s, hs, hup⟩ | ⟨hout, hnone, hlink⟩
      · exact Or.inl ⟨hsome, s, List.mem_cons_of_mem a hs, hup⟩
      · refine Or.inr ⟨hout, fun s hs => ?_, fun t ht => hlink t (hlinks t ht)⟩
        rcases List.mem_cons.mp hs with rfl | hs
        · exact hmark
        · exact hnone s hs

theorem outline_set_carrier {w : World} (hm : w.bond.params.mode = .activebackup) :
    w.bond_set_carrier.2.outline = w.outline := by
  have hbond : ∀ b : Bool, (w.setDev w.bond.dev fun dev => { dev with carrier := b }).outline =
      w.outline := by
    intro b
    have hdevices : ∀ d, (if d = w.bond.dev then (false, (0 : BitVec 64)) else
        (IS_UP ((w.setDev w.bond.dev fun dev => { dev with carrier := b }).devs d),
          ((w.setDev w.bond.dev fun dev => { dev with carrier := b }).devs d).trans_start)) =
        if d = w.bond.dev then (false, 0) else (IS_UP (w.devs d), (w.devs d).trans_start) := by
      intro d
      by_cases hd : d = w.bond.dev <;> simp [World.setDev, hd]
    exact congrArg (fun f => { w.outline with devices := f }) (funext hdevices)
  unfold World.bond_set_carrier World.netif_carrier_on World.netif_carrier_off
  simp only [hm, reduceCtorEq, and_false, if_false]
  split_ifs
  · exact hbond true
  · rfl
  · exact hbond false
  · rfl

theorem commit_primary_cases (hp : n.world.port = .k27)
    (hm : n.world.bond.params.mode = .activebackup) :
    (n.commit_primary.world.bond.curr_active_slave ≠ none ∧ n.world.primary_waits ≠ none) ∨
      n.world.primary_waits = none ∧ n.commit_primary.world.outline = n.world.outline := by
  unfold commit_primary
  dsimp only
  cases hwaits : n.world.primary_waits with
  | none => exact Or.inr ⟨rfl, outline_set_carrier hm⟩
  | some p =>
    left
    obtain ⟨w, hw⟩ : ∃ w, w = (n.world.lock .curr_slave .write).bond_change_active_slave
      (some p) := ⟨_, rfl⟩
    have hworld : ((n.change (·.lock .curr_slave .write)).bond_change_active_slave
        (some p)).world = w := by
      rw [hw]
      unfold bond_change_active_slave
      dsimp only
      split_ifs <;> rfl
    have hmode : w.bond.params.mode = .activebackup := by
      have hcore : w.core = n.world.core.lock .curr_slave .write := by simp [hw]
      exact (congrArg Core.mode hcore).trans hm
    have hpicked : w.picked = (some p, (n.world.lock .curr_slave .write).marks) := by
      rw [hw]
      exact World.change_active_picked (w := n.world.lock .curr_slave .write) hp hm (some p)
    have hactive : w.bond.curr_active_slave = some p := congrArg Prod.fst hpicked
    have hcarrier := outline_set_carrier (w := w.unlock .curr_slave .write) hmode
    have hlast : (w.unlock .curr_slave .write).bond_set_carrier.2.bond.curr_active_slave = some p :=
      (congrArg World.Outline.active hcarrier).trans hactive
    refine ⟨?_, by simp⟩
    dsimp only [change] at hworld ⊢
    rw [hworld, hlast]
    simp

/-! The search -/

omit [Siblings] in
theorem passed_over_outline (n : ArpBond) (s : SlaveId) :
    (n.passed_over s).world.outline = n.world.outline := by
  unfold passed_over change
  dsimp only
  split_ifs
  · rw [World.outline_inactive_flags]
    exact World.outline_setSlave _ _ (by intro x; rfl) (by intro x; rfl) (by intro x; rfl)
  · rfl

omit [Siblings] in
theorem candidate_outline (n : ArpBond) (s : SlaveId) :
    (n.candidate s).world.outline = { n.world.outline with arp := some s } := by
  have hback : (n.world.setSlave s fun slave => { slave with link := .back }).outline =
      n.world.outline :=
    World.outline_setSlave _ _ (fun _ => rfl) (fun _ => rfl) fun _ => rfl
  have hflags := World.outline_active_flags
    (n.world.setSlave s fun slave => { slave with link := .back }) s
  exact congrArg (fun o => { o with arp := some s }) (hflags.trans hback)

omit [Siblings] in
theorem next_candidate_spec {r : List SlaveId}
    (hf : ∀ s ∈ r, (n.world.slaves s).dev ≠ n.world.bond.dev) :
    (n.next_candidate r).1 = r.find? (fun s => IS_UP (n.world.slave_dev s)) ∧
      (n.next_candidate r).2.world.outline = { n.world.outline with
        arp := (r.find? fun s => IS_UP (n.world.slave_dev s)).or n.world.bond.current_arp_slave } := by
  induction r generalizing n with
  | nil => exact ⟨rfl, rfl⟩
  | cons s rest ih =>
    unfold next_candidate
    by_cases hup : IS_UP (n.world.slave_dev s) = true
    · simp only [hup, if_true, List.find?_cons_of_pos]
      exact ⟨trivial, candidate_outline n s⟩
    · have houtline := n.passed_over_outline s
      have hslaves : ∀ t, ((n.passed_over s).world.slaves t).dev = (n.world.slaves t).dev :=
        congrFun (congrArg (fun o => o.shape.dev) houtline)
      have hdev : (n.passed_over s).world.bond.dev = n.world.bond.dev :=
        congrArg World.Outline.dev houtline
      have hforeign : ∀ t ∈ rest, (n.world.slaves t).dev ≠ n.world.bond.dev :=
        fun t ht => hf t (List.mem_cons_of_mem s ht)
      obtain ⟨hfirst, hlast⟩ := ih (n := n.passed_over s) fun t ht => by
        rw [hslaves, hdev]
        exact hforeign t ht
      have hfind : rest.find? (fun t => IS_UP ((n.passed_over s).world.slave_dev t)) =
          rest.find? fun t => IS_UP (n.world.slave_dev t) :=
        List.find?_congr fun t ht => (World.device_of_outline (congrArg World.Outline.dev houtline)
          (congrArg World.Outline.shape houtline) (congrArg World.Outline.devices houtline)
          (hforeign t ht)).1
      have harp : (n.passed_over s).world.bond.current_arp_slave =
          n.world.bond.current_arp_slave := congrArg World.Outline.arp houtline
      rw [hfind, houtline, harp] at hlast
      rw [hfind] at hfirst
      rw [List.find?_cons_of_neg (by simpa using hup)]
      simp only [hup, Bool.false_eq_true, if_false]
      exact ⟨hfirst, hlast⟩

omit [Siblings] in
theorem next_candidate_link (n : ArpBond) (r : List SlaveId) {s : SlaveId}
    (hs : (n.next_candidate r).1 = some s) :
    ((n.next_candidate r).2.world.slaves s).link = .back := by
  induction r generalizing n with
  | nil => cases hs
  | cons a rest ih =>
    unfold next_candidate at hs ⊢
    by_cases hup : IS_UP (n.world.slave_dev a) = true
    · simp only [hup, if_true] at hs ⊢
      obtain rfl := Option.some.inj hs
      simp [candidate, change, stamp_slave, set_arp_slave, World.setBond, World.setSlave,
        World.setDev, World.bond_set_slave_active_flags]
    · simp only [hup, Bool.false_eq_true, if_false] at hs ⊢
      exact ih _ hs

omit [Siblings] in
theorem probe_idle (h : n.world.Searchable l) (hidle : n.world.bond.curr_active_slave = none) :
    n.bond_ab_arp_probe.1 = n.world.search_order.find? (fun s => IS_UP (n.world.slave_dev s)) ∧
      n.bond_ab_arp_probe.2.world.outline = { n.world.outline with
        arp := (n.world.search_order.find? fun s => IS_UP (n.world.slave_dev s)).or
          (n.world.bond.current_arp_slave.or n.world.bond.first_slave) } ∧
      ∀ s, n.bond_ab_arp_probe.1 = some s →
        (n.bond_ab_arp_probe.2.world.slaves s).link = .back := by
  obtain ⟨x, hx⟩ : ∃ x, x = (n.change (·.lock .curr_slave .read)).change
    (·.unlock .curr_slave .read) := ⟨_, rfl⟩
  have hxarp : x.world.bond.current_arp_slave = n.world.bond.current_arp_slave := hx ▸ rfl
  have hxfirst : x.world.bond.first_slave = n.world.bond.first_slave := hx ▸ rfl
  have hxoutline : x.world.outline = n.world.outline := hx ▸ rfl
  obtain ⟨k, hk⟩ : ∃ k, k = if x.world.bond.current_arp_slave = none then
    x.set_arp_slave x.world.bond.first_slave else x := ⟨_, rfl⟩
  have hkarp : k.world.bond.current_arp_slave =
      n.world.bond.current_arp_slave.or n.world.bond.first_slave := by
    rw [hk, ← hxarp, ← hxfirst]
    cases harp : x.world.bond.current_arp_slave with
    | none => rfl
    | some c => exact harp
  have hkoutline : k.world.outline = { n.world.outline with
      arp := n.world.bond.current_arp_slave.or n.world.bond.first_slave } := by
    rw [hk, ← hxarp, ← hxfirst, ← hxoutline]
    cases harp : x.world.bond.current_arp_slave with
    | none => rfl
    | some c => exact congrArg (fun a => { x.world.outline with arp := a }) harp
  have hprobe : n.bond_ab_arp_probe = k.world.bond.current_arp_slave.elim (none, k) fun c =>
      (k.change (·.bond_set_slave_inactive_flags c)).next_candidate
        ((k.change (·.bond_set_slave_inactive_flags c)).world.bond_for_each_slave_from
          ((k.change (·.bond_set_slave_inactive_flags c)).world.slaves c).next) := by
    have hnone : ¬ (n.change (·.lock .curr_slave .read)).world.bond.curr_active_slave.isSome := by
      have hlocked : (n.change (·.lock .curr_slave .read)).world.bond.curr_active_slave = none :=
        hidle
      rw [hlocked]
      simp
    unfold bond_ab_arp_probe
    dsimp only
    rw [if_neg hnone, ← hx, ← hk]
    cases k.world.bond.current_arp_slave with
    | none => rfl
    | some c => rfl
  rw [hprobe, hkarp]
  cases hstart : n.world.bond.current_arp_slave.or n.world.bond.first_slave with
  | none =>
    have horder : n.world.search_order = [] := by
      unfold World.search_order
      rw [hstart]
    rw [hstart] at hkoutline
    rw [horder]
    exact ⟨rfl, hkoutline, fun s hs => by cases hs⟩
  | some c =>
    obtain ⟨u, hu⟩ : ∃ u, u = k.change (·.bond_set_slave_inactive_flags c) := ⟨_, rfl⟩
    have huoutline : u.world.outline = { n.world.outline with arp := some c } := by
      rw [hu]
      exact (World.outline_inactive_flags _ c).trans (by rw [hkoutline, hstart])
    have hshape : u.world.shape = n.world.shape := congrArg World.Outline.shape huoutline
    have hdev : u.world.bond.dev = n.world.bond.dev := congrArg World.Outline.dev huoutline
    have hslaves : ∀ t, (u.world.slaves t).dev = (n.world.slaves t).dev :=
      congrFun (congrArg Shape.dev hshape)
    have horder : u.world.bond_for_each_slave_from (u.world.slaves c).next =
        n.world.search_order := by
      have hnext : (u.world.slaves c).next = (n.world.slaves c).next :=
        congrFun (congrArg Links.next (congrArg Shape.links hshape)) c
      have hlinks : u.world.links = n.world.links := congrArg Shape.links hshape
      have hcnt : u.world.bond.slave_cnt = n.world.bond.slave_cnt :=
        congrArg Shape.slave_cnt hshape
      unfold World.search_order World.bond_for_each_slave_from
      rw [hstart, hnext, hlinks, hcnt]
    have hforeign : ∀ s ∈ n.world.search_order, (n.world.slaves s).dev ≠ n.world.bond.dev :=
      fun s hs => h.foreign s (h.order_perm.mem_iff.mp hs)
    have hdevices : u.world.outline.devices = n.world.outline.devices := by rw [huoutline]
    obtain ⟨hfirst, hlast⟩ := u.next_candidate_spec (r := n.world.search_order) fun s hs => by
      rw [hslaves, hdev]
      exact hforeign s hs
    have hfind : n.world.search_order.find? (fun t => IS_UP (u.world.slave_dev t)) =
        n.world.search_order.find? fun t => IS_UP (n.world.slave_dev t) :=
      List.find?_congr fun t ht => (World.device_of_outline hdev hshape hdevices
        (hforeign t ht)).1
    have harp : u.world.bond.current_arp_slave = some c := congrArg World.Outline.arp huoutline
    rw [hfind, huoutline, harp] at hlast
    rw [hfind] at hfirst
    rw [Option.elim_some, ← hu, horder]
    exact ⟨hfirst, hlast, fun s hs => u.next_candidate_link _ hs⟩

/-! A whole pass -/

/-- No slave whose link is not up has been heard. -/
def Unheard (n : ArpBond) (delta : BitVec 64) (l : List SlaveId) : Prop :=
  ∀ s ∈ l, (n.world.slaves s).link ≠ .up → n.heard delta s = false

def Answering (n : ArpBond) (delta : BitVec 64) (l : List SlaveId) : Prop :=
  ∀ s ∈ l, (n.world.slaves s).link ≠ .up → n.heard delta s = true → n.sent delta s = true

def PrimaryDown (n : ArpBond) : Prop :=
  ∀ p, n.world.bond.primary_slave = some p → (n.world.slaves p).link ≠ .up

omit [Siblings] in
instance : DecidablePred PrimaryDown := fun n =>
  match h : n.world.bond.primary_slave with
  | none => .isTrue fun p hp => by simp [h] at hp
  | some q => decidable_of_iff ((n.world.slaves q).link ≠ .up) (by simp [PrimaryDown, h])

def inspected (n : ArpBond) (delta : BitVec 64) : ArpBond :=
  let r := n.bond_ab_arp_inspect delta
  if r.1 then
    ((r.2.change fun w => (w.unlock .bond .read).lock .bond .read).bond_ab_arp_commit
      delta).change fun w => (w.unlock .bond .read).lock .bond .read
  else r.2

omit [Siblings] in
theorem waits_of_link {w : World} (h : w.primary_waits ≠ none) :
    ∃ p, w.bond.primary_slave = some p ∧ (w.slaves p).link = .up := by
  unfold World.primary_waits at h
  cases hp : w.bond.primary_slave with
  | none => simp [hp] at h
  | some p =>
    simp only [hp] at h
    split_ifs at h with hc
    · exact ⟨p, rfl, hc.2⟩
    · exact absurd rfl h

theorem inspected_cases (h : n.world.Searchable l) (hidle : n.world.bond.curr_active_slave = none)
    (hanswer : n.Answering delta l) :
    ((n.inspected delta).world.bond.curr_active_slave ≠ none ∧
      ¬ (n.Unheard delta l ∧ n.PrimaryDown)) ∨
    (n.inspected delta).world.outline = n.world.outline ∧ n.Unheard delta l := by
  obtain ⟨k, hk⟩ : ∃ k, k = l.foldl (inspect delta) n := ⟨_, rfl⟩
  obtain ⟨houtline, hlink, hmarks, -⟩ := inspect_loop delta l n
  rw [← hk] at houtline hlink hmarks
  have hinspect : n.bond_ab_arp_inspect delta =
      (k.world.miimon_changes || k.world.primary_waits.isSome,
        k.change fun w => (w.lock .curr_slave .read).unlock .curr_slave .read) := by
    unfold bond_ab_arp_inspect
    rw [h.ring.for_each, ← hk]
    rfl
  have hks := h.of_outline houtline
  have hkidle : k.world.bond.curr_active_slave = none :=
    (congrArg World.Outline.active houtline).trans hidle
  have hup : ∀ s ∈ l, k.world.marks s = some .up →
      (n.world.slaves s).link ≠ .up ∧ n.heard delta s = true := by
    intro s hs hmark
    rw [hmarks s hs] at hmark
    exact verdict_up hmark
  have hunheard : (∀ s ∈ l, k.world.marks s ≠ some .up) → n.Unheard delta l := by
    intro hnone s hs hdown
    by_contra hheard
    refine hnone s hs ?_
    rw [hmarks s hs]
    unfold verdict
    rw [if_pos hdown, if_pos (by simpa using hheard)]
  unfold inspected
  rw [hinspect]
  dsimp only
  split_ifs with hchanges
  · -- the state in which the commit starts differs by its locks only
    obtain ⟨x, hx⟩ : ∃ x, x = (k.change fun w =>
      (w.lock .curr_slave .read).unlock .curr_slave .read).change fun w =>
        (w.unlock .bond .read).lock .bond .read := ⟨_, rfl⟩
    have hxo : x.world.outline = k.world.outline := hx ▸ rfl
    have hxm : x.world.marks = k.world.marks := hx ▸ rfl
    have hxl : ∀ s, (x.world.slaves s).link = (k.world.slaves s).link := fun s => hx ▸ rfl
    have hxs := hks.of_outline hxo
    have hxidle : x.world.bond.curr_active_slave = none :=
      (congrArg World.Outline.active hxo).trans hkidle
    have hxsent : ∀ s ∈ l, x.world.marks s = some .up → x.sent delta s = true := by
      intro s hs hmark
      rw [hxm] at hmark
      rw [sent_of_outline (hxo.trans houtline) (h.foreign s hs)]
      exact hanswer s hs (hup s hs hmark).1 (hup s hs hmark).2
    obtain ⟨y, hy⟩ : ∃ y, y = l.foldl (commit delta) x := ⟨_, rfl⟩
    have hloop := commit_loop hxs hxidle (fun s hs => hs) hxsent
    have hcommit : x.bond_ab_arp_commit delta = y.commit_primary := by
      unfold bond_ab_arp_commit
      rw [hxs.ring.for_each, ← hy]
    dsimp only at hloop
    rw [← hy, hxm] at hloop
    rw [← hx, hcommit]
    rcases hloop with ⟨hsome, s, hs, hmark⟩ | ⟨hyo, hnone, hyl⟩
    · left
      have hlast : y.commit_primary.world.bond.curr_active_slave ≠ none := by
        have hcore : ∀ (r : List SlaveId) (z : ArpBond),
            (r.foldl (commit delta) z).world.core = z.world.core := by
          intro r
          induction r with
          | nil => exact fun _ => rfl
          | cons a rest ih => exact fun z => (ih _).trans (core_commit z a)
        have hycore : y.world.core = x.world.core := hy ▸ hcore l x
        have hyp : y.world.port = .k27 := (congrArg Core.port hycore).trans hxs.port
        have hym : y.world.bond.params.mode = .activebackup :=
          (congrArg Core.mode hycore).trans hxs.mode
        rcases commit_primary_cases hyp hym with ⟨hactive, -⟩ | ⟨-, hsame⟩
        · exact hactive
        · have hkept : y.commit_primary.world.bond.curr_active_slave =
              y.world.bond.curr_active_slave := congrArg World.Outline.active hsame
          rw [hkept]
          exact hsome
      refine ⟨hlast, fun hquiet => ?_⟩
      obtain ⟨hdown, hheard⟩ := hup s hs hmark
      rw [hquiet.1 s hs hdown] at hheard
      cases hheard
    · have hys := hxs.of_outline hyo
      rcases commit_primary_cases (n := y) hys.port hys.mode with ⟨hactive, hwaits⟩ | ⟨-, hsame⟩
      · left
        refine ⟨hactive, fun hquiet => ?_⟩
        obtain ⟨p, hp, hpup⟩ := waits_of_link hwaits
        have hprimary : y.world.bond.primary_slave = n.world.bond.primary_slave :=
          congrArg World.Outline.primary (hyo.trans (hxo.trans houtline))
        refine hyl p ?_ hpup
        rw [hxl, hlink]
        exact hquiet.2 p (hprimary ▸ hp)
      · right
        refine ⟨?_, hunheard hnone⟩
        exact hsame.trans (hyo.trans (hxo.trans houtline))
  · right
    refine ⟨houtline, hunheard fun s hs hmark => hchanges ?_⟩
    rw [Bool.or_eq_true]
    left
    unfold World.miimon_changes
    rw [hks.ring.for_each, List.any_eq_true]
    unfold World.marks at hmark
    exact ⟨s, hs, by rw [hmark]; rfl⟩

/-- The search has moved on by one slave. -/
structure Sought (n m : ArpBond) (probed : Option SlaveId) : Prop where
  found : probed = n.world.search_order.find? fun s => IS_UP (n.world.slave_dev s)
  outline : m.world.outline = { n.world.outline with
    arp := probed.or (n.world.bond.current_arp_slave.or n.world.bond.first_slave) }
  link : ∀ s, probed = some s → (m.world.slaves s).link = .back

/-- A pass over a bond without an active slave makes one active, or nobody was heard and the
search moves on. -/
theorem pass_cases (h : n.world.Searchable l) (hidle : n.world.bond.curr_active_slave = none)
    (hanswer : n.Answering delta l) :
    ((n.bond_activebackup_arp_mon delta).2.world.bond.curr_active_slave ≠ none ∧
      ¬ (n.Unheard delta l ∧ n.PrimaryDown)) ∨
    n.Unheard delta l ∧ Sought n (n.bond_activebackup_arp_mon delta).2
      (n.bond_activebackup_arp_mon delta).1 := by
  cases l with
  | nil =>
    right
    have hcnt : n.world.bond.slave_cnt = 0 := h.ring.count
    have hfirst : n.world.bond.first_slave = none := h.ring.head
    have harp : n.world.bond.current_arp_slave = none := by
      cases hc : n.world.bond.current_arp_slave with
      | none => rfl
      | some c => cases h.arp c hc
    have horder : n.world.search_order = [] := h.order_perm.eq_nil
    have hstop : n.bond_activebackup_arp_mon delta = (none, (n.change (·.lock .bond .read)).change
        (·.unlock .bond .read)) := by
      have hlocked : (n.change (·.lock .bond .read)).world.bond.kill_timers = true ∨
          (n.change (·.lock .bond .read)).world.bond.slave_cnt = 0 := Or.inr hcnt
      unfold bond_activebackup_arp_mon
      dsimp only
      rw [if_pos hlocked]
    rw [hstop]
    refine ⟨by simp [Unheard], ?_, ?_, fun s hs => by cases hs⟩
    · rw [horder]
      rfl
    · rw [harp, hfirst]
      exact congrArg (fun a => { n.world.outline with arp := a }) harp
  | cons a t =>
    -- with no active slave a pending announcement waits
    have hgrat : ∀ w : World, w.port = .k27 → w.bond.curr_active_slave = none →
        w.bond_send_gratuitous_arp = w := by
      intro w hp hw
      unfold World.bond_send_gratuitous_arp
      rw [hp]
      simp only [hw]
      rfl
    obtain ⟨L, hL⟩ : ∃ L, (if (n.change (·.lock .bond .read)).world.bond.send_grat_arp ≠ 0 then
        (n.change (·.lock .bond .read)).change fun w =>
          ((w.lock .curr_slave .read).bond_send_gratuitous_arp).unlock .curr_slave .read
        else n.change (·.lock .bond .read)) = n.change fun w => { w with locks := L } := by
      split_ifs
      · refine ⟨(((n.world.lock .bond .read).lock .curr_slave .read).unlock .curr_slave
          .read).locks, ?_⟩
        unfold change
        dsimp only
        rw [hgrat ((n.world.lock .bond .read).lock .curr_slave .read) h.port hidle]
        rfl
      · exact ⟨(n.world.lock .bond .read).locks, rfl⟩
    obtain ⟨x, hx⟩ : ∃ x, x = n.change fun w => { w with locks := L } := ⟨_, rfl⟩
    have hxo : x.world.outline = n.world.outline := hx ▸ rfl
    have hxs := h.of_outline hxo
    have hxidle : x.world.bond.curr_active_slave = none := by
      rw [hx]
      exact hidle
    have hxanswer : x.Answering delta (a :: t) := by
      rw [hx]
      exact hanswer
    have hunheard : x.Unheard delta (a :: t) → n.Unheard delta (a :: t) := by
      rw [hx]
      exact fun hu => hu
    have hquiet : n.Unheard delta (a :: t) ∧ n.PrimaryDown →
        x.Unheard delta (a :: t) ∧ x.PrimaryDown := by
      rw [hx]
      exact fun hu => hu
    obtain ⟨y, hy⟩ : ∃ y, y = x.inspected delta := ⟨_, rfl⟩
    have hgo : ¬ (n.world.bond.kill_timers = true ∨ n.world.bond.slave_cnt = 0) := by
      rw [h.runs, h.ring.count, List.length_cons]
      simp only [Bool.false_eq_true, false_or]
      omega
    have hpass : n.bond_activebackup_arp_mon delta = (y.bond_ab_arp_probe.1,
        y.bond_ab_arp_probe.2.change (·.unlock .bond .read)) := by
      have hlocked : ¬ ((n.change (·.lock .bond .read)).world.bond.kill_timers = true ∨
          (n.change (·.lock .bond .read)).world.bond.slave_cnt = 0) := hgo
      unfold bond_activebackup_arp_mon
      dsimp only
      rw [if_neg hlocked, hL, ← hx, hy]
      rfl
    rw [hpass]
    have hcases := inspected_cases hxs hxidle hxanswer
    rw [← hy] at hcases
    rcases hcases with ⟨hactive, hnot⟩ | ⟨hyo, hu⟩
    · left
      refine ⟨?_, fun hq => hnot (hquiet hq)⟩
      have hprobe : y.bond_ab_arp_probe.2.world.bond.curr_active_slave =
          y.world.bond.curr_active_slave := by
        have hsome : (y.change (·.lock .curr_slave .read)).world.bond.curr_active_slave.isSome :=
          Option.isSome_iff_ne_none.mpr hactive
        unfold bond_ab_arp_probe
        dsimp only
        rw [if_pos hsome]
        rfl
      have hkept : (y.bond_ab_arp_probe.2.change (·.unlock .bond .read)).world.bond.curr_active_slave
          = y.world.bond.curr_active_slave := hprobe
      rw [hkept]
      exact hactive
    · right
      have hyn := hyo.trans hxo
      have hys := h.of_outline hyn
      have hyidle : y.world.bond.curr_active_slave = none :=
        (congrArg World.Outline.active hyn).trans hidle
      obtain ⟨hfirst, hlast, hlink⟩ := probe_idle hys hyidle
      have hforeign : ∀ s ∈ n.world.search_order, (n.world.slaves s).dev ≠ n.world.bond.dev :=
        fun s hs => h.foreign s (h.order_perm.mem_iff.mp hs)
      have hfind : y.world.search_order.find? (fun s => IS_UP (y.world.slave_dev s)) =
          n.world.search_order.find? fun s => IS_UP (n.world.slave_dev s) := by
        rw [World.search_order_of_outline hyn]
        exact List.find?_congr fun s hs => (World.device_of_outline
          (congrArg World.Outline.dev hyn) (congrArg World.Outline.shape hyn)
          (congrArg World.Outline.devices hyn) (hforeign s hs)).1
      have harp : y.world.bond.current_arp_slave = n.world.bond.current_arp_slave :=
        congrArg World.Outline.arp hyn
      have hhead : y.world.bond.first_slave = n.world.bond.first_slave :=
        congrArg (fun o => o.shape.first_slave) hyn
      refine ⟨hunheard hu, hfirst.trans hfind, ?_, hlink⟩
      rw [hfirst]
      rw [hyn, harp, hhead] at hlast
      exact hlast

/-! Runs -/

/-- What happens between the passes: time goes by, cards send and receive, ARP replies come in. -/
inductive ArpEvent where
  | mon
  | tick (jiffies : BitVec 64)
  | traffic (d : DevId) (trans_start last_rx : BitVec 64)
  | arp_rcv (s : SlaveId) (last_arp_rx : BitVec 64)

def ArpEvent.is_mon : ArpEvent → Bool
  | .mon => true
  | _ => false

def passes (es : List ArpEvent) : Nat := es.countP (·.is_mon)

/-- One event, and the slave that probes are sent from. -/
def step (delta : BitVec 64) (n : ArpBond) : ArpEvent → Option SlaveId × ArpBond
  | .mon => n.bond_activebackup_arp_mon delta
  | .tick jiffies => (none, n.change fun w => { w with jiffies })
  | .traffic d trans_start last_rx =>
    (none, n.change (·.setDev d fun dev => { dev with trans_start, last_rx }))
  | .arp_rcv s rx => (none, { n with last_arp_rx := fun t => if t = s then rx else n.last_arp_rx t })

/-- The slaves that probes are sent from, and the last state. -/
def run (delta : BitVec 64) : ArpBond → List ArpEvent → List SlaveId × ArpBond
  | n, [] => ([], n)
  | n, e :: es =>
    let r := n.step delta e
    let rest := run delta r.2 es
    (r.1.toList ++ rest.1, rest.2)

structure Onward (n m : ArpBond) (l : List SlaveId) : Prop where
  searchable : m.world.Searchable l
  idle : m.world.bond.curr_active_slave = none
  up : ∀ s ∈ l, IS_UP (m.world.slave_dev s) = IS_UP (n.world.slave_dev s)

theorem step_aside (delta : BitVec 64) (h : n.world.Searchable l)
    (hidle : n.world.bond.curr_active_slave = none)
    {e : ArpEvent} (he : e.is_mon = false) :
    (n.step delta e).1 = none ∧ Onward n (n.step delta e).2 l ∧
      (n.step delta e).2.world.search_order = n.world.search_order ∧
      (n.step delta e).2.world.bond.current_arp_slave = n.world.bond.current_arp_slave ∧
      ∀ s, ((n.step delta e).2.world.slaves s).link = (n.world.slaves s).link := by
  have hsearchable : ∀ f : World → World, (f n.world).shape = n.world.shape →
      (f n.world).bond = n.world.bond → (f n.world).port = n.world.port →
      (f n.world).Searchable l := by
    intro f hshape hbond hport
    have hslaves : ∀ t, ((f n.world).slaves t).dev = (n.world.slaves t).dev :=
      congrFun (congrArg Shape.dev hshape)
    refine ⟨h.ring.of_shape hshape, fun s hs => ?_, ?_, hport.trans h.port, ?_, fun c hc => ?_⟩
    · rw [hslaves, hbond]
      exact h.foreign s hs
    · rw [hbond]
      exact h.mode
    · rw [hbond]
      exact h.runs
    · rw [hbond] at hc
      exact h.arp c hc
  cases e with
  | mon => cases he
  | tick jiffies =>
    exact ⟨rfl, ⟨hsearchable (fun w => { w with jiffies }) rfl rfl rfl, hidle, fun _ _ => rfl⟩,
      rfl, rfl, fun _ => rfl⟩
  | arp_rcv s rx =>
    exact ⟨rfl, ⟨hsearchable (fun w => w) rfl rfl rfl, hidle, fun _ _ => rfl⟩, rfl, rfl,
      fun _ => rfl⟩
  | traffic d trans_start last_rx =>
    refine ⟨rfl, ⟨hsearchable (·.setDev d fun dev => { dev with trans_start, last_rx }) rfl rfl rfl,
      hidle, fun s _ => ?_⟩, rfl, rfl, fun _ => rfl⟩
    by_cases hd : (n.world.slaves s).dev = d
    · simp [step, change, World.slave_dev, World.setDev, IS_UP, hd]
    · simp [step, change, World.slave_dev, World.setDev, hd]

omit [Siblings] in
theorem Sought.onward {probed : Option SlaveId} (h : n.world.Searchable l)
    (hidle : n.world.bond.curr_active_slave = none) (hs : Sought n m probed) :
    Onward n m l ∧ m.world.search_order =
      CyclicSearch.advance (fun s => IS_UP (n.world.slave_dev s)) n.world.search_order := by
  have hshape : m.world.shape = n.world.shape := congrArg World.Outline.shape hs.outline
  have hdev : m.world.bond.dev = n.world.bond.dev := congrArg World.Outline.dev hs.outline
  have hdevices : m.world.outline.devices = n.world.outline.devices := by rw [hs.outline]
  have harp : m.world.bond.current_arp_slave =
      probed.or (n.world.bond.current_arp_slave.or n.world.bond.first_slave) :=
    congrArg World.Outline.arp hs.outline
  have hslaves : ∀ t, (m.world.slaves t).dev = (n.world.slaves t).dev :=
    congrFun (congrArg Shape.dev hshape)
  have hmem : ∀ c, m.world.bond.current_arp_slave = some c → c ∈ l := by
    intro c hc
    rw [harp] at hc
    cases hp : probed with
    | some s =>
      rw [hp] at hc
      obtain rfl := Option.some.inj hc
      exact h.order_perm.mem_iff.mp (List.mem_of_find?_eq_some (hs.found.symm.trans hp))
    | none =>
      rw [hp, Option.none_or] at hc
      cases ha : n.world.bond.current_arp_slave with
      | some a =>
        rw [ha] at hc
        obtain rfl := Option.some.inj hc
        exact h.arp _ ha
      | none =>
        rw [ha, Option.none_or, h.ring.head] at hc
        exact List.mem_of_mem_head? hc
  refine ⟨⟨⟨h.ring.of_shape hshape, fun s hsl => ?_, ?_, ?_, ?_, hmem⟩, ?_, fun s hsl => ?_⟩, ?_⟩
  · rw [hslaves, hdev]
    exact h.foreign s hsl
  · exact (congrArg World.Outline.mode hs.outline).trans h.mode
  · exact (congrArg World.Outline.port hs.outline).trans h.port
  · exact (congrArg World.Outline.kill_timers hs.outline).trans h.runs
  · exact (congrArg World.Outline.active hs.outline).trans hidle
  · exact (World.device_of_outline hdev hshape hdevices (h.foreign s hsl)).1
  · cases hp : probed with
    | some s =>
      rw [hp] at harp
      exact h.order_after (hs.found.symm.trans hp) hshape harp
    | none =>
      -- nobody is up, and the next search starts where this one did
      have hfind := hs.found.symm.trans hp
      have hempty : n.world.search_order.filter (fun s => IS_UP (n.world.slave_dev s)) = [] := by
        rw [List.filter_eq_nil_iff]
        exact List.find?_eq_none.mp hfind
      have hfirst : m.world.bond.first_slave = n.world.bond.first_slave :=
        congrArg Shape.first_slave hshape
      have hcnt : m.world.bond.slave_cnt = n.world.bond.slave_cnt :=
        congrArg Shape.slave_cnt hshape
      have hlinks : m.world.links = n.world.links := congrArg Shape.links hshape
      have hnext : ∀ c, (m.world.slaves c).next = (n.world.slaves c).next :=
        congrFun (congrArg Links.next hlinks)
      rw [hp, Option.none_or] at harp
      rw [(CyclicSearch.advance_none _ hempty).2]
      unfold World.search_order World.bond_for_each_slave_from
      rw [harp, hfirst, hcnt, hlinks, Option.or_assoc, Option.or_self]
      simp only [hnext]

/-- Nobody whose link is not up is heard at a pass. -/
def Silent (delta : BitVec 64) (l : List SlaveId) (n : ArpBond) (e : ArpEvent) : Prop :=
  e.is_mon = true → n.Unheard delta l ∧ n.PrimaryDown

instance (n : ArpBond) (e : ArpEvent) : Decidable (Silent delta l n e) :=
  inferInstanceAs (Decidable (e.is_mon = true →
    (∀ s ∈ l, (n.world.slaves s).link ≠ .up → n.heard delta s = false) ∧ n.PrimaryDown))

theorem step_silent (h : n.world.Searchable l) (hidle : n.world.bond.curr_active_slave = none)
    {e : ArpEvent} (he : e.is_mon = true) (hs : Silent delta l n e) :
    Sought n (n.step delta e).2 (n.step delta e).1 := by
  cases e with
  | mon =>
    have hanswer : n.Answering delta l := by
      intro s hsl hdown hheard
      rw [(hs rfl).1 s hsl hdown] at hheard
      cases hheard
    rcases pass_cases h hidle hanswer with ⟨-, hnot⟩ | ⟨-, hsought⟩
    · exact absurd (hs rfl) hnot
    · exact hsought
  | tick jiffies => cases he
  | traffic d t r => cases he
  | arp_rcv s r => cases he

theorem run_found {p : SlaveId → Bool} (h : n.world.Searchable l)
    (hidle : n.world.bond.curr_active_slave = none)
    (hp : ∀ s ∈ l, IS_UP (n.world.slave_dev s) = p s) {es : List ArpEvent}
    (hs : Transition.Along (Silent delta l) (fun n e => some (n.step delta e).2) n es) :
    (run delta n es).1 = CyclicSearch.found p (passes es) n.world.search_order := by
  induction es generalizing n with
  | nil => rfl
  | cons e rest ih =>
    obtain ⟨hfirst, hafter⟩ := hs
    have hrest := hafter _ rfl
    have horder : ∀ s ∈ n.world.search_order, IS_UP (n.world.slave_dev s) = p s :=
      fun s hs => hp s (h.order_perm.mem_iff.mp hs)
    cases he : e.is_mon with
    | false =>
      obtain ⟨hnone, hon, hsame, -, -⟩ := step_aside delta h hidle he
      have htail := ih hon.searchable hon.idle (fun s hs => (hon.up s hs).trans (hp s hs)) hrest
      have hcount : passes (e :: rest) = passes rest := by simp [passes, he]
      unfold run
      dsimp only
      rw [hnone, htail, hsame, hcount]
      rfl
    | true =>
      have hsought := step_silent h hidle he hfirst
      obtain ⟨hon, hnext⟩ := hsought.onward h hidle
      have htail := ih hon.searchable hon.idle (fun s hs => (hon.up s hs).trans (hp s hs)) hrest
      have hcount : passes (e :: rest) = passes rest + 1 := by simp [passes, he]
      unfold run
      dsimp only
      rw [htail, hnext, hcount, hsought.found, CyclicSearch.advance_congr _ horder,
        List.find?_congr horder]
      rfl

def arp_params : Params :=
  { hoolock_params with mode := .activebackup, miimon := 0, arp_interval := 100 }

/-- Both cards have joined an active-backup bond, and have been silent for so long that neither
is up. -/
def silent_bond : Option ArpBond :=
  (Transition.run (@World.step noSiblings) (machine.bond_init 0 arp_params) two_slaves).map
    fun u => (@run noSiblings 10 ⟨u, fun _ => 0, fun _ => 0⟩ [.tick 100, .mon]).2

omit [Siblings] in
theorem silent_bond_searches : ∃ n, silent_bond = some n ∧ n.world.Searchable [0, 1] ∧
    n.world.bond.curr_active_slave = none ∧
    ∀ s ∈ [0, 1], IS_UP (n.world.slave_dev s) = true := by
  have hrun : silent_bond.any (fun n =>
      ((n.world.slaves 0).next == some 1 && (n.world.slaves 1).next == some 0 &&
        (n.world.slaves 0).prev == some 1 && (n.world.slaves 1).prev == some 0 &&
        n.world.bond.first_slave == some 0 && n.world.bond.slave_cnt == 2) &&
      ((n.world.slaves 0).dev == 1 && (n.world.slaves 1).dev == 2 && n.world.bond.dev == 0 &&
        n.world.bond.params.mode == .activebackup && n.world.port == .k27 &&
        n.world.bond.kill_timers == false && n.world.bond.current_arp_slave == some 1) &&
      (n.world.bond.curr_active_slave == none && IS_UP (n.world.slave_dev 0) &&
        IS_UP (n.world.slave_dev 1))) = true := by
    decide +kernel
  obtain ⟨n, hn, hcond⟩ := (Option.any_eq_true _ _).mp hrun
  simp only [Bool.and_eq_true, beq_iff_eq] at hcond
  obtain ⟨⟨⟨⟨⟨⟨⟨hn0, hn1⟩, hp0⟩, hp1⟩, hfirst⟩, hcount⟩,
    ⟨⟨⟨⟨⟨hd0, hd1⟩, hdev⟩, hmode⟩, hport⟩, hruns⟩, harp⟩, ⟨hidle, hu0⟩, hu1⟩ := hcond
  refine ⟨n, hn, ⟨ring_of_two ⟨hn0, hn1⟩ ⟨hp0, hp1⟩ hfirst hcount, ?_, hmode, hport, hruns, ?_⟩,
    hidle, by simp [hu0, hu1]⟩
  · simp [hd0, hd1, hdev]
  · simp [harp]

/-- While nobody is heard, every slave that is up gets its turn: as many passes as there are such
slaves probe from each of them once. -/
theorem search_fair (h : n.world.Searchable l) (hidle : n.world.bond.curr_active_slave = none)
    {es : List ArpEvent}
    (hs : Transition.Along (Silent delta l) (fun n e => some (n.step delta e).2) n es)
    (hcount : passes es = (l.filter fun s => IS_UP (n.world.slave_dev s)).length) :
    (run delta n es).1.Perm (l.filter fun s => IS_UP (n.world.slave_dev s)) := by
  have hperm := h.order_perm.filter fun s => IS_UP (n.world.slave_dev s)
  have hfound := run_found h hidle (p := fun s => IS_UP (n.world.slave_dev s)) (fun _ _ => rfl) hs
  rw [hcount, ← hperm.length_eq, CyclicSearch.found_all] at hfound
  rw [hfound]
  exact hperm

omit [Siblings] in
/-- On the bond whose cards both went silent the two passes after that probe from one each. -/
theorem both_cards_probed : ∃ n, silent_bond = some n ∧
    (@run noSiblings 10 n [.tick 110, .mon, .tick 120, .mon]).1.Perm [0, 1] := by
  obtain ⟨n, hn, hsearch, hidle, hup⟩ := silent_bond_searches
  have hnone : silent_bond.all (fun n => Transition.checks
      (fun n e => decide (Silent 10 [0, 1] n e)) (fun n e => some (@step noSiblings 10 n e).2) n
      [.tick 110, .mon, .tick 120, .mon]) = true := by
    decide +kernel
  rw [hn] at hnone
  have hsilent := Transition.along_of_checks (C := Silent 10 [0, 1]) (fun _ _ => of_decide_eq_true) hnone
  have hall : ([0, 1].filter fun s => IS_UP (n.world.slave_dev s)) = [0, 1] := by simp [hup]
  refine ⟨n, hn, ?_⟩
  rw [← hall]
  exact @search_fair n [0, 1] 10 noSiblings hsearch hidle _ hsilent (by rw [hall]; rfl)

/-- Whoever is heard at a pass has sent too, and `s` is heard when it is the candidate. -/
def Answers (delta : BitVec 64) (l : List SlaveId) (s : SlaveId) (n : ArpBond) (e : ArpEvent) :
    Prop :=
  e.is_mon = true → n.Answering delta l ∧
    (n.world.bond.current_arp_slave = some s → n.heard delta s = true)

instance (s : SlaveId) (n : ArpBond) (e : ArpEvent) : Decidable (Answers delta l s n e) :=
  inferInstanceAs (Decidable (e.is_mon = true →
    (∀ t ∈ l, (n.world.slaves t).link ≠ .up → n.heard delta t = true → n.sent delta t = true) ∧
      (n.world.bond.current_arp_slave = some s → n.heard delta s = true)))

theorem candidate_wins {s : SlaveId} (h : n.world.Searchable l) (hsl : s ∈ l)
    (hidle : n.world.bond.curr_active_slave = none)
    (harp : n.world.bond.current_arp_slave = some s) (hlink : (n.world.slaves s).link ≠ .up)
    {es : List ArpEvent}
    (hs : Transition.Along (Answers delta l s) (fun n e => some (n.step delta e).2) n es)
    (hcount : 1 ≤ passes es) :
    ∃ es₁ es₂, es = es₁ ++ es₂ ∧ (run delta n es₁).2.world.bond.curr_active_slave ≠ none := by
  induction es generalizing n with
  | nil => simp [passes] at hcount
  | cons e rest ih =>
    obtain ⟨hfirst, hafter⟩ := hs
    cases he : e.is_mon with
    | false =>
      obtain ⟨-, hon, -, hsame, hlinks⟩ := step_aside delta h hidle he
      have hmore : 1 ≤ passes rest := by simpa [passes, he] using hcount
      obtain ⟨es₁, es₂, rfl, hactive⟩ := ih hon.searchable hon.idle (hsame.trans harp)
        (by rw [hlinks]; exact hlink) (hafter _ rfl) hmore
      exact ⟨e :: es₁, es₂, rfl, hactive⟩
    | true =>
      obtain ⟨hanswer, hheard⟩ := hfirst he
      refine ⟨[e], rest, rfl, ?_⟩
      cases e with
      | mon =>
        rcases pass_cases h hidle hanswer with ⟨hactive, -⟩ | ⟨hu, -⟩
        · exact hactive
        · have hnot := hu s hsl hlink
          rw [hheard harp] at hnot
          cases hnot
      | tick jiffies => cases he
      | traffic d t r => cases he
      | arp_rcv t r => cases he

/-- The search comes to a slave that answers, at most as many passes later as there are slaves in
front of it, and ends with the pass after that. -/
theorem search_ends {s : SlaveId} {before after : List SlaveId} (h : n.world.Searchable l)
    (hidle : n.world.bond.curr_active_slave = none)
    (hsplit : (n.world.search_order.filter fun t => IS_UP (n.world.slave_dev t)) =
      before ++ s :: after) {es : List ArpEvent}
    (hs : Transition.Along (Answers delta l s) (fun n e => some (n.step delta e).2) n es)
    (hcount : before.length + 2 ≤ passes es) :
    ∃ es₁ es₂, es = es₁ ++ es₂ ∧ (run delta n es₁).2.world.bond.curr_active_slave ≠ none := by
  induction es generalizing n before after with
  | nil => simp [passes] at hcount
  | cons e rest ih =>
    obtain ⟨hfirst, hafter⟩ := hs
    have hrest := hafter _ rfl
    have horder : ∀ t ∈ n.world.search_order, t ∈ l := fun t ht => h.order_perm.mem_iff.mp ht
    cases he : e.is_mon with
    | false =>
      obtain ⟨-, hon, hsame, -, -⟩ := step_aside delta h hidle he
      have hfilter : ((n.step delta e).2.world.search_order.filter fun t =>
          IS_UP ((n.step delta e).2.world.slave_dev t)) = before ++ s :: after := by
        rw [hsame, ← hsplit]
        exact List.filter_congr fun t ht => hon.up t (horder t ht)
      have hmore : before.length + 2 ≤ passes rest := by simpa [passes, he] using hcount
      obtain ⟨es₁, es₂, rfl, hactive⟩ := ih hon.searchable hon.idle hfilter hrest hmore
      exact ⟨e :: es₁, es₂, rfl, hactive⟩
    | true =>
      cases e with
      | tick jiffies => cases he
      | traffic d t r => cases he
      | arp_rcv t r => cases he
      | mon =>
        rcases pass_cases h hidle (hfirst rfl).1 with ⟨hactive, -⟩ | ⟨-, hsought⟩
        · exact ⟨[.mon], rest, rfl, hactive⟩
        · obtain ⟨hon, hnext⟩ := hsought.onward h hidle
          have hcount : before.length + 1 ≤ passes rest := by
            simp only [passes, List.countP_cons, ArpEvent.is_mon, if_true] at hcount ⊢
            omega
          cases before with
          | nil =>
            -- the slave that answers is probed from now on
            obtain ⟨hfind, -⟩ := CyclicSearch.filter_advance _ hsplit
            have hprobed := hsought.found.trans hfind
            have harp := congrArg World.Outline.arp hsought.outline
            rw [hprobed] at harp
            have hmem : s ∈ l := horder s (List.mem_of_find?_eq_some hfind)
            have hback := hsought.link s hprobed
            obtain ⟨es₁, es₂, rfl, hactive⟩ := candidate_wins hon.searchable hmem hon.idle harp
              (by rw [hback]; simp) hrest (by simpa using hcount)
            exact ⟨.mon :: es₁, es₂, rfl, hactive⟩
          | cons x before =>
            obtain ⟨-, hrotated⟩ := CyclicSearch.filter_advance _ hsplit
            have hfilter : ((n.step delta .mon).2.world.search_order.filter fun t =>
                IS_UP ((n.step delta .mon).2.world.slave_dev t)) =
                before ++ s :: (after ++ [x]) := by
              have hup : ∀ t ∈ (n.step delta .mon).2.world.search_order,
                  IS_UP ((n.step delta .mon).2.world.slave_dev t) =
                    IS_UP (n.world.slave_dev t) :=
                fun t ht => hon.up t (hon.searchable.order_perm.mem_iff.mp ht)
              have horder : (n.step delta .mon).2.world.search_order =
                  CyclicSearch.advance (fun t => IS_UP (n.world.slave_dev t))
                    n.world.search_order := hnext
              rw [List.filter_congr hup, horder, hrotated]
              simp
            obtain ⟨es₁, es₂, rfl, hactive⟩ := ih hon.searchable hon.idle hfilter hrest (by
              simp only [List.length_cons] at hcount
              omega)
            exact ⟨.mon :: es₁, es₂, rfl, hactive⟩

/-- A slave that is up and answers ends the search: the bond has an active slave again after one
pass more than there are slaves that are up, if not before. -/
theorem answering_slave_found {s : SlaveId} (h : n.world.Searchable l)
    (hidle : n.world.bond.curr_active_slave = none) (hsl : s ∈ l)
    (hup : IS_UP (n.world.slave_dev s) = true) {es : List ArpEvent}
    (hs : Transition.Along (Answers delta l s) (fun n e => some (n.step delta e).2) n es)
    (hcount : passes es = (l.filter fun s => IS_UP (n.world.slave_dev s)).length + 1) :
    ∃ es₁ es₂, es = es₁ ++ es₂ ∧ (run delta n es₁).2.world.bond.curr_active_slave ≠ none := by
  have hperm := h.order_perm.filter fun s => IS_UP (n.world.slave_dev s)
  have hmem : s ∈ n.world.search_order.filter fun t => IS_UP (n.world.slave_dev t) :=
    List.mem_filter.mpr ⟨h.order_perm.mem_iff.mpr hsl, hup⟩
  obtain ⟨before, after, hsplit⟩ := List.append_of_mem hmem
  refine search_ends h hidle hsplit hs ?_
  rw [hcount, ← hperm.length_eq, hsplit, List.length_append, List.length_cons]
  omega

omit [Siblings] in
theorem first_card_found : ∃ n, silent_bond = some n ∧ ∃ es₁ es₂,
    [.mon, .tick 110, .traffic 1 105 108, .mon, .mon] = es₁ ++ es₂ ∧
      (@run noSiblings 10 n es₁).2.world.bond.curr_active_slave ≠ none := by
  obtain ⟨n, hn, hsearch, hidle, hup⟩ := silent_bond_searches
  have hchecks : silent_bond.all (fun n => Transition.checks
      (fun n e => decide (Answers 10 [0, 1] 0 n e)) (fun n e => some (@step noSiblings 10 n e).2) n
      [.mon, .tick 110, .traffic 1 105 108, .mon, .mon]) = true := by
    decide +kernel
  rw [hn] at hchecks
  have hanswers := Transition.along_of_checks (C := Answers 10 [0, 1] 0)
    (fun _ _ => of_decide_eq_true) hchecks
  have hall : ([0, 1].filter fun s => IS_UP (n.world.slave_dev s)) = [0, 1] := by simp [hup]
  exact ⟨n, hn, @answering_slave_found n [0, 1] 10 noSiblings 0 hsearch hidle (by decide)
    (hup 0 (by decide)) _ hanswers (by rw [hall]; rfl)⟩

end ArpBond

end Hoolock
