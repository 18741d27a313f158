import Hoolock.OwnTraffic
import Hoolock.RoundRobin
import Hoolock.Transmit

/-!
The transmit functions of the other modes of `bond_main.c`: round robin, active backup, xor
with its three hash policies, and broadcast.
-/

set_option autoImplicit false

namespace Hoolock

open CircularList

def IPPROTO_TCP : UInt8 := 6
def IPPROTO_UDP : UInt8 := 17

def Be32.xor (a b : Be32) : Be32 := ⟨a.b0 ^^^ b.b0, a.b1 ^^^ b.b1, a.b2 ^^^ b.b2, a.b3 ^^^ b.b3⟩

theorem Be32.xor_comm (a b : Be32) : a.xor b = b.xor a := by
  simp [Be32.xor, UInt8.xor_comm]

namespace Skb

def network_byte (skb : Skb) (i : Nat) : UInt8 := skb.network_header.getD i 0

def daddr (skb : Skb) : Be32 :=
  ⟨skb.network_byte 16, skb.network_byte 17, skb.network_byte 18, skb.network_byte 19⟩

def ihl (skb : Skb) : Nat := (skb.network_byte 0).toNat % 16

def ip_protocol (skb : Skb) : UInt8 := skb.network_byte 9

/-- `iph->frag_off & htons(IP_MF|IP_OFFSET)` is not zero. -/
def is_fragment (skb : Skb) : Bool :=
  skb.network_byte 6 &&& 0x3f != 0 || skb.network_byte 7 != 0

def source (skb : Skb) : UInt8 × UInt8 :=
  (skb.network_byte (4 * skb.ihl), skb.network_byte (4 * skb.ihl + 1))

def dest (skb : Skb) : UInt8 × UInt8 :=
  (skb.network_byte (4 * skb.ihl + 2), skb.network_byte (4 * skb.ihl + 3))

end Skb

def byte (b : UInt8) : BitVec 32 := b.toBitVec.setWidth 32

inductive XmitPolicy where
  | layer2 | layer34 | layer23
  deriving DecidableEq, Repr

namespace Transmit

open World

/-! Hashing policies -/

def layer2 (h_dest dev_addr : HwAddr) : BitVec 32 :=
  byte (h_dest.getD 5 0) ^^^ byte (dev_addr.getD 5 0)

def layer3 (skb : Skb) : BitVec 32 := ntohl (skb.saddr.xor skb.daddr) &&& 0xffff

def layer4_xor (skb : Skb) : BitVec 32 :=
  if !skb.is_fragment && (skb.ip_protocol == IPPROTO_TCP || skb.ip_protocol == IPPROTO_UDP) then
    byte (skb.source.1 ^^^ skb.dest.1) <<< 8 ||| byte (skb.source.2 ^^^ skb.dest.2)
  else 0

def bond_xmit_hash_policy_l2 (h_dest dev_addr : HwAddr) (count : Nat) : Nat :=
  (layer2 h_dest dev_addr).toNat % count

def bond_xmit_hash_policy_l23 (skb : Skb) (h_dest dev_addr : HwAddr) (count : Nat) : Nat :=
  if skb.protocol = ETH_P_IP then
    (layer3 skb ^^^ layer2 h_dest dev_addr).toNat % count
  else (layer2 h_dest dev_addr).toNat % count

def bond_xmit_hash_policy_l34 (skb : Skb) (h_dest dev_addr : HwAddr) (count : Nat) : Nat :=
  if skb.protocol = ETH_P_IP then (layer4_xor skb ^^^ layer3 skb).toNat % count
  else (layer2 h_dest dev_addr).toNat % count

/-- The function that `bond_set_xmit_hash_policy` chooses, on a frame with the destination
address `h_dest`. -/
def xmit_hash_policy (policy : XmitPolicy) (skb : Skb) (h_dest dev_addr : HwAddr)
    (count : Nat) : Nat :=
  match policy with
  | .layer23 => bond_xmit_hash_policy_l23 skb h_dest dev_addr count
  | .layer34 => bond_xmit_hash_policy_l34 skb h_dest dev_addr count
  | .layer2 => bond_xmit_hash_policy_l2 h_dest dev_addr count

/-! Transmit functions -/

/-- The two loops that round robin and xor share: step on to the slave with the number, and
from there to the first one that can send.  `none` when a null pointer is followed. -/
def xmit_numbered (w : World) (env : Tagging) (skb : Skb) (slave_no : Int) :
    Option (Int × List Disposal) :=
  match countdown w.links.next w.bond.slave_cnt.toNat w.bond.first_slave slave_no with
  | none => none
  | some start_at =>
    match (w.bond_for_each_slave_from (some start_at)).find? fun s => decide (w.transmits s) with
    | some slave => some (bond_dev_queue_xmit w env skb (w.slaves slave).dev)
    | none => some (1, [])

/-- The counter is kept beside the world. -/
def bond_xmit_roundrobin (w : World) (env : Tagging) (rr_tx_counter : BitVec 16) (skb : Skb) :
    Option ((Int × List Disposal × World) × BitVec 16) :=
  let w := w.lock .bond .read
  if !w.BOND_IS_OK then some (out w skb 1 [], rr_tx_counter)
  else
    match xmit_numbered w env skb (rr_tx_counter.toNat % w.bond.slave_cnt) with
    | none => none
    | some (res, log) => some (out w skb res log, rr_tx_counter + 1)

def bond_xmit_xor (w : World) (env : Tagging) (policy : XmitPolicy) (h_dest : HwAddr)
    (skb : Skb) : Option (Int × List Disposal × World) :=
  let w := w.lock .bond .read
  if !w.BOND_IS_OK then some (out w skb 1 [])
  else
    let slave_no :=
      xmit_hash_policy policy skb h_dest w.bond_dev.dev_addr w.bond.slave_cnt.toNat
    match xmit_numbered w env skb slave_no with
    | none => none
    | some (res, log) => some (out w skb res log)

/-- The active slave's link is not looked at. -/
def bond_xmit_activebackup (w : World) (env : Tagging) (skb : Skb) :
    Int × List Disposal × World :=
  let w := (w.lock .bond .read).lock .curr_slave .read
  let out (res : Int) (log : List Disposal) :=
    out (w.unlock .curr_slave .read) skb res log
  if !w.BOND_IS_OK then out 1 []
  else
    match w.bond.curr_active_slave with
    | none => out 1 []
    | some active_slave =>
      let (res, log) := bond_dev_queue_xmit w env skb (w.slaves active_slave).dev
      out res log

/-- `skb_clone` at the turn of a slave.  A clone is a buffer of its own. -/
structure Cloning where
  skb_clone : SlaveId → Skb → Option Skb
  fresh : ∀ s skb skb2, skb_clone s skb = some skb2 → skb2.id ≠ skb.id
  apart : ∀ s t skb skb2 skb3, skb_clone s skb = some skb2 → skb_clone t skb = some skb3 →
    skb2.id = skb3.id → s = t

/-- One slave's turn: a clone for the slave before it, and then it is the next to get one.
`made` are the clones so far. -/
def broadcast_turn (w : World) (env : Tagging) (clones : Cloning) (skb : Skb) :
    Int × Option DevId × List Skb × List Disposal → SlaveId →
      Int × Option DevId × List Skb × List Disposal
  | (res, tx_dev, made, log), slave =>
    if w.transmits slave then
      match tx_dev with
      | none => (res, some (w.slaves slave).dev, made, log)
      | some dev =>
        match clones.skb_clone slave skb with
        -- an error is printed
        | none => (res, tx_dev, made, log)
        | some skb2 =>
          let made := made ++ [skb2]
          let (res, sent) := bond_dev_queue_xmit w env skb2 dev
          if res ≠ 0 then (res, tx_dev, made, log ++ sent ++ [.dev_kfree_skb skb2])
          else (res, some (w.slaves slave).dev, made, log ++ sent)
    else (res, tx_dev, made, log)

/-- Behind the loop the frame itself goes to the slave reached last. -/
def broadcast_last (w : World) (env : Tagging) (skb : Skb) :
    Int × Option DevId × List Skb × List Disposal → Int × List Skb × List Disposal
  | (res, none, made, log) => (res, made, log)
  | (_, some dev, made, log) =>
    let (res, sent) := bond_dev_queue_xmit w env skb dev
    (res, made, log ++ sent)

def bond_xmit_broadcast (w : World) (env : Tagging) (clones : Cloning) (skb : Skb) :
    (Int × List Disposal × World) × List Skb :=
  let w := w.lock .bond .read
  if !w.BOND_IS_OK then (out w skb 1 [], [])
  else
    let w := w.lock .curr_slave .read
    let start_at := w.bond.curr_active_slave
    let w := w.unlock .curr_slave .read
    match start_at with
    | none => (out w skb 1 [], [])
    | some start_at =>
      let (res, made, log) := broadcast_last w env skb
        ((w.bond_for_each_slave_from (some start_at)).foldl
          (broadcast_turn w env clones skb) (1, none, [], []))
      (out w skb res log, made)

/-! One frame -/

structure Handed (w : World) (env : Tagging) (skb : Skb) (target : Option SlaveId)
    (d : Disposal) : Prop where
  own : d.skb.id = skb.id
  dev : ∀ s, target = some s → d.skb.dev = (w.slaves s).dev
  queues : d.queues = true ↔ ∃ s, target = some s ∧ ¬ tag_fails w env skb (w.slaves s).dev

theorem handed_none (w : World) (env : Tagging) (skb : Skb) :
    Handed w env skb none (.dev_kfree_skb skb) where
  own := rfl
  dev _ hs := by cases hs
  queues := by simp [Disposal.queues]

theorem handed_some (w : World) (env : Tagging) (skb : Skb) (s : SlaveId) :
    ∃ d, bond_dev_queue_xmit w env skb (w.slaves s).dev = (0, [d]) ∧
      Handed w env skb (some s) d := by
  obtain ⟨d, hd, hid, hdev, hq⟩ := dev_queue_xmit_once w env skb (w.slaves s).dev
  refine ⟨d, hd, hid, ?_, ?_⟩
  · rintro t ⟨⟩
    exact hdev
  · simp [hq]

def first_sender (w : World) (l : List SlaveId) : Option SlaveId :=
  l.find? fun s => decide (w.transmits s)

theorem first_sender_mem {w : World} {l : List SlaveId} {s : SlaveId}
    (h : first_sender w l = some s) : s ∈ l ∧ w.transmits s :=
  ⟨List.mem_of_find?_eq_some h, by simpa using List.find?_some h⟩

theorem for_each_rotate {w : World} {l : List SlaveId} (h : w.Ring l) {k : Nat}
    (hk : k < l.length) : w.bond_for_each_slave_from l[k]? = l.rotate k := by
  have hsplit : l = l.take k ++ l[k] :: l.drop (k + 1) := by simp
  have hring := h.ring
  rw [hsplit] at hring
  have hwalk := hring.walk_mem
  rw [← hsplit] at hwalk
  unfold bond_for_each_slave_from
  rw [h.count, List.getElem?_eq_getElem hk]
  refine hwalk.trans ?_
  rw [List.rotate_eq_drop_append_take hk.le, List.drop_eq_getElem_cons hk, List.cons_append]

theorem xmit_numbered_eq {w : World} {l : List SlaveId} (h : w.Ring l) (env : Tagging)
    (skb : Skb) {k : Nat} (hk : k < l.length) :
    xmit_numbered w env skb k = some (match first_sender w (l.rotate k) with
      | some s => bond_dev_queue_xmit w env skb (w.slaves s).dev
      | none => (1, [])) := by
  have hstart : countdown w.links.next w.bond.slave_cnt.toNat w.bond.first_slave k = l[k]? := by
    rw [h.count, h.head]
    exact h.ring.countdown_head hk
  have hfrom := for_each_rotate h hk
  rw [List.getElem?_eq_getElem hk] at hstart hfrom
  unfold xmit_numbered first_sender
  simp only [hstart, hfrom]
  cases (l.rotate k).find? fun s => decide (w.transmits s) <;> rfl

theorem numbered_handed {w : World} {l : List SlaveId} (h : w.Ring l) (env : Tagging)
    (skb : Skb) {k : Nat} (hk : k < l.length) :
    ∃ d res log, xmit_numbered (w.lock .bond .read) env skb k = some (res, log) ∧
      out (w.lock .bond .read) skb res log = (0, [d], w) ∧
      Handed w env skb (first_sender w (l.rotate k)) d := by
  have hlocked : (w.lock .bond .read).Ring l := h.congr rfl rfl rfl
  have hsame : first_sender (w.lock .bond .read) (l.rotate k) = first_sender w (l.rotate k) := rfl
  have hback := w.lock_unlock .bond .read
  rw [xmit_numbered_eq hlocked env skb hk, hsame]
  cases hs : first_sender w (l.rotate k) with
  | none => exact ⟨_, 1, [], rfl, by rw [out_frees, hback], handed_none w env skb⟩
  | some s =>
    obtain ⟨d, hd, hto⟩ := handed_some (w.lock .bond .read) env skb s
    exact ⟨d, 0, [d], congrArg some hd, by rw [out_done, hback], hto.own, hto.dev, hto.queues⟩

theorem ring_pos {w : World} {l : List SlaveId} (h : w.Ring l) (hok : w.BOND_IS_OK = true) :
    0 < l.length := by
  have hcount := h.count
  unfold BOND_IS_OK at hok
  simp only [Bool.and_eq_true, decide_eq_true_eq] at hok
  omega

theorem roundrobin_handed {w : World} {l : List SlaveId} (h : w.Ring l)
    (hok : w.BOND_IS_OK = true) (env : Tagging) (c : BitVec 16) (skb : Skb) :
    ∃ d, bond_xmit_roundrobin w env c skb = some ((0, [d], w), c + 1) ∧
      Handed w env skb (first_sender w (l.rotate (c.toNat % l.length))) d := by
  have hokl : (w.lock .bond .read).BOND_IS_OK = true := hok
  obtain ⟨d, res, log, hx, hout, hto⟩ :=
    numbered_handed h env skb (Nat.mod_lt c.toNat (ring_pos h hok))
  have hno : (c.toNat : Int) % (w.lock .bond .read).bond.slave_cnt =
      ((c.toNat % l.length : Nat) : Int) := by
    rw [show (w.lock .bond .read).bond.slave_cnt = l.length from h.count]
    simp
  refine ⟨d, ?_, hto⟩
  unfold bond_xmit_roundrobin
  simp only [hokl, Bool.not_true, Bool.false_eq_true, if_false, hno, hx, hout]

theorem roundrobin_down {w : World} (hdown : w.BOND_IS_OK = false) (env : Tagging)
    (c : BitVec 16) (skb : Skb) :
    bond_xmit_roundrobin w env c skb = some ((0, [.dev_kfree_skb skb], w), c) := by
  have hokl : (w.lock .bond .read).BOND_IS_OK = false := hdown
  unfold bond_xmit_roundrobin
  simp only [hokl, Bool.not_false, if_true, out_frees, lock_unlock]

theorem hash_lt (policy : XmitPolicy) (skb : Skb) (h_dest dev_addr : HwAddr) {count : Nat}
    (hpos : 0 < count) : xmit_hash_policy policy skb h_dest dev_addr count < count := by
  cases policy with
  | layer2 => exact Nat.mod_lt _ hpos
  | layer34 =>
    unfold xmit_hash_policy bond_xmit_hash_policy_l34
    split_ifs <;> exact Nat.mod_lt _ hpos
  | layer23 =>
    unfold xmit_hash_policy bond_xmit_hash_policy_l23
    split_ifs <;> exact Nat.mod_lt _ hpos

theorem xor_handed {w : World} {l : List SlaveId} (h : w.Ring l) (hok : w.BOND_IS_OK = true)
    (env : Tagging) (policy : XmitPolicy) (h_dest : HwAddr) (skb : Skb) :
    ∃ d, bond_xmit_xor w env policy h_dest skb = some (0, [d], w) ∧
      Handed w env skb (first_sender w
        (l.rotate (xmit_hash_policy policy skb h_dest w.bond_dev.dev_addr l.length))) d := by
  have hokl : (w.lock .bond .read).BOND_IS_OK = true := hok
  obtain ⟨d, res, log, hx, hout, hto⟩ := numbered_handed h env skb
    (hash_lt policy skb h_dest w.bond_dev.dev_addr (ring_pos h hok))
  have hcount : (w.lock .bond .read).bond.slave_cnt.toNat = l.length := by
    rw [show (w.lock .bond .read).bond.slave_cnt = l.length from h.count, Int.toNat_natCast]
  have hdev : (w.lock .bond .read).bond_dev = w.bond_dev := rfl
  refine ⟨d, ?_, hto⟩
  unfold bond_xmit_xor
  simp only [hokl, Bool.not_true, Bool.false_eq_true, if_false, hcount, hdev, hx, hout]

theorem xor_down {w : World} (hdown : w.BOND_IS_OK = false) (env : Tagging)
    (policy : XmitPolicy) (h_dest : HwAddr) (skb : Skb) :
    bond_xmit_xor w env policy h_dest skb = some (0, [.dev_kfree_skb skb], w) := by
  have hokl : (w.lock .bond .read).BOND_IS_OK = false := hdown
  unfold bond_xmit_xor
  simp only [hokl, Bool.not_false, if_true, out_frees, lock_unlock]

theorem activebackup_handed (w : World) (env : Tagging) (skb : Skb) :
    ∃ d, bond_xmit_activebackup w env skb = (0, [d], w) ∧
      Handed w env skb (if w.BOND_IS_OK then w.bond.curr_active_slave else none) d := by
  have hback : (((w.lock .bond .read).lock .curr_slave .read).unlock .curr_slave .read).unlock
      .bond .read = w := by
    rw [lock_unlock, lock_unlock]
  have hok : ((w.lock .bond .read).lock .curr_slave .read).BOND_IS_OK = w.BOND_IS_OK := rfl
  have hact : ((w.lock .bond .read).lock .curr_slave .read).bond.curr_active_slave =
      w.bond.curr_active_slave := rfl
  unfold bond_xmit_activebackup
  simp only [hok, hact]
  cases hb : w.BOND_IS_OK with
  | false =>
    refine ⟨_, ?_, handed_none w env skb⟩
    simp only [Bool.not_false, if_true, out_frees, hback]
  | true =>
    cases ha : w.bond.curr_active_slave with
    | none =>
      refine ⟨_, ?_, handed_none w env skb⟩
      simp only [Bool.not_true, Bool.false_eq_true, if_false, out_frees, hback]
    | some s =>
      obtain ⟨d, hd, hto⟩ := handed_some w env skb s
      have hd' : bond_dev_queue_xmit ((w.lock .bond .read).lock .curr_slave .read) env skb
          (((w.lock .bond .read).lock .curr_slave .read).slaves s).dev = (0, [d]) := hd
      refine ⟨d, ?_, hto⟩
      simp only [Bool.not_true, Bool.false_eq_true, if_false, hd', out_done, hback]

/-! Broadcast -/

/-- Who gets which buffer: every slave the copy made at the next one, the last the frame. -/
def plan (clones : Cloning) (skb : Skb) : SlaveId → List SlaveId → List (SlaveId × Skb)
  | p, [] => [(p, skb)]
  | p, s :: l =>
    match clones.skb_clone s skb with
    | none => plan clones skb p l
    | some skb2 => (p, skb2) :: plan clones skb s l

theorem plan_slaves (clones : Cloning) (skb : Skb) (p : SlaveId) (l : List SlaveId) :
    (plan clones skb p l).map Prod.fst =
      p :: l.filter fun s => (clones.skb_clone s skb).isSome := by
  induction l generalizing p with
  | nil => rfl
  | cons s l ih => cases hs : clones.skb_clone s skb <;> simp [plan, hs, ih]

def made_at (clones : Cloning) (skb : Skb) (l : List SlaveId) : List Skb :=
  l.filterMap fun s => clones.skb_clone s skb

theorem plan_buffers (clones : Cloning) (skb : Skb) (p : SlaveId) (l : List SlaveId) :
    (plan clones skb p l).map Prod.snd = made_at clones skb l ++ [skb] := by
  induction l generalizing p with
  | nil => rfl
  | cons s l ih =>
    unfold made_at at ih ⊢
    cases hs : clones.skb_clone s skb <;> simp [plan, hs, ih]

theorem plan_eq (clones : Cloning) (skb : Skb) (p : SlaveId) (l : List SlaveId) :
    plan clones skb p l = (p :: l.filter fun s => (clones.skb_clone s skb).isSome).zip
      (made_at clones skb l ++ [skb]) :=
  List.zip_of_prod (plan_slaves clones skb p l) (plan_buffers clones skb p l)

theorem plan_ids (clones : Cloning) (skb : Skb) (p : SlaveId) (l : List SlaveId) :
    (plan clones skb p l).map (·.2.id) = (made_at clones skb l).map (·.id) ++ [skb.id] := by
  have hids := congrArg (List.map Skb.id) (plan_buffers clones skb p l)
  rw [List.map_map, List.map_append] at hids
  exact hids

theorem clones_nodup (clones : Cloning) (skb : Skb) {l : List SlaveId} (h : l.Nodup) :
    ((made_at clones skb l).map (·.id) ++ [skb.id]).Nodup := by
  have hclone : ∀ t ∈ l.filterMap fun s => clones.skb_clone s skb,
      ∃ s, clones.skb_clone s skb = some t := by
    intro t ht
    obtain ⟨s, -, hs⟩ := List.mem_filterMap.mp ht
    exact ⟨s, hs⟩
  rw [List.nodup_append]
  refine ⟨?_, by simp, ?_⟩
  · refine List.Nodup.map_on ?_ (h.filterMap ?_)
    · intro t ht u hu hid
      obtain ⟨s, hs⟩ := hclone t ht
      obtain ⟨r, hr⟩ := hclone u hu
      obtain rfl := clones.apart s r skb t u hs hr hid
      exact Option.some.inj (hs.symm.trans hr)
    · intro s r t hs hr
      exact clones.apart s r skb t t hs hr rfl
  · intro i hi j hj
    obtain ⟨t, ht, rfl⟩ := List.mem_map.mp hi
    obtain ⟨s, hs⟩ := hclone t ht
    rw [List.mem_singleton.mp hj]
    exact clones.fresh s skb t hs

def Carried (w : World) (env : Tagging) (p : List (SlaveId × Skb)) (log : List Disposal) : Prop :=
  List.Forall₂ (fun (t : SlaveId × Skb) d => Handed w env t.2 (some t.1) d) p log

theorem Carried.ids {w : World} {env : Tagging} {p : List (SlaveId × Skb)} {log : List Disposal}
    (h : Carried w env p log) : log.map (·.skb.id) = p.map (·.2.id) := by
  induction h with
  | nil => rfl
  | cons hd _ ih => simp [hd.own, ih]

theorem Carried.devs {w : World} {env : Tagging} {p : List (SlaveId × Skb)} {log : List Disposal}
    (h : Carried w env p log) : log.map (·.skb.dev) = p.map fun t => (w.slaves t.1).dev := by
  induction h with
  | nil => rfl
  | cons hd _ ih => simp [hd.dev _ rfl, ih]

theorem broadcast_rest (w : World) (env : Tagging) (clones : Cloning) (skb : Skb)
    (l : List SlaveId) (p : SlaveId) (res : Int) (made : List Skb) (log : List Disposal) :
    ∃ sent, broadcast_last w env skb
        (l.foldl (broadcast_turn w env clones skb) (res, some (w.slaves p).dev, made, log)) =
          (0, made ++ made_at clones skb (l.filter fun s => decide (w.transmits s)), log ++ sent) ∧
      Carried w env (plan clones skb p (l.filter fun s => decide (w.transmits s))) sent := by
  induction l generalizing p res made log with
  | nil =>
    obtain ⟨d, hd, hto⟩ := handed_some w env skb p
    exact ⟨[d], by simp [broadcast_last, hd, made_at], List.Forall₂.cons hto List.Forall₂.nil⟩
  | cons s l ih =>
    by_cases ht : w.transmits s
    · cases hs : clones.skb_clone s skb with
      | none =>
        obtain ⟨sent, hsent, hcar⟩ := ih p res made log
        exact ⟨sent, by simpa [broadcast_turn, made_at, ht, hs] using hsent,
          by simpa [plan, ht, hs] using hcar⟩
      | some skb2 =>
        obtain ⟨d, hd, hto⟩ := handed_some w env skb2 p
        obtain ⟨sent, hsent, hcar⟩ := ih s 0 (made ++ [skb2]) (log ++ [d])
        refine ⟨d :: sent, ?_, ?_⟩
        · simpa [broadcast_turn, made_at, ht, hs, hd] using hsent
        · have hall : Carried w env ((p, skb2) :: _) (d :: sent) := List.Forall₂.cons hto hcar
          simpa [plan, ht, hs] using hall
    · obtain ⟨sent, hsent, hcar⟩ := ih p res made log
      exact ⟨sent, by simpa [broadcast_turn, ht] using hsent, by simpa [ht] using hcar⟩

/-- The whole loop, with what stands behind it: nobody can send, or the slaves have their turns
in order. -/
inductive Broadcast (w : World) (env : Tagging) (clones : Cloning) (skb : Skb) :
    List SlaveId → List Skb → List Disposal → Prop where
  | nobody : Broadcast w env clones skb [] [] [.dev_kfree_skb skb]
  | turns {s : SlaveId} {rest : List SlaveId} {log : List Disposal}
      (h : Carried w env (plan clones skb s rest) log) :
      Broadcast w env clones skb (s :: rest) (made_at clones skb rest) log

theorem broadcast_loop (w : World) (env : Tagging) (clones : Cloning) (skb : Skb)
    (l : List SlaveId) : ∃ res made sent, broadcast_last w env skb
        (l.foldl (broadcast_turn w env clones skb) (1, none, [], [])) = (res, made, sent) ∧
      Broadcast w env clones skb (l.filter fun s => decide (w.transmits s)) made
        (out w skb res sent).2.1 := by
  induction l with
  | nil => exact ⟨1, [], [], rfl, Broadcast.nobody⟩
  | cons s l ih =>
    by_cases ht : w.transmits s
    · obtain ⟨sent, hsent, hcar⟩ := broadcast_rest w env clones skb l s 1 [] []
      refine ⟨0, _, sent, by simpa [broadcast_turn, ht] using hsent, ?_⟩
      simpa [ht, out] using Broadcast.turns hcar
    · simpa [broadcast_turn, ht] using ih

theorem for_each_none (w : World) : w.bond_for_each_slave_from none = [] := by
  unfold bond_for_each_slave_from
  cases w.bond.slave_cnt.toNat <;> rfl

def broadcast_order (w : World) : List SlaveId :=
  if w.BOND_IS_OK then
    (w.bond_for_each_slave_from w.bond.curr_active_slave).filter fun s => decide (w.transmits s)
  else []

theorem Broadcast.still {w v : World} {env : Tagging} {clones : Cloning} {skb : Skb}
    {order : List SlaveId} {made : List Skb} {log : List Disposal}
    (h : Broadcast w env clones skb order made log)
    (hv : ∀ b s d, Handed w env b s d → Handed v env b s d) :
    Broadcast v env clones skb order made log := by
  cases h with
  | nobody => exact Broadcast.nobody
  | turns h => exact Broadcast.turns (h.imp fun _ _ hd => hv _ _ _ hd)

theorem broadcast_handed (w : World) (env : Tagging) (clones : Cloning) (skb : Skb) :
    ∃ log made, bond_xmit_broadcast w env clones skb = ((0, log, w), made) ∧
      Broadcast w env clones skb (broadcast_order w) made log := by
  have hback := w.lock_unlock .bond .read
  have hok : (w.lock .bond .read).BOND_IS_OK = w.BOND_IS_OK := rfl
  have hin : ((w.lock .bond .read).lock .curr_slave .read).unlock .curr_slave .read =
      w.lock .bond .read := lock_unlock _ .curr_slave .read
  have hact : ((w.lock .bond .read).lock .curr_slave .read).bond.curr_active_slave =
      w.bond.curr_active_slave := rfl
  unfold bond_xmit_broadcast broadcast_order
  simp only [hok, hin, hact]
  cases hb : w.BOND_IS_OK with
  | false =>
    refine ⟨_, _, ?_, Broadcast.nobody⟩
    simp only [Bool.not_false, if_true, out_frees, hback]
  | true =>
    simp only [Bool.not_true, Bool.false_eq_true, if_false, if_true]
    cases ha : w.bond.curr_active_slave with
    | none =>
      rw [for_each_none]
      refine ⟨_, _, ?_, Broadcast.nobody⟩
      simp only [out_frees, hback]
    | some a =>
      obtain ⟨res, made, sent, hloop, hcast⟩ := broadcast_loop (w.lock .bond .read) env clones skb
        ((w.lock .bond .read).bond_for_each_slave_from (some a))
      refine ⟨_, made, ?_, hcast.still fun _ _ _ hd => ⟨hd.own, hd.dev, hd.queues⟩⟩
      simp only [hloop]
      unfold out
      rw [hback]

/-- With the slaves in the order of their turns, from the active one on: the first that can send
is reached in any case, and each further one exactly when the clone at its turn is made.  Each
but the last has a clone queued on its device, in the order they are made, and the last the frame
itself; where a tag cannot be put in, the buffer is freed instead. -/
theorem broadcast_reaches {w : World} {front back : List SlaveId} {a : SlaveId}
    (h : w.Ring (front ++ a :: back)) (hok : w.BOND_IS_OK = true)
    (ha : w.bond.curr_active_slave = some a) (env : Tagging) (clones : Cloning) (skb : Skb) :
    ∃ log made, bond_xmit_broadcast w env clones skb = ((0, log, w), made) ∧
      (((a :: back ++ front).filter (fun s => decide (w.transmits s)) = [] ∧
        log = [.dev_kfree_skb skb]) ∨
      ∃ s rest, (a :: back ++ front).filter (fun s => decide (w.transmits s)) = s :: rest ∧
        made = rest.filterMap (fun t => clones.skb_clone t skb) ∧
        List.Forall₂ (fun (t : SlaveId × Skb) d => d.skb.id = t.2.id ∧
            d.skb.dev = (w.slaves t.1).dev ∧
            (d.queues = true ↔ ¬ tag_fails w env t.2 (w.slaves t.1).dev))
          ((s :: rest.filter fun t => (clones.skb_clone t skb).isSome).zip (made ++ [skb]))
          log) := by
  obtain ⟨log, made, hlog, hcast⟩ := broadcast_handed w env clones skb
  have horder : broadcast_order w =
      (a :: back ++ front).filter fun s => decide (w.transmits s) := by
    unfold broadcast_order bond_for_each_slave_from
    rw [if_pos hok, ha, h.count]
    exact congrArg _ h.ring.walk_mem
  rw [← horder]
  refine ⟨log, made, hlog, ?_⟩
  generalize broadcast_order w = order at hcast
  cases hcast with
  | nobody => exact Or.inl ⟨rfl, rfl⟩
  | @turns s rest log hcar =>
    refine Or.inr ⟨s, rest, rfl, rfl, ?_⟩
    unfold Carried at hcar
    rw [plan_eq] at hcar
    refine hcar.imp fun t d hd => ⟨hd.own, hd.dev _ rfl, ?_⟩
    simp [hd.queues]

/-! The function of a mode -/

inductive XmitFunc where
  | roundrobin | activebackup | xor | broadcast | hoolock
  deriving DecidableEq, Repr

/-- `none` for the modes whose function is in another file. -/
def bond_set_mode_ops : Mode → Option XmitFunc
  | .roundrobin => some .roundrobin
  | .activebackup => some .activebackup
  | .xor => some .xor
  | .broadcast => some .broadcast
  | .ieee8023ad | .alb | .tlb => none
  | .hoolock => some .hoolock

structure XmitEnv where
  tagging : Tagging
  clones : Cloning
  policy : XmitPolicy
  h_dest : HwAddr

/-- What the function of a mode returns, with the clones it has made and the counter of round
robin. -/
def XmitFunc.call (f : XmitFunc) (w : World) (env : XmitEnv) (c : BitVec 16) (skb : Skb) :
    Option ((Int × List Disposal × World) × List Skb × BitVec 16) :=
  match f with
  | .roundrobin => (bond_xmit_roundrobin w env.tagging c skb).map fun r => (r.1, [], r.2)
  | .activebackup => some (bond_xmit_activebackup w env.tagging skb, [], c)
  | .xor => (bond_xmit_xor w env.tagging env.policy env.h_dest skb).map fun r => (r, [], c)
  | .broadcast =>
    let (r, made) := bond_xmit_broadcast w env.tagging env.clones skb
    some (r, made, c)
  | .hoolock => (bond_xmit_hoolock w env.tagging skb).map fun r => (r, [], c)

/-- The buffers that end in a log are the clones there have been and then the frame, each its
own buffer and each on a slave of the ring, if anywhere. -/
structure Settled (w : World) (l : List SlaveId) (env : XmitEnv) (skb : Skb) (made : List Skb)
    (log : List Disposal) : Prop where
  ends : log.map (·.skb.id) = made.map (·.id) ++ [skb.id]
  once : (log.map (·.skb.id)).Nodup
  clones : ∀ skb2 ∈ made, ∃ s ∈ l, env.clones.skb_clone s skb = some skb2
  member : ∀ d ∈ log, d.queues = true → ∃ s ∈ l, d.skb.dev = (w.slaves s).dev

theorem Handed.settled {w : World} {l : List SlaveId} {env : XmitEnv} {skb : Skb}
    {target : Option SlaveId} {d : Disposal} (h : Handed w env.tagging skb target d)
    (hl : ∀ s, target = some s → s ∈ l) : Settled w l env skb [] [d] where
  ends := by simp [h.own]
  once := by simp
  clones _ hm := by cases hm
  member e he hq := by
    obtain rfl := List.mem_singleton.mp he
    obtain ⟨s, hs, -⟩ := h.queues.mp hq
    exact ⟨s, hl s hs, h.dev s hs⟩

theorem Carried.settled {w : World} {l : List SlaveId} {env : XmitEnv} {skb : Skb}
    {p : SlaveId} {rest : List SlaveId} {log : List Disposal}
    (h : Carried w env.tagging (plan env.clones skb p rest) log) (hl : ∀ s ∈ p :: rest, s ∈ l)
    (hnd : rest.Nodup) : Settled w l env skb (made_at env.clones skb rest) log where
  ends := by rw [h.ids, plan_ids]
  once := by
    rw [h.ids, plan_ids]
    exact clones_nodup env.clones skb hnd
  clones skb2 hm := by
    obtain ⟨s, hs, hclone⟩ := List.mem_filterMap.mp hm
    exact ⟨s, hl s (List.mem_cons_of_mem p hs), hclone⟩
  member d hd _ := by
    have hdev : d.skb.dev ∈ log.map (·.skb.dev) := List.mem_map_of_mem hd
    rw [h.devs] at hdev
    obtain ⟨⟨s, b⟩, ht, he⟩ := List.mem_map.mp hdev
    have hs : s ∈ (plan env.clones skb p rest).map Prod.fst := List.mem_map_of_mem ht
    rw [plan_slaves] at hs
    have hsub : s ∈ p :: rest := by
      rcases List.mem_cons.mp hs with rfl | hs
      · simp
      · exact List.mem_cons_of_mem p (List.mem_of_mem_filter hs)
    exact ⟨s, hl s hsub, he.symm⟩

theorem broadcast_order_spec {w : World} {l : List SlaveId} (h : w.Members l) :
    (broadcast_order w).Nodup ∧ ∀ s ∈ broadcast_order w, s ∈ l := by
  unfold broadcast_order
  split_ifs with hok
  · cases ha : w.bond.curr_active_slave with
    | none => simp [for_each_none]
    | some a =>
      have hperm : (w.bond_for_each_slave_from (some a)).Perm l := by
        unfold bond_for_each_slave_from
        rw [h.count]
        exact h.ring.walk_perm (h.active a ha)
      exact ⟨(hperm.nodup_iff.mpr h.nodup).filter _,
        fun s hs => hperm.mem_iff.mp (List.mem_of_mem_filter hs)⟩
  · simp

theorem settled_freed (w : World) (l : List SlaveId) (env : XmitEnv) (skb : Skb) :
    Settled w l env skb [] [.dev_kfree_skb skb] :=
  (handed_none w env.tagging skb).settled fun _ hs => by cases hs

theorem Broadcast.settled {w : World} {l : List SlaveId} {env : XmitEnv} {skb : Skb}
    {order : List SlaveId} {made : List Skb} {log : List Disposal}
    (h : Broadcast w env.tagging env.clones skb order made log) (hl : ∀ s ∈ order, s ∈ l)
    (hnd : order.Nodup) : Settled w l env skb made log := by
  cases h with
  | nobody => exact settled_freed w l env skb
  | turns h => exact h.settled hl hnd.of_cons

/-- Whatever mode the bond is in, whatever its slaves' links, and whether clones can be made or
not: the frame and every clone that is made end in one place each, on a slave of the ring or
freed, and the locks are as before.  Only HOOLOCK's function needs an active slave for that. -/
theorem frame_owned_once {w : World} {l : List SlaveId} (h : w.Members l) {f : XmitFunc}
    (hf : bond_set_mode_ops w.bond.params.mode = some f)
    (hactive : w.bond.params.mode = .hoolock → w.bond.curr_active_slave ≠ none) (env : XmitEnv)
    (c : BitVec 16) (skb : Skb) :
    ∃ log made c', f.call w env c skb = some ((0, log, w), made, c') ∧
      Settled w l env skb made log := by
  have hsender : ∀ k s, first_sender w (l.rotate k) = some s → s ∈ l :=
    fun k s hs => List.mem_rotate.mp (first_sender_mem hs).1
  have hfreed := settled_freed w l env skb
  cases f with
  | roundrobin =>
    cases hok : w.BOND_IS_OK with
    | false =>
      have hx := roundrobin_down hok env.tagging c skb
      exact ⟨_, [], c, by simp [XmitFunc.call, hx], hfreed⟩
    | true =>
      obtain ⟨d, hd, hto⟩ := roundrobin_handed h.toRing hok env.tagging c skb
      exact ⟨_, [], c + 1, by simp [XmitFunc.call, hd], hto.settled (hsender _)⟩
  | activebackup =>
    obtain ⟨d, hd, hto⟩ := activebackup_handed w env.tagging skb
    refine ⟨_, [], _, congrArg (fun r => some (r, [], c)) hd, hto.settled fun s hs => ?_⟩
    split_ifs at hs
    exact h.active s hs
  | xor =>
    cases hok : w.BOND_IS_OK with
    | false =>
      have hx := xor_down hok env.tagging env.policy env.h_dest skb
      exact ⟨_, [], c, congrArg (Option.map fun r => (r, [], c)) hx, hfreed⟩
    | true =>
      obtain ⟨d, hd, hto⟩ := xor_handed h.toRing hok env.tagging env.policy env.h_dest skb
      exact ⟨_, [], c, congrArg (Option.map fun r => (r, [], c)) hd, hto.settled (hsender _)⟩
  | broadcast =>
    obtain ⟨log, made, hlog, hcast⟩ := broadcast_handed w env.tagging env.clones skb
    obtain ⟨hnd, hsub⟩ := broadcast_order_spec h
    exact ⟨log, made, c, by simp [XmitFunc.call, hlog], hcast.settled hsub hnd⟩
  | hoolock =>
    have hmode : w.bond.params.mode = .hoolock := by
      cases hm : w.bond.params.mode <;> simp [hm, bond_set_mode_ops] at hf ⊢
    obtain ⟨s, hs⟩ := Option.ne_none_iff_exists'.mp (hactive hmode)
    obtain ⟨d, hd, hid, hq, hdev⟩ := xmit_disposes hs env.tagging skb
    refine ⟨[d], [], c, congrArg (Option.map fun r => (r, [], c)) hd, by simp [hid], by simp,
      by simp, fun e he hqueued => ?_⟩
    obtain rfl := List.mem_singleton.mp he
    exact ⟨s, h.active s hs, hdev hqueued⟩

/-! Round robin over many frames -/

def roundrobin_run (env : Tagging) :
    BitVec 16 → List (World × Skb) → Option (List Disposal × BitVec 16)
  | c, [] => some ([], c)
  | c, (w, skb) :: calls =>
    match bond_xmit_roundrobin w env c skb with
    | none => none
    | some ((_, log, _), c) => (roundrobin_run env c calls).map fun r => (log ++ r.1, r.2)

/-- The bond is up, and the slave that a turn at the position `k` comes to has the device
`dev k`. -/
structure Turned (w : World) (l : List SlaveId) (dev : Nat → DevId) : Prop extends w.Ring l where
  up : w.BOND_IS_OK = true
  turn : ∀ k < l.length, ∃ s, first_sender w (l.rotate k) = some s ∧ (w.slaves s).dev = dev k

theorem toNat_succ (c : BitVec 16) : (c + 1).toNat = (c.toNat + 1) % 65536 := by
  simp [BitVec.toNat_add]

def Offered (env : Tagging) (x : World × Skb) (d : Disposal) : Prop :=
  d.skb.id = x.2.id ∧ (d.queues = true ↔ ¬ tag_fails x.1 env x.2 d.skb.dev)

theorem roundrobin_turns {l : List SlaveId} {dev : Nat → DevId} {calls : List (World × Skb)}
    (h : ∀ x ∈ calls, Turned x.1 l dev) (env : Tagging) (c : BitVec 16) :
    ∃ log c', roundrobin_run env c calls = some (log, c') ∧
      List.Forall₂ (Offered env) calls log ∧
      log.map (·.skb.dev) =
        (RoundRobin.turns 65536 l.length c.toNat calls.length).map dev := by
  induction calls generalizing c with
  | nil => exact ⟨[], c, rfl, List.Forall₂.nil, rfl⟩
  | cons x calls ih =>
    obtain ⟨w, skb⟩ := x
    have hw : Turned w l dev := h (w, skb) (by simp)
    obtain ⟨d, hd, hto⟩ := roundrobin_handed hw.toRing hw.up env c skb
    obtain ⟨log, c', hrun, hoffered, hdevs⟩ := ih (fun x hx => h x (by simp [hx])) (c + 1)
    obtain ⟨s, hs, hdev⟩ := hw.turn _ (Nat.mod_lt c.toNat (ring_pos hw.toRing hw.up))
    refine ⟨d :: log, c', ?_, List.Forall₂.cons ⟨hto.own, ?_⟩ hoffered, ?_⟩
    · simp only [roundrobin_run, hd, hrun, Option.map_some, List.singleton_append]
    · rw [hto.queues, hto.dev s hs, hs]
      simp
    · rw [List.map_cons, hdevs, hto.dev s hs, hdev, toNat_succ]
      rfl

/-- The frames that leave through a device, and those that were freed there for want of a tag. -/
def carried (log : List Disposal) (d : DevId) : Nat :=
  log.countP fun x => x.queues && x.skb.dev == d

def untagged (log : List Disposal) (d : DevId) : Nat :=
  log.countP fun x => !x.queues && x.skb.dev == d

theorem carried_add_untagged (log : List Disposal) (d : DevId) :
    carried log d + untagged log d = (log.map (·.skb.dev)).count d := by
  unfold carried untagged
  induction log with
  | nil => rfl
  | cons x log ih =>
    rw [List.map_cons, List.count_cons, ← ih, List.countP_cons, List.countP_cons]
    cases x.queues <;> by_cases hd : x.skb.dev = d <;> simp [hd] <;> omega

structure AllSend (w : World) (l : List SlaveId) (dev : SlaveId → DevId) : Prop
    extends w.Ring l where
  up : w.BOND_IS_OK = true
  sends : ∀ s ∈ l, w.transmits s
  dev : ∀ s ∈ l, (w.slaves s).dev = dev s

theorem AllSend.turned {w : World} {l : List SlaveId} {dev : SlaveId → DevId}
    (h : AllSend w l dev) : Turned w l fun k => dev (l.getD k 0) where
  toRing := h.toRing
  up := h.up
  turn k hk := by
    have hmem : l[k] ∈ l := List.getElem_mem hk
    refine ⟨l[k], ?_, ?_⟩
    · unfold first_sender
      rw [List.rotate_eq_drop_append_take hk.le, List.drop_eq_getElem_cons hk, List.cons_append,
        List.find?_cons_of_pos (by simpa using h.sends _ hmem)]
    · simp [hk, h.dev _ hmem]

/-- The turns of two slaves differ by one at most, and one more for every time the counter has
wrapped. -/
theorem roundrobin_even {l : List SlaveId} {dev : SlaveId → DevId} (hdev : (l.map dev).Nodup)
    {c n : Nat} (hc : c < 65536) {s t : SlaveId} (hs : s ∈ l) (ht : t ∈ l) :
    ((RoundRobin.turns 65536 l.length c n).map fun k => dev (l.getD k 0)).count (dev s) ≤
      ((RoundRobin.turns 65536 l.length c n).map fun k => dev (l.getD k 0)).count (dev t) + 1 +
        (c + n) / 65536 := by
  have hpos : 0 < l.length := List.length_pos_of_mem hs
  have hcount : ∀ r ∈ l, ((RoundRobin.turns 65536 l.length c n).map fun k =>
      dev (l.getD k 0)).count (dev r) =
        (RoundRobin.turns 65536 l.length c n).count (l.idxOf r) := by
    intro r hr
    have hidx := List.idxOf_lt_length_of_mem hr
    rw [List.count_eq_countP, List.countP_map, List.count_eq_countP]
    refine List.countP_congr fun k hk => ?_
    have hk' := RoundRobin.turns_lt hpos c n k hk
    have hlen : k < (l.map dev).length := by simpa using hk'
    have hlen' : l.idxOf r < (l.map dev).length := by simpa using hidx
    have hget : (l.map dev)[k] = dev (l.getD k 0) := by simp [hk']
    have hr' : (l.map dev)[l.idxOf r] = dev r := by simp
    simp only [Function.comp_apply, beq_iff_eq, ← hget, ← hr']
    exact hdev.getElem_inj_iff
  rw [hcount s hs, hcount t ht]
  exact RoundRobin.turns_fair hpos (List.idxOf_lt_length_of_mem hs)
    (List.idxOf_lt_length_of_mem ht) hc n

/-- Over any number of frames, from any value of the counter, with all slaves fit to send: every
frame is queued unless its tag cannot be put in, and no slave has carried more than one frame
more than another, besides those that could not be tagged for the other and one more for every
time the counter has wrapped. -/
theorem roundrobin_fair {l : List SlaveId} {dev : SlaveId → DevId} (hdev : (l.map dev).Nodup)
    {calls : List (World × Skb)} (h : ∀ x ∈ calls, AllSend x.1 l dev) (env : Tagging)
    (c : BitVec 16) {s t : SlaveId} (hs : s ∈ l) (ht : t ∈ l) :
    ∃ log c', roundrobin_run env c calls = some (log, c') ∧
      List.Forall₂ (fun x d => d.skb.id = x.2.id ∧ (∃ r ∈ l, d.skb.dev = dev r) ∧
        (d.queues = true ↔ ¬ tag_fails x.1 env x.2 d.skb.dev)) calls log ∧
      carried log (dev s) ≤
        carried log (dev t) + untagged log (dev t) + 1 + (c.toNat + calls.length) / 65536 := by
  obtain ⟨log, c', hrun, hoffered, hdevs⟩ :=
    roundrobin_turns (fun x hx => (h x hx).turned) env c
  have hpos : 0 < l.length := List.length_pos_of_mem hs
  have hslave : ∀ d ∈ log, ∃ r ∈ l, d.skb.dev = dev r := by
    intro d hd
    have hmem : d.skb.dev ∈ log.map (·.skb.dev) := List.mem_map_of_mem hd
    rw [hdevs] at hmem
    obtain ⟨k, hk, hkd⟩ := List.mem_map.mp hmem
    have hlt := RoundRobin.turns_lt hpos c.toNat calls.length k hk
    exact ⟨l[k], List.getElem_mem hlt, by rw [← hkd]; simp [hlt]⟩
  refine ⟨log, c', hrun, ?_, ?_⟩
  · rw [List.forall₂_iff_get] at hoffered ⊢
    exact ⟨hoffered.1, fun i hi hj => ⟨(hoffered.2 i hi hj).1, hslave _ (List.get_mem log _),
      (hoffered.2 i hi hj).2⟩⟩
  · have heven := roundrobin_even hdev (n := calls.length) c.isLt hs ht
    rw [← hdevs, ← carried_add_untagged, ← carried_add_untagged] at heven
    omega

/-! Flows -/

/-- While nobody starts to send that did not, a frame keeps its slave as long as that one can
send: the failure of one slave moves no frames but its own. -/
theorem sender_stays {v w : World} {l : List SlaveId} {s : SlaveId}
    (hs : first_sender w l = some s) (hv : v.transmits s)
    (hno : ∀ t ∈ l, v.transmits t → w.transmits t) : first_sender v l = some s := by
  unfold first_sender at hs ⊢
  rw [List.find?_eq_some_iff_append] at hs ⊢
  obtain ⟨-, as, bs, rfl, has⟩ := hs
  refine ⟨by simpa using hv, as, bs, rfl, fun t ht => ?_⟩
  have hidle : ¬ w.transmits t := by simpa using has t ht
  simpa using fun hsends => hidle (hno t (by simp [ht]) hsends)

/-- The two ends of an IP frame: the addresses, and the ports where the frame is a whole TCP or
UDP segment. -/
structure Ends where
  saddr : Be32
  daddr : Be32
  ports : Option ((UInt8 × UInt8) × UInt8 × UInt8)

def Ends.reply (e : Ends) : Ends := ⟨e.daddr, e.saddr, e.ports.map Prod.swap⟩

def ends (skb : Skb) : Ends where
  saddr := skb.saddr
  daddr := skb.daddr
  ports :=
    if !skb.is_fragment && (skb.ip_protocol == IPPROTO_TCP || skb.ip_protocol == IPPROTO_UDP) then
      some (skb.source, skb.dest)
    else none

def ports_xor : Option ((UInt8 × UInt8) × UInt8 × UInt8) → BitVec 32
  | none => 0
  | some (s, d) => byte (s.1 ^^^ d.1) <<< 8 ||| byte (s.2 ^^^ d.2)

theorem ports_xor_swap (p : Option ((UInt8 × UInt8) × UInt8 × UInt8)) :
    ports_xor (p.map Prod.swap) = ports_xor p := by
  cases p with
  | none => rfl
  | some p => simp [ports_xor, UInt8.xor_comm]

theorem layer4_xor_eq (skb : Skb) : layer4_xor skb = ports_xor (ends skb).ports := by
  unfold layer4_xor ends
  dsimp only
  split_ifs <;> rfl

/-- Two frames, with the last bytes of their destination addresses, that a policy must not tell
apart: by the hardware address, by the IP addresses too, or by the two ends of a connection in
either direction. -/
def SameFlow (policy : XmitPolicy) (skb other : Skb) (last other_last : UInt8) : Prop :=
  match policy with
  | .layer2 => other_last = last
  | .layer23 => other_last = last ∧ (other.protocol = ETH_P_IP ↔ skb.protocol = ETH_P_IP) ∧
      (skb.protocol = ETH_P_IP → (other.saddr = skb.saddr ∧ other.daddr = skb.daddr) ∨
        (other.saddr = skb.daddr ∧ other.daddr = skb.saddr))
  | .layer34 =>
      (skb.protocol = ETH_P_IP ∧ other.protocol = ETH_P_IP ∧
        (ends other = ends skb ∨ ends other = (ends skb).reply)) ∨
      (skb.protocol ≠ ETH_P_IP ∧ other.protocol ≠ ETH_P_IP ∧ other_last = last)

theorem layer3_either {skb other : Skb}
    (h : (other.saddr = skb.saddr ∧ other.daddr = skb.daddr) ∨
      (other.saddr = skb.daddr ∧ other.daddr = skb.saddr)) : layer3 other = layer3 skb := by
  unfold layer3
  rcases h with ⟨hs, hd⟩ | ⟨hs, hd⟩
  · rw [hs, hd]
  · rw [hs, hd, Be32.xor_comm]

theorem hash_flow {policy : XmitPolicy} {skb other : Skb} {h_dest other_dest : HwAddr}
    (h : SameFlow policy skb other (h_dest.getD 5 0) (other_dest.getD 5 0)) (dev_addr : HwAddr)
    (count : Nat) :
    xmit_hash_policy policy other other_dest dev_addr count =
      xmit_hash_policy policy skb h_dest dev_addr count := by
  have hlayer2 : other_dest.getD 5 0 = h_dest.getD 5 0 →
      layer2 other_dest dev_addr = layer2 h_dest dev_addr := by
    intro hto
    unfold layer2
    rw [hto]
  cases policy with
  | layer2 => simp [xmit_hash_policy, bond_xmit_hash_policy_l2, hlayer2 h]
  | layer23 =>
    obtain ⟨hto, hip, hends⟩ := h
    unfold xmit_hash_policy bond_xmit_hash_policy_l23
    by_cases hproto : skb.protocol = ETH_P_IP
    · simp [hproto, hip.mpr hproto, hlayer2 hto, layer3_either (hends hproto)]
    · simp [hproto, mt hip.mp hproto, hlayer2 hto]
  | layer34 =>
    unfold xmit_hash_policy bond_xmit_hash_policy_l34
    rcases h with ⟨hs, ho, hends⟩ | ⟨hs, ho, hto⟩
    · have hports : layer4_xor other = layer4_xor skb := by
        rw [layer4_xor_eq, layer4_xor_eq]
        rcases hends with he | he
        · rw [he]
        · rw [he]
          exact ports_xor_swap _
      have haddr : layer3 other = layer3 skb := by
        refine layer3_either (hends.imp (fun he => ?_) fun he => ?_)
        · exact ⟨congrArg Ends.saddr he, congrArg Ends.daddr he⟩
        · exact ⟨congrArg Ends.saddr he, congrArg Ends.daddr he⟩
      simp [hs, ho, hports, haddr]
    · simp [hs, ho, hlayer2 hto]

/-- Xor keeps the frames of a flow together, in both directions, through changes of the slaves'
links: as long as the bond keeps its address, the flow's slave can send and no slave comes back,
the later frames go where the earlier went.  So a failure moves no flows but those of the slaves
that fail.  Under layer 3+4 the fragments of a connection are a flow of their own. -/
theorem flows_stay {w v : World} {l : List SlaveId} (hw : w.Ring l) (hv : v.Ring l)
    (hok : w.BOND_IS_OK = true) (hok' : v.BOND_IS_OK = true)
    (haddr : v.bond_dev.dev_addr = w.bond_dev.dev_addr)
    (hno : ∀ t ∈ l, v.transmits t → w.transmits t) (env : Tagging) {policy : XmitPolicy}
    {skb other : Skb} {h_dest other_dest : HwAddr}
    (hflow : SameFlow policy skb other (h_dest.getD 5 0) (other_dest.getD 5 0)) :
    ∃ d e, bond_xmit_xor w env policy h_dest skb = some (0, [d], w) ∧
      bond_xmit_xor v env policy other_dest other = some (0, [e], v) ∧
      (d.queues = true → ∃ s ∈ l, w.transmits s ∧ d.skb.dev = (w.slaves s).dev ∧
        (v.transmits s → e.skb.dev = (v.slaves s).dev ∧
          (e.queues = true ↔ ¬ tag_fails v env other (v.slaves s).dev))) := by
  obtain ⟨d, hd, hto⟩ := xor_handed hw hok env policy h_dest skb
  obtain ⟨e, he, hto'⟩ := xor_handed hv hok' env policy other_dest other
  rw [haddr, hash_flow hflow] at hto'
  refine ⟨d, e, hd, he, fun hq => ?_⟩
  obtain ⟨s, hs, -⟩ := hto.queues.mp hq
  have hmem := first_sender_mem hs
  refine ⟨s, List.mem_rotate.mp hmem.1, hmem.2, hto.dev s hs, fun hstill => ?_⟩
  have hsame := sender_stays hs hstill fun t ht => hno t (List.mem_rotate.mp ht)
  exact ⟨hto'.dev s hsame, by simp [hto'.queues, hsame]⟩

end Transmit

def bond_of_mode (mode : Mode) : World := machine.bond_init 0 { hoolock_params with mode }

theorem two_cards_send (mode : Mode) (h : mode = .roundrobin ∨ mode = .xor ∨ mode = .broadcast) :
    ∃ u, Transition.run (@World.step noSiblings) (bond_of_mode mode) two_slaves = some u ∧
      u.Members [0, 1] ∧ u.BOND_IS_OK = true ∧ u.bond.curr_active_slave = some 0 ∧
      u.transmits 0 ∧ u.transmits 1 ∧ (u.slaves 0).dev = 1 ∧ (u.slaves 1).dev = 2 ∧
      u.bond.dev = 0 ∧ u.bond.params.mode = mode := by
  have hrun : (Transition.run (@World.step noSiblings) (bond_of_mode mode) two_slaves).any
      (fun u => ((u.slaves 0).next == some 1 && (u.slaves 1).next == some 0 &&
        (u.slaves 0).prev == some 1 && (u.slaves 1).prev == some 0 &&
        u.bond.first_slave == some 0 && u.bond.slave_cnt == 2 &&
        u.bond.primary_slave == none && u.BOND_IS_OK) &&
        (u.bond.curr_active_slave == some 0 && decide (u.transmits 0) &&
        decide (u.transmits 1) && (u.slaves 0).dev == 1 && (u.slaves 1).dev == 2 &&
        u.bond.dev == 0 && u.bond.params.mode == mode)) = true := by
    rcases h with rfl | rfl | rfl <;> decide +kernel
  obtain ⟨u, hu, hcond⟩ := (Option.any_eq_true _ _).mp hrun
  simp only [Bool.and_eq_true, beq_iff_eq, decide_eq_true_eq] at hcond
  obtain ⟨⟨⟨⟨⟨⟨⟨⟨hn0, hn1⟩, hp0⟩, hp1⟩, hfirst⟩, hcount⟩, hprimary⟩, hok⟩,
    ⟨⟨⟨⟨⟨hact, ht0⟩, ht1⟩, hd0⟩, hd1⟩, hdev⟩, hmode⟩ := hcond
  have hring := ring_of_two ⟨hn0, hn1⟩ ⟨hp0, hp1⟩ hfirst hcount
  refine ⟨u, hu, ⟨hring, ?_, ?_⟩, hok, hact, ht0, ht1, hd0, hd1, hdev, hmode⟩
  · intro s hs
    rw [hact] at hs
    cases hs
    simp
  · intro s hs
    rw [hprimary] at hs
    cases hs

/-- Clones are made at every slave, numbered from 100 on, but not at the slave `refused`. -/
def Transmit.Cloning.numbered (refused : SlaveId) : Transmit.Cloning where
  skb_clone s skb := if s = refused then none else some { skb with id := skb.id + 100 + s }
  fresh s skb skb2 h := by
    split_ifs at h
    cases h
    simp only [ne_eq]
    omega
  apart s t skb skb2 skb3 h h' hid := by
    split_ifs at h h'
    have hs : skb.id + 100 + s = skb2.id := congrArg Skb.id (Option.some.inj h)
    have ht : skb.id + 100 + t = skb3.id := congrArg Skb.id (Option.some.inj h')
    exact Nat.add_left_cancel (hs.trans (hid.trans ht.symm))

theorem two_cards_settle : ∃ u,
    Transition.run (@World.step noSiblings) (bond_of_mode .broadcast) two_slaves = some u ∧
      ∃ log made c', Transmit.XmitFunc.broadcast.call u
          ⟨.vlan7 true, .numbered 9, .layer2, []⟩ 0 (on_card 5 0) = some ((0, log, u), made, c') ∧
        Transmit.Settled u [0, 1] ⟨.vlan7 true, .numbered 9, .layer2, []⟩ (on_card 5 0) made
          log := by
  obtain ⟨u, hu, hmem, -, -, -, -, -, -, -, hmode⟩ := two_cards_send .broadcast (by decide)
  have hf : Transmit.bond_set_mode_ops u.bond.params.mode = some .broadcast := by rw [hmode]; rfl
  exact ⟨u, hu, Transmit.frame_owned_once hmem hf (by simp [hmode]) _ 0 _⟩

/-- With no clone for the second slave the frame goes to the first, with one to the second. -/
theorem two_cards_reached : ∃ u,
    Transition.run (@World.step noSiblings) (bond_of_mode .broadcast) two_slaves = some u ∧
      (∃ log made, Transmit.bond_xmit_broadcast u (.vlan7 true) (.numbered 1) (on_card 5 0) =
          ((0, log, u), made) ∧ made = [] ∧ log.map (fun d => (d.skb.id, d.skb.dev)) = [(5, 1)]) ∧
      ∃ log made, Transmit.bond_xmit_broadcast u (.vlan7 true) (.numbered 9) (on_card 5 0) =
          ((0, log, u), made) ∧ made.map (·.id) = [106] ∧
        log.map (fun d => (d.skb.id, d.skb.dev)) = [(106, 1), (5, 2)] := by
  obtain ⟨u, hu, hmem, hok, hact, h0, h1, hd0, hd1, -⟩ :=
    two_cards_send .broadcast (by decide)
  have hring : u.Ring ([] ++ 0 :: [1]) := hmem.toRing
  have horder : ([0, 1] ++ [] : List SlaveId).filter (fun s => decide (u.transmits s)) =
      [0, 1] := by
    simp [h0, h1]
  obtain ⟨log, made, hlog, ⟨hnil, -⟩ | ⟨s, rest, hs, rfl, hsent⟩⟩ :=
    Transmit.broadcast_reaches hring hok hact (.vlan7 true) (.numbered 1) (on_card 5 0)
  · rw [horder] at hnil
    cases hnil
  obtain ⟨log', made', hlog', ⟨hnil, -⟩ | ⟨s', rest', hs', rfl, hsent'⟩⟩ :=
    Transmit.broadcast_reaches hring hok hact (.vlan7 true) (.numbered 9) (on_card 5 0)
  · rw [horder] at hnil
    cases hnil
  rw [horder] at hs hs'
  cases hs
  cases hs'
  refine ⟨u, hu, ⟨log, _, hlog, rfl, ?_⟩, log', _, hlog', rfl, ?_⟩
  · cases hsent with
    | cons hd hnil =>
      cases hnil
      simp [hd.1, hd.2.1, hd0, on_card]
  · cases hsent' with
    | cons hd hrest =>
      cases hrest with
      | cons he hnil =>
        cases hnil
        simp [hd.1, hd.2.1, he.1, he.2.1, hd0, hd1, on_card]

theorem two_cards_take_turns : ∃ u,
    Transition.run (@World.step noSiblings) (bond_of_mode .roundrobin) two_slaves = some u ∧
      ∃ log c', Transmit.roundrobin_run (.vlan7 true) 65535
          [(u, on_card 5 0), (u, on_card 6 0), (u, on_card 7 0)] = some (log, c') ∧
        log.map (·.skb.id) = [5, 6, 7] ∧
        Transmit.carried log 2 ≤ Transmit.carried log 1 + Transmit.untagged log 1 + 2 := by
  obtain ⟨u, hu, hmem, hok, -, h0, h1, hd0, hd1, -⟩ :=
    two_cards_send .roundrobin (by decide)
  have hall : Transmit.AllSend u [0, 1] fun s => s + 1 := ⟨hmem.toRing, hok, by simp [h0, h1],
    by simp [hd0, hd1]⟩
  have hdev : (([0, 1] : List SlaveId).map fun s => s + 1).Nodup := by decide
  have hcalls : ∀ x ∈ [(u, on_card 5 0), (u, on_card 6 0), (u, on_card 7 0)],
      Transmit.AllSend x.1 [0, 1] fun s => s + 1 := by
    simp [hall]
  obtain ⟨log, c', hrun, hoffered, hcount⟩ := Transmit.roundrobin_fair hdev hcalls (.vlan7 true)
    65535 (s := 1) (t := 0) (by simp) (by simp)
  refine ⟨u, hu, log, c', hrun, ?_, by simpa using hcount⟩
  cases hoffered with
  | cons hd hrest =>
    cases hrest with
    | cons he hrest =>
      cases hrest with
      | cons hf hnil =>
        cases hnil
        simp [hd.1, he.1, hf.1, on_card]

def unplugged (u : World) : World := u.setDev 2 fun dev => { dev with carrier := false }

/-- A frame of a flow, and the next one after the second card has lost its carrier. -/
theorem first_card_keeps_flow : ∃ u,
    Transition.run (@World.step noSiblings) (bond_of_mode .xor) two_slaves = some u ∧
      ∃ d e, Transmit.bond_xmit_xor u (.vlan7 true) .layer34 [0, 0, 0, 0, 0, 9] (on_card 5 0) =
          some (0, [d], u) ∧
        Transmit.bond_xmit_xor (unplugged u) (.vlan7 true) .layer34 [0, 0, 0, 0, 0, 8]
          (on_card 6 0) = some (0, [e], unplugged u) ∧
        (d.queues = true → ∃ s ∈ [0, 1], u.transmits s ∧ d.skb.dev = (u.slaves s).dev ∧
          ((unplugged u).transmits s → e.skb.dev = (u.slaves s).dev)) := by
  obtain ⟨u, hu, hmem, hok, -, h0, h1, -, -, hdev, -⟩ := two_cards_send .xor (by decide)
  have hring : (unplugged u).Ring [0, 1] := hmem.toRing.congr rfl rfl rfl
  have hbond : (unplugged u).bond_dev = u.bond_dev := by
    simp [unplugged, World.setDev, World.bond_dev, hdev]
  have hok' : (unplugged u).BOND_IS_OK = true := by
    unfold World.BOND_IS_OK at hok ⊢
    rw [hbond]
    exact hok
  have hflow : Transmit.SameFlow .layer34 (on_card 5 0) (on_card 6 0)
      (([0, 0, 0, 0, 0, 9] : HwAddr).getD 5 0) (([0, 0, 0, 0, 0, 8] : HwAddr).getD 5 0) :=
    Or.inl ⟨rfl, rfl, Or.inl rfl⟩
  obtain ⟨d, e, hd, he, hq⟩ := Transmit.flows_stay hmem.toRing hring hok hok'
    (congrArg NetDevice.dev_addr hbond) (by simp [h0, h1]) (.vlan7 true) hflow
  refine ⟨u, hu, d, e, hd, he, fun hqueued => ?_⟩
  obtain ⟨s, hs, hsends, hto, hstay⟩ := hq hqueued
  exact ⟨s, hs, hsends, hto, fun hstill => (hstay hstill).1⟩

end Hoolock
