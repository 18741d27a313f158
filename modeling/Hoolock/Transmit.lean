import Hoolock.MakeOutcome
import Hoolock.References

/-!
Who owns a frame on its way out: `bond_xmit_hoolock` hands it on, or frees it, or has
`vlan_put_tag` free it.
-/

set_option autoImplicit false

namespace Hoolock

/-- The calls that end a frame's life in the bond; a failed `vlan_put_tag` frees the frame. -/
inductive Disposal where
  | dev_queue_xmit (skb : Skb)
  | vlan_put_tag (skb : Skb)
  | dev_kfree_skb (skb : Skb)
  deriving DecidableEq, Repr

namespace Disposal

def skb : Disposal → Skb
  | .dev_queue_xmit skb => skb
  | .vlan_put_tag skb => skb
  | .dev_kfree_skb skb => skb

def queues : Disposal → Bool
  | .dev_queue_xmit _ => true
  | .vlan_put_tag _ => false
  | .dev_kfree_skb _ => false

def sent : Disposal → Sent
  | .dev_queue_xmit skb => .queued skb.dev
  | .vlan_put_tag _ => .freed
  | .dev_kfree_skb _ => .freed

end Disposal

/-- The two VLAN helpers of the kernel.  Putting the tag into the payload leaves the buffer
and its device the same. -/
structure Tagging where
  vlan_get_tag : Skb → Option Nat
  vlan_put_tag : Skb → Nat → Option Skb
  put_same : ∀ skb vlan_id t, vlan_put_tag skb vlan_id = some t → t.id = skb.id ∧ t.dev = skb.dev

namespace Transmit

open World

def put_tag (env : Tagging) (skb : Skb) (vlan_id : Nat) : Option Skb × List Disposal :=
  match env.vlan_put_tag skb vlan_id with
  | some skb => (some skb, [])
  | none => (none, [.vlan_put_tag skb])

def bond_dev_queue_xmit (w : World) (env : Tagging) (skb : Skb) (slave_dev : DevId) :
    Int × List Disposal :=
  let tag :=
    if w.bond.vlan_list ≠ [] ∧ (w.devs slave_dev).features &&& NETIF_F_HW_VLAN_TX = 0 then
      env.vlan_get_tag skb
    else none
  match tag with
  | some vlan_id =>
    match put_tag env { skb with dev := slave_dev } vlan_id with
    -- success, or the caller would free the frame once more
    | (none, log) => (0, log)
    | (some skb, log) => (0, log ++ [.dev_queue_xmit skb])
  | none => (0, [.dev_queue_xmit { skb with dev := slave_dev }])

def out (w : World) (skb : Skb) (res : Int) (log : List Disposal) : Int × List Disposal × World :=
  let log := if res ≠ 0 then log ++ [.dev_kfree_skb skb] else log
  (0, log, w.unlock .bond .read)

/-- `none` when `active_slave->dev` is read through a null pointer. -/
def bond_xmit_hoolock (w : World) (env : Tagging) (skb : Skb) :
    Option (Int × List Disposal × World) :=
  let w := w.lock .bond .read
  let res : Int := 1
  if !w.BOND_IS_OK then some (out w skb res [])
  else
    match w.bond.curr_active_slave with
    | none => none
    | some active_slave =>
      if IS_UP (w.slave_dev active_slave) ∧ (w.slaves active_slave).link = .up ∧
          (w.slaves active_slave).state = .active then
        let (res, log) := bond_dev_queue_xmit w env skb (w.slaves active_slave).dev
        some (out w skb res log)
      else some (out w skb res [])

def tag_fails (w : World) (env : Tagging) (skb : Skb) (slave_dev : DevId) : Prop :=
  w.bond.vlan_list ≠ [] ∧ (w.devs slave_dev).features &&& NETIF_F_HW_VLAN_TX = 0 ∧
    ∃ vlan_id, env.vlan_get_tag skb = some vlan_id ∧
      env.vlan_put_tag { skb with dev := slave_dev } vlan_id = none

theorem dev_queue_xmit_once (w : World) (env : Tagging) (skb : Skb) (slave_dev : DevId) :
    ∃ d, bond_dev_queue_xmit w env skb slave_dev = (0, [d]) ∧ d.skb.id = skb.id ∧
      d.skb.dev = slave_dev ∧ (d.queues = true ↔ ¬ tag_fails w env skb slave_dev) := by
  unfold bond_dev_queue_xmit tag_fails put_tag
  dsimp only
  split_ifs with hstrip
  · cases htag : env.vlan_get_tag skb with
    | none => exact ⟨_, rfl, rfl, rfl, by simp [Disposal.queues]⟩
    | some vlan_id =>
      dsimp only
      cases hput : env.vlan_put_tag { skb with dev := slave_dev } vlan_id with
      | none =>
        refine ⟨_, rfl, rfl, rfl, ?_⟩
        simp [Disposal.queues, hstrip, hput]
      | some t =>
        obtain ⟨hid, hdev⟩ := env.put_same _ _ _ hput
        refine ⟨_, rfl, hid, hdev, ?_⟩
        simp [Disposal.queues, hput]
  · refine ⟨_, rfl, rfl, rfl, ?_⟩
    have hkeeps : ∀ p : Prop, ¬ (w.bond.vlan_list ≠ [] ∧
        (w.devs slave_dev).features &&& NETIF_F_HW_VLAN_TX = 0 ∧ p) :=
      fun p hp => hstrip ⟨hp.1, hp.2.1⟩
    simp only [Disposal.queues, true_iff]
    exact hkeeps _

theorem out_frees (w : World) (skb : Skb) :
    out w skb 1 [] = (0, [.dev_kfree_skb skb], w.unlock .bond .read) := rfl

theorem out_done (w : World) (skb : Skb) (log : List Disposal) :
    out w skb 0 log = (0, log, w.unlock .bond .read) := rfl

/-- One call ends the frame's life, and the tests tell which. -/
theorem xmit_disposes {w : World} {s : SlaveId} (ha : w.bond.curr_active_slave = some s)
    (env : Tagging) (skb : Skb) :
    ∃ d, bond_xmit_hoolock w env skb = some (0, [d], w) ∧ d.skb.id = skb.id ∧
      (d.queues = true ↔ w.BOND_IS_OK = true ∧ w.transmits s ∧
        ¬ tag_fails w env skb (w.slaves s).dev) ∧
      (d.queues = true → d.skb.dev = (w.slaves s).dev) := by
  have hok : (w.lock .bond .read).BOND_IS_OK = w.BOND_IS_OK := rfl
  have hact : (w.lock .bond .read).bond.curr_active_slave = some s := ha
  have hback : (w.lock .bond .read).unlock .bond .read = w := w.lock_unlock .bond .read
  unfold bond_xmit_hoolock
  dsimp only
  rw [hok, hact]
  cases hb : w.BOND_IS_OK with
  | false =>
    refine ⟨.dev_kfree_skb skb, ?_, rfl, by simp [Disposal.queues], by simp [Disposal.queues]⟩
    simp only [Bool.not_false, if_true, out_frees, hback]
  | true =>
    simp only [Bool.not_true, Bool.false_eq_true, if_false]
    by_cases ht : w.transmits s
    · have hsends : IS_UP ((w.lock .bond .read).slave_dev s) = true ∧
          ((w.lock .bond .read).slaves s).link = .up ∧
          ((w.lock .bond .read).slaves s).state = .active := ht
      obtain ⟨d, hd, hid, hdev, hq⟩ :=
        dev_queue_xmit_once (w.lock .bond .read) env skb (w.slaves s).dev
      have hd' : bond_dev_queue_xmit (w.lock .bond .read) env skb
          ((w.lock .bond .read).slaves s).dev = (0, [d]) := hd
      refine ⟨d, ?_, hid, ?_, fun _ => hdev⟩
      · rw [if_pos hsends, hd', out_done, hback]
      · rw [hq]
        simp only [ht, true_and]
        rfl
    · have hsends : ¬ (IS_UP ((w.lock .bond .read).slave_dev s) = true ∧
          ((w.lock .bond .read).slaves s).link = .up ∧
          ((w.lock .bond .read).slaves s).state = .active) := ht
      refine ⟨.dev_kfree_skb skb, ?_, rfl, by simp [Disposal.queues, ht], by simp [Disposal.queues]⟩
      rw [if_neg hsends, out_frees, hback]

def tags (env : Tagging) (skb : Skb) (slave_dev : DevId) : TagEnv where
  vlan_get_tag := (env.vlan_get_tag skb).isSome
  vlan_put_tag := ((env.vlan_get_tag skb).bind fun vlan_id =>
    env.vlan_put_tag { skb with dev := slave_dev } vlan_id).isSome

theorem sent_eq {d : Disposal} {slave_dev : DevId} (h : d.queues = true → d.skb.dev = slave_dev) :
    d.sent = if d.queues = true then .queued slave_dev else .freed := by
  cases d with
  | dev_queue_xmit skb => exact congrArg Sent.queued (h rfl)
  | vlan_put_tag skb => rfl
  | dev_kfree_skb skb => rfl

theorem tags_sent (w : World) (env : Tagging) (skb : Skb) (slave_dev : DevId)
    [Decidable (tag_fails w env skb slave_dev)] :
    (w.bond_dev_queue_xmit (tags env skb slave_dev) slave_dev).2 =
      if tag_fails w env skb slave_dev then .freed else .queued slave_dev := by
  have htags : ((tags env skb slave_dev).vlan_get_tag = true ∧
      (!(tags env skb slave_dev).vlan_put_tag) = true) ↔
      ∃ vlan_id, env.vlan_get_tag skb = some vlan_id ∧
        env.vlan_put_tag { skb with dev := slave_dev } vlan_id = none := by
    unfold tags
    cases env.vlan_get_tag skb <;> simp
  unfold World.bond_dev_queue_xmit
  by_cases hfail : tag_fails w env skb slave_dev
  · obtain ⟨hlist, hcard, htag⟩ := hfail
    rw [if_pos ⟨hlist, hcard, htags.mpr htag⟩, if_pos ⟨hlist, hcard, htag⟩]
  · rw [if_neg hfail, if_neg]
    rintro ⟨hlist, hcard, htag⟩
    exact hfail ⟨hlist, hcard, htags.mp htag⟩

/-- Each frame is consumed by exactly one call, on the active slave's device or not at all; the
sender of a run reports the same. -/
theorem xmit_hoolock_once {w : World} {s : SlaveId} (ha : w.bond.curr_active_slave = some s)
    (env : Tagging) (skb : Skb) :
    ∃ d, bond_xmit_hoolock w env skb = some (0, [d], w) ∧ d.skb.id = skb.id ∧
      (d.queues = true ↔ w.BOND_IS_OK = true ∧ w.transmits s ∧
        ¬ tag_fails w env skb (w.slaves s).dev) ∧
      (d.queues = true → d.skb.dev = (w.slaves s).dev) ∧
      (w.bond_xmit_hoolock (tags env skb (w.slaves s).dev)).map Prod.fst = some d.sent := by
  classical
  obtain ⟨d, hd, hid, hq, hdev⟩ := xmit_disposes ha env skb
  refine ⟨d, hd, hid, hq, hdev, ?_⟩
  rw [sent_eq hdev]
  cases hok : w.BOND_IS_OK with
  | false =>
    have hlock : (w.lock .bond .read).BOND_IS_OK = false := hok
    have hfreed : ¬ d.queues = true := by simp [hq, hok]
    unfold World.bond_xmit_hoolock
    dsimp only
    rw [hlock, if_neg hfreed]
    rfl
  | true =>
    rw [xmit_active hok ha, tags_sent]
    by_cases ht : w.transmits s
    · by_cases hfail : tag_fails w env skb (w.slaves s).dev
      · simp [hq, ht, hfail]
      · simp [hq, hok, ht, hfail]
    · simp [hq, ht]

end Transmit

/-- A tagged frame for a card that cannot tag: the tag goes into the payload, or the buffer
is too small for it. -/
def Tagging.vlan7 (room : Bool) : Tagging where
  vlan_get_tag _ := some 7
  vlan_put_tag skb vlan_id := if room then some { skb with protocol := 0x8100 + vlan_id } else none
  put_same skb vlan_id t h := by
    cases room with
    | false => cases h
    | true =>
      cases h
      exact ⟨rfl, rfl⟩

def with_vlan (u : World) : World := u.setBond fun b => { b with vlan_list := [7] }

theorem two_cards_transmit :
    ∃ u, Transition.run (@World.step noSiblings) bond0 two_slaves = some u ∧
      (∃ d, Transmit.bond_xmit_hoolock (with_vlan u) (.vlan7 true) (on_card 5 0) =
          some (0, [d], with_vlan u) ∧
        d.queues = true ∧ d.skb.id = 5 ∧ d.skb.dev = 1) ∧
      ∃ d, Transmit.bond_xmit_hoolock (with_vlan u) (.vlan7 false) (on_card 5 0) =
          some (0, [d], with_vlan u) ∧
        d.queues = false ∧ d.skb.id = 5 := by
  have hrun : (Transition.run (@World.step noSiblings) bond0 two_slaves).any (fun u =>
      u.bond.curr_active_slave == some 0 && ((u.slaves 0).dev == 1 && (u.BOND_IS_OK &&
        (decide (u.transmits 0) && (u.devs 1).features &&& NETIF_F_HW_VLAN_TX == 0)))) = true := by
    decide +kernel
  obtain ⟨u, hu, hcond⟩ := (Option.any_eq_true _ _).mp hrun
  simp only [Bool.and_eq_true, beq_iff_eq, decide_eq_true_eq] at hcond
  obtain ⟨hact, hdev, hok, hsends, hcard⟩ := hcond
  have hvact : (with_vlan u).bond.curr_active_slave = some 0 := hact
  have hvdev : ((with_vlan u).slaves 0).dev = 1 := hdev
  have hvcard : ((with_vlan u).devs 1).features &&& NETIF_F_HW_VLAN_TX = 0 := hcard
  obtain ⟨d, hd, hid, hq, hto, -⟩ := Transmit.xmit_hoolock_once hvact (.vlan7 true) (on_card 5 0)
  obtain ⟨e, he, heid, heq, -⟩ := Transmit.xmit_hoolock_once hvact (.vlan7 false) (on_card 5 0)
  rw [hvdev] at hq heq hto
  have hroom : ¬ Transmit.tag_fails (with_vlan u) (.vlan7 true) (on_card 5 0) 1 := by
    rintro ⟨-, -, vlan_id, -, hnone⟩
    cases hnone
  have hfull : Transmit.tag_fails (with_vlan u) (.vlan7 false) (on_card 5 0) 1 :=
    ⟨List.cons_ne_nil 7 [], hvcard, 7, rfl, rfl⟩
  have hqueued : d.queues = true := hq.mpr ⟨hok, hsends, hroom⟩
  have hfreed : e.queues = false := by
    rw [← Bool.not_eq_true, heq]
    exact fun hcond => hcond.2.2 hfull
  exact ⟨u, hu, ⟨d, hd, hqueued, hid, hto hqueued⟩, e, he, hfreed, heid⟩

end Hoolock
