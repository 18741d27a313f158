import Hoolock.Membership

/-!
The receive path: `netif_receive_skb`, which hands a packet to one handler late,
the bond's own handler among them, and the transmit tap.
-/

set_option autoImplicit false

namespace Hoolock

/-- Ingress filter, bridge and macvlan: not there for this device, letting the packet
through, or taking it. -/
inductive Hook where
  | absent | passes | takes
  deriving DecidableEq, Repr

/-- What a packet meets on its way up.  `-EHOOLOCKBUFF` is the bond's own code, no
other handler returns it. -/
structure PassEnv where
  vlan_takes : Bool
  netpoll_takes : Bool
  should_drop : Bool
  net_alive : Bool
  ing : Hook
  bridge : Hook
  macvlan : Hook
  verdict : PacketType → { r : Int // r ≠ -EHOOLOCKBUFF }

/-- A handler's `func` as the bond's driver provides it: packet and `orig_dev`. -/
abbrev Recv := World → Skb → DevId → Int × World

namespace World

/-- `bond_hoolock_recv` with its buffer test replaced by the outcome of the test. -/
def bond_hoolock_recv_on (test : World → Bool) (w : World) (skb : Skb) : Int × World :=
  let w := w.lock .bond .read
  let curr_ip := w.bond.master_ip
  let w := w.unlock .bond .read
  if ntohl skb.saddr = ntohl curr_ip then (NET_RX_SUCCESS, w.kfree_skb skb)
  else
    let w := (w.lock .bond .read).lock .curr_slave .read
    let (ret, w) := if test w then
        (-EHOOLOCKBUFF, ((w.lock .pbuff .write).skb_queue_tail skb).unlock .pbuff .write)
      else (NET_RX_SUCCESS, w)
    (ret, ((w.unlock .curr_slave .read).unlock .bond .read).kfree_skb skb)

/-- `bond->buffer_mode && orig_dev == (struct net_device*)bond->curr_active_slave` -/
def buffer_test (w : World) (orig_dev : DevId) : Bool :=
  w.bond.buffer_mode != 0 && Addr.net_device orig_dev == Addr.ofSlave w.bond.curr_active_slave

def bond_hoolock_recv : Recv := fun w skb orig_dev =>
  w.bond_hoolock_recv_on (fun v => v.buffer_test orig_dev) skb

def func (recv : Recv) (env : PassEnv) (w : World) (pt : PacketType) (skb : Skb)
    (orig_dev : DevId) (users_before : Int) : Int × World :=
  let (ret, v) := match pt.func with
    | .bond_hoolock_recv => recv w skb orig_dev
    | .other => ((env.verdict pt).val, w.kfree_skb skb)
  let call : Invocation :=
    { pt, skb, ret, users_before, users_after := v.users skb.id,
      queued := v.bond.pbuff.any (·.id == skb.id) }
  (ret, { v with trace := v.trace ++ [call] })

def deliver_skb (recv : Recv) (env : PassEnv) (w : World) (pt_prev : PacketType) (skb : Skb)
    (orig_dev : DevId) : Int × World :=
  (w.atomic_inc skb).func recv env pt_prev skb orig_dev (w.users skb.id)

end World

/-- The local variables of `netif_receive_skb`, and the state. -/
structure Pass where
  ret : Int
  pt_prev : Option PacketType
  buffered : Bool
  world : World

/-- The packet and the device it came in on, once `skb->dev` is settled; `exact` is
`null_or_orig` pointing at the device. -/
structure Frame where
  skb : Skb
  orig_dev : DevId
  exact : Bool

namespace Frame

def accepts (f : Frame) (port : Port) (pt : PacketType) : Bool :=
  match port with
  | .k27 =>
    pt.dev == (if f.exact then some f.orig_dev else none) || pt.dev == some f.skb.dev ||
      pt.dev == some f.orig_dev
  | .k24 => pt.dev == none || pt.dev == some f.skb.dev

/-- `if (pt_prev) ret = deliver_skb(skb, pt_prev, orig_dev);` -/
def deliver (f : Frame) (recv : Recv) (env : PassEnv) (p : Pass) : Pass :=
  match p.pt_prev with
  | none => p
  | some pt =>
    let (ret, w) := p.world.deliver_skb recv env pt f.skb f.orig_dev
    { p with ret, world := w }

def tap (f : Frame) (recv : Recv) (env : PassEnv) (p : Pass) (pt : PacketType) : Pass :=
  if f.accepts p.world.port pt then
    let q := f.deliver recv env p
    { q with
      buffered := q.buffered || (p.pt_prev.isSome && q.ret == -EHOOLOCKBUFF)
      pt_prev := some pt }
  else p

/-- `handle_ing`, `handle_bridge` and `handle_macvlan`; the flag says the packet is gone. -/
def handle (f : Frame) (recv : Recv) (env : PassEnv) (hook : Hook) (p : Pass) : Pass × Bool :=
  match hook with
  | .absent => (p, false)
  | .passes => ({ f.deliver recv env p with pt_prev := none }, false)
  | .takes =>
    let q := f.deliver recv env p
    ({ q with pt_prev := none, world := q.world.kfree_skb f.skb }, true)

/-- The loop over `ptype_base`; the flag says it was left by `goto out`. -/
def protocols (f : Frame) (recv : Recv) (env : PassEnv) : List PacketType → Pass → Pass × Bool
  | [], p => (p, false)
  | pt :: rest, p =>
    if pt.type = f.skb.protocol ∧ f.accepts p.world.port pt then
      let q := f.deliver recv env p
      if p.pt_prev.isSome ∧ q.ret = -EHOOLOCKBUFF then (q, true)
      else f.protocols recv env rest { q with pt_prev := some pt }
    else f.protocols recv env rest p

/-- The last handler is called without a reference of its own. -/
def finish (f : Frame) (recv : Recv) (env : PassEnv) (p : Pass) : Int × World :=
  match p.pt_prev with
  | some pt => p.world.func recv env pt f.skb f.orig_dev (p.world.users f.skb.id)
  | none => (NET_RX_DROP, p.world.kfree_skb f.skb)

def upper (f : Frame) (recv : Recv) (env : PassEnv) (p : Pass) : Int × World :=
  let (p, gone) := f.handle recv env env.bridge p
  if gone then (p.ret, p.world)
  else
    let (p, gone) := f.handle recv env env.macvlan p
    if gone then (p.ret, p.world)
    else
      let (p, out) := f.protocols recv env (p.world.ptype_base (f.skb.protocol % 16)) p
      if out then (p.ret, p.world) else f.finish recv env p

def lower (f : Frame) (recv : Recv) (env : PassEnv) (w : World) : Int × World :=
  let p : Pass := { ret := NET_RX_DROP, pt_prev := none, buffered := false, world := w }
  let p := w.ptype_all.foldl (f.tap recv env) p
  if p.buffered then (0, p.world)
  else
    let (p, gone) := f.handle recv env env.ing p
    if gone then (p.ret, p.world) else f.upper recv env p

def start (f : Frame) (recv : Recv) (env : PassEnv) (w : World) : Int × World :=
  if f.skb.tc_ncls then
    f.upper recv env { ret := NET_RX_DROP, pt_prev := none, buffered := false, world := w }
  else f.lower recv env w

end Frame

namespace World

/-- Where the packet belongs: to the master of the device it came in on, unless the
slave must not receive. -/
def frame (w : World) (env : PassEnv) (skb : Skb) : Frame :=
  match (w.devs skb.dev).master with
  | none => ⟨skb, skb.dev, false⟩
  | some m => if env.should_drop then ⟨skb, skb.dev, true⟩ else ⟨{ skb with dev := m }, skb.dev, false⟩

def netif_receive_skb (recv : Recv) (env : PassEnv) (w : World) (skb : Skb) : Int × World :=
  match w.port with
  | .k27 =>
    if skb.vlan_tci ≠ 0 ∧ env.vlan_takes then (NET_RX_SUCCESS, w.kfree_skb skb)
    else if env.netpoll_takes then (NET_RX_DROP, w.kfree_skb skb)
    -- `goto out` in an exiting network namespace leaves the packet as it is
    else if !env.net_alive then (NET_RX_DROP, w)
    else (w.frame env skb).start recv env w
  | .k24 =>
    if env.netpoll_takes then (NET_RX_DROP, w.kfree_skb skb)
    else if (w.frame env skb).exact then (NET_RX_DROP, w.kfree_skb skb)
    else (w.frame env skb).start recv env w

def skb_clone (w : World) (skb : Skb) (id : Nat) : Skb × World :=
  ({ skb with id }, { w with users := fun i => if i = id then 1 else w.users i })

/-- The transmit tap.  `clones` are the clones the allocator hands out; when it has no
more the loop is left. -/
def dev_queue_xmit_nit (recv : Recv) (env : PassEnv) (skb : Skb) (dev : DevId) :
    List PacketType → List Nat → World → World
  | [], _, w => w
  | pt :: rest, clones, w =>
    if (pt.dev = some dev ∨ pt.dev = none) ∧
        (pt.af_packet_priv = none ∨ pt.af_packet_priv ≠ skb.sk) then
      match clones with
      | [] => w
      | id :: clones =>
        let (skb2, w) := w.skb_clone skb id
        let (_, w) := w.func recv env pt skb2 skb.dev (w.users id)
        dev_queue_xmit_nit recv env skb dev rest clones w
    else dev_queue_xmit_nit recv env skb dev rest clones w

/-- A device is never at the address of a slave record: the test never succeeds. -/
@[simp] theorem buffer_test_false (w : World) (d : DevId) : w.buffer_test d = false := by
  unfold buffer_test
  cases w.bond.curr_active_slave <;> simp [Addr.ofSlave]

theorem bond_hoolock_recv_eq (w : World) (skb : Skb) (d : DevId) :
    w.bond_hoolock_recv skb d = w.bond_hoolock_recv_on (fun _ => false) skb := by
  unfold bond_hoolock_recv bond_hoolock_recv_on
  simp only [buffer_test_false]

end World

/-- `P` survives a call of the bond's handler and the counting and noting of references. -/
structure Closed (recv : Recv) (P : World → Prop) : Prop where
  recv : ∀ w skb d, P w → P (recv w skb d).2
  users : ∀ w users, P w → P { w with users }
  note : ∀ w trace, P w → P { w with trace }

namespace Closed

variable {recv : Recv} {P : World → Prop}

theorem func (h : Closed recv P) (env : PassEnv) {w : World} (pt : PacketType) (skb : Skb)
    (d : DevId) (n : Int) (hw : P w) : P (w.func recv env pt skb d n).2 := by
  unfold World.func
  cases pt.func with
  | bond_hoolock_recv => exact h.note _ _ (h.recv w skb d hw)
  | other => exact h.note _ _ (h.users w _ hw)

theorem deliver_skb (h : Closed recv P) (env : PassEnv) {w : World} (pt : PacketType)
    (skb : Skb) (d : DevId) (hw : P w) : P (w.deliver_skb recv env pt skb d).2 :=
  h.func env pt skb d _ (h.users w _ hw)

theorem deliver (h : Closed recv P) (env : PassEnv) (f : Frame) {p : Pass} (hp : P p.world) :
    P (f.deliver recv env p).world := by
  unfold Frame.deliver
  cases p.pt_prev with
  | none => exact hp
  | some pt => exact h.deliver_skb env pt f.skb f.orig_dev hp

theorem taps (h : Closed recv P) (env : PassEnv) (f : Frame) (l : List PacketType) {p : Pass}
    (hp : P p.world) : P (l.foldl (f.tap recv env) p).world := by
  induction l generalizing p with
  | nil => exact hp
  | cons pt rest ih =>
    refine ih ?_
    unfold Frame.tap
    split_ifs
    · exact h.deliver env f hp
    · exact hp

theorem handle (h : Closed recv P) (env : PassEnv) (f : Frame) (hook : Hook) {p : Pass}
    (hp : P p.world) : P (f.handle recv env hook p).1.world := by
  cases hook with
  | absent => exact hp
  | passes => exact h.deliver env f hp
  | takes => exact h.users _ _ (h.deliver env f hp)

theorem protocols (h : Closed recv P) (env : PassEnv) (f : Frame) (l : List PacketType)
    {p : Pass} (hp : P p.world) : P (f.protocols recv env l p).1.world := by
  induction l generalizing p with
  | nil => exact hp
  | cons pt rest ih =>
    have hq := h.deliver env f hp
    unfold Frame.protocols
    dsimp only
    split_ifs
    · exact hq
    · exact ih hq
    · exact ih hp

theorem finish (h : Closed recv P) (env : PassEnv) (f : Frame) {p : Pass} (hp : P p.world) :
    P (f.finish recv env p).2 := by
  unfold Frame.finish
  cases p.pt_prev with
  | none => exact h.users _ _ hp
  | some pt => exact h.func env pt f.skb f.orig_dev _ hp

theorem upper (h : Closed recv P) (env : PassEnv) (f : Frame) {p : Pass} (hp : P p.world) :
    P (f.upper recv env p).2 := by
  have hbridge := h.handle env f env.bridge hp
  have hmacvlan := h.handle env f env.macvlan hbridge
  have hproto := fun l => h.protocols env f l hmacvlan
  unfold Frame.upper
  dsimp only
  split_ifs
  · exact hbridge
  · exact hmacvlan
  · exact hproto _
  · exact h.finish env f (hproto _)

theorem start (h : Closed recv P) (env : PassEnv) (f : Frame) {w : World} (hw : P w) :
    P (f.start recv env w).2 := by
  unfold Frame.start Frame.lower
  split_ifs
  · exact h.upper env f hw
  · have htaps := h.taps env f w.ptype_all
      (p := { ret := NET_RX_DROP, pt_prev := none, buffered := false, world := w }) hw
    have hing := h.handle env f env.ing htaps
    dsimp only
    split_ifs
    · exact htaps
    · exact hing
    · exact h.upper env f hing

theorem netif_receive_skb (h : Closed recv P) (env : PassEnv) {w : World} (skb : Skb)
    (hw : P w) : P (w.netif_receive_skb recv env skb).2 := by
  unfold World.netif_receive_skb
  cases w.port with
  | k27 =>
    dsimp only
    split_ifs
    · exact h.users _ _ hw
    · exact h.users _ _ hw
    · exact hw
    · exact h.start env _ hw
  | k24 =>
    dsimp only
    split_ifs
    · exact h.users _ _ hw
    · exact h.users _ _ hw
    · exact h.start env _ hw

theorem dev_queue_xmit_nit (h : Closed recv P) (env : PassEnv) (skb : Skb) (dev : DevId)
    (l : List PacketType) (clones : List Nat) {w : World} (hw : P w) :
    P (World.dev_queue_xmit_nit recv env skb dev l clones w) := by
  induction l generalizing clones w with
  | nil => exact hw
  | cons pt rest ih =>
    unfold World.dev_queue_xmit_nit
    split_ifs
    · cases clones with
      | nil => exact hw
      | cons id clones => exact ih clones (h.func env pt _ _ _ (h.users w _ hw))
    · exact ih clones hw

end Closed

end Hoolock
