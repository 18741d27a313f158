import Hoolock.Replay

/-!
Which frames the bond's handler takes for the bond's own, and that the transmit tap queues
nothing.
-/

set_option autoImplicit false

namespace Hoolock

def ETH_P_IP : Nat := 0x0800

namespace World

/-- The address test lets the frame off: it stays out of the queue even where the buffer test
asks for it. -/
def Exempted (w : World) (skb : Skb) : Prop :=
  (w.bond_hoolock_recv_on (fun _ => true) skb).2.bond.pbuff = w.bond.pbuff

/-- The bond has an address, and the frame is an IPv4 packet that comes from it. -/
def OwnPacket (w : World) (skb : Skb) : Prop :=
  skb.protocol = ETH_P_IP ∧ w.bond.master_ip ≠ ⟨0, 0, 0, 0⟩ ∧ skb.saddr = w.bond.master_ip

/-- The test compares four bytes behind the network header, in a frame of any protocol. -/
theorem exempted_iff (w : World) (skb : Skb) :
    w.Exempted skb ↔ skb.saddr = w.bond.master_ip := by
  obtain ⟨-, -, hqueue⟩ := hook_effect true w skb skb.dev
  have hcall : (w.bond_hoolock_recv_on (fun _ => true) skb).2.bond.pbuff =
      w.bond.pbuff ++ (if true && !w.own_ip skb then [skb] else []) := hqueue
  rw [← own_ip_iff]
  unfold Exempted
  rw [hcall]
  cases w.own_ip skb with
  | true => simp
  | false => simp

theorem closed_pbuff (q : List Skb) : Closed bond_hoolock_recv fun v => v.bond.pbuff = q where
  recv v skb d h := by
    obtain ⟨-, -, hqueue⟩ := hook_effect false v skb d
    rw [recv_hook]
    rw [h] at hqueue
    simpa using hqueue
  users _ _ h := h
  note _ _ h := h

theorem dev_queue_xmit_nit_pbuff (w : World) (env : PassEnv) (skb : Skb) (dev : DevId)
    (l : List PacketType) (clones : List Nat) :
    (dev_queue_xmit_nit bond_hoolock_recv env skb dev l clones w).bond.pbuff = w.bond.pbuff :=
  (closed_pbuff w.bond.pbuff).dev_queue_xmit_nit env skb dev l clones rfl

/-- The filter is exact for a frame, and nothing that is sent gets into the queue, unless the
bytes at the place of an IPv4 source address happen to be the bond's address in a frame that
is no IPv4 packet, or to be zero while the bond has no address. -/
theorem own_traffic_exact_iff (w : World) (skb : Skb) :
    ((w.Exempted skb → w.OwnPacket skb) ∧
      ∀ env sent dev l clones,
        (dev_queue_xmit_nit bond_hoolock_recv env sent dev l clones w).bond.pbuff =
          w.bond.pbuff) ↔
    skb.saddr ≠ w.bond.master_ip ∨
      (skb.protocol = ETH_P_IP ∧ w.bond.master_ip ≠ ⟨0, 0, 0, 0⟩) := by
  rw [exempted_iff]
  constructor
  · rintro ⟨hexempt, -⟩
    by_cases hsame : skb.saddr = w.bond.master_ip
    · obtain ⟨hproto, haddr, -⟩ := hexempt hsame
      exact Or.inr ⟨hproto, haddr⟩
    · exact Or.inl hsame
  · intro hcond
    refine ⟨fun hsame => ?_, w.dev_queue_xmit_nit_pbuff⟩
    rcases hcond with hdiffer | ⟨hproto, haddr⟩
    · exact absurd hsame hdiffer
    · exact ⟨hproto, haddr, hsame⟩

end World

def ipv6_frame : Skb :=
  { id := 7, dev := 1, protocol := 0x86dd, vlan_tci := 0, tc_ncls := false, sk := none
    network_header := [0x60, 0, 0, 0, 0, 8, 58, 64,
      0x20, 0x01, 0x0d, 0xb8, 0x0a, 0x00, 0x00, 0x01, 0, 0, 0, 0, 0, 0, 0, 1,
      0xff, 0x02, 0, 0, 0, 0, 0, 0, 0, 0, 0, 0, 0, 0, 0, 1] }

/-- The bond at 10.0.0.1 takes that packet for its own. -/
theorem ipv6_taken_for_own :
    ∃ u, Transition.run (@World.step noSiblings) bond0
        (two_slaves ++ [.address ⟨10, 0, 0, 1⟩, .make]) = some u ∧
      u.bond.buffer_mode = 1 ∧ u.Exempted ipv6_frame ∧ ¬ u.OwnPacket ipv6_frame ∧
      ¬ (u.Exempted ipv6_frame → u.OwnPacket ipv6_frame) := by
  have hrun : (Transition.run (@World.step noSiblings) bond0
      (two_slaves ++ [.address ⟨10, 0, 0, 1⟩, .make])).any (fun u =>
        u.bond.master_ip == ⟨10, 0, 0, 1⟩ && u.bond.buffer_mode == 1) = true := by
    decide +kernel
  obtain ⟨u, hu, hcond⟩ := (Option.any_eq_true _ _).mp hrun
  simp only [Bool.and_eq_true, beq_iff_eq] at hcond
  obtain ⟨haddr, hmode⟩ := hcond
  have hexempt : u.Exempted ipv6_frame := by
    rw [World.exempted_iff, haddr]
    decide
  have hother : ¬ u.OwnPacket ipv6_frame := by
    rintro ⟨hproto, -⟩
    exact absurd hproto (by decide)
  exact ⟨u, hu, hmode, hexempt, hother, fun h => hother (h hexempt)⟩

end Hoolock
