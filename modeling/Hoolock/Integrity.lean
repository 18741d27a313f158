import Hoolock.Lifetime

set_option autoImplicit false

namespace Hoolock

namespace World

/-- The slaves `l` are all there is to the bond's pointers, counter and devices. -/
structure Intact (w : World) (l : List SlaveId) : Prop where
  count : w.bond.slave_cnt = l.length
  head : w.bond.first_slave = l.head?
  empty : w.bond.first_slave = none ↔ w.bond.slave_cnt = 0
  /-- the slaves, all different, form one cycle in this order -/
  cycle : w.links.IsRing l
  next : ∀ s ∈ l, ∃ t ∈ l, (w.slaves s).next = some t
  prev : ∀ s ∈ l, ∃ t ∈ l, (w.slaves s).prev = some t
  inverse : ∀ s ∈ l, ∀ t ∈ l, (w.slaves s).next = some t ↔ (w.slaves t).prev = some s
  for_each : ∀ s ∈ l, (w.bond_for_each_slave_from (some s)).Perm l
  /-- none of the records has been freed -/
  live : ∀ s ∈ l, w.live s = true
  devices : (l.map fun s => (w.slaves s).dev).Nodup
  enslaved : ∀ d, (w.devs d).master = some w.bond.dev ↔ d ∈ l.map fun s => (w.slaves s).dev
  active : ∀ s, w.bond.curr_active_slave = some s → s ∈ l
  primary : ∀ s, w.bond.primary_slave = some s → s ∈ l

theorem Ring.inverse {w : World} {l : List SlaveId} (h : w.Ring l) {s t : SlaveId} (hs : s ∈ l)
    (ht : t ∈ l) : (w.slaves s).next = some t ↔ (w.slaves t).prev = some s := by
  constructor
  · intro hnext
    obtain ⟨b, _, hn, hp⟩ := (h.ring.neighbours hs).1
    obtain rfl : b = t := Option.some.inj (hn.symm.trans hnext)
    exact hp
  · intro hprev
    obtain ⟨b, _, hn, hp⟩ := (h.ring.neighbours ht).2
    obtain rfl : b = s := Option.some.inj (hp.symm.trans hprev)
    exact hn

theorem Inv.intact {w : World} {l : List SlaveId} (h : w.Inv l) : w.Intact l where
  count := h.count
  head := h.head
  empty := by
    rw [h.head, h.count]
    cases l <;> simp
    omega
  cycle := h.ring
  next s hs := by
    obtain ⟨b, hb, hn, _⟩ := (h.ring.neighbours hs).1
    exact ⟨b, hb, hn⟩
  prev s hs := by
    obtain ⟨b, hb, _, hp⟩ := (h.ring.neighbours hs).2
    exact ⟨b, hb, hp⟩
  inverse s hs t ht := h.toRing.inverse hs ht
  for_each s hs := by
    unfold bond_for_each_slave_from
    rw [h.count]
    exact h.ring.walk_perm hs
  live := h.live
  devices := by
    refine h.nodup.map_on fun s hs t ht heq => ?_
    exact h.distinct t ht s hs heq
  enslaved d := by
    rw [List.mem_map]
    constructor
    · exact h.enslaved d
    · rintro ⟨s, hs, rfl⟩
      exact congrArg Prod.snd (h.owned s hs)
  active := h.active
  primary := h.primary

variable [Siblings]

/-- In every state that a HOOLOCK bond gets into. -/
theorem ring_intact {machine w : World} {bond_dev : DevId} (h : machine.Host bond_dev)
    {params : Params} (hm : params.mode = .hoolock) {es : List Event}
    (hw : Transition.run World.step (machine.bond_init bond_dev params) es = some w) :
    ∃ l, w.Intact l := by
  obtain ⟨l, hi⟩ := h.run_inv hm hw
  exact ⟨l, hi.intact⟩

end World

theorem two_cards_intact :
    ∃ w, Transition.run (@World.step noSiblings) bond0 two_slaves = some w ∧ ∃ l, w.Intact l := by
  have hrun : (Transition.run (@World.step noSiblings) bond0 two_slaves).isSome = true := by
    decide +kernel
  obtain ⟨w, hw⟩ := Option.isSome_iff_exists.mp hrun
  exact ⟨w, hw, @World.ring_intact noSiblings machine w 0 machine_host hoolock_params rfl _ hw⟩

end Hoolock
