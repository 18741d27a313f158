import Hoolock.FilterRuns
import Mathlib.Data.List.Infix

/-!
What the old slave still receives between a MAKE and the BREAK that follows it, whatever becomes
of the bond's own settings meanwhile.
-/

set_option autoImplicit false

namespace Hoolock

/-- Whether the filter lets a frame to `dst` through on a device with the address `own`. -/
def RxFilter.accepts (f : RxFilter) (own dst : HwAddr) : Bool :=
  f.iff_promisc || dst == own || dst.all (· == 0xff) || (addrs f.mc_list).contains dst ||
    (f.iff_allmulti && dst.headD 0 &&& 1 == 1)

/-- `f` lets through what `f0` does. -/
structure RxFilter.Wider (f0 f : RxFilter) : Prop where
  promisc : f0.iff_promisc = true → f.iff_promisc = true
  allmulti : f0.iff_allmulti = true → f.iff_allmulti = true
  mc_list : ∀ a ∈ addrs f0.mc_list, a ∈ addrs f.mc_list

theorem RxFilter.Wider.trans {f g k : RxFilter} (h : f.Wider g) (hk : g.Wider k) : f.Wider k :=
  ⟨fun hf => hk.promisc (h.promisc hf), fun hf => hk.allmulti (h.allmulti hf),
    fun a ha => hk.mc_list a (h.mc_list a ha)⟩

theorem RxFilter.Wider.accepts {f0 f : RxFilter} (h : f0.Wider f) {own dst : HwAddr}
    (ha : f0.accepts own dst = true) : f.accepts own dst = true := by
  unfold RxFilter.accepts at ha ⊢
  simp only [Bool.or_eq_true, Bool.and_eq_true, List.contains_iff_mem] at ha ⊢
  rcases ha with (((hp | ho) | hb) | hm) | ⟨hall, hg⟩
  · exact Or.inl (Or.inl (Or.inl (Or.inl (h.promisc hp))))
  · exact Or.inl (Or.inl (Or.inl (Or.inr ho)))
  · exact Or.inl (Or.inl (Or.inr hb))
  · exact Or.inl (Or.inr (h.mc_list dst hm))
  · exact Or.inr ⟨h.allmulti hall, hg⟩

namespace RxFilter

theorem Sound.listBy {f : RxFilter} (h : f.Sound) {g : HwAddr → List DevAddr → List DevAddr}
    (hg : ∀ a list, Counted list → Counted (g a list)) (l : List DevAddr) :
    (f.listBy g l).Sound := by
  refine ⟨?_, h.promisc, h.allmulti⟩
  have hcounted : ∀ list, Counted list →
      Counted (l.foldl (fun list dmi => g dmi.da_addr list) list) := by
    induction l with
    | nil => exact fun list hl => hl
    | cons dmi rest ih => exact fun list hl => ih _ (hg dmi.da_addr list hl)
  exact hcounted f.mc_list h.counted

theorem Sound.off {b f : RxFilter} (h : f.Sound) : (b.off f).Sound :=
  ((h.promiscBy b.iff_promisc false).allmultiBy b.iff_allmulti false).listBy
    (fun a _ hl => hl.delete a) b.mc_list

theorem Sound.on {b f : RxFilter} (h : f.Sound) : (b.on f).Sound :=
  ((h.promiscBy b.iff_promisc true).allmultiBy b.iff_allmulti true).listBy
    (fun a _ hl => hl.add a) b.mc_list

theorem Sound.resync {s : Settings} {b f : RxFilter} (h : f.Sound) : (resync s b f).Sound := by
  have hpromisc := (h.promiscBy (b.iff_promisc && !s.promisc) true).promiscBy
    (!b.iff_promisc && s.promisc) false
  have hallmulti := (hpromisc.allmultiBy (b.iff_allmulti && !s.allmulti) true).allmultiBy
    (!b.iff_allmulti && s.allmulti) false
  exact (hallmulti.listBy (fun a _ hl => hl.add a) _).listBy (fun a _ hl => hl.delete a) _

end RxFilter

theorem Holds.none {f : RxFilter} (h : Counted f.mc_list) (s : Settings) : Holds f s false f :=
  ⟨h, rfl, rfl, fun _ => rfl⟩

theorem Holds.mem_iff {base f : RxFilter} {s : Settings} {here : Bool} (h : Holds base s here f)
    (hb : Counted base.mc_list) (a : HwAddr) : a ∈ addrs f.mc_list ↔
      a ∈ addrs base.mc_list ∨ (here = true ∧ a ∈ addrs s.mc_list) := by
  have hf := h.counted.mem_iff a
  have hbase := hb.mem_iff a
  have hrefs := h.refs a
  change (a ∈ addrs f.mc_list ↔ _) at hf
  change (a ∈ addrs base.mc_list ↔ _) at hbase
  rw [hf, hbase, hrefs]
  by_cases hs : here = true ∧ a ∈ addrs s.mc_list
  · simp [hs]
  · have hzero : (here && decide (a ∈ addrs s.mc_list)).toNat = 0 := by
      rw [Bool.toNat_eq_zero, Bool.eq_false_iff]
      simpa using hs
    rw [hzero]
    simp [hs]

theorem counter_set_iff {b f : BitVec 32} {here set : Bool}
    (h : f.toNat = b.toNat + (here && set).toNat) :
    (f != 0) = true ↔ (b != 0) = true ∨ (here = true ∧ set = true) := by
  have hzero : ∀ x : BitVec 32, (x != 0) = true ↔ x.toNat ≠ 0 := by
    intro x
    rw [bne_iff_ne, ne_eq, ne_eq, BitVec.toNat_eq]
    rfl
  rw [hzero, hzero, h]
  cases here <;> cases set <;> simp

theorem Holds.promisc_iff {base f : RxFilter} {s : Settings} {here : Bool}
    (h : Holds base s here f) (hb : base.Sound) (hf : f.Sound) : f.iff_promisc = true ↔
      base.iff_promisc = true ∨ (here = true ∧ s.promisc = true) := by
  rw [hf.promisc, hb.promisc]
  exact counter_set_iff h.promiscuity

theorem Holds.allmulti_iff {base f : RxFilter} {s : Settings} {here : Bool}
    (h : Holds base s here f) (hb : base.Sound) (hf : f.Sound) : f.iff_allmulti = true ↔
      base.iff_allmulti = true ∨ (here = true ∧ s.allmulti = true) := by
  rw [hf.allmulti, hb.allmulti]
  exact counter_set_iff h.allmulti

theorem Holds.wider {base f : RxFilter} {s : Settings} {here : Bool} (h : Holds base s here f)
    (hb : base.Sound) (hf : f.Sound) : base.Wider f :=
  ⟨fun hset => (h.promisc_iff hb hf).mpr (Or.inl hset),
    fun hset => (h.allmulti_iff hb hf).mpr (Or.inl hset),
    fun a ha => (h.mem_iff hb.counted a).mpr (Or.inl ha)⟩

namespace Master

/-- What is on a device besides the bond's references. -/
def others (m : Master) (d : DevId) : RxFilter :=
  if m.world.active_dev = some d then m.own.off (m.world.filters d) else m.world.filters d

/-- In `v` the device `d` has what the bond asks for. -/
structure Listens (v : Master) (d : DevId) : Prop where
  mc_list : ∀ a ∈ addrs v.own.mc_list, a ∈ addrs (v.world.filters d).mc_list
  promisc : v.own.iff_promisc = true → (v.world.filters d).iff_promisc = true
  allmulti : v.own.iff_allmulti = true → (v.world.filters d).iff_allmulti = true

/-- It also lets through what it did in `m`. -/
structure StillListens (m v : Master) (d : DevId) : Prop extends Listens v d where
  accepts : ∀ own dst, (m.world.filters d).accepts own dst = true →
    (v.world.filters d).accepts own dst = true

/-- What the bond asks for is on `d` by references of others, `base`, or the active slave is on
`d` and the bond has passed it on. -/
structure Spared (base : RxFilter) (d : DevId) (v : Master) : Prop where
  mc_list : ∀ a ∈ addrs v.own.mc_list, a ∈ addrs base.mc_list ∨
    (v.world.active_dev = some d ∧ a ∈ addrs v.mc_list)
  promisc : v.own.iff_promisc = true → base.iff_promisc = true ∨
    (v.world.active_dev = some d ∧ v.iff_promisc = true)
  allmulti : v.own.iff_allmulti = true → base.iff_allmulti = true ∨
    (v.world.active_dev = some d ∧ v.iff_allmulti = true)

instance (base : RxFilter) (d : DevId) (v : Master) : Decidable (v.Spared base d) :=
  decidable_of_iff (_ ∧ _ ∧ _) ⟨fun h => ⟨h.1, h.2.1, h.2.2⟩, fun h => ⟨h.1, h.2, h.3⟩⟩

/-- The bond is up, its settings are passed on, and `dev.c` has kept the devices' filters. -/
structure Orderly (m : Master) (l : List SlaveId) : Prop where
  inv : m.world.Inv l
  up : m.dev.iff_up = true
  present : m.dev.present = true
  sound : ∀ d, (m.world.filters d).Sound
  saved : (addrs m.mc_list).Nodup
  synced : m.saved.Agrees m.own.settings
  room : ∀ d, d ≠ m.world.bond.dev → (m.others d).room

theorem Orderly.others_sound {m : Master} {l : List SlaveId} (h : m.Orderly l) (d : DevId) :
    (m.others d).Sound := by
  unfold others
  split_ifs
  · exact (h.sound d).off
  · exact h.sound d

end Master

theorem Tracked.listens_iff {base : DevId → RxFilter} {v : Master} {l : List SlaveId}
    (h : Tracked base v l) {d : DevId} (hd : d ≠ v.world.bond.dev) (hb : (base d).Sound)
    (hf : (v.world.filters d).Sound) : v.Listens d ↔ v.Spared (base d) d := by
  have hheld := h.account d hd
  have hmem := hheld.mem_iff hb.counted
  have hpromisc := hheld.promisc_iff hb hf
  have hallmulti := hheld.allmulti_iff hb hf
  simp only [decide_eq_true_eq] at hmem hpromisc hallmulti
  constructor
  · intro k
    exact ⟨fun a ha => (hmem a).mp (k.mc_list a ha), fun hset => hpromisc.mp (k.promisc hset),
      fun hset => hallmulti.mp (k.allmulti hset)⟩
  · intro k
    exact ⟨fun a ha => (hmem a).mpr (k.mc_list a ha), fun hset => hpromisc.mpr (k.promisc hset),
      fun hset => hallmulti.mpr (k.allmulti hset)⟩

/-- What a device let through with the bond's references it lets through without them, if others
hold all that the bond asks for. -/
theorem Master.Spared.wider {b f : RxFilter} {d : DevId} {v : Master} (h : v.Spared (b.off f) d)
    (haway : v.world.active_dev ≠ some d) (hown : v.own = b) (hf : f.Sound)
    (hb : (addrs b.mc_list).Nodup) : f.Wider (b.off f) := by
  subst hown
  have hlist := moveBy_mc_list (-1) dev_addr_delete v.own f
  have hpromisc := moveBy_promisc (-1) dev_addr_delete v.own f
  have hallmulti := moveBy_allmulti (-1) dev_addr_delete v.own f
  obtain ⟨hcounted, hrefs⟩ := hf.counted.deletes hb
  refine ⟨fun hset => ?_, fun hset => ?_, fun a ha => ?_⟩
  · by_cases hasked : v.own.iff_promisc = true
    · exact (h.promisc hasked).resolve_right fun hpushed => haway hpushed.1
    · rw [if_neg hasked] at hpromisc
      exact (Prod.mk.inj hpromisc).1.trans hset
  · by_cases hasked : v.own.iff_allmulti = true
    · exact (h.allmulti hasked).resolve_right fun hpushed => haway hpushed.1
    · rw [if_neg hasked] at hallmulti
      exact (Prod.mk.inj hallmulti).1.trans hset
  · by_cases hasked : a ∈ addrs v.own.mc_list
    · exact (h.mc_list a hasked).resolve_right fun hpushed => haway hpushed.1
    · have hpos := (hf.counted.mem_iff a).mp ha
      change a ∈ addrs (v.own.moveBy (-1) dev_addr_delete f).mc_list
      rw [hlist]
      refine (hcounted.mem_iff a).mpr ?_
      rw [hrefs, if_neg hasked]
      omega

namespace World

/-- The bond stays on its device, and `dev.c` keeps each filter. -/
structure KeptBy (w v : World) : Prop where
  dev : v.bond.dev = w.bond.dev
  sound : (∀ d, (w.filters d).Sound) → ∀ d, (v.filters d).Sound

theorem KeptBy.trans {w v u : World} (h : KeptBy w v) (k : KeptBy v u) : KeptBy w u :=
  ⟨k.dev.trans h.dev, fun hs => k.sound (h.sound hs)⟩

theorem Unmoved.kept {w v : World} (h : Unmoved w v) : KeptBy w v :=
  ⟨h.dev, fun hs d => by rw [h.filters]; exact hs d⟩

theorem KeptBy.setDev {w : World} {e : DevId} {f : NetDevice → NetDevice}
    (hf : (w.filters e).Sound → (f (w.devs e)).filter.Sound) : KeptBy w (w.setDev e f) := by
  refine ⟨rfl, fun hs d => ?_⟩
  rw [filters_setDev]
  split_ifs with hd
  · subst hd
    exact hf (hs d)
  · exact hs d

theorem Tuned.kept {w v : World} {φ : RxFilter → RxFilter} (h : Tuned w v φ)
    (hφ : ∀ f, f.Sound → (φ f).Sound) : KeptBy w v := by
  refine ⟨congrArg Bonding.dev h.bond, fun hs d => ?_⟩
  rw [h.filters]
  split_ifs
  · exact hφ _ (hs d)
  · exact hs d

variable [Siblings]

theorem Swapping.kept {c : Prop} {w v : World} (h : Swapping c w v) : KeptBy w v :=
  ⟨h.bond_filter.1, fun hs d => h.device (P := fun _ f => f.Sound) (fun _ hf => hf.on)
    (fun _ hf => hf.off) (hs d)⟩

end World

theorem Master.setDev_kept (m : Master) {f : NetDevice → NetDevice}
    (hs : (f m.dev).filter.Sound) : World.KeptBy m.world (m.setDev f).world :=
  World.KeptBy.setDev fun _ => hs

theorem Tracked.rx_mode_kept {base : DevId → RxFilter} {m : Master} {l : List SlaveId}
    (h : Tracked base m l) : World.KeptBy m.world m.dev_set_rx_mode.world := by
  have hself : ∀ n : Master, n.world = m.world → World.KeptBy m.world n.world := by
    intro n hn
    rw [hn]
    exact ⟨rfl, fun hs => hs⟩
  have hunicast : World.KeptBy m.world m.set_unicast.world := by
    have hon : ∀ on : Bool, World.KeptBy m.world (m.setDev fun dev =>
        (dev_set_promiscuity m.world.port (if on then 1 else -1) dev).2).world := by
      intro on
      have hs : (dev_set_promiscuity m.world.port (if on then 1 else -1) m.dev).2.filter.Sound := by
        rw [h.inv.port]
        exact h.own.promiscBy true on
      exact m.setDev_kept hs
    unfold Master.set_unicast
    split_ifs
    · exact hon true
    · exact hon false
    · exact hself m rfl
  have htuned := (Master.set_multicast_list_spec h.set_unicast.inv.grounded).1
  unfold Master.dev_set_rx_mode
  split_ifs
  · exact hself m rfl
  · exact hself m rfl
  · exact hunicast.trans (htuned.kept fun _ hf => hf.resync)

theorem Tracked.write_kept {base : DevId → RxFilter} {m : Master} {l : List SlaveId}
    (h : Tracked base m l) {f : NetDevice → NetDevice}
    (hf : ∀ dev, (f dev).sansFilter = dev.sansFilter) (hs : (f m.dev).filter.Sound) :
    World.KeptBy m.world (m.setDev f).world ∧
      World.KeptBy m.world (m.setDev f).dev_set_rx_mode.world :=
  ⟨m.setDev_kept hs, (m.setDev_kept hs).trans (h.setDev hf hs).rx_mode_kept⟩

theorem Tracked.counter_kept {base : DevId → RxFilter} {m : Master} {l : List SlaveId}
    (h : Tracked base m l) {f : NetDevice → NetDevice}
    (hf : ∀ dev, (f dev).sansFilter = dev.sansFilter) (hs : (f m.dev).filter.Sound) (r : Int)
    (g : NetDevice → Bool) : World.KeptBy m.world (if r < 0 then m.setDev f
      else if g (m.setDev f).dev ≠ g m.dev then (m.setDev f).dev_set_rx_mode
      else m.setDev f).world := by
  obtain ⟨hwrite, hpassed⟩ := h.write_kept hf hs
  split_ifs
  · exact hwrite
  · exact hpassed
  · exact hwrite

section

variable [Siblings]

theorem Tracked.call_kept {base : DevId → RxFilter} {m n : Master} {l : List SlaveId}
    (h : Tracked base m l) {e : Event} (hn : m.call e = some n) :
    World.KeptBy m.world n.world := by
  by_cases hopen : e = .open_bond
  · subst hopen
    obtain rfl : m.dev_open = n := Option.some.inj hn
    unfold Master.dev_open
    split_ifs with hup hgone
    · exact ⟨rfl, fun hs => hs⟩
    · exact ⟨rfl, fun hs => hs⟩
    · have hhere : m.dev.present = true := by simpa using hgone
      exact (World.unmoved_open_bond m.world).kept.trans (h.opened hhere).rx_mode_kept
  by_cases hfree : e = .free_all
  · subst hfree
    cases hn
    exact (h.inv.step_swaps hopen (v := m.world.bond_free_all) rfl).kept
  · rw [Master.call_other hopen hfree] at hn
    obtain ⟨v, hv, rfl⟩ := Option.map_eq_some_iff.mp hn
    exact (h.inv.step_swaps hopen hv).kept

theorem Tracked.step_kept {base : DevId → RxFilter} {m n : Master} {l : List SlaveId}
    (h : Tracked base m l) {r : RxEvent} (hn : m.step r = some n) :
    World.KeptBy m.world n.world := by
  have hport := h.inv.port
  cases r with
  | call e => exact h.call_kept hn
  | set_promiscuity on =>
    cases hn
    have hs : (dev_set_promiscuity m.world.port (if on then 1 else -1) m.dev).2.filter.Sound := by
      rw [hport]
      exact h.own.promiscBy true on
    exact h.counter_kept
      (f := fun dev => (dev_set_promiscuity m.world.port (if on then 1 else -1) dev).2)
      (fun _ => rfl) hs _ NetDevice.iff_promisc
  | set_allmulti on =>
    cases hn
    have hs : (dev_set_allmulti m.world.port (if on then 1 else -1) m.dev).2.filter.Sound := by
      rw [hport]
      exact h.own.allmultiBy true on
    exact h.counter_kept
      (f := fun dev => (dev_set_allmulti m.world.port (if on then 1 else -1) dev).2)
      (fun _ => rfl) hs _ NetDevice.iff_allmulti
  | mc_add addr =>
    cases hn
    exact (h.write_kept (f := dev_mc_add addr) (fun _ => rfl)
      ⟨h.own.counted.add addr, h.own.promisc, h.own.allmulti⟩).2
  | mc_delete addr =>
    cases hn
    unfold Master.dev_mc_delete
    split_ifs
    · exact (h.write_kept (f := dev_mc_delete addr) (fun _ => rfl)
        ⟨h.own.counted.delete addr, h.own.promisc, h.own.allmulti⟩).2
    · exact ⟨rfl, fun hs => hs⟩
  | unicast_add addr =>
    cases hn
    exact (h.unicast (dev_addr_add addr m.uc_list)).rx_mode_kept
  | unicast_delete addr =>
    cases hn
    unfold Master.dev_unicast_delete
    split_ifs
    · exact (h.unicast (dev_addr_delete addr m.uc_list)).rx_mode_kept
    · exact ⟨rfl, fun hs => hs⟩
  | set_rx_mode =>
    cases hn
    exact h.rx_mode_kept

theorem Accounted.run {base : DevId → RxFilter} {m v : Master} {l : List SlaveId}
    (h : Accounted base m l) (hs : ∀ d, (m.world.filters d).Sound) {es : List RxEvent}
    (hc : Transition.Along Master.Balanced Master.step m es)
    (hv : Transition.run Master.step m es = some v) : (∃ k, Accounted base v k) ∧
      v.world.bond.dev = m.world.bond.dev ∧ ∀ d, (v.world.filters d).Sound :=
  Transition.run_invariant_along (C := Master.Balanced)
    (fun x : Master => (∃ k, Accounted base x k) ∧ x.world.bond.dev = m.world.bond.dev ∧
      ∀ d, (x.world.filters d).Sound)
    (fun _ _ _ hx hcond hy =>
      have hkept := hx.1.choose_spec.step_kept hy
      ⟨hx.1.choose_spec.step hcond hy, hkept.dev.trans hx.2.1, hkept.sound hx.2.2⟩)
    hv hc ⟨⟨l, h⟩, rfl, hs⟩

omit [Siblings] in
/-- Under the account what is on a device besides the bond's references are its own. -/
theorem Accounted.orderly {base : DevId → RxFilter} {m : Master} {l : List SlaveId}
    (h : Accounted base m l) (hs : ∀ d, (m.world.filters d).Sound) (hup : m.dev.iff_up = true) :
    m.Orderly l := by
  refine ⟨h.inv, hup, h.present hup, hs, h.saved, h.synced hup, fun d hd => ?_⟩
  have hheld := (h.account d hd).congr (h.synced hup)
  have hroom := h.room d hd
  have hothers : Holds (base d) m.own.settings false (m.others d) := by
    unfold Master.others
    split_ifs with hact
    · rw [decide_eq_true hact] at hheld
      exact hheld.off h.own.counted.nodup
    · rw [decide_eq_false hact] at hheld
      exact hheld
  have hpromisc := hothers.promiscuity
  have hallmulti := hothers.allmulti
  simp only [Bool.false_and, Bool.toNat_false, Nat.add_zero] at hpromisc hallmulti
  unfold RxFilter.room at hroom ⊢
  omega

theorem World.Host.orderly {w : World} {bond_dev : DevId} (h : w.Host bond_dev) {params : Params}
    (hm : params.mode = .hoolock) (hs : ∀ d, (w.filters d).Sound)
    (hdown : (w.devs bond_dev).iff_up = false)
    (hroom : ∀ d, d ≠ bond_dev → (w.filters d).room) {es : List RxEvent} {m : Master}
    (hc : Transition.Along Master.Balanced Master.step (w.bond_master bond_dev params) es)
    (hv : Transition.run Master.step (w.bond_master bond_dev params) es = some m)
    (hup : m.dev.iff_up = true) : ∃ l, m.Orderly l := by
  have hstart := h.accounted hm (hs bond_dev) hdown fun d hd => ⟨(hs d).counted, hroom d hd⟩
  have hsound : ∀ d, ((w.bond_master bond_dev params).world.filters d).Sound := by
    intro d
    change ((w.bond_init bond_dev params).filters d).Sound
    rw [w.filters_bond_init]
    exact hs d
  obtain ⟨⟨l, hl⟩, -, hfilters⟩ := hstart.run hsound hc hv
  exact ⟨l, hl.orderly hfilters hup⟩

theorem World.Inv.make_devices {w : World} {l : List SlaveId} (h : w.Inv l) {o n : SlaveId}
    (ho : w.bond.curr_active_slave = some o) (hn : w.passive_slave = some n) :
    w.bond_ioctl_make.2.active_dev ≠ some (w.slaves o).dev ∧
      ∀ d, w.bond_ioctl_make.2.filters d =
        if w.bond_ioctl_make.2.active_dev = some d then (w.filters w.bond.dev).on
          (if w.active_dev = some d then (w.filters w.bond.dev).off (w.filters d) else w.filters d)
        else if w.active_dev = some d then (w.filters w.bond.dev).off (w.filters d)
        else w.filters d := by
  obtain ⟨hnl, hne⟩ := h.toRing.passive_some hn
  have hol : o ∈ l := h.active o ho
  have hdevs : (w.slaves n).dev ≠ (w.slaves o).dev := by
    intro heq
    have hno : n = o := (h.distinct n hnl o hol heq.symm).symm
    exact hne (ho.trans (congrArg some hno.symm))
  have hbegun : Still w w.make_begun := (still_lock _ _ _).trans (still_lock _ _ _)
  have hground : w.make_begun.Grounded := h.grounded.still hbegun rfl rfl
  have hdone : Still (w.make_begun.bond_change_active_slave (some n)) w.bond_ioctl_make.2 := by
    rw [make_some hn]
    exact Still.of_shape rfl rfl rfl rfl
  have hactive : w.bond_ioctl_make.2.active_dev = some (w.slaves n).dev := by
    rw [hdone.active, change_active_dev hground.mode]
    rfl
  refine ⟨by rw [hactive]; exact fun heq => hdevs (Option.some.inj heq), fun d => ?_⟩
  have hleaves : w.make_begun.bond.curr_active_slave ≠ some n := hne
  have hfilters := change_active_filters hground.port hground.mode hleaves hground.foreign d
  rw [hdone.filters, hfilters, hactive, hbegun.active, hbegun.filters, hbegun.dev]
  rfl

namespace Master

theorem Orderly.make {m v : Master} {l : List SlaveId} (h : m.Orderly l) {o n : SlaveId}
    (ho : m.world.bond.curr_active_slave = some o) (hn : m.world.passive_slave = some n)
    (hv : m.step (.call .make) = some v) :
    Accounted m.others v l ∧ (∀ d, (v.world.filters d).Sound) ∧
      v.world.bond.dev = m.world.bond.dev ∧ v.own = m.own ∧
      v.world.active_dev ≠ some (m.world.slaves o).dev := by
  obtain rfl : ({ m with world := m.world.bond_ioctl_make.2 } : Master) = v := Option.some.inj hv
  obtain ⟨haway, hfilters⟩ := h.inv.make_devices ho hn
  have hswaps := h.inv.make_swaps
  obtain ⟨hdev, hown⟩ := hswaps.bond_filter
  have hown : ({ m with world := m.world.bond_ioctl_make.2 } : Master).own = m.own := hown
  refine ⟨?_, hswaps.kept.sound h.sound, hdev, hown, haway⟩
  refine
    { inv := h.inv.make, account := fun d hd => ?_, room := hdev ▸ h.room
      own := by rw [hown]; exact h.sound _
      saved := h.saved, present := fun _ => hswaps.held.1.trans h.present
      synced := fun _ => by rw [hown]; exact h.synced }
  have hd : d ≠ m.world.bond.dev := hdev ▸ hd
  have hnone : Holds (m.others d) m.own.settings false (m.others d) :=
    Holds.none (h.others_sound d).counted _
  refine Holds.congr ?_ h.synced.symm
  dsimp only
  rw [hfilters d]
  by_cases hact : m.world.bond_ioctl_make.2.active_dev = some d
  · rw [if_pos hact, decide_eq_true hact]
    exact hnone.on (h.room d hd) (h.sound _).counted.nodup
  · rw [if_neg hact, decide_eq_false hact]
    exact hnone

/-- From MAKE on, for as long as the active slave moves only while the bond is up or its saved
settings are its own, the slave that MAKE left listens on just while it is spared. -/
theorem old_slave_listens_iff {m : Master} {l : List SlaveId} (h : m.Orderly l) {o n : SlaveId}
    (ho : m.world.bond.curr_active_slave = some o) (hn : m.world.passive_slave = some n)
    {es : List RxEvent} (hc : Transition.Along Balanced step m (.call .make :: es)) :
    (∀ pre, pre <+: es → ∀ v, Transition.run step m (.call .make :: pre) = some v →
      StillListens m v (m.world.slaves o).dev) ↔
    (∀ pre, pre <+: es → ∀ v, Transition.run step m (.call .make :: pre) = some v →
      v.Spared (m.others (m.world.slaves o).dev) (m.world.slaves o).dev) := by
  obtain ⟨d, hd⟩ : ∃ d, d = (m.world.slaves o).dev := ⟨_, rfl⟩
  obtain ⟨u, hu⟩ : ∃ u, m.step (.call .make) = some u := ⟨_, rfl⟩
  obtain ⟨haccount, hsound, hdev, hown, haway⟩ := h.make ho hn hu
  rw [← hd] at haway ⊢
  have hforeign : d ≠ m.world.bond.dev := by
    rw [hd]
    exact h.inv.foreign o (h.inv.active o ho)
  have hbase : (m.others d).Sound := h.others_sound d
  -- what holds in every state from MAKE on
  have hrun : ∀ pre, pre <+: es → ∀ v, Transition.run step m (.call .make :: pre) = some v →
      (∃ k, Accounted m.others v k) ∧ (v.world.filters d).Sound ∧ d ≠ v.world.bond.dev := by
    intro pre hpre v hv
    obtain ⟨x, hx, hv⟩ := Transition.run_cons_some.mp hv
    obtain rfl : u = x := Option.some.inj (hu.symm.trans hx)
    obtain ⟨hacc, hdevs, hfilters⟩ :=
      haccount.run hsound (Transition.along_prefix (hc.2 u hu) hpre) hv
    exact ⟨hacc, hfilters d, (hdevs.trans hdev) ▸ hforeign⟩
  constructor
  · intro hlistens pre hpre v hv
    obtain ⟨⟨k, hk⟩, hvs, hvd⟩ := hrun pre hpre v hv
    exact (hk.listens_iff hvd hbase hvs).mp (hlistens pre hpre v hv).toListens
  · intro hspared pre hpre v hv
    obtain ⟨⟨k, hk⟩, hvs, hvd⟩ := hrun pre hpre v hv
    have hmade : u.Spared (m.others d) d :=
      hspared [] List.nil_prefix u (Transition.run_cons_some.mpr ⟨u, hu, rfl⟩)
    have hfrom : m.world.active_dev = some d := by
      unfold World.active_dev
      rw [ho, hd]
      rfl
    have hothers : m.others d = m.own.off (m.world.filters d) := if_pos hfrom
    have hbefore : (m.world.filters d).Wider (m.others d) := by
      rw [hothers] at hmade ⊢
      exact hmade.wider haway hown (h.sound d) (h.sound _).counted.nodup
    have hafter := (hk.account d hvd).wider hbase hvs
    exact ⟨(hk.listens_iff hvd hbase hvs).mpr (hspared pre hpre v hv),
      fun own dst => (hbefore.trans hafter).accepts⟩

end Master

end

def group_joined : List RxEvent :=
  [.call .open_bond, .call (.enslave (.plain 0) 1), .call (.enslave (.plain 1) 2),
    .set_promiscuity true, .mc_add joined]

/-- After MAKE the old slave drops the frames of the bond's group, and with the promiscuity
those to other hosts. -/
theorem old_slave_stops_listening :
    ∃ m v, Transition.run (@Master.step noSiblings) (machine.bond_master 0 hoolock_params)
        group_joined = some m ∧
      m.dev.iff_up = true ∧ m.world.bond.buffer_mode = 0 ∧
      m.world.bond.curr_active_slave = some 0 ∧ m.world.passive_slave = some 1 ∧
      (m.world.slaves 0).dev = 1 ∧ @Master.step noSiblings m (.call .make) = some v ∧
      (m.world.filters 1).accepts (m.world.devs 1).dev_addr joined = true ∧
      (v.world.filters 1).accepts (m.world.devs 1).dev_addr joined = false ∧
      ¬ Master.StillListens m v 1 := by
  have hrun : (Transition.run (@Master.step noSiblings) (machine.bond_master 0 hoolock_params)
      group_joined).any (fun m => m.dev.iff_up && m.world.bond.buffer_mode == 0 &&
        m.world.bond.curr_active_slave == some 0 && m.world.passive_slave == some 1 &&
        (m.world.slaves 0).dev == 1 &&
        (m.world.filters 1).accepts (m.world.devs 1).dev_addr joined &&
        (@Master.step noSiblings m (.call .make)).any fun v =>
          !(v.world.filters 1).accepts (m.world.devs 1).dev_addr joined) = true := by
    decide +kernel
  obtain ⟨m, hm, hcond⟩ := (Option.any_eq_true _ _).mp hrun
  simp only [Bool.and_eq_true, beq_iff_eq] at hcond
  obtain ⟨⟨⟨⟨⟨⟨hup, hbuffer⟩, hact⟩, hpassive⟩, hdev⟩, hbefore⟩, hmake⟩ := hcond
  obtain ⟨v, hv, hafter⟩ := (Option.any_eq_true _ _).mp hmake
  rw [Bool.not_eq_true'] at hafter
  refine ⟨m, v, hm, hup, hbuffer, hact, hpassive, hdev, hv, hbefore, hafter, fun hstill => ?_⟩
  have hkeeps := hstill.accepts _ _ hbefore
  rw [hafter] at hkeeps
  cases hkeeps

/-- The machine with the first card in the group and promiscuous on its own account. -/
def spare_machine : World :=
  machine.setDev 1 fun dev =>
    { dev with mc_list := [⟨joined, 1⟩], iff_promisc := true, promiscuity := 1 }

/-- The group is left and joined again, and another one joined when the first card is active
once more. -/
def meanwhile : List RxEvent :=
  [.mc_delete joined, .mc_add joined, .call (.change_active 1),
    .mc_add [0x01, 0x00, 0x5e, 0x00, 0x00, 0x16]]

theorem spare_machine_host : spare_machine.Host 0 where
  port := rfl
  master d := by
    have hmaster := machine_host.master d
    unfold spare_machine World.setDev
    dsimp only
    split_ifs <;> exact hmaster
  handlers := machine_host.handlers

theorem spare_machine_filters (d : DevId) : spare_machine.filters d =
    if d = 1 then ⟨true, 1, false, 0, [⟨joined, 1⟩]⟩ else ⟨false, 0, false, 0, []⟩ := by
  unfold World.filters spare_machine World.setDev machine
  dsimp only
  split_ifs <;> rfl

theorem spare_machine_sound (d : DevId) : (spare_machine.filters d).Sound := by
  rw [spare_machine_filters]
  split_ifs
  · refine ⟨⟨List.nodup_singleton _, fun da hda => ?_⟩, rfl, rfl⟩
    rw [List.mem_singleton] at hda
    subst hda
    decide
  · exact ⟨Counted.nil, rfl, rfl⟩

theorem spare_card_listens :
    ∃ m, Transition.run (@Master.step noSiblings) (spare_machine.bond_master 0 hoolock_params)
        group_joined = some m ∧
      m.world.bond.curr_active_slave = some 0 ∧ m.world.passive_slave = some 1 ∧
      (m.world.slaves 0).dev = 1 ∧
      ((∀ pre, pre <+: meanwhile → ∀ v,
        Transition.run (@Master.step noSiblings) m (.call .make :: pre) = some v →
          Master.StillListens m v (m.world.slaves 0).dev) ↔
        (∀ pre, pre <+: meanwhile → ∀ v,
          Transition.run (@Master.step noSiblings) m (.call .make :: pre) = some v →
            v.Spared (m.others (m.world.slaves 0).dev) (m.world.slaves 0).dev)) ∧
      ∀ pre, pre <+: meanwhile → ∀ v,
        Transition.run (@Master.step noSiblings) m (.call .make :: pre) = some v →
          v.Spared (m.others (m.world.slaves 0).dev) (m.world.slaves 0).dev := by
  have hrun : (Transition.run (@Master.step noSiblings)
      (spare_machine.bond_master 0 hoolock_params) group_joined).any (fun m =>
        m.dev.iff_up && m.world.bond.curr_active_slave == some 0 &&
        m.world.passive_slave == some 1 && (m.world.slaves 0).dev == 1 &&
        Transition.checks Master.opened (@Master.step noSiblings) m (.call .make :: meanwhile) &&
        meanwhile.inits.all fun pre =>
          (Transition.run (@Master.step noSiblings) m (.call .make :: pre)).all fun v =>
            decide (v.Spared (m.others (m.world.slaves 0).dev) (m.world.slaves 0).dev)) = true := by
    decide +kernel
  obtain ⟨m, hm, hcond⟩ := (Option.any_eq_true _ _).mp hrun
  simp only [Bool.and_eq_true, beq_iff_eq] at hcond
  obtain ⟨⟨⟨⟨⟨hup, hact⟩, hpassive⟩, hdev⟩, hchecks⟩, hspared⟩ := hcond
  have hc : Transition.Along (@Master.Balanced noSiblings) (@Master.step noSiblings)
      (spare_machine.bond_master 0 hoolock_params) group_joined :=
    Transition.along_of_checks (@Master.balanced_of_opened noSiblings) (by decide +kernel)
  obtain ⟨l, hl⟩ := @World.Host.orderly noSiblings spare_machine 0 spare_machine_host
    hoolock_params rfl spare_machine_sound rfl (fun d _ => by
      rw [spare_machine_filters]
      split_ifs <;> exact ⟨by decide, by decide⟩) _ m hc hm hup
  refine ⟨m, hm, hact, hpassive, hdev, @Master.old_slave_listens_iff noSiblings m l hl 0 1 hact
    hpassive meanwhile (Transition.along_of_checks (@Master.balanced_of_opened noSiblings) hchecks),
    fun pre hpre v hv => ?_⟩
  have hpre := List.all_eq_true.mp hspared pre ((List.mem_inits pre meanwhile).mpr hpre)
  rw [hv] at hpre
  exact of_decide_eq_true hpre

end Hoolock
