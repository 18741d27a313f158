import Hoolock.FilterAccount

/-!
The account of the bond's references over whole runs: the settings may change at any time, the
active slave only while the bond is up or while nothing has changed since it went down.
-/

set_option autoImplicit false

namespace Hoolock

/-- A filter as `dev.c` keeps it: each flag is set just when its counter is not zero. -/
structure RxFilter.Sound (f : RxFilter) : Prop where
  counted : Counted f.mc_list
  promisc : f.iff_promisc = (f.promiscuity != 0)
  allmulti : f.iff_allmulti = (f.allmulti != 0)

theorem countedFlag_sound (on : Bool) (count : BitVec 32) :
    (countedFlag .k27 (if on then 1 else -1) count).2.1 =
      ((countedFlag .k27 (if on then 1 else -1) count).2.2 != 0) := by
  cases on with
  | true =>
    simp only [if_true, countedFlag_up]
    refine (bne_iff_ne.mpr ?_).symm
    split_ifs with hroof
    · rintro rfl
      exact absurd hroof (by decide)
    · exact hroof
  | false =>
    simp only [Bool.false_eq_true, if_false, countedFlag_down]
    have hiff : count - 1 = 0 ↔ count = 1 := by
      rw [BitVec.sub_eq_iff_eq_add]
      simp
    by_cases hone : count = 1
    · simp [hone]
    · rw [bne_iff_ne.mpr hone, bne_iff_ne.mpr (mt hiff.mp hone)]

theorem countedFlag_fails {on : Bool} {count : BitVec 32}
    (h : (countedFlag .k27 (if on then 1 else -1) count).1 < 0) :
    (countedFlag .k27 (if on then 1 else -1) count).2.1 = (count != 0) := by
  cases on with
  | true =>
    have hroof : count ≠ 0 := by
      rintro rfl
      exact absurd h (by decide)
    simp only [if_true, countedFlag_up]
    exact (bne_iff_ne.mpr hroof).symm
  | false =>
    have hzero : (countedFlag .k27 (-1) count).1 = 0 := by
      rw [countedFlag_k27]
      split_ifs <;> first | rfl | omega
    simp only [Bool.false_eq_true, if_false] at h
    omega

theorem RxFilter.Sound.promiscBy {f : RxFilter} (h : f.Sound) (set on : Bool) :
    (f.promiscBy set (if on then 1 else -1)).Sound := by
  cases set with
  | false => exact h
  | true => exact ⟨h.counted, countedFlag_sound on _, h.allmulti⟩

theorem RxFilter.Sound.allmultiBy {f : RxFilter} (h : f.Sound) (set on : Bool) :
    (f.allmultiBy set (if on then 1 else -1)).Sound := by
  cases set with
  | false => exact h
  | true => exact ⟨h.counted, h.promisc, countedFlag_sound on _⟩

/-- Each device holds its own references `base` and the active slave's one more for each of
the saved settings. -/
structure Tracked (base : DevId → RxFilter) (m : Master) (l : List SlaveId) : Prop where
  inv : m.world.Inv l
  account : m.world.Account base m.saved
  room : ∀ d, d ≠ m.world.bond.dev → (base d).room
  own : m.own.Sound
  saved : (addrs m.mc_list).Nodup
  present : m.dev.iff_up = true → m.dev.present = true

/-- While the bond is up the saved settings are its own. -/
structure Accounted (base : DevId → RxFilter) (m : Master) (l : List SlaveId) : Prop
    extends Tracked base m l where
  synced : m.dev.iff_up = true → m.saved.Agrees m.own.settings

namespace World

theorem Account.congr {base : DevId → RxFilter} {s t : Settings} {w : World}
    (h : Account base s w) (hst : s.Agrees t) : Account base t w :=
  fun d hd => (h d hd).congr hst

theorem filters_setDev_other (w : World) {e d : DevId} (f : NetDevice → NetDevice) (hd : d ≠ e) :
    (w.setDev e f).filters d = w.filters d := by
  rw [filters_setDev, if_neg hd]

theorem filters_setDev_self (w : World) (e : DevId) (f : NetDevice → NetDevice) :
    (w.setDev e f).filters e = (f (w.devs e)).filter := by
  rw [filters_setDev, if_pos rfl]

theorem open_bond_present (w : World) :
    (w.open_bond.devs w.open_bond.bond.dev).present = w.bond_dev.present := by
  unfold open_bond bond_open bond_register_hoolock
  dsimp only
  split_ifs <;> simp [setDev, setBond, bond_dev]

theorem close_bond_down (w : World) :
    (w.close_bond.devs w.close_bond.bond.dev).iff_up = false := by
  unfold close_bond bond_close bond_unregister_hoolock
  dsimp only
  split_ifs with hdown
  · simpa [bond_dev] using hdown
  · simp [setDev, setBond, lock, unlock]
  · simp [setDev, setBond, lock, unlock]

variable [Siblings]

theorem Inv.free_all_down {w : World} {l : List SlaveId} (h : w.Inv l) :
    (w.bond_free_all.devs w.bond_free_all.bond.dev).iff_up = false := by
  have hkill : ((w.lock .bond .write).setBond fun b => { b with kill_timers := true }).Inv l :=
    (h.lock .bond .write).congr_pointers rfl rfl
  have hinv := (hkill.unlock .bond .write).release_all.1.close_bond
  exact hinv.release_all_swaps.held.2 (close_bond_down _)

end World

theorem Tracked.setDev {base : DevId → RxFilter} {m : Master} {l : List SlaveId}
    (h : Tracked base m l) {f : NetDevice → NetDevice}
    (hf : ∀ dev, (f dev).sansFilter = dev.sansFilter) (hs : (f m.dev).filter.Sound) :
    Tracked base (m.setDev f) l := by
  have howner : ∀ dev : NetDevice, (f dev).owner = dev.owner :=
    fun dev => NetDevice.same_owner (hf dev)
  have hself : (m.setDev f).own = (f m.dev).filter := World.filters_setDev_self _ _ _
  have hdev := m.dev_setDev f
  obtain ⟨hup, hpresent⟩ := NetDevice.same_state (hf m.dev)
  refine
    { inv := h.inv.congr_pointers (World.base_setDev _ _ _ howner) rfl
      account := fun d hd => ?_, room := h.room, own := hself ▸ hs, saved := h.saved
      present := ?_ }
  · have hother := World.filters_setDev_other m.world f hd
    change Holds (base d) m.saved (decide (m.world.active_dev = some d)) _
    exact hother ▸ h.account d hd
  · rw [hdev, hup, hpresent]
    exact h.present

theorem Tracked.set_unicast {base : DevId → RxFilter} {m : Master} {l : List SlaveId}
    (h : Tracked base m l) : Tracked base m.set_unicast l := by
  have hpromisc : ∀ on : Bool, Tracked base (m.setDev fun dev =>
      (dev_set_promiscuity m.world.port (if on then 1 else -1) dev).2) l := by
    intro on
    refine h.setDev (fun _ => rfl) ?_
    rw [h.inv.port]
    exact h.own.promiscBy true on
  have hflag : ∀ (n : Master) (b : Bool), Tracked base n l → Tracked base { n with uc_promisc := b } l :=
    fun _ _ hn => ⟨hn.inv, hn.account, hn.room, hn.own, hn.saved, hn.present⟩
  unfold Master.set_unicast
  split_ifs
  · exact hflag _ true (hpromisc true)
  · exact hflag _ false (hpromisc false)
  · exact h

theorem Tracked.set_multicast_list {base : DevId → RxFilter} {m : Master} {l : List SlaveId}
    (h : Tracked base m l) : Accounted base m.bond_set_multicast_list l := by
  obtain ⟨htuned, hsaved⟩ := Master.set_multicast_list_spec h.inv.grounded
  obtain ⟨n, hn⟩ : ∃ n, n = m.bond_set_multicast_list := ⟨_, rfl⟩
  rw [← hn] at htuned hsaved ⊢
  have hown : n.own = m.own := htuned.own h.inv.grounded
  have hbond : n.world.bond = m.world.bond := htuned.bond
  have hagree : n.saved.Agrees m.own.settings := by
    rw [hsaved]
    unfold Settings.Agrees RxFilter.settings addrs
    simp
  obtain ⟨hup, hpresent⟩ := NetDevice.same_state (htuned.devs m.world.bond.dev)
  refine
    { inv := ?_, account := fun d hd => ?_, room := hbond ▸ h.room, own := hown ▸ h.own
      saved := ?_, present := ?_, synced := fun _ => hown ▸ hagree }
  · exact h.inv.congr_pointers htuned.base (by unfold World.pointers; rw [hbond])
  · rw [hbond] at hd
    have hheld := h.account d hd
    refine Holds.congr ?_ hagree.symm
    rw [htuned.filters, htuned.active]
    by_cases hact : m.world.active_dev = some d
    · rw [decide_eq_true hact] at hheld ⊢
      rw [if_pos hact]
      exact hheld.resync (h.room d hd) h.own.counted.nodup h.saved
    · rw [decide_eq_false hact] at hheld ⊢
      rw [if_neg hact]
      exact hheld.away _
  · have hlist : n.mc_list = m.own.mc_list.reverse := congrArg Settings.mc_list hsaved
    rw [hlist, addrs, List.map_reverse]
    exact List.nodup_reverse.mpr h.own.counted.nodup
  · unfold Master.dev World.bond_dev
    rw [hbond, hup, hpresent]
    exact h.present

theorem Tracked.set_rx_mode {base : DevId → RxFilter} {m : Master} {l : List SlaveId}
    (h : Tracked base m l) : Accounted base m.dev_set_rx_mode l := by
  unfold Master.dev_set_rx_mode
  split_ifs with hdown hgone
  · refine { toTracked := h, synced := fun hup => ?_ }
    simp [hup] at hdown
  · have hhere := h.present (by simpa using hdown)
    simp [hhere] at hgone
  · exact h.set_unicast.set_multicast_list

theorem Accounted.same {base : DevId → RxFilter} {m n : Master} {l : List SlaveId}
    (h : Accounted base m l) (k : Tracked base n l) (hup : n.dev.iff_up = m.dev.iff_up)
    (hs : n.saved = m.saved) (ho : n.own.settings = m.own.settings) : Accounted base n l := by
  refine { toTracked := k, synced := fun hn => ?_ }
  rw [hs, ho]
  exact h.synced (hup ▸ hn)

/-- A call for one of the bond's own counters: `dev_set_rx_mode` follows when its flag has
changed. -/
theorem Accounted.counter {base : DevId → RxFilter} {m : Master} {l : List SlaveId}
    (h : Accounted base m l) {f : NetDevice → NetDevice}
    (hf : ∀ dev, (f dev).sansFilter = dev.sansFilter) (hs : (f m.dev).filter.Sound)
    {r : Int} {g : NetDevice → Bool}
    (hsame : g (f m.dev) = g m.dev → (f m.dev).filter.settings = m.own.settings)
    (herr : r < 0 → g (f m.dev) = g m.dev) :
    Accounted base (if r < 0 then m.setDev f
      else if g (m.setDev f).dev ≠ g m.dev then (m.setDev f).dev_set_rx_mode
      else m.setDev f) l := by
  have hdev := m.dev_setDev f
  have hself : (m.setDev f).own = (f m.dev).filter := World.filters_setDev_self _ _ _
  obtain ⟨hup, _⟩ := NetDevice.same_state (hf m.dev)
  have htracked := h.toTracked.setDev hf hs
  have hkept : g (f m.dev) = g m.dev → Accounted base (m.setDev f) l := by
    intro hflag
    refine h.same htracked ?_ rfl ?_
    · rw [hdev, hup]
    · rw [hself]
      exact hsame hflag
  rw [hdev]
  split_ifs with hneg hchanged
  · exact hkept (herr hneg)
  · exact htracked.set_rx_mode
  · exact hkept (not_not.mp hchanged)

theorem Accounted.set_promiscuity {base : DevId → RxFilter} {m : Master} {l : List SlaveId}
    (h : Accounted base m l) (on : Bool) :
    Accounted base (m.dev_set_promiscuity (if on then 1 else -1)) l := by
  have hport := h.inv.port
  refine h.counter (f := fun dev => (dev_set_promiscuity m.world.port (if on then 1 else -1) dev).2)
    (r := (dev_set_promiscuity m.world.port (if on then 1 else -1) m.dev).1)
    (g := NetDevice.iff_promisc) (fun _ => rfl) ?_ (fun hflag => ?_) fun herr => ?_
  · rw [hport]
    exact h.own.promiscBy true on
  · exact congrArg (fun b => Settings.mk b m.dev.iff_allmulti m.dev.mc_list) hflag
  · rw [hport] at herr ⊢
    exact (countedFlag_fails herr).trans h.own.promisc.symm

theorem Accounted.set_allmulti {base : DevId → RxFilter} {m : Master} {l : List SlaveId}
    (h : Accounted base m l) (on : Bool) :
    Accounted base (m.dev_set_allmulti (if on then 1 else -1)) l := by
  have hport := h.inv.port
  refine h.counter (f := fun dev => (dev_set_allmulti m.world.port (if on then 1 else -1) dev).2)
    (r := (dev_set_allmulti m.world.port (if on then 1 else -1) m.dev).1)
    (g := NetDevice.iff_allmulti) (fun _ => rfl) ?_ (fun hflag => ?_) fun herr => ?_
  · rw [hport]
    exact h.own.allmultiBy true on
  · exact congrArg (fun b => Settings.mk m.dev.iff_promisc b m.dev.mc_list) hflag
  · rw [hport] at herr ⊢
    exact (countedFlag_fails herr).trans h.own.allmulti.symm

theorem Accounted.mc_add {base : DevId → RxFilter} {m : Master} {l : List SlaveId}
    (h : Accounted base m l) (addr : HwAddr) : Accounted base (m.dev_mc_add addr) l :=
  (h.setDev (f := dev_mc_add addr) (fun _ => rfl)
    ⟨h.own.counted.add addr, h.own.promisc, h.own.allmulti⟩).set_rx_mode

theorem Accounted.mc_delete {base : DevId → RxFilter} {m : Master} {l : List SlaveId}
    (h : Accounted base m l) (addr : HwAddr) : Accounted base (m.dev_mc_delete addr) l := by
  unfold Master.dev_mc_delete
  split_ifs
  · exact (h.setDev (f := dev_mc_delete addr) (fun _ => rfl)
      ⟨h.own.counted.delete addr, h.own.promisc, h.own.allmulti⟩).set_rx_mode
  · exact h

theorem Tracked.unicast {base : DevId → RxFilter} {m : Master} {l : List SlaveId}
    (h : Tracked base m l) (list : List DevAddr) : Tracked base { m with uc_list := list } l :=
  ⟨h.inv, h.account, h.room, h.own, h.saved, h.present⟩

theorem Tracked.opened {base : DevId → RxFilter} {m : Master} {l : List SlaveId}
    (h : Tracked base m l) (hhere : m.dev.present = true) :
    Tracked base { m with world := m.world.open_bond } l := by
  have hopen := World.unmoved_open_bond m.world
  have hown : m.world.open_bond.filters m.world.open_bond.bond.dev = m.own := by
    rw [hopen.filters, hopen.dev]
    rfl
  have hpresent : (m.world.open_bond.devs m.world.open_bond.bond.dev).present = true :=
    (World.open_bond_present m.world).trans hhere
  exact
    { inv := h.inv.open_bond, account := h.account.still hopen
      room := by rw [hopen.dev]; exact h.room
      own := by unfold Master.own; rw [hown]; exact h.own
      saved := h.saved, present := fun _ => hpresent }

theorem Accounted.open_bond {base : DevId → RxFilter} {m : Master} {l : List SlaveId}
    (h : Accounted base m l) : Accounted base m.dev_open l := by
  unfold Master.dev_open
  split_ifs with hup hgone
  · exact h
  · exact h
  · have hhere : m.dev.present = true := by simpa using hgone
    exact (h.opened hhere).set_rx_mode

/-- A step of the source that keeps both mechanisms in agreement: the active slave changes while
the bond is up, or while the saved settings are still those of the bond. -/
def Master.Balanced [Siblings] (m : Master) : RxEvent → Prop
  | .call e => m.dev.iff_up = true ∨ m.saved.Agrees m.own.settings ∨ ¬ m.world.Moves e
  | _ => True

/-- Every call but the opening of the bond is made while it is up. -/
def Master.opened (m : Master) : RxEvent → Bool
  | .call .open_bond => true
  | .call _ => m.dev.iff_up
  | _ => true

variable [Siblings]

theorem Master.balanced_of_opened (m : Master) (r : RxEvent) (h : m.opened r = true) :
    m.Balanced r := by
  cases r with
  | call e => cases e <;> first | exact Or.inl h | exact Or.inr (Or.inr id)
  | _ => trivial

theorem Accounted.moves {base : DevId → RxFilter} {m : Master} {l : List SlaveId}
    (h : Accounted base m l) {e : Event} (he : e ≠ .open_bond) (hc : m.Balanced (.call e))
    {v : World} (hv : m.world.step e = some v) :
    ∃ k, Accounted base { m with world := v } k := by
  obtain ⟨k, hk⟩ := h.inv.step hv
  have hswaps := h.inv.step_swaps he hv
  obtain ⟨hdev, hown⟩ := hswaps.bond_filter
  obtain ⟨hpresent, hdown⟩ := hswaps.held
  have hup : (v.devs v.bond.dev).iff_up = true → m.dev.iff_up = true := by
    intro hv
    by_contra hw
    have hoff := hdown (Bool.eq_false_iff.mpr hw)
    rw [hoff] at hv
    cases hv
  have haccount : v.Account base m.saved := by
    by_cases hagree : m.saved.Agrees m.own.settings
    · have hmoved := hswaps.account h.room h.own.counted.nodup (h.account.congr hagree)
      exact hmoved.congr hagree.symm
    · have hoff : m.dev.iff_up ≠ true := fun hon => hagree (h.synced hon)
      have hstays : ¬ m.world.Moves e := (hc.resolve_left hoff).resolve_left hagree
      exact h.account.still (hswaps.is_still hstays).toUnmoved
  refine ⟨k,
    { inv := hk, account := haccount, room := hdev ▸ h.room, own := ?_, saved := h.saved
      present := fun hv => hpresent.trans (h.present (hup hv))
      synced := fun hv => ?_ }⟩
  · exact (congrArg RxFilter.Sound hown).mpr h.own
  · have hsame : ({ m with world := v } : Master).own = m.own := hown
    rw [hsame]
    exact h.synced (hup hv)

theorem Master.call_other {m : Master} {e : Event} (hopen : e ≠ .open_bond) (hfree : e ≠ .free_all) :
    m.call e = (m.world.step e).map fun world => { m with world } := by
  cases e <;> first | rfl | contradiction

theorem Accounted.call {base : DevId → RxFilter} {m n : Master} {l : List SlaveId}
    (h : Accounted base m l) {e : Event} (hc : m.Balanced (.call e)) (hn : m.call e = some n) :
    ∃ k, Accounted base n k := by
  by_cases hopen : e = .open_bond
  · subst hopen
    obtain rfl : m.dev_open = n := Option.some.inj hn
    exact ⟨l, h.open_bond⟩
  by_cases hfree : e = .free_all
  · subst hfree
    obtain rfl : ({ m with world := m.world.bond_free_all, mc_list := [] } : Master) = n :=
      Option.some.inj hn
    obtain ⟨k, hk⟩ := h.moves hopen hc (v := m.world.bond_free_all) rfl
    obtain ⟨-, hnone⟩ := h.inv.free_all
    have hdown := h.inv.free_all_down
    have hnobody : m.world.bond_free_all.active_dev = none := by
      unfold World.active_dev
      rw [hnone]
      rfl
    refine ⟨k,
      { inv := hk.inv, account := fun d hd => ?_, room := hk.room, own := hk.own
        saved := List.nodup_nil, present := hk.present, synced := fun hup => ?_ }⟩
    · have hheld := hk.account d hd
      dsimp only at hheld ⊢
      rw [hnobody] at hheld ⊢
      exact hheld.away _
    · have hup : m.world.bond_free_all.bond_dev.iff_up = true := hup
      rw [World.bond_dev, hdown] at hup
      cases hup
  · rw [Master.call_other hopen hfree] at hn
    obtain ⟨v, hv, rfl⟩ := Option.map_eq_some_iff.mp hn
    exact h.moves hopen hc hv

theorem Accounted.step {base : DevId → RxFilter} {m n : Master} {l : List SlaveId}
    (h : Accounted base m l) {r : RxEvent} (hc : m.Balanced r) (hn : m.step r = some n) :
    ∃ k, Accounted base n k := by
  cases r with
  | call e => exact h.call hc hn
  | set_promiscuity on =>
    cases hn
    exact ⟨l, h.set_promiscuity on⟩
  | set_allmulti on =>
    cases hn
    exact ⟨l, h.set_allmulti on⟩
  | mc_add addr =>
    cases hn
    exact ⟨l, h.mc_add addr⟩
  | mc_delete addr =>
    cases hn
    exact ⟨l, h.mc_delete addr⟩
  | unicast_add addr =>
    cases hn
    exact ⟨l, (h.unicast _).set_rx_mode⟩
  | unicast_delete addr =>
    cases hn
    refine ⟨l, ?_⟩
    unfold Master.dev_unicast_delete
    split_ifs
    · exact (h.unicast _).set_rx_mode
    · exact h
  | set_rx_mode =>
    cases hn
    exact ⟨l, h.set_rx_mode⟩

omit [Siblings] in
theorem World.filters_bond_init (w : World) (bond_dev : DevId) (params : Params) :
    (w.bond_init bond_dev params).filters = w.filters := by
  funext d
  unfold bond_init setFeatures filters setDev
  dsimp only
  split_ifs <;> rfl

omit [Siblings] in
theorem World.Host.accounted {w : World} {bond_dev : DevId} (h : w.Host bond_dev)
    {params : Params} (hm : params.mode = .hoolock) (hown : (w.filters bond_dev).Sound)
    (hdown : (w.devs bond_dev).iff_up = false)
    (hdevs : ∀ d, d ≠ bond_dev → Counted (w.filters d).mc_list ∧ (w.filters d).room) :
    Accounted w.filters (w.bond_master bond_dev params) [] := by
  have hfilters := w.filters_bond_init bond_dev params
  have hoff : (w.bond_master bond_dev params).dev.iff_up = false := by
    unfold Master.dev bond_master bond_init setFeatures World.bond_dev setDev
    simpa using hdown
  refine
    { inv := h.inv hm, account := fun d hd => ?_, room := fun d hd => (hdevs d hd).2
      own := ?_, saved := List.nodup_nil, present := fun hup => ?_, synced := fun hup => ?_ }
  · have hnobody : (w.bond_init bond_dev params).active_dev = none := rfl
    have hfd : (w.bond_init bond_dev params).filters d = w.filters d := congrFun hfilters d
    change Holds _ _ (decide ((w.bond_init bond_dev params).active_dev = some d))
      ((w.bond_init bond_dev params).filters d)
    rw [hnobody, hfd]
    exact ⟨(hdevs d hd).1, rfl, rfl, fun a => rfl⟩
  · exact (congrArg RxFilter.Sound (congrFun hfilters bond_dev)).mpr hown
  · rw [hoff] at hup
    cases hup
  · rw [hoff] at hup
    cases hup

/-- While the active slave changes only when the saved settings are the bond's, every device
but the active slave's holds its own references alone, and that one holds exactly one more for
each flag and each address of the bond. -/
theorem World.Host.filter_account {w : World} {bond_dev : DevId} (h : w.Host bond_dev)
    {params : Params} (hm : params.mode = .hoolock) (hown : (w.filters bond_dev).Sound)
    (hdown : (w.devs bond_dev).iff_up = false)
    (hdevs : ∀ d, d ≠ bond_dev → Counted (w.filters d).mc_list ∧ (w.filters d).room)
    {es : List RxEvent} {m : Master}
    (hc : Transition.Along Master.Balanced Master.step (w.bond_master bond_dev params) es)
    (hv : Transition.run Master.step (w.bond_master bond_dev params) es = some m)
    (hup : m.dev.iff_up = true) :
    ∀ d, d ≠ m.world.bond.dev → Holds (w.filters d) m.own.settings
      (decide (m.world.active_dev = some d)) (m.world.filters d) := by
  obtain ⟨l, hl⟩ : ∃ l, Accounted w.filters m l := Transition.run_invariant_along
    (C := Master.Balanced) (fun n => ∃ l, Accounted w.filters n l)
    (fun _ _ _ hi hcond hs => hi.choose_spec.step hcond hs) hv hc
    ⟨[], h.accounted hm hown hdown hdevs⟩
  intro d hd
  exact (hl.account d hd).congr (hl.synced hup)

omit [Siblings] in
/-- The bond is made promiscuous and given a card while it is down: when it is opened the card
is given the reference that it has already. -/
theorem promiscuity_counted_twice :
    ∃ m, Transition.run (@Master.step noSiblings) (machine.bond_master 0 hoolock_params)
        [.set_promiscuity true, .call (.enslave (.plain 0) 1), .call .open_bond] = some m ∧
      m.dev.iff_up = true ∧ m.world.bond.buffer_mode = 0 ∧ m.world.bond.dev = 0 ∧
      m.world.active_dev = some 1 ∧ (machine.filters 1).promiscuity = 0 ∧
      (m.world.filters 1).promiscuity = 2 ∧
      ¬ (∀ d, d ≠ m.world.bond.dev → Holds (machine.filters d) m.own.settings
        (decide (m.world.active_dev = some d)) (m.world.filters d)) := by
  have hrun : (Transition.run (@Master.step noSiblings) (machine.bond_master 0 hoolock_params)
      [.set_promiscuity true, .call (.enslave (.plain 0) 1), .call .open_bond]).any (fun m =>
        m.dev.iff_up && m.world.bond.buffer_mode == 0 && m.world.bond.dev == 0 &&
        m.world.active_dev == some 1 && (m.world.filters 1).promiscuity == 2) = true := by
    decide +kernel
  obtain ⟨m, hm, hcond⟩ := (Option.any_eq_true _ _).mp hrun
  simp only [Bool.and_eq_true, beq_iff_eq] at hcond
  obtain ⟨⟨⟨⟨hup, hbuffer⟩, hdev⟩, hact⟩, htwo⟩ := hcond
  refine ⟨m, hm, hup, hbuffer, hdev, hact, rfl, htwo, fun hall => ?_⟩
  have hheld := (hall 1 (by rw [hdev]; decide)).promiscuity
  have hbase : (machine.filters 1).promiscuity = 0 := rfl
  rw [htwo, hbase] at hheld
  cases hset : (decide (m.world.active_dev = some 1) && m.own.settings.promisc) <;>
    simp [hset] at hheld

def joined : HwAddr := [0x01, 0x00, 0x5e, 0x00, 0x00, 0xfb]

def tuned_in : List RxEvent :=
  [.call .open_bond, .call (.enslave (.plain 0) 1), .call (.enslave (.plain 1) 2),
    .set_promiscuity true, .mc_add joined, .call .make, .call (.brk fun _ => .plain)]

omit [Siblings] in
theorem handover_takes_settings_along :
    ∃ m, Transition.run (@Master.step noSiblings) (machine.bond_master 0 hoolock_params) tuned_in =
        some m ∧ m.world.active_dev = some 2 ∧ m.own.settings.promisc = true ∧
      ∀ d, d ≠ m.world.bond.dev → Holds (machine.filters d) m.own.settings
        (decide (m.world.active_dev = some d)) (m.world.filters d) := by
  have hnone : ∀ d, machine.filters d = ⟨false, 0, false, 0, []⟩ := by
    intro d
    unfold World.filters machine
    dsimp only
    split_ifs <;> rfl
  have hc : Transition.Along (@Master.Balanced noSiblings) (@Master.step noSiblings)
      (machine.bond_master 0 hoolock_params) tuned_in :=
    Transition.along_of_checks (@Master.balanced_of_opened noSiblings) (by decide +kernel)
  have hrun : (Transition.run (@Master.step noSiblings) (machine.bond_master 0 hoolock_params)
      tuned_in).any (fun m => m.dev.iff_up && m.world.active_dev == some 2 &&
        m.own.settings.promisc) = true := by
    decide +kernel
  obtain ⟨m, hm, hcond⟩ := (Option.any_eq_true _ _).mp hrun
  simp only [Bool.and_eq_true, beq_iff_eq] at hcond
  obtain ⟨⟨hup, hact⟩, hpromisc⟩ := hcond
  refine ⟨m, hm, hact, hpromisc, @World.Host.filter_account noSiblings machine 0 machine_host
    hoolock_params rfl ?_ rfl (fun d _ => ?_) _ m hc hm hup⟩
  · rw [hnone]
    exact ⟨Counted.nil, rfl, rfl⟩
  · rw [hnone]
    exact ⟨Counted.nil, by decide, by decide⟩

end Hoolock
