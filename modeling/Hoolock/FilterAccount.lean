import Hoolock.MulticastList

/-!
The references that the bond holds on its slaves' devices: two mechanisms take and give them
back, and they agree as long as the saved settings are those of the bond.
-/

set_option autoImplicit false

namespace Hoolock

def Settings.Agrees (s t : Settings) : Prop :=
  s.promisc = t.promisc ∧ s.allmulti = t.allmulti ∧
    (∀ a ∈ addrs s.mc_list, a ∈ addrs t.mc_list) ∧ ∀ a ∈ addrs t.mc_list, a ∈ addrs s.mc_list

instance (s t : Settings) : Decidable (s.Agrees t) :=
  inferInstanceAs (Decidable (_ ∧ _ ∧ (∀ a ∈ addrs s.mc_list, a ∈ addrs t.mc_list) ∧
    ∀ a ∈ addrs t.mc_list, a ∈ addrs s.mc_list))

theorem Settings.Agrees.symm {s t : Settings} (h : s.Agrees t) : t.Agrees s :=
  ⟨h.1.symm, h.2.1.symm, h.2.2.2, h.2.2.1⟩

theorem Settings.Agrees.mem_iff {s t : Settings} (h : s.Agrees t) (a : HwAddr) :
    a ∈ addrs s.mc_list ↔ a ∈ addrs t.mc_list :=
  ⟨h.2.2.1 a, h.2.2.2 a⟩

theorem Holds.congr {base f : RxFilter} {s t : Settings} {here : Bool} (h : Holds base s here f)
    (hst : s.Agrees t) : Holds base t here f := by
  refine ⟨h.counted, ?_, ?_, fun a => ?_⟩
  · rw [h.promiscuity, hst.1]
  · rw [h.allmulti, hst.2.1]
  · rw [h.refs a]
    simp only [hst.mem_iff a]

theorem Holds.away {base f : RxFilter} {s : Settings} (h : Holds base s false f) (t : Settings) :
    Holds base t false f :=
  ⟨h.counted, h.promiscuity, h.allmulti, h.refs⟩

theorem find_dmi_isNone (dmi : DevAddr) (list : List DevAddr) :
    (bond_mc_list_find_dmi dmi list).isNone = true ↔ dmi.da_addr ∉ addrs list := by
  unfold bond_mc_list_find_dmi addrs
  rw [Option.isNone_iff_eq_none, List.find?_eq_none]
  constructor
  · intro h hmem
    obtain ⟨x, hx, hxa⟩ := List.mem_map.mp hmem
    exact h x hx (beq_iff_eq.mpr hxa)
  · intro h x hx hxa
    exact h (beq_iff_eq.mp hxa ▸ List.mem_map_of_mem hx)

theorem copy_eq (mc_list : List DevAddr) : bond_mc_list_copy mc_list [] = mc_list.reverse := by
  simp [bond_mc_list_copy]

def lacking (k l : List DevAddr) : List DevAddr :=
  l.filter fun dmi => (bond_mc_list_find_dmi dmi k).isNone

theorem mem_lacking (k l : List DevAddr) (a : HwAddr) :
    a ∈ addrs (lacking k l) ↔ a ∈ addrs l ∧ a ∉ addrs k := by
  unfold lacking
  constructor
  · intro h
    obtain ⟨dmi, hdmi, rfl⟩ := List.mem_map.mp h
    obtain ⟨hmem, hnone⟩ := List.mem_filter.mp hdmi
    exact ⟨List.mem_map_of_mem hmem, (find_dmi_isNone dmi k).mp hnone⟩
  · rintro ⟨h, hk⟩
    obtain ⟨dmi, hdmi, rfl⟩ := List.mem_map.mp h
    exact List.mem_map_of_mem (List.mem_filter.mpr ⟨hdmi, (find_dmi_isNone dmi k).mpr hk⟩)

theorem nodup_lacking (k : List DevAddr) {l : List DevAddr} (h : (addrs l).Nodup) :
    (addrs (lacking k l)).Nodup :=
  h.sublist (List.filter_sublist.map _)

namespace RxFilter

/-- What `bond_set_multicast_list` does to the active slave's device: the bond's own filter is
`b`, the saved settings are `s`. -/
def resync (s : Settings) (b f : RxFilter) : RxFilter :=
  let f := f.promiscBy (b.iff_promisc && !s.promisc) 1
  let f := f.promiscBy (!b.iff_promisc && s.promisc) (-1)
  let f := f.allmultiBy (b.iff_allmulti && !s.allmulti) 1
  let f := f.allmultiBy (!b.iff_allmulti && s.allmulti) (-1)
  let f := f.listBy dev_addr_add (lacking s.mc_list b.mc_list)
  f.listBy dev_addr_delete (lacking b.mc_list s.mc_list)

end RxFilter

theorem counter_resync {b s flag f1 f2 : Bool} {count n1 n2 : BitVec 32} {base : Nat}
    (h1 : (f1, n1) = if b && !s then (countedFlag .k27 1 count).2 else (flag, count))
    (h2 : (f2, n2) = if !b && s then (countedFlag .k27 (-1) n1).2 else (f1, n1))
    (hcount : count.toNat = base + s.toNat) (hroom : base + 1 < 2 ^ 32) :
    n2.toNat = base + b.toNat := by
  cases s with
  | false =>
    have hon := counter_on h1 hcount hroom
    rw [Bool.and_false, if_neg (by decide)] at h2
    rw [(Prod.mk.inj h2).2, hon]
    simp
  | true =>
    rw [Bool.not_true, Bool.and_false, if_neg (by decide)] at h1
    refine counter_off h2 ?_
    rw [(Prod.mk.inj h1).2, hcount]
    cases b <;> rfl

theorem promiscBy_pair (set : Bool) (inc : Int) (f : RxFilter) :
    ((f.promiscBy set inc).iff_promisc, (f.promiscBy set inc).promiscuity) =
      if set then (countedFlag .k27 inc f.promiscuity).2 else (f.iff_promisc, f.promiscuity) := by
  cases set <;> rfl

theorem allmultiBy_pair (set : Bool) (inc : Int) (f : RxFilter) :
    ((f.allmultiBy set inc).iff_allmulti, (f.allmultiBy set inc).allmulti) =
      if set then (countedFlag .k27 inc f.allmulti).2 else (f.iff_allmulti, f.allmulti) := by
  cases set <;> rfl

theorem Holds.resync {base b f : RxFilter} {s : Settings} (h : Holds base s true f)
    (hr : base.room) (hb : (addrs b.mc_list).Nodup) (hs : (addrs s.mc_list).Nodup) :
    Holds base b.settings true (RxFilter.resync s b f) := by
  obtain ⟨hadded, hadd⟩ := h.counted.adds (nodup_lacking s.mc_list hb)
  obtain ⟨hdeleted, hdelete⟩ := hadded.deletes (nodup_lacking b.mc_list hs)
  obtain ⟨p, hp⟩ : ∃ p, p = (f.promiscBy (b.iff_promisc && !s.promisc) 1).promiscBy
      (!b.iff_promisc && s.promisc) (-1) := ⟨_, rfl⟩
  obtain ⟨q, hq⟩ : ∃ q, q = (p.allmultiBy (b.iff_allmulti && !s.allmulti) 1).allmultiBy
      (!b.iff_allmulti && s.allmulti) (-1) := ⟨_, rfl⟩
  have hpromisc : p.promiscuity.toNat = base.promiscuity.toNat + b.iff_promisc.toNat := by
    rw [hp]
    exact counter_resync (promiscBy_pair _ 1 f) (promiscBy_pair _ (-1) _) h.promiscuity hr.1
  have hpf : p.allmulti = f.allmulti ∧ p.mc_list = f.mc_list := by
    rw [hp]
    unfold RxFilter.promiscBy
    split_ifs <;> exact ⟨rfl, rfl⟩
  have hallmulti : q.allmulti.toNat = base.allmulti.toNat + b.iff_allmulti.toNat := by
    have hcount : p.allmulti.toNat = base.allmulti.toNat + s.allmulti.toNat := by
      rw [hpf.1]
      exact h.allmulti
    rw [hq]
    exact counter_resync (allmultiBy_pair _ 1 p) (allmultiBy_pair _ (-1) _) hcount hr.2
  have hqp : q.promiscuity = p.promiscuity ∧ q.mc_list = p.mc_list := by
    rw [hq]
    unfold RxFilter.allmultiBy
    split_ifs <;> exact ⟨rfl, rfl⟩
  have hall : RxFilter.resync s b f = (q.listBy dev_addr_add (lacking s.mc_list b.mc_list)).listBy
      dev_addr_delete (lacking b.mc_list s.mc_list) := by
    rw [hq, hp]
    rfl
  rw [← hpf.2, ← hqp.2] at hdeleted hdelete hadd
  rw [hall]
  refine ⟨hdeleted, ?_, hallmulti, fun a => ?_⟩
  · exact (congrArg BitVec.toNat hqp.1).trans hpromisc
  · have hwas := h.refs a
    rw [← hpf.2, ← hqp.2] at hwas
    refine (hdelete a).trans ?_
    rw [hadd a, hwas]
    simp only [mem_lacking, Bool.true_and, RxFilter.settings]
    by_cases hab : a ∈ addrs b.mc_list <;> by_cases has : a ∈ addrs s.mc_list
    · simp [hab, has]
    · simp [hab, has]
    · simp [hab, has]
    · simp [hab, has]

namespace World

/-- Only the active slave's device has changed, and of it the filter only, by `φ`. -/
structure Tuned (w v : World) (φ : RxFilter → RxFilter) : Prop where
  base : v.base = w.base
  bond : v.bond = w.bond
  devs : SameDevs v w
  filters : ∀ d, v.filters d = if w.active_dev = some d then φ (w.filters d) else w.filters d

theorem Tuned.active {w v : World} {φ : RxFilter → RxFilter} (h : Tuned w v φ) :
    v.active_dev = w.active_dev := by
  have hdev : ∀ s, (v.slaves s).dev = (w.slaves s).dev :=
    congrFun (congrArg Shape.dev (congrArg Base.shape h.base))
  unfold active_dev
  simp only [h.bond, hdev]

theorem Tuned.of_same {w v : World} (hbase : v.base = w.base) (hbond : v.bond = w.bond)
    (hdevs : v.devs = w.devs) : Tuned w v fun f => f := by
  refine ⟨hbase, hbond, fun d => by rw [hdevs], fun d => ?_⟩
  unfold World.filters
  rw [hdevs, ite_self]

theorem Tuned.refl (w : World) : Tuned w w fun f => f := Tuned.of_same rfl rfl rfl

theorem Tuned.trans {w v u : World} {φ ψ : RxFilter → RxFilter} (h : Tuned w v φ)
    (k : Tuned v u ψ) : Tuned w u fun f => ψ (φ f) := by
  refine ⟨k.base.trans h.base, k.bond.trans h.bond, k.devs.trans h.devs, fun d => ?_⟩
  rw [k.filters, h.active, h.filters]
  split_ifs <;> rfl

theorem Tuned.grounded {w v : World} {φ : RxFilter → RxFilter} (h : Tuned w v φ)
    (hg : w.Grounded) : v.Grounded := by
  refine ⟨(congrArg Base.port h.base).trans hg.port, (congrArg Base.mode h.base).trans hg.mode, ?_⟩
  rw [h.active, h.bond]
  exact hg.foreign

theorem Tuned.own {w v : World} {φ : RxFilter → RxFilter} (h : Tuned w v φ) (hg : w.Grounded) :
    v.filters v.bond.dev = w.filters w.bond.dev := by
  rw [h.filters, h.bond, if_neg hg.foreign]

theorem Grounded.uses_primary {w : World} (h : w.Grounded) :
    USES_PRIMARY w.port w.bond.params.mode = true := by
  rw [h.port, h.mode]
  rfl

theorem tuned_push {w : World} (hg : w.Grounded) {g : NetDevice → Int × NetDevice}
    {φ : RxFilter → RxFilter} (hg1 : ∀ dev, (g dev).2.sansFilter = dev.sansFilter)
    (hg2 : ∀ dev, (g dev).2.filter = φ dev.filter) : Tuned w (w.push g).2 φ := by
  have howner : ∀ dev : NetDevice, (g dev).2.owner = dev.owner :=
    fun dev => NetDevice.same_owner (hg1 dev)
  unfold push
  rw [if_pos hg.uses_primary]
  cases hact : w.bond.curr_active_slave with
  | none =>
    refine ⟨rfl, rfl, SameDevs.refl w, fun d => ?_⟩
    unfold active_dev
    rw [hact]
    rfl
  | some s =>
    refine ⟨base_setDev _ _ _ howner, rfl, sameDevs_setDev _ _ _ hg1, fun d => ?_⟩
    have hset := filters_setDev w (w.slaves s).dev (fun dev => (g dev).2) d
    unfold active_dev
    rw [hact]
    refine hset.trans ?_
    simp only [hg2, Option.map_some, Option.some.injEq, eq_comm]
    rfl

theorem tuned_promiscuity {w : World} (hg : w.Grounded) {c b : Bool} (hc : c = b) (inc : Int) :
    Tuned w (if c then (w.bond_set_promiscuity inc).2 else w) fun f => f.promiscBy b inc := by
  subst hc
  cases c with
  | false => exact Tuned.refl w
  | true =>
    refine tuned_push hg (fun dev => rfl) fun dev => ?_
    rw [hg.port]
    exact filter_promiscuity true inc dev

theorem tuned_allmulti {w : World} (hg : w.Grounded) {c b : Bool} (hc : c = b) (inc : Int) :
    Tuned w (if c then (w.bond_set_allmulti inc).2 else w) fun f => f.allmultiBy b inc := by
  subst hc
  cases c with
  | false => exact Tuned.refl w
  | true =>
    refine tuned_push hg (fun dev => rfl) fun dev => ?_
    rw [hg.port]
    exact filter_allmulti true inc dev

theorem tuned_addrs {push : World → HwAddr → World} {g : HwAddr → List DevAddr → List DevAddr}
    (hpush : ∀ w addr, w.Grounded →
      Tuned w (push w addr) fun f => { f with mc_list := g addr f.mc_list })
    {p : World → DevAddr → Bool} {q : DevAddr → Bool} {own : RxFilter}
    (hp : ∀ w : World, w.filters w.bond.dev = own → ∀ dmi, p w dmi = q dmi)
    (l : List DevAddr) {w : World} (hg : w.Grounded) (hown : w.filters w.bond.dev = own) :
    Tuned w (l.foldl (fun w dmi => if p w dmi then push w dmi.da_addr else w) w)
      fun f => f.listBy g (l.filter q) := by
  induction l generalizing w with
  | nil => exact Tuned.refl w
  | cons dmi rest ih =>
    rw [List.foldl_cons, hp w hown dmi]
    cases hq : q dmi with
    | false =>
      rw [List.filter_cons_of_neg (by simp [hq])]
      exact ih hg hown
    | true =>
      have hfirst := hpush w dmi.da_addr hg
      rw [List.filter_cons_of_pos hq]
      exact hfirst.trans (ih (hfirst.grounded hg) ((hfirst.own hg).trans hown))

theorem tuned_mc_add (w : World) (addr : HwAddr) (hg : w.Grounded) :
    Tuned w (w.bond_mc_add addr) fun f => { f with mc_list := dev_addr_add addr f.mc_list } :=
  tuned_push hg (fun _ => rfl) fun _ => rfl

theorem tuned_mc_delete (w : World) (addr : HwAddr) (hg : w.Grounded) :
    Tuned w (w.bond_mc_delete addr)
      fun f => { f with mc_list := dev_addr_delete addr f.mc_list } :=
  tuned_push hg (fun _ => rfl) fun _ => rfl

end World

namespace Master

def saved (m : Master) : Settings := ⟨m.iff_promisc, m.iff_allmulti, m.mc_list⟩

def own (m : Master) : RxFilter := m.world.filters m.world.bond.dev

/-- In HOOLOCK mode the active slave's device gets the difference, and the present settings are
the saved ones from then on. -/
theorem set_multicast_list_spec {m : Master} (hg : m.world.Grounded) :
    World.Tuned m.world m.bond_set_multicast_list.world (RxFilter.resync m.saved m.own) ∧
      m.bond_set_multicast_list.saved =
        ⟨m.own.iff_promisc, m.own.iff_allmulti, m.own.mc_list.reverse⟩ := by
  obtain ⟨w1, h1⟩ : ∃ v, v = if m.world.bond_dev.iff_promisc && !m.iff_promisc then
      (m.world.bond_set_promiscuity 1).2 else m.world := ⟨_, rfl⟩
  have t1 := h1 ▸ World.tuned_promiscuity hg (b := m.own.iff_promisc && !m.iff_promisc) rfl 1
  have p1 : w1.bond_dev.iff_promisc = m.own.iff_promisc :=
    congrArg RxFilter.iff_promisc (t1.own hg)
  obtain ⟨w2, h2⟩ : ∃ v, v = if !w1.bond_dev.iff_promisc && m.iff_promisc then
      (w1.bond_set_promiscuity (-1)).2 else w1 := ⟨_, rfl⟩
  have t2 := t1.trans (h2 ▸ World.tuned_promiscuity (t1.grounded hg)
    (b := !m.own.iff_promisc && m.iff_promisc) (by rw [p1]) (-1))
  have a2 : w2.bond_dev.iff_allmulti = m.own.iff_allmulti :=
    congrArg RxFilter.iff_allmulti (t2.own hg)
  obtain ⟨w3, h3⟩ : ∃ v, v = if w2.bond_dev.iff_allmulti && !m.iff_allmulti then
      (w2.bond_set_allmulti 1).2 else w2 := ⟨_, rfl⟩
  have t3 := t2.trans (h3 ▸ World.tuned_allmulti (t2.grounded hg)
    (b := m.own.iff_allmulti && !m.iff_allmulti) (by rw [a2]) 1)
  have a3 : w3.bond_dev.iff_allmulti = m.own.iff_allmulti :=
    congrArg RxFilter.iff_allmulti (t3.own hg)
  obtain ⟨w4, h4⟩ : ∃ v, v = if !w3.bond_dev.iff_allmulti && m.iff_allmulti then
      (w3.bond_set_allmulti (-1)).2 else w3 := ⟨_, rfl⟩
  have t4 := t3.trans (h4 ▸ World.tuned_allmulti (t3.grounded hg)
    (b := !m.own.iff_allmulti && m.iff_allmulti) (by rw [a3]) (-1))
  obtain ⟨w5, h5⟩ : ∃ v, v = w4.lock .bond .read := ⟨_, rfl⟩
  have t5 : World.Tuned m.world w5 _ :=
    t4.trans (World.Tuned.of_same (by rw [h5]; rfl) (by rw [h5]; rfl) (by rw [h5]; rfl))
  have o5 : w5.filters w5.bond.dev = m.own := t5.own hg
  obtain ⟨w6, h6⟩ : ∃ v, v = w5.bond_dev.mc_list.foldl (fun w dmi =>
      if (bond_mc_list_find_dmi dmi m.mc_list).isNone then w.bond_mc_add dmi.da_addr else w) w5 :=
    ⟨_, rfl⟩
  have t6 := t5.trans (h6 ▸ World.tuned_addrs World.tuned_mc_add (q := fun dmi =>
    (bond_mc_list_find_dmi dmi m.mc_list).isNone) (fun _ _ _ => rfl) w5.bond_dev.mc_list
    (t5.grounded hg) o5)
  obtain ⟨w7, h7⟩ : ∃ v, v = m.mc_list.foldl (fun w dmi =>
      if (bond_mc_list_find_dmi dmi w.bond_dev.mc_list).isNone then w.bond_mc_delete dmi.da_addr
      else w) w6 := ⟨_, rfl⟩
  have t7 := t6.trans (h7 ▸ World.tuned_addrs World.tuned_mc_delete (q := fun dmi =>
    (bond_mc_list_find_dmi dmi m.own.mc_list).isNone) (fun w hw dmi => by
      have hlist : w.bond_dev.mc_list = m.own.mc_list := congrArg RxFilter.mc_list hw
      rw [hlist]) m.mc_list (t6.grounded hg) (t6.own hg))
  have p5 : w5.bond_dev.iff_promisc = m.own.iff_promisc := congrArg RxFilter.iff_promisc o5
  have a5 : w5.bond_dev.iff_allmulti = m.own.iff_allmulti := congrArg RxFilter.iff_allmulti o5
  have l5 : w5.bond_dev.mc_list = m.own.mc_list := congrArg RxFilter.mc_list o5
  have l7 : w7.bond_dev.mc_list = m.own.mc_list := congrArg RxFilter.mc_list (t7.own hg)
  have hall : m.bond_set_multicast_list = { m with
      world := w7.unlock .bond .read, iff_promisc := w5.bond_dev.iff_promisc
      iff_allmulti := w5.bond_dev.iff_allmulti
      mc_list := bond_mc_list_copy w7.bond_dev.mc_list [] } := by
    rw [h7, h6, h5, h4, h3, h2, h1]
    rfl
  have t8 := t7.trans (World.Tuned.of_same (v := w7.unlock .bond .read) rfl rfl rfl)
  rw [l5] at t8
  rw [hall]
  refine ⟨t8, ?_⟩
  unfold saved
  dsimp only
  rw [p5, a5, l7, copy_eq]

end Master

end Hoolock
