import Hoolock.Switching

/-!
A device's receive filter: two counters with a flag each and a list of counted addresses.
`bond_mc_swap` takes the bond's own references off one device and puts them on another.
-/

set_option autoImplicit false

namespace Hoolock

def refs (a : HwAddr) (list : List DevAddr) : Nat :=
  ((list.filter (·.da_addr == a)).map (·.da_users.toNat)).sum

/-- A list as `__dev_addr_add` and `__dev_addr_delete` keep it: no address twice, none
without a reference. -/
structure Counted (list : List DevAddr) : Prop where
  nodup : (list.map (·.da_addr)).Nodup
  pos : ∀ da ∈ list, 0 < da.da_users

theorem Counted.nil : Counted [] := ⟨List.nodup_nil, fun _ h => absurd h (by simp)⟩

theorem Counted.tail {da : DevAddr} {list : List DevAddr} (h : Counted (da :: list)) :
    Counted list :=
  ⟨(List.nodup_cons.mp h.nodup).2, fun x hx => h.pos x (List.mem_cons_of_mem _ hx)⟩

theorem Counted.notin {da : DevAddr} {list : List DevAddr} (h : Counted (da :: list)) :
    ∀ x ∈ list, x.da_addr ≠ da.da_addr := by
  intro x hx he
  have hmem : da.da_addr ∈ list.map (·.da_addr) := he ▸ List.mem_map_of_mem hx
  exact (List.nodup_cons.mp h.nodup).1 hmem

theorem refs_cons (a : HwAddr) (da : DevAddr) (list : List DevAddr) :
    refs a (da :: list) = (if da.da_addr = a then da.da_users.toNat else 0) + refs a list := by
  unfold refs
  by_cases h : da.da_addr = a
  · simp [h]
  · simp [h]

theorem refs_absent {a : HwAddr} {list : List DevAddr} (h : ∀ x ∈ list, x.da_addr ≠ a) :
    refs a list = 0 := by
  induction list with
  | nil => rfl
  | cons da rest ih =>
    rw [refs_cons, if_neg (h da (by simp)), ih fun x hx => h x (List.mem_cons_of_mem _ hx)]

theorem Counted.mem_iff {list : List DevAddr} (h : Counted list) (a : HwAddr) :
    a ∈ list.map (·.da_addr) ↔ 0 < refs a list := by
  induction list with
  | nil => simp [refs]
  | cons da rest ih =>
    have hpos := h.pos da (by simp)
    rw [List.map_cons, List.mem_cons, ih h.tail, refs_cons]
    by_cases ha : da.da_addr = a
    · rw [if_pos ha]
      refine iff_of_true (Or.inl ha.symm) ?_
      omega
    · rw [if_neg ha]
      constructor
      · rintro (hhead | hrest)
        · exact absurd hhead.symm ha
        · omega
      · intro hrest
        right
        omega

theorem dev_addr_delete_mem {a : HwAddr} {list : List DevAddr} {x : DevAddr}
    (hx : x ∈ dev_addr_delete a list) : x.da_addr ∈ list.map (·.da_addr) := by
  induction list with
  | nil => exact absurd hx (by simp [dev_addr_delete])
  | cons da rest ih =>
    unfold dev_addr_delete at hx
    split_ifs at hx with ha hlast
    · rcases List.mem_cons.mp hx with rfl | hrest
      · simp
      · exact List.mem_map_of_mem (List.mem_cons_of_mem _ hrest)
    · exact List.mem_map_of_mem (List.mem_cons_of_mem _ hx)
    · rcases List.mem_cons.mp hx with rfl | hrest
      · simp
      · exact List.mem_cons_of_mem _ (ih hrest)

theorem Counted.delete {list : List DevAddr} (h : Counted list) (a : HwAddr) :
    Counted (dev_addr_delete a list) := by
  induction list with
  | nil => exact h
  | cons da rest ih =>
    have hpos := h.pos da (by simp)
    unfold dev_addr_delete
    split_ifs with ha hlast
    · refine ⟨h.nodup, fun x hx => ?_⟩
      rcases List.mem_cons.mp hx with rfl | hrest
      · dsimp only
        omega
      · exact h.pos x (List.mem_cons_of_mem _ hrest)
    · exact h.tail
    · have hrest := ih h.tail
      refine ⟨List.nodup_cons.mpr ⟨fun hmem => ?_, hrest.nodup⟩, fun x hx => ?_⟩
      · obtain ⟨x, hx, hxa⟩ := List.mem_map.mp hmem
        obtain ⟨y, hy, hya⟩ := List.mem_map.mp (dev_addr_delete_mem hx)
        exact h.notin y hy (hya.trans hxa)
      · rcases List.mem_cons.mp hx with rfl | hx
        · exact hpos
        · exact hrest.pos x hx

theorem Counted.refs_delete {list : List DevAddr} (h : Counted list) (a b : HwAddr) :
    refs b (dev_addr_delete a list) = refs b list - if b = a then 1 else 0 := by
  induction list with
  | nil => simp [dev_addr_delete, refs]
  | cons da rest ih =>
    have hpos := h.pos da (by simp)
    unfold dev_addr_delete
    split_ifs with ha hlast hb hb hb
    · subst hb
      rw [refs_cons, refs_cons, if_pos ha, if_pos ha]
      dsimp only
      omega
    · rw [refs_cons, refs_cons]
      have hne : ¬ da.da_addr = b := fun e => hb (e.symm.trans ha)
      simp [hne]
    · subst hb
      rw [refs_cons, if_pos ha, refs_absent fun x hx => ha ▸ h.notin x hx]
      omega
    · have hne : ¬ da.da_addr = b := fun e => hb (e.symm.trans ha)
      rw [refs_cons, if_neg hne]
      omega
    · subst hb
      rw [refs_cons, refs_cons, if_neg ha, ih h.tail, if_pos rfl]
      omega
    · rw [refs_cons, refs_cons, ih h.tail, if_neg hb]
      omega

theorem dev_addr_add_present {a : HwAddr} {list : List DevAddr}
    (h : a ∈ list.map (·.da_addr)) : dev_addr_add a list = list.map fun da =>
      if da.da_addr = a then { da with da_users := da.da_users + 1 } else da := by
  unfold dev_addr_add
  obtain ⟨da, hda, hdaa⟩ := List.mem_map.mp h
  exact if_pos (List.any_eq_true.mpr ⟨da, hda, by simp [hdaa]⟩)

theorem dev_addr_add_absent {a : HwAddr} {list : List DevAddr}
    (h : a ∉ list.map (·.da_addr)) : dev_addr_add a list = ⟨a, 1⟩ :: list := by
  unfold dev_addr_add
  refine if_neg fun hany => h ?_
  obtain ⟨da, hda, hdaa⟩ := List.any_eq_true.mp hany
  exact beq_iff_eq.mp hdaa ▸ List.mem_map_of_mem hda

theorem Counted.add {list : List DevAddr} (h : Counted list) (a : HwAddr) :
    Counted (dev_addr_add a list) := by
  by_cases ha : a ∈ list.map (·.da_addr)
  · rw [dev_addr_add_present ha]
    refine ⟨?_, fun x hx => ?_⟩
    · rw [List.map_map]
      have hsame : ((·.da_addr) ∘ fun da : DevAddr =>
          if da.da_addr = a then { da with da_users := da.da_users + 1 } else da) =
            (·.da_addr) := by
        funext da
        simp only [Function.comp_apply]
        split_ifs <;> rfl
      rw [hsame]
      exact h.nodup
    · obtain ⟨da, hda, rfl⟩ := List.mem_map.mp hx
      have hpos := h.pos da hda
      split_ifs
      · dsimp only
        omega
      · exact hpos
  · rw [dev_addr_add_absent ha]
    refine ⟨List.nodup_cons.mpr ⟨ha, h.nodup⟩, fun x hx => ?_⟩
    rcases List.mem_cons.mp hx with rfl | hx
    · simp
    · exact h.pos x hx

theorem Counted.refs_increment {list : List DevAddr} (h : Counted list) (a b : HwAddr) :
    refs b (list.map fun da =>
      if da.da_addr = a then { da with da_users := da.da_users + 1 } else da) =
        refs b list + if b = a ∧ a ∈ list.map (·.da_addr) then 1 else 0 := by
  induction list with
  | nil => simp [refs]
  | cons da rest ih =>
    have hpos := h.pos da (by simp)
    rw [List.map_cons, refs_cons, refs_cons, ih h.tail]
    by_cases ha : da.da_addr = a
    · have hrest : a ∉ rest.map (·.da_addr) := ha ▸ (List.nodup_cons.mp h.nodup).1
      subst ha
      by_cases hb : b = da.da_addr
      · subst hb
        simp [hrest]
        omega
      · have hne : ¬ da.da_addr = b := fun e => hb e.symm
        simp [hb, hne]
    · have hne : ¬ a = da.da_addr := fun e => ha e.symm
      simp [ha, hne]
      omega

theorem Counted.refs_add {list : List DevAddr} (h : Counted list) (a b : HwAddr) :
    refs b (dev_addr_add a list) = refs b list + if b = a then 1 else 0 := by
  by_cases ha : a ∈ list.map (·.da_addr)
  · rw [dev_addr_add_present ha, h.refs_increment]
    simp [ha]
  · rw [dev_addr_add_absent ha, refs_cons]
    by_cases hb : b = a
    · simp [hb]
      omega
    · have hne : ¬ a = b := fun e => hb e.symm
      simp [hb, hne]

/-- What the hardware lets through. -/
structure RxFilter where
  iff_promisc : Bool
  promiscuity : BitVec 32
  iff_allmulti : Bool
  allmulti : BitVec 32
  mc_list : List DevAddr

def NetDevice.filter (dev : NetDevice) : RxFilter :=
  { iff_promisc := dev.iff_promisc, promiscuity := dev.promiscuity
    iff_allmulti := dev.iff_allmulti, allmulti := dev.allmulti, mc_list := dev.mc_list }

/-- A device's filter is as it was and the device has neither come up nor gone or come back. -/
structure NetDevice.Calm (dev out : NetDevice) : Prop where
  filter : out.filter = dev.filter
  present : out.present = dev.present
  down : dev.iff_up = false → out.iff_up = false

theorem NetDevice.Calm.refl (dev : NetDevice) : dev.Calm dev := ⟨rfl, rfl, fun h => h⟩

theorem set_mac_calm (a : HwAddr) (n : Nat) (dev : NetDevice) :
    dev.Calm (dev_set_mac_address a n dev).2 := by
  unfold dev_set_mac_address
  split
  · exact NetDevice.Calm.refl dev
  · split_ifs
    · exact NetDevice.Calm.refl dev
    · exact NetDevice.Calm.refl dev
    · exact NetDevice.Calm.refl dev
    · exact ⟨rfl, rfl, fun h => h⟩

theorem set_master_calm (master : Option DevId) (dev : NetDevice) :
    dev.Calm (netdev_set_master master dev).2 := by
  unfold netdev_set_master
  cases master with
  | none => exact ⟨rfl, rfl, fun h => h⟩
  | some m =>
    dsimp only
    split_ifs
    · exact NetDevice.Calm.refl dev
    · exact ⟨rfl, rfl, fun h => h⟩

theorem close_calm (dev : NetDevice) : dev.Calm (dev_close dev) := by
  unfold dev_close
  split_ifs
  · exact ⟨rfl, rfl, fun _ => rfl⟩
  · exact NetDevice.Calm.refl dev

theorem open_filter (r : Int) (dev : NetDevice) : (dev_open r dev).2.filter = dev.filter := by
  unfold dev_open
  split_ifs <;> rfl

theorem countedFlag_k27 (inc : Int) (count : BitVec 32) : countedFlag .k27 inc count =
    if count + BitVec.ofInt 32 inc = 0 then
      if inc < 0 then (0, false, count + BitVec.ofInt 32 inc) else (-EOVERFLOW, true, count)
    else (0, true, count + BitVec.ofInt 32 inc) := rfl

theorem countedFlag_up (count : BitVec 32) : (countedFlag .k27 1 count).2 =
    (true, if count + 1 = 0 then count else count + 1) := by
  have hone : BitVec.ofInt 32 1 = (1 : BitVec 32) := rfl
  rw [countedFlag_k27, hone]
  by_cases hzero : count + 1 = 0
  · rw [if_pos hzero, if_pos hzero, if_neg (by decide)]
  · rw [if_neg hzero, if_neg hzero]

theorem countedFlag_down (count : BitVec 32) : (countedFlag .k27 (-1) count).2 =
    (count != 1, count - 1) := by
  have hone : count + BitVec.ofInt 32 (-1) = count - 1 := by
    rw [BitVec.ofInt_neg, BitVec.sub_eq_add_neg]
    rfl
  have hiff : count - 1 = 0 ↔ count = 1 := by
    rw [BitVec.sub_eq_iff_eq_add]
    simp
  rw [countedFlag_k27, hone]
  by_cases hzero : count - 1 = 0
  · rw [if_pos hzero, if_pos (by decide), hiff.mp hzero]
    simp
  · have hne : (count != 1) = true := bne_iff_ne.mpr (mt hiff.mpr hzero)
    rw [if_neg hzero, hne]

theorem countedFlag_up_toNat {count : BitVec 32} (h : count.toNat + 1 < 2 ^ 32) :
    (countedFlag .k27 1 count).2.2.toNat = count.toNat + 1 := by
  have hsum : (count + 1).toNat = count.toNat + 1 := by
    rw [BitVec.toNat_add]
    exact Nat.mod_eq_of_lt h
  have hne : count + 1 ≠ 0 := by
    intro hzero
    rw [hzero] at hsum
    simp at hsum
  rw [countedFlag_up, if_neg hne, hsum]

theorem countedFlag_down_toNat {count : BitVec 32} (h : 0 < count.toNat) :
    (countedFlag .k27 (-1) count).2.2.toNat = count.toNat - 1 := by
  rw [countedFlag_down]
  dsimp only
  have hlt := count.isLt
  rw [BitVec.toNat_sub]
  simp
  omega

def addrs (list : List DevAddr) : List HwAddr := list.map (·.da_addr)

theorem Counted.deletes {list : List DevAddr} (h : Counted list) {l : List DevAddr}
    (hl : (addrs l).Nodup) : Counted (l.foldl (fun list dmi => dev_addr_delete dmi.da_addr list) list) ∧
      ∀ b, refs b (l.foldl (fun list dmi => dev_addr_delete dmi.da_addr list) list) =
        refs b list - if b ∈ addrs l then 1 else 0 := by
  induction l generalizing list with
  | nil => exact ⟨h, fun b => by simp [addrs]⟩
  | cons dmi rest ih =>
    obtain ⟨hnotin, hrest⟩ := List.nodup_cons.mp hl
    obtain ⟨hcounted, hrefs⟩ := ih (h.delete dmi.da_addr) hrest
    refine ⟨hcounted, fun b => (hrefs b).trans ?_⟩
    rw [h.refs_delete]
    by_cases hb : b = dmi.da_addr
    · subst hb
      have hnot : dmi.da_addr ∉ addrs rest := hnotin
      have hhere : dmi.da_addr ∈ addrs (dmi :: rest) := by simp [addrs]
      rw [if_pos rfl, if_neg hnot, if_pos hhere]
      rfl
    · have hmem : b ∈ addrs (dmi :: rest) ↔ b ∈ addrs rest := by simp [addrs, hb]
      simp only [hb, if_false, Nat.sub_zero, hmem]

theorem Counted.adds {list : List DevAddr} (h : Counted list) {l : List DevAddr}
    (hl : (addrs l).Nodup) : Counted (l.foldl (fun list dmi => dev_addr_add dmi.da_addr list) list) ∧
      ∀ b, refs b (l.foldl (fun list dmi => dev_addr_add dmi.da_addr list) list) =
        refs b list + if b ∈ addrs l then 1 else 0 := by
  induction l generalizing list with
  | nil => exact ⟨h, fun b => by simp [addrs]⟩
  | cons dmi rest ih =>
    obtain ⟨hnotin, hrest⟩ := List.nodup_cons.mp hl
    obtain ⟨hcounted, hrefs⟩ := ih (h.add dmi.da_addr) hrest
    refine ⟨hcounted, fun b => (hrefs b).trans ?_⟩
    rw [h.refs_add]
    by_cases hb : b = dmi.da_addr
    · subst hb
      have hnot : dmi.da_addr ∉ addrs rest := hnotin
      have hhere : dmi.da_addr ∈ addrs (dmi :: rest) := by simp [addrs]
      rw [if_pos rfl, if_neg hnot, if_pos hhere]
    · have hmem : b ∈ addrs (dmi :: rest) ↔ b ∈ addrs rest := by simp [addrs, hb]
      simp only [hb, if_false, Nat.add_zero, hmem]

def RxFilter.promiscBy (set : Bool) (inc : Int) (f : RxFilter) : RxFilter :=
  if set then
    { f with
      iff_promisc := (countedFlag .k27 inc f.promiscuity).2.1
      promiscuity := (countedFlag .k27 inc f.promiscuity).2.2 }
  else f

def RxFilter.allmultiBy (set : Bool) (inc : Int) (f : RxFilter) : RxFilter :=
  if set then
    { f with
      iff_allmulti := (countedFlag .k27 inc f.allmulti).2.1
      allmulti := (countedFlag .k27 inc f.allmulti).2.2 }
  else f

def RxFilter.listBy (g : HwAddr → List DevAddr → List DevAddr) (l : List DevAddr) (f : RxFilter) :
    RxFilter := { f with mc_list := l.foldl (fun list dmi => g dmi.da_addr list) f.mc_list }

/-- What `bond_mc_swap` does to one device, the bond's own filter being `b`. -/
def RxFilter.moveBy (inc : Int) (g : HwAddr → List DevAddr → List DevAddr) (b f : RxFilter) :
    RxFilter :=
  ((f.promiscBy b.iff_promisc inc).allmultiBy b.iff_allmulti inc).listBy g b.mc_list

def RxFilter.off : RxFilter → RxFilter → RxFilter := RxFilter.moveBy (-1) dev_addr_delete

def RxFilter.on : RxFilter → RxFilter → RxFilter := RxFilter.moveBy 1 dev_addr_add

theorem moveBy_mc_list (inc : Int) (g : HwAddr → List DevAddr → List DevAddr) (b f : RxFilter) :
    (b.moveBy inc g f).mc_list = b.mc_list.foldl (fun list dmi => g dmi.da_addr list) f.mc_list := by
  unfold RxFilter.moveBy RxFilter.listBy RxFilter.allmultiBy RxFilter.promiscBy
  cases b.iff_promisc <;> cases b.iff_allmulti <;> rfl

theorem moveBy_promisc (inc : Int) (g : HwAddr → List DevAddr → List DevAddr) (b f : RxFilter) :
    ((b.moveBy inc g f).iff_promisc, (b.moveBy inc g f).promiscuity) =
      if b.iff_promisc then (countedFlag .k27 inc f.promiscuity).2
      else (f.iff_promisc, f.promiscuity) := by
  unfold RxFilter.moveBy RxFilter.listBy RxFilter.allmultiBy RxFilter.promiscBy
  cases b.iff_promisc <;> cases b.iff_allmulti <;> rfl

theorem moveBy_allmulti (inc : Int) (g : HwAddr → List DevAddr → List DevAddr) (b f : RxFilter) :
    ((b.moveBy inc g f).iff_allmulti, (b.moveBy inc g f).allmulti) =
      if b.iff_allmulti then (countedFlag .k27 inc f.allmulti).2
      else (f.iff_allmulti, f.allmulti) := by
  unfold RxFilter.moveBy RxFilter.listBy RxFilter.allmultiBy RxFilter.promiscBy
  cases b.iff_promisc <;> cases b.iff_allmulti <;> rfl

theorem filter_mc_list (g : HwAddr → List DevAddr → List DevAddr) (l : List DevAddr)
    (dev : NetDevice) :
    (l.foldl (fun (dev : NetDevice) dmi => { dev with mc_list := g dmi.da_addr dev.mc_list })
      dev).filter = dev.filter.listBy g l := by
  induction l generalizing dev with
  | nil => rfl
  | cons dmi rest ih => exact ih _

theorem filter_promiscuity (set : Bool) (inc : Int) (dev : NetDevice) :
    (if set then (dev_set_promiscuity .k27 inc dev).2 else dev).filter =
      dev.filter.promiscBy set inc := by
  cases set <;> rfl

theorem filter_allmulti (set : Bool) (inc : Int) (dev : NetDevice) :
    (if set then (dev_set_allmulti .k27 inc dev).2 else dev).filter =
      dev.filter.allmultiBy set inc := by
  cases set <;> rfl

/-- What the bond asks of the device it receives on. -/
structure Settings where
  promisc : Bool
  allmulti : Bool
  mc_list : List DevAddr

def RxFilter.settings (b : RxFilter) : Settings := ⟨b.iff_promisc, b.iff_allmulti, b.mc_list⟩

/-- `f` holds the references of `base` and, if `here`, exactly one more for each setting. -/
structure Holds (base : RxFilter) (s : Settings) (here : Bool) (f : RxFilter) : Prop where
  counted : Counted f.mc_list
  promiscuity : f.promiscuity.toNat = base.promiscuity.toNat + (here && s.promisc).toNat
  allmulti : f.allmulti.toNat = base.allmulti.toNat + (here && s.allmulti).toNat
  refs : ∀ a, refs a f.mc_list =
    refs a base.mc_list + (here && decide (a ∈ addrs s.mc_list)).toNat

/-- The counters of `base` leave room for the bond's own reference. -/
def RxFilter.room (base : RxFilter) : Prop :=
  base.promiscuity.toNat + 1 < 2 ^ 32 ∧ base.allmulti.toNat + 1 < 2 ^ 32

theorem counter_on {set flag new : Bool} {count n : BitVec 32} {base : Nat}
    (h : (new, n) = if set then (countedFlag .k27 1 count).2 else (flag, count))
    (hcount : count.toNat = base) (hroom : base + 1 < 2 ^ 32) :
    n.toNat = base + set.toNat := by
  cases set with
  | false =>
    rw [if_neg (by decide)] at h
    rw [(Prod.mk.inj h).2, hcount]
    rfl
  | true =>
    rw [if_pos rfl] at h
    have hn : n = (countedFlag .k27 1 count).2.2 := congrArg Prod.snd h
    rw [hn, countedFlag_up_toNat (hcount ▸ hroom), hcount]
    rfl

theorem counter_off {set flag new : Bool} {count n : BitVec 32} {base : Nat}
    (h : (new, n) = if set then (countedFlag .k27 (-1) count).2 else (flag, count))
    (hcount : count.toNat = base + set.toNat) : n.toNat = base := by
  cases set with
  | false =>
    rw [if_neg (by decide)] at h
    rw [(Prod.mk.inj h).2, hcount]
    rfl
  | true =>
    rw [if_pos rfl] at h
    rw [Bool.toNat_true] at hcount
    have hn : n = (countedFlag .k27 (-1) count).2.2 := congrArg Prod.snd h
    rw [hn, countedFlag_down_toNat (by omega), hcount]
    rfl

theorem Holds.on {base b f : RxFilter} (h : Holds base b.settings false f) (hr : base.room)
    (hb : (addrs b.mc_list).Nodup) : Holds base b.settings true (b.on f) := by
  obtain ⟨hcounted, hrefs⟩ := h.counted.adds hb
  have hlist := moveBy_mc_list 1 dev_addr_add b f
  refine ⟨hlist ▸ hcounted, ?_, ?_, fun a => ?_⟩
  · exact counter_on (moveBy_promisc 1 dev_addr_add b f) h.promiscuity hr.1
  · exact counter_on (moveBy_allmulti 1 dev_addr_add b f) h.allmulti hr.2
  · have hon : Hoolock.refs a (b.on f).mc_list = _ := (congrArg (Hoolock.refs a) hlist).trans (hrefs a)
    rw [hon, h.refs a]
    by_cases ha : a ∈ addrs b.mc_list
    · simp [ha, RxFilter.settings]
    · simp [ha, RxFilter.settings]

theorem Holds.off {base b f : RxFilter} (h : Holds base b.settings true f)
    (hb : (addrs b.mc_list).Nodup) : Holds base b.settings false (b.off f) := by
  obtain ⟨hcounted, hrefs⟩ := h.counted.deletes hb
  have hlist := moveBy_mc_list (-1) dev_addr_delete b f
  refine ⟨hlist ▸ hcounted, ?_, ?_, fun a => ?_⟩
  · exact counter_off (moveBy_promisc (-1) dev_addr_delete b f) h.promiscuity
  · exact counter_off (moveBy_allmulti (-1) dev_addr_delete b f) h.allmulti
  · have hoff : Hoolock.refs a (b.off f).mc_list = _ :=
      (congrArg (Hoolock.refs a) hlist).trans (hrefs a)
    rw [hoff, h.refs a]
    by_cases ha : a ∈ addrs b.mc_list
    · simp [ha, RxFilter.settings]
    · simp [ha, RxFilter.settings]

namespace World

def filters (w : World) (d : DevId) : RxFilter := (w.devs d).filter

theorem filter_off_filter {w : World} (hp : w.port = .k27) (dev : NetDevice) :
    (w.filter_off dev).filter = (w.filters w.bond.dev).off dev.filter := by
  have hlist := filter_mc_list dev_addr_delete w.bond_dev.mc_list
  unfold filter_off dev_mc_delete
  dsimp only
  rw [hlist, hp, filter_allmulti, filter_promiscuity]
  rfl

theorem filter_on_filter {w : World} (hp : w.port = .k27) (dev : NetDevice) :
    (w.filter_on dev).filter = (w.filters w.bond.dev).on dev.filter := by
  have hlist := filter_mc_list dev_addr_add w.bond_dev.mc_list
  unfold filter_on dev_mc_add
  dsimp only
  rw [hlist, hp, filter_allmulti, filter_promiscuity]
  rfl

def active_dev (w : World) : Option DevId := w.bond.curr_active_slave.map fun s => (w.slaves s).dev

theorem filters_setDev (w : World) (e : DevId) (f : NetDevice → NetDevice) (d : DevId) :
    (w.setDev e f).filters d = if d = e then (f (w.devs d)).filter else w.filters d := by
  unfold filters
  by_cases h : d = e
  · simp [setDev, h]
  · simp [setDev, h]

variable [Siblings]

theorem change_active_filters {w : World} (hp : w.port = .k27)
    (h : w.bond.params.mode = .hoolock) {new : Option SlaveId}
    (hne : w.bond.curr_active_slave ≠ new) (hold : w.active_dev ≠ some w.bond.dev)
    (d : DevId) :
    (w.bond_change_active_slave new).filters d =
      if new.map (fun s => (w.slaves s).dev) = some d then
        (w.filters w.bond.dev).on
          (if w.active_dev = some d then (w.filters w.bond.dev).off (w.filters d) else w.filters d)
      else if w.active_dev = some d then (w.filters w.bond.dev).off (w.filters d)
      else w.filters d := by
  obtain ⟨x, hx⟩ : ∃ x, x = w.onSlave new fun w s => w.setSlave s promoted := ⟨_, rfl⟩
  obtain ⟨hxdevs, hxbond, hxport⟩ : x.devs = w.devs ∧ x.bond = w.bond ∧ x.port = .k27 := by
    rw [hx]
    cases new <;> exact ⟨rfl, rfl, hp⟩
  have hxdev : ∀ s, (x.slaves s).dev = (w.slaves s).dev := by
    intro s
    rw [hx]
    cases new with
    | none => rfl
    | some n =>
      have hpromoted : ∀ t : Slave, (promoted t).dev = t.dev := by
        intro t
        unfold promoted
        split_ifs <;> rfl
      by_cases hs : s = n
      · simp [onSlave, setSlave, hs, hpromoted]
      · simp [onSlave, setSlave, hs]
  obtain ⟨y, hy⟩ : ∃ y, y = x.onSlave w.bond.curr_active_slave fun w s =>
      w.setDev (w.slaves s).dev w.filter_off := ⟨_, rfl⟩
  have hswap : x.bond_mc_swap new w.bond.curr_active_slave =
      y.onSlave new fun w s => w.setDev (w.slaves s).dev w.filter_on := by
    unfold bond_mc_swap
    rw [hxport, hxbond, h, hy]
    rfl
  have hxf : x.filters = w.filters := by
    unfold filters
    rw [hxdevs]
  have hoff : ∀ d, y.filters d = if w.active_dev = some d then
      (w.filters w.bond.dev).off (w.filters d) else w.filters d := by
    intro d
    unfold active_dev
    rw [hy]
    cases w.bond.curr_active_slave with
    | none => exact congrFun hxf d
    | some o =>
      simp only [onSlave, Option.map_some, Option.some.injEq]
      rw [filters_setDev, filter_off_filter hxport, hxdev o, hxbond, hxf]
      by_cases hd : d = (w.slaves o).dev
      · rw [if_pos hd, if_pos hd.symm]
        exact congrArg (w.filters w.bond.dev).off (congrFun hxf d)
      · rw [if_neg hd, if_neg fun e => hd e.symm]
  have hybond : y.filters w.bond.dev = w.filters w.bond.dev := by
    rw [hoff, if_neg hold]
  obtain ⟨hyb, hyport⟩ : y.bond = w.bond ∧ y.port = .k27 := by
    rw [hy, ← hxbond]
    cases x.bond.curr_active_slave <;> exact ⟨rfl, hxport⟩
  have hydev : ∀ s, (y.slaves s).dev = (w.slaves s).dev := by
    intro s
    rw [hy, ← hxdev s]
    cases w.bond.curr_active_slave <;> rfl
  rw [change_active_hoolock h hne, ← hx, hswap, ← hoff d]
  cases new with
  | none => rfl
  | some n =>
    simp only [Option.map_some, Option.some.injEq]
    change (y.setDev (y.slaves n).dev y.filter_on).filters d = _
    rw [filters_setDev, filter_on_filter hyport, hydev n, hyb, hybond]
    by_cases hd : d = (w.slaves n).dev
    · rw [if_pos hd, if_pos hd.symm]
      rfl
    · rw [if_neg hd, if_neg fun e => hd e.symm]

end World

end Hoolock
