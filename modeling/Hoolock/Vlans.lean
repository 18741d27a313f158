import Hoolock.VlanFeatures

/-!
VLANs over the bond: the VLAN code adds and removes ids while slaves join and leave, and the
slaves' drivers are told.
-/

set_option autoImplicit false

namespace Hoolock

/-- A driver's routines for VLANs, the group registered with it and the ids that its receive
filter lets in. -/
structure VlanDriver where
  vlan_rx_register : Bool
  vlan_rx_add_vid : Bool
  vlan_rx_kill_vid : Bool
  /-- `vlan_rx_kill_vid` clears the id's entry in the registered group -/
  clears : Bool
  grp : Option Nat
  vids : Nat → Bool

def VlanDriver.routines (v : VlanDriver) : Bool × Bool × Bool :=
  (v.vlan_rx_register, v.vlan_rx_add_vid, v.vlan_rx_kill_vid)

/-- The bond with its slaves' drivers and the groups of the VLAN code. -/
structure VlanNet where
  world : World
  drivers : DevId → VlanDriver
  /-- `bond->vlgrp` -/
  vlgrp : Option Nat
  /-- the device of an id in a group -/
  groups : Nat → Nat → Option DevId

/-- A call of the VLAN code, or whatever else happens to the bond.  `kmalloc` is what the
allocator answers. -/
inductive VlanMove where
  | register (grp : Option Nat)
  | add_vid (kmalloc : Bool) (vid : Nat)
  | kill_vid (vid : Nat)
  | bond (e : Event)

namespace World

def slave_devs (w : World) : List DevId := w.bond_for_each_slave.map fun s => (w.slaves s).dev

end World

namespace VlanNet

def setDriver (n : VlanNet) (d : DevId) (f : VlanDriver → VlanDriver) : VlanNet :=
  { n with drivers := fun e => if e = d then f (n.drivers e) else n.drivers e }

def registers (n : VlanNet) (d : DevId) : Bool :=
  (n.world.devs d).features &&& NETIF_F_HW_VLAN_RX != 0 && (n.drivers d).vlan_rx_register

def adds (n : VlanNet) (d : DevId) : Bool :=
  (n.world.devs d).features &&& NETIF_F_HW_VLAN_FILTER != 0 && (n.drivers d).vlan_rx_add_vid

def kills (n : VlanNet) (d : DevId) : Bool :=
  (n.world.devs d).features &&& NETIF_F_HW_VLAN_FILTER != 0 && (n.drivers d).vlan_rx_kill_vid

def rx_register (n : VlanNet) (slave_dev : DevId) (grp : Option Nat) : VlanNet :=
  if n.registers slave_dev then n.setDriver slave_dev fun v => { v with grp } else n

def rx_add_vid (n : VlanNet) (slave_dev : DevId) (vid : Nat) : VlanNet :=
  if n.adds slave_dev then
    n.setDriver slave_dev fun v => { v with vids := fun i => i == vid || v.vids i }
  else n

def vlan_group_set_device (n : VlanNet) (grp vid : Nat) (vlan_dev : Option DevId) : VlanNet :=
  { n with groups := fun g i => if g = grp ∧ i = vid then vlan_dev else n.groups g i }

def driver_kill_vid (n : VlanNet) (slave_dev : DevId) (vid : Nat) : VlanNet :=
  let n := match (n.drivers slave_dev).clears, (n.drivers slave_dev).grp with
    | true, some grp => n.vlan_group_set_device grp vid none
    | _, _ => n
  n.setDriver slave_dev fun v => { v with vids := fun i => i != vid && v.vids i }

/-- The driver's routine is called, the group's entry saved and put back; `none` when the entry is
read through a null pointer. -/
def rx_kill_vid (n : VlanNet) (slave_dev : DevId) (vid : Nat) : Option VlanNet :=
  if n.kills slave_dev then
    n.vlgrp.map fun grp =>
      let vlan_dev := n.groups grp vid
      (n.driver_kill_vid slave_dev vid).vlan_group_set_device grp vid vlan_dev
  else some n

/-! `bond_main.c` -/

def bond_add_vlan (n : VlanNet) (kmalloc : Bool) (vlan_id : Nat) : Int × VlanNet :=
  if !kmalloc then (-ENOMEM, n)
  else
    let w := n.world.lock .bond .write
    let w := w.setBond fun b => { b with vlan_list := b.vlan_list ++ [vlan_id] }
    (0, { n with world := w.unlock .bond .write })

/-- In TLB and ALB mode `bond_alb_clear_vlan` is called as well. -/
def bond_del_vlan (n : VlanNet) (vlan_id : Nat) : Int × VlanNet :=
  let w := n.world.lock .bond .write
  if vlan_id ∈ w.bond.vlan_list then
    let w := w.setBond fun b => { b with vlan_list := b.vlan_list.erase vlan_id }
    let w := if w.bond.vlan_list = [] ∧ w.bond.slave_cnt = 0 then
      w.setFeatures (· ||| NETIF_F_VLAN_CHALLENGED) else w
    (0, { n with world := w.unlock .bond .write })
  else (-ENODEV, { n with world := w.unlock .bond .write })

def bond_vlan_rx_register (n : VlanNet) (grp : Option Nat) : VlanNet :=
  n.world.slave_devs.foldl (fun n slave_dev => n.rx_register slave_dev grp) { n with vlgrp := grp }

def bond_vlan_rx_add_vid (n : VlanNet) (kmalloc : Bool) (vid : Nat) : VlanNet :=
  let n := n.world.slave_devs.foldl (fun n slave_dev => n.rx_add_vid slave_dev vid) n
  (n.bond_add_vlan kmalloc vid).2

def bond_vlan_rx_kill_vid (n : VlanNet) (vid : Nat) : Option VlanNet :=
  (n.world.slave_devs.foldlM (fun (n : VlanNet) slave_dev => n.rx_kill_vid slave_dev vid) n).map fun n =>
    (n.bond_del_vlan vid).2

def bond_add_vlans_on_slave (n : VlanNet) (slave_dev : DevId) : VlanNet :=
  if n.world.bond.vlan_list = [] then n
  else
    n.world.bond.vlan_list.foldl (fun n vlan_id => n.rx_add_vid slave_dev vlan_id)
      (n.rx_register slave_dev n.vlgrp)

def bond_del_vlans_from_slave (n : VlanNet) (slave_dev : DevId) : Option VlanNet :=
  if n.world.bond.vlan_list = [] then some n
  else
    (n.world.bond.vlan_list.foldlM (fun (n : VlanNet) vlan_id => n.rx_kill_vid slave_dev vlan_id) n).map
      fun n => n.rx_register slave_dev none

/-- What an event tells the drivers.  The VLANs and the features that the two functions read are
those from before: nothing on the way to their calls changes them. -/
def told (n : VlanNet) : Event → Option VlanNet
  | .enslave _ slave_dev => some (n.bond_add_vlans_on_slave slave_dev)
  | .release slave_dev => n.bond_del_vlans_from_slave slave_dev
  | .release_all | .destroy | .free_all =>
    n.world.slave_devs.foldlM (fun (n : VlanNet) slave_dev => n.bond_del_vlans_from_slave slave_dev) n
  | _ => some n

section moves

variable [Siblings]

def step (n : VlanNet) : VlanMove → Option VlanNet
  | .register grp => some (n.bond_vlan_rx_register grp)
  | .add_vid kmalloc vid => some (n.bond_vlan_rx_add_vid kmalloc vid)
  | .kill_vid vid => n.bond_vlan_rx_kill_vid vid
  | .bond e => (n.world.step e).bind fun world => (n.told e).map fun m => { m with world }

end moves

/-! What the drivers know -/

theorem same_routines {v u : VlanDriver} (h : v.routines = u.routines) :
    v.vlan_rx_register = u.vlan_rx_register ∧ v.vlan_rx_add_vid = u.vlan_rx_add_vid ∧
      v.vlan_rx_kill_vid = u.vlan_rx_kill_vid := by
  simpa [VlanDriver.routines] using h

@[simp] theorem drivers_setDriver (n : VlanNet) (d e : DevId) (f : VlanDriver → VlanDriver) :
    (n.setDriver d f).drivers e = if e = d then f (n.drivers e) else n.drivers e := rfl

theorem setDriver_setDriver (n : VlanNet) (d : DevId) (f g : VlanDriver → VlanDriver) :
    (n.setDriver d f).setDriver d g = n.setDriver d fun v => g (f v) := by
  unfold setDriver
  refine congrArg (fun h => { n with drivers := h }) (funext fun e => ?_)
  by_cases he : e = d <;> simp [he]

theorem setDriver_self (n : VlanNet) {d : DevId} {f : VlanDriver → VlanDriver}
    (hf : ∀ v, f v = v) : n.setDriver d f = n := by
  simp [setDriver, hf]

theorem calls_setDriver (n : VlanNet) (d e : DevId) {f : VlanDriver → VlanDriver}
    (hf : ∀ v, (f v).routines = v.routines) :
    (n.setDriver d f).registers e = n.registers e ∧ (n.setDriver d f).adds e = n.adds e ∧
      (n.setDriver d f).kills e = n.kills e := by
  obtain ⟨hr, ha, hk⟩ := same_routines (hf (n.drivers e))
  unfold registers adds kills
  rw [drivers_setDriver]
  split_ifs
  · rw [hr, ha, hk]
    exact ⟨rfl, rfl, rfl⟩
  · exact ⟨rfl, rfl, rfl⟩

def withDrivers (n : VlanNet) (f : DevId → VlanDriver) : VlanNet := { n with drivers := f }

/-- The drivers of the devices in `P`, and no others, have the group and let in the VLANs. -/
structure Agrees (n : VlanNet) (P : DevId → Prop) : Prop where
  pairs : ∀ d, (n.drivers d).vlan_rx_add_vid = (n.drivers d).vlan_rx_kill_vid
  vids : ∀ d vid, (n.drivers d).vids vid = true ↔
    P d ∧ n.kills d = true ∧ vid ∈ n.world.bond.vlan_list
  grp : ∀ d, P d → n.registers d = true → (n.drivers d).grp = n.vlgrp
  no_grp : ∀ d, ¬ (P d ∧ n.registers d = true) → (n.drivers d).grp = none

variable {n m : VlanNet} {P : DevId → Prop}

theorem Agrees.adds_eq (h : n.Agrees P) (d : DevId) : n.adds d = n.kills d := by
  unfold adds kills
  rw [h.pairs]

theorem Agrees.grouped (h : n.Agrees P) (d : DevId) :
    (n.drivers d).grp = none ∨ (n.drivers d).grp = n.vlgrp := by
  by_cases hd : P d ∧ n.registers d = true
  · exact Or.inr (h.grp d hd.1 hd.2)
  · exact Or.inl (h.no_grp d hd)

theorem tell_all {p : VlanNet → DevId → Bool} {f : VlanDriver → VlanDriver}
    (hp : ∀ n d e, p (n.setDriver d f) e = p n e) (hf : ∀ v, f (f v) = f v) (l : List DevId)
    (n : VlanNet) : l.foldl (fun n d => if p n d then n.setDriver d f else n) n =
      n.withDrivers fun d => if d ∈ l ∧ p n d = true then f (n.drivers d) else n.drivers d := by
  induction l generalizing n with
  | nil => simp [withDrivers]
  | cons a rest ih =>
    rw [List.foldl_cons, ih]
    by_cases ha : p n a = true
    · simp only [ha, if_true]
      unfold withDrivers
      refine congrArg (fun g => { n with drivers := g }) (funext fun d => ?_)
      by_cases hda : d = a
      · subst hda
        by_cases hd : d ∈ rest <;> simp [ha, hp, hf, hd]
      · by_cases hd : d ∈ rest <;> simp [hp, hda, hd]
    · simp only [ha, Bool.false_eq_true, if_false]
      unfold withDrivers
      refine congrArg (fun g => { n with drivers := g }) (funext fun d => ?_)
      by_cases hda : d = a
      · subst hda
        simp [ha]
      · simp [hda]

/-! The receive filters -/

theorem foldlM_eq {σ α : Type} {f : σ → α → Option σ} {g : σ → α → σ} {Q : σ → Prop}
    (hstep : ∀ s a t, Q s → f s a = some t → t = g s a ∧ Q t) {l : List α} {s t : σ} (hs : Q s)
    (h : l.foldlM f s = some t) : t = l.foldl g s ∧ Q t := by
  induction l generalizing s with
  | nil =>
    obtain rfl := Option.some.inj h
    exact ⟨rfl, hs⟩
  | cons a rest ih =>
    rw [List.foldlM_cons] at h
    obtain ⟨u, hu, hrest⟩ := Option.bind_eq_some_iff.mp h
    obtain ⟨rfl, hq⟩ := hstep s a u hs hu
    exact ih hq hrest

theorem foldlM_keeps {σ α : Type} {f : σ → α → Option σ} {Q : σ → Prop}
    (hstep : ∀ s a t, Q s → f s a = some t → Q t) {l : List α} {s t : σ} (hs : Q s)
    (h : l.foldlM f s = some t) : Q t :=
  (foldlM_eq (g := fun s a => (f s a).getD s)
    (fun s a t hs ht => ⟨by rw [ht]; rfl, hstep s a t hs ht⟩) hs h).2

def Grouped (n : VlanNet) : Prop :=
  ∀ d, (n.drivers d).grp = none ∨ (n.drivers d).grp = n.vlgrp

theorem Grouped.setDriver (h : n.Grouped) (d : DevId) {f : VlanDriver → VlanDriver}
    (hf : ∀ v, (f v).grp = none ∨ (f v).grp = v.grp) : (n.setDriver d f).Grouped := by
  intro e
  rw [drivers_setDriver]
  split_ifs
  · rcases hf (n.drivers e) with hnone | hsame
    · exact Or.inl hnone
    · rw [hsame]
      exact h e
  · exact h e

theorem same_entry (n : VlanNet) (grp vid : Nat) :
    n.vlan_group_set_device grp vid (n.groups grp vid) = n := by
  unfold vlan_group_set_device
  refine congrArg (fun g => { n with groups := g }) (funext fun g => funext fun i => ?_)
  by_cases hg : g = grp ∧ i = vid
  · simp [hg]
  · simp [hg]

theorem restore_entry (n : VlanNet) (grp vid : Nat) (x : Option DevId) :
    (n.vlan_group_set_device grp vid x).vlan_group_set_device grp vid (n.groups grp vid) = n := by
  unfold vlan_group_set_device
  refine congrArg (fun g => { n with groups := g }) (funext fun g => funext fun i => ?_)
  by_cases hg : g = grp ∧ i = vid
  · simp [hg]
  · simp [hg]

/-- The routine of a driver without another group than the bond's clears that group's entry at
most. -/
theorem driver_kill_entry (d : DevId) (vid : Nat) {grp : Nat} (hg : n.Grouped) (hgrp : n.vlgrp = some grp) :
    ∃ x, n.driver_kill_vid d vid = (n.vlan_group_set_device grp vid x).setDriver d fun v =>
      { v with vids := fun i => i != vid && v.vids i } := by
  have hkeep : ∀ k : VlanNet, k = n → k.setDriver d (fun v =>
      { v with vids := fun i => i != vid && v.vids i }) = (n.vlan_group_set_device grp vid
        (n.groups grp vid)).setDriver d fun v =>
          { v with vids := fun i => i != vid && v.vids i } := by
    rintro k rfl
    rw [same_entry]
  unfold driver_kill_vid
  cases (n.drivers d).clears with
  | false => exact ⟨_, hkeep n rfl⟩
  | true =>
    rcases hg d with hnone | hbond
    · rw [hnone]
      exact ⟨_, hkeep n rfl⟩
    · rw [hbond, hgrp]
      exact ⟨none, rfl⟩

theorem rx_kill_some {d : DevId} {vid : Nat} (hg : n.Grouped) (h : n.rx_kill_vid d vid = some m) :
    m = if n.kills d then
      n.setDriver d fun v => { v with vids := fun i => i != vid && v.vids i } else n := by
  unfold rx_kill_vid at h
  split_ifs at h ⊢ with hk
  · obtain ⟨grp, hgrp, rfl⟩ := Option.map_eq_some_iff.mp h
    obtain ⟨x, hx⟩ := driver_kill_entry d vid hg hgrp
    have hrestored := restore_entry n grp vid x
    dsimp only
    rw [hx]
    exact congrArg (fun k : VlanNet => k.setDriver d fun v =>
      { v with vids := fun i => i != vid && v.vids i }) hrestored
  · exact (Option.some.inj h).symm

theorem kill_all {vid : Nat} (hg : n.Grouped) {l : List DevId}
    (h : l.foldlM (fun (n : VlanNet) d => n.rx_kill_vid d vid) n = some m) :
    m = n.withDrivers fun d => if d ∈ l ∧ n.kills d = true then
      { n.drivers d with vids := fun i => i != vid && (n.drivers d).vids i } else n.drivers d := by
  obtain ⟨hm, -⟩ := foldlM_eq (Q := Grouped) (g := fun (n : VlanNet) d => if n.kills d then
    n.setDriver d fun v => { v with vids := fun i => i != vid && v.vids i } else n)
    (fun k d t hk ht => by
      have heq := rx_kill_some hk ht
      refine ⟨heq, ?_⟩
      rw [heq]
      split_ifs
      · exact hk.setDriver d fun _ => Or.inr rfl
      · exact hk) hg h
  rw [hm]
  refine tell_all (p := kills) (fun k d e => ?_) (fun v => ?_) l n
  · exact (calls_setDriver k d e (by intro v; rfl)).2.2
  · simp

theorem tell_each {p : VlanNet → DevId → Bool} {f : Nat → VlanDriver → VlanDriver} {d : DevId}
    (hp : ∀ n i, p (n.setDriver d (f i)) d = p n d) (l : List Nat) (n : VlanNet) :
    l.foldl (fun n i => if p n d then n.setDriver d (f i) else n) n =
      if p n d then n.setDriver d fun v => l.foldl (fun v i => f i v) v else n := by
  induction l generalizing n with
  | nil =>
    have hsame := n.setDriver_self (d := d) (f := fun v => v) fun _ => rfl
    simp [hsame]
  | cons i rest ih =>
    rw [List.foldl_cons, ih]
    by_cases hd : p n d = true
    · simp only [hd, if_true, hp, List.foldl_cons]
      unfold setDriver
      refine congrArg (fun g => { n with drivers := g }) (funext fun e => ?_)
      by_cases he : e = d <;> simp [he]
    · simp [hd]

theorem foldl_add (l : List Nat) (v : VlanDriver) :
    l.foldl (fun v i => { v with vids := fun j => j == i || v.vids j }) v =
      { v with vids := fun j => l.contains j || v.vids j } := by
  induction l generalizing v with
  | nil => simp
  | cons i rest ih =>
    rw [List.foldl_cons, ih]
    refine congrArg (fun g => { v with vids := g }) (funext fun j => ?_)
    by_cases hj : j = i
    · simp [hj]
    · have hne : (j == i) = false := by simpa using hj
      simp [hj, hne]

theorem foldl_kill (l : List Nat) (v : VlanDriver) :
    l.foldl (fun v i => { v with vids := fun j => j != i && v.vids j }) v =
      { v with vids := fun j => !l.contains j && v.vids j } := by
  induction l generalizing v with
  | nil => simp
  | cons i rest ih =>
    rw [List.foldl_cons, ih]
    refine congrArg (fun g => { v with vids := g }) (funext fun j => ?_)
    by_cases hj : j = i
    · simp [hj]
    · have hne : (j == i) = false := by simpa using hj
      simp [hj, hne, bne]

theorem kill_each {d : DevId} (hg : n.Grouped) {l : List Nat}
    (h : l.foldlM (fun (n : VlanNet) vid => n.rx_kill_vid d vid) n = some m) :
    m = if n.kills d then
      n.setDriver d fun v => { v with vids := fun i => !l.contains i && v.vids i } else n := by
  obtain ⟨hm, -⟩ := foldlM_eq (Q := Grouped) (g := fun (n : VlanNet) vid => if n.kills d then
    n.setDriver d fun v => { v with vids := fun i => i != vid && v.vids i } else n)
    (fun k vid t hk ht => by
      have heq := rx_kill_some hk ht
      refine ⟨heq, ?_⟩
      rw [heq]
      split_ifs
      · exact hk.setDriver d fun _ => Or.inr rfl
      · exact hk) hg h
  have heach := tell_each (p := kills) (f := fun i v => { v with vids := fun j => j != i && v.vids j })
    (d := d) (fun k i => (calls_setDriver k d d (by intro v; rfl)).2.2) l n
  rw [hm, heach]
  simp only [foldl_kill]

/-! A slave joins or leaves -/

theorem Agrees.setDriver (h : n.Agrees P) {Q : DevId → Prop} {d : DevId}
    {f : VlanDriver → VlanDriver} (hPQ : ∀ e, e ≠ d → (Q e ↔ P e))
    (hf : ∀ v, (f v).routines = v.routines)
    (hvids : ∀ vid, (f (n.drivers d)).vids vid = true ↔
      Q d ∧ n.kills d = true ∧ vid ∈ n.world.bond.vlan_list)
    (hgrp : Q d → n.registers d = true → (f (n.drivers d)).grp = n.vlgrp)
    (hno : ¬ (Q d ∧ n.registers d = true) → (f (n.drivers d)).grp = none) :
    (n.setDriver d f).Agrees Q := by
  have hcalls := fun e => calls_setDriver n d e hf
  refine ⟨fun e => ?_, fun e vid => ?_, fun e he hr => ?_, fun e he => ?_⟩
  · obtain ⟨-, ha, hk⟩ := same_routines (hf (n.drivers e))
    rw [drivers_setDriver]
    split_ifs
    · rw [ha, hk]
      exact h.pairs e
    · exact h.pairs e
  · rw [(hcalls e).2.2, drivers_setDriver]
    split_ifs with hed
    · rw [hed]
      exact hvids vid
    · rw [hPQ e hed]
      exact h.vids e vid
  · rw [(hcalls e).1] at hr
    rw [drivers_setDriver]
    split_ifs with hed
    · rw [hed] at he hr ⊢
      exact hgrp he hr
    · exact h.grp e ((hPQ e hed).mp he) hr
  · rw [(hcalls e).1] at he
    rw [drivers_setDriver]
    split_ifs with hed
    · rw [hed] at he ⊢
      exact hno he
    · rw [hPQ e hed] at he
      exact h.no_grp e he

def joined (n : VlanNet) (d : DevId) (v : VlanDriver) : VlanDriver :=
  { v with
    grp := if n.registers d then n.vlgrp else v.grp
    vids := fun i => n.adds d && n.world.bond.vlan_list.contains i || v.vids i }

theorem add_vlans_eq (n : VlanNet) (d : DevId) (hl : n.world.bond.vlan_list ≠ []) :
    n.bond_add_vlans_on_slave d = n.setDriver d (n.joined d) := by
  obtain ⟨k, hk⟩ : ∃ k, k = n.rx_register d n.vlgrp := ⟨_, rfl⟩
  have hkeq : k = n.setDriver d fun v =>
      { v with grp := if n.registers d then n.vlgrp else v.grp } := by
    rw [hk]
    unfold rx_register
    split_ifs
    · rfl
    · exact (n.setDriver_self fun _ => rfl).symm
  have hka : k.adds d = n.adds d := by
    rw [hkeq]
    exact (calls_setDriver n d d (by intro v; rfl)).2.1
  have heach := tell_each (p := adds)
    (f := fun i v => { v with vids := fun j => j == i || v.vids j }) (d := d)
    (fun k i => (calls_setDriver k d d (by intro v; rfl)).2.1) n.world.bond.vlan_list k
  simp only [foldl_add, hka] at heach
  unfold bond_add_vlans_on_slave
  rw [if_neg hl, ← hk]
  refine heach.trans ?_
  rw [hkeq, setDriver_setDriver]
  unfold joined
  cases n.adds d <;> simp

theorem Agrees.join (h : n.Agrees P) {d : DevId} (hd : ¬ P d)
    (hgrp : n.world.bond.vlan_list = [] → n.vlgrp = none) :
    ∃ f, n.bond_add_vlans_on_slave d = n.setDriver d f ∧
      (n.setDriver d f).Agrees fun e => P e ∨ e = d := by
  have hnogrp : (n.drivers d).grp = none := h.no_grp d fun hp => hd hp.1
  have hnovids : ∀ vid, (n.drivers d).vids vid = false := fun vid => by
    by_contra hne
    exact hd ((h.vids d vid).mp (by simpa using hne)).1
  by_cases hl : n.world.bond.vlan_list = []
  · have hnone := hgrp hl
    have hsame := n.setDriver_self (d := d) (f := fun v => v) fun _ => rfl
    refine ⟨fun v => v, ?_, h.setDriver (fun e he => by simp [he]) (fun _ => rfl) (fun vid => ?_)
      (fun _ _ => hnogrp.trans hnone.symm) fun _ => hnogrp⟩
    · unfold bond_add_vlans_on_slave
      rw [if_pos hl, hsame]
    · simp [hnovids, hl]
  · refine ⟨n.joined d, n.add_vlans_eq d hl, h.setDriver (fun e he => by simp [he])
      (fun _ => rfl) (fun vid => ?_) (fun _ hr => ?_) fun hno => ?_⟩
    · simp [joined, hnovids, h.adds_eq]
    · simp [joined, hr]
    · have hr : n.registers d = false := by simpa using hno
      simp [joined, hr, hnogrp]

def left (n : VlanNet) (d : DevId) (v : VlanDriver) : VlanDriver :=
  { v with
    grp := if n.registers d then none else v.grp
    vids := fun i => !(n.kills d && n.world.bond.vlan_list.contains i) && v.vids i }

theorem del_vlans_eq {d : DevId} (hg : n.Grouped) (hl : n.world.bond.vlan_list ≠ [])
    (h : n.bond_del_vlans_from_slave d = some m) : m = n.setDriver d (n.left d) := by
  unfold bond_del_vlans_from_slave at h
  rw [if_neg hl] at h
  obtain ⟨k, hk, rfl⟩ := Option.map_eq_some_iff.mp h
  have hkeq := kill_each hg hk
  have hkr : k.registers d = n.registers d := by
    rw [hkeq]
    split_ifs
    · exact (calls_setDriver n d d (by intro v; rfl)).1
    · rfl
  have hkset : k = n.setDriver d fun v =>
      { v with vids := fun i => !(n.kills d && n.world.bond.vlan_list.contains i) && v.vids i } := by
    rw [hkeq]
    cases n.kills d with
    | false => exact (n.setDriver_self fun v => by simp).symm
    | true => simp
  unfold rx_register
  rw [hkr, hkset]
  unfold left
  cases n.registers d with
  | false => simp
  | true => simp [setDriver_setDriver]

theorem Agrees.leave (h : n.Agrees P) {d : DevId} (hgrp : n.world.bond.vlan_list = [] →
    n.vlgrp = none) (hm : n.bond_del_vlans_from_slave d = some m) :
    ∃ f, m = n.setDriver d f ∧ m.Agrees fun e => P e ∧ e ≠ d := by
  by_cases hl : n.world.bond.vlan_list = []
  · have hnone := hgrp hl
    have hsame := n.setDriver_self (d := d) (f := fun v => v) fun _ => rfl
    have hnovids : ∀ vid, (n.drivers d).vids vid = false := fun vid => by
      by_contra hne
      have hmem := ((h.vids d vid).mp (by simpa using hne)).2.2
      rw [hl] at hmem
      cases hmem
    have hnogrp : (n.drivers d).grp = none := by
      rcases h.grouped d with hno | hbond
      · exact hno
      · exact hbond.trans hnone
    unfold bond_del_vlans_from_slave at hm
    rw [if_pos hl] at hm
    obtain rfl := Option.some.inj hm
    refine ⟨fun v => v, hsame.symm, ?_⟩
    have hagrees := h.setDriver (Q := fun e => P e ∧ e ≠ d) (d := d) (f := fun v => v)
      (fun e he => by simp [he]) (fun _ => rfl) (fun vid => by simp [hnovids, hl])
      (fun hd => absurd rfl hd.2) fun _ => hnogrp
    rwa [hsame] at hagrees
  · have hmeq := del_vlans_eq h.grouped hl hm
    refine ⟨n.left d, hmeq, ?_⟩
    rw [hmeq]
    refine h.setDriver (fun e he => by simp [he]) (fun _ => rfl) (fun vid => ?_)
      (fun hd => absurd rfl hd.2) fun _ => ?_
    · have hmem := h.vids d vid
      simp only [left]
      constructor
      · intro hin
        simp only [Bool.and_eq_true, Bool.not_eq_true', Bool.and_eq_false_iff] at hin
        obtain ⟨-, hk, hv⟩ := hmem.mp hin.2
        rcases hin.1 with hk' | hv'
        · rw [hk] at hk'
          cases hk'
        · simp [hv] at hv'
      · exact fun hd => absurd rfl hd.1.2
    · by_cases hr : n.registers d = true
      · simp [left, hr]
      · have hoff := h.no_grp d fun hp => hr hp.2
        simp [left, hr, hoff]

end VlanNet

/-! The slaves' devices over the events -/

namespace World

theorem Ring.slave_devs {w : World} {l : List SlaveId} (h : w.Ring l) :
    w.slave_devs = l.map fun s => (w.slaves s).dev := by
  unfold World.slave_devs
  rw [h.for_each]

theorem slave_devs_of_shape {w v : World} {l : List SlaveId} (h : w.Ring l)
    (hs : v.shape = w.shape) : v.slave_devs = w.slave_devs := by
  have hdev : ∀ t, (v.slaves t).dev = (w.slaves t).dev := congrFun (congrArg Shape.dev hs)
  rw [(h.of_shape hs).slave_devs, h.slave_devs]
  simp [hdev]

theorem Inv.slave_devs_foreign {w : World} {l : List SlaveId} (h : w.Inv l) {d : DevId}
    (hd : d ∈ w.slave_devs) : d ≠ w.bond.dev := by
  rw [h.toRing.slave_devs] at hd
  obtain ⟨s, hs, rfl⟩ := List.mem_map.mp hd
  exact h.foreign s hs

/-- From `w` to `v` no other features than the bond's have changed, and the slaves' devices are
those in `Q`. -/
structure Moved (w v : World) (Q : DevId → Prop) : Prop where
  inv : ∃ l, v.Inv l
  flagged : ∃ b, Flagged w v b
  devs : ∀ d, d ∈ v.slave_devs ↔ Q d

end World

def Event.slaves_after (P : DevId → Prop) : Event → DevId → Prop
  | .enslave _ d => fun e => P e ∨ e = d
  | .release d => fun e => P e ∧ e ≠ d
  | .release_all | .destroy | .free_all => fun _ => False
  | _ => P

namespace World

theorem Inv.free_dev {w : World} {l : List SlaveId} (h : w.Inv l) {d : DevId}
    (hd : (w.devs d).master = none) : d ∉ w.slave_devs := by
  intro hmem
  rw [h.toRing.slave_devs] at hmem
  obtain ⟨s, hs, rfl⟩ := List.mem_map.mp hmem
  have howned : (w.devs (w.slaves s).dev).master = some w.bond.dev :=
    congrArg Prod.snd (h.owned s hs)
  rw [hd] at howned
  cases howned

section events

variable [Siblings]

theorem Inv.moved_enslave {w v : World} {l : List SlaveId} (h : w.Inv l) {env : EnslaveEnv}
    {d : DevId} (hv : w.step (.enslave env d) = some v) :
    Moved w v (fun e => e ∈ w.slave_devs ∨ e = d) ∧ d ∉ w.slave_devs ∧ d ≠ w.bond.dev := by
  have hinv := h.step hv
  simp only [World.step] at hv
  split_ifs at hv with hcond
  obtain ⟨hd, hfresh, hret⟩ := hcond
  have hr : bond_enslave env w d = (0, v) := Prod.ext hret (Option.some.inj hv)
  obtain ⟨s, hs, he⟩ := bond_enslave_ok h.port h.mode hr
  obtain ⟨hflag, -⟩ := flagged_enslave h.port h.mode hret
  rw [hr] at hflag
  have hcore : v.core = w.core := by
    have hsame := core_bond_enslave env w d
    rwa [hr] at hsame
  have hlive : w.live s = false := by
    rw [hs] at hfresh
    simpa using hfresh
  have hring := h.after_enslave hlive hd he hcore
  refine ⟨⟨hinv, ⟨_, hflag⟩, fun e => ?_⟩, h.free_dev he.free, hd⟩
  have hold : ∀ t ∈ l, (v.slaves t).dev = (w.slaves t).dev := by
    intro t ht
    rw [he.dev_slave, if_neg]
    rintro rfl
    rw [h.live t ht] at hlive
    cases hlive
  have hnew : (v.slaves s).dev = d := by
    rw [he.dev_slave, if_pos rfl]
  rw [hring.toRing.slave_devs, h.toRing.slave_devs, List.map_append, List.mem_append,
    List.map_congr_left hold, List.map_singleton, List.mem_singleton, hnew]

omit [Siblings] in
theorem Inv.devs_erase {w : World} {l : List SlaveId} (h : w.Inv l) {s : SlaveId} (hs : s ∈ l)
    (e : DevId) : e ∈ (l.erase s).map (fun t => (w.slaves t).dev) ↔
      e ∈ w.slave_devs ∧ e ≠ (w.slaves s).dev := by
  rw [h.toRing.slave_devs]
  simp only [List.mem_map, h.toRing.nodup.mem_erase_iff]
  constructor
  · rintro ⟨t, ⟨hts, ht⟩, rfl⟩
    exact ⟨⟨t, ht, rfl⟩, fun hsame => hts (h.distinct s hs t ht hsame)⟩
  · rintro ⟨⟨t, ht, rfl⟩, hne⟩
    refine ⟨t, ⟨?_, ht⟩, rfl⟩
    rintro rfl
    exact hne rfl

theorem Inv.moved_release {w v : World} {l : List SlaveId} (h : w.Inv l) {d : DevId}
    (hv : w.step (.release d) = some v) :
    Moved w v (fun e => e ∈ w.slave_devs ∧ e ≠ d) ∧ d ∈ w.slave_devs := by
  have hinv := h.step hv
  simp only [World.step] at hv
  split_ifs at hv with hret
  have hv := Option.some.inj hv
  have hr : w.bond_release d = (0, v) := Prod.ext hret hv
  obtain ⟨s, hs, hsd, hleft, -, hring⟩ := h.release hr
  obtain ⟨t, -, -, hflag⟩ := h.flagged_release hr
  have hdev : ∀ t, (v.slaves t).dev = (w.slaves t).dev :=
    congrFun (congrArg Shape.dev hleft.shape)
  refine ⟨⟨hinv, ⟨_, hflag⟩, fun e => ?_⟩, ?_⟩
  · rw [hring.toRing.slave_devs, ← hsd, ← h.devs_erase hs]
    simp only [hdev]
  · rw [h.toRing.slave_devs, ← hsd]
    exact List.mem_map.mpr ⟨s, hs, rfl⟩

omit [Siblings] in
theorem no_slave_devs {v : World} (h : v.Inv []) (e : DevId) : e ∈ v.slave_devs ↔ False := by
  rw [h.toRing.slave_devs]
  simp

theorem Inv.flagged_destroy {w : World} {l : List SlaveId} (h : w.Inv l) :
    Flagged w w.bond_destroy (if l = [] then w.bond_dev.challenged
      else if w.bond.vlan_list = [] then true else w.bond_dev.challenged) := by
  have hclose := Flagged.of_vlans (vlans_close_bond w)
  have hall := h.close_bond.flagged_release_all
  rw [hclose.flag, hclose.vlan_list] at hall
  exact hclose.trans hall

theorem Inv.flagged_free_all {w : World} {l : List SlaveId} (h : w.Inv l) :
    Flagged w w.bond_free_all (if l = [] then w.bond_dev.challenged
      else if w.bond.vlan_list = [] then true else w.bond_dev.challenged) := by
  obtain ⟨x, hx⟩ : ∃ x, x = ((w.lock .bond .write).setBond fun b =>
    { b with kill_timers := true }).unlock .bond .write := ⟨_, rfl⟩
  have hxi : x.Inv l := by
    rw [hx]
    have hkill : ((w.lock .bond .write).setBond fun b => { b with kill_timers := true }).Inv l :=
      (h.lock .bond .write).congr_pointers rfl rfl
    exact hkill.unlock .bond .write
  have hxf : Flagged w x w.bond_dev.challenged := by
    rw [hx]
    exact Flagged.of_vlans rfl
  have hall := hxi.flagged_release_all
  rw [hxf.flag, hxf.vlan_list] at hall
  have hemptied := hxf.trans hall
  have hrest := hxi.release_all.1.flagged_destroy
  rw [if_pos rfl, hemptied.flag] at hrest
  unfold bond_free_all
  dsimp only
  rw [← hx]
  exact hemptied.trans hrest

theorem Inv.moved {w v : World} {l : List SlaveId} (h : w.Inv l) {e : Event}
    (hv : w.step e = some v) : Moved w v (e.slaves_after (· ∈ w.slave_devs)) := by
  by_cases he : e.moves_slaves = true
  · have hinv := h.step hv
    cases e with
    | enslave env d => exact (h.moved_enslave hv).1
    | release d => exact (h.moved_release hv).1
    | release_all =>
      cases hv
      exact ⟨hinv, ⟨_, h.flagged_release_all⟩, no_slave_devs h.release_all.1⟩
    | destroy =>
      cases hv
      exact ⟨hinv, ⟨_, h.flagged_destroy⟩, no_slave_devs h.destroy.1⟩
    | free_all =>
      cases hv
      exact ⟨hinv, ⟨_, h.flagged_free_all⟩, no_slave_devs h.free_all.1⟩
    | _ => cases he
  · have hquiet : e.moves_slaves = false := by simpa using he
    obtain ⟨hkeeps, hvlans⟩ := step_beside_slaves h.mode hquiet hv
    have hdevs := slave_devs_of_shape h.toRing hkeeps.shape
    refine ⟨h.step hv, ⟨_, Flagged.of_vlans hvlans⟩, fun d => ?_⟩
    rw [hdevs]
    cases e with
    | enslave env d => cases hquiet
    | release d => cases hquiet
    | release_all => cases hquiet
    | destroy => cases hquiet
    | free_all => cases hquiet
    | _ => exact Iff.rfl

end events

end World

namespace VlanNet

/-! The drivers over the moves -/

variable {n m : VlanNet} {P Q : DevId → Prop}

theorem Agrees.congr (h : n.Agrees P) (hPQ : ∀ d, Q d ↔ P d) : n.Agrees Q := by
  have heq : Q = P := funext fun d => propext (hPQ d)
  rwa [heq]

theorem Agrees.of_world (h : n.Agrees P) (world : World)
    (hf : ∀ d, P d → (world.devs d).features = (n.world.devs d).features)
    (hl : world.bond.vlan_list = n.world.bond.vlan_list) : { n with world }.Agrees P := by
  have hcalls : ∀ d, P d → { n with world }.registers d = n.registers d ∧
      { n with world }.kills d = n.kills d := by
    intro d hd
    unfold registers kills
    rw [hf d hd]
    exact ⟨rfl, rfl⟩
  refine ⟨h.pairs, fun d vid => ?_, fun d hd hr => ?_, fun d hd => ?_⟩
  · rw [hl]
    refine (h.vids d vid).trans (and_congr_right fun hd => ?_)
    rw [(hcalls d hd).2]
  · rw [(hcalls d hd).1] at hr
    exact h.grp d hd hr
  · refine h.no_grp d fun hr => hd ⟨hr.1, ?_⟩
    rw [(hcalls d hr.1).1]
    exact hr.2

theorem Agrees.leave_all (h : n.Agrees P) (hgrp : n.world.bond.vlan_list = [] → n.vlgrp = none)
    {l : List DevId}
    (hm : l.foldlM (fun (n : VlanNet) d => n.bond_del_vlans_from_slave d) n = some m) :
    m = n.withDrivers m.drivers ∧ m.Agrees fun e => P e ∧ e ∉ l := by
  induction l generalizing n P with
  | nil =>
    obtain rfl := Option.some.inj hm
    exact ⟨rfl, h.congr fun e => by simp⟩
  | cons d rest ih =>
    rw [List.foldlM_cons] at hm
    obtain ⟨k, hk, hrest⟩ := Option.bind_eq_some_iff.mp hm
    obtain ⟨f, rfl, hagrees⟩ := h.leave hgrp hk
    obtain ⟨hsame, hall⟩ := ih hagrees hgrp hrest
    refine ⟨hsame, hall.congr fun e => ?_⟩
    simp [and_assoc]

theorem Agrees.told (h : n.Agrees P) (hgrp : n.world.bond.vlan_list = [] → n.vlgrp = none)
    {e : Event} (hP : ∀ d, P d ↔ d ∈ n.world.slave_devs)
    (hjoin : ∀ env d, e = .enslave env d → ¬ P d) (hm : n.told e = some m) :
    m = n.withDrivers m.drivers ∧ m.Agrees (e.slaves_after P) := by
  have hgone : ∀ {k : VlanNet}, n.world.slave_devs.foldlM
      (fun (n : VlanNet) d => n.bond_del_vlans_from_slave d) n = some k →
      k = n.withDrivers k.drivers ∧ k.Agrees fun _ => False := by
    intro k hk
    obtain ⟨hsame, hall⟩ := h.leave_all hgrp hk
    exact ⟨hsame, hall.congr fun d => by simp [hP]⟩
  cases e with
  | enslave env d =>
    obtain rfl := Option.some.inj hm
    obtain ⟨f, hf, hagrees⟩ := h.join (hjoin env d rfl) hgrp
    rw [hf]
    exact ⟨rfl, hagrees⟩
  | release d =>
    obtain ⟨f, rfl, hagrees⟩ := h.leave hgrp hm
    exact ⟨rfl, hagrees⟩
  | release_all => exact hgone hm
  | destroy => exact hgone hm
  | free_all => exact hgone hm
  | _ =>
    obtain rfl := Option.some.inj hm
    exact ⟨rfl, h⟩

theorem register_eq (n : VlanNet) (grp : Option Nat) : n.bond_vlan_rx_register grp =
    { n with vlgrp := grp }.withDrivers fun d =>
      if d ∈ n.world.slave_devs ∧ n.registers d = true then { n.drivers d with grp }
      else n.drivers d := by
  unfold bond_vlan_rx_register
  refine tell_all (p := registers) (f := fun v => { v with grp }) (fun k d e => ?_) (fun _ => rfl)
    n.world.slave_devs { n with vlgrp := grp }
  exact (calls_setDriver k d e (by intro v; rfl)).1

theorem Agrees.register (h : n.Agrees P) (hP : ∀ d, P d ↔ d ∈ n.world.slave_devs)
    (grp : Option Nat) : (n.bond_vlan_rx_register grp).Agrees P := by
  have hroutines : ∀ d, ((n.bond_vlan_rx_register grp).drivers d).routines =
      (n.drivers d).routines := by
    intro d
    rw [register_eq]
    simp only [withDrivers]
    split_ifs <;> rfl
  have hworld : (n.bond_vlan_rx_register grp).world = n.world := by
    rw [register_eq]
    rfl
  have hcalls : ∀ d, (n.bond_vlan_rx_register grp).registers d = n.registers d ∧
      (n.bond_vlan_rx_register grp).kills d = n.kills d := by
    intro d
    obtain ⟨hr, -, hk⟩ := same_routines (hroutines d)
    unfold registers kills
    rw [hworld, hr, hk]
    exact ⟨rfl, rfl⟩
  refine ⟨fun d => ?_, fun d vid => ?_, fun d hd hr => ?_, fun d hd => ?_⟩
  · obtain ⟨-, ha, hk⟩ := same_routines (hroutines d)
    rw [ha, hk]
    exact h.pairs d
  · rw [(hcalls d).2, hworld, ← h.vids d vid, register_eq]
    simp only [withDrivers]
    split_ifs <;> exact Iff.rfl
  · rw [(hcalls d).1] at hr
    rw [register_eq]
    simp [withDrivers, (hP d).mp hd, hr]
  · rw [(hcalls d).1, hP d] at hd
    rw [register_eq]
    simp only [withDrivers, if_neg hd]
    exact h.no_grp d fun hp => hd ⟨(hP d).mp hp.1, hp.2⟩

theorem Agrees.refiltered (h : n.Agrees P) (hP : ∀ d, P d ↔ d ∈ n.world.slave_devs)
    {f : (Nat → Bool) → Nat → Bool} (world : World)
    (hf : ∀ d, P d → (world.devs d).features = (n.world.devs d).features)
    (hlist : ∀ vids : Nat → Bool, (∀ i, vids i = true ↔ i ∈ n.world.bond.vlan_list) →
      ∀ i, f vids i = true ↔ i ∈ world.bond.vlan_list) :
    { n.withDrivers (fun d => if d ∈ n.world.slave_devs ∧ n.kills d = true then
      { n.drivers d with vids := f (n.drivers d).vids } else n.drivers d) with world }.Agrees P := by
  obtain ⟨m, hm⟩ : ∃ m, m = { n.withDrivers (fun d =>
    if d ∈ n.world.slave_devs ∧ n.kills d = true then
      { n.drivers d with vids := f (n.drivers d).vids } else n.drivers d) with world } := ⟨_, rfl⟩
  have hdrivers : ∀ d, m.drivers d = if d ∈ n.world.slave_devs ∧ n.kills d = true then
      { n.drivers d with vids := f (n.drivers d).vids } else n.drivers d := fun d => by rw [hm]; rfl
  have hroutines : ∀ d, (m.drivers d).routines = (n.drivers d).routines := by
    intro d
    rw [hdrivers]
    split_ifs <;> rfl
  have hgrp : ∀ d, (m.drivers d).grp = (n.drivers d).grp := by
    intro d
    rw [hdrivers]
    split_ifs <;> rfl
  have hcalls : ∀ d, P d → m.registers d = n.registers d ∧ m.kills d = n.kills d := by
    intro d hd
    obtain ⟨hr, -, hk⟩ := same_routines (hroutines d)
    have hfeatures : (m.world.devs d).features = (n.world.devs d).features := hm ▸ hf d hd
    unfold registers kills
    rw [hr, hk, hfeatures]
    exact ⟨rfl, rfl⟩
  have hvlgrp : m.vlgrp = n.vlgrp := by rw [hm]; rfl
  have hvlans : m.world.bond.vlan_list = world.bond.vlan_list := by rw [hm]
  rw [← hm]
  refine ⟨fun d => ?_, fun d vid => ?_, fun d hd hr => ?_, fun d hd => ?_⟩
  · obtain ⟨-, ha, hk⟩ := same_routines (hroutines d)
    rw [ha, hk]
    exact h.pairs d
  · rw [hdrivers, hvlans]
    split_ifs with hd
    · have hp := (hP d).mpr hd.1
      rw [(hcalls d hp).2, hlist (n.drivers d).vids fun i => by simp [h.vids d i, hp, hd.2]]
      simp [hp, hd.2]
    · rw [h.vids d vid]
      constructor
      · exact fun hv => absurd ⟨(hP d).mp hv.1, hv.2.1⟩ hd
      · rintro ⟨hp, hk, -⟩
        rw [(hcalls d hp).2] at hk
        exact absurd ⟨(hP d).mp hp, hk⟩ hd
  · rw [(hcalls d hd).1] at hr
    rw [hgrp, hvlgrp]
    exact h.grp d hd hr
  · rw [hgrp]
    refine h.no_grp d fun hr => hd ⟨hr.1, ?_⟩
    rw [(hcalls d hr.1).1]
    exact hr.2

/-- The VLAN code's own demands: it asks for each id once and takes back what it has asked for, the
allocator never refuses, and a group is registered as long as there are ids.  While a group is
registered without ids no slave joins or leaves: `bond_add_vlans_on_slave` tells a driver of the
group with the ids only. -/
def Asked (n : VlanNet) : VlanMove → Prop
  | .register grp => grp = none → n.world.bond.vlan_list = []
  | .add_vid kmalloc vid => kmalloc = true ∧ vid ∉ n.world.bond.vlan_list ∧ n.vlgrp ≠ none
  | .kill_vid vid => vid ∈ n.world.bond.vlan_list
  | .bond e => e.moves_slaves = true → n.world.bond.vlan_list = [] → n.vlgrp = none

instance (n : VlanNet) (e : VlanMove) : Decidable (n.Asked e) :=
  match e with
  | .register grp => inferInstanceAs (Decidable (grp = none → n.world.bond.vlan_list = []))
  | .add_vid kmalloc vid => inferInstanceAs (Decidable
    (kmalloc = true ∧ vid ∉ n.world.bond.vlan_list ∧ n.vlgrp ≠ none))
  | .kill_vid vid => inferInstanceAs (Decidable (vid ∈ n.world.bond.vlan_list))
  | .bond e => inferInstanceAs (Decidable
    (e.moves_slaves = true → n.world.bond.vlan_list = [] → n.vlgrp = none))

structure Known (n : VlanNet) : Prop where
  inv : ∃ l, n.world.Inv l
  agrees : n.Agrees (· ∈ n.world.slave_devs)
  nodup : n.world.bond.vlan_list.Nodup
  group : n.world.bond.vlan_list ≠ [] → n.vlgrp ≠ none

theorem Known.register (h : n.Known) {grp : Option Nat}
    (hask : grp = none → n.world.bond.vlan_list = []) :
    (n.bond_vlan_rx_register grp).Known ∧ (n.bond_vlan_rx_register grp).groups = n.groups := by
  have hagrees := h.agrees.register (fun _ => Iff.rfl) grp
  have hworld : (n.bond_vlan_rx_register grp).world = n.world := by
    rw [register_eq]
    rfl
  have hgrp : (n.bond_vlan_rx_register grp).vlgrp = grp := by
    rw [register_eq]
    rfl
  refine ⟨⟨hworld ▸ h.inv, hworld ▸ hagrees, hworld ▸ h.nodup, fun hl => ?_⟩, ?_⟩
  · rw [hworld] at hl
    rw [hgrp]
    exact fun hnone => hl (hask hnone)
  · rw [register_eq]
    rfl

theorem add_vid_eq (n : VlanNet) (kmalloc : Bool) (vid : Nat) :
    n.bond_vlan_rx_add_vid kmalloc vid = ((n.withDrivers fun d =>
      if d ∈ n.world.slave_devs ∧ n.adds d = true then
        { n.drivers d with vids := fun i => i == vid || (n.drivers d).vids i }
      else n.drivers d).bond_add_vlan kmalloc vid).2 := by
  have htold := tell_all (p := adds) (f := fun v => { v with vids := fun i => i == vid || v.vids i })
    (fun k d e => (calls_setDriver k d e (by intro v; rfl)).2.1) (fun v => by simp)
    n.world.slave_devs n
  unfold bond_vlan_rx_add_vid rx_add_vid
  dsimp only
  rw [htold]

theorem Known.add_vid (h : n.Known) {vid : Nat} (hvid : vid ∉ n.world.bond.vlan_list)
    (hgrp : n.vlgrp ≠ none) : (n.bond_vlan_rx_add_vid true vid).Known ∧
      (n.bond_vlan_rx_add_vid true vid).groups = n.groups := by
  have hadds : ∀ d, n.adds d = n.kills d := h.agrees.adds_eq
  obtain ⟨world, hw⟩ : ∃ world, world = ((n.world.lock .bond .write).setBond fun b =>
    { b with vlan_list := b.vlan_list ++ [vid] }).unlock .bond .write := ⟨_, rfl⟩
  have heq : n.bond_vlan_rx_add_vid true vid = { n.withDrivers (fun d =>
      if d ∈ n.world.slave_devs ∧ n.kills d = true then
        { n.drivers d with vids := fun i => i == vid || (n.drivers d).vids i }
      else n.drivers d) with world } := by
    rw [add_vid_eq, hw]
    simp only [hadds]
    rfl
  have hlist : world.bond.vlan_list = n.world.bond.vlan_list ++ [vid] := by
    rw [hw]
    rfl
  have hdevs : world.slave_devs = n.world.slave_devs := by
    rw [hw]
    rfl
  have hinv : ∃ l, world.Inv l := by
    obtain ⟨l, hl⟩ := h.inv
    have hadded : ((n.world.lock .bond .write).setBond fun b =>
        { b with vlan_list := b.vlan_list ++ [vid] }).Inv l :=
      (hl.lock .bond .write).congr_pointers rfl rfl
    exact ⟨l, hw ▸ hadded.unlock .bond .write⟩
  have hagrees := h.agrees.refiltered (f := fun vids i => i == vid || vids i) (fun _ => Iff.rfl)
    world (fun d _ => by rw [hw]; rfl) fun vids hvids i => by
      rw [hlist, Bool.or_eq_true, hvids i]
      simp [or_comm]
  rw [heq]
  refine ⟨⟨hinv, ?_, ?_, fun _ => hgrp⟩, rfl⟩
  · dsimp only
    rw [hdevs]
    exact hagrees
  · dsimp only
    rw [hlist]
    rw [← List.concat_eq_append]
    exact h.nodup.concat hvid

/-- From `w` to `v` an id has gone from the list; the last one sets the flag of a bond without
slaves. -/
structure Unlisted (w v : World) (vid : Nat) : Prop where
  vlan_list : v.bond.vlan_list = w.bond.vlan_list.erase vid
  devs : v.slave_devs = w.slave_devs
  dev : v.bond.dev = w.bond.dev
  others : ∀ d, d ≠ w.bond.dev → (v.devs d).features = (w.devs d).features
  inv : ∀ l, w.Inv l → v.Inv l
  flag : v.bond_dev.challenged = true ↔
    w.bond_dev.challenged = true ∨ v.bond.vlan_list = [] ∧ w.bond.slave_cnt = 0

theorem del_vlan_eq {vid : Nat} (hvid : vid ∈ n.world.bond.vlan_list) :
    ∃ world, (n.bond_del_vlan vid).2 = { n with world } ∧ Unlisted n.world world vid := by
  obtain ⟨x, hx⟩ : ∃ x, x = (n.world.lock .bond .write).setBond fun b =>
    { b with vlan_list := b.vlan_list.erase vid } := ⟨_, rfl⟩
  have hxinv : ∀ l, n.world.Inv l → x.Inv l := by
    intro l hl
    rw [hx]
    exact (hl.lock .bond .write).congr_pointers rfl rfl
  have hxdev : ∀ d, x.devs d = n.world.devs d := fun d => by rw [hx]; rfl
  have hflag : x.bond_dev.challenged = n.world.bond_dev.challenged := by
    rw [hx]
    rfl
  have hcnt : x.bond.slave_cnt = n.world.bond.slave_cnt := by
    rw [hx]
    rfl
  unfold bond_del_vlan
  dsimp only
  rw [if_pos (show vid ∈ (n.world.lock .bond .write).bond.vlan_list from hvid), ← hx]
  refine ⟨_, rfl, ?_⟩
  split_ifs with hc
  · have hon := World.flagged_on x
    refine ⟨by rw [hx]; rfl, by rw [hx]; rfl, by rw [hx]; rfl, fun d hd => ?_, fun l hl => ?_, ?_⟩
    · have hne : d ≠ x.bond.dev := by
        rw [hx]
        exact hd
      rw [← hxdev]
      exact hon.others d hne
    · have hset : (x.setFeatures (· ||| NETIF_F_VLAN_CHALLENGED)).Inv l :=
        (hxinv l hl).congr_pointers (World.base_setDev _ _ _ (by intro dev; rfl)) rfl
      exact hset.unlock .bond .write
    · rw [← hcnt]
      exact iff_of_true hon.flag (Or.inr hc)
  · refine ⟨by rw [hx]; rfl, by rw [hx]; rfl, by rw [hx]; rfl, fun d _ => ?_, fun l hl => ?_, ?_⟩
    · exact congrArg NetDevice.features (hxdev d)
    · exact (hxinv l hl).unlock .bond .write
    · rw [← hcnt, ← hflag]
      exact (or_iff_left hc).symm

theorem Known.kill_vid (h : n.Known) {vid : Nat} (hvid : vid ∈ n.world.bond.vlan_list)
    (hm : n.bond_vlan_rx_kill_vid vid = some m) : m.Known ∧ m.groups = n.groups := by
  obtain ⟨l, hl⟩ := h.inv
  obtain ⟨k, hk, rfl⟩ := Option.map_eq_some_iff.mp hm
  have htold := kill_all h.agrees.grouped hk
  have hkworld : k.world = n.world := by
    rw [htold]
    rfl
  have hkvid : vid ∈ k.world.bond.vlan_list := by
    rw [hkworld]
    exact hvid
  obtain ⟨world, heq, hgone⟩ := del_vlan_eq hkvid
  rw [hkworld] at hgone
  have hagrees := h.agrees.refiltered (f := fun vids i => i != vid && vids i) (fun _ => Iff.rfl)
    world (fun d hd => hgone.others d (hl.slave_devs_foreign hd)) fun vids hvids i => by
      rw [hgone.vlan_list, h.nodup.mem_erase_iff, Bool.and_eq_true, hvids i]
      simp
  rw [heq, htold]
  refine ⟨⟨⟨l, hgone.inv l hl⟩, ?_, ?_, fun hne => ?_⟩, rfl⟩
  · dsimp only
    rw [hgone.devs]
    exact hagrees
  · dsimp only
    rw [hgone.vlan_list]
    exact h.nodup.erase vid
  · exact h.group (List.ne_nil_of_mem hvid)

section moves

variable [Siblings]

theorem Known.bond (h : n.Known) {e : Event}
    (hask : e.moves_slaves = true → n.world.bond.vlan_list = [] → n.vlgrp = none)
    (hm : n.step (.bond e) = some m) : m.Known ∧ m.groups = n.groups := by
  obtain ⟨l, hl⟩ := h.inv
  obtain ⟨world, hw, hrest⟩ := Option.bind_eq_some_iff.mp hm
  obtain ⟨k, hk, rfl⟩ := Option.map_eq_some_iff.mp hrest
  have hmoved := hl.moved hw
  obtain ⟨b, hflag⟩ := hmoved.flagged
  have htold : k = n.withDrivers k.drivers ∧ k.Agrees (e.slaves_after (· ∈ n.world.slave_devs)) := by
    by_cases he : e.moves_slaves = true
    · refine h.agrees.told (hask he) (fun _ => Iff.rfl) (fun env d hed => ?_) hk
      rw [hed] at hw
      exact (hl.moved_enslave hw).2.1
    · cases e with
      | enslave env d => cases he rfl
      | release d => cases he rfl
      | release_all => cases he rfl
      | destroy => cases he rfl
      | free_all => cases he rfl
      | _ =>
        obtain rfl := Option.some.inj hk
        exact ⟨rfl, h.agrees⟩
  obtain ⟨hsame, hagrees⟩ := htold
  have hforeign : ∀ d, e.slaves_after (· ∈ n.world.slave_devs) d → d ≠ n.world.bond.dev := by
    intro d hd
    obtain ⟨l', hl'⟩ := hmoved.inv
    rw [← hflag.dev]
    exact hl'.slave_devs_foreign ((hmoved.devs d).mpr hd)
  have hkworld : k.world = n.world := by
    rw [hsame]
    rfl
  have hafter := hagrees.of_world world
    (fun d hd => by rw [hkworld]; exact hflag.others d (hforeign d hd))
    (by rw [hkworld]; exact hflag.vlan_list)
  refine ⟨⟨hmoved.inv, hafter.congr hmoved.devs, ?_, fun hne => ?_⟩, ?_⟩
  · dsimp only
    rw [hflag.vlan_list]
    exact h.nodup
  · dsimp only at hne ⊢
    rw [hflag.vlan_list] at hne
    rw [hsame]
    exact h.group hne
  · rw [hsame]
    rfl

theorem Known.step (h : n.Known) {e : VlanMove} (hask : n.Asked e) (hm : n.step e = some m) :
    m.Known ∧ m.groups = n.groups := by
  cases e with
  | register grp =>
    obtain rfl := Option.some.inj hm
    exact h.register hask
  | add_vid kmalloc vid =>
    obtain ⟨rfl, hvid, hgrp⟩ := hask
    obtain rfl := Option.some.inj hm
    exact h.add_vid hvid hgrp
  | kill_vid vid => exact h.kill_vid hask hm
  | bond e => exact h.bond hask hm

end moves

end VlanNet

/-! The flag over the moves -/

namespace World

def has_challenged (w : World) : Prop := ∃ d ∈ w.slave_devs, (w.devs d).challenged = true

/-- The flag is set as long as a slave cannot take VLANs, and on a bond that has neither slaves nor
VLANs; such a slave and VLANs never meet. -/
structure Blocks (w : World) : Prop where
  flag : w.bond_dev.challenged = true ↔
    w.has_challenged ∨ w.slave_devs = [] ∧ w.bond.vlan_list = []
  apart : w.bond.vlan_list ≠ [] → ¬ w.has_challenged

theorem Ring.no_slaves {w : World} {l : List SlaveId} (h : w.Ring l) :
    w.slave_devs = [] ↔ l = [] := by
  rw [h.slave_devs]
  simp

theorem Ring.cnt_zero {w : World} {l : List SlaveId} (h : w.Ring l) :
    w.bond.slave_cnt = 0 ↔ w.slave_devs = [] := by
  rw [h.no_slaves, h.count, ← List.length_eq_zero_iff]
  omega

theorem Moved.has_challenged {w v : World} {Q : DevId → Prop} (h : Moved w v Q) :
    v.has_challenged ↔ ∃ d, Q d ∧ (w.devs d).challenged = true := by
  obtain ⟨l, hl⟩ := h.inv
  obtain ⟨b, hflag⟩ := h.flagged
  refine exists_congr fun d => ?_
  rw [h.devs]
  refine and_congr_right fun hd => ?_
  have hne := hl.slave_devs_foreign ((h.devs d).mpr hd)
  rw [hflag.dev] at hne
  unfold NetDevice.challenged
  rw [hflag.others d hne]

section events

variable [Siblings]

theorem Blocks.enslave {w v : World} {l : List SlaveId} (hb : w.Blocks) (h : w.Inv l)
    {env : EnslaveEnv} {d : DevId} (hv : w.step (.enslave env d) = some v) : v.Blocks := by
  obtain ⟨hmoved, -, -⟩ := h.moved_enslave hv
  have hmem : d ∈ v.slave_devs := (hmoved.devs d).mpr (Or.inr rfl)
  have hsome : v.slave_devs ≠ [] := List.ne_nil_of_mem hmem
  have hhas : v.has_challenged ↔ w.has_challenged ∨ (w.devs d).challenged = true := by
    rw [hmoved.has_challenged]
    unfold World.has_challenged
    constructor
    · rintro ⟨e, he | rfl, hc⟩
      · exact Or.inl ⟨e, he, hc⟩
      · exact Or.inr hc
    · rintro (⟨e, he, hc⟩ | hc)
      · exact ⟨e, Or.inl he, hc⟩
      · exact ⟨d, Or.inr rfl, hc⟩
  simp only [World.step] at hv
  split_ifs at hv with hcond
  obtain ⟨hflag, hblocked⟩ := flagged_enslave h.port h.mode hcond.2.2
  rw [Option.some.inj hv] at hflag
  refine ⟨?_, fun hl => ?_⟩
  · rw [hflag.flag, hhas]
    simp only [hsome, false_and, or_false]
    by_cases hc : (w.devs d).challenged = true
    · simp [hc]
    · rw [if_neg hc]
      by_cases hcnt : w.bond.slave_cnt = 0
      · have hnone := h.toRing.cnt_zero.mp hcnt
        simp [hcnt, hc, World.has_challenged, hnone]
      · have hslaves : w.slave_devs ≠ [] := fun he => hcnt (h.toRing.cnt_zero.mpr he)
        rw [if_neg hcnt, hb.flag]
        simp [hslaves, hc]
  · rw [hflag.vlan_list] at hl
    rw [hhas]
    rintro (hold | hc)
    · exact hb.apart hl hold
    · exact hl (hblocked hc)

theorem Blocks.release {w v : World} {l : List SlaveId} (hb : w.Blocks) (h : w.Inv l) {d : DevId}
    (hv : w.step (.release d) = some v) : v.Blocks := by
  obtain ⟨hmoved, hmem⟩ := h.moved_release hv
  simp only [World.step] at hv
  split_ifs at hv with hret
  have hr : w.bond_release d = (0, v) := Prod.ext hret (Option.some.inj hv)
  obtain ⟨s, hs, hsd, hflag⟩ := h.flagged_release hr
  have hless : v.has_challenged → w.has_challenged := by
    rw [hmoved.has_challenged]
    rintro ⟨e, he, hc⟩
    exact ⟨e, he.1, hc⟩
  have hsome : w.slave_devs ≠ [] := List.ne_nil_of_mem hmem
  refine ⟨?_, fun hl hc => hb.apart ?_ (hless hc)⟩
  · have hrest : v.slave_devs = [] ↔ l.erase s = [] := by
      rw [List.eq_nil_iff_forall_not_mem, ← List.map_eq_nil_iff (f := fun t => (w.slaves t).dev),
        List.eq_nil_iff_forall_not_mem]
      refine forall_congr' fun e => not_congr ?_
      rw [hmoved.devs, h.devs_erase hs, hsd]
    have hany : (l.erase s).any (fun t => (w.slave_dev t).challenged) = true ↔
        v.has_challenged := by
      rw [hmoved.has_challenged, List.any_eq_true]
      constructor
      · rintro ⟨t, ht, hc⟩
        refine ⟨(w.slaves t).dev, ?_, hc⟩
        rw [← hsd]
        exact (h.devs_erase hs _).mp (List.mem_map.mpr ⟨t, ht, rfl⟩)
      · rintro ⟨e, he, hc⟩
        rw [← hsd] at he
        obtain ⟨t, ht, rfl⟩ := List.mem_map.mp ((h.devs_erase hs e).mpr he)
        exact ⟨t, ht, hc⟩
    have hwflag : w.bond_dev.challenged = true ↔ w.has_challenged := by
      rw [hb.flag]
      simp [hsome]
    rw [hflag.flag, hflag.vlan_list, hrest]
    by_cases hl : l.erase s = []
    · have hnone : ¬ v.has_challenged := by
        rw [← hany, hl]
        simp
      by_cases hvl : w.bond.vlan_list = []
      · simp [hl, hvl]
      · have hoff : ¬ w.bond_dev.challenged = true := fun hc => hb.apart hvl (hwflag.mp hc)
        simp [hl, hvl, hoff, hnone]
    · simp only [hl, if_false, false_and, or_false, Bool.and_eq_true, hwflag, hany]
      exact ⟨fun hc => hc.2, fun hc => ⟨hless hc, hc⟩⟩
  · rwa [hflag.vlan_list] at hl

omit [Siblings] in
theorem Blocks.emptied {w v : World} {l : List SlaveId} (hb : w.Blocks) (h : w.Inv l)
    (hv : v.Inv []) (hflag : Flagged w v (if l = [] then w.bond_dev.challenged
      else if w.bond.vlan_list = [] then true else w.bond_dev.challenged)) : v.Blocks := by
  have hnone : v.slave_devs = [] := hv.toRing.no_slaves.mpr rfl
  have hhas : ¬ v.has_challenged := by
    rintro ⟨d, hd, -⟩
    rw [hnone] at hd
    cases hd
  refine ⟨?_, fun _ => hhas⟩
  rw [hflag.flag, hflag.vlan_list]
  by_cases hl : l = []
  · have hslaves := h.toRing.no_slaves.mpr hl
    have hbefore : ¬ w.has_challenged := by
      rintro ⟨d, hd, -⟩
      rw [hslaves] at hd
      cases hd
    rw [if_pos hl, hb.flag]
    simp [hhas, hbefore, hnone, hslaves]
  · have hslaves : w.slave_devs ≠ [] := fun he => hl (h.toRing.no_slaves.mp he)
    by_cases hvl : w.bond.vlan_list = []
    · simp [hl, hvl, hnone]
    · have hoff : ¬ w.bond_dev.challenged = true := by
        rw [hb.flag]
        simp [hb.apart hvl, hslaves]
      simp [hl, hvl, hhas, hoff]

theorem Blocks.step {w v : World} {l : List SlaveId} (hb : w.Blocks) (h : w.Inv l) {e : Event}
    (hv : w.step e = some v) : v.Blocks := by
  cases he : e.moves_slaves with
  | true =>
    cases e with
    | enslave env d => exact hb.enslave h hv
    | release d => exact hb.release h hv
    | release_all =>
      cases hv
      exact hb.emptied h h.release_all.1 h.flagged_release_all
    | destroy =>
      cases hv
      exact hb.emptied h h.destroy.1 h.flagged_destroy
    | free_all =>
      cases hv
      exact hb.emptied h h.free_all.1 h.flagged_free_all
    | _ => cases he
  | false =>
    obtain ⟨hkeeps, hvlans⟩ := step_beside_slaves h.mode he hv
    have hdevs := slave_devs_of_shape h.toRing hkeeps.shape
    have hflag := Flagged.of_vlans hvlans
    have hhas : v.has_challenged ↔ w.has_challenged := by
      have hfeatures : ∀ d, (v.devs d).features = (w.devs d).features :=
        congrFun (congrArg Prod.fst hvlans)
      unfold World.has_challenged NetDevice.challenged
      simp only [hdevs, hfeatures]
    refine ⟨?_, fun hl => ?_⟩
    · rw [hflag.flag, hflag.vlan_list, hdevs, hhas]
      exact hb.flag
    · rw [hflag.vlan_list] at hl
      rw [hhas]
      exact hb.apart hl

end events

end World

namespace VlanNet

variable {n m : VlanNet}

theorem rx_kill_keeps {d : DevId} {vid : Nat} (h : n.rx_kill_vid d vid = some m) :
    m.world = n.world ∧ m.vlgrp = n.vlgrp := by
  unfold rx_kill_vid at h
  split_ifs at h
  · obtain ⟨grp, -, rfl⟩ := Option.map_eq_some_iff.mp h
    unfold driver_kill_vid
    cases (n.drivers d).clears <;> cases (n.drivers d).grp <;> exact ⟨rfl, rfl⟩
  · rw [Option.some.inj h]
    exact ⟨rfl, rfl⟩

theorem kill_vid_eq {vid : Nat} (h : n.bond_vlan_rx_kill_vid vid = some m) :
    ∃ k, (k.world = n.world ∧ k.vlgrp = n.vlgrp) ∧ m = (bond_del_vlan k vid).2 := by
  obtain ⟨k, hk, rfl⟩ := Option.map_eq_some_iff.mp h
  refine ⟨k, ?_, rfl⟩
  refine foldlM_keeps (Q := fun k : VlanNet => k.world = n.world ∧ k.vlgrp = n.vlgrp)
    (fun k d t hq ht => ?_) ⟨rfl, rfl⟩ hk
  obtain ⟨hworld, hgrp⟩ := rx_kill_keeps ht
  exact ⟨hworld.trans hq.1, hgrp.trans hq.2⟩

theorem rx_register_vlgrp (n : VlanNet) (d : DevId) (grp : Option Nat) :
    (n.rx_register d grp).vlgrp = n.vlgrp := by
  unfold rx_register
  split_ifs <;> rfl

theorem del_vlans_vlgrp {d : DevId} (h : n.bond_del_vlans_from_slave d = some m) :
    m.vlgrp = n.vlgrp := by
  unfold bond_del_vlans_from_slave at h
  split_ifs at h
  · rw [Option.some.inj h]
  · obtain ⟨k, hk, rfl⟩ := Option.map_eq_some_iff.mp h
    rw [rx_register_vlgrp]
    exact foldlM_keeps (Q := fun k : VlanNet => k.vlgrp = n.vlgrp)
      (fun k vid t hq ht => (rx_kill_keeps ht).2.trans hq) rfl hk

theorem told_vlgrp {e : Event} (h : n.told e = some m) : m.vlgrp = n.vlgrp := by
  have hall : n.world.slave_devs.foldlM (fun (n : VlanNet) d => n.bond_del_vlans_from_slave d) n =
      some m → m.vlgrp = n.vlgrp :=
    foldlM_keeps (Q := fun k : VlanNet => k.vlgrp = n.vlgrp)
      (fun k d t hq ht => (del_vlans_vlgrp ht).trans hq) rfl
  cases e with
  | enslave env d =>
    cases h
    by_cases hl : n.world.bond.vlan_list = []
    · unfold bond_add_vlans_on_slave
      rw [if_pos hl]
    · rw [add_vlans_eq n d hl]
      rfl
  | release d => exact del_vlans_vlgrp h
  | release_all => exact hall h
  | destroy => exact hall h
  | free_all => exact hall h
  | _ => rw [Option.some.inj h]

/-- No VLAN is added while the flag is set. -/
def Unblocked (n : VlanNet) : VlanMove → Prop
  | .add_vid _ _ => n.world.bond_dev.challenged = false
  | _ => True

theorem blocks_add {w : World} (hb : w.Blocks) (hflag : w.bond_dev.challenged = false)
    (vlan_id : Nat) : (((w.lock .bond .write).setBond fun b =>
      { b with vlan_list := b.vlan_list ++ [vlan_id] }).unlock .bond .write).Blocks := by
  have hnone : ¬ w.has_challenged := by
    intro hc
    have hon := hb.flag.mpr (Or.inl hc)
    rw [hflag] at hon
    cases hon
  refine ⟨iff_of_false ?_ ?_, fun _ => hnone⟩
  · intro hon
    have hon : w.bond_dev.challenged = true := hon
    rw [hflag] at hon
    cases hon
  · rintro (hc | ⟨-, hl⟩)
    · exact hnone hc
    · have hl : w.bond.vlan_list ++ [vlan_id] = [] := hl
      simp at hl

theorem blocks_del {w v : World} {l : List SlaveId} {vid : Nat} (hb : w.Blocks) (h : w.Inv l)
    (hvid : vid ∈ w.bond.vlan_list) (hgone : Unlisted w v vid) : v.Blocks := by
  have hapart := hb.apart (List.ne_nil_of_mem hvid)
  have hvlans : w.bond.vlan_list ≠ [] := List.ne_nil_of_mem hvid
  have hhas : ¬ v.has_challenged := by
    rintro ⟨d, hd, hc⟩
    rw [hgone.devs] at hd
    refine hapart ⟨d, hd, ?_⟩
    unfold NetDevice.challenged at hc ⊢
    rwa [← hgone.others d (h.slave_devs_foreign hd)]
  refine ⟨?_, fun _ => hhas⟩
  rw [hgone.flag, hb.flag, hgone.devs, h.toRing.cnt_zero]
  simp [hapart, hhas, hvlans, and_comm]

section moves

variable [Siblings]

omit [Siblings] in
theorem del_vlan_inv {l : List SlaveId} (hl : n.world.Inv l) (vid : Nat) :
    (n.bond_del_vlan vid).2.world.Inv l := by
  by_cases hvid : vid ∈ n.world.bond.vlan_list
  · obtain ⟨world, heq, hgone⟩ := del_vlan_eq hvid
    rw [heq]
    exact hgone.inv l hl
  · have hlocked : vid ∉ (n.world.lock .bond .write).bond.vlan_list := hvid
    unfold bond_del_vlan
    dsimp only
    rw [if_neg hlocked]
    exact (hl.lock .bond .write).unlock .bond .write

theorem step_inv (hi : ∃ l, n.world.Inv l) {e : VlanMove} (hm : n.step e = some m) :
    ∃ l, m.world.Inv l := by
  obtain ⟨l, hl⟩ := hi
  cases e with
  | register grp =>
    obtain rfl := Option.some.inj hm
    rw [register_eq]
    exact ⟨l, hl⟩
  | add_vid kmalloc vid =>
    obtain rfl := Option.some.inj hm
    rw [add_vid_eq]
    cases kmalloc with
    | false => exact ⟨l, hl⟩
    | true =>
      have hadded : ((n.world.lock .bond .write).setBond fun b =>
          { b with vlan_list := b.vlan_list ++ [vid] }).Inv l :=
        (hl.lock .bond .write).congr_pointers rfl rfl
      exact ⟨l, hadded.unlock .bond .write⟩
  | kill_vid vid =>
    obtain ⟨k, ⟨hk, -⟩, rfl⟩ := kill_vid_eq hm
    rw [← hk] at hl
    exact ⟨l, del_vlan_inv hl vid⟩
  | bond e =>
    obtain ⟨world, hw, hrest⟩ := Option.bind_eq_some_iff.mp hm
    obtain ⟨k, -, rfl⟩ := Option.map_eq_some_iff.mp hrest
    exact hl.step hw

theorem step_blocks (hi : ∃ l, n.world.Inv l) (hb : n.world.Blocks) {e : VlanMove}
    (hc : n.Unblocked e) (hm : n.step e = some m) : m.world.Blocks := by
  obtain ⟨l, hl⟩ := hi
  cases e with
  | register grp =>
    obtain rfl := Option.some.inj hm
    rw [register_eq]
    exact hb
  | add_vid kmalloc vid =>
    obtain rfl := Option.some.inj hm
    rw [add_vid_eq]
    cases kmalloc with
    | false => exact hb
    | true => exact blocks_add hb hc vid
  | kill_vid vid =>
    obtain ⟨k, ⟨hk, -⟩, rfl⟩ := kill_vid_eq hm
    rw [← hk] at hl hb
    by_cases hvid : vid ∈ k.world.bond.vlan_list
    · obtain ⟨world, heq, hgone⟩ := del_vlan_eq hvid
      rw [heq]
      exact blocks_del hb hl hvid hgone
    · have hlocked : vid ∉ (k.world.lock .bond .write).bond.vlan_list := hvid
      unfold bond_del_vlan
      dsimp only
      rw [if_neg hlocked]
      exact ⟨hb.flag, hb.apart⟩
  | bond e =>
    obtain ⟨world, hw, hrest⟩ := Option.bind_eq_some_iff.mp hm
    obtain ⟨k, -, rfl⟩ := Option.map_eq_some_iff.mp hrest
    exact hb.step hl hw

omit [Siblings] in
theorem blocks_bond_init (w : World) (bond_dev : DevId) (params : Params) {l : List SlaveId}
    (h : (w.bond_init bond_dev params).Inv l) (hl : l = []) :
    (w.bond_init bond_dev params).Blocks := by
  have hnone := h.toRing.no_slaves.mpr hl
  have hhas : ¬ (w.bond_init bond_dev params).has_challenged := by
    rintro ⟨d, hd, -⟩
    rw [hnone] at hd
    cases hd
  have hvlans : (w.bond_init bond_dev params).bond.vlan_list = [] := rfl
  refine ⟨iff_of_true ?_ (Or.inr ⟨hnone, hvlans⟩), fun hne => absurd hvlans hne⟩
  rw [challenged_eq]
  simp [World.bond_init, World.bond_dev, World.setFeatures, World.setDev, NETIF_F_VLAN_CHALLENGED]

/-- The drivers hold no VLANs of their own; one that can add an id can kill it. -/
structure Idle (n : VlanNet) : Prop where
  vlgrp : n.vlgrp = none
  grp : ∀ d, (n.drivers d).grp = none
  vids : ∀ d vid, (n.drivers d).vids vid = false
  pairs : ∀ d, (n.drivers d).vlan_rx_add_vid = (n.drivers d).vlan_rx_kill_vid

omit [Siblings] in
theorem known_bond_init {w : World} {bond_dev : DevId} (hw : w.Host bond_dev) {params : Params}
    (hmode : params.mode = .hoolock) (hn : n.world = w.bond_init bond_dev params) (hidle : n.Idle) :
    n.Known := by
  have hinv := hn ▸ hw.inv hmode
  have hnone : n.world.slave_devs = [] := hinv.toRing.no_slaves.mpr rfl
  have hvlans : n.world.bond.vlan_list = [] := by
    rw [hn]
    rfl
  refine ⟨⟨[], hinv⟩, ⟨hidle.pairs, fun d vid => ?_, fun d hd => ?_, fun d _ => hidle.grp d⟩, ?_,
    fun hne => absurd hvlans hne⟩
  · simp [hidle.vids, hnone]
  · rw [hnone] at hd
    cases hd
  · rw [hvlans]
    exact List.nodup_nil

/-- Whatever slaves join and leave: a driver lets in the bond's VLANs, and has the bond's group,
as long as its device is a slave, and no group's entry is lost. -/
theorem drivers_agree {w : World} {bond_dev : DevId} (hw : w.Host bond_dev) {params : Params}
    (hmode : params.mode = .hoolock) (hn : n.world = w.bond_init bond_dev params) (hidle : n.Idle)
    {es : List VlanMove} (hasked : Transition.Along Asked step n es)
    (hrun : Transition.run step n es = some m) :
    m.groups = n.groups ∧ m.world.bond.vlan_list.Nodup ∧ ∀ d,
      (∀ vid, (m.drivers d).vids vid = true ↔
        d ∈ m.world.slave_devs ∧ m.kills d = true ∧ vid ∈ m.world.bond.vlan_list) ∧
      (m.drivers d).grp =
        if d ∈ m.world.slave_devs ∧ m.registers d = true then m.vlgrp else none := by
  obtain ⟨hknown, hgroups⟩ := Transition.run_invariant_along
    (fun k => k.Known ∧ k.groups = n.groups) (fun k e t hk hask ht => by
      obtain ⟨hknown, hsame⟩ := hk.1.step hask ht
      exact ⟨hknown, hsame.trans hk.2⟩) hrun hasked ⟨known_bond_init hw hmode hn hidle, rfl⟩
  refine ⟨hgroups, hknown.nodup, fun d => ⟨hknown.agrees.vids d, ?_⟩⟩
  split_ifs with hd
  · exact hknown.agrees.grp d hd.1 hd.2
  · exact hknown.agrees.no_grp d hd

def filtering : VlanNet :=
  { world := World.bond_init
      { machine with
        devs := fun d => if d = 0 then machine.devs 0 else
          { machine.devs d with features := NETIF_F_HW_VLAN_RX ||| NETIF_F_HW_VLAN_FILTER } }
      0 hoolock_params
    drivers := fun _ => ⟨true, true, true, true, none, fun _ => false⟩
    vlgrp := none
    groups := fun grp vid => if grp = 7 then some (100 + vid) else none }

def cards_change : List VlanMove :=
  [.bond .open_bond, .bond (.enslave (.plain 0) 1), .register (some 7), .add_vid true 5,
    .bond (.enslave (.plain 1) 2), .add_vid true 6, .bond (.release 1), .kill_vid 5]

omit [Siblings] in
theorem filtering_idle : filtering.Idle :=
  ⟨rfl, fun _ => rfl, fun _ _ => rfl, fun _ => rfl⟩

omit [Siblings] in
theorem filtering_host : World.Host
    { machine with
      devs := fun d => if d = 0 then machine.devs 0 else
        { machine.devs d with features := NETIF_F_HW_VLAN_RX ||| NETIF_F_HW_VLAN_FILTER } } 0 where
  port := rfl
  master d := by
    have hd := machine_host.master d
    have h0 := machine_host.master 0
    dsimp only
    split_ifs
    · exact h0
    · exact hd
  handlers _ h := by simp [machine] at h

omit [Siblings] in
theorem cards_change_asked :
    Transition.Along Asked (@step noSiblings) filtering cards_change := by
  refine Transition.along_of_checks (c := fun n e => decide (n.Asked e))
    (fun n e he => of_decide_eq_true he) ?_
  decide +kernel

omit [Siblings] in
/-- The second card has learnt what is left, the first has forgotten everything. -/
theorem second_card_knows_vlan : ∃ m,
    Transition.run (@step noSiblings) filtering cards_change = some m ∧
      (∀ vid, (m.drivers 1).vids vid = false) ∧ (∀ vid, (m.drivers 2).vids vid = true ↔ vid = 6) ∧
      (m.drivers 2).grp = some 7 ∧ m.groups 7 5 = some 105 := by
  have hrun : (Transition.run (@step noSiblings) filtering cards_change).any (fun m =>
      decide (m.world.slave_devs = [2] ∧ m.world.bond.vlan_list = [6] ∧ m.vlgrp = some 7 ∧
        m.kills 2 = true ∧ m.registers 2 = true)) = true := by
    decide +kernel
  obtain ⟨m, hm, hcond⟩ := (Option.any_eq_true _ _).mp hrun
  obtain ⟨hdevs, hvlans, hgrp, hkills, hregs⟩ := of_decide_eq_true hcond
  obtain ⟨hgroups, -, hknown⟩ := @drivers_agree filtering m noSiblings _ 0 filtering_host
    hoolock_params rfl rfl filtering_idle _ cards_change_asked hm
  refine ⟨m, hm, fun vid => ?_, fun vid => ?_, ?_, ?_⟩
  · have hfirst := (hknown 1).1 vid
    rw [hdevs] at hfirst
    simpa using hfirst
  · rw [(hknown 2).1, hdevs, hvlans]
    simp [hkills]
  · rw [(hknown 2).2, hdevs, hgrp]
    simp [hregs]
  · rw [hgroups]
    rfl

omit [Siblings] in
theorem rx_kill_defined (hgrp : n.vlgrp ≠ none) (d : DevId) (vid : Nat) :
    ∃ k, n.rx_kill_vid d vid = some k ∧ k.vlgrp = n.vlgrp ∧ k.world = n.world := by
  obtain ⟨grp, hg⟩ := Option.ne_none_iff_exists'.mp hgrp
  cases hk : n.rx_kill_vid d vid with
  | none =>
    unfold rx_kill_vid at hk
    rw [hg] at hk
    split_ifs at hk
    cases hk
  | some k =>
    exact ⟨k, rfl, (rx_kill_keeps hk).2, (rx_kill_keeps hk).1⟩

omit [Siblings] in
theorem foldlM_defined {σ α : Type} {f : σ → α → Option σ} {Q : σ → Prop}
    (hstep : ∀ s a, Q s → ∃ t, f s a = some t ∧ Q t) (l : List α) {s : σ} (hs : Q s) :
    ∃ t, l.foldlM f s = some t ∧ Q t := by
  induction l generalizing s with
  | nil => exact ⟨s, rfl, hs⟩
  | cons a rest ih =>
    obtain ⟨t, ht, hq⟩ := hstep s a hs
    obtain ⟨u, hu, hlast⟩ := ih hq
    refine ⟨u, ?_, hlast⟩
    rw [List.foldlM_cons, ht]
    exact hu

omit [Siblings] in
theorem del_vlans_defined (hgrp : n.world.bond.vlan_list ≠ [] → n.vlgrp ≠ none) (d : DevId) :
    ∃ k, n.bond_del_vlans_from_slave d = some k ∧
      (k.world.bond.vlan_list ≠ [] → k.vlgrp ≠ none) := by
  unfold bond_del_vlans_from_slave
  split_ifs with hl
  · exact ⟨n, rfl, hgrp⟩
  · obtain ⟨k, hk, hq⟩ := foldlM_defined (f := fun (n : VlanNet) vid => n.rx_kill_vid d vid)
      (Q := fun k => k.vlgrp = n.vlgrp) (fun s i hs => by
        obtain ⟨t, ht, hsame, -⟩ := rx_kill_defined (hs ▸ hgrp hl) d i
        exact ⟨t, ht, hsame.trans hs⟩) n.world.bond.vlan_list rfl
    rw [hk]
    refine ⟨_, rfl, fun _ => ?_⟩
    unfold rx_register
    dsimp only
    split_ifs <;> exact hq ▸ hgrp hl

/-- A group is registered before the first id is added and stays as long as there are ids. -/
def Backed (n : VlanNet) : VlanMove → Prop
  | .register grp => grp = none → n.world.bond.vlan_list = []
  | .add_vid _ _ => n.vlgrp ≠ none
  | _ => True

instance (n : VlanNet) (e : VlanMove) : Decidable (n.Backed e) :=
  match e with
  | .register grp => inferInstanceAs (Decidable (grp = none → n.world.bond.vlan_list = []))
  | .add_vid _ _ => inferInstanceAs (Decidable (n.vlgrp ≠ none))
  | .kill_vid _ | .bond _ => isTrue trivial

theorem step_backed (hi : ∃ l, n.world.Inv l) (hg : n.world.bond.vlan_list ≠ [] → n.vlgrp ≠ none)
    {e : VlanMove} (hc : n.Backed e) (hm : n.step e = some m) :
    m.world.bond.vlan_list ≠ [] → m.vlgrp ≠ none := by
  obtain ⟨l, hl⟩ := hi
  cases e with
  | register grp =>
    obtain rfl := Option.some.inj hm
    rw [register_eq]
    exact fun hne hnone => hne (hc hnone)
  | add_vid kmalloc vid =>
    obtain rfl := Option.some.inj hm
    rw [add_vid_eq]
    cases kmalloc <;> exact fun _ => hc
  | kill_vid vid =>
    obtain ⟨k, ⟨hk, hgrp⟩, rfl⟩ := kill_vid_eq hm
    rw [← hk, ← hgrp] at hg
    by_cases hvid : vid ∈ k.world.bond.vlan_list
    · obtain ⟨world, heq, -⟩ := del_vlan_eq hvid
      rw [heq]
      exact fun _ => hg (List.ne_nil_of_mem hvid)
    · have hlocked : vid ∉ (k.world.lock .bond .write).bond.vlan_list := hvid
      unfold bond_del_vlan
      dsimp only
      rw [if_neg hlocked]
      exact hg
  | bond e =>
    obtain ⟨world, hw, hrest⟩ := Option.bind_eq_some_iff.mp hm
    obtain ⟨k, hk, rfl⟩ := Option.map_eq_some_iff.mp hrest
    obtain ⟨b, hflag⟩ := (hl.moved hw).flagged
    have hvlans : world.bond.vlan_list = n.world.bond.vlan_list := hflag.vlan_list
    dsimp only
    rw [hvlans, told_vlgrp hk]
    exact hg

/-- As long as there is a group when there are ids, no slave that leaves and no id that goes makes
the bond look an entry up in a group that is not there. -/
theorem no_null_group {w : World} {bond_dev : DevId} (hw : w.Host bond_dev) {params : Params}
    (hmode : params.mode = .hoolock) (hn : n.world = w.bond_init bond_dev params)
    {es : List VlanMove} (hbacked : Transition.Along Backed step n es)
    (hrun : Transition.run step n es = some m) :
    (∀ vid ∈ m.world.bond.vlan_list, ∃ k, m.bond_vlan_rx_kill_vid vid = some k) ∧
      ∀ e, ∃ k, m.told e = some k := by
  have hinv := hn ▸ hw.inv hmode
  have hvlans : n.world.bond.vlan_list = [] := by
    rw [hn]
    rfl
  obtain ⟨-, hgroup⟩ := Transition.run_invariant_along
    (fun k : VlanNet => (∃ l, k.world.Inv l) ∧ (k.world.bond.vlan_list ≠ [] → k.vlgrp ≠ none))
    (fun k e t hk hc ht => ⟨step_inv hk.1 ht, step_backed hk.1 hk.2 hc ht⟩) hrun hbacked
    ⟨⟨[], hinv⟩, fun hne => absurd hvlans hne⟩
  constructor
  · intro vid hvid
    have hgrp := hgroup (List.ne_nil_of_mem hvid)
    obtain ⟨k, hk, -⟩ := foldlM_defined (f := fun (n : VlanNet) d => n.rx_kill_vid d vid)
      (Q := fun k => k.vlgrp = m.vlgrp) (fun s d hs => by
        obtain ⟨t, ht, hsame, -⟩ := rx_kill_defined (hs ▸ hgrp) d vid
        exact ⟨t, ht, hsame.trans hs⟩) m.world.slave_devs rfl
    unfold bond_vlan_rx_kill_vid
    rw [hk]
    exact ⟨_, rfl⟩
  · obtain ⟨k, hk, -⟩ := foldlM_defined
      (f := fun (n : VlanNet) d => n.bond_del_vlans_from_slave d)
      (fun s d hs => del_vlans_defined hs d) m.world.slave_devs hgroup
    intro e
    cases e with
    | enslave env d => exact ⟨_, rfl⟩
    | release d =>
      obtain ⟨k, hk, -⟩ := del_vlans_defined hgroup d
      exact ⟨k, hk⟩
    | release_all => exact ⟨k, hk⟩
    | destroy => exact ⟨k, hk⟩
    | free_all => exact ⟨k, hk⟩
    | _ => exact ⟨_, rfl⟩

omit [Siblings] in
theorem cards_change_defined : ∃ m,
    Transition.run (@step noSiblings) filtering cards_change = some m ∧
      (∃ k, m.bond_vlan_rx_kill_vid 6 = some k) ∧ ∃ k, m.told .release_all = some k := by
  have hrun : (Transition.run (@step noSiblings) filtering cards_change).any (fun m =>
      decide (m.world.bond.vlan_list = [6])) = true := by
    decide +kernel
  obtain ⟨m, hm, hcond⟩ := (Option.any_eq_true _ _).mp hrun
  have hvlans := of_decide_eq_true hcond
  have hbacked : Transition.Along Backed (@step noSiblings) filtering cards_change :=
    Transition.along_of_checks (c := fun n e => decide (n.Backed e))
      (fun n e he => of_decide_eq_true he) (by decide +kernel)
  obtain ⟨hkill, htold⟩ := @no_null_group filtering m noSiblings _ 0 filtering_host
    hoolock_params rfl rfl _ hbacked hm
  exact ⟨m, hm, hkill 6 (by rw [hvlans]; decide), htold .release_all⟩

/-- A bond blocks VLANs as long as a slave cannot take them, and while it has neither slaves nor
VLANs; a slave that cannot take them is never on a bond with VLANs. -/
theorem vlans_blocked {w : World} {bond_dev : DevId} (hw : w.Host bond_dev) {params : Params}
    (hmode : params.mode = .hoolock) (hn : n.world = w.bond_init bond_dev params)
    {es : List VlanMove} (hunblocked : Transition.Along Unblocked step n es)
    (hrun : Transition.run step n es = some m) :
    (m.world.bond_dev.challenged = true ↔
      (∃ d ∈ m.world.slave_devs, (m.world.devs d).challenged = true) ∨
        m.world.slave_devs = [] ∧ m.world.bond.vlan_list = []) ∧
    (m.world.bond.vlan_list ≠ [] → ∀ d ∈ m.world.slave_devs,
      (m.world.devs d).challenged = false) := by
  have hinv := hn ▸ hw.inv hmode
  have hblocks : n.world.Blocks := hn ▸ blocks_bond_init w bond_dev params (hw.inv hmode) rfl
  obtain ⟨-, hb⟩ := Transition.run_invariant_along
    (fun k : VlanNet => (∃ l, k.world.Inv l) ∧ k.world.Blocks)
    (fun k e t hk hc ht => ⟨step_inv hk.1 ht, step_blocks hk.1 hk.2 hc ht⟩)
    hrun hunblocked ⟨⟨[], hinv⟩, hblocks⟩
  refine ⟨hb.flag, fun hl d hd => ?_⟩
  by_contra hc
  exact hb.apart hl ⟨d, hd, by simpa using hc⟩

omit [Siblings] in
/-- With VLANs on it the bond is not blocked, and no card that cannot take them has joined. -/
theorem cards_change_unblocked : ∃ m,
    Transition.run (@step noSiblings) filtering cards_change = some m ∧
      m.world.bond_dev.challenged = false ∧ (m.world.devs 2).challenged = false := by
  have hrun : (Transition.run (@step noSiblings) filtering cards_change).any (fun m =>
      decide (m.world.slave_devs = [2] ∧ m.world.bond.vlan_list = [6])) = true := by
    decide +kernel
  obtain ⟨m, hm, hcond⟩ := (Option.any_eq_true _ _).mp hrun
  obtain ⟨hdevs, hvlans⟩ := of_decide_eq_true hcond
  have hunblocked : Transition.Along Unblocked (@step noSiblings) filtering cards_change := by
    refine Transition.along_of_checks (c := fun n e => match e with
      | .add_vid _ _ => !n.world.bond_dev.challenged
      | _ => true) (fun n e he => ?_) (by decide +kernel)
    cases e with
    | add_vid kmalloc vid => simpa [Unblocked] using he
    | _ => trivial
  obtain ⟨hflag, hapart⟩ := @vlans_blocked filtering m noSiblings _ 0 filtering_host
    hoolock_params rfl rfl _ hunblocked hm
  have hcard := hapart (by rw [hvlans]; decide) 2 (by rw [hdevs]; decide)
  refine ⟨m, hm, ?_, hcard⟩
  by_contra hon
  have hon := hflag.mp (by simpa using hon)
  rw [hdevs, hvlans] at hon
  simp [hcard] at hon

end moves

end VlanNet

end Hoolock
