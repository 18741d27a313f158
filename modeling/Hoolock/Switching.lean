import Hoolock.Session

/-!
Changing and choosing the active slave in HOOLOCK mode: exactly which parts of the
state it touches.
-/

set_option autoImplicit false

namespace Hoolock

namespace World

theorem filter_off_sansFilter (w : World) (dev : NetDevice) :
    (w.filter_off dev).sansFilter = dev.sansFilter := by
  unfold filter_off
  rw [foldl_sansFilter dev_mc_delete dev_mc_delete_sansFilter]
  split_ifs <;> simp

theorem filter_on_sansFilter (w : World) (dev : NetDevice) :
    (w.filter_on dev).sansFilter = dev.sansFilter := by
  unfold filter_on
  rw [foldl_sansFilter dev_mc_add dev_mc_add_sansFilter]
  split_ifs <;> simp

/-- Two states whose devices differ in their receive filters only. -/
def SameDevs (v w : World) : Prop := ∀ d, (v.devs d).sansFilter = (w.devs d).sansFilter

theorem SameDevs.refl (w : World) : SameDevs w w := fun _ => rfl

theorem SameDevs.trans {u v w : World} (h : SameDevs u v) (k : SameDevs v w) : SameDevs u w :=
  fun d => (h d).trans (k d)

theorem SameDevs.is_up {v w : World} (h : SameDevs v w) (d : DevId) :
    IS_UP (v.devs d) = IS_UP (w.devs d) := by
  have hd := congrArg IS_UP (h d)
  exact hd

theorem sameDevs_setDev (w : World) (d : DevId) (f : NetDevice → NetDevice)
    (hf : ∀ dev, (f dev).sansFilter = dev.sansFilter) : SameDevs (w.setDev d f) w := by
  intro e
  by_cases h : e = d
  · simp [setDev, h, hf]
  · simp [setDev, h]

theorem sameDevs_mc_swap (w : World) (new old : Option SlaveId) :
    SameDevs (w.bond_mc_swap new old) w := by
  unfold bond_mc_swap
  split_ifs
  · exact SameDevs.refl w
  · cases old <;> cases new
    · exact SameDevs.refl w
    · exact sameDevs_setDev _ _ _ (filter_on_sansFilter _)
    · exact sameDevs_setDev _ _ _ (filter_off_sansFilter _)
    · exact (sameDevs_setDev _ _ _ (filter_on_sansFilter _)).trans
        (sameDevs_setDev _ _ _ (filter_off_sansFilter _))

@[simp] theorem mc_swap_bond (w : World) (new old : Option SlaveId) :
    (w.bond_mc_swap new old).bond = w.bond := by
  unfold bond_mc_swap
  split_ifs
  · rfl
  · cases old <;> cases new <;> rfl

@[simp] theorem mc_swap_slaves (w : World) (new old : Option SlaveId) :
    (w.bond_mc_swap new old).slaves = w.slaves := by
  unfold bond_mc_swap
  split_ifs
  · rfl
  · cases old <;> cases new <;> rfl

def promoted (s : Slave) : Slave := if s.link = .back then { s with delay := 0, link := .up } else s

/-- Two states whose devices other than `b` differ in their receive filters only. -/
def SameDevsBut (b : DevId) (v w : World) : Prop :=
  ∀ d, d ≠ b → (v.devs d).sansFilter = (w.devs d).sansFilter

theorem SameDevs.but {v w : World} (h : SameDevs v w) (b : DevId) : SameDevsBut b v w :=
  fun d _ => h d

theorem SameDevsBut.trans {b : DevId} {u v w : World} (h : SameDevsBut b u v)
    (k : SameDevsBut b v w) : SameDevsBut b u w :=
  fun d hd => (h d hd).trans (k d hd)

theorem SameDevsBut.is_up {b : DevId} {v w : World} (h : SameDevsBut b v w) {d : DevId}
    (hd : d ≠ b) : IS_UP (v.devs d) = IS_UP (w.devs d) := by
  have hd := congrArg IS_UP (h d hd)
  exact hd

variable [Siblings]

theorem promote_link_hoolock {w : World} (h : w.bond.params.mode = .hoolock) (s : SlaveId) :
    w.promote_link s = w.setSlave s promoted := by
  unfold promote_link
  by_cases hb : (w.slaves s).link = .back
  · simp only [hb, if_true]
    have hm : (w.setSlave s fun s => { s with delay := 0, link := .up }).bond.params.mode =
        .hoolock := h
    simp only [hm, reduceCtorEq, if_false, or_self]
    simp only [setSlave]
    congr 1
    funext t
    by_cases ht : t = s
    · simp [ht, promoted, hb]
    · simp [ht]
  · simp only [hb, if_false]
    have : (fun t => if t = s then promoted (w.slaves t) else w.slaves t) = w.slaves := by
      funext t
      by_cases ht : t = s
      · simp [ht, promoted, hb]
      · simp [ht]
    simp only [setSlave, this]

theorem change_active_hoolock {w : World} (h : w.bond.params.mode = .hoolock)
    {new : Option SlaveId} (hne : w.bond.curr_active_slave ≠ new) :
    w.bond_change_active_slave new =
      (((w.onSlave new fun w s => w.setSlave s promoted).bond_mc_swap new
        w.bond.curr_active_slave).setBond fun b => { b with curr_active_slave := new }) := by
  have hp : w.onSlave new promote_link = w.onSlave new fun w s => w.setSlave s promoted := by
    cases new with
    | none => rfl
    | some s => exact promote_link_hoolock h s
  have hm : ((w.onSlave new fun w s => w.setSlave s promoted).bond_mc_swap new
      w.bond.curr_active_slave).bond.params.mode = .hoolock := by
    rw [mc_swap_bond]
    cases new <;> exact h
  unfold bond_change_active_slave
  simp only [hne, if_false, hp]
  simp only [install_active, hm, reduceCtorEq, or_self, if_false]
  have hm2 : ∀ v : World, v.bond.params.mode = .hoolock →
      (v.setBond fun b => { b with curr_active_slave := new }).bond.params.mode ≠ .activebackup := by
    intro v hv
    simp [setBond, hv]
  simp only [hm2 _ hm, ne_eq, not_false_eq_true, if_true]

theorem change_active_bond {w : World} (h : w.bond.params.mode = .hoolock)
    (new : Option SlaveId) :
    (w.bond_change_active_slave new).bond = { w.bond with curr_active_slave := new } := by
  by_cases hne : w.bond.curr_active_slave = new
  · subst hne
    simp [bond_change_active_slave]
  · rw [change_active_hoolock h hne]
    simp only [setBond, mc_swap_bond]
    cases new <;> rfl

theorem change_active_slaves {w : World} (h : w.bond.params.mode = .hoolock)
    (new : Option SlaveId) (t : SlaveId) :
    (w.bond_change_active_slave new).slaves t =
      if new = some t ∧ w.bond.curr_active_slave ≠ new then promoted (w.slaves t)
      else w.slaves t := by
  by_cases hne : w.bond.curr_active_slave = new
  · simp [bond_change_active_slave, hne]
  · rw [change_active_hoolock h hne]
    simp only [setBond, mc_swap_slaves]
    cases new with
    | none => simp [onSlave]
    | some s =>
      by_cases ht : t = s
      · simp [onSlave, setSlave, ht, hne]
      · have hs : ¬ s = t := fun e => ht e.symm
        simp [onSlave, setSlave, ht, hs]

theorem change_active_devs {w : World} (h : w.bond.params.mode = .hoolock)
    (new : Option SlaveId) : SameDevs (w.bond_change_active_slave new) w := by
  by_cases hne : w.bond.curr_active_slave = new
  · simp only [bond_change_active_slave, hne, if_true]
    exact SameDevs.refl w
  · rw [change_active_hoolock h hne]
    refine SameDevs.trans (sameDevs_mc_swap _ _ _) ?_
    cases new <;> exact SameDevs.refl w

theorem set_carrier_hoolock {w : World} (h : w.bond.params.mode = .hoolock) :
    ∃ f : NetDevice → NetDevice, w.bond_set_carrier.2 = w.setDev w.bond.dev f ∧
      ∀ dev, ∃ c, f dev = { dev with carrier := c } := by
  have hid : w = w.setDev w.bond.dev id := by
    simp [setDev]
  unfold bond_set_carrier
  simp only [h, reduceCtorEq, and_false, if_false]
  split_ifs
  · exact ⟨_, rfl, fun dev => ⟨_, rfl⟩⟩
  · exact ⟨id, hid, fun dev => ⟨dev.carrier, rfl⟩⟩
  · exact ⟨_, rfl, fun dev => ⟨_, rfl⟩⟩
  · exact ⟨id, hid, fun dev => ⟨dev.carrier, rfl⟩⟩

theorem set_carrier_bond {w : World} (h : w.bond.params.mode = .hoolock) :
    w.bond_set_carrier.2.bond = w.bond := by
  obtain ⟨f, hf, _⟩ := set_carrier_hoolock h
  rw [hf]
  rfl

theorem set_carrier_slaves {w : World} (h : w.bond.params.mode = .hoolock) :
    w.bond_set_carrier.2.slaves = w.slaves := by
  obtain ⟨f, hf, _⟩ := set_carrier_hoolock h
  rw [hf]
  rfl

theorem set_carrier_devs {w : World} (h : w.bond.params.mode = .hoolock) :
    SameDevsBut w.bond.dev w.bond_set_carrier.2 w := by
  obtain ⟨f, hf, _⟩ := set_carrier_hoolock h
  intro d hd
  rw [hf]
  simp [setDev, hd]

theorem select_active_bond {w : World} (h : w.bond.params.mode = .hoolock) :
    w.bond_select_active_slave.bond =
      { w.bond with curr_active_slave := w.bond_find_best_slave } := by
  unfold bond_select_active_slave
  dsimp only
  split_ifs with hne
  · have hm : (w.bond_change_active_slave w.bond_find_best_slave).bond.params.mode = .hoolock := by
      rw [change_active_bond h]
      exact h
    rw [set_carrier_bond hm, change_active_bond h]
  · rw [not_not.mp hne]

theorem select_active_slave {w : World} (h : w.bond.params.mode = .hoolock) (t : SlaveId) :
    w.bond_select_active_slave.slaves t =
      if w.bond_find_best_slave = some t ∧ w.bond.curr_active_slave ≠ some t then
        promoted (w.slaves t) else w.slaves t := by
  unfold bond_select_active_slave
  dsimp only
  split_ifs with hne hboth hboth
  · have hm : (w.bond_change_active_slave w.bond_find_best_slave).bond.params.mode = .hoolock := by
      rw [change_active_bond h]
      exact h
    rw [set_carrier_slaves hm, change_active_slaves h, if_pos ⟨hboth.1, Ne.symm hne⟩]
  · have hm : (w.bond_change_active_slave w.bond_find_best_slave).bond.params.mode = .hoolock := by
      rw [change_active_bond h]
      exact h
    rw [set_carrier_slaves hm, change_active_slaves h, if_neg]
    rintro ⟨hbest, hold⟩
    exact hboth ⟨hbest, hbest ▸ hold⟩
  · exact absurd hboth.1 fun hbest => hboth.2 ((not_not.mp hne).symm.trans hbest)
  · rfl

theorem select_active_slaves {w : World} (h : w.bond.params.mode = .hoolock) (t : SlaveId) :
    w.bond_select_active_slave.slaves t = w.slaves t ∨
      w.bond_select_active_slave.slaves t = promoted (w.slaves t) := by
  rw [select_active_slave h]
  split_ifs
  · exact Or.inr rfl
  · exact Or.inl rfl

theorem select_active_devs {w : World} (h : w.bond.params.mode = .hoolock) :
    SameDevsBut w.bond.dev w.bond_select_active_slave w := by
  unfold bond_select_active_slave
  dsimp only
  split_ifs with hne
  · have hb := change_active_bond h w.bond_find_best_slave
    have hm : (w.bond_change_active_slave w.bond_find_best_slave).bond.params.mode = .hoolock := by
      rw [hb]
      exact h
    have hc := set_carrier_devs hm
    rw [hb] at hc
    exact hc.trans ((change_active_devs h _).but _)
  · exact fun d _ => rfl

theorem Usable.select {w : World} {s : SlaveId} (h : w.bond.params.mode = .hoolock)
    (hd : (w.slaves s).dev ≠ w.bond.dev) (hu : w.Usable s) :
    w.bond_select_active_slave.Usable s := by
  obtain ⟨hup, hlink⟩ := hu
  have hparams : w.bond_select_active_slave.bond.params = w.bond.params := by
    rw [select_active_bond h]
  have hdev : (w.bond_select_active_slave.slaves s).dev = (w.slaves s).dev :=
    congrFun (congrArg Shape.dev (shape_select_active w)) s
  refine ⟨?_, ?_⟩
  · unfold slave_dev at hup ⊢
    rw [hdev, (select_active_devs h).is_up hd]
    exact hup
  · rw [hparams]
    rcases select_active_slaves h s with hs | hs
    · rw [hs]
      exact hlink
    · rw [hs]
      rcases hlink with hl | hl
      · left
        simp [promoted, hl]
      · left
        simp [promoted, hl.1]

end World

end Hoolock
