import Hoolock.EnslavePaths

set_option autoImplicit false

namespace Hoolock

namespace World

/-- The ring, the pointers, the settings and the features of `w` are those of `v`, and the bond
does not refer to the record `new`. -/
structure Unchanged (w v : World) (l : List SlaveId) (new : Option SlaveId) : Prop where
  ring : v.Ring l
  slaves : ∀ t ∈ l, v.slaves t = w.slaves t
  holdings : v.holdings = w.holdings
  fail_over_mac : v.bond.params.fail_over_mac = w.bond.params.fail_over_mac
  features : ∀ e, (v.devs e).features = (w.devs e).features
  unreferred : ∀ s, new = some s → v.bond.first_slave ≠ some s ∧
    v.bond.curr_active_slave ≠ some s ∧ v.bond.current_arp_slave ≠ some s ∧
    v.bond.primary_slave ≠ some s

def Unused (w : World) (l : List SlaveId) (new : Option SlaveId) : Prop :=
  ∀ s, new = some s → s ∉ l ∧ w.bond.curr_active_slave ≠ some s ∧
    w.bond.current_arp_slave ≠ some s ∧ w.bond.primary_slave ≠ some s

theorem Ring.first_mem {w : World} {l : List SlaveId} (h : w.Ring l) {s : SlaveId}
    (hs : w.bond.first_slave = some s) : s ∈ l := by
  rw [h.head] at hs
  exact List.mem_of_mem_head? hs

theorem Undone.unchanged {w v : World} {l : List SlaveId} (h : w.Ring l) {s new : Option SlaveId}
    {fom : FailOverMac} (hv : Undone w v s fom) (hs : ∀ t ∈ l, s ≠ some t)
    (hnew : w.Unused l new) (hfit : w.old_features = w.bond_dev.features)
    (hfom : fom = w.bond.params.fail_over_mac) : Unchanged w v l new := by
  have hfirst : v.bond.first_slave = w.bond.first_slave := congrArg Holdings.first_slave hv.holdings
  have hact : v.bond.curr_active_slave = w.bond.curr_active_slave :=
    congrArg Holdings.curr_active_slave hv.holdings
  have harp : v.bond.current_arp_slave = w.bond.current_arp_slave :=
    congrArg Holdings.current_arp_slave hv.holdings
  have hprim : v.bond.primary_slave = w.bond.primary_slave :=
    congrArg Holdings.primary_slave hv.holdings
  have hslaves : ∀ t ∈ l, v.slaves t = w.slaves t := fun t ht => hv.slaves t (hs t ht)
  refine
    { ring := ?_, slaves := hslaves, holdings := hv.holdings
      fail_over_mac := hv.fail_over_mac.trans hfom, features := fun e => ?_
      unreferred := fun t ht => ?_ }
  · refine ⟨?_, hfirst.trans h.head, (congrArg Holdings.slave_cnt hv.holdings).trans h.count⟩
    refine h.ring.congr_on (fun t ht => ?_) fun t ht => ?_
    · exact congrArg Slave.next (hslaves t ht)
    · exact congrArg Slave.prev (hslaves t ht)
  · rw [hv.features e]
    split_ifs with he
    · rw [he, hfit]
      rfl
    · rfl
  · obtain ⟨hmem, hca, hcp, hps⟩ := hnew t ht
    rw [hfirst, hact, harp, hprim]
    exact ⟨fun hf => hmem (h.first_mem hf), hca, hcp, hps⟩

variable [Siblings]

omit [Siblings] in
theorem Enslaved.count {w x : World} {s : SlaveId} {d : DevId} (h : Enslaved w x s d) :
    x.bond.slave_cnt = w.bond.slave_cnt + 1 := by
  have hcnt : x.bond.slave_cnt = ((w.shape.alloc s d).attach s).slave_cnt :=
    congrArg Shape.slave_cnt h.shape
  rw [hcnt]
  unfold Shape.attach
  cases (w.shape.alloc s d).first_slave with
  | none => rfl
  | some a => rfl

/-- A failing enslave changes nothing in just these cases: the device is refused at once; it
is found unfit, or cannot be started, with `int` wide enough for the features and
`fail_over_mac` left alone; or the call does not fail. -/
theorem failed_enslave_unchanged_iff {w : World} {l : List SlaveId} (h : w.Ring l)
    (hp : w.port = .k27) (hm : w.bond.params.mode = .hoolock) {env : EnslaveEnv} (d : DevId)
    (hnew : w.Unused l env.new_slave) :
    ((bond_enslave env w d).1 ≠ 0 → Unchanged w (bond_enslave env w d).2 l env.new_slave) ↔
      w.refuses d = true ∨
      (w.unsuitable d = true ∧ w.old_features = w.bond_dev.features) ∨
      (w.unsuitable d = false ∧ starts env w d = false ∧ w.old_features = w.bond_dev.features ∧
        w.fom_after d = w.bond.params.fail_over_mac) ∨
      (w.unsuitable d = false ∧ starts env w d = true ∧ env.symlinks = 0) := by
  cases hr : w.refuses d with
  | true =>
    obtain ⟨-, hsame⟩ := @bond_enslave_refused _ env w d hr
    refine iff_of_true (fun _ => ?_) (Or.inl rfl)
    rw [hsame]
    refine ⟨h, fun _ _ => rfl, rfl, rfl, fun _ => rfl, fun s hs => ?_⟩
    obtain ⟨hmem, hrest⟩ := hnew s hs
    exact ⟨fun hf => hmem (h.first_mem hf), hrest⟩
  | false =>
    have hfeatures : ∀ {v : World} {s : Option SlaveId} {fom : FailOverMac}, Undone w v s fom →
        Unchanged w v l env.new_slave → w.old_features = w.bond_dev.features := by
      intro v s fom hv hun
      have hf := hv.features w.bond.dev
      rw [if_pos rfl, hun.features] at hf
      exact hf.symm
    cases hu : w.unsuitable d with
    | true =>
      obtain ⟨hret, hundone⟩ := @bond_enslave_unsuitable _ env w d hr hu
      simp only [Bool.false_eq_true, false_or, true_and, Bool.true_eq_false, false_and, or_false]
      constructor
      · intro hun
        exact hfeatures hundone (hun hret)
      · intro hfit _
        exact hundone.unchanged h (fun _ _ => by simp) hnew hfit rfl
    | false =>
      simp only [Bool.false_eq_true, false_or, false_and, true_and]
      cases hs : starts env w d with
      | false =>
        obtain ⟨hret, hundone⟩ := bond_enslave_fails hp hr hu hs
        simp only [true_and, Bool.false_eq_true, false_and, or_false]
        constructor
        · intro hun
          have hv := hun hret
          exact ⟨hfeatures hundone hv, hundone.fail_over_mac.symm.trans hv.fail_over_mac⟩
        · rintro ⟨hfit, hfom⟩ _
          refine hundone.unchanged h (fun t ht ht' => ?_) hnew hfit hfom
          exact (hnew t ht').1 ht
      | true =>
        obtain ⟨s, x, -, he, -, hcall⟩ := bond_enslave_starts hp hm hr hu hs
        simp only [Bool.true_eq_false, false_and, false_or, true_and]
        rw [hcall]
        constructor
        · intro hun
          by_contra hlinks
          rw [if_pos hlinks] at hun
          have hcnt := congrArg Holdings.slave_cnt (hun hlinks).holdings
          have hjoined := he.count
          rw [← (err_outer_kept x d s w.old_features).1] at hjoined
          have hsame : (x.err_outer d s w.old_features).bond.slave_cnt = w.bond.slave_cnt := hcnt
          omega
        · intro hlinks
          rw [if_neg (not_not.mpr hlinks)]
          exact fun hne => absurd rfl hne

end World

/-- The links cannot be made for the first slave: it is freed, and it is the active slave. -/
theorem freed_slave_stays :
    ∃ v, @World.bond_enslave noSiblings ⟨some 0, 0, -ENOMEM⟩ bond0 1 = (-ENOMEM, v) ∧
      bond0.bond.slave_cnt = 0 ∧ v.bond.slave_cnt = 1 ∧ v.bond.curr_active_slave = some 0 ∧
      v.bond.first_slave = some 0 ∧ v.live 0 = false ∧
      ¬ World.Unchanged bond0 v [] (some 0) := by
  obtain ⟨r, hr⟩ : ∃ r, r = @World.bond_enslave noSiblings ⟨some 0, 0, -ENOMEM⟩ bond0 1 := ⟨_, rfl⟩
  have hret : r.1 = -ENOMEM := by
    rw [hr]
    decide +kernel
  have hbond : r.2.bond.slave_cnt = 1 ∧ r.2.bond.curr_active_slave = some 0 ∧
      r.2.bond.first_slave = some 0 ∧ r.2.live 0 = false := by
    rw [hr]
    decide +kernel
  obtain ⟨hcnt, hact, hfirst, hlive⟩ := hbond
  refine ⟨r.2, hr ▸ Prod.ext hret rfl, rfl, hcnt, hact, hfirst, hlive, fun h => ?_⟩
  exact (h.unreferred 0 rfl).1 hfirst

/-- A second card that does not open leaves the bond with the first one alone. -/
theorem failed_open_unchanged : ∃ u,
    Transition.run (@World.step noSiblings) bond0 [.open_bond, .enslave (.plain 0) 1] = some u ∧
      u.bond.curr_active_slave = some 0 ∧
      (@World.bond_enslave noSiblings ⟨some 1, -ENODEV, 0⟩ u 2).1 ≠ 0 ∧
      World.Unchanged u (@World.bond_enslave noSiblings ⟨some 1, -ENODEV, 0⟩ u 2).2 [0]
        (some 1) := by
  have hrun : (Transition.run (@World.step noSiblings) bond0
      [.open_bond, .enslave (.plain 0) 1]).any (fun u =>
        u.bond_for_each_slave == [0] && u.bond.curr_active_slave == some 0 &&
        u.bond.current_arp_slave == none && u.bond.primary_slave == none &&
        (@World.bond_enslave noSiblings ⟨some 1, -ENODEV, 0⟩ u 2).1 != 0 &&
        !u.unsuitable 2 && !World.starts ⟨some 1, -ENODEV, 0⟩ u 2 &&
        u.old_features == u.bond_dev.features &&
        u.fom_after 2 == u.bond.params.fail_over_mac) = true := by
    decide +kernel
  obtain ⟨u, hu, hcond⟩ := (Option.any_eq_true _ _).mp hrun
  simp only [Bool.and_eq_true, Bool.not_eq_true', beq_iff_eq, bne_iff_ne] at hcond
  obtain ⟨⟨⟨⟨⟨⟨⟨⟨hring, hact⟩, harp⟩, hprimary⟩, hret⟩, hfit⟩, hstarts⟩, hfeatures⟩, hfom⟩ := hcond
  obtain ⟨l, hi⟩ := @World.Host.run_inv noSiblings machine u 0 machine_host hoolock_params rfl _ hu
  obtain rfl : l = [0] := hi.for_each.symm.trans hring
  have hunused : u.Unused [0] (some 1) := by
    rintro s ⟨⟩
    simp [hact, harp, hprimary]
  have hiff := @World.failed_enslave_unchanged_iff noSiblings u [0] hi.toRing hi.port hi.mode
    ⟨some 1, -ENODEV, 0⟩ 2 hunused
  exact ⟨u, hu, hact, hret,
    hiff.mpr (Or.inr (Or.inr (Or.inl ⟨hfit, hstarts, hfeatures, hfom⟩))) hret⟩

end Hoolock
