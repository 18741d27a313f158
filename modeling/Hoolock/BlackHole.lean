import Hoolock.Serving

/-!
Whether the active slave can send while some slave can: the monitor hands the bond over only
when the active slave fails or the primary one returns.
-/

set_option autoImplicit false

namespace Hoolock

namespace World

variable [Siblings]

omit [Siblings] in
theorem find_best_lock (w : World) (n : LockName) (m : LockMode) :
    (w.lock n m).bond_find_best_slave = w.bond_find_best_slave := by
  have hloop : ∀ l mintime best, find_best (w.lock n m) l mintime best =
      find_best w l mintime best := by
    intro l
    induction l with
    | nil => exact fun _ _ => rfl
    | cons s rest ih =>
      intro mintime best
      unfold find_best
      simp only [ih]
      rfl
  unfold bond_find_best_slave
  simp only [hloop]
  rfl

theorem failover_best {w : World} (h : w.bond.params.mode = .hoolock) :
    w.failover.bond.curr_active_slave = w.bond_find_best_slave :=
  (failover_active h).trans (find_best_lock w _ _)

theorem failover_slave {w : World} (h : w.bond.params.mode = .hoolock) (t : SlaveId) :
    w.failover.slaves t =
      if w.bond_find_best_slave = some t ∧ w.bond.curr_active_slave ≠ some t then
        promoted (w.slaves t) else w.slaves t := by
  have hm : (w.lock .curr_slave .write).bond.params.mode = .hoolock := h
  have hsel := select_active_slave hm t
  rw [find_best_lock] at hsel
  exact hsel

theorem Inv.failover_alive {w : World} {l : List SlaveId} (h : w.Inv l) {b : SlaveId}
    (hb : w.failover.bond.curr_active_slave = some b)
    (hnew : w.bond.curr_active_slave ≠ some b ∨ (w.slaves b).link = .up) :
    (w.failover.slaves b).alive = true := by
  rw [failover_best h.mode] at hb
  have husable := h.toMembers.best_usable hb
  have hlink : (w.slaves b).link = .up ∨ (w.slaves b).link = .back :=
    husable.2.imp_right And.left
  rw [failover_slave h.mode]
  split_ifs with hcase
  · have hup : (promoted (w.slaves b)).link = .up := congrArg Prod.fst (promoted_standing hlink)
    simp [Slave.alive, hup]
  · have hup := hnew.resolve_left fun hne => hcase ⟨hb, hne⟩
    simp [Slave.alive, hup]

theorem failover_brings {w : World} (h : w.bond.params.mode = .hoolock) {t : SlaveId}
    (ht : (w.failover.slaves t).alive = true) :
    w.failover.bond.curr_active_slave = some t ∨ (w.slaves t).alive = true := by
  rw [failover_slave h] at ht
  split_ifs at ht with hcase
  · exact Or.inl ((failover_best h).trans hcase.1)
  · exact Or.inr ht

/-- The active slave `b` is alive, or will be by the end of the turns of `r`, or is replaced. -/
def Due (w : World) (r : List SlaveId) (b : SlaveId) : Prop :=
  (w.slaves b).alive = true ∨ b ∈ r ∧ (w.slaves b).new_link = some .up ∨
    ∃ p ∈ r, w.bond.primary_slave = some p ∧ (w.slaves p).new_link = some .up ∧
      IS_UP (w.slave_dev p) = true

omit [Siblings] in
theorem Due.other {w v : World} {s b : SlaveId} {r : List SlaveId} (h : Due w (s :: r) b)
    (hbs : b ≠ s) (hp : w.bond.primary_slave = some s → (w.slaves s).new_link ≠ some .up)
    (hslaves : ∀ t, t ≠ s → v.slaves t = w.slaves t) (hdevs : v.devs = w.devs)
    (hprimary : v.bond.primary_slave = w.bond.primary_slave) : Due v r b := by
  rcases h with halive | ⟨hm, hup⟩ | ⟨p, hm, hpp, hup, hdev⟩
  · left
    rw [hslaves b hbs]
    exact halive
  · right
    left
    rw [hslaves b hbs]
    exact ⟨(List.mem_cons.mp hm).resolve_left hbs, hup⟩
  · have hps : p ≠ s := by
      rintro rfl
      exact hp hpp hup
    right
    right
    refine ⟨p, (List.mem_cons.mp hm).resolve_left hps, hprimary.trans hpp, ?_, ?_⟩
    · rw [hslaves p hps]
      exact hup
    · unfold slave_dev at hdev ⊢
      rw [hslaves p hps, hdevs]
      exact hdev

omit [Siblings] in
theorem Due.skip {w : World} {s b : SlaveId} {r : List SlaveId} (h : Due w (s :: r) b)
    (hs : (w.slaves s).new_link ≠ some .up) : Due w r b := by
  rcases h with halive | ⟨hm, hup⟩ | ⟨p, hm, hpp, hup, hdev⟩
  · exact Or.inl halive
  · refine Or.inr (Or.inl ⟨(List.mem_cons.mp hm).resolve_left ?_, hup⟩)
    rintro rfl
    exact hs hup
  · refine Or.inr (Or.inr ⟨p, (List.mem_cons.mp hm).resolve_left ?_, hpp, hup, hdev⟩)
    rintro rfl
    exact hs hup

theorem Inv.due_commit_up {w : World} {l : List SlaveId} (h : w.Inv l) {s : SlaveId}
    (hs : s ∈ l) {r : List SlaveId} (hdue : ∀ b, w.bond.curr_active_slave = some b →
      Due w (s :: r) b) {b : SlaveId} (hb : (w.commit_up s).bond.curr_active_slave = some b) :
    Due (w.commit_up s) r b := by
  obtain ⟨u, hu⟩ : ∃ u, u = w.setSlave s fun x => { x with link := .up, state := .active } :=
    ⟨_, rfl⟩
  have hui : u.Inv l := hu ▸ h.setSlave s ⟨fun _ => rfl, fun _ => rfl, fun _ => rfl⟩
  have hself : (u.slaves s).link = .up := by rw [hu, setSlave_self]
  have hother : ∀ t, t ≠ s → u.slaves t = w.slaves t := fun t ht => hu ▸ setSlave_other w _ ht
  have hact : u.bond.curr_active_slave = w.bond.curr_active_slave := hu ▸ rfl
  rw [commit_up_hoolock h.mode, ← hu] at hb ⊢
  by_cases hcase : w.bond.curr_active_slave = none ∨ w.bond.primary_slave = some s
  · rw [if_pos hcase] at hb ⊢
    by_cases hnew : u.bond.curr_active_slave ≠ some b ∨ (u.slaves b).link = .up
    · exact Or.inl (hui.failover_alive hb hnew)
    · -- it keeps the bond although its link is not up yet
      obtain ⟨hold, hdown⟩ := not_or.mp hnew
      have hold : w.bond.curr_active_slave = some b := hact.symm.trans (not_not.mp hold)
      have hbs : b ≠ s := fun e => hdown (e ▸ hself)
      have hprimary : w.bond.primary_slave = some s := hcase.resolve_left (by simp [hold])
      have hbest : u.bond_find_best_slave = some b := (failover_best hui.mode).symm.trans hb
      have hback : (w.slaves b).link = .back := by
        have husable := (hui.toMembers.best_usable hbest).2.imp_right And.left
        rw [← hother b hbs]
        exact husable.resolve_left hdown
      rcases hdue b hold with halive | ⟨hm, hup⟩ | ⟨p, -, hpp, hup, hdev⟩
      · simp [Slave.alive, hback] at halive
      · refine Or.inr (Or.inl ⟨(List.mem_cons.mp hm).resolve_left hbs, ?_⟩)
        rw [failover_new_link hui.mode, hother b hbs]
        exact hup
      · obtain rfl : s = p := Option.some.inj (hprimary.symm.trans hpp)
        have hudev : IS_UP (u.slave_dev s) = true := by
          rw [hu, slave_dev, setSlave_self]
          exact hdev
        obtain ⟨c, hc, hcup⟩ := hui.toMembers.best_up hs hudev hself
        obtain rfl : c = b := Option.some.inj (hc.symm.trans hbest)
        exact absurd hcup hdown
  · rw [if_neg hcase] at hb ⊢
    by_cases hbs : b = s
    · left
      simp [Slave.alive, hbs, hself]
    · have hold : w.bond.curr_active_slave = some b := hact.symm.trans hb
      refine (hdue b hold).other hbs (fun hp => absurd (Or.inr hp) hcase) hother ?_ ?_
      · rw [hu]
        rfl
      · rw [hu]
        rfl

theorem Inv.due_commit_down {w : World} {l : List SlaveId} (h : w.Inv l) {s : SlaveId}
    (hlink : (w.slaves s).new_link = some .down) {r : List SlaveId}
    (hdue : ∀ b, w.bond.curr_active_slave = some b → Due w (s :: r) b) {b : SlaveId}
    (hb : (w.commit_down s).bond.curr_active_slave = some b) : Due (w.commit_down s) r b := by
  obtain ⟨u, hu⟩ : ∃ u, u = w.setSlave s fun x => { count_failure x with link := .down } :=
    ⟨_, rfl⟩
  have hui : u.Inv l := hu ▸ h.setSlave s ⟨fun _ => rfl, fun _ => rfl, fun _ => rfl⟩
  have hself : (u.slaves s).link = .down := by rw [hu, setSlave_self]
  have hother : ∀ t, t ≠ s → u.slaves t = w.slaves t := fun t ht => hu ▸ setSlave_other w _ ht
  have hact : u.bond.curr_active_slave = w.bond.curr_active_slave := hu ▸ rfl
  rw [commit_down_hoolock h.mode, ← hu] at hb ⊢
  by_cases hcase : w.bond.curr_active_slave = some s
  · rw [if_pos hcase] at hb ⊢
    have hbest : u.bond_find_best_slave = some b := (failover_best hui.mode).symm.trans hb
    have hbs : b ≠ s := by
      rintro rfl
      have husable := (hui.toMembers.best_usable hbest).2
      simp [hself] at husable
    refine Or.inl (hui.failover_alive hb (Or.inl ?_))
    rw [hact, hcase]
    simpa using hbs.symm
  · rw [if_neg hcase] at hb ⊢
    have hold : w.bond.curr_active_slave = some b := hact.symm.trans hb
    have hbs : b ≠ s := fun e => hcase (e ▸ hold)
    refine (hdue b hold).other hbs (fun _ hup => ?_) hother ?_ ?_
    · rw [hlink] at hup
      cases hup
    · rw [hu]
      rfl
    · rw [hu]
      rfl

theorem Inv.due_commit {w : World} {l : List SlaveId} (h : w.Inv l) {s : SlaveId} (hs : s ∈ l)
    {r : List SlaveId} (hr : s ∉ r)
    (hdue : ∀ b, w.bond.curr_active_slave = some b → Due w (s :: r) b) {b : SlaveId}
    (hb : (w.commit s).bond.curr_active_slave = some b) : Due (w.commit s) r b := by
  have hskip : ∀ link, (w.slaves s).new_link = some link → link ≠ .up →
      Due w r b → Due (w.setSlave s fun slave => { slave with new_link := none }) r b := by
    intro link hlink hne hdue
    have hother : ∀ t ∈ r, (w.setSlave s fun slave => { slave with new_link := none }).slaves t =
        w.slaves t := fun t ht => setSlave_other w _ fun e => hr (e ▸ ht)
    rcases hdue with halive | ⟨hm, hup⟩ | ⟨p, hm, hpp, hup, hdev⟩
    · left
      by_cases hbs : b = s
      · rw [hbs, setSlave_self, ← hbs]
        exact halive
      · rw [setSlave_other w _ hbs]
        exact halive
    · exact Or.inr (Or.inl ⟨hm, by rw [hother b hm]; exact hup⟩)
    · refine Or.inr (Or.inr ⟨p, hm, hpp, by rw [hother p hm]; exact hup, ?_⟩)
      unfold slave_dev at hdev ⊢
      rw [hother p hm]
      exact hdev
  unfold World.commit at hb ⊢
  cases hlink : (w.slaves s).new_link with
  | none =>
    rw [hlink] at hb
    exact (hdue b hb).skip (by simp [hlink])
  | some link =>
    rw [hlink] at hb
    cases link with
    | up => exact h.due_commit_up hs hdue hb
    | down => exact h.due_commit_down hlink hdue hb
    | fail => exact hskip _ hlink (by simp) ((hdue b hb).skip (by simp [hlink]))
    | back => exact hskip _ hlink (by simp) ((hdue b hb).skip (by simp [hlink]))

theorem Inv.due_commits {w : World} {l : List SlaveId} (h : w.Inv l) {r : List SlaveId}
    (hr : ∀ s ∈ r, s ∈ l) (hnd : r.Nodup)
    (hdue : ∀ b, w.bond.curr_active_slave = some b → Due w r b) {b : SlaveId}
    (hb : (r.foldl World.commit w).bond.curr_active_slave = some b) :
    ((r.foldl World.commit w).slaves b).alive = true := by
  induction r generalizing w with
  | nil =>
    rcases hdue b hb with halive | ⟨hm, _⟩ | ⟨_, hm, _⟩
    · exact halive
    · exact absurd hm (by simp)
    · exact absurd hm (by simp)
  | cons s rest ih =>
    obtain ⟨hs, hrest⟩ := List.nodup_cons.mp hnd
    refine ih (h.commit s) (fun t ht => hr t (by simp [ht])) hrest (fun c hc => ?_) hb
    exact h.due_commit (hr s (by simp)) hs hdue hc

/-- Nobody is to come up in the turns of `r`: either the active slave's link is in use and
stays so, or every link in use is to go down. -/
structure Ebbing (w : World) (l r : List SlaveId) : Prop where
  turns : ∀ t ∈ r, (w.slaves t).new_link = none ∨ (w.slaves t).new_link = some .down
  down : ∀ t ∈ l, (w.slaves t).new_link = some .down →
    (w.slaves t).link = .fail ∨ (w.slaves t).link = .down
  kept : (∃ b ∈ l, w.bond.curr_active_slave = some b ∧ (w.slaves b).alive = true ∧
      (b ∈ r → (w.slaves b).new_link ≠ some .down)) ∨
    ∀ t ∈ l, (w.slaves t).alive = true → t ∈ r ∧ (w.slaves t).new_link = some .down

theorem Ebbing.commit_down {w : World} {l : List SlaveId} (h : w.Inv l) {s : SlaveId}
    {r : List SlaveId} (hr : s ∉ r) (he : w.Ebbing l (s :: r))
    (hlink : (w.slaves s).new_link = some .down) : (w.commit_down s).Ebbing l r := by
  obtain ⟨u, hu⟩ : ∃ u, u = w.setSlave s fun x => { count_failure x with link := .down } :=
    ⟨_, rfl⟩
  have hui : u.Inv l := hu ▸ h.setSlave s ⟨fun _ => rfl, fun _ => rfl, fun _ => rfl⟩
  have hself : (u.slaves s).link = .down := by rw [hu, setSlave_self]
  have hother : ∀ t, t ≠ s → u.slaves t = w.slaves t := fun t ht => hu ▸ setSlave_other w _ ht
  have hact : u.bond.curr_active_slave = w.bond.curr_active_slave := hu ▸ rfl
  have hne : ∀ t ∈ r, t ≠ s := fun t ht e => hr (e ▸ ht)
  have hudown : ∀ t ∈ l, (u.slaves t).new_link = some .down →
      (u.slaves t).link = .fail ∨ (u.slaves t).link = .down := by
    intro t ht hnew
    by_cases hts : t = s
    · exact Or.inr (hts ▸ hself)
    · rw [hother t hts] at hnew ⊢
      exact he.down t ht hnew
  have hualive : ∀ t, (u.slaves t).alive = true → t ≠ s ∧ (w.slaves t).alive = true := by
    intro t halive
    have hts : t ≠ s := by
      rintro rfl
      simp [Slave.alive, hself] at halive
    rw [hother t hts] at halive
    exact ⟨hts, halive⟩
  rw [commit_down_hoolock h.mode, ← hu]
  by_cases hcase : w.bond.curr_active_slave = some s
  · -- the active slave itself goes: whoever is chosen is not to go down
    have hnew := failover_new_link hui.mode
    have hall : ∀ t ∈ l, (w.slaves t).alive = true → t ∈ s :: r ∧
        (w.slaves t).new_link = some .down := by
      rcases he.kept with ⟨b, _, hb, _, hstay⟩ | hall
      · obtain rfl : s = b := Option.some.inj (hcase.symm.trans hb)
        exact absurd hlink (hstay (by simp))
      · exact hall
    rw [if_pos hcase]
    refine { turns := fun t ht => ?_, down := fun t ht hd => ?_, kept := ?_ }
    · rw [hnew, hother t (hne t ht)]
      exact he.turns t (by simp [ht])
    · rw [hnew] at hd
      have hlow := hudown t ht hd
      have hback : (u.slaves t).link ≠ .back := by
        rcases hlow with hlow | hlow <;> simp [hlow]
      rw [failover_slave hui.mode, promoted_same hback, ite_self]
      exact hlow
    · cases hbest : u.failover.bond.curr_active_slave with
      | some c =>
        have hchosen : u.bond_find_best_slave = some c :=
          (failover_best hui.mode).symm.trans hbest
        have husable := (hui.toMembers.best_usable hchosen).2.imp_right And.left
        have hcs : c ≠ s := by
          rintro rfl
          simp [hself] at husable
        have hcl : c ∈ l := hui.toMembers.find_best_slave.2 c hchosen
        refine Or.inl ⟨c, hcl, rfl, ?_, fun _ hd => ?_⟩
        · refine hui.failover_alive hbest (Or.inl ?_)
          rw [hact, hcase]
          simpa using hcs.symm
        · rw [hnew] at hd
          rcases hudown c hcl hd with hlow | hlow <;> simp [hlow] at husable
      | none =>
        refine Or.inr fun t ht halive => ?_
        have hold := (failover_brings hui.mode halive).resolve_left (by simp [hbest])
        obtain ⟨hts, hwas⟩ := hualive t hold
        obtain ⟨hm, hd⟩ := hall t ht hwas
        refine ⟨(List.mem_cons.mp hm).resolve_left hts, ?_⟩
        rw [hnew, hother t hts]
        exact hd
  · rw [if_neg hcase]
    refine { turns := fun t ht => ?_, down := hudown, kept := ?_ }
    · rw [hother t (hne t ht)]
      exact he.turns t (by simp [ht])
    · rcases he.kept with ⟨b, hbl, hb, halive, hstay⟩ | hall
      · have hbs : b ≠ s := fun e => hcase (e ▸ hb)
        refine Or.inl ⟨b, hbl, hact.trans hb, ?_, fun hm => ?_⟩
        · rw [hother b hbs]
          exact halive
        · rw [hother b hbs]
          exact hstay (by simp [hm])
      · refine Or.inr fun t ht halive => ?_
        obtain ⟨hts, hwas⟩ := hualive t halive
        obtain ⟨hm, hd⟩ := hall t ht hwas
        refine ⟨(List.mem_cons.mp hm).resolve_left hts, ?_⟩
        rw [hother t hts]
        exact hd

theorem Ebbing.commit {w : World} {l : List SlaveId} (h : w.Inv l) {s : SlaveId}
    {r : List SlaveId} (hr : s ∉ r) (he : w.Ebbing l (s :: r)) : (w.commit s).Ebbing l r := by
  unfold World.commit
  rcases he.turns s (by simp) with hlink | hlink
  · rw [hlink]
    refine { turns := fun t ht => he.turns t (by simp [ht]), down := he.down, kept := ?_ }
    rcases he.kept with ⟨b, hbl, hb, halive, hstay⟩ | hall
    · exact Or.inl ⟨b, hbl, hb, halive, fun hm => hstay (by simp [hm])⟩
    · refine Or.inr fun t ht halive => ?_
      obtain ⟨hm, hd⟩ := hall t ht halive
      refine ⟨(List.mem_cons.mp hm).resolve_left ?_, hd⟩
      rintro rfl
      rw [hlink] at hd
      cases hd
  · rw [hlink]
    exact he.commit_down h hr hlink

theorem Ebbing.commits {w : World} {l : List SlaveId} (h : w.Inv l) {r : List SlaveId}
    (hnd : r.Nodup) (he : w.Ebbing l r) :
    (∃ b, (r.foldl World.commit w).bond.curr_active_slave = some b ∧
      ((r.foldl World.commit w).slaves b).alive = true) ∨
    ∀ t ∈ l, ((r.foldl World.commit w).slaves t).alive = false := by
  induction r generalizing w with
  | nil =>
    rcases he.kept with ⟨b, _, hb, halive, _⟩ | hall
    · exact Or.inl ⟨b, hb, halive⟩
    · refine Or.inr fun t ht => ?_
      by_contra halive
      obtain ⟨hm, _⟩ := hall t ht (by simpa using halive)
      exact absurd hm (by simp)
  | cons s rest ih =>
    obtain ⟨hs, hrest⟩ := List.nodup_cons.mp hnd
    exact ih (h.commit s) hrest (he.commit h hs)

theorem commit_state {w : World} (h : w.bond.params.mode = .hoolock) (s : SlaveId) {t : SlaveId}
    (ht : (w.slaves t).state = .active) : ((w.commit s).slaves t).state = .active := by
  have hfailover : ∀ u : World, u.bond.params.mode = .hoolock →
      (u.slaves t).state = .active → (u.failover.slaves t).state = .active := by
    intro u hu hstate
    rw [failover_slave hu]
    unfold promoted
    split_ifs <;> exact hstate
  have hset : ∀ f : Slave → Slave, (f (w.slaves t)).state = .active →
      ((w.setSlave s f).slaves t).state = .active := by
    intro f hf
    unfold setSlave
    dsimp only
    split_ifs
    · exact hf
    · exact ht
  unfold World.commit
  cases (w.slaves s).new_link with
  | none => exact ht
  | some link =>
    cases link with
    | up =>
      dsimp only
      rw [commit_up_hoolock h]
      split_ifs
      · exact hfailover _ h (hset _ rfl)
      · exact hset _ rfl
    | down =>
      dsimp only
      rw [commit_down_hoolock h]
      split_ifs
      · exact hfailover _ h (hset (fun x => { count_failure x with link := .down }) ht)
      · exact hset (fun x => { count_failure x with link := .down }) ht
    | fail => exact hset (fun x => { x with new_link := none }) ht
    | back => exact hset (fun x => { x with new_link := none }) ht

theorem Inv.commits_state {w : World} {l : List SlaveId} (h : w.Inv l) (r : List SlaveId)
    {t : SlaveId} (ht : (w.slaves t).state = .active) :
    ((r.foldl World.commit w).slaves t).state = .active := by
  induction r generalizing w with
  | nil => exact ht
  | cons s rest ih => exact ih (h.commit s) (commit_state h.mode s ht)

omit [Siblings] in
/-- The inspection gives verdicts, it takes no link into use and none out of it. -/
theorem inspect_kept (params : Params) (check : Bool) (x : Slave) :
    (inspect_slave params check x).alive = x.alive ∧
      (inspect_slave params check x).state = x.state := by
  obtain ⟨dev, next, prev, delay, link, new_link, state, failures, perm_hwaddr⟩ := x
  cases link <;> cases check <;>
    simp [inspect_slave, inspect_link, inspect_fail_eq, inspect_back_eq, Slave.alive]
  all_goals rfl

omit [Siblings] in
theorem inspect_verdict (params : Params) (check : Bool) (x : Slave) :
    (inspect_slave params check x).new_link = none ∨
      (inspect_slave params check x).new_link = some .up ∨
      (inspect_slave params check x).new_link = some .down ∧
        (inspect_slave params check x).link = .fail := by
  obtain ⟨dev, next, prev, delay, link, new_link, state, failures, perm_hwaddr⟩ := x
  cases link <;> cases check <;>
    simp [inspect_slave, inspect_link, inspect_fail_eq, inspect_back_eq]
  all_goals omega

/-- What a run of the monitor must find on the ring `l`. With an active slave in use, somebody to
take over from it, or nobody at all; without one, among those that come up the active slave, the
primary one, or whoever while nobody is active. -/
def Relieved (w : World) (l : List SlaveId) : Prop :=
  (∀ a ∈ w.bond.curr_active_slave, (w.slaves a).alive = true →
    Failing w.bond.params (w.check a) (w.slaves a) ∨
      (∃ p ∈ w.bond.primary_slave, Returning w.bond.params (w.check p) (w.slaves p)) →
    (∃ t ∈ l, IS_UP (w.slave_dev t) = true ∧
      Recovering w.bond.params (w.check t) (w.slaves t)) ∨
    ∀ t ∈ l, ¬ Returning w.bond.params (w.check t) (w.slaves t) ∧
      ((w.slaves t).alive = true → Failing w.bond.params (w.check t) (w.slaves t))) ∧
  ((∀ a ∈ w.bond.curr_active_slave, (w.slaves a).alive = false) →
    (∃ t ∈ l, Returning w.bond.params (w.check t) (w.slaves t)) →
    ∃ t ∈ l, Returning w.bond.params (w.check t) (w.slaves t) ∧ IS_UP (w.slave_dev t) = true ∧
      (w.bond.curr_active_slave = none ∨ w.bond.curr_active_slave = some t ∨
        w.bond.primary_slave = some t))

def MiimonServes (w : World) : Prop :=
  w.bond.kill_timers = false → w.Relieved w.bond_for_each_slave

instance (params : Params) (check : Bool) (x : Slave) : Decidable (Failing params check x) := by
  unfold Failing
  infer_instance

instance (params : Params) (check : Bool) (x : Slave) : Decidable (Returning params check x) := by
  unfold Returning
  infer_instance

instance (params : Params) (check : Bool) (x : Slave) :
    Decidable (Recovering params check x) := by
  unfold Recovering
  infer_instance

instance (w : World) : Decidable w.MiimonServes := by
  unfold MiimonServes Relieved
  infer_instance

omit [Siblings] in
theorem Inspected.alive {w y : World} {l : List SlaveId} (hy : Inspected w y l) {t : SlaveId}
    (ht : t ∈ l) : (y.slaves t).alive = (w.slaves t).alive := by
  rw [hy.slaves t ht]
  exact (inspect_kept _ _ _).1

omit [Siblings] in
theorem Inspected.ebbing {w y : World} {l : List SlaveId} (hy : Inspected w y l)
    (hall : ∀ t ∈ l, ¬ Returning w.bond.params (w.check t) (w.slaves t) ∧
      ((w.slaves t).alive = true → Failing w.bond.params (w.check t) (w.slaves t))) :
    y.Ebbing l l := by
  refine { turns := fun t ht => ?_, down := fun t ht hd => ?_, kept := Or.inr fun t ht ha => ?_ }
  · rw [hy.slaves t ht]
    rcases inspect_verdict w.bond.params (w.check t) (w.slaves t) with hn | hup | ⟨hd, _⟩
    · exact Or.inl hn
    · exact absurd (inspect_up.mp hup) (hall t ht).1
    · exact Or.inr hd
  · rw [hy.slaves t ht] at hd ⊢
    rcases inspect_verdict w.bond.params (w.check t) (w.slaves t) with hn | hup | ⟨_, hf⟩
    · rw [hn] at hd
      cases hd
    · rw [hup] at hd
      cases hd
    · exact Or.inl hf
  · rw [hy.alive ht] at ha
    rw [hy.slaves t ht]
    exact ⟨ht, inspect_down.mpr ((hall t ht).2 ha)⟩

theorem Serving.committed {w y : World} {l : List SlaveId} (h : w.Serving l)
    (hy : Inspected w y l) (hcond : w.Relieved l) :
    ∀ s ∈ l, ((l.foldl World.commit y).slaves s).alive = true →
      ∃ b, (l.foldl World.commit y).bond.curr_active_slave = some b ∧
        ((l.foldl World.commit y).slaves b).alive = true := by
  obtain ⟨hused, hunused⟩ := hcond
  have hact : y.bond.curr_active_slave = w.bond.curr_active_slave := by rw [hy.bond]
  -- with a hope and an active slave in use, or due, the loop ends well
  have hgood : ∀ t ∈ l, Hope y l t → (∀ b, y.bond.curr_active_slave = some b → Due y l b) →
      ∃ b, (l.foldl World.commit y).bond.curr_active_slave = some b ∧
        ((l.foldl World.commit y).slaves b).alive = true := by
    intro t ht hhope hdue
    obtain ⟨b, hb⟩ := Option.ne_none_iff_exists'.mp (hhope.commits hy.inv ht h.nodup)
    exact ⟨b, hb, hy.inv.due_commits (fun _ hs => hs) h.nodup hdue hb⟩
  -- and so it does if nobody comes up and those in use all go down
  have hebb : (∀ t ∈ l, ¬ Returning w.bond.params (w.check t) (w.slaves t) ∧
      ((w.slaves t).alive = true → Failing w.bond.params (w.check t) (w.slaves t))) →
      ∀ s ∈ l, ((l.foldl World.commit y).slaves s).alive = true →
        ∃ b, (l.foldl World.commit y).bond.curr_active_slave = some b ∧
          ((l.foldl World.commit y).slaves b).alive = true := by
    intro hall s hs hsa
    rcases (hy.ebbing hall).commits hy.inv h.nodup with hserved | hdead
    · exact hserved
    · rw [hdead s hs] at hsa
      cases hsa
  by_cases huse : ∃ a, w.bond.curr_active_slave = some a ∧ (w.slaves a).alive = true
  · obtain ⟨a, ha, haa⟩ := huse
    have hal : a ∈ l := h.active a ha
    have hdue : ∀ b, y.bond.curr_active_slave = some b → Due y l b := by
      intro b hb
      obtain rfl : a = b := Option.some.inj (ha.symm.trans (hact.symm.trans hb))
      exact Or.inl ((hy.alive hal).trans haa)
    by_cases hevent : Failing w.bond.params (w.check a) (w.slaves a) ∨
        ∃ p, w.bond.primary_slave = some p ∧ Returning w.bond.params (w.check p) (w.slaves p)
    · rcases hused a ha haa hevent with ⟨t, ht, hup, hrec⟩ | hall
      · exact fun _ _ _ => hgood t ht (hy.hope ht (h.foreign t ht) hup hrec
          (Or.inl (by simp [ha]))) hdue
      · exact hebb hall
    · obtain ⟨hfail, hret⟩ := not_or.mp hevent
      have hkeep := hy.inv.commits_keep (r := l) (fun s hs => hs) h.nodup (hact.trans ha)
        (fun _ => by
          rw [hy.slaves a hal, Ne, inspect_down]
          exact hfail)
        fun s hs hps => by
          rw [hy.bond] at hps
          rw [hy.slaves s hs, Ne, inspect_up]
          exact fun hr => hret ⟨s, hps, hr⟩
      exact fun _ _ _ => ⟨a, hkeep, hy.inv.due_commits (fun _ hs => hs) h.nodup hdue hkeep⟩
  · have hnone : ∀ a, w.bond.curr_active_slave = some a → (w.slaves a).alive = false :=
      fun a ha => by
        by_contra haa
        exact huse ⟨a, ha, by simpa using haa⟩
    have hdead : ∀ t ∈ l, (w.slaves t).alive = false := fun t ht => by
      by_contra hta
      exact huse (h.served t ht (by simpa using hta))
    by_cases hret : ∃ t ∈ l, Returning w.bond.params (w.check t) (w.slaves t)
    · obtain ⟨t, ht, hr, hup, hwho⟩ := hunused hnone hret
      have hpend : (y.slaves t).new_link = some .up := by
        rw [hy.slaves t ht]
        exact inspect_up.mpr hr
      refine fun _ _ _ => hgood t ht (hy.hope ht (h.foreign t ht) hup hr.recovering (Or.inr hr))
        fun b hb => ?_
      rw [hact] at hb
      rcases hwho with hn | htb | hp
      · rw [hn] at hb
        cases hb
      · obtain rfl : t = b := Option.some.inj (htb.symm.trans hb)
        exact Or.inr (Or.inl ⟨ht, hpend⟩)
      · refine Or.inr (Or.inr ⟨t, ht, ?_, hpend, ?_⟩)
        · rw [hy.bond]
          exact hp
        · rw [hy.onward.is_up (h.foreign t ht)]
          exact hup
    · refine hebb fun t ht => ⟨fun hr => hret ⟨t, ht, hr⟩, fun hta => ?_⟩
      rw [hdead t ht] at hta
      cases hta

theorem Serving.miimon_work {w : World} {l : List SlaveId} (h : w.Serving l)
    (hcond : w.Relieved l) : w.miimon_work.Serving l := by
  have hy := h.toInv.inspected_spec
  have hinv := h.toInv.miimon_work
  obtain ⟨y, hyd⟩ : ∃ y, y = (w.bond_miimon_inspect.unlock .bond .read).lock .bond .read :=
    ⟨_, rfl⟩
  rw [← hyd] at hy
  have hstate : ∀ t ∈ l, (y.slaves t).state = .active := by
    intro t ht
    rw [hy.slaves t ht]
    exact (inspect_kept _ _ _).2.trans (h.state t ht)
  unfold World.miimon_work at hinv ⊢
  dsimp only at hinv ⊢
  rw [← hyd] at hinv ⊢
  split_ifs at hinv ⊢
  · have hf := hy.inv.commits l
    have hb : y.bond_miimon_commit.bond = (l.foldl World.commit y).bond := by
      unfold bond_miimon_commit
      rw [hy.inv.for_each, set_carrier_bond hf.mode]
    have hs : y.bond_miimon_commit.slaves = (l.foldl World.commit y).slaves := by
      unfold bond_miimon_commit
      rw [hy.inv.for_each, set_carrier_slaves hf.mode]
    have hserved := h.committed hy hcond
    rw [← hb, ← hs] at hserved
    refine { toInv := hinv, state := fun t ht => ?_, served := hserved }
    change (y.bond_miimon_commit.slaves t).state = .active
    rw [hs]
    exact hy.inv.commits_state l (hstate t ht)
  · have hyw : w.bond_miimon_inspect.bond = y.bond ∧ w.bond_miimon_inspect.slaves = y.slaves := by
      rw [hyd]
      exact ⟨rfl, rfl⟩
    have halive : ∀ t ∈ l, (y.slaves t).alive = (w.slaves t).alive := by
      intro t ht
      rw [hy.slaves t ht]
      exact (inspect_kept _ _ _).1
    refine { toInv := hinv, state := fun t ht => ?_, served := fun t ht hta => ?_ }
    · rw [hyw.2]
      exact hstate t ht
    · rw [hyw.2, halive t ht] at hta
      obtain ⟨a, ha, haa⟩ := h.served t ht hta
      refine ⟨a, ?_, ?_⟩
      · rw [hyw.1, hy.bond]
        exact ha
      · rw [hyw.2, halive a (h.active a ha)]
        exact haa

theorem Serving.mii_monitor {w : World} {l : List SlaveId} (h : w.Serving l)
    (hcond : w.MiimonServes) : w.bond_mii_monitor.Serving l := by
  obtain ⟨x, han, hcheck, hmon⟩ := mii_monitor_starts w
  have hinv := h.toInv.mii_monitor
  by_cases hoff : w.bond.kill_timers = true ∨ w.bond.slave_cnt = 0
  · refine h.same hinv ?_
    rw [hmon, if_pos hoff]
    exact ⟨fun _ => rfl, rfl⟩
  · have hkill : w.bond.kill_timers = false := by simpa using (not_or.mp hoff).1
    have hxi := han.onward.inv (h.lock .bond .read) fun s hs => h.active s (han.active ▸ hs)
    have hxp : x.bond.params = w.bond.params := han.onward.params
    have hxs : x.slaves = w.slaves := han.slaves
    have hxa : x.bond.curr_active_slave = w.bond.curr_active_slave := han.active
    have hpr : x.bond.primary_slave = w.bond.primary_slave := han.onward.primary
    have hdev : ∀ t, x.slave_dev t = w.slave_dev t := by
      intro t
      unfold slave_dev
      rw [hxs, han.devs]
      rfl
    have hxserving : x.Serving l := h.same hxi ⟨fun t => by rw [hxs], hxa⟩
    have hrelieved : x.Relieved l := by
      obtain ⟨hused, hunused⟩ := hcond hkill
      rw [h.for_each] at hused hunused
      unfold Relieved
      constructor
      · simpa only [hxp, hxs, hxa, hpr, hcheck, hdev] using hused
      · simpa only [hxp, hxs, hxa, hpr, hcheck, hdev] using hunused
    rw [hmon, if_neg hoff] at hinv ⊢
    exact (hxserving.miimon_work hrelieved).same hinv ⟨fun _ => rfl, rfl⟩

/-- What keeps the bond served. A handover by hand may take any slave, and the ARP monitor
judges by other signs. -/
def Serves (w : World) : Event → Prop
  | .enslave _ d => ∀ a ∈ w.bond.curr_active_slave, (w.slaves a).alive = false →
      w.first_link d ≠ .up
  | .release d => w.ReleaseServes d
  | .mii_monitor => w.MiimonServes
  | .make | .change_active _ | .test _ | .arp_monitor _ => False
  | _ => True

omit [Siblings] in
theorem SameLinks.of_sansTraffic {w v : World} (h : v.sansTraffic = w.sansTraffic) :
    SameLinks w v := by
  have hs : v.sansTraffic.slaves = w.sansTraffic.slaves := congrArg World.slaves h
  have hb : v.sansTraffic.bond = w.sansTraffic.bond := congrArg World.bond h
  have hslaves : v.slaves = w.slaves := hs
  exact ⟨fun t => by rw [hslaves], congrArg Bonding.curr_active_slave hb⟩

theorem Serving.step {w v : World} {l : List SlaveId} (h : w.Serving l) {e : Event}
    (hc : w.Serves e) (hv : w.step e = some v) : ∃ m, v.Serving m := by
  cases e with
  | open_bond =>
    cases hv
    refine ⟨l, h.same h.toInv.open_bond ⟨fun t => ?_, open_bond_active w⟩⟩
    unfold open_bond bond_open bond_register_hoolock
    dsimp only
    split_ifs <;> rfl
  | close_bond =>
    cases hv
    refine ⟨l, h.same h.toInv.close_bond ⟨fun t => ?_, close_bond_active w⟩⟩
    unfold close_bond bond_close bond_unregister_hoolock
    dsimp only
    split_ifs <;> rfl
  | enslave env d =>
    simp only [World.step] at hv
    split_ifs at hv with hcond
    obtain ⟨hd, hfresh, hret⟩ := hcond
    cases hv
    exact h.enslave hd hfresh hret hc
  | release d =>
    simp only [World.step] at hv
    split_ifs at hv with hret
    cases hv
    exact h.release hc (Prod.ext hret rfl)
  | release_all =>
    cases hv
    exact ⟨[], serving_nil h.toInv.release_all.1⟩
  | make => exact hc.elim
  | brk env =>
    obtain ⟨⟨r, x⟩, hr, rfl⟩ := Option.map_eq_some_iff.mp hv
    refine ⟨l, h.same (h.toInv.brk hr) ?_⟩
    rw [break_empty h.empty, Option.some.injEq, Prod.mk.injEq] at hr
    rw [← hr.2]
    exact ⟨fun _ => rfl, rfl⟩
  | change_active d => exact hc.elim
  | test d => exact hc.elim
  | arrive env skb =>
    simp only [World.step] at hv
    split_ifs at hv
    cases hv
    have ht := receive_sansTraffic w env skb
    exact ⟨l, h.same (h.toInv.of_sansTraffic ht) (SameLinks.of_sansTraffic ht)⟩
  | xmit env =>
    obtain ⟨⟨r, x⟩, hr, rfl⟩ := Option.map_eq_some_iff.mp hv
    have ht := xmit_sansTraffic hr
    exact ⟨l, h.same (h.toInv.of_sansTraffic ht) (SameLinks.of_sansTraffic ht)⟩
  | mii_monitor =>
    simp only [World.step] at hv
    split_ifs at hv
    cases hv
    exact ⟨l, h.mii_monitor hc⟩
  | arp_monitor delta => exact hc.elim
  | device d r =>
    simp only [World.step] at hv
    split_ifs at hv
    cases hv
    exact ⟨l, h.same (h.toInv.device d r) ⟨fun _ => rfl, rfl⟩⟩
  | address ip =>
    cases hv
    exact ⟨l, h.same (h.toInv.congr_pointers rfl rfl) ⟨fun _ => rfl, rfl⟩⟩
  | tick j =>
    cases hv
    exact ⟨l, h.same (h.toInv.congr_pointers rfl rfl) ⟨fun _ => rfl, rfl⟩⟩
  | destroy =>
    cases hv
    exact ⟨[], serving_nil h.toInv.destroy.1⟩
  | free_all =>
    cases hv
    exact ⟨[], serving_nil h.toInv.free_all.1⟩

/-- While every call and every run of the monitor hands the bond to whoever is in use, no
frame is lost for want of a link: with one usable slave the active one sends. -/
theorem Host.no_black_hole {w v : World} {bond_dev : DevId} (h : w.Host bond_dev)
    {params : Params} (hm : params.mode = .hoolock) {es : List Event}
    (hc : Transition.Along Serves World.step (w.bond_init bond_dev params) es)
    (hv : Transition.run World.step (w.bond_init bond_dev params) es = some v)
    (hset : v.Settled) :
    ∀ s ∈ v.bond_for_each_slave, (v.slaves s).link = .up → IS_UP (v.slave_dev s) = true →
      ∃ a ∈ v.bond_for_each_slave, v.bond.curr_active_slave = some a ∧ v.transmits a ∧
        (v.BOND_IS_OK = true → ∀ env, (v.bond_xmit_hoolock env).map Prod.fst =
          some (v.bond_dev_queue_xmit env (v.slaves a).dev).2) := by
  obtain ⟨l, hl⟩ : ∃ l, v.Serving l := Transition.run_invariant_along (C := Serves)
    (fun u => ∃ l, u.Serving l) (fun _ _ _ hi hcond hs => hi.choose_spec.step hcond hs) hv hc
    ⟨[], serving_nil (h.inv hm)⟩
  intro s hs hup _
  rw [hl.for_each] at hs ⊢
  obtain ⟨a, hal, ha, hsends⟩ := hl.transmits hset hs hup
  refine ⟨a, hal, ha, hsends, fun hok env => ?_⟩
  rw [xmit_active hok ha, if_pos hsends]

end World

/-- The first card comes without carrier and stays the active slave when the second comes with
it: no run of the monitor changes that, and every frame is freed. -/
theorem dead_first_card_is_a_black_hole :
    ∃ v, Transition.run (@World.step noSiblings) bond0
        (.device 1 .no_carrier :: two_slaves ++ [.mii_monitor]) = some v ∧
      v.Settled ∧ (∀ s ∈ v.bond_for_each_slave, (v.slaves s).link = .up ↔ v.check s = true) ∧
      1 ∈ v.bond_for_each_slave ∧ (v.slaves 1).link = .up ∧ IS_UP (v.slave_dev 1) = true ∧
      ¬ (∃ a ∈ v.bond_for_each_slave, v.bond.curr_active_slave = some a ∧ v.transmits a) ∧
      (@World.bond_mii_monitor noSiblings v).bond.curr_active_slave = some 0 ∧
      (v.bond_xmit_hoolock ⟨false, false⟩).map Prod.fst = some .freed := by
  have hrun : (Transition.run (@World.step noSiblings) bond0
      (.device 1 .no_carrier :: two_slaves ++ [.mii_monitor])).any (fun v => decide (v.Settled ∧
        (∀ s ∈ v.bond_for_each_slave, (v.slaves s).link = .up ↔ v.check s = true) ∧
        1 ∈ v.bond_for_each_slave ∧ (v.slaves 1).link = .up ∧ IS_UP (v.slave_dev 1) = true ∧
        ¬ (∃ a ∈ v.bond_for_each_slave, v.bond.curr_active_slave = some a ∧ v.transmits a) ∧
        (@World.bond_mii_monitor noSiblings v).bond.curr_active_slave = some 0 ∧
        (v.bond_xmit_hoolock ⟨false, false⟩).map Prod.fst = some .freed)) = true := by
    decide +kernel
  obtain ⟨v, hv, hcond⟩ := (Option.any_eq_true _ _).mp hrun
  exact ⟨v, hv, of_decide_eq_true hcond⟩

/-- The active card loses its carrier and the monitor hands the bond to the other one. -/
theorem second_card_takes_over :
    ∃ v, Transition.run (@World.step noSiblings) bond0
        (two_slaves ++ [.device 1 .no_carrier, .mii_monitor]) = some v ∧
      (v.slaves 1).link = .up ∧
      ∀ s ∈ v.bond_for_each_slave, (v.slaves s).link = .up → IS_UP (v.slave_dev s) = true →
        ∃ a ∈ v.bond_for_each_slave, v.bond.curr_active_slave = some a ∧ v.transmits a ∧
          (v.BOND_IS_OK = true → ∀ env, (v.bond_xmit_hoolock env).map Prod.fst =
            some (v.bond_dev_queue_xmit env (v.slaves a).dev).2) := by
  have hc : Transition.Along World.Serves (@World.step noSiblings) bond0
      (two_slaves ++ [.device 1 .no_carrier, .mii_monitor]) := by
    refine Transition.along_of_checks (c := fun w e => match e with
      | .enslave _ d => decide (∀ a ∈ w.bond.curr_active_slave,
          (w.slaves a).alive = false → w.first_link d ≠ .up)
      | .mii_monitor => decide w.MiimonServes
      | .open_bond | .device _ _ => true
      | _ => false) (fun w e he => ?_) (by decide +kernel)
    cases e with
    | enslave env d => simpa [World.Serves] using he
    | mii_monitor => simpa [World.Serves] using he
    | open_bond => trivial
    | device d r => trivial
    | _ => cases he
  have hrun : (Transition.run (@World.step noSiblings) bond0
      (two_slaves ++ [.device 1 .no_carrier, .mii_monitor])).any
        (fun v => decide (v.Settled ∧ (v.slaves 1).link = .up)) = true := by
    decide +kernel
  obtain ⟨v, hv, hcond⟩ := (Option.any_eq_true _ _).mp hrun
  obtain ⟨hset, hup⟩ := of_decide_eq_true hcond
  exact ⟨v, hv, hup, @World.Host.no_black_hole noSiblings machine v 0 machine_host hoolock_params
    rfl _ hc hv hset⟩

end Hoolock
