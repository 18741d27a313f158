import Hoolock.Reachable

/-!
The link monitors of a HOOLOCK bond: what one slave's turn does, and when a run of
the monitor ends with an active slave.
-/

set_option autoImplicit false

namespace Hoolock

namespace World

/-- The verdict of the inspection, and whether the link still reads up. -/
def check (w : World) (s : SlaveId) : Bool := w.bond_check_dev_link (w.slave_dev s)

theorem setSlave_setSlave (w : World) (s : SlaveId) (f g : Slave → Slave) :
    (w.setSlave s f).setSlave s g = w.setSlave s fun x => g (f x) := by
  simp only [setSlave]
  congr 1
  funext t
  by_cases ht : t = s
  · simp [ht]
  · simp [ht]

theorem setSlave_self (w : World) (s : SlaveId) (f : Slave → Slave) :
    (w.setSlave s f).slaves s = f (w.slaves s) := by
  simp [setSlave]

theorem setSlave_other (w : World) {s t : SlaveId} (f : Slave → Slave) (h : t ≠ s) :
    (w.setSlave s f).slaves t = w.slaves t := by
  simp [setSlave, h]

/-- A monitor's step: settings, ring, masters and primary stay, devices other than the
bond change in their filters only. -/
structure Onward (w v : World) : Prop where
  base : v.base = w.base
  params : v.bond.params = w.bond.params
  primary : v.bond.primary_slave = w.bond.primary_slave
  devs : SameDevsBut w.bond.dev v w

theorem Onward.refl (w : World) : Onward w w := ⟨rfl, rfl, rfl, fun _ _ => rfl⟩

theorem Onward.bond_dev {w v : World} (h : Onward w v) : v.bond.dev = w.bond.dev :=
  congrArg Base.dev h.base

theorem Onward.slave_dev {w v : World} (h : Onward w v) (s : SlaveId) :
    (v.slaves s).dev = (w.slaves s).dev :=
  congrFun (congrArg (fun b : Base => b.shape.dev) h.base) s

theorem Onward.mode {w v : World} (h : Onward w v) (hm : w.bond.params.mode = .hoolock) :
    v.bond.params.mode = .hoolock := (congrArg Params.mode h.params).trans hm

theorem Onward.trans {w v u : World} (h : Onward w v) (k : Onward v u) : Onward w u := by
  have hd := k.devs
  rw [h.bond_dev] at hd
  exact ⟨k.base.trans h.base, k.params.trans h.params, k.primary.trans h.primary,
    hd.trans h.devs⟩

theorem Onward.is_up {w v : World} (h : Onward w v) {s : SlaveId}
    (hs : (w.slaves s).dev ≠ w.bond.dev) : IS_UP (v.slave_dev s) = IS_UP (w.slave_dev s) := by
  unfold World.slave_dev
  rw [h.slave_dev]
  exact h.devs.is_up hs

theorem Onward.inv {w v : World} {l : List SlaveId} (h : Onward w v) (hi : w.Inv l)
    (ha : ∀ s, v.bond.curr_active_slave = some s → s ∈ l) : v.Inv l :=
  hi.congr h.base ha fun s hs => hi.primary s (h.primary ▸ hs)

/-- An update of a record that leaves its place in the ring and its device alone. -/
structure LinkUpdate (f : Slave → Slave) : Prop where
  next : ∀ x, (f x).next = x.next
  prev : ∀ x, (f x).prev = x.prev
  dev : ∀ x, (f x).dev = x.dev

theorem setSlave_onward (w : World) (s : SlaveId) {f : Slave → Slave} (hf : LinkUpdate f) :
    Onward w (w.setSlave s f) :=
  ⟨base_of rfl (shape_setSlave w s f hf.next hf.prev hf.dev) rfl, rfl, rfl, fun _ _ => rfl⟩

theorem Inv.setSlave {w : World} {l : List SlaveId} (h : w.Inv l) (s : SlaveId)
    {f : Slave → Slave} (hf : LinkUpdate f) : (w.setSlave s f).Inv l :=
  (setSlave_onward w s hf).inv h h.active

theorem lock_onward (w : World) (n : LockName) (m : LockMode) : Onward w (w.lock n m) :=
  ⟨base_lock w n m, rfl, rfl, fun _ _ => rfl⟩

theorem unlock_onward (w : World) (n : LockName) (m : LockMode) : Onward w (w.unlock n m) :=
  ⟨base_unlock w n m, rfl, rfl, fun _ _ => rfl⟩

variable [Siblings]

theorem failover_onward {w : World} (h : w.bond.params.mode = .hoolock) :
    Onward w w.failover := by
  obtain ⟨x, hx⟩ : ∃ x, x = w.lock .curr_slave .write := ⟨_, rfl⟩
  have hxm : x.bond.params.mode = .hoolock := by
    rw [hx]
    exact h
  have hsel : Onward x x.bond_select_active_slave := by
    have hb := select_active_bond hxm
    refine ⟨base_of (core_select_active x) (shape_select_active x) (select_active_owners hxm),
      ?_, ?_, select_active_devs hxm⟩
    · rw [hb]
    · rw [hb]
  unfold failover
  rw [← hx]
  refine Onward.trans ?_ (hsel.trans (unlock_onward _ _ _))
  rw [hx]
  exact lock_onward w _ _

theorem failover_active {w : World} (h : w.bond.params.mode = .hoolock) :
    w.failover.bond.curr_active_slave = (w.lock .curr_slave .write).bond_find_best_slave := by
  have hm : (w.lock .curr_slave .write).bond.params.mode = .hoolock := h
  have hb := congrArg Bonding.curr_active_slave (select_active_bond hm)
  exact hb

theorem failover_slaves {w : World} (h : w.bond.params.mode = .hoolock) (t : SlaveId) :
    w.failover.slaves t = w.slaves t ∨ w.failover.slaves t = promoted (w.slaves t) := by
  have hm : (w.lock .curr_slave .write).bond.params.mode = .hoolock := h
  exact select_active_slaves hm t

omit [Siblings] in
theorem promoted_new_link (s : Slave) : (promoted s).new_link = s.new_link := by
  unfold promoted
  split_ifs <;> rfl

theorem failover_new_link {w : World} (h : w.bond.params.mode = .hoolock) (t : SlaveId) :
    (w.failover.slaves t).new_link = (w.slaves t).new_link := by
  rcases failover_slaves h t with ht | ht
  · rw [ht]
  · rw [ht, promoted_new_link]

theorem Usable.failover {w : World} {s : SlaveId} (h : w.bond.params.mode = .hoolock)
    (hd : (w.slaves s).dev ≠ w.bond.dev) (hu : w.Usable s) : w.failover.Usable s := by
  have hm : (w.lock .curr_slave .write).bond.params.mode = .hoolock := h
  have hl : (w.lock .curr_slave .write).Usable s := hu
  exact Usable.select hm hd hl

theorem Inv.failover {w : World} {l : List SlaveId} (h : w.Inv l) : w.failover.Inv l := by
  have hbest := (h.lock .curr_slave .write).toMembers.find_best_slave
  refine (failover_onward h.mode).inv h fun s hs => ?_
  rw [failover_active h.mode] at hs
  exact hbest.2 s hs

theorem Inv.failover_some {w : World} {l : List SlaveId} (h : w.Inv l) {t : SlaveId}
    (ht : t ∈ l) (hu : w.Usable t) : w.failover.bond.curr_active_slave ≠ none := by
  have hbest := (h.lock .curr_slave .write).toMembers.find_best_slave
  rw [failover_active h.mode, Ne, hbest.1]
  exact fun hall => hall t ht hu

theorem link_change_hoolock {w : World} (h : w.bond.params.mode = .hoolock) (s : SlaveId)
    (link : Link) : w.link_change s link = w := by
  unfold link_change
  simp [h]

theorem commit_up_hoolock {w : World} (h : w.bond.params.mode = .hoolock) (s : SlaveId) :
    w.commit_up s =
      if w.bond.curr_active_slave = none ∨ w.bond.primary_slave = some s then
        (w.setSlave s fun x => { x with link := .up, state := .active }).failover
      else w.setSlave s fun x => { x with link := .up, state := .active } := by
  obtain ⟨x, hx⟩ : ∃ x, x = (w.setSlave s fun x => { x with link := .up }).setSlave s fun x =>
      { x with state := .active } := ⟨_, rfl⟩
  have hxm : x.bond.params.mode = .hoolock := by
    rw [hx]
    exact h
  have hfuse : x = w.setSlave s fun x => { x with link := .up, state := .active } := by
    rw [hx, setSlave_setSlave]
  have hm : (w.setSlave s fun x => { x with link := .up }).bond.params.mode = .hoolock := h
  unfold commit_up
  simp only [hm, reduceCtorEq, false_and, or_self, if_false, ne_eq, not_false_eq_true, if_true]
  rw [← hx, link_change_hoolock hxm, ← hfuse]
  have ha : x.bond.curr_active_slave = w.bond.curr_active_slave := by
    rw [hx]
    rfl
  have hp : x.bond.primary_slave = w.bond.primary_slave := by
    rw [hx]
    rfl
  rw [ha, hp]

theorem commit_down_hoolock {w : World} (h : w.bond.params.mode = .hoolock) (s : SlaveId) :
    w.commit_down s =
      if w.bond.curr_active_slave = some s then
        (w.setSlave s fun x => { count_failure x with link := .down }).failover
      else w.setSlave s fun x => { count_failure x with link := .down } := by
  obtain ⟨x, hx⟩ : ∃ x, x = (w.setSlave s count_failure).setSlave s fun x =>
      { x with link := .down } := ⟨_, rfl⟩
  have hxm : x.bond.params.mode = .hoolock := by
    rw [hx]
    exact h
  have hfuse : x = w.setSlave s fun x => { count_failure x with link := .down } := by
    rw [hx, setSlave_setSlave]
  have ha : x.bond.curr_active_slave = w.bond.curr_active_slave := by
    rw [hx]
    rfl
  unfold commit_down
  dsimp only
  rw [← hx]
  simp only [hxm, reduceCtorEq, or_self, if_false]
  rw [link_change_hoolock hxm, ha, ← hfuse]

theorem commit_cases {w : World} (h : w.bond.params.mode = .hoolock) (s : SlaveId) :
    ∃ f, LinkUpdate f ∧
      (w.commit s = w.setSlave s f ∨ w.commit s = (w.setSlave s f).failover) := by
  have hid : w = w.setSlave s fun x => x := by
    simp [setSlave]
  unfold commit
  cases (w.slaves s).new_link with
  | none => exact ⟨_, ⟨fun _ => rfl, fun _ => rfl, fun _ => rfl⟩, Or.inl hid⟩
  | some link =>
    cases link with
    | up =>
      refine ⟨fun x => { x with link := .up, state := .active },
        ⟨fun _ => rfl, fun _ => rfl, fun _ => rfl⟩, ?_⟩
      dsimp only
      rw [commit_up_hoolock h]
      split_ifs
      · exact Or.inr rfl
      · exact Or.inl rfl
    | down =>
      refine ⟨fun x => { count_failure x with link := .down },
        ⟨fun _ => rfl, fun _ => rfl, fun _ => rfl⟩, ?_⟩
      dsimp only
      rw [commit_down_hoolock h]
      split_ifs
      · exact Or.inr rfl
      · exact Or.inl rfl
    | fail =>
      exact ⟨fun x => { x with new_link := none }, ⟨fun _ => rfl, fun _ => rfl, fun _ => rfl⟩,
        Or.inl rfl⟩
    | back =>
      exact ⟨fun x => { x with new_link := none }, ⟨fun _ => rfl, fun _ => rfl, fun _ => rfl⟩,
        Or.inl rfl⟩

theorem commit_onward {w : World} (h : w.bond.params.mode = .hoolock) (s : SlaveId) :
    Onward w (w.commit s) := by
  obtain ⟨f, hf, hc | hc⟩ := commit_cases h s
  · rw [hc]
    exact setSlave_onward w s hf
  · have hset := setSlave_onward w s hf
    rw [hc]
    exact hset.trans (failover_onward (hset.mode h))

theorem Inv.commit {w : World} {l : List SlaveId} (h : w.Inv l) (s : SlaveId) :
    (w.commit s).Inv l := by
  obtain ⟨f, hf, hc | hc⟩ := commit_cases h.mode s
  · rw [hc]
    exact h.setSlave s hf
  · rw [hc]
    exact (h.setSlave s hf).failover

omit [Siblings] in
theorem Usable.setSlave {w : World} {s t : SlaveId} (hts : t ≠ s) (f : Slave → Slave)
    (hu : w.Usable t) : (w.setSlave s f).Usable t := by
  unfold Usable slave_dev at hu ⊢
  rw [setSlave_other w f hts]
  exact hu

theorem Inv.commit_other {w : World} {l : List SlaveId} (h : w.Inv l) {s t : SlaveId}
    (ht : t ∈ l) (hts : t ≠ s) :
    ((w.commit s).slaves t).new_link = (w.slaves t).new_link ∧
      (w.Usable t → (w.commit s).Usable t ∧
        (w.bond.curr_active_slave ≠ none → (w.commit s).bond.curr_active_slave ≠ none)) := by
  obtain ⟨f, hf, hc | hc⟩ := commit_cases h.mode s
  · rw [hc]
    refine ⟨congrArg Slave.new_link (setSlave_other w f hts), fun hu => ?_⟩
    exact ⟨hu.setSlave hts f, id⟩
  · have hx := h.setSlave s hf
    rw [hc]
    refine ⟨?_, fun hu => ?_⟩
    · rw [failover_new_link hx.mode, setSlave_other w f hts]
    · have hxu := hu.setSlave hts f
      exact ⟨hxu.failover hx.mode (hx.foreign t ht), fun _ => hx.failover_some ht hxu⟩

theorem Inv.commits {w : World} {l : List SlaveId} (h : w.Inv l) (r : List SlaveId) :
    (r.foldl World.commit w).Inv l := by
  induction r generalizing w with
  | nil => exact h
  | cons s rest ih => exact ih (h.commit s)

theorem Inv.commits_keep {w : World} {l : List SlaveId} (h : w.Inv l) {a : SlaveId}
    {r : List SlaveId} (hr : ∀ s ∈ r, s ∈ l) (hnd : r.Nodup)
    (ha : w.bond.curr_active_slave = some a)
    (hdown : a ∈ r → (w.slaves a).new_link ≠ some .down)
    (hup : ∀ s ∈ r, w.bond.primary_slave = some s → (w.slaves s).new_link ≠ some .up) :
    (r.foldl World.commit w).bond.curr_active_slave = some a := by
  induction r generalizing w with
  | nil => exact ha
  | cons s rest ih =>
    obtain ⟨hs, hrest⟩ := List.nodup_cons.mp hnd
    have hother : ∀ t ∈ rest, ((w.commit s).slaves t).new_link = (w.slaves t).new_link := by
      intro t ht
      have hts : t ≠ s := by
        rintro rfl
        exact hs ht
      exact (h.commit_other (hr t (by simp [ht])) hts).1
    have hact : (w.commit s).bond.curr_active_slave = some a := by
      unfold World.commit
      cases hlink : (w.slaves s).new_link with
      | none => exact ha
      | some link =>
        cases link with
        | up =>
          have hp : w.bond.primary_slave ≠ some s := fun e => hup s (by simp) e hlink
          simp only [commit_up_hoolock h.mode, ha, hp, reduceCtorEq, or_self, if_false]
          exact ha
        | down =>
          have hne : ¬ a = s := by
            rintro rfl
            exact hdown (by simp) hlink
          simp only [commit_down_hoolock h.mode, ha, Option.some.injEq, hne, if_false]
          exact ha
        | fail => exact ha
        | back => exact ha
    refine ih (h.commit s) (fun t ht => hr t (by simp [ht])) hrest hact (fun hm => ?_)
      fun t ht => ?_
    · rw [hother a hm]
      exact hdown (by simp [hm])
    · rw [hother t ht, (commit_onward h.mode s).primary]
      exact hup t (by simp [ht])

/-- A slave that can be used now, or will once its return is committed. -/
structure Hope (w : World) (r : List SlaveId) (t : SlaveId) : Prop where
  sound : t ∈ r → (w.slaves t).new_link = none ∨ (w.slaves t).new_link = some .up
  now : w.Usable t ∧ w.bond.curr_active_slave ≠ none ∨
    t ∈ r ∧ (w.slaves t).new_link = some .up ∧ IS_UP (w.slave_dev t)

theorem Hope.commit_self {w : World} {l : List SlaveId} (h : w.Inv l) {t : SlaveId}
    {r : List SlaveId} (ht : t ∈ l) (hh : Hope w (t :: r) t) :
    (w.commit t).Usable t ∧ (w.commit t).bond.curr_active_slave ≠ none := by
  have hup : IS_UP (w.slave_dev t) := by
    rcases hh.now with hu | ⟨_, _, hu⟩
    · exact hu.1.1
    · exact hu
  rcases hh.sound (by simp) with hlink | hlink
  · have hc : w.commit t = w := by
      simp [World.commit, hlink]
    rw [hc]
    rcases hh.now with hu | ⟨_, hpend, _⟩
    · exact hu
    · rw [hlink] at hpend
      cases hpend
  · obtain ⟨x, hx⟩ : ∃ x, x = w.setSlave t fun y => { y with link := .up, state := .active } :=
      ⟨_, rfl⟩
    have hxi : x.Inv l := by
      rw [hx]
      refine h.setSlave t ?_
      exact ⟨fun _ => rfl, fun _ => rfl, fun _ => rfl⟩
    have hxu : x.Usable t := by
      refine ⟨?_, Or.inl ?_⟩
      · rw [hx, World.slave_dev, setSlave_self]
        exact hup
      · rw [hx, setSlave_self]
    have hc : w.commit t = if w.bond.curr_active_slave = none ∨ w.bond.primary_slave = some t
        then x.failover else x := by
      unfold World.commit
      rw [hlink, hx]
      exact commit_up_hoolock h.mode t
    rw [hc]
    split_ifs with hcase
    · exact ⟨hxu.failover hxi.mode (hxi.foreign t ht), hxi.failover_some ht hxu⟩
    · refine ⟨hxu, ?_⟩
      rw [hx]
      exact (not_or.mp hcase).1

theorem Hope.commit {w : World} {l : List SlaveId} (h : w.Inv l) {s t : SlaveId}
    {r : List SlaveId} (ht : t ∈ l) (hs : s ∉ r) (hh : Hope w (s :: r) t) :
    Hope (w.commit s) r t := by
  by_cases hts : t = s
  · subst hts
    exact ⟨fun hm => absurd hm hs, Or.inl (hh.commit_self h ht)⟩
  · obtain ⟨hlink, husable⟩ := h.commit_other ht hts
    refine ⟨fun hm => ?_, ?_⟩
    · rw [hlink]
      exact hh.sound (by simp [hm])
    · rcases hh.now with ⟨hu, ha⟩ | ⟨hm, hpend, hup⟩
      · exact Or.inl ⟨(husable hu).1, (husable hu).2 ha⟩
      · refine Or.inr ⟨?_, hlink.trans hpend, ?_⟩
        · exact (List.mem_cons.mp hm).resolve_left hts
        · rw [(commit_onward h.mode s).is_up (h.foreign t ht)]
          exact hup

theorem Hope.commits {w : World} {l : List SlaveId} (h : w.Inv l) {t : SlaveId}
    {r : List SlaveId} (ht : t ∈ l) (hnd : r.Nodup) (hh : Hope w r t) :
    (r.foldl World.commit w).bond.curr_active_slave ≠ none := by
  induction r generalizing w with
  | nil =>
    rcases hh.now with ⟨_, ha⟩ | ⟨hm, _⟩
    · exact ha
    · cases hm
  | cons s rest ih =>
    obtain ⟨hs, hrest⟩ := List.nodup_cons.mp hnd
    exact ih (h.commit s) hrest (hh.commit h ht hs)

def Failing (params : Params) (check : Bool) (x : Slave) : Prop :=
  check = false ∧ (x.link = .up ∧ params.downdelay ≤ 0 ∨ x.link = .fail ∧ x.delay ≤ 0)

def Returning (params : Params) (check : Bool) (x : Slave) : Prop :=
  check = true ∧ (x.link = .down ∧ params.updelay ≤ 0 ∨ x.link = .back ∧ x.delay ≤ 0)

def Recovering (params : Params) (check : Bool) (x : Slave) : Prop :=
  check = true ∧ (x.link = .back → x.delay ≤ 0 ∨ x.delay ≤ params.updelay)

omit [Siblings] in
theorem Returning.recovering {params : Params} {check : Bool} {x : Slave}
    (h : Returning params check x) : Recovering params check x := by
  obtain ⟨hcheck, hlink⟩ := h
  refine ⟨hcheck, fun hback => ?_⟩
  rcases hlink with ⟨hdown, _⟩ | ⟨_, hdelay⟩
  · rw [hback] at hdown
    cases hdown
  · exact Or.inl hdelay

omit [Siblings] in
theorem inspect_fail_eq (x : Slave) : inspect_fail x =
    { x with
      new_link := if x.delay ≤ 0 then some .down else x.new_link
      delay := if x.delay ≤ 0 then x.delay else x.delay - 1 } := by
  unfold inspect_fail
  split_ifs <;> rfl

omit [Siblings] in
theorem inspect_back_eq (x : Slave) : inspect_back x =
    { x with
      new_link := if x.delay ≤ 0 then some .up else x.new_link
      delay := if x.delay ≤ 0 then x.delay else x.delay - 1 } := by
  unfold inspect_back
  split_ifs <;> rfl

omit [Siblings] in
theorem inspect_linkUpdate (params : Params) (read : Slave → Bool) :
    LinkUpdate fun x => inspect_slave params (read x) x := by
  have hall : ∀ (check : Bool) (x : Slave), (inspect_slave params check x).next = x.next ∧
      (inspect_slave params check x).prev = x.prev ∧
      (inspect_slave params check x).dev = x.dev := by
    intro check x
    unfold inspect_slave inspect_link
    cases x.link <;> cases check <;> simp [inspect_fail_eq, inspect_back_eq]
  exact ⟨fun x => (hall _ x).1, fun x => (hall _ x).2.1, fun x => (hall _ x).2.2⟩

omit [Siblings] in
theorem inspect_down {params : Params} {check : Bool} {x : Slave} :
    (inspect_slave params check x).new_link = some .down ↔ Failing params check x := by
  obtain ⟨dev, next, prev, delay, link, new_link, state, failures, perm_hwaddr⟩ := x
  cases link <;> cases check <;>
    simp [inspect_slave, inspect_link, inspect_fail_eq, inspect_back_eq, Failing]

omit [Siblings] in
theorem inspect_up {params : Params} {check : Bool} {x : Slave} :
    (inspect_slave params check x).new_link = some .up ↔ Returning params check x := by
  obtain ⟨dev, next, prev, delay, link, new_link, state, failures, perm_hwaddr⟩ := x
  cases link <;> cases check <;>
    simp [inspect_slave, inspect_link, inspect_fail_eq, inspect_back_eq, Returning]

omit [Siblings] in
theorem inspect_recovering {params : Params} {check : Bool} {x : Slave}
    (h : Recovering params check x) :
    (inspect_slave params check x).new_link = none ∧
      ((inspect_slave params check x).link = .up ∨ (inspect_slave params check x).link = .back ∧
        (inspect_slave params check x).delay < params.updelay) ∨
    (inspect_slave params check x).new_link = some .up := by
  obtain ⟨dev, next, prev, delay, link, new_link, state, failures, perm_hwaddr⟩ := x
  obtain ⟨rfl, hback⟩ := h
  cases link with
  | up => simp [inspect_slave, inspect_link]
  | fail => simp [inspect_slave, inspect_link]
  | down =>
    by_cases hd : params.updelay ≤ 0
    · simp [inspect_slave, inspect_link, inspect_back_eq, hd]
    · simp [inspect_slave, inspect_link, inspect_back_eq, hd]
  | back =>
    by_cases hd : delay ≤ 0
    · simp [inspect_slave, inspect_link, inspect_back_eq, hd]
    · have hle : delay - 1 < params.updelay := by
        have := hback rfl
        dsimp only at this
        omega
      simp [inspect_slave, inspect_link, inspect_back_eq, hd, hle]

omit [Siblings] in
theorem inspects_spec (w : World) {r : List SlaveId} (hnd : r.Nodup) :
    Onward w (r.foldl inspect w) ∧ (r.foldl inspect w).bond = w.bond ∧
    (r.foldl inspect w).devs = w.devs ∧
    ∀ s, (r.foldl inspect w).slaves s =
      if s ∈ r then inspect_slave w.bond.params (w.check s) (w.slaves s) else w.slaves s := by
  induction r generalizing w with
  | nil => exact ⟨Onward.refl w, rfl, rfl, fun s => by simp⟩
  | cons a rest ih =>
    obtain ⟨ha, hrest⟩ := List.nodup_cons.mp hnd
    have hset : Onward w (w.inspect a) := setSlave_onward w a
      (inspect_linkUpdate w.bond.params fun x => w.bond_check_dev_link (w.devs x.dev))
    obtain ⟨hon, hb, hd, hs⟩ := ih (w.inspect a) hrest
    refine ⟨hset.trans hon, hb, hd, fun s => ?_⟩
    have hcheck : ∀ s, s ≠ a → (w.inspect a).check s = w.check s := by
      intro s hsa
      have hsl : (w.inspect a).slaves s = w.slaves s := setSlave_other w _ hsa
      unfold check slave_dev
      rw [hsl]
      rfl
    have hstep := hs s
    rw [List.foldl_cons, hstep]
    by_cases hsa : s = a
    · subst hsa
      simp only [ha, if_false, List.mem_cons_self, if_true]
      exact setSlave_self w s _
    · have hsl : (w.inspect a).slaves s = w.slaves s := setSlave_other w _ hsa
      have hp : (w.inspect a).bond.params = w.bond.params := rfl
      simp only [List.mem_cons, hsa, false_or, hcheck s hsa, hsl, hp]

omit [Siblings] in
theorem gratuitous_arp_eq (w : World) :
    ∃ k, w.bond_send_gratuitous_arp = w.setBond fun b => { b with send_grat_arp := k } := by
  have hid : w = w.setBond fun b => { b with send_grat_arp := w.bond.send_grat_arp } := rfl
  unfold bond_send_gratuitous_arp
  cases w.port with
  | k24 => exact ⟨_, hid⟩
  | k27 =>
    cases w.bond.curr_active_slave with
    | none => exact ⟨_, hid⟩
    | some s =>
      dsimp only [onSlave]
      split_ifs
      · exact ⟨_, hid⟩
      · exact ⟨w.bond.send_grat_arp - 1, rfl⟩

structure Announced (w x : World) : Prop where
  onward : Onward w x
  slaves : x.slaves = w.slaves
  devs : x.devs = w.devs
  active : x.bond.curr_active_slave = w.bond.curr_active_slave

omit [Siblings] in
theorem announced (w : World) : Announced w (if w.bond.send_grat_arp ≠ 0 then
    ((w.lock .curr_slave .read).bond_send_gratuitous_arp).unlock .curr_slave .read else w) := by
  split_ifs
  · obtain ⟨k, hk⟩ := gratuitous_arp_eq (w.lock .curr_slave .read)
    rw [hk]
    exact ⟨⟨rfl, rfl, rfl, fun _ _ => rfl⟩, rfl, rfl, rfl⟩
  · exact ⟨Onward.refl w, rfl, rfl, rfl⟩

/-- The monitor after its announcements: inspect and, when something changed, commit. -/
def miimon_work (w : World) : World :=
  let w := w.bond_miimon_inspect
  if w.miimon_changes then
    ((((w.unlock .bond .read).lock .bond .read).bond_miimon_commit).unlock .bond .read).lock .bond
      .read
  else w

theorem mii_monitor_eq (w : World) : w.bond_mii_monitor =
    if w.bond.kill_timers ∨ w.bond.slave_cnt = 0 then (w.lock .bond .read).unlock .bond .read
    else (if w.bond.send_grat_arp ≠ 0 then (((w.lock .bond .read).lock .curr_slave
        .read).bond_send_gratuitous_arp).unlock .curr_slave .read
      else w.lock .bond .read).miimon_work.unlock .bond .read := rfl

omit [Siblings] in
theorem Inv.inspected {w : World} {l : List SlaveId} (h : w.Inv l) :
    w.bond_miimon_inspect.Inv l := by
  obtain ⟨hon, hb, _, _⟩ := inspects_spec w h.nodup
  unfold bond_miimon_inspect
  rw [h.for_each]
  refine hon.inv h fun s hs => ?_
  rw [hb] at hs
  exact h.active s hs

theorem set_carrier_inv {w : World} {l : List SlaveId} (h : w.Inv l) :
    w.bond_set_carrier.2.Inv l := by
  have hb := set_carrier_bond h.mode
  refine h.congr_pointers (base_of (core_bond_set_carrier w) (shape_bond_set_carrier w)
    (set_carrier_owners h.mode)) ?_
  unfold pointers
  rw [hb]

theorem Inv.committed {w : World} {l : List SlaveId} (h : w.Inv l) :
    w.bond_miimon_commit.Inv l := by
  unfold bond_miimon_commit
  exact set_carrier_inv (h.commits _)

theorem committed_active {w : World} {l : List SlaveId} (h : w.Inv l) :
    w.bond_miimon_commit.bond.curr_active_slave =
      (l.foldl World.commit w).bond.curr_active_slave := by
  unfold bond_miimon_commit
  rw [h.for_each, set_carrier_bond (h.commits l).mode]

theorem Inv.miimon_work {w : World} {l : List SlaveId} (h : w.Inv l) : w.miimon_work.Inv l := by
  have hi := h.inspected
  unfold World.miimon_work
  dsimp only
  split_ifs
  · exact ((((hi.unlock .bond .read).lock .bond .read).committed).unlock .bond .read).lock .bond
      .read
  · exact hi

theorem Inv.mii_monitor {w : World} {l : List SlaveId} (h : w.Inv l) :
    w.bond_mii_monitor.Inv l := by
  have han := announced (w.lock .bond .read)
  have hx := han.onward.inv (h.lock .bond .read) fun s hs => h.active s (han.active ▸ hs)
  rw [mii_monitor_eq]
  by_cases hoff : w.bond.kill_timers = true ∨ w.bond.slave_cnt = 0
  · rw [if_pos hoff]
    exact (h.lock .bond .read).unlock .bond .read
  · rw [if_neg hoff]
    exact hx.miimon_work.unlock .bond .read

structure Inspected (w y : World) (l : List SlaveId) : Prop where
  inv : y.Inv l
  onward : Onward w y
  bond : y.bond = w.bond
  slaves : ∀ s ∈ l, y.slaves s = inspect_slave w.bond.params (w.check s) (w.slaves s)

omit [Siblings] in
theorem Inv.inspected_spec {w : World} {l : List SlaveId} (h : w.Inv l) :
    Inspected w ((w.bond_miimon_inspect.unlock .bond .read).lock .bond .read) l := by
  obtain ⟨hon, hb, _, hs⟩ := inspects_spec w h.nodup
  have hx : w.bond_miimon_inspect = l.foldl inspect w := by
    unfold bond_miimon_inspect
    rw [h.for_each]
  rw [← hx] at hon hb hs
  refine
    { inv := (h.inspected.unlock .bond .read).lock .bond .read
      onward := (hon.trans (unlock_onward _ _ _)).trans (lock_onward _ _ _)
      bond := hb, slaves := fun s hsl => ?_ }
  have hsl' := hs s
  rw [if_pos hsl] at hsl'
  exact hsl'

theorem Inv.miimon_work_keep {w : World} {l : List SlaveId} (h : w.Inv l) {a : SlaveId}
    (ha : w.bond.curr_active_slave = some a)
    (hfail : ¬ Failing w.bond.params (w.check a) (w.slaves a))
    (hret : ¬ ∃ p, w.bond.primary_slave = some p ∧
      Returning w.bond.params (w.check p) (w.slaves p)) :
    w.miimon_work.bond.curr_active_slave = some a := by
  have hy := h.inspected_spec
  unfold World.miimon_work
  dsimp only
  split_ifs
  · have hya : ((w.bond_miimon_inspect.unlock .bond .read).lock .bond
        .read).bond.curr_active_slave = some a := by
      rw [hy.bond]
      exact ha
    have hkeep := hy.inv.commits_keep (r := l) (fun s hs => hs) h.nodup hya
      (fun hal => by
        rw [hy.slaves a hal, Ne, inspect_down]
        exact hfail)
      fun s hs hps => by
        rw [hy.bond] at hps
        rw [hy.slaves s hs, Ne, inspect_up]
        exact fun hr => hret ⟨s, hps, hr⟩
    exact (committed_active hy.inv).trans hkeep
  · have hb := hy.bond
    have hb : w.bond_miimon_inspect.bond = w.bond := hb
    rw [hb]
    exact ha

omit [Siblings] in
theorem Inspected.hope {w y : World} {l : List SlaveId} (hy : Inspected w y l) {t : SlaveId}
    (ht : t ∈ l) (hfor : (w.slaves t).dev ≠ w.bond.dev) (hup : IS_UP (w.slave_dev t))
    (hrec : Recovering w.bond.params (w.check t) (w.slaves t))
    (hnow : w.bond.curr_active_slave ≠ none ∨
      Returning w.bond.params (w.check t) (w.slaves t)) : Hope y l t := by
  have hyup : IS_UP (y.slave_dev t) := by
    rw [hy.onward.is_up hfor]
    exact hup
  refine ⟨fun _ => ?_, ?_⟩
  · rw [hy.slaves t ht]
    exact (inspect_recovering hrec).imp And.left id
  · have hpend : Returning w.bond.params (w.check t) (w.slaves t) →
        (y.slaves t).new_link = some .up := by
      intro hret
      rw [hy.slaves t ht]
      exact inspect_up.mpr hret
    rcases hnow with ha | hret
    · rcases inspect_recovering hrec with ⟨_, hlink⟩ | hpend
      · refine Or.inl ⟨⟨hyup, ?_⟩, ?_⟩
        · rw [hy.slaves t ht, hy.bond]
          exact hlink
        · rw [hy.bond]
          exact ha
      · refine Or.inr ⟨ht, ?_, hyup⟩
        rw [hy.slaves t ht]
        exact hpend
    · exact Or.inr ⟨ht, hpend hret, hyup⟩

theorem Inv.miimon_work_recover {w : World} {l : List SlaveId} (h : w.Inv l)
    (ha : w.bond.curr_active_slave ≠ none) {t : SlaveId} (ht : t ∈ l)
    (hup : IS_UP (w.slave_dev t))
    (hrec : Recovering w.bond.params (w.check t) (w.slaves t)) :
    w.miimon_work.bond.curr_active_slave ≠ none := by
  have hy := h.inspected_spec
  unfold World.miimon_work
  dsimp only
  split_ifs
  · obtain ⟨y, hyd⟩ : ∃ y, y = (w.bond_miimon_inspect.unlock .bond .read).lock .bond .read :=
      ⟨_, rfl⟩
    rw [← hyd] at hy
    have hhope : Hope y l t := hy.hope ht (h.foreign t ht) hup hrec (Or.inl ha)
    have hfound := hhope.commits hy.inv ht h.nodup
    rw [← committed_active hy.inv, hyd] at hfound
    exact hfound
  · have hb : w.bond_miimon_inspect.bond = w.bond := hy.bond
    rw [hb]
    exact ha

theorem mii_monitor_starts (w : World) : ∃ x, Announced (w.lock .bond .read) x ∧
    (∀ s, x.check s = w.check s) ∧ w.bond_mii_monitor =
      if w.bond.kill_timers ∨ w.bond.slave_cnt = 0 then (w.lock .bond .read).unlock .bond .read
      else x.miimon_work.unlock .bond .read := by
  have han := announced (w.lock .bond .read)
  refine ⟨_, han, fun s => ?_, mii_monitor_eq w⟩
  have hp := han.onward.params
  have hs := han.slaves
  have hd := han.devs
  unfold check bond_check_dev_link World.slave_dev
  rw [hp, hs, hd]
  rfl

theorem Inv.mii_monitor_keep {w : World} {l : List SlaveId} (h : w.Inv l) {a : SlaveId}
    (ha : w.bond.curr_active_slave = some a)
    (hquiet : w.bond.kill_timers = false →
      ¬ Failing w.bond.params (w.check a) (w.slaves a) ∧
      ¬ ∃ p, w.bond.primary_slave = some p ∧
        Returning w.bond.params (w.check p) (w.slaves p)) :
    w.bond_mii_monitor.bond.curr_active_slave = some a := by
  obtain ⟨x, han, hcheck, hmon⟩ := mii_monitor_starts w
  have hxi := han.onward.inv (h.lock .bond .read) fun s hs => h.active s (han.active ▸ hs)
  have hxp : x.bond.params = w.bond.params := han.onward.params
  have hxs : x.slaves = w.slaves := han.slaves
  have hpr : x.bond.primary_slave = w.bond.primary_slave := han.onward.primary
  rw [hmon]
  by_cases hoff : w.bond.kill_timers = true ∨ w.bond.slave_cnt = 0
  · rw [if_pos hoff]
    exact ha
  · rw [if_neg hoff]
    have hkill : w.bond.kill_timers = false := by
      simpa using (not_or.mp hoff).1
    obtain ⟨hfail, hret⟩ := hquiet hkill
    refine hxi.miimon_work_keep (han.active.trans ha) ?_ ?_
    · rw [hxp, hcheck, hxs]
      exact hfail
    · simpa only [hpr, hxp, hcheck, hxs] using hret

/-- A monitor run loses the active slave only if it fails or the primary one returns,
and then only if no link recovers. -/
theorem Inv.mii_monitor_active {w : World} {l : List SlaveId} (h : w.Inv l)
    (ha : w.bond.curr_active_slave ≠ none)
    (hsafe : w.bond.kill_timers = false → (∃ a, w.bond.curr_active_slave = some a ∧
        Failing w.bond.params (w.check a) (w.slaves a)) ∨
      (∃ p, w.bond.primary_slave = some p ∧
        Returning w.bond.params (w.check p) (w.slaves p)) →
      ∃ t ∈ l, IS_UP (w.slave_dev t) ∧ Recovering w.bond.params (w.check t) (w.slaves t)) :
    w.bond_mii_monitor.bond.curr_active_slave ≠ none := by
  obtain ⟨a, hact⟩ := Option.ne_none_iff_exists'.mp ha
  by_cases hquiet : w.bond.kill_timers = false →
      ¬ Failing w.bond.params (w.check a) (w.slaves a) ∧
      ¬ ∃ p, w.bond.primary_slave = some p ∧
        Returning w.bond.params (w.check p) (w.slaves p)
  · rw [h.mii_monitor_keep hact hquiet]
    simp
  · rw [Classical.not_imp, not_and_or, not_not, not_not] at hquiet
    obtain ⟨hkill, hcause⟩ := hquiet
    obtain ⟨t, ht, hup, hrec⟩ := hsafe hkill (hcause.imp (fun hf => ⟨a, hact, hf⟩) id)
    obtain ⟨x, han, hcheck, hmon⟩ := mii_monitor_starts w
    have hxi := han.onward.inv (h.lock .bond .read) fun s hs => h.active s (han.active ▸ hs)
    have hxp : x.bond.params = w.bond.params := han.onward.params
    have hxs : x.slaves = w.slaves := han.slaves
    rw [hmon]
    split_ifs
    · exact ha
    · refine hxi.miimon_work_recover (han.active ▸ ha) ht ?_ ?_
      · rw [han.onward.is_up (h.foreign t ht)]
        exact hup
      · rw [hxp, hcheck, hxs]
        exact hrec

omit [Siblings] in
theorem arp_slave_cases (delta : BitVec 64) (w : World) (s : SlaveId) :
    ∃ f, LinkUpdate f ∧ arp_slave delta w s = w.setSlave s f := by
  have hid : w = w.setSlave s fun x => x := by
    simp [setSlave]
  unfold arp_slave
  split_ifs
  · exact ⟨fun slave => { slave with link := .up, state := .active },
      ⟨fun _ => rfl, fun _ => rfl, fun _ => rfl⟩, rfl⟩
  · exact ⟨_, ⟨fun _ => rfl, fun _ => rfl, fun _ => rfl⟩, hid⟩
  · exact ⟨fun slave => count_failure { slave with link := .down, state := .backup },
      ⟨fun _ => rfl, fun _ => rfl, fun _ => rfl⟩, rfl⟩
  · exact ⟨_, ⟨fun _ => rfl, fun _ => rfl, fun _ => rfl⟩, hid⟩

omit [Siblings] in
theorem arp_slave_self (delta : BitVec 64) (w : World) (s : SlaveId) :
    (arp_slave delta w s).slaves s =
      if (w.slaves s).link = .up then
        if w.arp_timed_out delta (w.slave_dev s) then
          count_failure { w.slaves s with link := .down, state := .backup } else w.slaves s
      else if w.arp_recent delta (w.slave_dev s) then
        { w.slaves s with link := .up, state := .active } else w.slaves s := by
  unfold arp_slave
  by_cases hlink : (w.slaves s).link = .up
  · rw [if_neg (not_not.mpr hlink), if_pos hlink]
    split_ifs
    · exact setSlave_self w s _
    · rfl
  · rw [if_pos hlink, if_neg hlink]
    split_ifs
    · exact setSlave_self w s _
    · rfl

/-- A link that is up once the loop of the ARP monitor is through, or still waits out a
delay below the limit. -/
def Answering (delta : BitVec 64) (w : World) (s : SlaveId) : Prop :=
  if (w.slaves s).link = .up then w.arp_timed_out delta (w.slave_dev s) = false
  else w.arp_recent delta (w.slave_dev s) = true ∨
    (w.slaves s).link = .back ∧ (w.slaves s).delay < w.bond.params.updelay

omit [Siblings] in
theorem arp_turns_spec (delta : BitVec 64) (w : World) {r : List SlaveId} (hnd : r.Nodup)
    (b : Bool) :
    Onward w (r.foldl (arp_turn delta) (b, w)).2 ∧
    (r.foldl (arp_turn delta) (b, w)).2.bond = w.bond ∧
    (r.foldl (arp_turn delta) (b, w)).1 = (b || r.any (w.arp_failover delta)) ∧
    ∀ s, (r.foldl (arp_turn delta) (b, w)).2.slaves s =
      if s ∈ r then (arp_slave delta w s).slaves s else w.slaves s := by
  induction r generalizing w b with
  | nil => exact ⟨Onward.refl w, rfl, by simp, fun s => by simp⟩
  | cons a rest ih =>
    obtain ⟨ha, hrest⟩ := List.nodup_cons.mp hnd
    obtain ⟨f, hf, hc⟩ := arp_slave_cases delta w a
    have hother : ∀ s, s ≠ a → (arp_slave delta w a).slaves s = w.slaves s := by
      intro s hs
      rw [hc]
      exact setSlave_other w f hs
    have hsame : ∀ s, s ≠ a →
        (arp_slave delta w a).arp_failover delta s = w.arp_failover delta s ∧
        (arp_slave delta (arp_slave delta w a) s).slaves s = (arp_slave delta w s).slaves s := by
      intro s hs
      have hd : (arp_slave delta w a).slave_dev s = w.slave_dev s := by
        unfold World.slave_dev
        rw [hother s hs, hc]
        rfl
      have hj : (arp_slave delta w a).jiffies = w.jiffies := by
        rw [hc]
        rfl
      have hb : (arp_slave delta w a).bond = w.bond := by
        rw [hc]
        rfl
      refine ⟨?_, ?_⟩
      · simp only [arp_failover, arp_recent, arp_timed_out, hother s hs, hd, hj, hb]
      · have hrec : (arp_slave delta w a).arp_recent delta (w.slave_dev s) =
            w.arp_recent delta (w.slave_dev s) := by
          unfold arp_recent
          rw [hj]
        have htimed : (arp_slave delta w a).arp_timed_out delta (w.slave_dev s) =
            w.arp_timed_out delta (w.slave_dev s) := by
          unfold arp_timed_out
          rw [hj]
        rw [arp_slave_self, arp_slave_self, hother s hs, hd, hrec, htimed]
    obtain ⟨hon, hb, hany, hs⟩ := ih (arp_slave delta w a) hrest (b || w.arp_failover delta a)
    have hstep : Onward w (arp_slave delta w a) := hc ▸ setSlave_onward w a hf
    refine ⟨hstep.trans hon, hb.trans (by rw [hc]; rfl), ?_, fun s => ?_⟩
    · have hrestany : rest.any ((arp_slave delta w a).arp_failover delta) =
          rest.any (w.arp_failover delta) := by
        rw [Bool.eq_iff_iff, List.any_eq_true, List.any_eq_true]
        refine exists_congr fun t => and_congr_right fun ht => ?_
        have hta : t ≠ a := by
          rintro rfl
          exact ha ht
        rw [(hsame t hta).1]
      rw [List.foldl_cons]
      refine hany.trans ?_
      rw [hrestany, List.any_cons, Bool.or_assoc]
    · rw [List.foldl_cons]
      refine (hs s).trans ?_
      by_cases hsa : s = a
      · subst hsa
        simp [ha]
      · simp only [List.mem_cons, hsa, false_or, (hsame s hsa).2, hother s hsa]

omit [Siblings] in
theorem Answering.usable {delta : BitVec 64} {w v : World} {s : SlaveId}
    (h : w.Answering delta s) (hup : IS_UP (v.slave_dev s)) (hb : v.bond = w.bond)
    (hs : v.slaves s = (arp_slave delta w s).slaves s) : v.Usable s := by
  refine ⟨hup, ?_⟩
  unfold Answering at h
  rw [hs, hb]
  unfold arp_slave
  by_cases hlink : (w.slaves s).link = .up
  · rw [if_pos hlink] at h
    simp [hlink, h]
  · rw [if_neg hlink] at h
    by_cases hrec : w.arp_recent delta (w.slave_dev s) = true
    · simp [hlink, hrec, setSlave]
    · have hback := h.resolve_left hrec
      simp [hrec, hback]

theorem arp_mon_eq (delta : BitVec 64) (w : World) : bond_loadbalance_arp_mon delta w =
    if w.bond.kill_timers ∨ w.bond.slave_cnt = 0 then (w.lock .bond .read).unlock .bond .read
    else
      let v := ((w.lock .bond .read).lock .curr_slave .read).unlock .curr_slave .read
      let r := v.bond_for_each_slave.foldl (arp_turn delta) (false, v)
      (if r.1 then r.2.failover else r.2).unlock .bond .read := rfl

theorem Inv.arp_mon {w : World} {l : List SlaveId} (h : w.Inv l) (delta : BitVec 64) :
    (bond_loadbalance_arp_mon delta w).Inv l := by
  rw [arp_mon_eq]
  split_ifs
  · exact (h.lock .bond .read).unlock .bond .read
  · obtain ⟨v, hv⟩ : ∃ v, v = ((w.lock .bond .read).lock .curr_slave .read).unlock .curr_slave
        .read := ⟨_, rfl⟩
    have hvi : v.Inv l := by
      rw [hv]
      exact ((h.lock .bond .read).lock .curr_slave .read).unlock .curr_slave .read
    obtain ⟨hon, hb, _, _⟩ := arp_turns_spec delta v hvi.nodup false
    have hr := hon.inv hvi fun s hs => by
      rw [hb] at hs
      exact hvi.active s hs
    dsimp only
    rw [← hv, hvi.for_each]
    split_ifs
    · exact hr.failover.unlock .bond .read
    · exact hr.unlock .bond .read

theorem Inv.arp_mon_keep {w : World} {l : List SlaveId} (h : w.Inv l) (delta : BitVec 64)
    {a : SlaveId} (ha : w.bond.curr_active_slave = some a)
    (hquiet : w.bond.kill_timers = false →
      ¬ ((w.slaves a).link = .up ∧ w.arp_timed_out delta (w.slave_dev a) = true)) :
    (bond_loadbalance_arp_mon delta w).bond.curr_active_slave = some a := by
  rw [arp_mon_eq]
  by_cases hoff : w.bond.kill_timers = true ∨ w.bond.slave_cnt = 0
  · rw [if_pos hoff]
    exact ha
  · have hkill : w.bond.kill_timers = false := by
      simpa using (not_or.mp hoff).1
    obtain ⟨v, hv⟩ : ∃ v, v = ((w.lock .bond .read).lock .curr_slave .read).unlock .curr_slave
        .read := ⟨_, rfl⟩
    have hvi : v.Inv l := by
      rw [hv]
      exact ((h.lock .bond .read).lock .curr_slave .read).unlock .curr_slave .read
    obtain ⟨_, hb, hany, _⟩ := arp_turns_spec delta v hvi.nodup false
    have hva : v.bond.curr_active_slave = some a := by
      rw [hv]
      exact ha
    have hnone : l.any (v.arp_failover delta) = false := by
      rw [List.any_eq_false]
      intro s _ hs
      unfold arp_failover at hs
      rw [hva] at hs
      by_cases hlink : (v.slaves s).link = .up
      · have hsa : a = s ∧ v.arp_timed_out delta (v.slave_dev s) = true := by
          simpa [hlink] using hs
        obtain ⟨rfl, htimed⟩ := hsa
        refine hquiet hkill ⟨?_, ?_⟩
        · rw [hv] at hlink
          exact hlink
        · rw [hv] at htimed
          exact htimed
      · simp [hlink] at hs
    rw [if_neg hoff]
    dsimp only
    rw [← hv, hvi.for_each]
    simp only [hany, hnone, Bool.or_false, Bool.false_eq_true, if_false]
    exact (congrArg Bonding.curr_active_slave hb).trans hva

/-- The ARP monitor loses the active slave only if its traffic timed out, and then only
if no other slave answers. -/
theorem Inv.arp_mon_active {w : World} {l : List SlaveId} (h : w.Inv l) (delta : BitVec 64)
    (ha : w.bond.curr_active_slave ≠ none)
    (hsafe : w.bond.kill_timers = false → (∃ a, w.bond.curr_active_slave = some a ∧
        (w.slaves a).link = .up ∧ w.arp_timed_out delta (w.slave_dev a) = true) →
      ∃ t ∈ l, IS_UP (w.slave_dev t) ∧ w.Answering delta t) :
    (bond_loadbalance_arp_mon delta w).bond.curr_active_slave ≠ none := by
  obtain ⟨a, hact⟩ := Option.ne_none_iff_exists'.mp ha
  by_cases hquiet : w.bond.kill_timers = false →
      ¬ ((w.slaves a).link = .up ∧ w.arp_timed_out delta (w.slave_dev a) = true)
  · rw [h.arp_mon_keep delta hact hquiet]
    simp
  · rw [Classical.not_imp, not_not] at hquiet
    obtain ⟨hkill, hlink, htimed⟩ := hquiet
    obtain ⟨t, ht, hup, hans⟩ := hsafe hkill ⟨a, hact, hlink, htimed⟩
    obtain ⟨v, hv⟩ : ∃ v, v = ((w.lock .bond .read).lock .curr_slave .read).unlock .curr_slave
        .read := ⟨_, rfl⟩
    have hvi : v.Inv l := by
      rw [hv]
      exact ((h.lock .bond .read).lock .curr_slave .read).unlock .curr_slave .read
    obtain ⟨hon, hb, _, hs⟩ := arp_turns_spec delta v hvi.nodup false
    have hvb : v.bond = w.bond := by
      rw [hv]
      rfl
    have hr := hon.inv hvi fun s hs => by
      rw [hb] at hs
      exact hvi.active s hs
    rw [arp_mon_eq]
    split_ifs
    · exact ha
    · dsimp only
      rw [← hv, hvi.for_each]
      split_ifs
      · have hvans : v.Answering delta t := by
          rw [hv]
          exact hans
        have hrup : IS_UP ((l.foldl (arp_turn delta) (false, v)).2.slave_dev t) := by
          rw [hon.is_up (hvi.foreign t ht), hv]
          exact hup
        refine hr.failover_some ht (hvans.usable hrup hb ?_)
        rw [hs t, if_pos ht]
      · change (l.foldl (arp_turn delta) (false, v)).2.bond.curr_active_slave ≠ none
        rw [hb, hvb]
        exact ha

end World

end Hoolock
