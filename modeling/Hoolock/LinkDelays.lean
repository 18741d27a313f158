import Mathlib.Data.List.Basic
import Hoolock.Lifetime
import Hoolock.OldMonitor
import Hoolock.Queries

/-!
How long a link that has failed counts as failing: in 2.6.27 exactly the down delay, in 2.6.24
less when the inspection has to start again behind the slave.
-/

set_option autoImplicit false

namespace Hoolock

/-! One record -/

/-- A record and what becomes of it when its slave may be made the active one. -/
def Chosen (x y : Slave) : Prop := y = x ∨ y = World.promoted x

theorem promoted_of_link {x : Slave} (h : x.link ≠ .back) : World.promoted x = x := by
  simp [World.promoted, h]

theorem promoted_link (x : Slave) : (World.promoted x).link ≠ .back := by
  unfold World.promoted
  split_ifs with h
  · simp
  · exact h

theorem Chosen.refl (x : Slave) : Chosen x x := Or.inl rfl

theorem Chosen.trans {x y z : Slave} (h : Chosen x y) (k : Chosen y z) : Chosen x z := by
  rcases h with rfl | rfl
  · exact k
  · rw [Chosen, promoted_of_link (promoted_link x)] at k
    exact Or.inr (k.elim id id)

theorem Chosen.of_link {x y : Slave} (h : Chosen x y) (hx : x.link ≠ .back) : y = x := by
  rw [Chosen, promoted_of_link hx] at h
  exact h.elim id id

/-- The turns that pass until a link that reads down counts as down. -/
def down_in (downdelay : Int) (x : Slave) : Nat :=
  match x.link with
  | .up => downdelay.toNat + 1
  | .fail => x.delay.toNat + 1
  | .down => 0
  | .back => 1

/-- The turns that pass until a link that reads up counts as up, unless it is chosen sooner. -/
def up_in (updelay : Int) (x : Slave) : Nat :=
  match x.link with
  | .up => 0
  | .fail => 1
  | .down => updelay.toNat + 1
  | .back => x.delay.toNat + 1

theorem down_in_eq_zero {d : Int} {x : Slave} : down_in d x = 0 ↔ x.link = .down := by
  cases h : x.link <;> simp [down_in, h]

theorem up_in_eq_zero {u : Int} {x : Slave} : up_in u x = 0 ↔ x.link = .up := by
  cases h : x.link <;> simp [up_in, h]

theorem Chosen.up_in_le {u : Int} {x y : Slave} (h : Chosen x y) : up_in u y ≤ up_in u x := by
  rcases h with rfl | rfl
  · exact le_refl _
  · unfold World.promoted
    split_ifs with hback
    · simp [up_in]
    · exact le_refl _

def Timed (x : Slave) : Prop := x.link = .back → 0 ≤ x.delay

theorem Chosen.timed {x y : Slave} (h : Chosen x y) (hx : Timed x) : Timed y := by
  rcases h with rfl | rfl
  · exact hx
  · exact fun hback => absurd hback (promoted_link x)

/-! What 2.6.27 makes of a record -/

def committed (x : Slave) : Slave :=
  match x.new_link with
  | none => x
  | some .up => { x with link := .up, state := .active }
  | some .down => { World.count_failure x with link := .down }
  | some _ => { x with new_link := none }

theorem committed_down (params : Params) {x : Slave} (hx : x.link ≠ .back) :
    (World.inspect_slave params false x).link ≠ .back ∧
      (committed (World.inspect_slave params false x)).link ≠ .back ∧
      down_in params.downdelay (committed (World.inspect_slave params false x)) =
        down_in params.downdelay x - 1 := by
  cases hlink : x.link with
  | back => exact absurd hlink hx
  | down => simp [World.inspect_slave, World.inspect_link, hlink, committed, down_in]
  | up =>
    by_cases hd : params.downdelay ≤ 0
    · simp [World.inspect_slave, World.inspect_link, World.inspect_fail, hlink, hd, committed,
        World.count_failure, down_in, Int.toNat_of_nonpos hd]
    · simp [World.inspect_slave, World.inspect_link, World.inspect_fail, hlink, hd, committed,
        down_in]
      omega
  | fail =>
    by_cases hd : x.delay ≤ 0
    · simp [World.inspect_slave, World.inspect_link, World.inspect_fail, hlink, hd, committed,
        World.count_failure, down_in, Int.toNat_of_nonpos hd]
    · simp [World.inspect_slave, World.inspect_link, World.inspect_fail, hlink, hd, committed,
        down_in]
      omega

theorem committed_up {params : Params} {x y : Slave} (hx : Timed x)
    (hy : Chosen (World.inspect_slave params true x) y) :
    Timed (committed y) ∧ up_in params.updelay (committed y) ≤ up_in params.updelay x - 1 := by
  cases hlink : x.link with
  | up =>
    have hsame : y = { x with new_link := none } := by
      have hchosen := hy.of_link (by simp [World.inspect_slave, World.inspect_link, hlink])
      simpa [World.inspect_slave, World.inspect_link, hlink] using hchosen
    simp [hsame, committed, Timed, up_in, hlink]
  | fail =>
    have hsame : y = { x with new_link := none, link := .up } := by
      have hchosen := hy.of_link (by simp [World.inspect_slave, World.inspect_link, hlink])
      simpa [World.inspect_slave, World.inspect_link, hlink] using hchosen
    simp [hsame, committed, Timed, up_in]
  | down =>
    by_cases hd : params.updelay ≤ 0
    · rcases hy with rfl | rfl <;>
        simp [World.inspect_slave, World.inspect_link, World.inspect_back, World.promoted, hlink, hd,
          committed, Timed, up_in]
    · rcases hy with rfl | rfl <;>
        simp [World.inspect_slave, World.inspect_link, World.inspect_back, World.promoted, hlink, hd,
          committed, Timed, up_in]
      omega
  | back =>
    have hdelay := hx hlink
    by_cases hd : x.delay ≤ 0
    · rcases hy with rfl | rfl <;>
        simp [World.inspect_slave, World.inspect_link, World.inspect_back, World.promoted, hlink, hd,
          committed, Timed, up_in]
    · rcases hy with rfl | rfl <;>
        simp [World.inspect_slave, World.inspect_link, World.inspect_back, World.promoted, hlink, hd,
          committed, Timed, up_in]
      omega

/-! What 2.6.24 makes of a record -/

/-- `BOND_LINK_FAIL` and the link stays down, the locks held or not. -/
def fails (have_locks : Bool) (x : Slave) : Bool × Slave :=
  if x.delay ≤ 0 then if have_locks then (false, { x with link := .down }) else (true, x)
  else (false, { x with delay := x.delay - 1 })

/-- `BOND_LINK_BACK` and the link stays up. -/
def rises (have_locks : Bool) (x : Slave) : Bool × Slave :=
  if x.delay = 0 then
    if have_locks then (false, { x with link := .up, state := .active }) else (true, x)
  else (false, { x with delay := x.delay - 1 })

/-- Whether the inspection stops at a slave, and the record it leaves. -/
def inspected_24 (have_locks idle : Bool) (params : Params) (link_state : Bool) (x : Slave) :
    Bool × Slave :=
  match x.link, link_state with
  | .up, true => (idle && !have_locks, x)
  | .up, false =>
    fails have_locks (World.count_failure { x with link := .fail, delay := params.downdelay })
  | .fail, false => fails have_locks x
  | .fail, true => (false, { x with link := .up })
  | .down, false => (false, x)
  | .down, true => rises have_locks { x with link := .back, delay := params.updelay }
  | .back, false => (false, { x with link := .down })
  | .back, true => rises have_locks x

theorem inspected_24_linkUpdate (have_locks idle : Bool) (params : Params) (link_state : Bool) :
    World.LinkUpdate fun x => (inspected_24 have_locks idle params link_state x).2 := by
  refine ⟨fun x => ?_, fun x => ?_, fun x => ?_⟩ <;>
    · unfold inspected_24 fails rises World.count_failure
      split <;> (try split_ifs) <;> rfl

@[simp] theorem fails_locked (x : Slave) : (fails true x).1 = false := by
  unfold fails
  simp only [if_true]
  split_ifs <;> rfl

@[simp] theorem rises_locked (x : Slave) : (rises true x).1 = false := by
  unfold rises
  simp only [if_true]
  split_ifs <;> rfl

theorem inspected_24_locked (idle : Bool) (params : Params) (link_state : Bool) (x : Slave) :
    (inspected_24 true idle params link_state x).1 = false := by
  unfold inspected_24
  split <;> simp

theorem inspected_24_idle (have_locks idle : Bool) (params : Params) (link_state : Bool)
    (x : Slave) : (inspected_24 have_locks idle params link_state x).2 =
      (inspected_24 have_locks false params link_state x).2 := by
  unfold inspected_24
  split <;> rfl

theorem inspected_24_down (have_locks idle : Bool) (params : Params) {x : Slave}
    (hx : x.link ≠ .back) :
    (inspected_24 have_locks idle params false x).2.link ≠ .back ∧
      down_in params.downdelay (inspected_24 have_locks idle params false x).2 =
        down_in params.downdelay x -
          (if (inspected_24 have_locks idle params false x).1 then 0 else 1) := by
  cases hlink : x.link with
  | back => exact absurd hlink hx
  | down => simp [inspected_24, hlink, down_in]
  | up =>
    by_cases hd : params.downdelay ≤ 0
    · cases have_locks <;>
        simp [inspected_24, fails, World.count_failure, hlink, hd, down_in,
          Int.toNat_of_nonpos hd]
    · simp [inspected_24, fails, World.count_failure, hlink, hd, down_in]
      omega
  | fail =>
    by_cases hd : x.delay ≤ 0
    · cases have_locks <;>
        simp [inspected_24, fails, hlink, hd, down_in, Int.toNat_of_nonpos hd]
    · simp [inspected_24, fails, hlink, hd, down_in]
      omega

theorem inspected_24_up (have_locks idle : Bool) (params : Params) {x : Slave}
    (hu : 0 ≤ params.updelay) (hx : Timed x) :
    Timed (inspected_24 have_locks idle params true x).2 ∧
      up_in params.updelay (inspected_24 have_locks idle params true x).2 ≤
        up_in params.updelay x -
          (if (inspected_24 have_locks idle params true x).1 then 0 else 1) := by
  cases hlink : x.link with
  | up => simp [inspected_24, hlink, Timed, up_in]
  | fail => simp [inspected_24, hlink, Timed, up_in]
  | down =>
    by_cases hd : params.updelay = 0
    · cases have_locks <;> simp [inspected_24, rises, hlink, hd, Timed, up_in]
    · simp [inspected_24, rises, hlink, hd, Timed, up_in]
      omega
  | back =>
    have hdelay := hx hlink
    by_cases hd : x.delay = 0
    · cases have_locks <;> simp [inspected_24, rises, hlink, hd, Timed, up_in]
    · simp [inspected_24, rises, hlink, hd, Timed, up_in]
      omega

/-! The inspection of 2.6.24 -/

namespace Inspection

variable [Siblings]

omit [Siblings] in
theorem setSlave_const (w : World) (s : SlaveId) (f : Slave → Slave) :
    w.setSlave s f = w.setSlave s fun _ => f (w.slaves s) := by
  simp only [World.setSlave]
  congr 1
  funext t
  by_cases ht : t = s
  · simp [ht]
  · simp [ht]

omit [Siblings] in
theorem setSlave_same (w : World) (s : SlaveId) : w = w.setSlave s fun _ => w.slaves s := by
  have hsame : (fun t => if t = s then w.slaves s else w.slaves t) = w.slaves := by
    funext t
    by_cases ht : t = s
    · simp [ht]
    · simp [ht]
  simp only [World.setSlave, hsame]

structure Turned (have_locks : Bool) (p : Inspection) (s : SlaveId) (r : Bool × Slave)
    (q : Bool × Inspection) : Prop where
  stops : q.1 = r.1
  world : q.2.world = p.world.setSlave s fun _ => r.2
  keeps : have_locks = false → q.2.do_failover = p.do_failover

theorem stays_down_hoolock {p : Inspection} (h : p.world.bond.params.mode = .hoolock)
    (have_locks : Bool) (oldcurrent : Option SlaveId) (s : SlaveId) :
    Turned have_locks p s (fails have_locks (p.world.slaves s))
      (p.stays_down have_locks oldcurrent s) := by
  have hdown : ∀ f : Slave → Slave, (p.world.setSlave s f).bond.params.mode = .hoolock :=
    fun _ => h
  unfold stays_down fails
  by_cases hd : (p.world.slaves s).delay ≤ 0
  · cases have_locks with
    | false =>
      simp only [hd, if_true, Bool.not_false]
      exact ⟨rfl, setSlave_same _ _, fun _ => rfl⟩
    | true =>
      simp only [hd, if_true, Bool.not_true, Bool.false_eq_true, if_false, hdown, reduceCtorEq,
        or_self]
      rw [World.link_change_hoolock (hdown _)]
      exact ⟨rfl, setSlave_const _ _ fun x => { x with link := .down }, fun hfree => by cases hfree⟩
  · simp only [hd, if_false]
    exact ⟨rfl, setSlave_const _ _ fun x => { x with delay := x.delay - 1 }, fun _ => rfl⟩

theorem stays_up_hoolock {p : Inspection} (h : p.world.bond.params.mode = .hoolock)
    (have_locks : Bool) (oldcurrent : Option SlaveId) (s : SlaveId) :
    Turned have_locks p s (rises have_locks (p.world.slaves s))
      (p.stays_up have_locks oldcurrent s) := by
  have hset : ∀ f : Slave → Slave, (p.world.setSlave s f).bond.params.mode = .hoolock :=
    fun _ => h
  unfold stays_up rises
  by_cases hd : (p.world.slaves s).delay = 0
  · cases have_locks with
    | false =>
      simp only [hd, if_true, Bool.not_false]
      exact ⟨rfl, setSlave_same _ _, fun _ => rfl⟩
    | true =>
      simp only [if_pos hd, if_true, Bool.not_true, Bool.false_eq_true, if_false, hset, reduceCtorEq,
        ne_eq, not_false_eq_true]
      rw [World.setSlave_setSlave, World.link_change_hoolock (hset _)]
      exact ⟨rfl, setSlave_const _ _ fun x => { x with link := .up, state := .active },
        fun hfree => by cases hfree⟩
  · simp only [hd, if_false]
    exact ⟨rfl, setSlave_const _ _ fun x => { x with delay := x.delay - 1 }, fun _ => rfl⟩

omit [Siblings] in
theorem Turned.after {have_locks : Bool} {p : Inspection} {s : SlaveId} {f : Slave → Slave}
    {r : Bool × Slave} {q : Bool × Inspection} (h : Turned have_locks (p.setSlave s f) s r q) :
    Turned have_locks p s r q := by
  have hworld : (p.setSlave s f).world = p.world.setSlave s f := rfl
  refine ⟨h.stops, ?_, h.keeps⟩
  rw [h.world, hworld, World.setSlave_setSlave]

theorem slave_hoolock {p : Inspection} (h : p.world.bond.params.mode = .hoolock)
    (have_locks : Bool) (oldcurrent : Option SlaveId) (s : SlaveId) :
    Turned have_locks p s (inspected_24 have_locks (oldcurrent == none) p.world.bond.params
      (p.world.check s) (p.world.slaves s)) (p.slave have_locks oldcurrent s) := by
  have hself : ∀ f : Slave → Slave, (p.setSlave s f).world.slaves s = f (p.world.slaves s) :=
    World.setSlave_self p.world s
  unfold slave inspected_24 World.check
  cases hlink : (p.world.slaves s).link with
  | up =>
    cases hcheck : p.world.bond_check_dev_link (p.world.slave_dev s) with
    | false =>
      have hturn := stays_down_hoolock (p := p.setSlave s fun slave => World.count_failure
        { slave with link := .fail, delay := p.world.bond.params.downdelay }) h have_locks
          oldcurrent s
      rw [hself] at hturn
      exact hturn.after
    | true =>
      cases oldcurrent with
      | none =>
        cases have_locks with
        | false => exact ⟨rfl, setSlave_same _ _, fun _ => rfl⟩
        | true => exact ⟨rfl, setSlave_same _ _, fun hfree => by cases hfree⟩
      | some a => exact ⟨rfl, setSlave_same _ _, fun _ => rfl⟩
  | fail =>
    cases hcheck : p.world.bond_check_dev_link (p.world.slave_dev s) with
    | false => exact stays_down_hoolock h have_locks oldcurrent s
    | true => exact ⟨rfl, setSlave_const _ _ fun x => { x with link := .up }, fun _ => rfl⟩
  | down =>
    cases hcheck : p.world.bond_check_dev_link (p.world.slave_dev s) with
    | false => exact ⟨rfl, setSlave_same _ _, fun _ => rfl⟩
    | true =>
      have hturn := stays_up_hoolock (p := p.setSlave s fun slave =>
        { slave with link := .back, delay := p.world.bond.params.updelay }) h have_locks
          oldcurrent s
      rw [hself] at hturn
      exact hturn.after
  | back =>
    cases hcheck : p.world.bond_check_dev_link (p.world.slave_dev s) with
    | false => exact ⟨rfl, setSlave_const _ _ fun x => { x with link := .down }, fun _ => rfl⟩
    | true => exact stays_up_hoolock h have_locks oldcurrent s

end Inspection

namespace World

/-- What an inspection makes of one of the slaves, stopping there or not. -/
def visit (w : World) (have_locks : Bool) (s : SlaveId) : Bool × Slave :=
  inspected_24 have_locks (w.bond.curr_active_slave == none) w.bond.params (w.check s) (w.slaves s)

def visited (w : World) (have_locks : Bool) (l : List SlaveId) : List SlaveId :=
  l.take (l.findIdx (fun s => (w.visit have_locks s).1) + 1)

end World

namespace Inspection

variable [Siblings]

/-- The state in which an inspection ends that began at `w` and has come to the slaves `l`. -/
structure Looped (have_locks : Bool) (w : World) (p : Inspection) (l : List SlaveId)
    (q : Bool × Inspection) : Prop where
  stops : q.1 = l.any fun s => (w.visit have_locks s).1
  slaves : ∀ t, q.2.world.slaves t =
    if t ∈ w.visited have_locks l then (w.visit have_locks t).2 else p.world.slaves t
  onward : World.Onward p.world q.2.world
  bond : q.2.world.bond = p.world.bond
  devs : q.2.world.devs = p.world.devs
  keeps : have_locks = false → q.2.do_failover = p.do_failover

theorem slaves_hoolock (have_locks : Bool) {w : World} (h : w.bond.params.mode = .hoolock)
    {l : List SlaveId} (hnd : l.Nodup) {p : Inspection} (hbond : p.world.bond = w.bond)
    (hsame : ∀ t ∈ l, p.world.check t = w.check t ∧ p.world.slaves t = w.slaves t) :
    Looped have_locks w p l (slaves have_locks w.bond.curr_active_slave p l) := by
  induction l generalizing p with
  | nil =>
    refine ⟨rfl, fun t => ?_, World.Onward.refl _, rfl, rfl, fun _ => rfl⟩
    simp [slaves, World.visited]
  | cons s rest ih =>
    obtain ⟨hs, hrest⟩ := List.nodup_cons.mp hnd
    have hm : p.world.bond.params.mode = .hoolock := hbond ▸ h
    have hturn := slave_hoolock hm have_locks w.bond.curr_active_slave s
    obtain ⟨hcheck, hslave⟩ := hsame s (by simp)
    have hvisit : inspected_24 have_locks (w.bond.curr_active_slave == none) p.world.bond.params
        (p.world.check s) (p.world.slaves s) = w.visit have_locks s := by
      rw [hbond, hcheck, hslave]
      rfl
    rw [hvisit] at hturn
    obtain ⟨r, hr⟩ : ∃ r, r = p.slave have_locks w.bond.curr_active_slave s := ⟨_, rfl⟩
    rw [← hr] at hturn
    have hupdate : r.2.world = p.world.setSlave s fun x =>
        (inspected_24 have_locks (w.bond.curr_active_slave == none) p.world.bond.params
          (p.world.check s) x).2 := by
      rw [hturn.world, ← hvisit]
      exact (setSlave_const p.world s fun x => (inspected_24 have_locks
        (w.bond.curr_active_slave == none) p.world.bond.params (p.world.check s) x).2).symm
    have hon : World.Onward p.world r.2.world := by
      rw [hupdate]
      exact World.setSlave_onward _ _ (inspected_24_linkUpdate _ _ _ _)
    have hself : r.2.world.slaves s = (w.visit have_locks s).2 := by
      rw [hturn.world, World.setSlave_self]
    have hother : ∀ t, t ≠ s → r.2.world.slaves t = p.world.slaves t := by
      intro t ht
      rw [hturn.world, World.setSlave_other _ _ ht]
    have hrbond : r.2.world.bond = p.world.bond := by rw [hturn.world]; rfl
    have hrdevs : r.2.world.devs = p.world.devs := by rw [hturn.world]; rfl
    have hstep : slaves have_locks w.bond.curr_active_slave p (s :: rest) =
        if r.1 then r else slaves have_locks w.bond.curr_active_slave r.2 rest := by
      rw [hr]
      rfl
    rw [hstep]
    by_cases hstop : (w.visit have_locks s).1 = true
    · rw [if_pos (hturn.stops.trans hstop)]
      refine ⟨by simp [hturn.stops, hstop], fun t => ?_, hon, hrbond, hrdevs, hturn.keeps⟩
      by_cases ht : t = s
      · simp [World.visited, List.findIdx_cons, hstop, ht, hself]
      · simp [World.visited, List.findIdx_cons, hstop, ht, hother t ht]
    · have hgo : ¬ r.1 = true := fun hne => hstop (hturn.stops ▸ hne)
      have hne : ∀ t ∈ rest, t ≠ s := by
        rintro t ht rfl
        exact hs ht
      have hloop := ih hrest (hrbond.trans hbond) fun t ht => by
        obtain ⟨hc, hx⟩ := hsame t (by simp [ht])
        refine ⟨?_, (hother t (hne t ht)).trans hx⟩
        rw [← hc]
        unfold World.check World.bond_check_dev_link World.slave_dev
        rw [hrbond, hrdevs, hother t (hne t ht)]
      rw [if_neg hgo]
      refine ⟨?_, fun t => ?_, hon.trans hloop.onward, hloop.bond.trans hrbond,
        hloop.devs.trans hrdevs, fun hfree => (hloop.keeps hfree).trans (hturn.keeps hfree)⟩
      · simp [hloop.stops, hstop]
      · rw [hloop.slaves]
        by_cases ht : t = s
        · have hout : s ∉ w.visited have_locks rest := fun hin => hs (List.mem_of_mem_take hin)
          simp [World.visited, List.findIdx_cons, hstop, ht] at hout ⊢
          simp [hout, hself]
        · simp [World.visited, List.findIdx_cons, hstop, ht, hother t ht]

end Inspection

namespace World

/-! The two monitors -/

def settings (w : World) : Shape × Params × DevId × Bool × Port :=
  (w.shape, w.bond.params, w.bond.dev, w.bond.kill_timers, w.port)

structure Watched (w : World) (l : List SlaveId) : Prop extends w.Ring l where
  mode : w.bond.params.mode = .hoolock
  runs : w.bond.kill_timers = false

section watched

variable {w v : World} {l : List SlaveId} {s : SlaveId}

theorem params_of_settings (h : v.settings = w.settings) : v.bond.params = w.bond.params :=
  congrArg (fun x => x.2.1) h

theorem port_of_settings (h : v.settings = w.settings) : v.port = w.port :=
  congrArg (fun x => x.2.2.2.2) h

theorem Watched.of_settings (h : w.Watched l) (hs : v.settings = w.settings) : v.Watched l where
  toRing := h.toRing.of_shape (congrArg Prod.fst hs)
  mode := (congrArg Params.mode (params_of_settings hs)).trans h.mode
  runs := (congrArg (fun x => x.2.2.2.1) hs).trans h.runs

theorem settings_setSlave (w : World) (s : SlaveId) {f : Slave → Slave} (hf : LinkUpdate f) :
    (w.setSlave s f).settings = w.settings := by
  have hshape := shape_setSlave w s f hf.next hf.prev hf.dev
  exact congrArg (fun x => (x, w.bond.params, w.bond.dev, w.bond.kill_timers, w.port)) hshape

theorem settings_of_bond (hshape : v.shape = w.shape) (hport : v.port = w.port)
    {a : Option SlaveId} (hb : v.bond = { w.bond with curr_active_slave := a }) :
    v.settings = w.settings := by
  unfold settings
  rw [hshape, hport, hb]

variable [Siblings]

theorem settings_failover (h : w.bond.params.mode = .hoolock) :
    w.failover.settings = w.settings := by
  have hm : (w.lock .curr_slave .write).bond.params.mode = .hoolock := h
  have hshape := shape_select_active (w.lock .curr_slave .write)
  have hport : (w.lock .curr_slave .write).bond_select_active_slave.port = w.port :=
    congrArg Core.port (core_select_active (w.lock .curr_slave .write))
  exact settings_of_bond (w := w) hshape hport (select_active_bond hm)

theorem settings_set_carrier (h : w.bond.params.mode = .hoolock) :
    w.bond_set_carrier.2.settings = w.settings := by
  have hport : w.bond_set_carrier.2.port = w.port := congrArg Core.port (core_bond_set_carrier w)
  exact settings_of_bond (shape_bond_set_carrier w) hport
    (a := w.bond.curr_active_slave) (set_carrier_bond h)

theorem commit_hoolock (h : w.bond.params.mode = .hoolock) (s : SlaveId) :
    (w.commit s).settings = w.settings ∧
      Chosen (committed (w.slaves s)) ((w.commit s).slaves s) ∧
      ∀ t, t ≠ s → Chosen (w.slaves t) ((w.commit s).slaves t) := by
  have hset : ∀ f, LinkUpdate f → (w.setSlave s f).settings = w.settings ∧
      Chosen (f (w.slaves s)) ((w.setSlave s f).slaves s) ∧
      ∀ t, t ≠ s → Chosen (w.slaves t) ((w.setSlave s f).slaves t) := fun f hf =>
    ⟨settings_setSlave w s hf, Or.inl (setSlave_self w s f),
      fun t ht => Or.inl (setSlave_other w f ht)⟩
  have hfail : ∀ f, LinkUpdate f → (w.setSlave s f).failover.settings = w.settings ∧
      Chosen (f (w.slaves s)) ((w.setSlave s f).failover.slaves s) ∧
      ∀ t, t ≠ s → Chosen (w.slaves t) ((w.setSlave s f).failover.slaves t) := by
    intro f hf
    obtain ⟨hsettings, hself, hother⟩ := hset f hf
    have hm : (w.setSlave s f).bond.params.mode = .hoolock := h
    exact ⟨(settings_failover hm).trans hsettings, hself.trans (failover_slaves hm s),
      fun t ht => (hother t ht).trans (failover_slaves hm t)⟩
  cases hlink : (w.slaves s).new_link with
  | none =>
    have hc : w.commit s = w := by simp only [commit, hlink]
    have hd : committed (w.slaves s) = w.slaves s := by simp only [committed, hlink]
    rw [hc, hd]
    exact ⟨rfl, Chosen.refl _, fun t _ => Chosen.refl _⟩
  | some link =>
    have hclear : LinkUpdate fun x => { x with new_link := none } :=
      ⟨fun _ => rfl, fun _ => rfl, fun _ => rfl⟩
    cases link with
    | up =>
      have hf : LinkUpdate fun x => { x with link := .up, state := .active } :=
        ⟨fun _ => rfl, fun _ => rfl, fun _ => rfl⟩
      have hc : w.commit s = w.commit_up s := by simp only [commit, hlink]
      have hd : committed (w.slaves s) = { w.slaves s with link := .up, state := .active } := by
        simp [committed, hlink]
      rw [hc, hd, commit_up_hoolock h]
      split_ifs
      · exact hfail _ hf
      · exact hset _ hf
    | down =>
      have hf : LinkUpdate fun x => { count_failure x with link := .down } :=
        ⟨fun _ => rfl, fun _ => rfl, fun _ => rfl⟩
      have hc : w.commit s = w.commit_down s := by simp only [commit, hlink]
      have hd : committed (w.slaves s) = { count_failure (w.slaves s) with link := .down } := by
        simp [committed, hlink]
      rw [hc, hd, commit_down_hoolock h]
      split_ifs
      · exact hfail _ hf
      · exact hset _ hf
    | fail =>
      have hc : w.commit s = w.setSlave s fun x => { x with new_link := none } := by
        simp only [commit, hlink]
      have hd : committed (w.slaves s) = { w.slaves s with new_link := none } := by
        simp [committed, hlink]
      rw [hc, hd]
      exact hset _ hclear
    | back =>
      have hc : w.commit s = w.setSlave s fun x => { x with new_link := none } := by
        simp only [commit, hlink]
      have hd : committed (w.slaves s) = { w.slaves s with new_link := none } := by
        simp [committed, hlink]
      rw [hc, hd]
      exact hset _ hclear

theorem commits_aside {r : List SlaveId} (h : w.bond.params.mode = .hoolock) (hs : s ∉ r) :
    (r.foldl World.commit w).settings = w.settings ∧
      Chosen (w.slaves s) ((r.foldl World.commit w).slaves s) := by
  induction r generalizing w with
  | nil => exact ⟨rfl, Chosen.refl _⟩
  | cons a rest ih =>
    obtain ⟨hsettings, -, hother⟩ := commit_hoolock h a
    have hm : (w.commit a).bond.params.mode = .hoolock :=
      (congrArg Params.mode (params_of_settings hsettings)).trans h
    obtain ⟨hrest, hchosen⟩ := ih hm fun hin => hs (List.mem_cons_of_mem a hin)
    have hne : s ≠ a := fun heq => hs (by simp [heq])
    exact ⟨hrest.trans hsettings, (hother s hne).trans hchosen⟩

theorem commits_hoolock (h : w.bond.params.mode = .hoolock) (hnd : l.Nodup) (hs : s ∈ l) :
    (l.foldl World.commit w).settings = w.settings ∧ ∃ x, Chosen (w.slaves s) x ∧
      Chosen (committed x) ((l.foldl World.commit w).slaves s) := by
  obtain ⟨m, k, rfl⟩ := List.append_of_mem hs
  have hm : s ∉ m := fun hin => List.disjoint_of_nodup_append hnd hin (by simp)
  have hk : s ∉ k := (List.nodup_cons.mp (List.nodup_append.mp hnd).2.1).1
  obtain ⟨hbefore, hfirst⟩ := commits_aside h hm
  have hmode : ∀ {x : World}, x.settings = w.settings → x.bond.params.mode = .hoolock :=
    fun hx => (congrArg Params.mode (params_of_settings hx)).trans h
  obtain ⟨hturn, hself, -⟩ := commit_hoolock (hmode hbefore) s
  obtain ⟨hafter, hlast⟩ := commits_aside (hmode (hturn.trans hbefore)) hk
  rw [List.foldl_append, List.foldl_cons]
  exact ⟨hafter.trans (hturn.trans hbefore), _, hfirst, hself.trans hlast⟩

theorem monitor_27 (h : w.Watched l) (hs : s ∈ l) :
    w.bond_mii_monitor.settings = w.settings ∧
      ∃ x, Chosen (inspect_slave w.bond.params (w.check s) (w.slaves s)) x ∧
        Chosen (committed x) (w.bond_mii_monitor.slaves s) := by
  obtain ⟨v, hv⟩ : ∃ v, v = if w.bond.send_grat_arp ≠ 0 then (((w.lock .bond .read).lock .curr_slave
      .read).bond_send_gratuitous_arp).unlock .curr_slave .read else w.lock .bond .read := ⟨_, rfl⟩
  have hsame : v.settings = w.settings ∧ v.slaves = w.slaves ∧ v.devs = w.devs := by
    rw [hv]
    split_ifs
    · obtain ⟨k, hk⟩ := gratuitous_arp_eq ((w.lock .bond .read).lock .curr_slave .read)
      rw [hk]
      exact ⟨rfl, rfl, rfl⟩
    · exact ⟨rfl, rfl, rfl⟩
  obtain ⟨hvsettings, hvslaves, hvdevs⟩ := hsame
  have hvw := h.of_settings hvsettings
  have hvp := params_of_settings hvsettings
  have hvcheck : v.check s = w.check s := by
    unfold check bond_check_dev_link slave_dev
    rw [hvp, hvslaves, hvdevs]
  have hcnt : w.bond.slave_cnt ≠ 0 := by
    have hpos := List.length_pos_of_mem hs
    rw [h.count]
    omega
  have hon : ¬ (w.bond.kill_timers = true ∨ w.bond.slave_cnt = 0) := by
    simp [h.runs, hcnt]
  have hwork : w.bond_mii_monitor = v.miimon_work.unlock .bond .read := by
    rw [mii_monitor_eq, if_neg hon, hv]
  obtain ⟨y, hy⟩ : ∃ y, y = l.foldl inspect v := ⟨_, rfl⟩
  obtain ⟨hyon, hybond, hydevs, hyslaves⟩ := inspects_spec v h.nodup
  rw [← hy] at hyon hybond hydevs hyslaves
  have hinspect : v.bond_miimon_inspect = y := by
    unfold bond_miimon_inspect
    rw [hvw.for_each, hy]
  have hyself : y.slaves s = inspect_slave w.bond.params (w.check s) (w.slaves s) := by
    rw [hyslaves, if_pos hs, hvp, hvcheck, hvslaves]
  have hysettings : y.settings = w.settings := by
    refine Eq.trans ?_ hvsettings
    exact settings_of_bond (congrArg Base.shape hyon.base) (congrArg Base.port hyon.base)
      (a := v.bond.curr_active_slave) hybond
  rw [hwork]
  unfold miimon_work
  dsimp only
  rw [hinspect]
  by_cases hchanges : y.miimon_changes = true
  · obtain ⟨z, hz⟩ : ∃ z, z = (y.unlock .bond .read).lock .bond .read := ⟨_, rfl⟩
    have hzsettings : z.settings = w.settings := hz ▸ hysettings
    have hzw := h.of_settings hzsettings
    have hzself : z.slaves s = y.slaves s := hz ▸ rfl
    obtain ⟨hloop, x, hfirst, hlast⟩ := commits_hoolock hzw.mode h.nodup hs
    have hmode : (l.foldl World.commit z).bond.params.mode = .hoolock :=
      (hzw.of_settings hloop).mode
    have hcommit : z.bond_miimon_commit = (l.foldl World.commit z).bond_set_carrier.2 := by
      unfold bond_miimon_commit
      rw [hzw.for_each]
    rw [if_pos hchanges, ← hz, hcommit]
    refine ⟨(settings_set_carrier hmode).trans (hloop.trans hzsettings), x, ?_, ?_⟩
    · rw [← hyself, ← hzself]
      exact hfirst
    · have hcarrier := congrFun (set_carrier_slaves hmode) s
      have hlocked : ((((l.foldl World.commit z).bond_set_carrier.2.unlock .bond .read).lock .bond
          .read).unlock .bond .read).slaves s = (l.foldl World.commit z).slaves s := hcarrier
      rw [hlocked]
      exact hlast
  · rw [if_neg hchanges]
    refine ⟨hysettings, y.slaves s, Or.inl hyself, ?_⟩
    have hnone : (y.slaves s).new_link = none := by
      have hw := h.of_settings hysettings
      unfold miimon_changes at hchanges
      rw [hw.for_each, List.any_eq_true] at hchanges
      by_contra hsome
      exact hchanges ⟨s, hs, Option.isSome_iff_ne_none.mpr hsome⟩
    have hd : committed (y.slaves s) = y.slaves s := by simp only [committed, hnone]
    rw [hd]
    exact Chosen.refl _

omit [Siblings] in
theorem announce_24_eq (w : World) :
    ∃ k, w.announce_24 = w.setBond fun b => { b with send_grat_arp := k } := by
  have hid : w = w.setBond fun b => { b with send_grat_arp := w.bond.send_grat_arp } := rfl
  unfold announce_24
  split_ifs
  · exact ⟨_, hid⟩
  · obtain ⟨k, hk⟩ := gratuitous_arp_eq w
    rw [hk]
    exact ⟨0, rfl⟩
  · exact ⟨_, hid⟩

/-- The record that an inspection of 2.6.24 leaves, unless the slave is chosen at its end. -/
def after_visit (w : World) (have_locks : Bool) (l : List SlaveId) (s : SlaveId) : Slave :=
  if s ∈ w.visited have_locks l then (w.visit have_locks s).2 else w.slaves s

structure Inspected_24 (w : World) (have_locks : Bool) (l : List SlaveId) (r : Bool × World) :
    Prop where
  stops : r.1 = l.any fun s => (w.visit have_locks s).1
  settings : r.2.settings = w.settings
  chosen : ∀ s, Chosen (w.after_visit have_locks l s) (r.2.slaves s)
  stopped : r.1 = true → r.2.devs = w.devs ∧ ∀ s, r.2.slaves s = w.after_visit have_locks l s

theorem inspection_24 (have_locks : Bool) (h : w.Watched l) (hl : l ≠ []) :
    Inspected_24 w have_locks l (w.__bond_mii_monitor have_locks) := by
  obtain ⟨k, hk⟩ := announce_24_eq w
  obtain ⟨v, hv⟩ : ∃ v, v = (w.announce_24.lock .curr_slave .read).unlock .curr_slave .read :=
    ⟨_, rfl⟩
  rw [hk] at hv
  have hvsettings : v.settings = w.settings := hv ▸ rfl
  have hvw := h.of_settings hvsettings
  have hvslaves : v.slaves = w.slaves := hv ▸ rfl
  have hvisit : v.visit have_locks = w.visit have_locks := by
    rw [hv]
    rfl
  have hafter : v.after_visit have_locks l = w.after_visit have_locks l := by
    unfold after_visit visited
    rw [hvisit, hvslaves]
  have hcnt : w.bond.slave_cnt ≠ 0 := by
    have hpos := List.length_pos_of_ne_nil hl
    rw [h.count]
    omega
  obtain ⟨q, hq⟩ : ∃ q, q = Inspection.slaves have_locks v.bond.curr_active_slave ⟨v, false⟩ l :=
    ⟨_, rfl⟩
  have hloop := Inspection.slaves_hoolock have_locks hvw.mode h.nodup
    (p := ⟨v, false⟩) rfl fun _ _ => ⟨rfl, rfl⟩
  rw [← hq] at hloop
  have hrun : w.__bond_mii_monitor have_locks = if q.1 then (true, q.2.world)
      else (false, if q.2.do_failover then q.2.world.failover else q.2.world.bond_set_carrier.2) := by
    unfold __bond_mii_monitor
    rw [if_neg hcnt, hk, hq, hv, ← hvw.for_each, hv]
    rfl
  have hqslaves : ∀ s, q.2.world.slaves s = w.after_visit have_locks l s := by
    intro s
    rw [hloop.slaves, ← hafter]
    rfl
  have hqsettings : q.2.world.settings = w.settings := by
    refine Eq.trans ?_ hvsettings
    exact settings_of_bond (congrArg Base.shape hloop.onward.base)
      (congrArg Base.port hloop.onward.base) (a := v.bond.curr_active_slave) hloop.bond
  have hqmode : q.2.world.bond.params.mode = .hoolock := (h.of_settings hqsettings).mode
  have hstops : q.1 = l.any fun s => (w.visit have_locks s).1 := by
    rw [hloop.stops, hvisit]
  have hqdevs : q.2.world.devs = w.devs := hloop.devs.trans (hv ▸ rfl)
  rw [hrun]
  by_cases hstop : q.1 = true
  · rw [if_pos hstop]
    exact ⟨hstop ▸ hstops, hqsettings, fun s => Or.inl (hqslaves s), fun _ => ⟨hqdevs, hqslaves⟩⟩
  · have hgo : false = l.any fun s => (w.visit have_locks s).1 := by
      rw [← hstops]
      simpa using hstop
    rw [if_neg hstop]
    by_cases hfail : q.2.do_failover = true
    · rw [if_pos hfail]
      refine ⟨hgo, (settings_failover hqmode).trans hqsettings, fun s => ?_, fun hone => by cases hone⟩
      rw [← hqslaves s]
      exact failover_slaves hqmode s
    · rw [if_neg hfail]
      refine ⟨hgo, (settings_set_carrier hqmode).trans hqsettings, fun s => ?_,
        fun hone => by cases hone⟩
      rw [← hqslaves s]
      exact Or.inl (congrFun (set_carrier_slaves hqmode) s)

omit [Siblings] in
theorem visited_all (have_locks : Bool) (h : ∀ t ∈ l, (w.visit have_locks t).1 = false) :
    w.visited have_locks l = l := by
  have hlength : l.findIdx (fun t => (w.visit have_locks t).1) = l.length :=
    List.findIdx_eq_length_of_false (by simpa using h)
  unfold visited
  rw [hlength]
  exact List.take_of_length_le (by omega)

omit [Siblings] in
theorem after_locked_visit (hs : s ∈ l) : w.after_visit true l s = (w.visit true s).2 := by
  have hall := visited_all (w := w) (l := l) true fun t _ =>
    inspected_24_locked _ _ _ _
  unfold after_visit
  rw [hall, if_pos hs]

/-- The first inspection is past the slave when it stops. -/
def recounts (w : World) (l : List SlaveId) (s : SlaveId) : Bool :=
  l.any (fun t => (w.visit false t).1) && decide (s ∈ w.visited false l) && !(w.visit false s).1

theorem monitor_24 (h : w.Watched l) (hs : s ∈ l) :
    w.bond_mii_monitor_24.settings = w.settings ∧
      Chosen (if l.any (fun t => (w.visit false t).1) then
          (inspected_24 true false w.bond.params (w.check s) (w.after_visit false l s)).2
        else (w.visit false s).2) (w.bond_mii_monitor_24.slaves s) := by
  obtain ⟨v, hv⟩ : ∃ v, v = w.lock .bond .read := ⟨_, rfl⟩
  have hvsettings : v.settings = w.settings := hv ▸ rfl
  have hvw := h.of_settings hvsettings
  have hvvisit : v.visit = w.visit := hv ▸ rfl
  have hvafter : v.after_visit = w.after_visit := hv ▸ rfl
  have hl : l ≠ [] := List.ne_nil_of_mem hs
  obtain ⟨r, hr⟩ : ∃ r, r = v.__bond_mii_monitor false := ⟨_, rfl⟩
  have hfirst := inspection_24 false hvw hl
  rw [← hr] at hfirst
  have hrun : w.bond_mii_monitor_24 = (if r.1 then (((((r.2.unlock .bond .read).lock .bond
      .read).__bond_mii_monitor true).2.unlock .bond .read).lock .bond .read)
      else r.2).unlock .bond .read := by
    unfold bond_mii_monitor_24
    dsimp only
    rw [← hv, ← hr, if_neg (by simp [hvw.runs])]
  have hstops := hfirst.stops
  rw [hvvisit] at hstops
  rw [hrun, ← hstops]
  by_cases hagain : r.1 = true
  · obtain ⟨hdevs, hslaves⟩ := hfirst.stopped hagain
    rw [hvafter] at hslaves
    obtain ⟨u, hu⟩ : ∃ u, u = (r.2.unlock .bond .read).lock .bond .read := ⟨_, rfl⟩
    have husettings : u.settings = w.settings := hu ▸ hfirst.settings.trans hvsettings
    have hsecond := inspection_24 true (h.of_settings husettings) hl
    have huslaves : u.slaves s = w.after_visit false l s := hu ▸ hslaves s
    have hucheck : u.check s = w.check s := by
      have hudevs : u.devs = w.devs := hu ▸ hdevs.trans (hv ▸ rfl)
      have hudev : (u.slaves s).dev = (w.slaves s).dev :=
        congrFun (congrArg Shape.dev (congrArg Prod.fst husettings)) s
      unfold check bond_check_dev_link slave_dev
      rw [params_of_settings husettings, hudevs, hudev]
    rw [if_pos hagain, if_pos hagain, ← hu]
    refine ⟨hsecond.settings.trans husettings, ?_⟩
    have hchosen := hsecond.chosen s
    rw [after_locked_visit hs] at hchosen
    unfold visit at hchosen
    rw [params_of_settings husettings, hucheck, huslaves, inspected_24_idle] at hchosen
    exact hchosen
  · rw [if_neg hagain, if_neg hagain]
    refine ⟨hfirst.settings.trans hvsettings, ?_⟩
    have hall : w.visited false l = l := visited_all false fun t ht => by
      rw [hstops, List.any_eq_true] at hagain
      simpa using fun hone => hagain ⟨t, ht, hone⟩
    have hchosen := hfirst.chosen s
    rw [hvafter] at hchosen
    unfold after_visit at hchosen
    rw [hall, if_pos hs] at hchosen
    exact hchosen

/-- What a turn takes off the delay of a slave that reads down. -/
def counted (w : World) (l : List SlaveId) (s : SlaveId) : Nat :=
  1 + if w.port = .k24 ∧ w.recounts l s then 1 else 0

theorem monitor_down (h : w.Watched l) (hs : s ∈ l) (hcheck : w.check s = false)
    (hlink : (w.slaves s).link ≠ .back) :
    w.monitor.settings = w.settings ∧ (w.monitor.slaves s).link ≠ .back ∧
      down_in w.bond.params.downdelay (w.monitor.slaves s) =
        down_in w.bond.params.downdelay (w.slaves s) - w.counted l s := by
  unfold monitor counted
  cases hport : w.port with
  | k27 =>
    obtain ⟨hsettings, x, hfirst, hlast⟩ := monitor_27 h hs
    rw [hcheck] at hfirst
    obtain ⟨hinspected, hcommitted, hdown⟩ := committed_down w.bond.params hlink
    rw [hfirst.of_link hinspected] at hlast
    rw [hlast.of_link hcommitted]
    exact ⟨hsettings, hcommitted, by simp [hdown]⟩
  | k24 =>
    obtain ⟨hsettings, hchosen⟩ := monitor_24 h hs
    refine ⟨hsettings, ?_⟩
    have hfirst := inspected_24_down false (w.bond.curr_active_slave == none)
      w.bond.params hlink
    have hvisit : w.visit false s = inspected_24 false (w.bond.curr_active_slave == none)
        w.bond.params false (w.slaves s) := by
      rw [← hcheck]
      rfl
    rw [← hvisit] at hfirst
    obtain ⟨hvlink, hvdown⟩ := hfirst
    rw [hcheck] at hchosen
    by_cases hany : l.any (fun t => (w.visit false t).1) = true
    · rw [if_pos hany] at hchosen
      have hafter : (w.after_visit false l s).link ≠ .back := by
        unfold after_visit
        split_ifs
        · exact hvlink
        · exact hlink
      obtain ⟨hlast, hdown⟩ := inspected_24_down true false w.bond.params hafter
      rw [inspected_24_locked, if_neg (by simp)] at hdown
      rw [hchosen.of_link hlast]
      refine ⟨hlast, ?_⟩
      unfold after_visit at hdown ⊢
      by_cases hin : s ∈ w.visited false l
      · cases hstop : (w.visit false s).1 with
        | true => simpa [recounts, hstop, hin, hvdown] using hdown
        | false =>
          simp only [hin, if_true, hvdown, hstop, Bool.false_eq_true, if_false] at hdown ⊢
          rw [hdown]
          simp [recounts, hany, hin, hstop]
          omega
      · simpa [recounts, hin] using hdown
    · have hstop : (w.visit false s).1 = false := by
        rw [List.any_eq_true] at hany
        simpa using fun hone => hany ⟨s, hs, hone⟩
      rw [if_neg hany] at hchosen
      rw [hchosen.of_link hvlink]
      refine ⟨hvlink, ?_⟩
      rw [hvdown, hstop]
      simp [recounts, hany]

theorem monitor_up (h : w.Watched l) (hs : s ∈ l) (hcheck : w.check s = true)
    (hu : 0 ≤ w.bond.params.updelay) (htimed : Timed (w.slaves s)) :
    w.monitor.settings = w.settings ∧ Timed (w.monitor.slaves s) ∧
      up_in w.bond.params.updelay (w.monitor.slaves s) ≤
        up_in w.bond.params.updelay (w.slaves s) - 1 := by
  unfold monitor
  cases hport : w.port with
  | k27 =>
    obtain ⟨hsettings, x, hfirst, hlast⟩ := monitor_27 h hs
    rw [hcheck] at hfirst
    obtain ⟨hcommitted, hup⟩ := committed_up htimed hfirst
    exact ⟨hsettings, hlast.timed hcommitted, hlast.up_in_le.trans hup⟩
  | k24 =>
    obtain ⟨hsettings, hchosen⟩ := monitor_24 h hs
    refine ⟨hsettings, ?_⟩
    have hfirst := inspected_24_up false (w.bond.curr_active_slave == none)
      w.bond.params hu htimed
    have hvisit : w.visit false s = inspected_24 false (w.bond.curr_active_slave == none)
        w.bond.params true (w.slaves s) := by
      rw [← hcheck]
      rfl
    rw [← hvisit] at hfirst
    obtain ⟨hvtimed, hvup⟩ := hfirst
    rw [hcheck] at hchosen
    by_cases hany : l.any (fun t => (w.visit false t).1) = true
    · rw [if_pos hany] at hchosen
      have hafter : Timed (w.after_visit false l s) ∧
          up_in w.bond.params.updelay (w.after_visit false l s) ≤
            up_in w.bond.params.updelay (w.slaves s) := by
        unfold after_visit
        split_ifs
        · exact ⟨hvtimed, hvup.trans (Nat.sub_le _ _)⟩
        · exact ⟨htimed, le_refl _⟩
      obtain ⟨hlast, hup⟩ := inspected_24_up true false w.bond.params hu hafter.1
      rw [inspected_24_locked, if_neg (by simp)] at hup
      refine ⟨hchosen.timed hlast, hchosen.up_in_le.trans (hup.trans ?_)⟩
      exact Nat.sub_le_sub_right hafter.2 1
    · have hstop : (w.visit false s).1 = false := by
        rw [List.any_eq_true] at hany
        simpa using fun hone => hany ⟨s, hs, hone⟩
      rw [if_neg hany] at hchosen
      rw [hstop] at hvup
      exact ⟨hchosen.timed hvtimed, hchosen.up_in_le.trans hvup⟩

/-! Runs -/

end watched

end World

/-- What happens to a bond while a link is down or up: turns of the monitor, other readings of the
cards, time, and the handover. -/
inductive LinkEvent where
  | mon
  | device (d : DevId) (r : Reading)
  | tick (jiffies : BitVec 64)
  | make
  | brk (env : Skb → PassEnv)

def LinkEvent.is_mon : LinkEvent → Bool
  | .mon => true
  | _ => false

namespace World

variable [Siblings]

def link_step (w : World) : LinkEvent → Option World
  | .mon => some w.monitor
  | .device d r => if d ≠ w.bond.dev then some (w.setDev d (·.read r)) else none
  | .tick jiffies => some { w with jiffies }
  | .make => some w.bond_ioctl_make.2
  | .brk env => (w.bond_ioctl_break env).map (·.2)

omit [Siblings] in
def turns (es : List LinkEvent) : Nat := es.countP (·.is_mon)

def ticks (l : List SlaveId) (s : SlaveId) : World → List LinkEvent → Nat
  | _, [] => 0
  | w, e :: es => (if e.is_mon then w.counted l s else 0) +
      (w.link_step e).elim 0 fun v => ticks l s v es

section runs

variable {w v : World} {l : List SlaveId} {s : SlaveId}

theorem change_active_chosen (h : w.bond.params.mode = .hoolock) (new : Option SlaveId) :
    (w.bond_change_active_slave new).settings = w.settings ∧
      Chosen (w.slaves s) ((w.bond_change_active_slave new).slaves s) := by
  have hport : (w.bond_change_active_slave new).port = w.port :=
    congrArg Core.port (core_change_active w new)
  refine ⟨settings_of_bond (shape_change_active w new) hport (change_active_bond h new), ?_⟩
  rw [change_active_slaves h]
  split_ifs
  · exact Or.inr rfl
  · exact Chosen.refl _

theorem link_step_aside (h : w.Watched l) {e : LinkEvent} (he : e.is_mon = false)
    (hv : w.link_step e = some v) : v.settings = w.settings ∧ Chosen (w.slaves s) (v.slaves s) := by
  cases e with
  | mon => cases he
  | device d r =>
    simp only [link_step] at hv
    split_ifs at hv
    cases hv
    exact ⟨rfl, Chosen.refl _⟩
  | tick jiffies =>
    cases hv
    exact ⟨rfl, Chosen.refl _⟩
  | make =>
    cases hv
    cases hp : w.passive_slave with
    | none =>
      rw [make_none hp]
      exact ⟨rfl, Chosen.refl _⟩
    | some t =>
      have hm : w.make_begun.bond.params.mode = .hoolock := h.mode
      rw [make_some hp]
      exact change_active_chosen hm (some t)
  | brk env =>
    obtain ⟨⟨r, x⟩, hr, rfl⟩ := Option.map_eq_some_iff.mp hv
    have hclosed : Closed bond_hoolock_recv fun x => x.settings = w.settings ∧
        x.slaves = w.slaves :=
      { recv := fun x skb d hx => by
          have hsame := recv_sansTraffic x skb d
          exact ⟨(congrArg settings hsame).trans hx.1, (congrArg World.slaves hsame).trans hx.2⟩
        users := fun _ _ hx => hx
        note := fun _ _ hx => hx }
    obtain ⟨u, hu, rfl⟩ := hclosed.break_ends (fun y hy => hy) hr ⟨rfl, rfl⟩
    exact ⟨hu.1, Or.inl (congrFun hu.2 s)⟩

theorem run_down (h : w.Watched l) (hs : s ∈ l) (hlink : (w.slaves s).link ≠ .back)
    {es : List LinkEvent} (hv : Transition.run link_step w es = some v)
    (hdown : Transition.Along (fun w e => e.is_mon = true → w.check s = false) link_step w es) :
    v.settings = w.settings ∧ down_in w.bond.params.downdelay (v.slaves s) =
      down_in w.bond.params.downdelay (w.slaves s) - ticks l s w es := by
  induction es generalizing w with
  | nil =>
    cases hv
    simp [ticks]
  | cons e rest ih =>
    obtain ⟨u, hu, hrest⟩ := Transition.run_cons_some.mp hv
    obtain ⟨hfirst, hafter⟩ := hdown
    have hticks : ticks l s w (e :: rest) =
        (if e.is_mon then w.counted l s else 0) + ticks l s u rest := by
      simp only [ticks, hu, Option.elim_some]
    rw [hticks]
    cases he : e.is_mon with
    | false =>
      obtain ⟨hsettings, hchosen⟩ := link_step_aside (s := s) h he hu
      have hsame := hchosen.of_link hlink
      obtain ⟨hlast, hcount⟩ := ih (h.of_settings hsettings) (hsame ▸ hlink) hrest (hafter u hu)
      rw [params_of_settings hsettings, hsame] at hcount
      refine ⟨hlast.trans hsettings, hcount.trans ?_⟩
      simp
    | true =>
      cases e with
      | mon =>
        cases hu
        obtain ⟨hsettings, hback, hcounted⟩ := monitor_down h hs (hfirst rfl) hlink
        obtain ⟨hlast, hcount⟩ := ih (h.of_settings hsettings) hback hrest (hafter _ rfl)
        rw [params_of_settings hsettings, hcounted] at hcount
        refine ⟨hlast.trans hsettings, hcount.trans ?_⟩
        simp only [if_true]
        omega
      | device d r => cases he
      | tick jiffies => cases he
      | make => cases he
      | brk env => cases he

theorem link_step_settings (h : w.Watched l) (hs : s ∈ l) {e : LinkEvent}
    (hv : w.link_step e = some v) : v.settings = w.settings := by
  cases he : e.is_mon with
  | false => exact (link_step_aside (s := s) h he hv).1
  | true =>
    cases e with
    | mon =>
      cases hv
      unfold monitor
      cases w.port with
      | k27 => exact (monitor_27 h hs).1
      | k24 => exact (monitor_24 h hs).1
    | device d r => cases he
    | tick jiffies => cases he
    | make => cases he
    | brk env => cases he

theorem ticks_bounds (h : w.Watched l) (hs : s ∈ l) {es : List LinkEvent}
    (hv : Transition.run link_step w es = some v) :
    turns es ≤ ticks l s w es ∧ ticks l s w es ≤ 2 * turns es ∧
      (w.port = .k27 → ticks l s w es = turns es) := by
  induction es generalizing w with
  | nil => simp [ticks, turns]
  | cons e rest ih =>
    obtain ⟨u, hu, hrest⟩ := Transition.run_cons_some.mp hv
    have hsettings := link_step_settings h hs hu
    obtain ⟨hleast, hmost, hexact⟩ := ih (h.of_settings hsettings) hrest
    have hticks : ticks l s w (e :: rest) =
        (if e.is_mon then w.counted l s else 0) + ticks l s u rest := by
      simp only [ticks, hu, Option.elim_some]
    have hturns : turns (e :: rest) = (if e.is_mon then 1 else 0) + turns rest := by
      unfold turns
      rw [List.countP_cons]
      omega
    rw [port_of_settings hsettings] at hexact
    rw [hticks, hturns]
    unfold counted
    refine ⟨?_, ?_, fun hport => ?_⟩
    · split_ifs <;> omega
    · split_ifs <;> omega
    · rw [hexact hport]
      simp [hport]

/-- A link that reads down at every turn counts as down as soon as its delay is over. In 2.6.27
each turn takes one off the delay, in 2.6.24 one or two. -/
theorem down_delay (h : w.Watched l) (hs : s ∈ l) (hlink : (w.slaves s).link ≠ .back)
    {es : List LinkEvent} (hv : Transition.run link_step w es = some v)
    (hdown : Transition.Along (fun w e => e.is_mon = true → w.check s = false) link_step w es) :
    ((v.slaves s).link = .down ↔
        down_in w.bond.params.downdelay (w.slaves s) ≤ ticks l s w es) ∧
      turns es ≤ ticks l s w es ∧ ticks l s w es ≤ 2 * turns es ∧
      (w.port = .k27 → ticks l s w es = turns es) := by
  obtain ⟨hsettings, hcount⟩ := run_down h hs hlink hv hdown
  refine ⟨?_, ticks_bounds h hs hv⟩
  rw [← down_in_eq_zero (d := w.bond.params.downdelay), hcount]
  exact Nat.sub_eq_zero_iff_le

omit [Siblings] in
def delayed_bond (port : Port) (updelay downdelay : Int) : Option World :=
  (Transition.run (@World.step noSiblings)
    (machine.bond_init 0 { hoolock_params with updelay, downdelay }) two_slaves).map
    fun u => { u with port }

omit [Siblings] in
def second_card_fails (port : Port) : Option World :=
  (delayed_bond port 0 2).bind fun w => Transition.run (@link_step noSiblings) w
    [.device 2 .no_carrier, .mon, .mon]

omit [Siblings] in
theorem watched_of_checks {w : World} (h : ((w.slaves 0).next == some 1 &&
    (w.slaves 1).next == some 0 && (w.slaves 0).prev == some 1 && (w.slaves 1).prev == some 0 &&
    w.bond.first_slave == some 0 && w.bond.slave_cnt == 2 && w.bond.params.mode == .hoolock &&
    w.bond.kill_timers == false) = true) : w.Watched [0, 1] := by
  simp only [Bool.and_eq_true, beq_iff_eq] at h
  obtain ⟨⟨⟨⟨⟨⟨⟨hn0, hn1⟩, hp0⟩, hp1⟩, hfirst⟩, hcount⟩, hmode⟩, hruns⟩ := h
  exact ⟨ring_of_two ⟨hn0, hn1⟩ ⟨hp0, hp1⟩ hfirst hcount, hmode, hruns⟩

omit [Siblings] in
/-- The first card fails too: the turn in which the second is taken down counts double. -/
theorem first_card_down_early : ∃ w v, second_card_fails .k24 = some w ∧
    Transition.run (@link_step noSiblings) w [.device 1 .no_carrier, .mon, .mon] = some v ∧
    (v.slaves 0).link = .down := by
  have hrun : (second_card_fails .k24).any (fun w => ((w.slaves 0).next == some 1 &&
        (w.slaves 1).next == some 0 && (w.slaves 0).prev == some 1 &&
        (w.slaves 1).prev == some 0 && w.bond.first_slave == some 0 && w.bond.slave_cnt == 2 &&
        w.bond.params.mode == .hoolock && w.bond.kill_timers == false) &&
      ((w.slaves 0).link == .up && (Transition.run (@link_step noSiblings) w
        [.device 1 .no_carrier, .mon, .mon]).isSome && Transition.checks
          (fun w e => !e.is_mon || !w.check 0) (@link_step noSiblings) w
          [.device 1 .no_carrier, .mon, .mon] &&
        decide (down_in w.bond.params.downdelay (w.slaves 0) ≤
          @ticks noSiblings [0, 1] 0 w [.device 1 .no_carrier, .mon, .mon]))) = true := by
    decide +kernel
  obtain ⟨w, hw, hcond⟩ := (Option.any_eq_true _ _).mp hrun
  rw [Bool.and_eq_true] at hcond
  have hwatched := watched_of_checks hcond.1
  simp only [Bool.and_eq_true, beq_iff_eq, decide_eq_true_eq] at hcond
  obtain ⟨-, ⟨⟨hlink, hsome⟩, hchecks⟩, hover⟩ := hcond
  obtain ⟨v, hv⟩ := Option.isSome_iff_exists.mp hsome
  have hdown := Transition.along_of_checks
    (C := fun w e => LinkEvent.is_mon e = true → w.check 0 = false)
    (fun w e hc he => by simpa [he] using hc) hchecks
  exact ⟨w, v, hw, hv, (@down_delay noSiblings w v [0, 1] 0 hwatched (by decide) (by simp [hlink])
    _ hv hdown).1.mpr hover⟩

/-- A link that reads up at every turn counts as up when its delay is over, in both kernels. -/
theorem up_delay (h : w.Watched l) (hs : s ∈ l) (hu : 0 ≤ w.bond.params.updelay)
    (htimed : Timed (w.slaves s)) {es : List LinkEvent}
    (hv : Transition.run link_step w es = some v)
    (hup : Transition.Along (fun w e => e.is_mon = true → w.check s = true) link_step w es)
    (hover : up_in w.bond.params.updelay (w.slaves s) ≤ turns es) : (v.slaves s).link = .up := by
  rw [← up_in_eq_zero (u := w.bond.params.updelay)]
  induction es generalizing w with
  | nil =>
    cases hv
    simpa [turns] using hover
  | cons e rest ih =>
    obtain ⟨u, hstep, hrest⟩ := Transition.run_cons_some.mp hv
    obtain ⟨hfirst, hafter⟩ := hup
    have hturns : turns (e :: rest) = turns rest + if e.is_mon then 1 else 0 :=
      List.countP_cons ..
    have hsettings := link_step_settings h hs hstep
    have hnext : Timed (u.slaves s) ∧
        up_in w.bond.params.updelay (u.slaves s) ≤ turns rest := by
      cases he : e.is_mon with
      | false =>
        obtain ⟨-, hchosen⟩ := link_step_aside (s := s) h he hstep
        rw [hturns, he] at hover
        exact ⟨hchosen.timed htimed, hchosen.up_in_le.trans (by simpa using hover)⟩
      | true =>
        cases e with
        | mon =>
          cases hstep
          obtain ⟨-, hlater, hless⟩ := monitor_up h hs (hfirst rfl) hu htimed
          rw [hturns, he] at hover
          simp only [if_true] at hover
          exact ⟨hlater, by omega⟩
        | device d r => cases he
        | tick jiffies => cases he
        | make => cases he
        | brk env => cases he
    have hparams := params_of_settings hsettings
    have hlast := ih (h.of_settings hsettings) (hparams ▸ hu) hnext.1 hrest (hafter u hstep)
      (hparams ▸ hnext.2)
    rw [hparams] at hlast
    exact hlast

omit [Siblings] in
/-- The second card that has joined waits out its delay. -/
theorem second_card_up : ∃ w v, delayed_bond .k24 2 0 = some w ∧
    Transition.run (@link_step noSiblings) w [.mon, .make, .mon, .mon] = some v ∧
    (v.slaves 1).link = .up := by
  have hrun : (delayed_bond .k24 2 0).any (fun w => ((w.slaves 0).next == some 1 &&
        (w.slaves 1).next == some 0 && (w.slaves 0).prev == some 1 &&
        (w.slaves 1).prev == some 0 && w.bond.first_slave == some 0 && w.bond.slave_cnt == 2 &&
        w.bond.params.mode == .hoolock && w.bond.kill_timers == false) &&
      ((Transition.run (@link_step noSiblings) w [.mon, .make, .mon, .mon]).isSome &&
        Transition.checks (fun w e => !e.is_mon || w.check 1) (@link_step noSiblings) w
          [.mon, .make, .mon, .mon] && decide (0 ≤ w.bond.params.updelay) &&
        decide (0 ≤ (w.slaves 1).delay) &&
        decide (up_in w.bond.params.updelay (w.slaves 1) ≤ turns [.mon, .make, .mon, .mon]))) =
      true := by
    decide +kernel
  obtain ⟨w, hw, hcond⟩ := (Option.any_eq_true _ _).mp hrun
  rw [Bool.and_eq_true] at hcond
  have hwatched := watched_of_checks hcond.1
  simp only [Bool.and_eq_true, decide_eq_true_eq] at hcond
  obtain ⟨-, ⟨⟨⟨hsome, hchecks⟩, hu⟩, hdelay⟩, hover⟩ := hcond
  obtain ⟨v, hv⟩ := Option.isSome_iff_exists.mp hsome
  have hup := Transition.along_of_checks
    (C := fun w e => LinkEvent.is_mon e = true → w.check 1 = true)
    (fun w e hc he => by simpa [he] using hc) hchecks
  exact ⟨w, v, hw, hv, @up_delay noSiblings w v [0, 1] 1 hwatched (by decide) hu
    (fun _ => hdelay) _ hv hup hover⟩

end runs

end World

end Hoolock
