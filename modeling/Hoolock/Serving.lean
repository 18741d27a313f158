import Hoolock.FilterMoves
import Hoolock.MakeOutcome

/-!
A bond is served while the active slave's link is in use if any slave's is.  Enslaving hands the
bond over only when nobody has it, and a release only when the active slave leaves.
-/

set_option autoImplicit false

namespace Hoolock

/-- A link in use: up, or not yet given up. -/
def Slave.alive (x : Slave) : Bool := x.link == .up || x.link == .fail

theorem Slave.alive_iff (x : Slave) : x.alive = true ↔ x.link = .up ∨ x.link = .fail := by
  simp [Slave.alive]

def Slave.standing (x : Slave) : Link × SlaveState := (x.link, x.state)

theorem alive_of_standing {x y : Slave} (h : x.standing = y.standing) : x.alive = y.alive := by
  have hlink : x.link = y.link := congrArg Prod.fst h
  simp [Slave.alive, hlink]

namespace World

theorem promoted_standing {x : Slave} (h : x.link = .up ∨ x.link = .back) :
    (promoted x).standing = (.up, x.state) := by
  unfold promoted Slave.standing
  rcases h with h | h
  · simp [h]
  · simp [h]

theorem promoted_same {x : Slave} (h : x.link ≠ .back) : promoted x = x := by
  unfold promoted
  rw [if_neg h]

/-- The ring `l` is all there is, its slaves may all send, and if one of them has a link in
use the active slave has. -/
structure Serving (w : World) (l : List SlaveId) : Prop extends w.Inv l where
  state : ∀ s ∈ l, (w.slaves s).state = .active
  served : ∀ s ∈ l, (w.slaves s).alive = true →
    ∃ a, w.bond.curr_active_slave = some a ∧ (w.slaves a).alive = true

/-- No link is given time before it counts as down, and those that are up have a device with
carrier. -/
def Settled (w : World) : Prop :=
  ∀ s ∈ w.bond_for_each_slave, (w.slaves s).link ≠ .fail ∧
    ((w.slaves s).link = .up → IS_UP (w.slave_dev s) = true)

instance (w : World) : Decidable w.Settled := by
  unfold Settled
  infer_instance

theorem Serving.transmits {w : World} {l : List SlaveId} (h : w.Serving l) (hset : w.Settled)
    {s : SlaveId} (hs : s ∈ l) (hup : (w.slaves s).link = .up) :
    ∃ a ∈ l, w.bond.curr_active_slave = some a ∧ w.transmits a := by
  obtain ⟨a, ha, halive⟩ := h.served s hs (by simp [Slave.alive, hup])
  have hal : a ∈ l := h.active a ha
  unfold Settled at hset
  rw [h.for_each] at hset
  obtain ⟨hfail, hdev⟩ := hset a hal
  have hlink : (w.slaves a).link = .up :=
    ((w.slaves a).alive_iff.mp halive).resolve_right hfail
  exact ⟨a, hal, ha, hdev hlink, hlink, h.state a hal⟩

structure SameLinks (w v : World) : Prop where
  slaves : ∀ t, (v.slaves t).standing = (w.slaves t).standing
  active : v.bond.curr_active_slave = w.bond.curr_active_slave

theorem Serving.same {w v : World} {l : List SlaveId} (h : w.Serving l) (hv : v.Inv l)
    (hs : SameLinks w v) : v.Serving l := by
  refine { toInv := hv, state := fun s hsl => ?_, served := fun s hsl halive => ?_ }
  · exact (congrArg Prod.snd (hs.slaves s)).trans (h.state s hsl)
  · rw [alive_of_standing (hs.slaves s)] at halive
    obtain ⟨a, ha, haa⟩ := h.served s hsl halive
    exact ⟨a, hs.active.trans ha, (alive_of_standing (hs.slaves a)).trans haa⟩

theorem serving_nil {w : World} (h : w.Inv []) : w.Serving [] :=
  { toInv := h, state := fun _ hs => absurd hs (by simp), served := fun _ hs => absurd hs (by simp) }

def reading (w : World) (d : DevId) : Nat × Int × Bool × Bool × Option Bool × Option Bool :=
  (w.bond.params.miimon, w.bond.params.updelay, w.bond.params.use_carrier, (w.devs d).carrier,
    (w.devs d).mii_link, (w.devs d).ethtool_link)

theorem first_link_of_reading {w v : World} {d : DevId} (h : v.reading d = w.reading d) :
    v.first_link d = w.first_link d := by
  simp only [reading, Prod.mk.injEq] at h
  obtain ⟨hmii, hup, huse, hcarrier, hlink, hethtool⟩ := h
  unfold first_link bond_check_dev_link
  rw [hmii, hup, huse, hcarrier, hlink, hethtool]

theorem reading_setDev (w : World) (e : DevId) {f : NetDevice → NetDevice}
    (hf : ∀ dev : NetDevice, (f dev).carrier = dev.carrier ∧ (f dev).mii_link = dev.mii_link ∧
      (f dev).ethtool_link = dev.ethtool_link) (d : DevId) :
    (w.setDev e f).reading d = w.reading d := by
  obtain ⟨hcarrier, hlink, hethtool⟩ := hf (w.devs d)
  unfold reading setDev
  by_cases h : d = e
  · subst h
    simp [hcarrier, hlink, hethtool]
  · simp [h]

theorem reading_prepared (w : World) (d e : DevId) :
    (w.enslave_prepared d).reading e = w.reading e := by
  have hfeatures : ∀ (x : World) (g : BitVec 64 → BitVec 64),
      (x.setFeatures g).reading e = x.reading e :=
    fun x g => reading_setDev x x.bond.dev (f := fun dev => { dev with features := g dev.features })
      (fun _ => ⟨rfl, rfl, rfl⟩) e
  have hvlan : ∀ x : World, (x.enslave_vlan d).reading e = x.reading e := by
    intro x
    unfold enslave_vlan
    split_ifs
    · exact hfeatures x _
    · exact hfeatures x _
    · rfl
  have htype : ∀ x : World, (x.enslave_type d).reading e = x.reading e := by
    intro x
    unfold enslave_type bond_setup_by_slave
    dsimp only
    split_ifs
    · exact reading_setDev x x.bond.dev (f := fun dev =>
        { dev with
          type := (x.devs d).type, hard_header_len := (x.devs d).hard_header_len
          addr_len := (x.devs d).addr_len }) (fun _ => ⟨rfl, rfl, rfl⟩) e
    · rfl
  have hfom : ∀ x : World, (x.enslave_fom d).reading e = x.reading e := by
    intro x
    unfold enslave_fom
    split_ifs <;> rfl
  unfold enslave_prepared
  rw [hfom, htype, hvlan]

theorem reading_ready (env : EnslaveEnv) (w : World) (d : DevId) (s : SlaveId) (e : DevId) :
    (enslave_ready env w d s).reading e = w.reading e := by
  have hset : ∀ a n (dev : NetDevice), (dev_set_mac_address a n dev).2.carrier = dev.carrier ∧
      (dev_set_mac_address a n dev).2.mii_link = dev.mii_link ∧
      (dev_set_mac_address a n dev).2.ethtool_link = dev.ethtool_link := by
    intro a n dev
    unfold dev_set_mac_address
    split
    · exact ⟨rfl, rfl, rfl⟩
    · split_ifs <;> exact ⟨rfl, rfl, rfl⟩
  have hmaster : ∀ m (dev : NetDevice), (netdev_set_master (some m) dev).2.carrier = dev.carrier ∧
      (netdev_set_master (some m) dev).2.mii_link = dev.mii_link ∧
      (netdev_set_master (some m) dev).2.ethtool_link = dev.ethtool_link := by
    intro m dev
    unfold netdev_set_master
    dsimp only
    split_ifs <;> exact ⟨rfl, rfl, rfl⟩
  have hopen : ∀ r (dev : NetDevice), (dev_open r dev).2.carrier = dev.carrier ∧
      (dev_open r dev).2.mii_link = dev.mii_link ∧
      (dev_open r dev).2.ethtool_link = dev.ethtool_link := by
    intro r dev
    unfold dev_open
    split_ifs <;> exact ⟨rfl, rfl, rfl⟩
  have hmac : ∀ x : World, (x.enslave_mac d).2.reading e = x.reading e := by
    intro x
    unfold enslave_mac
    split_ifs
    · exact reading_setDev x d (fun dev => hset _ _ dev) e
    · rfl
  obtain ⟨x, hx⟩ : ∃ x, x = ((w.enslave_record d s).enslave_mac d).2 := ⟨_, rfl⟩
  have hxr : x.reading e = w.reading e := hx ▸ hmac (w.enslave_record d s)
  unfold enslave_ready
  dsimp only
  rw [← hx]
  exact ((reading_setDev _ d (fun dev => hopen env.open_slave dev) e).trans
    (reading_setDev x d (fun dev => hmaster x.bond.dev dev) e)).trans hxr

theorem ready_slaves (env : EnslaveEnv) (w : World) (d : DevId) {s t : SlaveId} (ht : t ≠ s) :
    (enslave_ready env w d s).slaves t = w.slaves t := by
  have hrecord : (w.enslave_record d s).slaves t = w.slaves t := by
    unfold enslave_record kzalloc_slave
    simp [setSlave, ht]
  have hmac : ((w.enslave_record d s).enslave_mac d).2.slaves t =
      (w.enslave_record d s).slaves t := by
    unfold enslave_mac
    split_ifs <;> rfl
  exact hmac.trans hrecord

variable [Siblings]

theorem enslave_mode_standing {b : World} (h : b.bond.params.mode = .hoolock) (s : SlaveId) :
    ((b.enslave_mode s).slaves s).state = .active ∧
    (∀ t, t ≠ s → ((b.enslave_mode s).slaves t).standing = (b.slaves t).standing) ∧
    (b.bond.curr_active_slave ≠ none → ((b.enslave_mode s).slaves s).link = (b.slaves s).link) := by
  obtain ⟨x, hx⟩ : ∃ x, x = b.bond_set_slave_active_flags s := ⟨_, rfl⟩
  have hxm : x.bond.params.mode = .hoolock := hx ▸ h
  have hxself : x.slaves s = { b.slaves s with state := .active } :=
    hx ▸ setSlave_self b s fun s => { s with state := .active }
  have hxother : ∀ t, t ≠ s → x.slaves t = b.slaves t :=
    fun t ht => hx ▸ setSlave_other b (fun s => { s with state := .active }) ht
  have hxa : x.bond.curr_active_slave = b.bond.curr_active_slave := by
    rw [hx]
    rfl
  have hkept : ∀ y : Slave, (promoted y).state = y.state := by
    intro y
    unfold promoted
    split_ifs <;> rfl
  rw [enslave_mode_hoolock h, ← hx]
  split_ifs with hnone
  · refine ⟨?_, fun t ht => ?_, fun hne => absurd hnone hne⟩
    · rw [change_active_slaves hxm]
      split_ifs
      · rw [hkept, hxself]
      · rw [hxself]
    · have hst : ¬ (some s = some t ∧ x.bond.curr_active_slave ≠ some s) :=
        fun hboth => ht (Option.some.inj hboth.1).symm
      rw [change_active_slaves hxm, if_neg hst, hxother t ht]
  · refine ⟨by rw [hxself], fun t ht => by rw [hxother t ht], fun _ => by rw [hxself]⟩

/-- What a successful call does to the links: the new slave may send, and unless it becomes
the active one its link starts as the test says. -/
theorem Inv.enslave_links {w : World} {l : List SlaveId} (h : w.Inv l) {env : EnslaveEnv}
    {d : DevId} (hret : (bond_enslave env w d).1 = 0) :
    ∃ s, env.new_slave = some s ∧ Enslaved w (bond_enslave env w d).2 s d ∧
      ((bond_enslave env w d).2.slaves s).state = .active ∧
      (∀ t, t ≠ s → ((bond_enslave env w d).2.slaves t).standing = (w.slaves t).standing) ∧
      (w.bond.curr_active_slave ≠ none →
        ((bond_enslave env w d).2.slaves s).link = w.first_link d) := by
  obtain ⟨s, hs, he, heq⟩ := bond_enslave_zero h.port h.mode hret
  have hprep := prepared w d
  obtain ⟨x, hx⟩ : ∃ x, x = enslave_ready env (w.enslave_prepared d) d s := ⟨_, rfl⟩
  have hxb : x.bond = (w.enslave_prepared d).bond := hx ▸ ready_bond env _ d s
  have hcore : x.core = w.core := hx ▸ core_ready env w d s
  obtain ⟨y, hlinked, hjoined⟩ := enslave_joined_eq x d s
  have hyport : y.port = .k27 := hlinked.port.trans ((congrArg Core.port hcore).trans h.port)
  have hymode : y.bond.params.mode = .hoolock := by
    rw [hlinked.bond]
    exact (congrArg Core.mode hcore).trans h.mode
  have hyactive : y.bond.curr_active_slave = w.bond.curr_active_slave := by
    rw [hlinked.bond, hxb]
    exact congrArg Holdings.curr_active_slave hprep.holdings
  have hyother : ∀ t, t ≠ s → (y.slaves t).standing = (w.slaves t).standing := by
    intro t ht
    rw [hlinked.others t ht, hx, ready_slaves env _ d ht, hprep.slaves]
  have hyread : y.reading d = w.reading d := by
    have hyx : y.reading d = x.reading d := by
      unfold reading
      rw [hlinked.bond, hlinked.devs, if_pos rfl]
    rw [hyx, hx, reading_ready, reading_prepared]
  obtain ⟨b, hatt, hattach⟩ := enslave_attach_eq hyport d s
  have hbm : b.bond.params.mode = .hoolock := by
    rw [hatt.params]
    exact hymode
  obtain ⟨hstate, hothers, hlink⟩ := enslave_mode_standing hbm s
  have hv : (bond_enslave env w d).2 =
      ((b.enslave_mode s).unlock .curr_slave .write).bond_set_carrier.2.unlock .bond .read := by
    rw [heq, ← hx, hjoined, hattach]
  have hvs : ∀ t, (bond_enslave env w d).2.slaves t = (b.enslave_mode s).slaves t := by
    intro t
    have hm : ((b.enslave_mode s).unlock .curr_slave .write).bond.params.mode = .hoolock :=
      (congrArg Core.mode (core_enslave_mode b s)).trans hbm
    rw [hv]
    exact congrFun (set_carrier_slaves hm) t
  refine ⟨s, hs, he, ?_, fun t ht => ?_, fun hne => ?_⟩
  · rw [hvs]
    exact hstate
  · have hbt : (b.slaves t).standing = (y.slaves t).standing :=
      Prod.ext (hatt.others t ht).1 (hatt.others t ht).2
    rw [hvs, hothers t ht, hbt, hyother t ht]
  · rw [hvs, hlink (by rw [hatt.active, hyactive]; exact hne), hatt.link]
    exact first_link_of_reading hyread

/-- A new slave does no harm unless it comes with its link up while the active one's is down. -/
theorem Serving.enslave {w : World} {l : List SlaveId} (h : w.Serving l) {env : EnslaveEnv}
    {d : DevId} (hd : d ≠ w.bond.dev) (hnew : env.new_slave.all fun s => !w.live s)
    (hret : (bond_enslave env w d).1 = 0)
    (hcond : ∀ a, w.bond.curr_active_slave = some a → (w.slaves a).alive = false →
      w.first_link d ≠ .up) :
    ∃ m, (bond_enslave env w d).2.Serving m := by
  obtain ⟨s, hs, he, hstate, hother, hlink⟩ := h.toInv.enslave_links hret
  have hlive : w.live s = false := by
    rw [hs] at hnew
    simpa using hnew
  have hinv := h.toInv.after_enslave hlive hd he (core_bond_enslave env w d)
  have hmem : ∀ t, t ∈ l ++ [s] → t ∈ l ∨ t = s := by simp
  have hfresh : ∀ t ∈ l, t ≠ s := by
    rintro t ht rfl
    rw [h.live t ht] at hlive
    cases hlive
  refine ⟨l ++ [s], { toInv := hinv, state := fun t ht => ?_, served := fun t ht halive => ?_ }⟩
  · rcases hmem t ht with hold | rfl
    · exact (congrArg Prod.snd (hother t (hfresh t hold))).trans (h.state t hold)
    · exact hstate
  · -- the active slave, if there was one, is who it was
    have hkept : ∀ a, w.bond.curr_active_slave = some a → (w.slaves a).alive = true →
        ∃ b, (bond_enslave env w d).2.bond.curr_active_slave = some b ∧
          ((bond_enslave env w d).2.slaves b).alive = true := by
      intro a ha haa
      refine ⟨a, ?_, ?_⟩
      · rw [he.active, ha]
        rfl
      · rw [alive_of_standing (hother a (hfresh a (h.active a ha)))]
        exact haa
    rcases hmem t ht with hold | rfl
    · rw [alive_of_standing (hother t (hfresh t hold))] at halive
      obtain ⟨a, ha, haa⟩ := h.served t hold halive
      exact hkept a ha haa
    · cases ha : w.bond.curr_active_slave with
      | none =>
        refine ⟨t, ?_, halive⟩
        rw [he.active, ha]
        rfl
      | some a =>
        refine hkept a ha ?_
        have hfirst := hlink (by simp [ha])
        by_contra hdown
        have hnot := hcond a ha (by simpa using hdown)
        rcases ((bond_enslave env w d).2.slaves t).alive_iff.mp halive with hup | hfail
        · exact hnot (hfirst.symm.trans hup)
        · rw [hfirst] at hfail
          unfold first_link at hfail
          split_ifs at hfail

theorem release_master_slaves {w : World} (h : w.bond.params.mode = .hoolock) :
    w.release_master.slaves = w.slaves := by
  have hclear : ∀ x : World, x.clear_master.slaves = x.slaves := by
    intro x
    unfold clear_master
    dsimp only
    split_ifs <;> rfl
  unfold release_master
  split_ifs
  · exact (hclear _).trans (set_carrier_slaves h)
  · rfl
  · rfl

omit [Siblings] in
theorem release_device_slaves (w : World) (s : SlaveId) (d : DevId) (r : Bool) :
    (w.release_device s d r).slaves = w.slaves := by
  have hfilter : ∀ x : World, (x.release_filter d).slaves = x.slaves := by
    intro x
    unfold release_filter
    dsimp only
    split_ifs <;> rfl
  unfold release_device
  dsimp only
  split_ifs <;> exact hfilter w.bond_del_vlans_from_slave

theorem release_detach_standing {w : World} {l : List SlaveId}
    (hm : w.bond.params.mode = .hoolock) (h : w.Members l) {s : SlaveId} (hs : s ∈ l) (t : SlaveId) :
    ((w.release_detach s).slaves t).standing =
      if w.bond.curr_active_slave = some s ∧
        (w.release_detach s).bond.curr_active_slave = some t then (.up, (w.slaves t).state)
      else (w.slaves t).standing := by
  obtain ⟨a, ha⟩ : ∃ a, a = (w.bond_detach_slave s).bond_compute_features.release_pointers s :=
    ⟨_, rfl⟩
  have ham : a.bond.params.mode = .hoolock := by
    rw [ha]
    exact hm
  have has : ∀ t, (a.slaves t).standing = (w.slaves t).standing := by
    intro t
    rw [ha]
    rfl
  rw [release_detach_hoolock hm, ← ha]
  by_cases hact : w.bond.curr_active_slave = some s
  · obtain ⟨x, hx⟩ : ∃ x, x = (((a.bond_change_active_slave none).unlock .bond .write).lock .bond
        .read).lock .curr_slave .write := ⟨_, rfl⟩
    obtain ⟨hxb, hxmem⟩ := detached_members hm h hs ha hx
    have hxm : x.bond.params.mode = .hoolock := by
      rw [hxb]
      exact ham
    have hxs : ∀ t, x.slaves t = a.slaves t := by
      intro t
      have hnone := change_active_slaves ham none t
      rw [if_neg (by simp)] at hnone
      rw [hx]
      exact hnone
    have hxnone : x.bond.curr_active_slave = none := by rw [hxb]
    obtain ⟨y, hy⟩ : ∃ y, y = (a.bond_change_active_slave none).release_reselect := ⟨_, rfl⟩
    have hyx : y.bond = x.bond_select_active_slave.bond ∧
        y.slaves = x.bond_select_active_slave.slaves := by
      rw [hy]
      unfold release_reselect
      dsimp only
      rw [← hx]
      exact ⟨rfl, rfl⟩
    have hyb : y.bond = { x.bond with curr_active_slave := x.bond_find_best_slave } :=
      hyx.1.trans (select_active_bond hxm)
    have hym : y.bond.params.mode = .hoolock := by
      rw [hyb]
      exact hxm
    rw [if_pos hact, ← hy, release_master_slaves hym, (release_master_spec hym).1, hyx.2,
      select_active_slave hxm, hxnone, hyb, hxs]
    simp only [hact, true_and, ne_eq, reduceCtorEq, not_false_eq_true, and_true]
    split_ifs with hbest
    · have husable := hxmem.best_usable hbest
      have hlink : (a.slaves t).link = .up ∨ (a.slaves t).link = .back := by
        rw [← hxs]
        exact husable.2.imp_right And.left
      have hstate : (a.slaves t).state = (w.slaves t).state := congrArg Prod.snd (has t)
      rw [promoted_standing hlink, hstate]
    · exact has t
  · rw [if_neg hact, if_neg fun hboth => hact hboth.1, release_master_slaves ham]
    exact has t

/-- A release leaves the bond served if somebody who can takes over, or nobody needs to. -/
def ReleaseServes (w : World) (d : DevId) : Prop :=
  ∀ a ∈ w.bond.curr_active_slave, (w.slaves a).dev = d →
    (∃ t ∈ w.bond_for_each_slave, t ≠ a ∧ w.Usable t) ∨
    ∀ t ∈ w.bond_for_each_slave, t ≠ a → (w.slaves t).alive = false

theorem Serving.release {w v : World} {l : List SlaveId} (h : w.Serving l) {d : DevId}
    (hcond : w.ReleaseServes d) (hr : w.bond_release d = (0, v)) : ∃ m, v.Serving m := by
  obtain ⟨s, hs, hsd, -, hres, hinv⟩ := h.toInv.release hr
  obtain ⟨s', hs', hsd', -, r, hv⟩ := h.toInv.release_eq hr
  obtain rfl : s = s' := h.distinct s' hs' s hs (hsd.trans hsd'.symm)
  obtain ⟨x, hx⟩ : ∃ x, x = (w.lock .bond .write).release_detach s := ⟨_, rfl⟩
  rw [← hx] at hv
  have hmem : (w.lock .bond .write).Members l :=
    { toRing := h.toRing.congr rfl rfl rfl, active := h.active, primary := h.primary }
  have hvb : v.bond = x.bond := by
    rw [hv]
    exact release_device_bond _ _ _ _
  have hvs : v.slaves = x.slaves := by
    rw [hv]
    exact release_device_slaves _ _ _ _
  have hstanding : ∀ t, (v.slaves t).standing =
      if w.bond.curr_active_slave = some s ∧ v.bond.curr_active_slave = some t then
        (.up, (w.slaves t).state) else (w.slaves t).standing := by
    intro t
    rw [hvs, hvb, hx]
    exact release_detach_standing (w := w.lock .bond .write) h.mode hmem hs t
  have herase : ∀ t, t ∈ l.erase s ↔ t ≠ s ∧ t ∈ l := fun t => h.nodup.mem_erase_iff
  refine ⟨l.erase s, { toInv := hinv, state := fun t ht => ?_, served := fun t ht halive => ?_ }⟩
  · have hstate : (v.slaves t).state = (w.slaves t).state := by
      have hsnd := congrArg Prod.snd (hstanding t)
      split_ifs at hsnd <;> exact hsnd
    exact hstate.trans (h.state t ((herase t).mp ht).2)
  · by_cases hact : w.bond.curr_active_slave = some s
    · cases hnew : v.bond.curr_active_slave with
      | some b =>
        refine ⟨b, rfl, ?_⟩
        have hb := hstanding b
        rw [if_pos ⟨hact, hnew⟩] at hb
        have hlink : (v.slaves b).link = .up := congrArg Prod.fst hb
        simp [Slave.alive, hlink]
      | none =>
        -- nobody was usable, so nobody needs the bond
        have hnone := (hres.none hact).mp hnew
        have ht' := hstanding t
        rw [hnew, if_neg (by simp)] at ht'
        rw [alive_of_standing ht'] at halive
        have hcase := hcond s hact hsd
        rw [h.for_each] at hcase
        rcases hcase with ⟨u, hu, hus, husable⟩ | hdead
        · exact absurd husable (hnone u ((herase u).mpr ⟨hus, hu⟩))
        · obtain ⟨hts, htl⟩ := (herase t).mp ht
          rw [hdead t htl hts] at halive
          cases halive
    · have hsame : SameLinks w v := by
        refine ⟨fun t => ?_, hres.kept hact⟩
        rw [hstanding t, if_neg fun hboth => hact hboth.1]
      rw [alive_of_standing (hsame.slaves t)] at halive
      obtain ⟨a, ha, haa⟩ := h.served t ((herase t).mp ht).2 halive
      exact ⟨a, hsame.active.trans ha, (alive_of_standing (hsame.slaves a)).trans haa⟩

end World

end Hoolock
