import Hoolock.Eligible
import Hoolock.Lifetime

/-!
What each event does to the devices' features and the bond's VLANs: only a slave that joins or
leaves touches the flag of a bond that must not carry VLANs.
-/

set_option autoImplicit false

namespace Hoolock

def NetDevice.challenged (dev : NetDevice) : Bool :=
  dev.features &&& NETIF_F_VLAN_CHALLENGED != 0

theorem challenged_bit (x : BitVec 64) : (x &&& NETIF_F_VLAN_CHALLENGED != 0) = x[10] := by
  have hpow : NETIF_F_VLAN_CHALLENGED = BitVec.twoPow 64 10 := rfl
  have hne : BitVec.twoPow 64 10 ≠ 0 := by decide
  rw [hpow, BitVec.and_twoPow, ← BitVec.getLsbD_eq_getElem]
  cases x.getLsbD 10
  · rfl
  · simpa using hne

theorem challenged_eq (dev : NetDevice) : dev.challenged = dev.features[10] :=
  challenged_bit dev.features

theorem compute_unchallenged (all one : BitVec 64) (h : all[10] = false) :
    (netdev_compute_features all one)[10] = false := by
  unfold netdev_compute_features
  dsimp only
  split_ifs <;>
    simp [h, BitVec.getElem_signExtend, NETIF_F_SG, NETIF_F_NO_CSUM, NETIF_F_HW_CSUM,
      NETIF_F_IP_CSUM, NETIF_F_IPV6_CSUM, NETIF_F_GSO_ROBUST, NETIF_F_GSO_MASK]

def Event.moves_slaves : Event → Bool
  | .enslave _ _ | .release _ | .release_all | .destroy | .free_all => true
  | _ => false

namespace World

def vlans (w : World) : (DevId → BitVec 64) × List Nat × DevId :=
  (fun d => (w.devs d).features, w.bond.vlan_list, w.bond.dev)

theorem vlans_setDev (w : World) (d : DevId) {f : NetDevice → NetDevice}
    (hf : ∀ dev, (f dev).features = dev.features) : (w.setDev d f).vlans = w.vlans := by
  refine Prod.ext (funext fun e => ?_) rfl
  by_cases he : e = d
  · simp [vlans, setDev, he, hf]
  · simp [vlans, setDev, he]

theorem SameDevs.vlans {v w : World} (h : SameDevs v w)
    (hb : (v.bond.vlan_list, v.bond.dev) = (w.bond.vlan_list, w.bond.dev)) :
    v.vlans = w.vlans := by
  refine Prod.ext (funext fun d => ?_) hb
  have hsame := congrArg NetDevice.features (h d)
  exact hsame

theorem vlans_of_sansTraffic {v w : World} (h : v.sansTraffic = w.sansTraffic) :
    v.vlans = w.vlans := by
  have hsame := congrArg World.vlans h
  exact hsame

section events

variable [Siblings]

theorem vlans_change_active {w : World} (h : w.bond.params.mode = .hoolock)
    (new : Option SlaveId) : (w.bond_change_active_slave new).vlans = w.vlans := by
  refine (change_active_devs h new).vlans ?_
  rw [change_active_bond h]

theorem vlans_set_carrier {w : World} (h : w.bond.params.mode = .hoolock) :
    w.bond_set_carrier.2.vlans = w.vlans := by
  obtain ⟨f, hf, hc⟩ := set_carrier_hoolock h
  rw [hf]
  refine vlans_setDev w _ fun dev => ?_
  obtain ⟨c, hc⟩ := hc dev
  rw [hc]

theorem vlans_select_active {w : World} (h : w.bond.params.mode = .hoolock) :
    w.bond_select_active_slave.vlans = w.vlans := by
  have hm := (keeps_change_active h w.bond_find_best_slave).mode.trans h
  unfold bond_select_active_slave
  dsimp only
  split_ifs
  · rw [vlans_set_carrier hm, vlans_change_active h]
  · rfl

theorem vlans_failover {w : World} (h : w.bond.params.mode = .hoolock) :
    w.failover.vlans = w.vlans := by
  have hm : (w.lock .curr_slave .write).bond.params.mode = .hoolock := h
  exact vlans_select_active hm

theorem vlans_commit {w : World} (h : w.bond.params.mode = .hoolock) (s : SlaveId) :
    (w.commit s).vlans = w.vlans := by
  obtain ⟨f, hf, hc | hc⟩ := commit_cases h s
  · rw [hc]
    rfl
  · have hm : (w.setSlave s f).bond.params.mode = .hoolock := h
    rw [hc, vlans_failover hm]
    rfl

omit [Siblings] in
theorem vlans_foldl {P : World → Prop} {f : World → SlaveId → World} (l : List SlaveId)
    (hP : ∀ v s, P v → P (f v s)) (hf : ∀ v s, P v → (f v s).vlans = v.vlans) {w : World}
    (hw : P w) : (l.foldl f w).vlans = w.vlans := by
  induction l generalizing w with
  | nil => rfl
  | cons a rest ih => exact (ih (hP w a hw)).trans (hf w a hw)

theorem vlans_miimon_work {w : World} (h : w.bond.params.mode = .hoolock) :
    w.miimon_work.vlans = w.vlans := by
  have hinspect : w.bond_miimon_inspect.vlans = w.vlans := by
    have hone : ∀ (v : World) (s : SlaveId), True → (v.inspect s).vlans = v.vlans :=
      fun _ _ _ => rfl
    exact vlans_foldl w.bond_for_each_slave (fun _ _ _ => trivial) hone trivial
  have hkept : KeepsRing w w.bond_miimon_inspect :=
    KeepsRing.foldl _ (fun v s _ => keepsRing_setSlave v s (inspect_linkUpdate v.bond.params fun x =>
      v.bond_check_dev_link (v.devs x.dev))) (KeepsRing.refl w)
  obtain ⟨x, hx⟩ : ∃ x, x = (w.bond_miimon_inspect.unlock .bond .read).lock .bond .read := ⟨_, rfl⟩
  have hxm : x.bond.params.mode = .hoolock := by
    rw [hx]
    exact hkept.mode.trans h
  have hxv : x.vlans = w.vlans := by
    rw [hx]
    exact hinspect
  have hcommit : x.bond_miimon_commit.vlans = x.vlans := by
    have hmode : ∀ v s, v.bond.params.mode = Mode.hoolock →
        (commit v s).bond.params.mode = .hoolock := fun v s hv => (keepsRing_commit hv s).mode.trans hv
    have hall := vlans_foldl x.bond_for_each_slave hmode (fun v s hv => vlans_commit hv s) hxm
    have hallm := (KeepsRing.foldl (w := x) (f := World.commit) x.bond_for_each_slave
      (fun v s hv => keepsRing_commit (hv.mode.trans hxm) s) (KeepsRing.refl x)).mode.trans hxm
    exact (vlans_set_carrier hallm).trans hall
  unfold miimon_work
  dsimp only
  split_ifs
  · rw [← hx]
    exact hcommit.trans hxv
  · exact hinspect

theorem vlans_mii_monitor {w : World} (h : w.bond.params.mode = .hoolock) :
    w.bond_mii_monitor.vlans = w.vlans := by
  obtain ⟨k, hk⟩ := gratuitous_arp_eq ((w.lock .bond .read).lock .curr_slave .read)
  rw [mii_monitor_eq]
  split_ifs
  · rfl
  · rw [hk]
    exact vlans_miimon_work h
  · exact vlans_miimon_work h

theorem vlans_arp_mon {w : World} (h : w.bond.params.mode = .hoolock) (delta : BitVec 64) :
    (bond_loadbalance_arp_mon delta w).vlans = w.vlans := by
  obtain ⟨v, hv⟩ : ∃ v, v = ((w.lock .bond .read).lock .curr_slave .read).unlock .curr_slave
      .read := ⟨_, rfl⟩
  have hvm : v.bond.params.mode = .hoolock := by
    rw [hv]
    exact h
  have hvv : v.vlans = w.vlans := by
    rw [hv]
    rfl
  have hslave : ∀ (u : World) (s : SlaveId), (arp_slave delta u s).vlans = u.vlans := by
    intro u s
    obtain ⟨f, _, hc⟩ := arp_slave_cases delta u s
    rw [hc]
    rfl
  have hturns : ∀ (l : List SlaveId) (b : Bool) (u : World),
      (l.foldl (arp_turn delta) (b, u)).2.vlans = u.vlans := by
    intro l
    induction l with
    | nil => exact fun _ _ => rfl
    | cons a rest ih => exact fun b u => (ih _ _).trans (hslave u a)
  have htm := (keepsRing_arp_turns delta v.bond_for_each_slave false v).mode.trans hvm
  rw [arp_mon_eq]
  dsimp only
  rw [← hv]
  split_ifs
  · rfl
  · exact (vlans_failover htm).trans ((hturns _ _ _).trans hvv)
  · exact (hturns _ _ _).trans hvv

theorem vlans_make {w : World} (h : w.bond.params.mode = .hoolock) :
    w.bond_ioctl_make.2.vlans = w.vlans := by
  cases hp : w.passive_slave with
  | none =>
    rw [make_none hp]
    rfl
  | some s =>
    have hm : w.make_begun.bond.params.mode = .hoolock := h
    rw [make_some hp]
    exact vlans_change_active hm (some s)

theorem vlans_test {w : World} (h : w.bond.params.mode = .hoolock) (d : DevId) :
    (w.bond_ioctl_hoolock_change_active d).2.vlans = w.vlans := by
  have hm : ((w.lock .bond .read).lock .curr_slave .write).bond.params.mode = .hoolock := h
  unfold bond_ioctl_hoolock_change_active
  dsimp only
  split
  · exact vlans_change_active hm _
  · rfl

theorem vlans_ioctl_change_active {w : World} (h : w.bond.params.mode = .hoolock) (d : DevId) :
    (w.bond_ioctl_change_active d).2.vlans = w.vlans := by
  have hm : ((((w.lock .bond .read).lock .curr_slave .read).unlock .curr_slave .read).lock
      .curr_slave .write).bond.params.mode = .hoolock := h
  unfold bond_ioctl_change_active
  dsimp only
  split_ifs
  · rfl
  · rfl
  · split
    · rfl
    · split_ifs
      · rfl
      · exact vlans_change_active hm _
      · rfl

omit [Siblings] in
theorem vlans_open_bond (w : World) : w.open_bond.vlans = w.vlans := by
  unfold open_bond
  split_ifs
  · rfl
  · rw [vlans_setDev]
    · unfold bond_open bond_register_hoolock
      dsimp only
      split_ifs <;> rfl
    · exact fun _ => rfl

omit [Siblings] in
theorem vlans_close_bond (w : World) : w.close_bond.vlans = w.vlans := by
  have hclose : ∀ x : World, x.bond_close.vlans = x.vlans := by
    intro x
    unfold bond_close bond_unregister_hoolock
    dsimp only
    split_ifs <;> rfl
  unfold close_bond
  split_ifs
  · rfl
  · rw [vlans_setDev, hclose, vlans_setDev]
    · exact fun _ => rfl
    · exact fun _ => rfl

omit [Siblings] in
theorem vlans_break {w v : World} {env : Skb → PassEnv} {r : Int}
    (h : w.bond_ioctl_break env = some (r, v)) : v.vlans = w.vlans := by
  have hclosed : Closed bond_hoolock_recv fun x => x.vlans = w.vlans :=
    { recv := fun x skb d hx => (vlans_of_sansTraffic (recv_sansTraffic x skb d)).trans hx
      users := fun _ _ hx => hx
      note := fun _ _ hx => hx }
  obtain ⟨u, hu, rfl⟩ := hclosed.break_ends (fun y hy => hy) h rfl
  exact hu

/-- Every other event leaves the ring, the features and the VLANs as they are. -/
theorem step_beside_slaves {w v : World} (h : w.bond.params.mode = .hoolock) {e : Event}
    (he : e.moves_slaves = false) (hv : w.step e = some v) :
    KeepsRing w v ∧ v.vlans = w.vlans := by
  cases e with
  | enslave env d => cases he
  | release d => cases he
  | release_all => cases he
  | destroy => cases he
  | free_all => cases he
  | open_bond =>
    cases hv
    exact ⟨keepsRing_open_bond w, vlans_open_bond w⟩
  | close_bond =>
    cases hv
    exact ⟨keepsRing_close_bond w, vlans_close_bond w⟩
  | make =>
    cases hv
    exact ⟨keepsRing_make h, vlans_make h⟩
  | brk env =>
    obtain ⟨⟨r, x⟩, hr, rfl⟩ := Option.map_eq_some_iff.mp hv
    exact ⟨keepsRing_break hr, vlans_break hr⟩
  | change_active d =>
    cases hv
    exact ⟨keepsRing_ioctl_change_active h d, vlans_ioctl_change_active h d⟩
  | test d =>
    cases hv
    exact ⟨keepsRing_test h d, vlans_test h d⟩
  | arrive env skb =>
    simp only [World.step] at hv
    split_ifs at hv
    cases hv
    have hsame := receive_sansTraffic w env skb
    exact ⟨KeepsRing.of_sansTraffic hsame, vlans_of_sansTraffic hsame⟩
  | xmit env =>
    obtain ⟨⟨r, x⟩, hr, rfl⟩ := Option.map_eq_some_iff.mp hv
    have hsame := xmit_sansTraffic hr
    exact ⟨KeepsRing.of_sansTraffic hsame, vlans_of_sansTraffic hsame⟩
  | mii_monitor =>
    simp only [World.step] at hv
    split_ifs at hv
    cases hv
    exact ⟨keepsRing_mii_monitor h, vlans_mii_monitor h⟩
  | arp_monitor delta =>
    simp only [World.step] at hv
    split_ifs at hv
    cases hv
    exact ⟨keepsRing_arp_mon h delta, vlans_arp_mon h delta⟩
  | device d r =>
    simp only [World.step] at hv
    split_ifs at hv
    cases hv
    exact ⟨keepsRing_setDev w d fun _ => rfl, vlans_setDev w d fun _ => rfl⟩
  | address master_ip =>
    cases hv
    exact ⟨KeepsRing.of_bond rfl rfl rfl, rfl⟩
  | tick j =>
    cases hv
    exact ⟨KeepsRing.of_bond rfl rfl rfl, rfl⟩

omit [Siblings] in
/-- From `w` to `v` no other features than the bond's have changed, and the flag is `b`. -/
structure Flagged (w v : World) (b : Bool) : Prop where
  dev : v.bond.dev = w.bond.dev
  others : ∀ d, d ≠ w.bond.dev → (v.devs d).features = (w.devs d).features
  vlan_list : v.bond.vlan_list = w.bond.vlan_list
  flag : v.bond_dev.challenged = b

omit [Siblings] in
theorem Flagged.of_vlans {w v : World} (h : v.vlans = w.vlans) :
    Flagged w v w.bond_dev.challenged := by
  have hfeatures : ∀ d, (v.devs d).features = (w.devs d).features :=
    congrFun (congrArg Prod.fst h)
  have hd : v.bond.dev = w.bond.dev := congrArg (fun x => x.2.2) h
  refine ⟨hd, fun d _ => hfeatures d, congrArg (fun x => x.2.1) h, ?_⟩
  unfold bond_dev NetDevice.challenged
  rw [hd, hfeatures]

omit [Siblings] in
theorem Flagged.trans {w v u : World} {b c : Bool} (h : Flagged w v b) (k : Flagged v u c) :
    Flagged w u c := by
  have hothers := k.others
  rw [h.dev] at hothers
  exact ⟨k.dev.trans h.dev, fun d hd => (hothers d hd).trans (h.others d hd),
    k.vlan_list.trans h.vlan_list, k.flag⟩

omit [Siblings] in
theorem Flagged.then {w v u : World} {b : Bool} (h : Flagged w v b) (hu : u.vlans = v.vlans) :
    Flagged w u b := h.trans (h.flag ▸ Flagged.of_vlans hu)

omit [Siblings] in
theorem flagged_setFeatures (w : World) {f : BitVec 64 → BitVec 64} {b : Bool}
    (hf : ∀ x, (f x)[10] = b) : Flagged w (w.setFeatures f) b := by
  refine ⟨rfl, fun d hd => ?_, rfl, ?_⟩
  · simp [setFeatures, setDev, hd]
  · rw [challenged_eq]
    simp [bond_dev, setFeatures, setDev, hf]

omit [Siblings] in
theorem flagged_on (w : World) : Flagged w (w.setFeatures (· ||| NETIF_F_VLAN_CHALLENGED)) true :=
  flagged_setFeatures w fun x => by simp [NETIF_F_VLAN_CHALLENGED]

omit [Siblings] in
theorem flagged_off (w : World) :
    Flagged w (w.setFeatures (· &&& ~~~NETIF_F_VLAN_CHALLENGED)) false :=
  flagged_setFeatures w fun x => by simp [NETIF_F_VLAN_CHALLENGED]

omit [Siblings] in
theorem flagged_compute_features (w : World) :
    Flagged w w.bond_compute_features w.bond_dev.challenged := by
  have hfold : ∀ (l : List SlaveId) (acc : BitVec 64 × Nat), acc.1[10] = false →
      (l.foldl (fun (acc : BitVec 64 × Nat) s =>
        (netdev_compute_features acc.1 (w.slave_dev s).features,
          max acc.2 (w.slave_dev s).hard_header_len)) acc).1[10] = false := by
    intro l
    induction l with
    | nil => exact fun _ h => h
    | cons s rest ih => exact fun acc h => ih _ (compute_unchallenged _ _ h)
  refine ⟨rfl, fun d hd => ?_, rfl, ?_⟩
  · simp [bond_compute_features, setDev, hd]
  · rw [challenged_eq, challenged_eq]
    unfold bond_compute_features
    simp only [bond_dev, setDev, if_true, BitVec.getElem_or]
    rw [hfold]
    · simp [BOND_VLAN_FEATURES, NETIF_F_VLAN_CHALLENGED]
    · simp [BOND_VLAN_FEATURES, NETIF_F_VLAN_CHALLENGED, NETIF_F_ALL_CSUM, NETIF_F_SG,
        NETIF_F_FRAGLIST, NETIF_F_HIGHDMA, NETIF_F_GSO_MASK, NETIF_F_NO_CSUM, NETIF_F_IP_CSUM,
        NETIF_F_IPV6_CSUM, NETIF_F_HW_CSUM]

omit [Siblings] in
theorem flagged_enslave_vlan (w : World) (d : DevId) : Flagged w (w.enslave_vlan d)
    (if (w.devs d).challenged then true else if w.bond.slave_cnt = 0 then false
      else w.bond_dev.challenged) := by
  have hflag : (w.devs d).challenged = true ↔
      (w.devs d).features &&& NETIF_F_VLAN_CHALLENGED ≠ 0 := bne_iff_ne
  unfold enslave_vlan
  by_cases hd : (w.devs d).challenged = true
  · rw [if_pos hd, if_pos (hflag.mp hd)]
    exact flagged_on w
  · rw [if_neg hd, if_neg fun hne => hd (hflag.mpr hne)]
    split_ifs
    · exact flagged_off w
    · exact Flagged.of_vlans rfl

omit [Siblings] in
theorem vlans_ready (env : EnslaveEnv) (w : World) (d : DevId) (s : SlaveId) :
    (enslave_ready env (w.enslave_prepared d) d s).vlans = (w.enslave_vlan d).vlans := by
  have htype : ∀ x : World, (x.enslave_type d).vlans = x.vlans := by
    intro x
    unfold enslave_type
    split_ifs
    · unfold bond_setup_by_slave
      exact vlans_setDev x _ (f := fun dev =>
        { dev with
          type := (x.devs d).type, hard_header_len := (x.devs d).hard_header_len
          addr_len := (x.devs d).addr_len }) fun _ => rfl
    · rfl
  have hfom : ∀ x : World, (x.enslave_fom d).vlans = x.vlans := by
    intro x
    unfold enslave_fom
    split_ifs <;> rfl
  have hmac : ∀ x : World, (x.enslave_mac d).2.vlans = x.vlans := by
    intro x
    unfold enslave_mac
    split_ifs
    · exact vlans_setDev x d fun dev => set_mac_features _ _ dev
    · rfl
  have hmaster : ∀ (x : World) (m : DevId), (x.onDev d (netdev_set_master (some m))).2.vlans =
      x.vlans := fun x m => vlans_setDev x d (set_master_features (some m))
  have hopen : ∀ x : World, (x.onDev d (dev_open env.open_slave)).2.vlans = x.vlans :=
    fun x => vlans_setDev x d (open_features _)
  have hrecord : ∀ x : World, (x.enslave_record d s).vlans = x.vlans := fun _ => rfl
  unfold enslave_ready enslave_prepared
  dsimp only
  rw [hopen, hmaster, hmac, hrecord, hfom, htype]

theorem vlans_enslave_mode {w : World} (h : w.bond.params.mode = .hoolock) (s : SlaveId) :
    (w.enslave_mode s).vlans = w.vlans := by
  have hm : (w.bond_set_slave_active_flags s).bond.params.mode = .hoolock := h
  have hflags : (w.bond_set_slave_active_flags s).vlans = w.vlans := by
    unfold bond_set_slave_active_flags
    exact vlans_setDev (w.setSlave s fun x => { x with state := .active }) _ fun _ => rfl
  rw [enslave_mode_hoolock h]
  split_ifs
  · exact (vlans_change_active hm _).trans hflags
  · exact hflags

theorem flagged_enslave_attach {w : World} (hp : w.port = .k27)
    (h : w.bond.params.mode = .hoolock) (d : DevId) (s : SlaveId) :
    Flagged w (w.enslave_attach d s) w.bond_dev.challenged := by
  obtain ⟨c, hc⟩ : ∃ c, c = ((w.lock .bond .write).bond_attach_slave s).setSlave s fun x =>
      { x with delay := 0, link_failure_count := 0 } := ⟨_, rfl⟩
  have hcv : c.vlans = w.vlans := by
    rw [hc]
    unfold bond_attach_slave
    dsimp only
    cases (w.lock .bond .write).bond.first_slave <;> rfl
  obtain ⟨a, ha⟩ : ∃ a, a = c.bond_compute_features := ⟨_, rfl⟩
  have haf : Flagged w a w.bond_dev.challenged := by
    have hcf := Flagged.of_vlans hcv
    have hcomputed := flagged_compute_features c
    rw [hcf.flag] at hcomputed
    rw [ha]
    exact hcf.trans hcomputed
  have hacore : a.core = w.core.lock .bond .write := by simp [ha, hc]
  have hport : a.port = .k27 := (congrArg Core.port hacore).trans hp
  obtain ⟨b, hb⟩ : ∃ b, b = ((((a.unlock .bond .write).lock .bond .read).enslave_link d
      s).enslave_primary s).lock .curr_slave .write := ⟨_, rfl⟩
  obtain ⟨hbm, hbv⟩ : b.bond.params.mode = a.bond.params.mode ∧ b.vlans = a.vlans := by
    rw [hb]
    unfold enslave_link enslave_primary lock unlock setSlave setBond
    split_ifs <;> exact ⟨rfl, rfl⟩
  have hbm : b.bond.params.mode = .hoolock := hbm.trans ((congrArg Core.mode hacore).trans h)
  have hcm : ((b.enslave_mode s).unlock .curr_slave .write).bond.params.mode = .hoolock :=
    (keeps_enslave_mode hbm s).mode.trans hbm
  have heq : w.enslave_attach d s =
      ((b.enslave_mode s).unlock .curr_slave .write).bond_set_carrier.2.unlock .bond .read := by
    unfold enslave_attach
    dsimp only
    rw [← hc, ← ha]
    simp only [hport]
    rw [← hb]
  rw [heq]
  exact haf.then ((vlans_set_carrier hcm).trans ((vlans_enslave_mode hbm s).trans hbv))

/-- A slave that joins sets the flag, or clears it as the first that is not challenged; a
challenged one does not join a bond with VLANs. -/
theorem flagged_enslave {env : EnslaveEnv} {w : World} (hp : w.port = .k27)
    (hm : w.bond.params.mode = .hoolock) {d : DevId} (h : (bond_enslave env w d).1 = 0) :
    Flagged w (bond_enslave env w d).2 (if (w.devs d).challenged then true
      else if w.bond.slave_cnt = 0 then false else w.bond_dev.challenged) ∧
      ((w.devs d).challenged = true → w.bond.vlan_list = []) := by
  obtain ⟨s, -, -, hv⟩ := bond_enslave_zero hp hm h
  obtain ⟨r, hr⟩ : ∃ r, r = enslave_ready env (w.enslave_prepared d) d s := ⟨_, rfl⟩
  have hrcore : r.core = w.core := hr ▸ core_ready env w d s
  have hrf := (flagged_enslave_vlan w d).then (hr ▸ vlans_ready env w d s)
  obtain ⟨q, hq⟩ : ∃ q, q = ((r.setSlave s fun x => { x with dev := d }).setDev d fun dev =>
      { dev with bonding := true }).bond_add_vlans_on_slave := ⟨_, rfl⟩
  have hqv : q.vlans = r.vlans := by
    rw [hq]
    exact vlans_setDev (r.setSlave s fun x => { x with dev := d }) d
      (f := fun dev => { dev with bonding := true }) fun _ => rfl
  have hqf := hrf.then hqv
  have hqp : q.port = .k27 := by
    rw [hq]
    exact (congrArg Core.port hrcore).trans hp
  have hqm : q.bond.params.mode = .hoolock := by
    rw [hq]
    exact (congrArg Core.mode hrcore).trans hm
  refine ⟨?_, fun hc => ?_⟩
  · have hattach := flagged_enslave_attach hqp hqm d s
    rw [hqf.flag] at hattach
    rw [hv, ← hr]
    unfold enslave_joined
    rw [← hq]
    exact hqf.trans hattach
  · by_contra hvlans
    have hflag : (w.devs d).features &&& NETIF_F_VLAN_CHALLENGED ≠ 0 := bne_iff_ne.mp hc
    unfold bond_enslave at h
    dsimp only at h
    split_ifs at h with h1 h2
    · cases h
    · cases h
    all_goals exact h2 ⟨hflag, hvlans⟩

omit [Siblings] in
theorem vlans_release_device (w : World) (s : SlaveId) (d : DevId) (r : Bool) :
    (w.release_device s d r).vlans = w.vlans := by
  have hfilter : ∀ x : World, (x.release_filter d).vlans = x.vlans := by
    intro x
    have hoff : (x.setDev d x.filter_off).vlans = x.vlans :=
      (sameDevs_setDev x d _ (filter_off_sansFilter x)).vlans rfl
    unfold release_filter
    dsimp only
    split_ifs
    · rfl
    · exact (vlans_setDev _ d (f := dev_mc_delete MULTICAST_LACPDU_ADDR) fun _ => rfl).trans hoff
    · exact hoff
  have hclose : ∀ x : World, (x.setDev d dev_close).vlans = x.vlans := by
    refine fun x => vlans_setDev x d fun dev => ?_
    unfold dev_close
    split_ifs <;> rfl
  have hmaster : ∀ x : World, (x.onDev d (netdev_set_master none)).2.vlans = x.vlans :=
    fun x => vlans_setDev x d (set_master_features none)
  have hmac : ∀ (x : World) (a : HwAddr), (x.restore_mac d a).vlans = x.vlans :=
    fun x a => vlans_setDev x d fun dev => set_mac_features _ _ dev
  have hdel : w.bond_del_vlans_from_slave.vlans = w.vlans := rfl
  unfold release_device
  dsimp only
  split_ifs
  · rw [hmac, hclose, hmaster, hfilter, hdel]
  · rw [hclose, hmaster, hfilter, hdel]

omit [Siblings] in
theorem flagged_clear_master (w : World) : Flagged w w.clear_master
    (if w.bond.vlan_list = [] then true else w.bond_dev.challenged) := by
  obtain ⟨x, hx⟩ : ∃ x, x = w.setDev w.bond.dev fun dev =>
    { dev with dev_addr := List.replicate dev.addr_len 0 ++ dev.dev_addr.drop dev.addr_len } :=
    ⟨_, rfl⟩
  have hxv : x.vlans = w.vlans := by
    rw [hx]
    exact vlans_setDev w _ fun _ => rfl
  have hxf := Flagged.of_vlans hxv
  unfold clear_master
  dsimp only
  rw [← hx, hxf.vlan_list]
  split_ifs
  · exact hxf.trans (flagged_on x)
  · exact hxf

theorem flagged_release_master {w : World} (h : w.bond.params.mode = .hoolock) :
    Flagged w w.release_master
      (if w.bond.slave_cnt = 0 then if w.bond.vlan_list = [] then true else w.bond_dev.challenged
        else w.bond_dev.challenged && w.bond_has_challenged_slaves) := by
  have hflag : w.bond_dev.challenged = true ↔
      w.bond_dev.features &&& NETIF_F_VLAN_CHALLENGED ≠ 0 := bne_iff_ne
  unfold release_master
  by_cases hcnt : w.bond.slave_cnt = 0
  · rw [if_pos hcnt, if_pos hcnt]
    have hcarrier := Flagged.of_vlans (vlans_set_carrier h)
    have hclear := flagged_clear_master w.bond_set_carrier.2
    rw [hcarrier.flag, hcarrier.vlan_list] at hclear
    exact hcarrier.trans hclear
  · rw [if_neg hcnt, if_neg hcnt]
    cases hf : w.bond_dev.challenged with
    | false =>
      have hoff : ¬ w.bond_dev.features &&& NETIF_F_VLAN_CHALLENGED ≠ 0 := by
        rw [← hflag, hf]
        simp
      rw [if_neg fun hc => hoff hc.1, ← hf]
      simpa [hf] using Flagged.of_vlans (w := w) rfl
    | true =>
      have hon := hflag.mp hf
      cases hs : w.bond_has_challenged_slaves with
      | false =>
        rw [if_pos ⟨hon, by simp⟩]
        exact flagged_off w
      | true =>
        rw [if_neg fun hc => by simp at hc]
        simpa [hf] using Flagged.of_vlans (w := w) rfl

theorem release_detach_stages {w : World} (h : w.bond.params.mode = .hoolock) (s : SlaveId) :
    ∃ x, w.release_detach s = x.release_master ∧ x.bond.params.mode = .hoolock ∧
      x.shape = w.shape.detach s ∧ Flagged w x w.bond_dev.challenged := by
  obtain ⟨a, ha⟩ : ∃ a, a = (w.bond_detach_slave s).bond_compute_features.release_pointers s :=
    ⟨_, rfl⟩
  have ham : a.bond.params.mode = .hoolock := by
    rw [ha]
    exact h
  have haf : Flagged w a w.bond_dev.challenged := by
    have hdetach : Flagged w (w.bond_detach_slave s) w.bond_dev.challenged :=
      Flagged.of_vlans rfl
    have hcompute := flagged_compute_features (w.bond_detach_slave s)
    rw [hdetach.flag] at hcompute
    rw [ha]
    exact (hdetach.trans hcompute).then rfl
  have hashape : a.shape = w.shape.detach s := by simp [ha]
  rw [release_detach_hoolock h, ← ha]
  split_ifs
  · have hchange := change_active_bond ham none
    obtain ⟨y, hy⟩ : ∃ y, y = (((a.bond_change_active_slave none).unlock .bond .write).lock .bond
        .read).lock .curr_slave .write := ⟨_, rfl⟩
    have hyb : y.bond = { a.bond with curr_active_slave := none } := hy ▸ hchange
    have hym : y.bond.params.mode = .hoolock := by
      rw [hyb]
      exact ham
    have hyv : y.vlans = a.vlans := hy ▸ vlans_change_active ham none
    have hsel := select_active_bond hym
    refine ⟨_, rfl, ?_, ?_, ?_⟩
    · unfold release_reselect
      dsimp only
      rw [← hy]
      exact (congrArg (fun b => b.params.mode) hsel).trans hym
    · simp [hashape]
    · refine haf.then ?_
      unfold release_reselect
      dsimp only
      rw [← hy]
      exact (vlans_select_active hym).trans hyv
  · exact ⟨a, rfl, ham, hashape, haf⟩

/-- The last slave to leave sets the flag of a bond without VLANs, the last challenged one
clears it. -/
theorem Inv.flagged_release {w v : World} {l : List SlaveId} (h : w.Inv l) {d : DevId}
    (hr : w.bond_release d = (0, v)) :
    ∃ s ∈ l, (w.slaves s).dev = d ∧ Flagged w v
      (if l.erase s = [] then if w.bond.vlan_list = [] then true else w.bond_dev.challenged
        else w.bond_dev.challenged && (l.erase s).any fun t => (w.slave_dev t).challenged) := by
  obtain ⟨s, hs, hsd, -, r, hv⟩ := h.release_eq hr
  refine ⟨s, hs, hsd, ?_⟩
  obtain ⟨x, hx, hxm, hxshape, hxf⟩ := release_detach_stages (w := w.lock .bond .write) h.mode s
  have hxring : x.Ring (l.erase s) := by
    refine h.toRing.released hs (v := x.kfree_slave s) ?_ |>.congr rfl rfl rfl
    rw [shape_kfree, hxshape]
    rfl
  have hcnt : x.bond.slave_cnt = 0 ↔ l.erase s = [] := by
    rw [hxring.count, ← List.length_eq_zero_iff]
    omega
  have hdev : ∀ t, (x.slaves t).dev = (w.slaves t).dev := congrFun (congrArg Shape.dev hxshape)
  have hany : x.bond_has_challenged_slaves = (l.erase s).any fun t => (w.slave_dev t).challenged := by
    unfold bond_has_challenged_slaves
    rw [hxring.for_each, Bool.eq_iff_iff, List.any_eq_true, List.any_eq_true]
    refine exists_congr fun t => and_congr_right fun ht => ?_
    have hfor := h.foreign t (List.mem_of_mem_erase ht)
    have hsame : (x.slave_dev t).features = (w.slave_dev t).features := by
      unfold slave_dev
      rw [hdev]
      exact hxf.others _ hfor
    unfold NetDevice.challenged
    rw [hsame]
  have hmaster := flagged_release_master hxm
  rw [hxf.flag, hxf.vlan_list, hany] at hmaster
  simp only [hcnt] at hmaster
  have hlocked : Flagged w (w.lock .bond .write) w.bond_dev.challenged := Flagged.of_vlans rfl
  have hdetached := (hlocked.trans hxf).trans hmaster
  obtain ⟨y, hy⟩ : ∃ y, y = ((w.lock .bond .write).release_detach s).unlock .bond .write := ⟨_, rfl⟩
  have hyf := hdetached.then (u := y) (by rw [hy, hx]; rfl)
  have hclear := vlans_setDev (y.release_device s d r) d (f := fun dev =>
    { dev with slave_inactive := false, bonding := false, slave_needarp := false }) fun _ => rfl
  rw [hv, ← hy]
  exact hyf.then (hclear.trans (vlans_release_device y s d r))

theorem flagged_release_first {w : World} (h : w.bond.params.mode = .hoolock) (s : SlaveId) :
    Flagged w (w.release_first s) w.bond_dev.challenged := by
  have hunbind : w.release_unbind s = w := by
    unfold release_unbind
    simp [h]
  obtain ⟨x, hx⟩ : ∃ x, x = (w.bond_detach_slave s).unlock .bond .write := ⟨_, rfl⟩
  have hxm : x.bond.params.mode = .hoolock := by
    rw [hx]
    exact h
  have hxf : Flagged w x w.bond_dev.challenged := Flagged.of_vlans (by rw [hx]; rfl)
  have hcompute := flagged_compute_features x
  rw [hxf.flag] at hcompute
  have hcomputed := hxf.trans hcompute
  obtain ⟨r, hr⟩ : ∃ r : Bool, r =
    (x.bond_compute_features.bond.params.fail_over_mac == FailOverMac.none) := ⟨_, rfl⟩
  have hdevice := hcomputed.then (vlans_release_device _ s (w.slaves s).dev r)
  have hclear := vlans_setDev (x.bond_compute_features.release_device s (w.slaves s).dev r)
    (w.slaves s).dev (f := fun dev => { dev with slave_inactive := false }) fun _ => rfl
  unfold release_first
  simp only [hunbind, ← hx, hxm, reduceCtorEq, or_self, if_false, ← hr]
  exact hdevice.then hclear

theorem flagged_release_each {n : Nat} {w : World} (h : w.bond.params.mode = .hoolock) :
    Flagged w (release_each n w) w.bond_dev.challenged := by
  induction n generalizing w with
  | zero => exact Flagged.of_vlans rfl
  | succ n ih =>
    unfold release_each
    cases hf : w.bond.first_slave with
    | none => exact Flagged.of_vlans rfl
    | some s =>
      have hfirst := flagged_release_first h s
      have hrest := ih ((keeps_release_first h s).mode.trans h)
      rw [hfirst.flag] at hrest
      exact hfirst.trans hrest

theorem Inv.flagged_release_all {w : World} {l : List SlaveId} (h : w.Inv l) :
    Flagged w w.bond_release_all.2 (if l = [] then w.bond_dev.challenged
      else if w.bond.vlan_list = [] then true else w.bond_dev.challenged) := by
  obtain ⟨x, y, hx, hy, hall⟩ := release_all_eq w
  have hxf : Flagged w x w.bond_dev.challenged := by
    refine Flagged.of_vlans ?_
    rw [hx]
    exact vlans_setDev (w.lock .bond .write) _ fun _ => rfl
  have hcnt : x.bond.slave_cnt = 0 ↔ l = [] := by
    have hsame : x.bond.slave_cnt = w.bond.slave_cnt := by
      rw [hx]
      rfl
    rw [hsame, h.count, ← List.length_eq_zero_iff]
    omega
  rw [hall]
  by_cases hl : l = []
  · rw [if_pos hl, if_pos (hcnt.mpr hl)]
    exact hxf.then rfl
  · rw [if_neg hl, if_neg fun hz => hl (hcnt.mp hz)]
    obtain ⟨u, hu⟩ : ∃ u, u = x.setBond fun b =>
      { b with current_arp_slave := none, primary_slave := none } := ⟨_, rfl⟩
    have hum : u.bond.params.mode = .hoolock := by
      rw [hu, hx]
      exact h.mode
    have huf := hxf.then (u := u) (by rw [hu]; rfl)
    rw [← hu] at hy
    have hyf := huf.then (hy ▸ vlans_change_active hum none)
    have hym : y.bond.params.mode = .hoolock := by
      rw [hy, change_active_bond hum]
      exact hum
    have heach := flagged_release_each (n := y.bond.slave_cnt.toNat) hym
    rw [hyf.flag] at heach
    have hef := hyf.trans heach
    have hclear := flagged_clear_master (World.release_each y.bond.slave_cnt.toNat y)
    rw [hef.flag, hef.vlan_list] at hclear
    exact (hef.trans hclear).then rfl

end events

end World

end Hoolock
