import Hoolock.Lifetime

set_option autoImplicit false

namespace Hoolock

namespace World

theorem lock_unlock (w : World) (l : LockName) (m : LockMode) : (w.lock l m).unlock l m = w := by
  simp [lock, unlock]

section ioctls

variable [Siblings]

theorem do_getactive (w : World) (env : IoctlEnv) :
    w.bond_do_ioctl env SIOCBONDHOOLOCKGETACTIVE = some w.bond_getactive := by
  unfold bond_do_ioctl
  rw [if_neg (by decide), if_neg (by decide), if_neg (by decide), if_pos rfl]

theorem do_getpassive (w : World) (env : IoctlEnv) :
    w.bond_do_ioctl env SIOCBONDHOOLOCKGETPASSIVE = some w.bond_getpassive := by
  unfold bond_do_ioctl
  rw [if_neg (by decide), if_neg (by decide), if_neg (by decide), if_neg (by decide), if_pos rfl]

theorem do_make (w : World) (env : IoctlEnv) :
    w.bond_do_ioctl env SIOCBONDHOOLOCKMAKE =
      some (w.bond_ioctl_make.1, .nothing, w.bond_ioctl_make.2) := by
  unfold bond_do_ioctl
  rw [if_neg (by decide), if_neg (by decide), if_neg (by decide), if_neg (by decide),
    if_neg (by decide), if_pos rfl]

theorem do_break (w : World) (env : IoctlEnv) :
    w.bond_do_ioctl env SIOCBONDHOOLOCKBREAK =
      (w.bond_ioctl_break env.pass).map fun r => (r.1, .nothing, r.2) := by
  unfold bond_do_ioctl
  rw [if_neg (by decide), if_neg (by decide), if_neg (by decide), if_neg (by decide),
    if_neg (by decide), if_neg (by decide), if_pos rfl]

end ioctls

theorem getactive_some {w : World} {t : SlaveId} (ht : w.bond.curr_active_slave = some t) :
    w.bond_getactive = (0, w.slave_reply t, w) := by
  have hlocked : ((w.lock .bond .read).lock .curr_slave .read).bond.curr_active_slave = some t := ht
  unfold bond_getactive
  dsimp only
  rw [hlocked]
  dsimp only
  rw [lock_unlock, lock_unlock]
  rfl

theorem getactive_none {w : World} (ht : w.bond.curr_active_slave = none) :
    w.bond_getactive = (-EFAULT, .nothing, (w.lock .bond .read).lock .curr_slave .read) := by
  have hlocked : ((w.lock .bond .read).lock .curr_slave .read).bond.curr_active_slave = none := ht
  unfold bond_getactive
  dsimp only
  rw [hlocked]

theorem getpassive_some {w : World} {s : SlaveId} (h : w.passive_slave = some s) :
    w.bond_getpassive = (0, w.slave_reply s, w) := by
  have hlocked : ((w.lock .bond .read).lock .curr_slave .read).passive_slave = some s := h
  unfold bond_getpassive
  dsimp only
  rw [hlocked]
  dsimp only
  rw [lock_unlock, lock_unlock]
  rfl

theorem getpassive_none {w : World} (h : w.passive_slave = none) :
    w.bond_getpassive = (-EFAULT, .nothing, w) := by
  have hlocked : ((w.lock .bond .read).lock .curr_slave .read).passive_slave = none := h
  unfold bond_getpassive
  dsimp only
  rw [hlocked]
  dsimp only
  rw [lock_unlock, lock_unlock]

def names (w : World) (d : DevId) : List Char := (w.devs d).name

theorem names_setDev (w : World) (d : DevId) (f : NetDevice → NetDevice)
    (hf : ∀ dev, (f dev).name = dev.name) : (w.setDev d f).names = w.names := by
  funext e
  by_cases h : e = d
  · simp [names, setDev, h, hf]
  · simp [names, setDev, h]

theorem names_onSlave {w : World} {slave : Option SlaveId} {f : World → SlaveId → World}
    (h : ∀ s, (f w s).names = w.names) : (w.onSlave slave f).names = w.names :=
  onSlave_keeps names h

theorem names_mc_swap (w : World) (new old : Option SlaveId) :
    (w.bond_mc_swap new old).names = w.names := by
  funext d
  have hd := congrArg NetDevice.name (sameDevs_mc_swap w new old d)
  exact hd

theorem dev_set_mac_address_name (a : HwAddr) (n : Nat) (dev : NetDevice) :
    (dev_set_mac_address a n dev).2.name = dev.name := by
  unfold dev_set_mac_address
  split
  · rfl
  · split_ifs <;> rfl

theorem names_inactive_flags (w : World) (s : SlaveId) :
    (w.bond_set_slave_inactive_flags s).names = w.names := by
  unfold bond_set_slave_inactive_flags
  dsimp only
  split_ifs <;> exact names_setDev _ _ _ fun _ => rfl

theorem names_active_flags (w : World) (s : SlaveId) :
    (w.bond_set_slave_active_flags s).names = w.names := by
  unfold bond_set_slave_active_flags
  exact names_setDev _ _ _ fun _ => rfl

theorem names_fail_over_mac (w : World) (new : SlaveId) (old : Option SlaveId) :
    (w.bond_do_fail_over_mac new old).names = w.names := by
  have hset : ∀ (v : World) d a n, (v.setDev d fun dev =>
      (dev_set_mac_address a n dev).2).names = v.names :=
    fun v d a n => names_setDev v d _ fun dev => dev_set_mac_address_name a n dev
  unfold bond_do_fail_over_mac
  dsimp only
  split
  · rfl
  · unfold copy_dev_addr
    exact names_setDev _ _ _ fun _ => rfl
  · refine (names_onSlave fun s => ?_).trans (hset _ _ _ _)
    split_ifs
    · rfl
    · exact names_setDev _ _ _ fun dev => dev_set_mac_address_name _ _ dev

theorem names_gratuitous_arp (w : World) : w.bond_send_gratuitous_arp.names = w.names := by
  unfold bond_send_gratuitous_arp
  split
  · rfl
  · refine names_onSlave fun s => ?_
    split_ifs <;> rfl

/-- What the two balancing files do to the devices' names and to the active slave. -/
structure SiblingsSwitch [Siblings] : Prop where
  names : ∀ c w, (Siblings.call c w).2.names = w.names
  active : ∀ w s, (Siblings.call (.bond_alb_handle_active_change (some s)) w).2.bond.curr_active_slave
    = some s

section switching

variable [Siblings]

def SwitchesAs (w : World) : Prop :=
  w.bond.params.mode = .ieee8023ad ∨ w.bond.params.mode = .tlb ∨ w.bond.params.mode = .alb →
    SiblingsSwitch

theorem names_promote_link {w : World} (h : w.SwitchesAs) (s : SlaveId) :
    (w.promote_link s).names = w.names := by
  unfold promote_link
  dsimp only
  split_ifs with hb h3 h4 h4
  · exact ((h (Or.inl h3)).names _ _).trans ((h (Or.inl h3)).names _ _)
  · exact (h (Or.inl h3)).names _ _
  · exact (h (Or.inr h4)).names _ _
  · rfl
  · rfl

theorem names_install_active {w : World} (h : w.SwitchesAs) (new old : Option SlaveId) :
    (w.install_active new old).names = w.names := by
  unfold install_active
  dsimp only
  split_ifs with hm
  · refine (names_onSlave fun s => names_active_flags _ s).trans ?_
    refine (names_onSlave fun s => names_inactive_flags _ s).trans ?_
    exact (h (Or.inr hm)).names _ _
  · rfl

omit [Siblings] in
theorem names_activebackup (w : World) (new old : Option SlaveId) :
    (w.activebackup_changed_27 new old).names = w.names ∧
      (w.activebackup_changed_24 new old).names = w.names := by
  have hold : (w.onSlave old bond_set_slave_inactive_flags).names = w.names :=
    names_onSlave fun s => names_inactive_flags w s
  have hlocks : ∀ v : World, ((((v.unlock .curr_slave .write).unlock .bond .read).lock
      .bond .read).lock .curr_slave .write).names = v.names := fun _ => rfl
  have hcount : ∀ v : World, (v.setBond fun b =>
      { b with send_grat_arp := BitVec.ofInt 8 b.params.num_grat_arp }).names = v.names :=
    fun _ => rfl
  constructor
  · unfold activebackup_changed_27
    refine (names_onSlave fun s => ?_).trans hold
    dsimp only
    refine ((hlocks _).trans ((names_gratuitous_arp _).trans (hcount _))).trans ?_
    split_ifs
    · exact (names_fail_over_mac _ _ _).trans (names_active_flags _ s)
    · exact names_active_flags _ s
  · have hnew : ∀ v : World, (v.onSlave new fun w new =>
        let w := w.bond_set_slave_active_flags new
        if w.bond.params.fail_over_mac ≠ FailOverMac.none then w.copy_dev_addr new
        else w).names = v.names := by
      intro v
      refine names_onSlave fun s => ?_
      unfold copy_dev_addr
      dsimp only
      split_ifs
      · refine (names_setDev _ _ _ ?_).trans (names_active_flags v s)
        intro dev
        rfl
      · exact names_active_flags v s
    unfold activebackup_changed_24
    dsimp only
    split
    · split_ifs
      · exact (hnew _).trans hold
      · exact (names_gratuitous_arp _).trans ((hnew _).trans hold)
    · exact (names_gratuitous_arp _).trans ((hnew _).trans hold)

theorem names_change_active {w : World} (h : w.SwitchesAs) (new : Option SlaveId) :
    (w.bond_change_active_slave new).names = w.names := by
  have hpromote : (w.onSlave new promote_link).names = w.names :=
    names_onSlave fun s => names_promote_link h s
  have hcore : ((w.onSlave new promote_link).bond_mc_swap new
      w.bond.curr_active_slave).core = w.core := by
    simp
  have hmode : ((w.onSlave new promote_link).bond_mc_swap new
      w.bond.curr_active_slave).bond.params.mode = w.bond.params.mode := congrArg Core.mode hcore
  have hinstall := names_install_active (w := (w.onSlave new promote_link).bond_mc_swap new
    w.bond.curr_active_slave) (fun hm => h (hmode ▸ hm)) new w.bond.curr_active_slave
  have hall := (hinstall.trans (names_mc_swap _ _ _)).trans hpromote
  unfold bond_change_active_slave
  dsimp only
  split_ifs
  · rfl
  · exact hall
  · exact (names_activebackup _ _ _).1.trans hall
  · exact (names_activebackup _ _ _).2.trans hall

omit [Siblings] in
@[simp] theorem bond_set_slave_inactive_flags_bond (w : World) (s : SlaveId) :
    (w.bond_set_slave_inactive_flags s).bond = w.bond := by
  unfold bond_set_slave_inactive_flags
  dsimp only
  split_ifs <;> rfl

omit [Siblings] in
theorem bond_do_fail_over_mac_bond (w : World) (s : SlaveId) (old : Option SlaveId) :
    (w.bond_do_fail_over_mac s old).bond = w.bond := by
  unfold bond_do_fail_over_mac
  dsimp only
  split
  · rfl
  · rfl
  · refine (onSlave_keeps World.bond fun o => ?_).trans rfl
    split_ifs <;> rfl

omit [Siblings] in
theorem gratuitous_arp_active (w : World) :
    w.bond_send_gratuitous_arp.bond.curr_active_slave = w.bond.curr_active_slave := by
  unfold bond_send_gratuitous_arp
  split
  · rfl
  · refine onSlave_keeps (fun v => v.bond.curr_active_slave) fun s => ?_
    split_ifs <;> rfl

omit [Siblings] in
theorem activebackup_active (w : World) (new old : Option SlaveId) :
    (w.activebackup_changed_27 new old).bond.curr_active_slave = w.bond.curr_active_slave ∧
      (w.activebackup_changed_24 new old).bond.curr_active_slave = w.bond.curr_active_slave := by
  have hold : (w.onSlave old bond_set_slave_inactive_flags).bond = w.bond :=
    onSlave_keeps World.bond (bond_set_slave_inactive_flags_bond w)
  constructor
  · unfold activebackup_changed_27
    cases new with
    | none => exact congrArg Bonding.curr_active_slave hold
    | some s =>
      have hlocks : ∀ v : World, ((((v.unlock .curr_slave .write).unlock .bond .read).lock
          .bond .read).lock .curr_slave .write).bond.curr_active_slave =
          v.bond.curr_active_slave := fun _ => rfl
      have hset : ∀ v : World, (v.setBond fun b =>
          { b with send_grat_arp := BitVec.ofInt 8 b.params.num_grat_arp }).bond.curr_active_slave =
          v.bond.curr_active_slave := fun _ => rfl
      unfold onSlave
      dsimp only
      refine ((hlocks _).trans ((gratuitous_arp_active _).trans (hset _))).trans ?_
      split_ifs
      · exact (congrArg Bonding.curr_active_slave (bond_do_fail_over_mac_bond _ s old)).trans
          (congrArg Bonding.curr_active_slave hold)
      · exact congrArg Bonding.curr_active_slave hold
  · have hnew : ((w.onSlave old bond_set_slave_inactive_flags).onSlave new fun w new =>
        let w := w.bond_set_slave_active_flags new
        if w.bond.params.fail_over_mac ≠ FailOverMac.none then w.copy_dev_addr new
        else w).bond = w.bond := by
      refine (onSlave_keeps World.bond fun s => ?_).trans hold
      dsimp only
      split_ifs <;> rfl
    have hkept := congrArg Bonding.curr_active_slave hnew
    unfold activebackup_changed_24
    dsimp only at hkept ⊢
    split
    · split_ifs
      · exact hkept
      · exact (gratuitous_arp_active _).trans hkept
    · exact (gratuitous_arp_active _).trans hkept

theorem change_active_installs {w : World} (h : w.SwitchesAs) (s : SlaveId) :
    (w.bond_change_active_slave (some s)).bond.curr_active_slave = some s := by
  have hinstall : ∀ v : World, v.bond.params.mode = w.bond.params.mode → ∀ old,
      (v.install_active (some s) old).bond.curr_active_slave = some s := by
    intro v hv old
    unfold install_active
    dsimp only
    split_ifs with hm
    · rw [hv] at hm
      have hset := (h (Or.inr hm)).active v s
      cases old with
      | none => exact hset
      | some o =>
        exact (congrArg Bonding.curr_active_slave
          (bond_set_slave_inactive_flags_bond _ o)).trans hset
    · rfl
  have hcore : (((w.onSlave (some s) promote_link).bond_mc_swap (some s)
      w.bond.curr_active_slave)).core = w.core := by
    simp
  have hset := hinstall _ (congrArg Core.mode hcore) w.bond.curr_active_slave
  unfold bond_change_active_slave
  dsimp only
  split_ifs with hsame
  · exact hsame
  · exact hset
  · exact (activebackup_active _ _ _).1.trans hset
  · exact (activebackup_active _ _ _).2.trans hset

theorem SwitchesAs.of_mode {v w : World} (h : w.SwitchesAs)
    (hm : v.bond.params.mode = w.bond.params.mode) : v.SwitchesAs := fun hv => h (hm ▸ hv)

omit [Siblings] in
theorem Ring.passive_none {w : World} {l : List SlaveId} (h : w.Ring l) :
    w.passive_slave = none ↔ ∀ s ∈ l, w.bond.curr_active_slave = some s := by
  unfold passive_slave
  rw [h.for_each, List.find?_eq_none]
  refine forall₂_congr fun s _ => ?_
  rw [bne_iff_ne, not_ne_iff, eq_comm]

omit [Siblings] in
theorem Ring.passive_some {w : World} {l : List SlaveId} (h : w.Ring l) {s : SlaveId}
    (hp : w.passive_slave = some s) : s ∈ l ∧ w.bond.curr_active_slave ≠ some s := by
  unfold passive_slave at hp
  rw [h.for_each] at hp
  have hne := List.find?_some hp
  rw [bne_iff_ne] at hne
  exact ⟨List.mem_of_find?_eq_some hp, hne.symm⟩

omit [Siblings] in
theorem Ring.passive_of_two {w : World} {l : List SlaveId} (h : w.Ring l) (hl : l.length = 2)
    {a b : SlaveId} (ha : a ∈ l) (hb : b ∈ l) (hab : a ≠ b)
    (hact : w.bond.curr_active_slave = some a) : w.passive_slave = some b := by
  cases hp : w.passive_slave with
  | none =>
    have hall := h.passive_none.mp hp b hb
    rw [hact, Option.some.injEq] at hall
    exact absurd hall hab
  | some s =>
    obtain ⟨hs, hne⟩ := h.passive_some hp
    rw [hact, ne_eq, Option.some.injEq] at hne
    obtain ⟨x, y, rfl⟩ := List.length_eq_two.mp hl
    simp only [List.mem_cons, List.not_mem_nil, or_false] at ha hb hs
    rcases ha with rfl | rfl <;> rcases hb with rfl | rfl <;> rcases hs with rfl | rfl <;> simp_all

omit [Siblings] in
/-- MAKE with its locks taken, and once it has switched. -/
def make_begun (w : World) : World := (w.lock .bond .read).lock .curr_slave .write

omit [Siblings] in
def make_done (w : World) : World :=
  ((w.setBond fun b => { b with buffer_mode := 1 }).unlock .curr_slave .write).unlock .bond .read

theorem make_some {w : World} {s : SlaveId} (h : w.passive_slave = some s) :
    w.bond_ioctl_make.2 = (w.make_begun.bond_change_active_slave (some s)).make_done := by
  have hp : w.make_begun.passive_slave = some s := h
  have hswitch : w.make_begun.switch_to_passive = w.make_begun.bond_change_active_slave (some s) := by
    unfold switch_to_passive
    rw [hp]
  have hmake : w.bond_ioctl_make.2 = w.make_begun.switch_to_passive.make_done := rfl
  rw [hmake, hswitch]

theorem make_none {w : World} (h : w.passive_slave = none) :
    w.bond_ioctl_make.2 = w.make_begun.make_done := by
  have hp : w.make_begun.passive_slave = none := h
  have hswitch : w.make_begun.switch_to_passive = w.make_begun := by
    unfold switch_to_passive
    rw [hp]
  have hmake : w.bond_ioctl_make.2 = w.make_begun.switch_to_passive.make_done := rfl
  rw [hmake, hswitch]

theorem make_switches {w : World} {l : List SlaveId} (h : w.Ring l) (hs : w.SwitchesAs) :
    w.bond_ioctl_make.2.Ring l ∧ w.bond_ioctl_make.2.SwitchesAs ∧
      (∀ s, (w.bond_ioctl_make.2.slave_dev s).name = (w.slave_dev s).name) ∧
      ∀ s, w.passive_slave = some s → w.bond_ioctl_make.2.bond.curr_active_slave = some s := by
  cases hp : w.passive_slave with
  | none =>
    obtain ⟨y, hy⟩ : ∃ y, y = w.make_begun := ⟨_, rfl⟩
    have hshape : y.shape = w.shape := hy ▸ rfl
    have hmode : y.bond.params.mode = w.bond.params.mode := hy ▸ rfl
    have hname : ∀ s, (y.slave_dev s).name = (w.slave_dev s).name := hy ▸ fun _ => rfl
    rw [make_none hp, ← hy]
    refine ⟨(h.of_shape hshape).congr rfl rfl rfl, hs.of_mode hmode, hname, fun s hs => ?_⟩
    cases hs
  | some s =>
    have hbs : w.make_begun.SwitchesAs := hs
    obtain ⟨y, hy⟩ : ∃ y, y = w.make_begun.bond_change_active_slave (some s) := ⟨_, rfl⟩
    have hshape : y.shape = w.shape := hy ▸ shape_change_active w.make_begun (some s)
    have hcore : y.core = w.make_begun.core := hy ▸ core_change_active w.make_begun (some s)
    have hmode : y.bond.params.mode = w.bond.params.mode := congrArg Core.mode hcore
    have hnames : y.names = w.names := hy ▸ names_change_active hbs (some s)
    rw [make_some hp, ← hy]
    refine ⟨(h.of_shape hshape).congr rfl rfl rfl, hs.of_mode hmode, fun t => ?_, fun t ht => ?_⟩
    · have hdev : (y.slaves t).dev = (w.slaves t).dev := congrFun (congrArg Shape.dev hshape) t
      have hname : (y.slave_dev t).name = (w.slave_dev t).name := by
        unfold slave_dev
        rw [hdev]
        exact congrFun hnames _
      exact hname
    · have hact := change_active_installs hbs s
      rw [← hy] at hact
      rw [← ht]
      exact hact

theorem make_twice {w : World} {l : List SlaveId} (h : w.Ring l) (hs : w.SwitchesAs)
    (hl : l.length = 2) {a : SlaveId} (ha : a ∈ l) (hact : w.bond.curr_active_slave = some a) :
    w.bond_ioctl_make.2.passive_slave = some a ∧
      w.bond_ioctl_make.2.bond_ioctl_make.2.bond.curr_active_slave = some a := by
  obtain ⟨b, hb, hab⟩ : ∃ b ∈ l, a ≠ b := by
    obtain ⟨x, y, rfl⟩ := List.length_eq_two.mp hl
    have hxy : x ≠ y := by
      have hnd := h.nodup
      simpa using hnd
    by_cases hax : a = x
    · exact ⟨y, by simp, hax ▸ hxy⟩
    · exact ⟨x, by simp, hax⟩
  obtain ⟨hring, hsib, -, hinst⟩ := make_switches h hs
  have hb' := hinst b (h.passive_of_two hl ha hb hab hact)
  have hpass := hring.passive_of_two hl hb ha hab.symm hb'
  exact ⟨hpass, (make_switches hring hsib).2.2.2 a hpass⟩

theorem make_even {w : World} {l : List SlaveId} (h : w.Ring l) (hs : w.SwitchesAs)
    (hl : l.length = 2) {a : SlaveId} (ha : a ∈ l) (hact : w.bond.curr_active_slave = some a)
    (k : Nat) : ((fun w : World => w.bond_ioctl_make.2)^[2 * k] w).bond.curr_active_slave
      = some a := by
  induction k generalizing w with
  | zero => exact hact
  | succ k ih =>
    have h2 := make_twice h hs hl ha hact
    obtain ⟨hring, hsib, -, -⟩ := make_switches h hs
    obtain ⟨hring2, hsib2, -, -⟩ := make_switches hring hsib
    have hk := ih hring2 hsib2 h2.2
    rw [Nat.mul_succ, Function.iterate_add_apply]
    exact hk

/-- GETPASSIVE fails when there is no other slave, and else names the one that the next MAKE
installs. -/
theorem getpassive_foretells_make {w : World} {l : List SlaveId} (h : w.Ring l)
    (hs : w.SwitchesAs) (env : IoctlEnv) :
    (∃ ret reply, w.bond_do_ioctl env SIOCBONDHOOLOCKGETPASSIVE = some (ret, reply, w) ∧
      (ret ≠ 0 ↔ ∀ s ∈ l, w.bond.curr_active_slave = some s) ∧
      ((∃ s ∈ l, w.bond.curr_active_slave ≠ some s) → ∃ s ∈ l, ∃ v active,
        reply.slave_name = (w.slave_dev s).name.take IFNAMSIZ ∧
        w.bond_do_ioctl env SIOCBONDHOOLOCKMAKE = some (0, .nothing, v) ∧
        v.bond.curr_active_slave = some s ∧ w.bond.curr_active_slave ≠ some s ∧
        v.bond_do_ioctl env SIOCBONDHOOLOCKGETACTIVE = some (0, active, v) ∧
        active.slave_name = reply.slave_name)) ∧
    (l.length = 2 → ∀ a ∈ l, w.bond.curr_active_slave = some a →
      (∃ v passive, w.bond_do_ioctl env SIOCBONDHOOLOCKMAKE = some (0, .nothing, v) ∧
        v.bond_do_ioctl env SIOCBONDHOOLOCKGETPASSIVE = some (0, passive, v) ∧
        passive.slave_name = (w.slave_dev a).name.take IFNAMSIZ) ∧
      ∀ k, ((fun w : World => w.bond_ioctl_make.2)^[2 * k] w).bond.curr_active_slave = some a) := by
  obtain ⟨-, -, hname, hinst⟩ := make_switches h hs
  constructor
  · cases hp : w.passive_slave with
    | none =>
      have hall := h.passive_none.mp hp
      refine ⟨-EFAULT, .nothing, ?_, ?_, ?_⟩
      · rw [do_getpassive, getpassive_none hp]
      · exact iff_of_true (by decide) hall
      · rintro ⟨s, hsl, hne⟩
        exact absurd (hall s hsl) hne
    | some s =>
      obtain ⟨hsl, hne⟩ := h.passive_some hp
      refine ⟨0, w.slave_reply s, ?_, ?_, fun _ => ?_⟩
      · rw [do_getpassive, getpassive_some hp]
      · exact iff_of_false (by simp) fun hall => hne (hall s hsl)
      · refine ⟨s, hsl, w.bond_ioctl_make.2, w.bond_ioctl_make.2.slave_reply s, rfl,
          do_make w env, hinst s hp, hne, ?_, ?_⟩
        · rw [do_getactive, getactive_some (hinst s hp)]
        · exact congrArg (List.take IFNAMSIZ) (hname s)
  · intro hl a ha hact
    obtain ⟨hpass, -⟩ := make_twice h hs hl ha hact
    refine ⟨⟨w.bond_ioctl_make.2, w.bond_ioctl_make.2.slave_reply a, do_make w env, ?_, ?_⟩,
      make_even h hs hl ha hact⟩
    · rw [do_getpassive, getpassive_some hpass]
    · exact congrArg (List.take IFNAMSIZ) (hname a)

end switching

end World

theorem two_cards_foretold :
    ∃ w, Transition.run (@World.step noSiblings) bond0 two_slaves = some w ∧
      ∃ s v passive active,
        @World.bond_do_ioctl noSiblings w .plain SIOCBONDHOOLOCKGETPASSIVE = some (0, passive, w) ∧
        @World.bond_do_ioctl noSiblings w .plain SIOCBONDHOOLOCKMAKE = some (0, .nothing, v) ∧
        @World.bond_do_ioctl noSiblings v .plain SIOCBONDHOOLOCKGETACTIVE = some (0, active, v) ∧
        v.bond.curr_active_slave = some s ∧ active.slave_name = passive.slave_name ∧
        active.slave_name = (w.slave_dev s).name.take IFNAMSIZ := by
  have hrun : (Transition.run (@World.step noSiblings) bond0 two_slaves).any (fun w =>
      w.bond_for_each_slave == [0, 1] && w.bond.curr_active_slave == some 0) = true := by
    decide +kernel
  obtain ⟨w, hw, hcond⟩ := (Option.any_eq_true _ _).mp hrun
  rw [Bool.and_eq_true, beq_iff_eq, beq_iff_eq] at hcond
  obtain ⟨l, hi⟩ := @World.Host.run_inv noSiblings machine w 0 machine_host hoolock_params rfl _ hw
  have hl : l = [0, 1] := hi.for_each.symm.trans hcond.1
  subst hl
  have hs : @World.SwitchesAs noSiblings w := fun hmode => by simp [hi.mode] at hmode
  obtain ⟨⟨ret, passive, hp, hret, hmake⟩, -⟩ :=
    @World.getpassive_foretells_make noSiblings w [0, 1] hi.toRing hs .plain
  have hother : ∃ s ∈ [0, 1], w.bond.curr_active_slave ≠ some s :=
    ⟨1, by simp, by rw [hcond.2]; decide⟩
  have hzero : ret = 0 := by
    by_contra hne
    obtain ⟨s, hsl, hs'⟩ := hother
    exact hs' (hret.mp hne s hsl)
  obtain ⟨s, -, v, active, hname, hv, hact, -, hga, heq⟩ := hmake hother
  exact ⟨w, hw, s, v, passive, active, hzero ▸ hp, hv, hga, hact, heq, heq.trans hname⟩

end Hoolock
