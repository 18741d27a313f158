import Hoolock.Ioctl
import Hoolock.Session

/-!
The way from the system call to the bond: `dev_ioctl` and `dev_ifsioc`, which are the same in
both kernels, and what a caller without CAP_NET_ADMIN can do through them.
-/

set_option autoImplicit false

namespace Hoolock

def AF_UNSPEC : Nat := 0

def SIOCGIFNAME : Nat := 0x8910
def SIOCSIFLINK : Nat := 0x8911
def SIOCGIFCONF : Nat := 0x8912
def SIOCGIFFLAGS : Nat := 0x8913
def SIOCSIFFLAGS : Nat := 0x8914
def SIOCGIFMETRIC : Nat := 0x891d
def SIOCSIFMETRIC : Nat := 0x891e
def SIOCGIFMEM : Nat := 0x891f
def SIOCSIFMEM : Nat := 0x8920
def SIOCGIFMTU : Nat := 0x8921
def SIOCSIFMTU : Nat := 0x8922
def SIOCSIFNAME : Nat := 0x8923
def SIOCSIFHWADDR : Nat := 0x8924
def SIOCGIFHWADDR : Nat := 0x8927
def SIOCGIFSLAVE : Nat := 0x8929
def SIOCSIFSLAVE : Nat := 0x8930
def SIOCADDMULTI : Nat := 0x8931
def SIOCDELMULTI : Nat := 0x8932
def SIOCGIFINDEX : Nat := 0x8933
def SIOCSIFHWBROADCAST : Nat := 0x8937
def SIOCGIFTXQLEN : Nat := 0x8942
def SIOCSIFTXQLEN : Nat := 0x8943
def SIOCETHTOOL : Nat := 0x8946
def SIOCSMIIREG : Nat := 0x8949
def SIOCWANDEV : Nat := 0x894A
def SIOCGIFMAP : Nat := 0x8970
def SIOCSIFMAP : Nat := 0x8971
def SIOCBRADDIF : Nat := 0x89a2
def SIOCBRDELIF : Nat := 0x89a3
def SIOCIWFIRST : Nat := 0x8B00
def SIOCIWLAST : Nat := 0x8BFF

/-- The argument of `dev_ioctl` and what the call meets. -/
structure IfreqEnv extends IoctlEnv where
  /-- `struct ifreq` can be read and written -/
  readable : Bool
  writable : Bool
  ifr_name : List Char
  sa_family : Nat
  ifr_qlen : Int
  /-- `capable(CAP_SYS_MODULE)` -/
  sys_module : Bool
  /-- what `dev_ifconf` and `dev_ifname` return, which only read -/
  dev_ifconf : Int
  dev_ifname : Int

/-- What the two functions call outside the bond's driver. -/
structure Callees where
  request_module : List Char → World → World
  dev_ethtool : IfreqEnv → List Char → World → Int × World
  wext_handle_ioctl : IfreqEnv → Nat → List Char → World → Int × Reply × World
  /-- the drivers of the other devices -/
  do_ioctl : DevId → Option (IfreqEnv → Nat → World → Int × Reply × World)
  dev_change_flags : IfreqEnv → DevId → World → Int × World
  dev_set_mtu : IfreqEnv → DevId → World → Int × World
  dev_set_mac_address : IfreqEnv → DevId → World → Int × World
  dev_set_broadcast : IfreqEnv → DevId → World → World
  set_config : DevId → Option (IfreqEnv → World → Int × World)
  has_rx_mode : DevId → Bool
  dev_mc_add : IfreqEnv → DevId → World → Int × World
  dev_mc_delete : IfreqEnv → DevId → World → Int × World
  set_tx_queue_len : IfreqEnv → DevId → World → World
  dev_change_name : IfreqEnv → DevId → World → Int × World

/-- `ifr_name` up to a colon. -/
def IfreqEnv.name (env : IfreqEnv) : List Char :=
  (env.ifr_name.take (IFNAMSIZ - 1)).takeWhile (· ≠ ':')

def get_cmds : List Nat :=
  [SIOCGIFFLAGS, SIOCGIFMETRIC, SIOCGIFMTU, SIOCGIFHWADDR, SIOCGIFSLAVE, SIOCGIFMAP,
    SIOCGIFINDEX, SIOCGIFTXQLEN]

def superuser_get_cmds : List Nat := [SIOCGMIIPHY, SIOCGMIIREG, SIOCSIFNAME]

def superuser_cmds : List Nat :=
  [SIOCSIFFLAGS, SIOCSIFMETRIC, SIOCSIFMTU, SIOCSIFMAP, SIOCSIFHWADDR, SIOCSIFSLAVE,
    SIOCADDMULTI, SIOCDELMULTI, SIOCSIFHWBROADCAST, SIOCSIFTXQLEN, SIOCSMIIREG, SIOCBONDENSLAVE,
    SIOCBONDRELEASE, SIOCBONDSETHWADDR, SIOCBONDCHANGEACTIVE, SIOCBONDHOOLOCKMAKE,
    SIOCBONDHOOLOCKBREAK, SIOCBONDHOOLOCKGETACTIVE, SIOCBONDHOOLOCKGETPASSIVE,
    SIOCBONDHOOLOCKTEST, SIOCBRADDIF, SIOCBRDELIF]

def query_cmds : List Nat := [SIOCBONDSLAVEINFOQUERY, SIOCBONDINFOQUERY]

def unsupported_cmds : List Nat := [SIOCGIFMEM, SIOCSIFMEM, SIOCSIFLINK]

def is_private (cmd : Nat) : Bool := SIOCDEVPRIVATE ≤ cmd ∧ cmd ≤ SIOCDEVPRIVATE + 15

/-- The commands `dev_ifsioc` hands to the device's driver. -/
def forwarded_cmds : List Nat :=
  [SIOCBONDENSLAVE, SIOCBONDRELEASE, SIOCBONDSETHWADDR, SIOCBONDSLAVEINFOQUERY, SIOCBONDINFOQUERY,
    SIOCBONDCHANGEACTIVE, SIOCBONDHOOLOCKMAKE, SIOCBONDHOOLOCKBREAK, SIOCBONDHOOLOCKGETACTIVE,
    SIOCBONDHOOLOCKGETPASSIVE, SIOCBONDHOOLOCKTEST, SIOCGMIIPHY, SIOCGMIIREG, SIOCSMIIREG,
    SIOCBRADDIF, SIOCBRDELIF, SIOCWANDEV]

namespace World

/-- `dev_load`: what is not there may be a module. -/
def dev_load (calls : Callees) (w : World) (env : IfreqEnv) (name : List Char) : World :=
  if w.dev_get_by_name name = none ∧ env.sys_module then calls.request_module name w else w

def dev_ifsioc_locked (w : World) (name : List Char) (cmd : Nat) : Int :=
  match w.dev_get_by_name name with
  | none => -ENODEV
  | some _ => if cmd = SIOCGIFSLAVE then -EINVAL else 0

/-- Only what the bond's driver writes back is kept. -/
def noReply (r : Int × World) : Option (Int × Reply × World) := some (r.1, .nothing, r.2)

/-- `copy_to_user` of the `struct ifreq` after a success. -/
def copy_back (env : IfreqEnv) (r : Int × Reply × World) : Int × Reply × World :=
  if r.1 = 0 ∧ !env.writable then (-EFAULT, r.2) else r

variable [Siblings]

def do_ioctl (calls : Callees) (w : World) (env : IfreqEnv) (cmd : Nat) (dev : DevId) :
    Option (Int × Reply × World) :=
  let present := (w.devs dev).present
  if dev = w.bond.dev then
    if present then w.bond_do_ioctl env.toIoctlEnv cmd else some (-ENODEV, .nothing, w)
  else
    match calls.do_ioctl dev with
    | none => some (-EOPNOTSUPP, .nothing, w)
    | some driver => if present then some (driver env cmd w) else some (-ENODEV, .nothing, w)

/-- `none` when the call does not return. -/
def dev_ifsioc (calls : Callees) (w : World) (env : IfreqEnv) (name : List Char) (cmd : Nat) :
    Option (Int × Reply × World) :=
  match w.dev_get_by_name name with
  | none => some (-ENODEV, .nothing, w)
  | some dev =>
    let present := (w.devs dev).present
    -- shared by SIOCADDMULTI and SIOCDELMULTI
    let multi := fun change : IfreqEnv → DevId → World → Int × World =>
      if !calls.has_rx_mode dev ∨ env.sa_family ≠ AF_UNSPEC then noReply (-EINVAL, w)
      else if !present then noReply (-ENODEV, w)
      else noReply (change env dev w)
    if cmd = SIOCSIFFLAGS then noReply (calls.dev_change_flags env dev w)
    else if cmd = SIOCSIFMETRIC then noReply (-EOPNOTSUPP, w)
    else if cmd = SIOCSIFMTU then noReply (calls.dev_set_mtu env dev w)
    else if cmd = SIOCSIFHWADDR then noReply (calls.dev_set_mac_address env dev w)
    else if cmd = SIOCSIFHWBROADCAST then
      if env.sa_family ≠ (w.devs dev).type then noReply (-EINVAL, w)
      else noReply (0, calls.dev_set_broadcast env dev w)
    else if cmd = SIOCSIFMAP then
      match calls.set_config dev with
      | some config => if !present then noReply (-ENODEV, w) else noReply (config env w)
      | none => noReply (-EOPNOTSUPP, w)
    else if cmd = SIOCADDMULTI then multi calls.dev_mc_add
    else if cmd = SIOCDELMULTI then multi calls.dev_mc_delete
    else if cmd = SIOCSIFTXQLEN then
      if env.ifr_qlen < 0 then noReply (-EINVAL, w)
      else noReply (0, calls.set_tx_queue_len env dev w)
    else if cmd = SIOCSIFNAME then noReply (calls.dev_change_name env dev w)
    else if is_private cmd ∨ cmd ∈ forwarded_cmds then w.do_ioctl calls env cmd dev
    else noReply (-EINVAL, w)

def dev_ioctl (calls : Callees) (w : World) (env : IfreqEnv) (cmd : BitVec 32) :
    Option (Int × Reply × World) :=
  let cmd := cmd.toNat
  let name := env.name
  let loaded := w.dev_load calls env name
  if cmd = SIOCGIFCONF then noReply (env.dev_ifconf, w)
  else if cmd = SIOCGIFNAME then noReply (env.dev_ifname, w)
  else if !env.readable then noReply (-EFAULT, w)
  else if cmd ∈ get_cmds then
    some (copy_back env (loaded.dev_ifsioc_locked name cmd, .nothing, loaded))
  else if cmd = SIOCETHTOOL then
    let r := calls.dev_ethtool env name loaded
    some (copy_back env (r.1, .nothing, r.2))
  else if cmd ∈ superuser_get_cmds then
    if !env.capable then noReply (-EPERM, w)
    else (loaded.dev_ifsioc calls env name cmd).map (copy_back env)
  else if cmd ∈ superuser_cmds ++ query_cmds then
    if cmd ∈ superuser_cmds ∧ !env.capable then noReply (-EPERM, w)
    else loaded.dev_ifsioc calls env name cmd
  else if cmd ∈ unsupported_cmds then noReply (-EINVAL, w)
  else if cmd = SIOCWANDEV ∨ is_private cmd then
    (loaded.dev_ifsioc calls env name cmd).map (copy_back env)
  else if SIOCIWFIRST ≤ cmd ∧ cmd ≤ SIOCIWLAST then some (calls.wext_handle_ioctl env cmd name w)
  else noReply (-EINVAL, w)

/-- The bond's record, with the ring, the active slave, the handover state and the parameters,
the slaves' records and the bond's address are the same in `v` as in `w`. -/
structure Untouched (w v : World) : Prop where
  bond : v.bond = w.bond
  slaves : v.slaves = w.slaves
  addr : v.bond_dev.dev_addr = w.bond_dev.dev_addr

omit [Siblings] in
theorem Untouched.refl (w : World) : Untouched w w := ⟨rfl, rfl, rfl⟩

omit [Siblings] in
theorem Untouched.trans {w v u : World} (h : Untouched w v) (k : Untouched v u) :
    Untouched w u := ⟨k.bond.trans h.bond, k.slaves.trans h.slaves, k.addr.trans h.addr⟩

omit [Siblings] in
theorem Untouched.of_devs {w v : World} (hb : v.bond = w.bond) (hs : v.slaves = w.slaves)
    (hd : v.devs = w.devs) : Untouched w v := by
  refine ⟨hb, hs, ?_⟩
  unfold bond_dev
  rw [hb, hd]

omit [Siblings] in
theorem Untouched.lock {w v : World} (h : Untouched w v) (n : LockName) (m : LockMode) :
    Untouched w (v.lock n m) := h.trans (Untouched.of_devs rfl rfl rfl)

omit [Siblings] in
theorem Untouched.unlock {w v : World} (h : Untouched w v) (n : LockName) (m : LockMode) :
    Untouched w (v.unlock n m) := h.trans (Untouched.of_devs rfl rfl rfl)

omit [Siblings] in
theorem queries_untouched (w : World) (env : IoctlEnv) :
    Untouched w (w.bond_mii_query env).2.2 ∧ Untouched w (w.bond_info_query env).2.2 ∧
      Untouched w (w.bond_slave_info_query env).2.2 ∧ Untouched w w.bond_getactive.2.2 ∧
      Untouched w w.bond_getpassive.2.2 := by
  have hread := (Untouched.refl w).lock .bond .read
  have hback := hread.unlock .bond .read
  have hboth := hread.lock .curr_slave .read
  have hdone := (hboth.unlock .curr_slave .read).unlock .bond .read
  refine ⟨?_, ?_, ?_, ?_, ?_⟩
  · unfold bond_mii_query
    cases env.mii with
    | none => exact Untouched.refl w
    | some reg_num =>
      dsimp only
      split_ifs
      · exact hdone
      · exact Untouched.refl w
  · unfold bond_info_query
    dsimp only
    split_ifs
    · exact Untouched.refl w
    · exact hback
    · exact hback
  · unfold bond_slave_info_query
    dsimp only
    split_ifs
    · exact Untouched.refl w
    · exact Untouched.refl w
    all_goals
      split
      · exact hback
      · exact hback
  · unfold bond_getactive
    dsimp only
    split
    · exact hboth
    · exact hdone
  · unfold bond_getpassive
    dsimp only
    split
    · exact hdone
    · exact hdone

/-- The driver's own check covers all commands but the three that switch. -/
theorem bond_do_ioctl_unprivileged (w : World) {env : IoctlEnv} (hcap : env.capable = false)
    {cmd : Nat} (hmake : cmd ≠ SIOCBONDHOOLOCKMAKE) (hbreak : cmd ≠ SIOCBONDHOOLOCKBREAK)
    (htest : cmd ≠ SIOCBONDHOOLOCKTEST) :
    ∃ x, w.bond_do_ioctl env cmd = some x ∧ Untouched w x.2.2 := by
  obtain ⟨hmii, hinfo, hslave, hactive, hpassive⟩ := queries_untouched w env
  have hdenied : (!env.capable) = true := by
    rw [hcap]
    rfl
  unfold bond_do_ioctl
  simp only [hmake, hbreak, htest, false_and, if_false, hdenied, if_true]
  split_ifs
  · exact ⟨_, rfl, hmii⟩
  · exact ⟨_, rfl, hinfo⟩
  · exact ⟨_, rfl, hslave⟩
  · exact ⟨_, rfl, hactive⟩
  · exact ⟨_, rfl, hpassive⟩
  · exact ⟨_, rfl, Untouched.refl w⟩

def unchecked_cmds (port : Port) : List Nat :=
  [SIOCBONDHOOLOCKMAKE, SIOCBONDHOOLOCKBREAK, SIOCBONDHOOLOCKGETACTIVE,
    SIOCBONDHOOLOCKGETPASSIVE] ++ if port = .k24 then [SIOCBONDHOOLOCKTEST] else []

theorem unchecked (w : World) (env : IoctlEnv) {cmd : Nat} (hcmd : cmd ∈ unchecked_cmds w.port)
    (c : Bool) : w.bond_do_ioctl { env with capable := c } cmd = w.bond_do_ioctl env cmd := by
  have hcases : cmd = SIOCBONDHOOLOCKMAKE ∨ cmd = SIOCBONDHOOLOCKBREAK ∨
      cmd = SIOCBONDHOOLOCKGETACTIVE ∨ cmd = SIOCBONDHOOLOCKGETPASSIVE ∨
      (cmd = SIOCBONDHOOLOCKTEST ∧ w.port = .k24) := by
    unfold unchecked_cmds at hcmd
    split_ifs at hcmd with hport
    · simpa [hport] using hcmd
    · simpa [hport] using hcmd
  rcases hcases with rfl | rfl | rfl | rfl | ⟨rfl, hport⟩
  · rfl
  · rfl
  · rfl
  · rfl
  · unfold bond_do_ioctl
    simp [hport, SIOCBONDHOOLOCKTEST, SIOCGMIIPHY, SIOCGMIIREG, BOND_INFO_QUERY_OLD,
      SIOCBONDINFOQUERY, BOND_SLAVE_INFO_QUERY_OLD, SIOCBONDSLAVEINFOQUERY, SIOCDEVPRIVATE,
      SIOCBONDHOOLOCKGETACTIVE, SIOCBONDHOOLOCKGETPASSIVE, SIOCBONDHOOLOCKMAKE,
      SIOCBONDHOOLOCKBREAK]

/-- The rest of the kernel keeps its hands off the bond when the caller is not privileged: a
module that is loaded, the ethtool calls, the drivers of other devices; and the wireless
extensions reach it through its driver or not at all. -/
structure Contained (calls : Callees) : Prop where
  request_module : ∀ name w, Untouched w (calls.request_module name w)
  dev_ethtool : ∀ (env : IfreqEnv) name w, env.capable = false →
    Untouched w (calls.dev_ethtool env name w).2
  do_ioctl : ∀ dev driver (env : IfreqEnv) cmd w, calls.do_ioctl dev = some driver →
    env.capable = false → dev ≠ w.bond.dev → Untouched w (driver env cmd w).2.2
  wext_handle_ioctl : ∀ (env : IfreqEnv) cmd name w, env.capable = false →
    Untouched w (calls.wext_handle_ioctl env cmd name w).2.2 ∨ ∃ u, Untouched w u ∧
      u.bond_do_ioctl env.toIoctlEnv cmd = some (calls.wext_handle_ioctl env cmd name w)

theorem Contained.load {calls : Callees} (h : Contained calls) (w : World) (env : IfreqEnv)
    (name : List Char) : Untouched w (w.dev_load calls env name) := by
  unfold dev_load
  split_ifs
  · exact h.request_module name w
  · exact Untouched.refl w

theorem Contained.driver {calls : Callees} (h : Contained calls) (w : World) {env : IfreqEnv}
    (hcap : env.capable = false) {cmd : Nat} (hmake : cmd ≠ SIOCBONDHOOLOCKMAKE)
    (hbreak : cmd ≠ SIOCBONDHOOLOCKBREAK) (htest : cmd ≠ SIOCBONDHOOLOCKTEST) (dev : DevId) :
    ∃ x, w.do_ioctl calls env cmd dev = some x ∧ Untouched w x.2.2 := by
  unfold World.do_ioctl
  dsimp only
  by_cases hdev : dev = w.bond.dev
  · rw [if_pos hdev]
    by_cases hpresent : (w.devs dev).present = true
    · rw [if_pos hpresent]
      exact bond_do_ioctl_unprivileged w hcap hmake hbreak htest
    · rw [if_neg hpresent]
      exact ⟨_, rfl, Untouched.refl w⟩
  · rw [if_neg hdev]
    cases hdriver : calls.do_ioctl dev with
    | none => exact ⟨_, rfl, Untouched.refl w⟩
    | some driver =>
      dsimp only
      by_cases hpresent : (w.devs dev).present = true
      · rw [if_pos hpresent]
        exact ⟨_, rfl, h.do_ioctl dev driver env cmd w hdriver hcap hdev⟩
      · rw [if_neg hpresent]
        exact ⟨_, rfl, Untouched.refl w⟩

/-- The commands that reach `dev_ifsioc` without privilege. -/
def open_cmd (cmd : Nat) : Bool := is_private cmd || query_cmds.contains cmd || cmd == SIOCWANDEV

omit [Siblings] in
theorem open_cmd_values {cmd : Nat} (h : open_cmd cmd = true) :
    (0x89F0 ≤ cmd ∧ cmd ≤ 0x89FF) ∨ cmd = 0x8993 ∨ cmd = 0x8994 ∨ cmd = 0x894A := by
  simp only [open_cmd, is_private, query_cmds, Bool.or_eq_true, decide_eq_true_eq,
    List.contains_cons, List.contains_nil, beq_iff_eq, Bool.or_false] at h
  simp only [SIOCDEVPRIVATE, SIOCBONDSLAVEINFOQUERY, SIOCBONDINFOQUERY, SIOCWANDEV] at h
  omega

theorem Contained.ifsioc {calls : Callees} (h : Contained calls) (w : World) {env : IfreqEnv}
    (hcap : env.capable = false) {cmd : Nat} (hcmd : open_cmd cmd = true) (name : List Char) :
    ∃ x, w.dev_ifsioc calls env name cmd = some x ∧ Untouched w x.2.2 := by
  have hvalue := open_cmd_values hcmd
  unfold dev_ifsioc
  cases w.dev_get_by_name name with
  | none => exact ⟨_, rfl, Untouched.refl w⟩
  | some dev =>
    dsimp only
    rw [if_neg (by unfold SIOCSIFFLAGS; omega), if_neg (by unfold SIOCSIFMETRIC; omega),
      if_neg (by unfold SIOCSIFMTU; omega), if_neg (by unfold SIOCSIFHWADDR; omega),
      if_neg (by unfold SIOCSIFHWBROADCAST; omega), if_neg (by unfold SIOCSIFMAP; omega),
      if_neg (by unfold SIOCADDMULTI; omega), if_neg (by unfold SIOCDELMULTI; omega),
      if_neg (by unfold SIOCSIFTXQLEN; omega), if_neg (by unfold SIOCSIFNAME; omega)]
    by_cases hforward : is_private cmd = true ∨ cmd ∈ forwarded_cmds
    · rw [if_pos hforward]
      refine h.driver w hcap ?_ ?_ ?_ dev
      · unfold SIOCBONDHOOLOCKMAKE
        omega
      · unfold SIOCBONDHOOLOCKBREAK
        omega
      · unfold SIOCBONDHOOLOCKTEST
        omega
    · rw [if_neg hforward]
      exact ⟨_, rfl, Untouched.refl w⟩

omit [Siblings] in
theorem copy_back_untouched {w : World} (env : IfreqEnv) {r : Int × Reply × World}
    (h : Untouched w r.2.2) : Untouched w (copy_back env r).2.2 := by
  unfold copy_back
  split_ifs <;> exact h

/-- Whatever the command, the argument and the state of the bond: a caller without CAP_NET_ADMIN
gets an answer and leaves the bond as it is, also where the driver itself would not check. -/
theorem dev_ioctl_unprivileged {calls : Callees} (h : Contained calls) (w : World)
    {env : IfreqEnv} (hcap : env.capable = false) (cmd : BitVec 32) :
    (∃ x, w.dev_ioctl calls env cmd = some x ∧ Untouched w x.2.2) ∧
      (cmd.toNat ∈ unchecked_cmds w.port → ∀ c,
        w.bond_do_ioctl { env.toIoctlEnv with capable := c } cmd.toNat =
          w.bond_do_ioctl env.toIoctlEnv cmd.toNat) := by
  refine ⟨?_, fun hcmd c => unchecked w env.toIoctlEnv hcmd c⟩
  have hload := h.load w env env.name
  have hdenied : (!env.capable) = true := by
    rw [hcap]
    rfl
  obtain ⟨n, hn⟩ : ∃ n, n = cmd.toNat := ⟨_, rfl⟩
  have hifsioc : open_cmd n = true → ∃ x,
      (w.dev_load calls env env.name).dev_ifsioc calls env env.name n = some x ∧
        Untouched w x.2.2 := by
    intro hopen
    obtain ⟨x, hx, hun⟩ := h.ifsioc (w.dev_load calls env env.name) hcap hopen env.name
    exact ⟨x, hx, hload.trans hun⟩
  unfold dev_ioctl
  dsimp only
  rw [← hn]
  by_cases hconf : n = SIOCGIFCONF
  · rw [if_pos hconf]
    exact ⟨_, rfl, Untouched.refl w⟩
  rw [if_neg hconf]
  by_cases hname : n = SIOCGIFNAME
  · rw [if_pos hname]
    exact ⟨_, rfl, Untouched.refl w⟩
  rw [if_neg hname]
  by_cases hread : (!env.readable) = true
  · rw [if_pos hread]
    exact ⟨_, rfl, Untouched.refl w⟩
  rw [if_neg hread]
  by_cases hget : n ∈ get_cmds
  · rw [if_pos hget]
    exact ⟨_, rfl, copy_back_untouched env hload⟩
  rw [if_neg hget]
  by_cases htool : n = SIOCETHTOOL
  · rw [if_pos htool]
    exact ⟨_, rfl, copy_back_untouched env (hload.trans (h.dev_ethtool env env.name _ hcap))⟩
  rw [if_neg htool]
  by_cases hsuper : n ∈ superuser_get_cmds
  · rw [if_pos hsuper, if_pos hdenied]
    exact ⟨_, rfl, Untouched.refl w⟩
  rw [if_neg hsuper]
  by_cases hmixed : n ∈ superuser_cmds ++ query_cmds
  · rw [if_pos hmixed]
    by_cases hadmin : n ∈ superuser_cmds
    · rw [if_pos ⟨hadmin, hdenied⟩]
      exact ⟨_, rfl, Untouched.refl w⟩
    · rw [if_neg fun hboth => hadmin hboth.1]
      have hquery : n ∈ query_cmds := (List.mem_append.mp hmixed).resolve_left hadmin
      exact hifsioc (by simp [open_cmd, hquery])
  rw [if_neg hmixed]
  by_cases hnone : n ∈ unsupported_cmds
  · rw [if_pos hnone]
    exact ⟨_, rfl, Untouched.refl w⟩
  rw [if_neg hnone]
  by_cases hprivate : n = SIOCWANDEV ∨ is_private n = true
  · rw [if_pos hprivate]
    have hopen : open_cmd n = true := by
      rcases hprivate with hwan | hpriv
      · simp [open_cmd, hwan]
      · simp [open_cmd, hpriv]
    obtain ⟨x, hx, hun⟩ := hifsioc hopen
    rw [hx]
    exact ⟨_, rfl, copy_back_untouched env hun⟩
  rw [if_neg hprivate]
  by_cases hwext : SIOCIWFIRST ≤ n ∧ n ≤ SIOCIWLAST
  · rw [if_pos hwext]
    refine ⟨_, rfl, ?_⟩
    rcases h.wext_handle_ioctl env n env.name w hcap with hun | ⟨u, hu, hdriver⟩
    · exact hun
    · unfold SIOCIWFIRST SIOCIWLAST at hwext
      obtain ⟨x, hx, hun⟩ := @bond_do_ioctl_unprivileged _ u env.toIoctlEnv hcap n
        (by unfold SIOCBONDHOOLOCKMAKE; omega) (by unfold SIOCBONDHOOLOCKBREAK; omega)
        (by unfold SIOCBONDHOOLOCKTEST; omega)
      rw [hdriver, Option.some.injEq] at hx
      rw [hx]
      exact hu.trans hun
  · rw [if_neg hwext]
    exact ⟨_, rfl, Untouched.refl w⟩

end World

def Callees.none : Callees :=
  { request_module := fun _ w => w, dev_ethtool := fun _ _ w => (-EPERM, w)
    wext_handle_ioctl := fun _ _ _ w => (-EOPNOTSUPP, .nothing, w), do_ioctl := fun _ => Option.none
    dev_change_flags := fun _ _ w => (-EOPNOTSUPP, w), dev_set_mtu := fun _ _ w => (-EOPNOTSUPP, w)
    dev_set_mac_address := fun _ _ w => (-EOPNOTSUPP, w), dev_set_broadcast := fun _ _ w => w
    set_config := fun _ => Option.none, has_rx_mode := fun _ => false
    dev_mc_add := fun _ _ w => (-EINVAL, w), dev_mc_delete := fun _ _ w => (-EINVAL, w)
    set_tx_queue_len := fun _ _ w => w, dev_change_name := fun _ _ w => (-EOPNOTSUPP, w) }

def outsider : IfreqEnv :=
  { IoctlEnv.plain with
    capable := false, ifr_slave := eth0, readable := true, writable := true
    ifr_name := ['b', 'o', 'n', 'd', '0'], sa_family := AF_UNSPEC, ifr_qlen := 0
    sys_module := false, dev_ifconf := 0, dev_ifname := 0 }

theorem callees_none_contained : @World.Contained noSiblings Callees.none := by
  apply @World.Contained.mk noSiblings
  · intro _ w
    exact World.Untouched.refl w
  · intro _ _ w _
    exact World.Untouched.refl w
  · intro _ _ _ _ _ h
    cases h
  · intro _ _ _ w _
    exact Or.inl (World.Untouched.refl w)

/-- In the middle of a handover the old enslave command gets past `dev_ioctl` and no further. -/
theorem outsider_cannot_enslave : ∃ u x,
    Transition.run (@World.step noSiblings) bond0 (two_slaves ++ [.make]) = some u ∧
      u.bond.slave_cnt = 2 ∧ u.bond.buffer_mode = 1 ∧
      @World.dev_ioctl noSiblings Callees.none u outsider 0x89F0#32 = some x ∧
      x.1 = -EPERM ∧ World.Untouched u x.2.2 := by
  have hrun : (Transition.run (@World.step noSiblings) bond0 (two_slaves ++ [.make])).any (fun u =>
      u.bond.slave_cnt == 2 && u.bond.buffer_mode == 1 &&
      (@World.dev_ioctl noSiblings Callees.none u outsider 0x89F0#32).any
        fun x => x.1 == -EPERM) = true := by
    decide +kernel
  obtain ⟨u, hu, hcond⟩ := (Option.any_eq_true _ _).mp hrun
  simp only [Bool.and_eq_true, beq_iff_eq] at hcond
  obtain ⟨⟨hcnt, hbuffer⟩, hdenied⟩ := hcond
  obtain ⟨x, hx, hun⟩ := (@World.dev_ioctl_unprivileged noSiblings _ callees_none_contained u
    outsider rfl 0x89F0#32).1
  rw [hx] at hdenied
  exact ⟨u, x, hu, hcnt, hbuffer, hx, by simpa using hdenied, hun⟩

end Hoolock
