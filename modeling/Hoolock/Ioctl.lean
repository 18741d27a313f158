import Hoolock.Handover

set_option autoImplicit false

namespace Hoolock

def SIOCGMIIPHY : Nat := 0x8947
def SIOCGMIIREG : Nat := 0x8948
def SIOCBONDENSLAVE : Nat := 0x8990
def SIOCBONDRELEASE : Nat := 0x8991
def SIOCBONDSETHWADDR : Nat := 0x8992
def SIOCBONDSLAVEINFOQUERY : Nat := 0x8993
def SIOCBONDINFOQUERY : Nat := 0x8994
def SIOCBONDCHANGEACTIVE : Nat := 0x8995
def SIOCBONDHOOLOCKMAKE : Nat := 0x8996
def SIOCBONDHOOLOCKBREAK : Nat := 0x8997
def SIOCBONDHOOLOCKGETACTIVE : Nat := 0x8998
def SIOCBONDHOOLOCKGETPASSIVE : Nat := 0x8999
def SIOCBONDHOOLOCKTEST : Nat := 0x899a
def SIOCDEVPRIVATE : Nat := 0x89F0
def BOND_ENSLAVE_OLD : Nat := SIOCDEVPRIVATE
def BOND_RELEASE_OLD : Nat := SIOCDEVPRIVATE + 1
def BOND_SETHWADDR_OLD : Nat := SIOCDEVPRIVATE + 2
def BOND_SLAVE_INFO_QUERY_OLD : Nat := SIOCDEVPRIVATE + 11
def BOND_INFO_QUERY_OLD : Nat := SIOCDEVPRIVATE + 12
def BOND_CHANGE_ACTIVE_OLD : Nat := SIOCDEVPRIVATE + 13
def IFNAMSIZ : Nat := 16

/-- The argument of the call and what the call meets. -/
structure IoctlEnv where
  mii : Option Nat
  copy_from_user : Bool
  copy_to_user : Bool
  slave_id : Int
  /-- `capable(CAP_NET_ADMIN)` -/
  capable : Bool
  ifr_slave : List Char
  enslave : EnslaveEnv
  pass : Skb → PassEnv

inductive Reply where
  | nothing
  | mii (val_out : Bool)
  | ifbond (bond_mode : Mode) (miimon : Nat) (num_slaves : Int)
  | ifslave (slave_name : List Char) (link : Link) (state : SlaveState)
      (link_failure_count : Nat)
  deriving DecidableEq, Repr

/-- `((struct ifslave *)ifr.ifr_data)->slave_name` -/
def Reply.slave_name : Reply → List Char
  | .ifslave slave_name _ _ _ => slave_name
  | _ => []

namespace World

def dev_get_by_name (w : World) (name : List Char) : Option DevId :=
  w.registered.find? fun d => (w.devs d).name == name

def slave_reply (w : World) (s : SlaveId) : Reply :=
  .ifslave ((w.slave_dev s).name.take IFNAMSIZ) (w.slaves s).link (w.slaves s).state
    (w.slaves s).link_failure_count

def bond_sethwaddr (w : World) (slave_dev : DevId) : Int × World :=
  let sd := w.devs slave_dev
  (0, w.setDev w.bond.dev fun dev =>
    { dev with dev_addr := memcpy dev.dev_addr sd.dev_addr sd.addr_len })

def bond_mii_query (w : World) (env : IoctlEnv) : Int × Reply × World :=
  match env.mii with
  | none => (-EINVAL, .nothing, w)
  | some reg_num =>
    if reg_num = 1 then
      let w := (w.lock .bond .read).lock .curr_slave .read
      let up := w.bond_dev.carrier
      (0, .mii up, (w.unlock .curr_slave .read).unlock .bond .read)
    else (0, .nothing, w)

def bond_info_query (w : World) (env : IoctlEnv) : Int × Reply × World :=
  if !env.copy_from_user then (-EFAULT, .nothing, w)
  else
    let w := w.lock .bond .read
    let num_slaves := w.bond.slave_cnt
    let w := w.unlock .bond .read
    if !env.copy_to_user then (-EFAULT, .nothing, w)
    else (0, .ifbond w.bond.params.mode w.bond.params.miimon num_slaves, w)

def bond_slave_info_query (w : World) (env : IoctlEnv) : Int × Reply × World :=
  if !env.copy_from_user then (-EFAULT, .nothing, w)
  else if env.slave_id < 0 then (-ENODEV, .nothing, w)
  else
    let w := w.lock .bond .read
    let slave := w.bond_for_each_slave[env.slave_id.toNat]?
    let w := w.unlock .bond .read
    match slave with
    | none => (-ENODEV, .nothing, w)
    | some s => if !env.copy_to_user then (-EFAULT, .nothing, w) else (0, w.slave_reply s, w)

def bond_getactive (w : World) : Int × Reply × World :=
  let w := (w.lock .bond .read).lock .curr_slave .read
  match w.bond.curr_active_slave with
  -- returns with both locks held
  | none => (-EFAULT, .nothing, w)
  | some s => (0, w.slave_reply s, (w.unlock .curr_slave .read).unlock .bond .read)

def bond_getpassive (w : World) : Int × Reply × World :=
  let w := (w.lock .bond .read).lock .curr_slave .read
  match w.passive_slave with
  | some s => (0, w.slave_reply s, (w.unlock .curr_slave .read).unlock .bond .read)
  | none => (-EFAULT, .nothing, (w.unlock .curr_slave .read).unlock .bond .read)

variable [Siblings]

def bond_admin_ioctl (w : World) (env : IoctlEnv) (cmd : Nat) (slave_dev : DevId) :
    Int × World :=
  if cmd = BOND_ENSLAVE_OLD ∨ cmd = SIOCBONDENSLAVE then bond_enslave env.enslave w slave_dev
  else if cmd = BOND_RELEASE_OLD ∨ cmd = SIOCBONDRELEASE then w.bond_release slave_dev
  else if cmd = BOND_SETHWADDR_OLD ∨ cmd = SIOCBONDSETHWADDR then w.bond_sethwaddr slave_dev
  else if cmd = BOND_CHANGE_ACTIVE_OLD ∨ cmd = SIOCBONDCHANGEACTIVE then
    w.bond_ioctl_change_active slave_dev
  else if cmd = SIOCBONDHOOLOCKTEST ∧ w.port = .k27 then
    w.bond_ioctl_hoolock_change_active slave_dev
  else (-EOPNOTSUPP, w)

/-- `none` when the call does not return. -/
def bond_do_ioctl (w : World) (env : IoctlEnv) (cmd : Nat) : Option (Int × Reply × World) :=
  if cmd = SIOCGMIIPHY ∨ cmd = SIOCGMIIREG then some (w.bond_mii_query env)
  else if cmd = BOND_INFO_QUERY_OLD ∨ cmd = SIOCBONDINFOQUERY then some (w.bond_info_query env)
  else if cmd = BOND_SLAVE_INFO_QUERY_OLD ∨ cmd = SIOCBONDSLAVEINFOQUERY then
    some (w.bond_slave_info_query env)
  else if cmd = SIOCBONDHOOLOCKGETACTIVE then some w.bond_getactive
  else if cmd = SIOCBONDHOOLOCKGETPASSIVE then some w.bond_getpassive
  else if cmd = SIOCBONDHOOLOCKMAKE then
    some (w.bond_ioctl_make.1, .nothing, w.bond_ioctl_make.2)
  else if cmd = SIOCBONDHOOLOCKBREAK then
    (w.bond_ioctl_break env.pass).map fun r => (r.1, .nothing, r.2)
  else if cmd = SIOCBONDHOOLOCKTEST ∧ w.port = .k24 then
    some (0, .nothing, w.bond_ioctl_hoolock_change_active_24.2)
  else if !env.capable then some (-EPERM, .nothing, w)
  else
    let w := w.lock .rwsem .write
    match w.dev_get_by_name env.ifr_slave with
    | none => some (-ENODEV, .nothing, w.unlock .rwsem .write)
    | some slave_dev =>
      let (res, w) := w.bond_admin_ioctl env cmd slave_dev
      some (res, .nothing, w.unlock .rwsem .write)

end World

end Hoolock
