import Hoolock.Plumb
import Hoolock.HandoverFlag

set_option autoImplicit false

namespace Hoolock

def MAKE_REQ : Int := 0
def MAKE_ACK : Int := 1
def BREAK_REQ : Int := 2
def BREAK_ACK : Int := 3

/-- Where the client is in `main`: at the call it makes next. -/
inductive Pc where
  | get_active_first | connect_first | await_first
  | loop_head | get_active | get_passive | prompt
  | make_req | make_ack | connect_make | await_made | bond_make
  | break_req | break_ack | bond_break | connect_break | await_broken | kill_iperf
  deriving DecidableEq

structure Client where
  pc : Pc
  exited : Bool
  act_slave : List Char
  pas_slave : List Char

/-- The client, the plumber with its children, the bond, and what is on its way between
them. -/
structure Net where
  world : World
  client : Client
  plumber : Plumber
  procs : Procs
  /-- what the client wrote to the plumber -/
  command : Option (List Char)
  /-- what the plumber wrote back -/
  answer : Option String
  /-- what the client wrote to the controller -/
  request : Option Int

/-- One move of one of them.  `fails` is the failure of the connect or ioctl that the client
is about to make; `bond` is anything else that happens to the bond. -/
inductive Move where
  | client (env : IoctlEnv)
  | fails
  | key (a : Char)
  | plumber (pid : Int)
  | nox (cmd : Int)
  | bond (e : Event)

/-- `strcpy` of a command and one character put over its last. -/
def plumb_cmd (template : List Char) (i : Nat) (slave : List Char) : List Char :=
  (template.set i (slave.getD 3 '\x00')).takeWhile (· ≠ '\x00')

def make_cmd (slave : List Char) : List Char :=
  plumb_cmd ['m', 'a', 'k', 'e', ' ', 'x'] 5 slave

def break_cmd (slave : List Char) : List Char :=
  plumb_cmd ['b', 'r', 'e', 'a', 'k', ' ', 'x'] 6 slave

/-- What others must not touch: the active slave, and the ring with the devices' names. -/
def World.line_up (w : World) : Option SlaveId × List (SlaveId × List Char) :=
  (w.bond.curr_active_slave, w.bond_for_each_slave.map fun s => (s, (w.slave_dev s).name))

namespace Net

def go (n : Net) (pc : Pc) : Net := { n with client := { n.client with pc } }

def exit (n : Net) : Net := { n with client := { n.client with exited := true } }

def tell (n : Net) (cmd : List Char) : Net := { n with command := some cmd }

def heard (n : Net) (pc : Pc) : Option Net :=
  n.answer.map fun _ => { n with answer := none }.go pc

variable [Siblings]

/-- An ioctl on the bond; `none` when it does not return. -/
def ioctl (n : Net) (env : IoctlEnv) (cmd : Nat) (k : Net → Reply → Net) : Option Net :=
  (n.world.bond_do_ioctl env cmd).map fun r =>
    let m := { n with world := r.2.2 }
    if r.1 < 0 then m.exit else k m r.2.1

def client_step (n : Net) (env : IoctlEnv) : Option Net :=
  match n.client.pc with
  | .get_active_first => n.ioctl env SIOCBONDHOOLOCKGETACTIVE fun n reply =>
      { n with client := { n.client with act_slave := reply.slave_name } }.go .connect_first
  | .connect_first => some ((n.tell (make_cmd n.client.act_slave)).go .await_first)
  | .await_first => n.heard .loop_head
  | .loop_head => some (n.go .get_active)
  | .get_active => n.ioctl env SIOCBONDHOOLOCKGETACTIVE fun n reply =>
      { n with client := { n.client with act_slave := reply.slave_name } }.go .get_passive
  | .get_passive => n.ioctl env SIOCBONDHOOLOCKGETPASSIVE fun n reply =>
      { n with client := { n.client with pas_slave := reply.slave_name } }.go .prompt
  | .prompt => none
  | .make_req => some ({ n with request := some MAKE_REQ }.go .make_ack)
  | .make_ack => none
  | .connect_make => some ((n.tell (make_cmd n.client.pas_slave)).go .await_made)
  | .await_made => n.heard .bond_make
  | .bond_make => n.ioctl env SIOCBONDHOOLOCKMAKE fun n _ => n.go .break_req
  | .break_req => some ({ n with request := some BREAK_REQ }.go .break_ack)
  | .break_ack => none
  | .bond_break => n.ioctl env SIOCBONDHOOLOCKBREAK fun n _ => n.go .connect_break
  | .connect_break => some ((n.tell (break_cmd n.client.act_slave)).go .await_broken)
  | .await_broken => n.heard .kill_iperf
  | .kill_iperf => some (n.go .loop_head)

/-- The points with an exit for a failed ioctl or connect; at the loop head that is the
connection to the output handler. -/
def can_fail : Pc → Bool
  | .get_active_first | .connect_first | .loop_head | .get_active | .get_passive
  | .connect_make | .bond_make | .bond_break | .connect_break => true
  | _ => false

def step (n : Net) : Move → Option Net
  | .client env => if n.client.exited then none else n.client_step env
  | .fails => if !n.client.exited ∧ can_fail n.client.pc then some n.exit else none
  | .key a =>
    if !n.client.exited ∧ n.client.pc = .prompt then
      if a = 'q' then some n.exit else some (n.go .make_req)
    else none
  | .plumber pid =>
    if n.procs.may_fork pid then
      n.command.map fun buffer =>
        let r := n.plumber.serve n.procs buffer pid
        { n with plumber := r.1, procs := r.2, command := none, answer := some Plumber.answer }
    else none
  | .nox cmd =>
    if n.client.exited then none
    else
      n.request.bind fun _ =>
        let m := { n with request := none }
        match n.client.pc with
        | .make_ack => some (if cmd ≠ MAKE_ACK then m.exit else m.go .connect_make)
        | .break_ack => some (if cmd ≠ BREAK_ACK then m.exit else m.go .bond_break)
        | _ => none
  | .bond e =>
    (n.world.step e).bind fun world =>
      if world.line_up = n.world.line_up then some { n with world } else none

def start (w : World) (is_lossy : Bool) : Net :=
  { world := w, client := ⟨.get_active_first, false, [], []⟩
    plumber := ⟨false, is_lossy, -1, -1⟩, procs := .none_running
    command := none, answer := none, request := none }

end Net

end Hoolock
