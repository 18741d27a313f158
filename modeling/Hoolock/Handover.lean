import Hoolock.Dispatch

set_option autoImplicit false

namespace Hoolock

/-- What becomes of a frame handed to the bond. -/
inductive Sent where
  | queued (slave_dev : DevId)
  | freed
  deriving DecidableEq, Repr

/-- Whether the frame carries a tag, and whether putting it into the payload works. -/
structure TagEnv where
  vlan_get_tag : Bool
  vlan_put_tag : Bool

variable [Siblings]

namespace World

/-- The first slave of the ring that is not the active one. -/
def passive_slave (w : World) : Option SlaveId :=
  w.bond_for_each_slave.find? fun slave_pos => some slave_pos != w.bond.curr_active_slave

def switch_to_passive (w : World) : World :=
  match w.passive_slave with
  | some slave_pos => w.bond_change_active_slave (some slave_pos)
  | none => w

def bond_ioctl_make (w : World) : Int × World :=
  let w := (w.lock .bond .read).lock .curr_slave .write
  let w := w.switch_to_passive
  let w := w.setBond fun b => { b with buffer_mode := 1 }
  (0, (w.unlock .curr_slave .write).unlock .bond .read)

/-- 2.6.24 takes no device and switches as MAKE does. -/
def bond_ioctl_hoolock_change_active_24 (w : World) : Int × World :=
  let w := (w.lock .bond .read).lock .curr_slave .write
  let w := w.switch_to_passive
  (0, (w.unlock .curr_slave .write).unlock .bond .read)

def bond_ioctl_hoolock_change_active (w : World) (slave_dev : DevId) : Int × World :=
  let w := w.lock .bond .read
  let new_active := w.bond_get_slave_by_dev slave_dev
  let w := w.lock .curr_slave .write
  let w := match w.bond_for_each_slave.find? fun slave_pos => some slave_pos == new_active with
    | some slave_pos => w.bond_change_active_slave (some slave_pos)
    | none => w
  (0, (w.unlock .curr_slave .write).unlock .bond .read)

def bond_ioctl_change_active (w : World) (slave_dev : DevId) : Int × World :=
  let dev := w.devs slave_dev
  if !USES_PRIMARY w.port w.bond.params.mode then (-EINVAL, w)
  else if !dev.iff_slave ∨ dev.master ≠ some w.bond.dev then (-EINVAL, w)
  else
    let w := w.lock .bond .read
    let w := (w.lock .curr_slave .read).unlock .curr_slave .read
    let old_active := w.bond.curr_active_slave
    match w.bond_get_slave_by_dev slave_dev with
    | none => (-EINVAL, w.unlock .bond .read)
    | some new_active =>
      if old_active = some new_active then (0, w.unlock .bond .read)
      else if old_active.isSome ∧ (w.slaves new_active).link = .up ∧
          IS_UP (w.slave_dev new_active) then
        let w := w.lock .curr_slave .write
        let w := w.bond_change_active_slave (some new_active)
        (0, (w.unlock .curr_slave .write).unlock .bond .read)
      else (-EINVAL, w.unlock .bond .read)

omit [Siblings] in
def skb_dequeue (w : World) : World :=
  let w := w.lock .pbuff .write
  let w := w.setBond fun b => { b with pbuff := b.pbuff.tail }
  w.unlock .pbuff .write

omit [Siblings] in
/-- The loop of `bond_ioctl_break`, for at most `n` packets; `none` when it reads
`curr_active_slave->dev` through a null pointer or has not ended. -/
def break_loop (recv : Recv) (env : Skb → PassEnv) : Nat → Int → World → Option (Int × World)
  | 0, ret, w => if w.bond.pbuff = [] then some (ret, w) else none
  | n + 1, ret, w =>
    match w.bond.pbuff with
    | [] => some (ret, w)
    | pb :: _ =>
      let w := w.skb_dequeue
      match w.bond.curr_active_slave with
      | none => none
      | some slave =>
        let (ret, w) := w.netif_receive_skb recv (env pb) { pb with dev := (w.slaves slave).dev }
        break_loop recv env n ret w

omit [Siblings] in
def bond_ioctl_break (env : Skb → PassEnv) (w : World) : Option (Int × World) :=
  let w := ((w.lock .pbuff .write).lock .bond .read).lock .curr_slave .write
  let w := w.setBond fun b => { b with buffer_mode := 0 }
  match break_loop bond_hoolock_recv env w.bond.pbuff.length 0 w with
  | none => none
  | some (ret, w) =>
    some (ret, ((w.unlock .curr_slave .write).unlock .bond .read).unlock .pbuff .write)

omit [Siblings] in
/-- `vlan_put_tag` frees the frame when it fails. -/
def bond_dev_queue_xmit (w : World) (env : TagEnv) (slave_dev : DevId) : Int × Sent :=
  if w.bond.vlan_list ≠ [] ∧ (w.devs slave_dev).features &&& NETIF_F_HW_VLAN_TX = 0 ∧
      env.vlan_get_tag ∧ !env.vlan_put_tag then
    (0, .freed)
  else (0, .queued slave_dev)

omit [Siblings] in
/-- `none` when `active_slave->dev` is read through a null pointer. -/
def bond_xmit_hoolock (w : World) (env : TagEnv) : Option (Sent × World) :=
  let w := w.lock .bond .read
  if !w.BOND_IS_OK then some (.freed, w.unlock .bond .read)
  else
    match w.bond.curr_active_slave with
    | none => none
    | some active_slave =>
      if IS_UP (w.slave_dev active_slave) ∧ (w.slaves active_slave).link = .up ∧
          (w.slaves active_slave).state = .active then
        some ((w.bond_dev_queue_xmit env (w.slaves active_slave).dev).2,
          w.unlock .bond .read)
      else some (.freed, w.unlock .bond .read)

omit [Siblings] in
theorem xmit_cases {w v : World} {env : TagEnv} {r : Sent}
    (h : w.bond_xmit_hoolock env = some (r, v)) :
    v = (w.lock .bond .read).unlock .bond .read ∧
      ((!(w.lock .bond .read).BOND_IS_OK) = true ∨
        ∃ s, (w.lock .bond .read).bond.curr_active_slave = some s) := by
  unfold bond_xmit_hoolock at h
  dsimp only at h
  split at h
  · rename_i hok
    cases h
    exact ⟨rfl, Or.inl hok⟩
  · split at h
    · cases h
    · rename_i s hs
      split at h <;> cases h <;> exact ⟨rfl, Or.inr ⟨s, hs⟩⟩

omit [Siblings] in
@[simp] theorem core_setBond_buffer (w : World) (k : Int) :
    (w.setBond fun b => { b with buffer_mode := k }).core = { w.core with buffer_mode := k } := rfl

theorem core_switch_to_passive (w : World) : w.switch_to_passive.core = w.core := by
  unfold switch_to_passive
  split <;> simp

theorem core_make (w : World) : w.bond_ioctl_make.2.core = { w.core with buffer_mode := 1 } := by
  unfold bond_ioctl_make
  simp only [core_unlock, core_setBond_buffer]
  rw [core_switch_to_passive]
  simp [Core.lock, Core.unlock]

theorem core_test_24 (w : World) : w.bond_ioctl_hoolock_change_active_24.2.core = w.core := by
  simp [bond_ioctl_hoolock_change_active_24, core_switch_to_passive]

@[simp] theorem core_test (w : World) (d : DevId) :
    (w.bond_ioctl_hoolock_change_active d).2.core = w.core := by
  unfold bond_ioctl_hoolock_change_active
  dsimp only
  split <;> simp

@[simp] theorem core_ioctl_change_active (w : World) (d : DevId) :
    (w.bond_ioctl_change_active d).2.core = w.core := by
  unfold bond_ioctl_change_active
  dsimp only
  split_ifs
  · rfl
  · rfl
  · split
    · simp
    · split_ifs <;> simp

end World

omit [Siblings] in
theorem Closed.break_loop {recv : Recv} {P : World → Prop} (h : Closed recv P)
    (hd : ∀ w : World, P w → P w.skb_dequeue) {env : Skb → PassEnv} {n : Nat} {ret : Int}
    {w : World} {r : Int × World} (hr : World.break_loop recv env n ret w = some r)
    (hw : P w) : P r.2 := by
  induction n generalizing ret w with
  | zero =>
    unfold World.break_loop at hr
    split_ifs at hr
    cases hr
    exact hw
  | succ n ih =>
    unfold World.break_loop at hr
    cases hp : w.bond.pbuff with
    | nil =>
      rw [hp] at hr
      cases hr
      exact hw
    | cons pb rest =>
      rw [hp] at hr
      cases ha : w.skb_dequeue.bond.curr_active_slave with
      | none => simp [ha] at hr
      | some s =>
        simp only [ha] at hr
        exact ih hr (h.netif_receive_skb _ _ (hd w hw))

omit [Siblings] in
theorem Closed.break_ends {P : World → Prop} (h : Closed World.bond_hoolock_recv P)
    (hd : ∀ w : World, P w → P w.skb_dequeue) {env : Skb → PassEnv} {w v : World} {ret : Int}
    (hr : w.bond_ioctl_break env = some (ret, v))
    (hw : P ((((w.lock .pbuff .write).lock .bond .read).lock .curr_slave .write).setBond
      fun b => { b with buffer_mode := 0 })) :
    ∃ u : World, P u ∧
      v = ((u.unlock .curr_slave .write).unlock .bond .read).unlock .pbuff .write := by
  unfold World.bond_ioctl_break at hr
  dsimp only at hr
  split at hr
  · cases hr
  · rename_i r u hu
    cases hr
    exact ⟨u, h.break_loop hd hu hw, rfl⟩

end Hoolock
