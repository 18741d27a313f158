import Hoolock.Session

set_option autoImplicit false

namespace Hoolock

namespace World

theorem locks_of_core {v w : World} (h : v.core = w.core) : v.locks = w.locks :=
  congrArg Core.locks h

@[simp] theorem locks_lock (w : World) (l : LockName) (m : LockMode) :
    (w.lock l m).locks = w.locks.add l m 1 := rfl

@[simp] theorem locks_unlock (w : World) (l : LockName) (m : LockMode) :
    (w.unlock l m).locks = w.locks.add l m (-1) := rfl

@[simp] theorem locks_setBond (w : World) (f : Bonding → Bonding) :
    (w.setBond f).locks = w.locks := rfl

@[simp] theorem locks_kfree_skb (w : World) (skb : Skb) : (w.kfree_skb skb).locks = w.locks := rfl

@[simp] theorem locks_skb_queue_tail (w : World) (skb : Skb) :
    (w.skb_queue_tail skb).locks = w.locks := by
  simp [skb_queue_tail]

theorem recv_on_locks (test : World → Bool) (w : World) (skb : Skb) :
    (w.bond_hoolock_recv_on test skb).2.locks = w.locks := by
  unfold bond_hoolock_recv_on
  dsimp only
  split_ifs <;> simp

theorem recv_locks (w : World) (skb : Skb) (d : DevId) :
    (w.bond_hoolock_recv skb d).2.locks = w.locks := recv_on_locks _ w skb

theorem closed_locks (L : Locks) : Closed bond_hoolock_recv fun w => w.locks = L where
  recv w skb d h := (recv_locks w skb d).trans h
  users _ _ h := h
  note _ _ h := h

theorem break_locks {env : Skb → PassEnv} {w : World} {r : Int × World}
    (h : w.bond_ioctl_break env = some r) : r.2.locks = w.locks := by
  have hdequeue : ∀ L (x : World), x.locks = L → x.skb_dequeue.locks = L := by
    intro L x hx
    simp [skb_dequeue, hx]
  obtain ⟨u, hu, hv⟩ := (closed_locks _).break_ends (hdequeue _) h rfl
  rw [hv]
  simp [hu]

theorem xmit_locks {w : World} {env : TagEnv} {r : Sent × World}
    (h : w.bond_xmit_hoolock env = some r) : r.2.locks = w.locks := by
  obtain ⟨hback, _⟩ := xmit_cases h
  rw [hback]
  simp

theorem mii_query_locks (w : World) (env : IoctlEnv) :
    (w.bond_mii_query env).2.2.locks = w.locks := by
  unfold bond_mii_query
  cases env.mii with
  | none => rfl
  | some n =>
    dsimp only
    split_ifs <;> simp

theorem info_query_locks (w : World) (env : IoctlEnv) :
    (w.bond_info_query env).2.2.locks = w.locks := by
  unfold bond_info_query
  dsimp only
  split_ifs <;> simp

theorem slave_info_query_locks (w : World) (env : IoctlEnv) :
    (w.bond_slave_info_query env).2.2.locks = w.locks := by
  unfold bond_slave_info_query
  dsimp only
  split
  · rfl
  · split
    · rfl
    · split
      · simp
      · split_ifs <;> simp

theorem getpassive_locks (w : World) : w.bond_getpassive.2.2.locks = w.locks := by
  unfold bond_getpassive
  dsimp only
  split <;> simp

/-- GETACTIVE without an active slave returns with both read locks held. -/
theorem getactive_locks (w : World) :
    w.bond_getactive.2.2.locks = w.locks ↔ w.bond.curr_active_slave ≠ none := by
  unfold bond_getactive
  have hact : ((w.lock .bond .read).lock .curr_slave .read).bond.curr_active_slave =
      w.bond.curr_active_slave := rfl
  dsimp only
  rw [hact]
  cases w.bond.curr_active_slave with
  | none =>
    simp only [ne_eq, not_true_eq_false, iff_false, locks_lock]
    intro h
    have := congrFun (congrFun h .bond) .read
    simp [Locks.add] at this
  | some s => simp

variable [Siblings]

theorem core_admin_ioctl (w : World) (env : IoctlEnv) (cmd : Nat) (d : DevId) :
    (w.bond_admin_ioctl env cmd d).2.core = w.core := by
  unfold bond_admin_ioctl
  split_ifs <;> simp [bond_sethwaddr]

theorem do_ioctl_locks {w : World} {env : IoctlEnv} {cmd : Nat} {r : Int × Reply × World}
    (h : w.bond_do_ioctl env cmd = some r) :
    r.2.2.locks = w.locks ↔
      ¬ (cmd = SIOCBONDHOOLOCKGETACTIVE ∧ w.bond.curr_active_slave = none) := by
  by_cases hget : cmd = SIOCBONDHOOLOCKGETACTIVE
  · subst hget
    have hr : r = w.bond_getactive := by
      simpa [bond_do_ioctl, SIOCGMIIPHY, SIOCGMIIREG, BOND_INFO_QUERY_OLD, SIOCBONDINFOQUERY,
        BOND_SLAVE_INFO_QUERY_OLD, SIOCBONDSLAVEINFOQUERY, SIOCBONDHOOLOCKGETACTIVE,
        SIOCDEVPRIVATE] using h.symm
    rw [hr, getactive_locks]
    simp
  · have hbal : r.2.2.locks = w.locks := by
      unfold bond_do_ioctl at h
      split_ifs at h
      · cases h
        exact mii_query_locks w env
      · cases h
        exact info_query_locks w env
      · cases h
        exact slave_info_query_locks w env
      · cases h
        exact getpassive_locks w
      · cases h
        exact congrArg Core.locks (core_make w)
      · obtain ⟨q, hq, rfl⟩ := Option.map_eq_some_iff.mp h
        exact break_locks hq
      · cases h
        exact locks_of_core (core_test_24 w)
      · cases h
        rfl
      · dsimp only at h
        split at h
        · cases h
          simp
        · rename_i d _
          cases h
          have hl := locks_of_core (core_admin_ioctl (w.lock .rwsem .write) env cmd d)
          simp [hl]
    simp [hget, hbal]

/-- Every call balances its locks, except that the error return of GETACTIVE keeps two. -/
theorem calls_balance_locks_iff (w : World) (env : IoctlEnv) (cmd : Nat) :
    ((∀ r, w.bond_do_ioctl env cmd = some r → r.2.2.locks = w.locks) ∧
      (∀ skb d, (w.bond_hoolock_recv skb d).2.locks = w.locks) ∧
      ∀ tag r, w.bond_xmit_hoolock tag = some r → r.2.locks = w.locks) ↔
    ¬ (cmd = SIOCBONDHOOLOCKGETACTIVE ∧ w.bond.curr_active_slave = none) := by
  constructor
  · rintro ⟨hioctl, _⟩ ⟨rfl, hnone⟩
    have hr : w.bond_do_ioctl env SIOCBONDHOOLOCKGETACTIVE = some w.bond_getactive := by
      simp [bond_do_ioctl, SIOCGMIIPHY, SIOCGMIIREG, BOND_INFO_QUERY_OLD, SIOCBONDINFOQUERY,
        BOND_SLAVE_INFO_QUERY_OLD, SIOCBONDSLAVEINFOQUERY, SIOCBONDHOOLOCKGETACTIVE,
        SIOCDEVPRIVATE]
    exact (getactive_locks w).mp (hioctl _ hr) hnone
  · intro h
    exact ⟨fun r hr => (do_ioctl_locks hr).mpr h, recv_locks w, fun _ _ hr => xmit_locks hr⟩

end World

/-- GETACTIVE on a bond without slaves: the error return leaves both read locks held. -/
theorem getactive_leaks_locks :
    ∃ r, @World.bond_do_ioctl noSiblings bond0 .plain SIOCBONDHOOLOCKGETACTIVE = some r ∧
      r.1 = -EFAULT ∧ r.2.2.locks .bond .read = bond0.locks .bond .read + 1 ∧
      r.2.2.locks .curr_slave .read = bond0.locks .curr_slave .read + 1 :=
  ⟨_, rfl, by decide⟩

end Hoolock
