import Hoolock.RequestFrame
import Hoolock.Transfer

/-!
The loops that send a request to the controller and read its acknowledgement: MAKE_REQ,
BREAK_REQ, MAKE_ACK and BREAK_ACK, the same code each time and in both clients.
-/

set_option autoImplicit false

namespace Hoolock

namespace Framing

open Transfer

def around (below buffer : ℕ → UInt8) : Int → UInt8
  | .ofNat i => buffer i
  | .negSucc i => below i

/-! Sending.  `results` is what the calls of `write` answer, one for each turn. -/

def bytes_out (results : ℕ → Int) (n : ℕ) : Int := offset msg_size results n

/-- `write(nox_sock, make_msg + bytes_out, msg_size - bytes_out)`: where a turn starts to read,
and how far. -/
def write_range (results : ℕ → Int) (n : ℕ) : Int × Int :=
  (bytes_out results n, bytes_out results n + (msg_size - bytes_out results n))

def accepted (below make_msg : ℕ → UInt8) (results : ℕ → Int) (n : ℕ) : List UInt8 :=
  sent msg_size results (around below make_msg) n

theorem msg_size_pos : (0 : Int) < msg_size := by decide

theorem front_around (below buffer : ℕ → UInt8) :
    front (around below buffer) (Int.toNat msg_size) = Stores.read buffer 0 msg_size := by
  refine List.map_congr_left fun i _ => ?_
  rw [Nat.zero_add]
  rfl

/-- When the loop ends, each byte too many stands for one failed call. -/
theorem length_accepted {results : ℕ → Int} (h : Possible msg_size results) {n : ℕ}
    (hend : msg_size ≤ bytes_out results n) (below make_msg : ℕ → UInt8) :
    (accepted below make_msg results n).length = msg_size + errors msg_size results n := by
  have hmoved := moved_of_ended h msg_size_pos.le hend
  unfold accepted
  rw [length_sent]
  omega

/-- A loop that has ended read from inside the message only and sent it once, exactly if no
call of `write` failed. -/
theorem request_sent_iff {results : ℕ → Int} (h : Possible msg_size results) {n : ℕ}
    (hend : msg_size ≤ bytes_out results n) (below make_msg : ℕ → UInt8) :
    ((∀ i < n, bytes_out results i < msg_size →
        0 ≤ (write_range results i).1 ∧ (write_range results i).2 ≤ msg_size) ∧
      accepted below make_msg results n = Stores.read make_msg 0 msg_size) ↔
    ∀ i < n, bytes_out results i < msg_size → results i ≠ -1 := by
  have hsent := sent_iff h msg_size_pos.le (around below make_msg) hend
  rw [front_around, errors_eq_zero_iff] at hsent
  refine Iff.trans ?_ hsent
  refine and_congr_left fun _ => forall₃_congr fun i _ _ => ?_
  have hend : (write_range results i).2 = msg_size := by
    unfold write_range
    omega
  rw [hend]
  exact and_iff_left (le_refl _)

def turns (a b : Int) : ℕ → Int
  | 0 => a
  | _ + 1 => b

theorem turns_offset {a b : Int} (ha : a < 25) (hab : a + b = 25) (n : ℕ) :
    offset msg_size (turns a b) (n + 2) = 25 := by
  have hsize : (msg_size : Int) = 25 := rfl
  induction n with
  | zero =>
    have hone : offset msg_size (turns a b) 1 = a := by
      rw [offset_succ msg_size_pos]
      exact Int.zero_add a
    have hrun : offset msg_size (turns a b) 1 < msg_size := by
      rw [hone, hsize]
      exact ha
    rw [offset_succ hrun, hone]
    exact hab
  | succ n ih =>
    have hended : ¬ offset msg_size (turns a b) (n + 2) < msg_size := by
      rw [ih, hsize]
      omega
    rw [offset_succ_ended hended]
    exact ih

theorem turns_possible {a b : Int} (ha : a = -1 ∨ 0 ≤ a ∧ a < 25) (hab : a + b = 25) :
    Possible msg_size (turns a b) := by
  have hsize : (msg_size : Int) = 25 := rfl
  intro n hrun
  match n with
  | 0 =>
    have hzero : offset msg_size (turns a b) 0 = 0 := rfl
    have hfirst : turns a b 0 = a := rfl
    rw [hzero, hfirst, hsize]
    omega
  | 1 =>
    have hone : offset msg_size (turns a b) 1 = a := by
      rw [offset_succ msg_size_pos]
      exact Int.zero_add a
    have hsecond : turns a b 1 = b := rfl
    rw [hone, hsecond, hsize]
    omega
  | n + 2 =>
    rw [turns_offset (by omega) hab, hsize] at hrun
    omega

/-- The first `write` is interrupted and the second one takes all it is given: the socket gets
the byte in front of the message and one byte too many. -/
theorem interrupted_request :
    Possible msg_size (turns (-1) 26) ∧ msg_size ≤ bytes_out (turns (-1) 26) 2 ∧
    (write_range (turns (-1) 26) 1).1 = -1 ∧
    ∀ below make_msg : ℕ → UInt8,
      (accepted below make_msg (turns (-1) 26) 2).length = 26 ∧
      accepted below make_msg (turns (-1) 26) 2 ≠ Stores.read make_msg 0 msg_size := by
  have hpossible := turns_possible (a := -1) (b := 26) (by decide) (by decide)
  have hend : msg_size ≤ bytes_out (turns (-1) 26) 2 := by decide
  have herrors : errors msg_size (turns (-1) 26) 2 = 1 := by decide
  refine ⟨hpossible, hend, by decide, fun below make_msg => ?_⟩
  have hlen := length_accepted hpossible hend below make_msg
  rw [herrors] at hlen
  refine ⟨hlen, fun hsame => ?_⟩
  rw [hsame, Stores.length_read] at hlen
  omega

/-- A short count does no harm. -/
theorem request_in_two_parts :
    accepted (fun _ => 0) (fun i => UInt8.ofNat i) (turns 10 15) 2 =
      Stores.read (fun i => UInt8.ofNat i) 0 msg_size := by
  have hpossible := turns_possible (a := 10) (b := 15) (by decide) (by decide)
  have hend : msg_size ≤ bytes_out (turns 10 15) 2 := by decide
  exact ((request_sent_iff hpossible hend (fun _ => 0) fun i => UInt8.ofNat i).mpr (by decide)).2

/-! Reading.  `results` is what the calls of `read` answer. -/

def bytes_in (results : ℕ → Int) (n : ℕ) : Int := offset msg_size results n

/-- The memory at the buffer before turn `n`; `stream` is what the controller sends. -/
def make_ack_msg (stream below cleared : ℕ → UInt8) (results : ℕ → Int) (n : ℕ) :
    Int → UInt8 := received msg_size results stream (around below cleared) n

/-- The loop ends, gives `read` no offset outside of the buffer, and has read the next bytes
of the stream. -/
structure Acknowledged (results : ℕ → Int) : Prop where
  ends : ∃ n, msg_size ≤ bytes_in results n
  inside : ∀ n, 0 ≤ bytes_in results n ∧ bytes_in results n ≤ msg_size
  exact : ∀ n, msg_size ≤ bytes_in results n → ∀ (stream below cleared : ℕ → UInt8) (i : ℕ),
    i < msg_size → make_ack_msg stream below cleared results n i = stream i

theorem around_surjective (start : Int → UInt8) :
    around (fun i => start (.negSucc i)) (fun i => start i) = start := by
  funext o
  cases o <;> rfl

theorem acknowledged_reads (results : ℕ → Int) :
    Acknowledged results ↔ Reads UInt8 msg_size results := by
  constructor
  · rintro ⟨hends, hinside, hexact⟩
    refine ⟨hends, hinside, fun n hn stream start i hi => ?_⟩
    have hbytes := hexact n hn stream (fun i => start (.negSucc i)) (fun i => start i) i
      (by exact_mod_cast hi)
    unfold make_ack_msg at hbytes
    rw [around_surjective] at hbytes
    exact hbytes
  · rintro ⟨hends, hinside, hexact⟩
    exact ⟨hends, hinside, fun n hn stream below cleared i hi =>
      hexact n hn stream (around below cleared) i (by exact_mod_cast hi)⟩

/-- Whatever becomes of the connection, the acknowledgement is read exactly if the whole of it
arrives before a call fails or the controller closes. -/
theorem acknowledged_iff {results : ℕ → Int} (h : Possible msg_size results)
    (hclosed : ∀ m n, m ≤ n → results m = 0 → results n = 0) :
    (Settles msg_size results → Acknowledged results) ↔ Clean msg_size results := by
  have hbytes : Nontrivial UInt8 := ⟨0, 1, by decide⟩
  have hreads := reads_iff (β := UInt8) h msg_size_pos hclosed
  rw [← acknowledged_reads] at hreads
  rw [← hreads]
  exact ⟨fun hack => hack h.settles, fun hack _ => hack⟩

/-- After the controller has closed the connection the loop goes on for ever. -/
theorem closed_never_ends :
    Possible msg_size (fun _ => 0) ∧ Settles msg_size (fun _ => 0) ∧
      (∀ n, bytes_in (fun _ => 0) n = 0) ∧ ¬ Acknowledged fun _ => 0 := by
  have hstays : ∀ n, bytes_in (fun _ => 0) n = 0 := by
    intro n
    induction n with
    | zero => rfl
    | succ n ih =>
      have hrun : offset msg_size (fun _ => 0) n < msg_size := by
        have hzero : offset msg_size (fun _ => 0) n = 0 := ih
        rw [hzero]
        decide
      exact (offset_succ hrun).trans ((Int.add_zero _).trans ih)
  have hfits : (0 : Int) ≤ msg_size - 0 := by decide
  refine ⟨fun n _ => Or.inr ⟨le_refl 0, ?_⟩, Or.inr (Or.inl ⟨0, rfl⟩), hstays, fun hack => ?_⟩
  · have hzero : offset msg_size (fun _ => 0) n = 0 := hstays n
    rw [hzero]
    exact hfits
  · obtain ⟨n, hn⟩ := hack.ends
    rw [hstays n] at hn
    exact absurd hn (by decide)

theorem acknowledged_in_two_parts : Acknowledged (turns 10 15) := by
  have hpossible := turns_possible (a := 10) (b := 15) (by decide) (by decide)
  refine (acknowledged_iff hpossible fun m n hmn hzero => ?_).mpr ⟨2, by decide, by decide⟩
    hpossible.settles
  cases m with
  | zero => exact absurd hzero (by decide)
  | succ m => exact absurd hzero (by simp [turns])

end Framing

end Hoolock
