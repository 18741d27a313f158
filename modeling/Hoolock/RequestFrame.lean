import Hoolock.Client
import Hoolock.HexMac

/-!
The request the client sends to the controller: a `struct Hoolock_msg`, built in place in
uninitialised memory, and a semicolon.
-/

set_option autoImplicit false

namespace Hoolock

structure Field where
  size : ℕ
  align : ℕ

def align_up (n align : ℕ) : ℕ := (n + align - 1) / align * align

/-- The offsets of the fields, the first one not before `n`. -/
def offsets : ℕ → List Field → List ℕ
  | _, [] => []
  | n, f :: fs => align_up n f.align :: offsets (align_up n f.align + f.size) fs

def fields_end : ℕ → List Field → ℕ
  | n, [] => n
  | n, f :: fs => fields_end (align_up n f.align + f.size) fs

def size_of (fs : List Field) : ℕ :=
  align_up (fields_end 0 fs) (fs.foldl (fun a f => max a f.align) 1)

/-- `msg_id`, `hostMac`, `separator1` and `cmd`. -/
def Hoolock_msg : List Field := [⟨7, 1⟩, ⟨12, 1⟩, ⟨1, 1⟩, ⟨4, 4⟩]

def msg_size : ℕ := size_of Hoolock_msg + 1

def offset_of (field : ℕ) : ℕ := (offsets 0 Hoolock_msg).getD field 0

theorem layout : offset_of 0 = 0 ∧ offset_of 1 = 7 ∧ offset_of 2 = 19 ∧ offset_of 3 = 20 ∧
    msg_size = 25 := by decide

namespace RequestFrame

open Stores

inductive HoolockCmd where
  | MAKE_REQ | MAKE_ACK | BREAK_REQ | BREAK_ACK
  deriving DecidableEq, Repr

def HoolockCmd.value : HoolockCmd → Int
  | .MAKE_REQ => Hoolock.MAKE_REQ
  | .MAKE_ACK => Hoolock.MAKE_ACK
  | .BREAK_REQ => Hoolock.BREAK_REQ
  | .BREAK_ACK => Hoolock.BREAK_ACK

inductive Endian where
  | little | big

def HoolockCmd.bytes (e : Endian) (c : HoolockCmd) : List UInt8 :=
  match e with
  | .little => [UInt8.ofInt c.value, 0, 0, 0]
  | .big => [0, 0, 0, UInt8.ofInt c.value]

/-- `strncpy` from the string at `src`: up to its NUL, then zeros. -/
def strncpy (src : ℕ → UInt8) (n : ℕ) : List UInt8 :=
  (List.range n).map fun i => if (List.range (i + 1)).any fun j => src j == 0 then 0 else src i

def byte (c : Char) : UInt8 := UInt8.ofNat c.toNat

/-- The string literal, with its NUL. -/
def hoolock_literal (i : ℕ) : UInt8 := (['h', 'o', 'o', 'l', 'o', 'c', 'k'].map byte).getD i 0

/-- The memory from `make_msg` (or `break_msg`) on, when the request is sent.  `heap` is what
`new` found there, `hexmac` the string of the host. -/
def request (e : Endian) (heap hexmac : ℕ → UInt8) (cmd : HoolockCmd) : ℕ → UInt8 :=
  let make_msg := put heap (msg_size - 1) [byte ';']
  let make_msg := put make_msg (offset_of 0) (strncpy hoolock_literal 7)
  let make_msg := put make_msg (offset_of 1) (strncpy hexmac 12)
  put make_msg (offset_of 3) (cmd.bytes e)

theorem length_strncpy (src : ℕ → UInt8) (n : ℕ) : (strncpy src n).length = n := by
  simp [strncpy]

theorem HoolockCmd.length_bytes (e : Endian) (cmd : HoolockCmd) : (cmd.bytes e).length = 4 := by
  cases e <;> rfl

theorem read_request (e : Endian) (heap hexmac : ℕ → UInt8) (cmd : HoolockCmd) :
    read (request e heap hexmac cmd) 0 msg_size =
      strncpy hoolock_literal 7 ++ (strncpy hexmac 12 ++ ([heap 19] ++ (cmd.bytes e ++
        [byte ';']))) := by
  obtain ⟨hid, hmac, -, hcmd, hsize⟩ := layout
  obtain ⟨m1, hm1⟩ : ∃ m1, m1 = put heap 24 [byte ';'] := ⟨_, rfl⟩
  obtain ⟨m2, hm2⟩ : ∃ m2, m2 = put m1 0 (strncpy hoolock_literal 7) := ⟨_, rfl⟩
  obtain ⟨m3, hm3⟩ : ∃ m3, m3 = put m2 7 (strncpy hexmac 12) := ⟨_, rfl⟩
  have hlen1 : (strncpy hoolock_literal 7).length = 7 := length_strncpy _ _
  have hlen2 : (strncpy hexmac 12).length = 12 := length_strncpy _ _
  have hlen3 : (cmd.bytes e).length = 4 := cmd.length_bytes e
  have hrequest : request e heap hexmac cmd = put m3 20 (cmd.bytes e) := by
    unfold request
    rw [hid, hmac, hcmd, hsize, hm3, hm2, hm1]
  have hsemi : read m1 24 1 = [byte ';'] := hm1 ▸ read_put heap 24 [byte ';']
  have hname : read m2 0 7 = strncpy hoolock_literal 7 := by
    have h := read_put m1 0 (strncpy hoolock_literal 7)
    rw [hlen1, ← hm2] at h
    exact h
  have hhost : read m3 7 12 = strncpy hexmac 12 := by
    have h := read_put m2 7 (strncpy hexmac 12)
    rw [hlen2, ← hm3] at h
    exact h
  have hcode : read (put m3 20 (cmd.bytes e)) 20 4 = cmd.bytes e := by
    have h := read_put m3 20 (cmd.bytes e)
    rw [hlen3] at h
    exact h
  have hsplit : (25 : ℕ) = 7 + (12 + (1 + (4 + 1))) := rfl
  rw [hrequest, hsize, hsplit, read_add, read_add, read_add, read_add]
  simp only [Nat.zero_add, Nat.reduceAdd]
  rw [hcode, read_put_outside (by omega), read_put_outside (by omega),
    read_put_outside (by omega), read_put_outside (by omega), hhost, hm3,
    read_put_outside (by omega), read_put_outside (by omega), read_put_outside (by omega), hname,
    hm2, read_put_outside (by omega), read_put_outside (by omega), hsemi, hm1]
  rw [read_put_outside (by simp)]
  simp [Stores.read]

theorem mem_hex_digits {m : Mac} {c : Char} (h : c ∈ m.hex_digits) :
    ∃ x < 16, c = Nat.digitChar x := by
  obtain ⟨b, -, hc⟩ := List.mem_flatMap.mp h
  have hb := b.toNat_lt
  simp only [List.mem_cons, List.not_mem_nil, or_false] at hc
  rcases hc with rfl | rfl
  · exact ⟨b.toNat / 16, by omega, rfl⟩
  · exact ⟨b.toNat % 16, by omega, rfl⟩

theorem byte_digit {c : Char} (h : ∃ x < 16, c = Nat.digitChar x) :
    byte c ≠ 0 ∧ Char.ofNat (byte c).toNat = c := by
  obtain ⟨x, hx, rfl⟩ := h
  have hall : ∀ x < 16, byte (Nat.digitChar x) ≠ 0 ∧
      Char.ofNat (byte (Nat.digitChar x)).toNat = Nat.digitChar x := by decide
  exact hall x hx

theorem strncpy_full {src : ℕ → UInt8} {n : ℕ} (h : ∀ i < n, src i ≠ 0) :
    strncpy src n = Stores.read src 0 n := by
  refine List.map_congr_left fun i hi => ?_
  rw [List.mem_range] at hi
  have hnone : ((List.range (i + 1)).any fun j => src j == 0) = false := by
    rw [List.any_eq_false]
    intro j hj
    rw [List.mem_range] at hj
    have hne := h j (by omega)
    simpa using hne
  rw [hnone, Nat.zero_add]
  rfl

def host (long : HexMac.Long) (stack : ℕ → Char) (m : Mac) (i : ℕ) : UInt8 :=
  byte (HexMac.hexmac long stack m i)

theorem strncpy_host (long : HexMac.Long) (stack : ℕ → Char) (m : Mac) :
    strncpy (host long stack m) 12 = m.hex_digits.map byte := by
  have hread := HexMac.read_hexmac long stack m
  have hsplit : Stores.read (HexMac.hexmac long stack m) 0 13 =
      Stores.read (HexMac.hexmac long stack m) 0 12 ++
        Stores.read (HexMac.hexmac long stack m) 12 1 := read_add _ 0 12 1
  rw [hsplit] at hread
  have hdigits := (List.append_inj hread (by
    rw [length_read, HexMac.length_hex_digits])).1
  have hbytes : Stores.read (host long stack m) 0 12 = m.hex_digits.map byte := by
    rw [← hdigits]
    unfold Stores.read host
    rw [List.map_map]
    rfl
  rw [strncpy_full, hbytes]
  intro i hi
  have hmem : HexMac.hexmac long stack m (0 + i) ∈ m.hex_digits := by
    rw [← hdigits]
    exact List.mem_map_of_mem (List.mem_range.mpr hi)
  rw [Nat.zero_add] at hmem
  exact (byte_digit (mem_hex_digits hmem)).1

def frame (e : Endian) (long : HexMac.Long) (stack : ℕ → Char) (heap : ℕ → UInt8) (m : Mac)
    (cmd : HoolockCmd) : List UInt8 :=
  Stores.read (request e heap (host long stack m) cmd) 0 msg_size

theorem frame_eq (e : Endian) (long : HexMac.Long) (stack : ℕ → Char) (heap : ℕ → UInt8)
    (m : Mac) (cmd : HoolockCmd) :
    frame e long stack heap m cmd = strncpy hoolock_literal 7 ++ (m.hex_digits.map byte ++
      ([heap 19] ++ (cmd.bytes e ++ [byte ';']))) := by
  unfold frame
  rw [read_request, strncpy_host]

def digits_of (frame : List UInt8) : List Char :=
  ((frame.drop (offset_of 1)).take 12).map fun b => Char.ofNat b.toNat

def cmd_of (e : Endian) (frame : List UInt8) : Option HoolockCmd :=
  [.MAKE_REQ, .MAKE_ACK, .BREAK_REQ, .BREAK_ACK].find? fun cmd =>
    cmd.bytes e == (frame.drop (offset_of 3)).take 4

theorem digits_of_frame (e : Endian) (long : HexMac.Long) (stack : ℕ → Char) (heap : ℕ → UInt8)
    (m : Mac) (cmd : HoolockCmd) : digits_of (frame e long stack heap m cmd) = m.hex_digits := by
  obtain ⟨-, hmac, -, -, -⟩ := layout
  have hname : (strncpy hoolock_literal 7).length = 7 := length_strncpy _ _
  have hlen : (m.hex_digits.map byte).length = 12 := by
    rw [List.length_map, HexMac.length_hex_digits]
  unfold digits_of
  rw [frame_eq, hmac, List.drop_left' hname, List.take_left' hlen, List.map_map]
  refine (List.map_congr_left fun c hc => ?_).trans (List.map_id _)
  exact (byte_digit (mem_hex_digits hc)).2

theorem cmd_of_frame (e : Endian) (long : HexMac.Long) (stack : ℕ → Char) (heap : ℕ → UInt8)
    (m : Mac) (cmd : HoolockCmd) : cmd_of e (frame e long stack heap m cmd) = some cmd := by
  obtain ⟨-, -, -, hcmd, -⟩ := layout
  have hfront : (strncpy hoolock_literal 7 ++ (m.hex_digits.map byte ++ [heap 19])).length = 20 := by
    simp [length_strncpy, HexMac.length_hex_digits]
  have hframe : frame e long stack heap m cmd =
      (strncpy hoolock_literal 7 ++ (m.hex_digits.map byte ++ [heap 19])) ++
        (cmd.bytes e ++ [byte ';']) := by
    rw [frame_eq]
    simp
  unfold cmd_of
  rw [hframe, hcmd, List.drop_left' hfront, List.take_left' (cmd.length_bytes e)]
  cases e <;> cases cmd <;> rfl

/-- Two runs of the client send the same request for the same host and command, from which
both are read back, and different requests else, exactly if the heaps agree on the byte that
becomes `separator1`. -/
theorem request_determined_iff (e : Endian) (long : HexMac.Long) (stack other : ℕ → Char)
    (heap before : ℕ → UInt8) (m : Mac) (cmd : HoolockCmd) :
    (frame e long stack heap m cmd = frame e long other before m cmd ∧
      digits_of (frame e long stack heap m cmd) = m.hex_digits ∧
      cmd_of e (frame e long stack heap m cmd) = some cmd ∧
      ∀ (k : Mac) (c : HoolockCmd), (k, c) ≠ (m, cmd) →
        frame e long other before k c ≠ frame e long stack heap m cmd) ↔
    heap (offset_of 2) = before (offset_of 2) := by
  obtain ⟨-, -, hsep, -, -⟩ := layout
  rw [hsep]
  constructor
  · rintro ⟨hsame, -⟩
    rw [frame_eq, frame_eq] at hsame
    have hrest := List.append_cancel_left (List.append_cancel_left hsame)
    simpa using hrest
  · intro hbyte
    refine ⟨?_, digits_of_frame _ _ _ _ _ _, cmd_of_frame _ _ _ _ _ _, fun k c hne hframe => ?_⟩
    · rw [frame_eq, frame_eq, hbyte]
    · have hdigits := congrArg digits_of hframe
      have hcmd := congrArg (cmd_of e) hframe
      rw [digits_of_frame, digits_of_frame] at hdigits
      rw [cmd_of_frame, cmd_of_frame, Option.some.injEq] at hcmd
      exact hne (by rw [HexMac.hex_digits_injective hdigits, hcmd])

/-- The same request is sent in two ways when `new` finds other memory. -/
theorem separator_from_the_heap :
    frame .little .lp64 (fun _ => 'x') (fun _ => 0x00) ⟨0, 1, 2, 3, 4, 5⟩ .MAKE_REQ ≠
      frame .little .lp64 (fun _ => 'x') (fun _ => 0xff) ⟨0, 1, 2, 3, 4, 5⟩ .MAKE_REQ := by
  rw [frame_eq, frame_eq]
  intro hsame
  have hrest := List.append_cancel_left (List.append_cancel_left hsame)
  simp at hrest

end RequestFrame

end Hoolock
