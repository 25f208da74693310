import Mathlib.Data.List.Basic

/-! # Masking bytes with a key stream

A stream cipher has a byte for every position of its stream, and encrypts by taking the exclusive
or of a message and the stream from some position on.  To do it again undoes it, and the parts of a
message are masked as the message is, each from where it starts. -/
namespace KeyStreams

/-- `bytes`, masked with the stream from `offset` on. -/
def mask (stream : Nat → UInt8) : (offset : Nat) → List UInt8 → List UInt8
  | _, [] => []
  | offset, b :: bytes => (b ^^^ stream offset) :: mask stream (offset + 1) bytes

/-- `n` zero bytes. -/
def zeros (n : Nat) : List UInt8 := List.replicate n 0

variable (stream : Nat → UInt8)

@[simp] theorem length_mask (offset : Nat) (bytes : List UInt8) :
    (mask stream offset bytes).length = bytes.length := by
  induction bytes generalizing offset with
  | nil => rfl
  | cons b bytes ih => simp [mask, ih]

/-- To mask twice is to leave the bytes as they are. -/
@[simp] theorem mask_mask (offset : Nat) (bytes : List UInt8) :
    mask stream offset (mask stream offset bytes) = bytes := by
  induction bytes generalizing offset with
  | nil => rfl
  | cons b bytes ih => rw [mask, mask, ih, UInt8.xor_assoc, UInt8.xor_self, UInt8.xor_zero]

theorem mask_append (offset : Nat) (front back : List UInt8) :
    mask stream offset (front ++ back) =
      mask stream offset front ++ mask stream (offset + front.length) back := by
  induction front generalizing offset with
  | nil => rfl
  | cons b front ih =>
    simp only [List.cons_append, mask, ih, List.length_cons]
    rw [Nat.add_right_comm, Nat.add_assoc offset]

theorem take_mask (offset n : Nat) (bytes : List UInt8) :
    (mask stream offset bytes).take n = mask stream offset (bytes.take n) := by
  induction bytes generalizing offset n with
  | nil => simp [mask]
  | cons b bytes ih =>
    cases n with
    | zero => rfl
    | succ n => simp [mask, ih]

theorem drop_mask (offset n : Nat) (bytes : List UInt8) :
    (mask stream offset bytes).drop n = mask stream (offset + n) (bytes.drop n) := by
  induction bytes generalizing offset n with
  | nil => simp [mask]
  | cons b bytes ih =>
    cases n with
    | zero => rfl
    | succ n =>
      simp only [mask, List.drop_succ_cons, ih]
      rw [Nat.add_assoc, Nat.add_comm 1]

@[simp] theorem length_zeros (n : Nat) : (zeros n).length = n := List.length_replicate

end KeyStreams
