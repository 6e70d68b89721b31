import Mathlib

/-!
# Big-endian numerals

`encode n x` is the number `x` in `n` bytes, most significant first; `decode` is
the number that a list of bytes denotes.
-/

namespace MpmtTestStand.Verified.BigEndian

/-- The `n` low bytes of `x`, most significant first. -/
def encode : Nat → Nat → List UInt8
  | 0, _ => []
  | n + 1, x => encode n (x / 256) ++ [UInt8.ofNat x]

/-- The number that the bytes denote. -/
def decode (bytes : List UInt8) : Nat :=
  bytes.foldl (fun x b => 256 * x + b.toNat) 0

@[simp] theorem encode_length (n x : Nat) : (encode n x).length = n := by
  induction n generalizing x with
  | zero => rfl
  | succ n ih => rw [encode, List.length_append, ih, List.length_singleton]

theorem decode_append_singleton (bytes : List UInt8) (b : UInt8) :
    decode (bytes ++ [b]) = 256 * decode bytes + b.toNat := by
  simp [decode]

/-- Decoding recovers the number up to what does not fit. -/
theorem decode_encode (n x : Nat) : decode (encode n x) = x % 256 ^ n := by
  induction n generalizing x with
  | zero => simp [encode, decode, Nat.mod_one]
  | succ n ih =>
      have hbyte : (UInt8.ofNat x).toNat = x % 256 := UInt8.toNat_ofNat
      rw [encode, decode_append_singleton, ih, hbyte, Nat.pow_succ, Nat.mul_comm (256 ^ n),
        Nat.mod_mul, Nat.add_comm]

end MpmtTestStand.Verified.BigEndian
