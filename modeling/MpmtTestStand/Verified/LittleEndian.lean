import MpmtTestStand.Verified.BigEndian

/-!
# Little-endian memory

`encode n x` are the `n` bytes of the number `x` as a little-endian machine keeps them,
`decode` is the number that it finds there.  Both are those of `BigEndian`, read from
the other end.
-/

namespace MpmtTestStand.Verified.LittleEndian

/-- The `n` low bytes of `x`, least significant first. -/
def encode : Nat → Nat → List UInt8
  | 0, _ => []
  | n + 1, x => UInt8.ofNat x :: encode n (x / 256)

/-- The number that the bytes denote. -/
def decode : List UInt8 → Nat
  | [] => 0
  | b :: bytes => b.toNat + 256 * decode bytes

theorem encode_eq_reverse (n x : Nat) : encode n x = (BigEndian.encode n x).reverse := by
  induction n generalizing x with
  | zero => rfl
  | succ n ih =>
      rw [encode, BigEndian.encode, List.reverse_append, ih]
      rfl

theorem decode_eq_reverse (bytes : List UInt8) : decode bytes = BigEndian.decode bytes.reverse := by
  induction bytes with
  | nil => rfl
  | cons b bytes ih =>
      rw [decode, List.reverse_cons, BigEndian.decode_append_singleton, ih]
      omega

@[simp] theorem encode_length (n x : Nat) : (encode n x).length = n := by
  rw [encode_eq_reverse, List.length_reverse, BigEndian.encode_length]

theorem decode_lt (bytes : List UInt8) : decode bytes < 256 ^ bytes.length := by
  induction bytes with
  | nil => exact Nat.one_pos
  | cons b bytes ih =>
      have hb := b.toNat_lt
      rw [decode, List.length_cons, Nat.pow_succ]
      omega

/-- Storing what has been loaded changes nothing. -/
theorem encode_decode (bytes : List UInt8) : encode bytes.length (decode bytes) = bytes := by
  induction bytes with
  | nil => rfl
  | cons b bytes ih =>
      have hb := b.toNat_lt
      have hlow : UInt8.ofNat (b.toNat + 256 * decode bytes) = b := by
        apply UInt8.toNat_inj.mp
        rw [UInt8.toNat_ofNat']
        omega
      have hhigh : (b.toNat + 256 * decode bytes) / 256 = decode bytes := by omega
      rw [decode, List.length_cons, encode, hlow, hhigh, ih]

end MpmtTestStand.Verified.LittleEndian
