import Mathlib

/-! Fixed-width little-endian encodings of natural numbers as byte lists, the layout that
`to_le_bytes` and `from_le_bytes` give a machine integer.  Encoding keeps the number modulo
`256 ^ width`, decoding reads any bytes back, and a value below the bound survives the round
trip, which is what a reader of a serialized record relies on.  The lemmas that take a field
off the front of a longer buffer are stated here too. -/

namespace LittleEndian

/-- The `width` low bytes of `n`, the least significant first. -/
def encode : Nat → Nat → List UInt8
  | 0, _ => []
  | width + 1, n => (n % 256).toUInt8 :: encode width (n / 256)

/-- The number whose little-endian bytes are `bytes`. -/
def decode (bytes : List UInt8) : Nat :=
  bytes.foldr (fun b acc => b.toNat + 256 * acc) 0

@[simp] theorem length_encode (width n : Nat) : (encode width n).length = width := by
  induction width generalizing n with
  | zero => rfl
  | succ width ih => simp [encode, ih]

@[simp] theorem decode_nil : decode [] = 0 := rfl

theorem decode_cons (b : UInt8) (bytes : List UInt8) :
    decode (b :: bytes) = b.toNat + 256 * decode bytes := rfl

theorem decode_lt (bytes : List UInt8) : decode bytes < 256 ^ bytes.length := by
  induction bytes with
  | nil => decide
  | cons b bytes ih =>
    have hb := b.toNat_lt
    rw [decode_cons, List.length_cons, Nat.pow_succ']
    change b.toNat < 256 at hb
    omega

/-- Decoding an encoding gives the number back modulo the width. -/
theorem decode_encode (width n : Nat) : decode (encode width n) = n % 256 ^ width := by
  induction width generalizing n with
  | zero => simp [encode, Nat.mod_one]
  | succ width ih =>
    have hbyte : ((n % 256).toUInt8).toNat = n % 256 := by
      simp only [Nat.toUInt8, UInt8.toNat_ofNat']
      omega
    rw [encode, decode_cons, ih, hbyte, Nat.pow_succ', Nat.mod_mul]

theorem decode_encode_of_lt {width n : Nat} (h : n < 256 ^ width) :
    decode (encode width n) = n := by
  rw [decode_encode, Nat.mod_eq_of_lt h]

/-- Encoding decoded bytes at their own width gives them back. -/
theorem encode_decode (bytes : List UInt8) : encode bytes.length (decode bytes) = bytes := by
  induction bytes with
  | nil => rfl
  | cons b bytes ih =>
    have hb : b.toNat < 256 := b.toNat_lt
    have hmod : (b.toNat + 256 * decode bytes) % 256 = b.toNat := by omega
    have hdiv : (b.toNat + 256 * decode bytes) / 256 = decode bytes := by omega
    rw [List.length_cons, encode, decode_cons, hmod, hdiv, ih]
    simp [Nat.toUInt8]

/-- The field of length `width` at the front of a buffer. -/
theorem take_append_of_length {field rest : List UInt8} {width : Nat}
    (h : field.length = width) : (field ++ rest).take width = field := by
  subst h
  exact List.take_left

theorem drop_append_of_length {field rest : List UInt8} {width : Nat}
    (h : field.length = width) : (field ++ rest).drop width = rest := by
  subst h
  exact List.drop_left

end LittleEndian
