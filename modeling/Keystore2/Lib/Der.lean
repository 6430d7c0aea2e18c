import Mathlib.Data.Nat.Digits.Defs

/-! Definite lengths and TLV encodings of DER (X.690, 8.1.3 and 10.1).  A length below `0x80`
is the one byte of its value; a longer one is the byte `0x80 + k` followed by the `k` base-256
digits of the length, the most significant first and with no leading zero.  That is the one
encoding DER allows, so a TLV built here is well formed by construction, and an encoder is
shown correct by computing its output to be `tlv`. -/

namespace Der

/-- The base-256 digits of `n`, the most significant first; none for `0`. -/
def lengthDigits (n : Nat) : List UInt8 := (Nat.digits 256 n).reverse.map Nat.toUInt8

/-- The minimal definite-length encoding of `n`. -/
def lengthOctets (n : Nat) : List UInt8 :=
  if n < 0x80 then [n.toUInt8] else (0x80 + (lengthDigits n).length).toUInt8 :: lengthDigits n

/-- A tag, the encoded length of the content, and the content. -/
def tlv (tag : UInt8) (content : List UInt8) : List UInt8 :=
  tag :: lengthOctets content.length ++ content

@[simp] theorem length_tlv (tag : UInt8) (content : List UInt8) :
    (tlv tag content).length = 1 + (lengthOctets content.length).length + content.length := by
  simp only [tlv, List.length_cons, List.length_append]
  omega

theorem lengthDigits_of_lt_256 {n : Nat} (h0 : n ≠ 0) (h : n < 0x100) :
    lengthDigits n = [n.toUInt8] := by
  simp [lengthDigits, Nat.digits_of_lt 256 n h0 h]

theorem lengthDigits_of_lt_65536 {n : Nat} (h : 0x100 ≤ n) (h' : n < 0x10000) :
    lengthDigits n = [(n / 256).toUInt8, (n % 256).toUInt8] := by
  -- the low digit, then the high digit, which is already below the base
  have hhigh : Nat.digits 256 (n / 256) = [n / 256] :=
    Nat.digits_of_lt 256 (n / 256) (by omega) (by omega)
  rw [lengthDigits, Nat.digits_def' (by decide) (by omega), hhigh]
  rfl

theorem lengthOctets_of_lt_128 {n : Nat} (h : n < 0x80) : lengthOctets n = [n.toUInt8] :=
  if_pos h

theorem lengthOctets_of_lt_256 {n : Nat} (h : 0x80 ≤ n) (h' : n < 0x100) :
    lengthOctets n = [0x81, n.toUInt8] := by
  rw [lengthOctets, if_neg (by omega), lengthDigits_of_lt_256 (by omega) h']
  rfl

theorem lengthOctets_of_lt_65536 {n : Nat} (h : 0x100 ≤ n) (h' : n < 0x10000) :
    lengthOctets n = [0x82, (n / 256).toUInt8, (n % 256).toUInt8] := by
  rw [lengthOctets, if_neg (by omega), lengthDigits_of_lt_65536 h h']
  rfl

end Der
