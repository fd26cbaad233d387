import Mathlib.Data.List.Basic
import Mathlib.Tactic.Ring

/-!
# Fixed-width little-endian numbers

Byte strings as numbers in base 256, least significant byte first.  Encoding
at a fixed width forgets everything above the width; the two directions are
inverse to each other on numbers that fit and on strings of that width.
-/

namespace DropFile.General.LittleEndian

/-- The lowest `width` base-256 digits of a number. -/
def encode : (width value : Nat) → List UInt8
  | 0, _ => []
  | width + 1, value =>
      UInt8.ofNat (value % 256) :: encode width (value / 256)

/-- The number with the given base-256 digits. -/
def decode : List UInt8 → Nat
  | [] => 0
  | digit :: digits => digit.toNat + 256 * decode digits

@[simp]
theorem encode_length (width value : Nat) :
    (encode width value).length = width := by
  induction width generalizing value with
  | zero => rfl
  | succ width inductionHypothesis =>
      simp [encode, inductionHypothesis]

theorem decode_encode (width value : Nat) :
    decode (encode width value) = value % 256 ^ width := by
  induction width generalizing value with
  | zero => simp [encode, decode, Nat.mod_one]
  | succ width inductionHypothesis =>
      have digit :
          (UInt8.ofNat (value % 256)).toNat = value % 256 := by
        simp
      rw [encode, decode, inductionHypothesis, digit, pow_succ',
        Nat.mod_mul]

theorem decode_encode_of_lt
    {width value : Nat}
    (fits : value < 256 ^ width) :
    decode (encode width value) = value := by
  rw [decode_encode, Nat.mod_eq_of_lt fits]

theorem decode_lt (digits : List UInt8) :
    decode digits < 256 ^ digits.length := by
  induction digits with
  | nil => simp [decode]
  | cons digit digits inductionHypothesis =>
      have small := digit.toNat_lt
      rw [decode, List.length_cons, pow_succ']
      omega

theorem encode_decode (digits : List UInt8) :
    encode digits.length (decode digits) = digits := by
  induction digits with
  | nil => rfl
  | cons digit digits inductionHypothesis =>
      have small := digit.toNat_lt
      have low : (digit.toNat + 256 * decode digits) % 256 = digit.toNat := by
        omega
      have high :
          (digit.toNat + 256 * decode digits) / 256 = decode digits := by
        omega
      rw [List.length_cons, decode, encode, low, high, inductionHypothesis,
        UInt8.ofNat_toNat]

end DropFile.General.LittleEndian
