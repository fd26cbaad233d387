import Mathlib.Data.List.Basic
import Mathlib.Data.Nat.Digits.Defs

/-!
# Hexadecimal text

Every byte as two digits in lower case.  The bytes can be read back, so
different byte strings have different texts.  The numeral of a number has no
leading zeros; padded to two places it is the text of a byte.
-/

namespace DropFile.General.Hexadecimal

/-- The digit of a value, which is below 16. -/
def digit (value : Nat) : UInt8 :=
  if value < 10 then UInt8.ofNat (48 + value) else UInt8.ofNat (87 + value)

/-- The bytes of `0` to `9` and of `a` to `f`. -/
def IsDigit (byte : UInt8) : Prop :=
  (48 ≤ byte ∧ byte ≤ 57) ∨ (97 ≤ byte ∧ byte ≤ 102)

instance : DecidablePred IsDigit :=
  fun _ => inferInstanceAs (Decidable (_ ∨ _))

def digitValue (byte : UInt8) : Nat :=
  if byte ≤ 57 then byte.toNat - 48 else byte.toNat - 87

/-- Two digits for every byte. -/
def encode (bytes : List UInt8) : List UInt8 :=
  bytes.flatMap fun byte =>
    [digit (byte.toNat / 16), digit (byte.toNat % 16)]

/-- The bytes for pairs of digits. -/
def decode : List UInt8 → List UInt8
  | high :: low :: rest =>
      UInt8.ofNat (16 * digitValue high + digitValue low) :: decode rest
  | _ => []

theorem digit_spec :
    ∀ value < 16, IsDigit (digit value) ∧
      digitValue (digit value) = value := by
  decide

theorem IsDigit.lt
    {byte : UInt8}
    (isDigit : IsDigit byte) :
    byte < 128 := by
  rcases isDigit with ⟨-, small⟩ | ⟨-, small⟩
  · exact UInt8.lt_of_le_of_lt small (by decide)
  · exact UInt8.lt_of_le_of_lt small (by decide)

theorem high_lt (byte : UInt8) : byte.toNat / 16 < 16 :=
  Nat.div_lt_of_lt_mul byte.toNat_lt

theorem low_lt (byte : UInt8) : byte.toNat % 16 < 16 :=
  Nat.mod_lt _ (by decide)

@[simp]
theorem encode_cons (byte : UInt8) (rest : List UInt8) :
    encode (byte :: rest) =
      digit (byte.toNat / 16) :: digit (byte.toNat % 16) :: encode rest :=
  rfl

theorem encode_length (bytes : List UInt8) :
    (encode bytes).length = 2 * bytes.length := by
  induction bytes with
  | nil => rfl
  | cons byte rest inductionHypothesis =>
      simp only [encode_cons, List.length_cons, inductionHypothesis,
        Nat.mul_succ]

theorem isDigit_of_mem_encode
    {bytes : List UInt8} {byte : UInt8}
    (member : byte ∈ encode bytes) :
    IsDigit byte := by
  rcases List.mem_flatMap.1 member with ⟨source, -, isOne⟩
  rcases List.mem_pair.1 isOne with rfl | rfl
  · exact (digit_spec _ (high_lt source)).1
  · exact (digit_spec _ (low_lt source)).1

/-- The text of bytes can be read back. -/
theorem decode_encode : Function.LeftInverse decode encode := by
  intro bytes
  induction bytes with
  | nil => rfl
  | cons byte rest inductionHypothesis =>
      rw [encode_cons, decode, inductionHypothesis,
        (digit_spec _ (high_lt byte)).2, (digit_spec _ (low_lt byte)).2,
        Nat.div_add_mod, UInt8.ofNat_toNat]

theorem encode_injective : Function.Injective encode :=
  decode_encode.injective

/-! ## Numerals -/

/-- The numeral of a number in a base, which is at most 16. -/
def numeral (base value : Nat) : List UInt8 :=
  if value = 0 then [digit 0] else ((Nat.digits base value).map digit).reverse

/-- A text with filling bytes in front of it. -/
def padded (width : Nat) (fill : UInt8) (text : List UInt8) : List UInt8 :=
  List.replicate (width - text.length) fill ++ text

theorem numeral_of_lt
    {value : Nat}
    (small : value < 16) :
    numeral 16 value = [digit value] := by
  rw [numeral]
  split_ifs with zero
  · rw [zero]
  · rw [Nat.digits_of_lt 16 value zero small]
    rfl

theorem numeral_of_ge
    {value : Nat}
    (large : 16 ≤ value)
    (small : value < 16 * 16) :
    numeral 16 value = [digit (value / 16), digit (value % 16)] := by
  have positive : 0 < value := Nat.lt_of_lt_of_le (by decide) large
  have highPositive : value / 16 ≠ 0 :=
    Nat.ne_of_gt (Nat.div_pos large (by decide))
  have highSmall : value / 16 < 16 := Nat.div_lt_of_lt_mul small
  rw [numeral, if_neg (Nat.ne_of_gt positive),
    Nat.digits_def' (by decide) positive,
    Nat.digits_of_lt 16 _ highPositive highSmall]
  rfl

/-- The numeral of a byte, padded to two places, is its text. -/
theorem padded_numeral (byte : UInt8) :
    padded 2 (digit 0) (numeral 16 byte.toNat) =
      [digit (byte.toNat / 16), digit (byte.toNat % 16)] := by
  by_cases small : byte.toNat < 16
  · rw [numeral_of_lt small, Nat.div_eq_of_lt small, Nat.mod_eq_of_lt small]
    rfl
  · rw [numeral_of_ge (Nat.le_of_not_lt small) byte.toNat_lt]
    rfl

end DropFile.General.Hexadecimal
