import Mathlib.Data.List.Basic

/-!
# UTF-8

Byte strings that encode a sequence of characters.
-/

namespace DropFile.General.Utf8

/-- The bytes encode a sequence of characters. -/
def IsUtf8 (bytes : List UInt8) : Prop :=
  ∃ characters : List Char, bytes = characters.flatMap String.utf8EncodeChar

theorem isUtf8_iff (bytes : List UInt8) :
    IsUtf8 bytes ↔ bytes.toByteArray.IsValidUTF8 := by
  constructor
  · rintro ⟨characters, rfl⟩
    exact ⟨characters, rfl⟩
  · rintro ⟨characters, same⟩
    refine ⟨characters, ?_⟩
    simpa [List.utf8Encode] using same

instance (bytes : List UInt8) : Decidable (IsUtf8 bytes) :=
  decidable_of_iff _ (isUtf8_iff bytes).symm

theorem isUtf8_nil : IsUtf8 [] :=
  ⟨[], rfl⟩

theorem IsUtf8.append
    {first second : List UInt8}
    (isFirst : IsUtf8 first)
    (isSecond : IsUtf8 second) :
    IsUtf8 (first ++ second) := by
  rcases isFirst with ⟨characters, rfl⟩
  rcases isSecond with ⟨others, rfl⟩
  exact ⟨characters ++ others, List.flatMap_append.symm⟩

theorem encode_ofUInt8
    {byte : UInt8}
    (isAscii : byte < 128) :
    String.utf8EncodeChar (Char.ofUInt8 byte) = [byte] := by
  have single : (Char.ofUInt8 byte).utf8Size = 1 := by
    rw [Char.utf8Size_eq_one_iff]
    show byte.toUInt32 ≤ 127
    rw [UInt32.le_iff_toNat_le, UInt8.toNat_toUInt32]
    exact Nat.lt_succ_iff.1 isAscii
  rw [String.utf8EncodeChar_eq_singleton single]
  show [byte.toUInt32.toUInt8] = [byte]
  rw [UInt8.toUInt8_toUInt32]

/-- Bytes below 128 are characters of their own. -/
theorem isUtf8_of_ascii
    {bytes : List UInt8}
    (allAscii : ∀ byte ∈ bytes, byte < 128) :
    IsUtf8 bytes := by
  induction bytes with
  | nil => exact isUtf8_nil
  | cons byte rest inductionHypothesis =>
      rw [List.forall_mem_cons] at allAscii
      have single : IsUtf8 [byte] := by
        refine ⟨[Char.ofUInt8 byte], ?_⟩
        rw [List.flatMap_singleton, encode_ofUInt8 allAscii.1]
      exact single.append (inductionHypothesis allAscii.2)

end DropFile.General.Utf8
