import DropFile.General.Magnitudes
import DropFile.SessionMessages
import Mathlib.Analysis.SpecialFunctions.Log.Base

/-!
# Sizes of files as text

The unit of a printed size comes from its binary logarithm.  The logarithm is
exact, and it is -∞ for 0, which is no value of `std::size_t`.
-/

namespace DropFile.FileSizes

open DropFile.General
open DropFile.General.Utf8
open DropFile.Streams
open DropFile.JsonObjects
open DropFile.InitSessionMessage
open DropFile.SessionMessages
open DropFile.Client.EntryInfo

/-- `std::log2`. -/
noncomputable def log2 (value : Nat) : EReal :=
  if value = 0 then ⊥ else (Real.logb 2 value : ℝ)

open Classical in
/--
`static_cast<std::size_t>`, which rounds down; it is undefined for a value
that is out of range.
-/
noncomputable def toSize (value : EReal) : Option Nat :=
  if 0 ≤ value ∧ value < ((sizeModulus : ℝ) : EReal) then
    some ⌊value.toReal⌋₊
  else
    none

/-- `bytesToHumanReadable`; nothing when it evaluates something undefined. -/
noncomputable def bytesToHumanReadable (bytes : Nat) : Option Bytes := do
  let logarithm ← toSize (log2 bytes)
  let step := 10
  let orderOfMagnitude := logarithm / step
  match orderOfMagnitude with
  | 0 => pure (decimal bytes ++ ascii " B")
  | 1 => pure (decimal (bytes / 1024) ++ ascii " kiB")
  | 2 => pure (decimal (bytes / (1024 * 1024)) ++ ascii " MiB")
  | _ => pure (decimal (bytes / (1024 * 1024 * 1024)) ++ ascii " GiB")

/-! ## What the text says -/

/-- The units and their names. -/
def units : List (Nat × String) :=
  [(1, " B"), (2 ^ 10, " kiB"), (2 ^ 20, " MiB"), (2 ^ 30, " GiB")]

/--
The text is the size in one of the units, rounded down, and the unit is the
largest one that is not above the size, or a byte if there is none.
-/
def Describes (fileSize : Nat) (text : Bytes) : Prop :=
  ∃ value unit name,
    (unit, name) ∈ units ∧
    text = decimal value ++ ascii name ∧
    value * unit ≤ fileSize ∧
    fileSize < (value + 1) * unit ∧
    (unit ≤ fileSize ∨ unit = 1) ∧
    ∀ other ∈ units, other.1 ≤ fileSize → other.1 ≤ unit

/-- The conversion of the logarithm of a size is defined, except for 0. -/
theorem toSize_log2
    {bytes : Nat}
    (positive : bytes ≠ 0)
    (isSize : bytes < sizeModulus) :
    toSize (log2 bytes) = some (Nat.log 2 bytes) := by
  have atLeastOne : (1 : ℝ) ≤ bytes :=
    Nat.one_le_cast.2 (Nat.one_le_iff_ne_zero.2 positive)
  have nonnegative : 0 ≤ Real.logb 2 bytes :=
    Real.logb_nonneg one_lt_two atLeastOne
  have floor : ⌊Real.logb 2 bytes⌋₊ = Nat.log 2 bytes := by
    exact_mod_cast Real.natFloor_logb_natCast 2 bytes
  have below : Real.logb 2 bytes < sizeModulus := by
    calc
      Real.logb 2 bytes < ⌊Real.logb 2 bytes⌋₊ + 1 :=
        Nat.lt_floor_add_one _
      _ = Nat.log 2 bytes + 1 := by rw [floor]
      _ ≤ bytes := by exact_mod_cast Nat.log_lt_self 2 positive
      _ < sizeModulus := Nat.cast_lt.2 isSize
  rw [log2, if_neg positive, toSize, if_pos, EReal.toReal_coe, floor]
  exact ⟨EReal.coe_nonneg.2 nonnegative, EReal.coe_lt_coe_iff.2 below⟩

theorem toSize_log2_zero : toSize (log2 0) = none := by
  rw [log2, if_pos rfl, toSize, if_neg]
  intro inRange
  exact absurd inRange.1 (by simp)

/-- The switch selects the unit for the size. -/
theorem bytesToHumanReadable_eq
    {bytes : Nat}
    (positive : bytes ≠ 0)
    (isSize : bytes < sizeModulus) :
    ∃ name,
      (1024 ^ Magnitudes.magnitude 1024 3 bytes, name) ∈ units ∧
      bytesToHumanReadable bytes =
        some (decimal (bytes / 1024 ^ Magnitudes.magnitude 1024 3 bytes) ++
          ascii name) := by
  have order : Nat.log 2 bytes / 10 = Nat.log 1024 bytes :=
    Magnitudes.log_div_step bytes 10
  simp only [bytesToHumanReadable, toSize_log2 positive isSize,
    Option.bind_eq_bind, Option.bind_some, order, Magnitudes.magnitude]
  rcases Nat.log 1024 bytes with _ | _ | _ | more
  · refine ⟨" B", by simp [units], ?_⟩
    simp
  · exact ⟨" kiB", by simp [units], rfl⟩
  · exact ⟨" MiB", by simp [units], rfl⟩
  · have largest : min (more + 3) 3 = 3 := Nat.min_eq_right (by omega)
    rw [largest]
    exact ⟨" GiB", by simp [units], rfl⟩

/-- Every unit is a power of 1024. -/
theorem exists_exponent
    {unit : Nat} {name : String}
    (isUnit : (unit, name) ∈ units) :
    ∃ exponent ≤ 3, unit = 1024 ^ exponent := by
  simp only [units, List.mem_cons, Prod.mk.injEq, List.not_mem_nil,
    or_false] at isUnit
  rcases isUnit with ⟨rfl, -⟩ | ⟨rfl, -⟩ | ⟨rfl, -⟩ | ⟨rfl, -⟩
  · exact ⟨0, by decide, rfl⟩
  · exact ⟨1, by decide, rfl⟩
  · exact ⟨2, by decide, rfl⟩
  · exact ⟨3, by decide, rfl⟩

theorem bytesToHumanReadable_describes
    {bytes : Nat}
    (positive : bytes ≠ 0)
    (isSize : bytes < sizeModulus) :
    ∃ text, bytesToHumanReadable bytes = some text ∧
      Describes bytes text := by
  rcases bytesToHumanReadable_eq positive isSize with
    ⟨name, isUnit, prints⟩
  have unitPositive : 0 < 1024 ^ Magnitudes.magnitude 1024 3 bytes :=
    Nat.pow_pos (by decide)
  have rounded := Magnitudes.rounded_down bytes unitPositive
  refine ⟨_, prints, _, _, name, isUnit, rfl, rounded.1, rounded.2,
    Or.inl (Magnitudes.pow_magnitude_le 3 positive), ?_⟩
  intro other isOther notAbove
  rcases exists_exponent isOther with ⟨exponent, small, isPower⟩
  rw [isPower] at notAbove ⊢
  exact Nat.pow_le_pow_right (by decide)
    (Magnitudes.le_magnitude 3 bytes (by decide) small notAbove)

theorem bytesToHumanReadable_zero : bytesToHumanReadable 0 = none := by
  rw [bytesToHumanReadable, toSize_log2_zero]
  rfl

/-! ## The sizes that the server accepts -/

/-- `create` accepts a message for a file of this size. -/
def Admits (library : JsonLibrary) (fileSize : Nat) : Prop :=
  ∃ text json,
    create library text = .ok json ∧
    json.find actionKey = some (.string (ascii "send")) ∧
    library.sizeAt json fileSizeKey = .ok fileSize

/-- Every value of `std::size_t` is accepted. -/
theorem admits_iff
    {library : JsonLibrary} (contract : library.RoundTripContract)
    (fileSize : Nat) :
    Admits library fileSize ↔ fileSize < sizeModulus := by
  constructor
  · rintro ⟨text, json, -, -, reads⟩
    exact library.sizeAt_lt reads
  · intro isSize
    have noName : IsUtf8 [] := by decide
    rcases @create_sendMessage library contract [] [] fileSize false noName
        noName with
      ⟨text, -, accepts⟩
    have members := isSendMessage_sendMessage [] fileSize [] false
    have reads := reads_of_isSendMessage library isSize members
    exact ⟨text, _, accepts, members.action, reads.fileSize⟩

/--
The text of a size that the server accepts says how large the file is exactly
if the file is not empty.
-/
theorem bytesToHumanReadable_describes_iff
    {library : JsonLibrary} {fileSize : Nat}
    (admitted : Admits library fileSize) :
    (∃ text, bytesToHumanReadable fileSize = some text ∧
      Describes fileSize text) ↔
        fileSize ≠ 0 := by
  constructor
  · rintro ⟨text, prints, -⟩ rfl
    rw [bytesToHumanReadable_zero] at prints
    cases prints
  · intro positive
    rcases admitted with ⟨text, json, -, -, reads⟩
    exact bytesToHumanReadable_describes positive (library.sizeAt_lt reads)

/-- The largest size in kibibytes. -/
theorem bytesToHumanReadable_describes_iff_largest :
    (∃ text, bytesToHumanReadable (2 ^ 20 - 1) = some text ∧
      Describes (2 ^ 20 - 1) text) ↔
        2 ^ 20 - 1 ≠ 0 :=
  bytesToHumanReadable_describes_iff
    ((admits_iff FlatJson.flatLibrary_contract _).2 (by decide))

/-- The size of an empty file is accepted and is not printed. -/
theorem not_bytesToHumanReadable_describes :
    Admits FlatJson.flatLibrary 0 ∧
      ¬ ∃ text, bytesToHumanReadable 0 = some text ∧ Describes 0 text := by
  constructor
  · exact (admits_iff FlatJson.flatLibrary_contract 0).2 (by decide)
  · rintro ⟨text, prints, -⟩
    rw [bytesToHumanReadable_zero] at prints
    cases prints

end DropFile.FileSizes
