import DropFile.General.FuelledProgram
import DropFile.General.LittleEndian

/-!
# Byte streams and exceptions

The parts of the C++ standard library that the other modules read and write
through.  An input stream keeps its state bits: a read that meets the end of
the data sets `eofbit` and `failbit`, and on a stream that is not good both
`read` and `tellg` only set `failbit`.  An output stream writes at its
position, overwriting what is there.
-/

namespace DropFile.Streams

open DropFile.General

abbrev Bytes := List UInt8

/-- The bytes of a text in the source, all of which are plain ASCII. -/
def ascii (text : String) : Bytes :=
  text.toList.map fun character => UInt8.ofNat character.toNat

theorem ascii_length (text : String) :
    (ascii text).length = text.length := by
  rw [ascii, List.length_map, String.length_toList]

/-! ## `std::size_t` -/

/-- The number of values of `std::size_t`. -/
def sizeModulus : Nat := 256 ^ 8

/-- The bytes of a `std::size_t` in memory. -/
def sizeBytes (value : Nat) : Bytes :=
  LittleEndian.encode 8 value

/-- The `std::size_t` that eight bytes hold. -/
def sizeOfBytes (bytes : Bytes) : Nat :=
  LittleEndian.decode bytes

/-- Subtraction of two `std::size_t` values wraps around. -/
def sizeSub (left right : Nat) : Nat :=
  if right ≤ left then left - right else left + sizeModulus - right

/-- Addition of two `std::size_t` values wraps around. -/
def sizeAdd (left right : Nat) : Nat :=
  (left + right) % sizeModulus

@[simp]
theorem sizeBytes_length (value : Nat) :
    (sizeBytes value).length = 8 :=
  LittleEndian.encode_length 8 value

theorem sizeOfBytes_sizeBytes
    {value : Nat}
    (fits : value < sizeModulus) :
    sizeOfBytes (sizeBytes value) = value :=
  LittleEndian.decode_encode_of_lt fits

theorem eq_of_sizeBytes_eq
    {left right : Nat}
    (leftFits : left < sizeModulus)
    (rightFits : right < sizeModulus)
    (same : sizeBytes left = sizeBytes right) :
    left = right := by
  rw [← sizeOfBytes_sizeBytes leftFits, same,
    sizeOfBytes_sizeBytes rightFits]

theorem sizeOfBytes_lt
    {bytes : Bytes}
    (length : bytes.length = 8) :
    sizeOfBytes bytes < sizeModulus := by
  have small := LittleEndian.decode_lt bytes
  rw [length] at small
  exact small

theorem sizeBytes_sizeOfBytes
    {bytes : Bytes}
    (length : bytes.length = 8) :
    sizeBytes (sizeOfBytes bytes) = bytes := by
  rw [sizeBytes, sizeOfBytes, ← length]
  exact LittleEndian.encode_decode bytes

theorem sizeSub_of_le
    {left right : Nat}
    (ordered : right ≤ left) :
    sizeSub left right = left - right :=
  if_pos ordered

theorem sizeAdd_of_lt
    {left right : Nat}
    (fits : left + right < sizeModulus) :
    sizeAdd left right = left + right :=
  Nat.mod_eq_of_lt fits

/-! ## Exceptions -/

/-- The classes of exceptions that the program throws or lets through. -/
inductive ExceptionClass where
  | utils
  | socket
  | zstd
  | fsEntryInfo
  | archiveManager
  | dropFileSend
  | dropFileReceive
  | initSessionMessage
  | sessionsManager
  | json
  | systemError
  | filesystemError
deriving DecidableEq, Repr

/-- The classes that are derived from `DropFileBaseException`. -/
def ExceptionClass.isDropFileBase : ExceptionClass → Bool
  | json => false
  | systemError => false
  | filesystemError => false
  | _ => true

/-- A thrown object: its class and what `what()` returns. -/
structure Exception where
  thrown : ExceptionClass
  what : Bytes
deriving DecidableEq, Repr

/-- `what()` is a C string, so it ends at the first null character. -/
def Exception.message (exception : Exception) : Bytes :=
  exception.what.takeWhile (· ≠ 0)

/-- What succeeds has succeeded at first. -/
theorem ok_of_bind
    {ε α β : Type} {first : Except ε α} {next : α → Except ε β} {result : β}
    (succeeds : (first >>= next) = .ok result) :
    ∃ value, first = .ok value ∧ next value = .ok result := by
  cases first with
  | error error => cases succeeds
  | ok value => exact ⟨value, rfl, succeeds⟩

/-- What fails has failed at first or later. -/
theorem error_of_bind
    {ε α β : Type} {first : Except ε α} {next : α → Except ε β} {error : ε}
    (fails : (first >>= next) = .error error) :
    first = .error error ∨
      ∃ value, first = .ok value ∧ next value = .error error := by
  cases first with
  | error other =>
      cases fails
      exact Or.inl rfl
  | ok value => exact Or.inr ⟨value, rfl, fails⟩

/-- Only exceptions of some classes can be thrown. -/
def ThrowsOnly {α : Type} (allowed : ExceptionClass → Prop)
    (result : Except Exception α) : Prop :=
  ∀ error, result = .error error → allowed error.thrown

theorem ThrowsOnly.ok
    {α : Type} {allowed : ExceptionClass → Prop} (value : α) :
    ThrowsOnly allowed (.ok value) := by
  intro error impossible
  cases impossible

theorem ThrowsOnly.error
    {α : Type} {allowed : ExceptionClass → Prop} {exception : Exception}
    (isAllowed : allowed exception.thrown) :
    ThrowsOnly allowed (.error exception : Except Exception α) := by
  intro error same
  cases same
  exact isAllowed

theorem ThrowsOnly.bind
    {α β : Type} {allowed : ExceptionClass → Prop}
    {first : Except Exception α} {next : α → Except Exception β}
    (firstThrows : ThrowsOnly allowed first)
    (nextThrows : ∀ value, ThrowsOnly allowed (next value)) :
    ThrowsOnly allowed (first >>= next) := by
  intro error fails
  rcases error_of_bind fails with failed | ⟨value, -, failed⟩
  · exact firstThrows error failed
  · exact nextThrows value error failed

theorem ThrowsOnly.weaken
    {α : Type} {allowed weaker : ExceptionClass → Prop}
    {result : Except Exception α}
    (throws : ThrowsOnly allowed result)
    (isWeaker : ∀ thrown, allowed thrown → weaker thrown) :
    ThrowsOnly weaker result := by
  intro error fails
  exact isWeaker error.thrown (throws error fails)

/-! ## Input streams -/

/-- A `std::istream` over a byte string. -/
structure IStream where
  data : Bytes
  position : Nat
  eofbit : Bool
  failbit : Bool
deriving DecidableEq, Repr

namespace IStream

/-- A stream that has just been opened. -/
def ofBytes (data : Bytes) : IStream :=
  ⟨data, 0, false, false⟩

/-- A good stream at a position. -/
def goodAt (data : Bytes) (position : Nat) : IStream :=
  ⟨data, position, false, false⟩

def good (stream : IStream) : Bool :=
  !stream.eofbit && !stream.failbit

/--
`stream.read(buffer, count)`.  The result is what the buffer holds
afterwards, so `gcount()` is its length.
-/
def read (stream : IStream) (count : Nat) : Bytes × IStream :=
  if stream.good then
    let received := (stream.data.drop stream.position).take count
    (received,
      { stream with
        position := stream.position + received.length
        eofbit := decide (received.length < count)
        failbit := decide (received.length < count) })
  else
    ([], { stream with failbit := true })

/-- `stream.tellg()`, with `none` for the value `-1` of a failed stream. -/
def tellg (stream : IStream) : Option Nat × IStream :=
  if stream.good then
    (some stream.position, stream)
  else
    (none, { stream with failbit := true })

@[simp]
theorem ofBytes_eq_goodAt (data : Bytes) :
    ofBytes data = IStream.goodAt data 0 :=
  rfl

/-- A read that the rest of the data can serve in full. -/
theorem read_goodAt_full
    {before received after : Bytes} :
    (IStream.goodAt (before ++ (received ++ after)) before.length).read
        received.length =
      (received,
        IStream.goodAt (before ++ (received ++ after))
          (before.length + received.length)) := by
  simp [read, IStream.goodAt, good]

/-- A read that meets the end of the data. -/
theorem read_goodAt_short
    {before rest : Bytes} {count : Nat}
    (short : rest.length < count) :
    (IStream.goodAt (before ++ rest) before.length).read count =
      (rest,
        ⟨before ++ rest, before.length + rest.length, true, true⟩) := by
  have taken : rest.take count = rest :=
    List.take_of_length_le (Nat.le_of_lt short)
  simp [read, IStream.goodAt, good, taken, short]

theorem read_of_not_good
    {stream : IStream}
    (bad : stream.good = false)
    (count : Nat) :
    stream.read count = ([], { stream with failbit := true }) := by
  simp [read, bad]

@[simp]
theorem tellg_goodAt (data : Bytes) (position : Nat) :
    (IStream.goodAt data position).tellg =
      (some position, IStream.goodAt data position) :=
  rfl

end IStream

/-! ## Output streams -/

/-- A `std::ostream` over a byte string. -/
structure OStream where
  data : Bytes
  position : Nat
deriving DecidableEq, Repr

namespace OStream

/-- A stream whose position is the end of its data. -/
def atEnd (data : Bytes) : OStream :=
  ⟨data, data.length⟩

/-- `stream.write(bytes)`. -/
def write (stream : OStream) (bytes : Bytes) : OStream where
  data :=
    stream.data.take stream.position ++ bytes ++
      stream.data.drop (stream.position + bytes.length)
  position := stream.position + bytes.length

def tellp (stream : OStream) : Nat :=
  stream.position

/-- `stream.seekp(position, std::ios_base::beg)`. -/
def seekp (stream : OStream) (position : Nat) : OStream :=
  { stream with position := position }

/-- `stream.seekp(0, std::ios::end)`. -/
def seekEnd (stream : OStream) : OStream :=
  atEnd stream.data

@[simp]
theorem write_atEnd (data bytes : Bytes) :
    (atEnd data).write bytes = atEnd (data ++ bytes) := by
  simp [write, atEnd]

/-- Writing over bytes in the middle changes nothing else. -/
theorem write_seekp
    (before old new after : Bytes)
    (sameLength : new.length = old.length) :
    ((atEnd (before ++ (old ++ after))).seekp before.length).write new =
      ⟨before ++ (new ++ after), before.length + new.length⟩ := by
  simp [write, seekp, atEnd, sameLength]

end OStream

/-! ## Bytes that are replaced -/

/-- Contents that can be different in `count` bytes at a position only. -/
structure SameOutside (position count : Nat) (old new : Bytes) : Prop where
  length : new.length = old.length
  within : position + count ≤ old.length
  byte : ∀ index, index < position ∨ position + count ≤ index →
    new[index]? = old[index]?

theorem sameOutside_append
    (before old new after : Bytes)
    (sameLength : new.length = old.length) :
    SameOutside before.length old.length (before ++ (old ++ after))
      (before ++ (new ++ after)) where
  length := by
    simp only [List.length_append, sameLength]
  within := by
    simp only [List.length_append]
    omega
  byte := by
    intro index outside
    rcases outside with earlier | later
    · rw [List.getElem?_append_left earlier,
        List.getElem?_append_left earlier]
    · have beyondBefore : before.length ≤ index :=
        Nat.le_of_add_right_le later
      have beyond : old.length ≤ index - before.length :=
        Nat.le_sub_of_add_le' later
      rw [List.getElem?_append_right beyondBefore,
        List.getElem?_append_right beyondBefore,
        List.getElem?_append_right beyond,
        List.getElem?_append_right (sameLength ▸ beyond), sameLength]

end DropFile.Streams
