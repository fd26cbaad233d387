import DropFile.General.PathNames
import DropFile.Streams

/-!
# `FSEntryInfo`

The header of an archive record: a flag byte, the length of the path and the
path itself, and the length of the payload that follows.  The last is written
as 0 first and patched when the payload is complete.
-/

namespace DropFile.Client.EntryInfo

open DropFile.General.FuelledProgram
open DropFile.General.PathNames
open DropFile.Streams

/-- `FSEntryInfo::PATH_MAX_LEN`. -/
def pathMaxLen : Nat := 4096

structure FSEntryInfo where
  isDirectory : Bool
  relativePath : PathName
  compressedLength : Nat
deriving DecidableEq, Repr

def fsEntryInfoException (what : Bytes) : Exception :=
  ⟨.fsEntryInfo, what⟩

/-- `{}` in a format string, for a number. -/
def decimal (value : Nat) : Bytes :=
  ascii (toString value)

/-- `getRemainingBytes(stream, total_stream_length)` of `Utils.cpp`. -/
def getRemainingBytes (totalStreamLength : Nat) :
    Program Exception IStream Nat := do
  match ← Program.step IStream.tellg with
  | none =>
      Program.raise
        ⟨.utils, ascii "Could not retrieve stream's current position"⟩
  | some currentPosition =>
      pure (sizeSub totalStreamLength currentPosition)

/-- The constructor `FSEntryInfo(is_directory, relative_path)`. -/
def construct {σ : Type} (isDirectory : Bool) (relativePath : PathName) :
    Program Exception σ FSEntryInfo :=
  if relativePath.length > pathMaxLen then
    Program.raise (fsEntryInfoException
      (relativePath ++ ascii " path is longer than allowed (" ++
        decimal relativePath.length ++ ascii ">" ++ decimal pathMaxLen ++
        ascii ")"))
  else
    pure ⟨isDirectory, relativePath, 0⟩

/--
`stream.read(buffer, count)` followed by a comparison of `gcount()` with the
count.
-/
def readExactly (count : Nat) (failure : String) :
    Program Exception IStream Bytes := do
  let bytes ← Program.step fun stream => stream.read count
  if bytes.length ≠ count then
    Program.raise (fsEntryInfoException (ascii failure))
  else
    pure bytes

/-- `FSEntryInfo::readFromStream(stream, total_stream_size)`. -/
def readFromStream (totalStreamSize : Nat) :
    Program Exception IStream FSEntryInfo := do
  let flag ← readExactly 1 "Could not read type of dir entry."
  let lengthBytes ← readExactly 8 "Could not read path length."
  let pathLength := sizeOfBytes lengthBytes
  if pathLength > pathMaxLen then
    Program.raise (fsEntryInfoException
      (ascii "Path length exceeds maximum available value (" ++
        decimal pathLength ++ ascii " > " ++ decimal pathMaxLen ++
        ascii ")"))
  else
    let relativePath ← readExactly pathLength "Could not read whole path."
    let compressedBytes ←
      readExactly 8 "Could not read compressed length."
    let compressedLength := sizeOfBytes compressedBytes
    let leftSize ← getRemainingBytes totalStreamSize
    if compressedLength > leftSize then
      Program.raise (fsEntryInfoException
        (ascii "Entry's size exceeds remaining data's size (" ++
          decimal compressedLength ++ ascii " > " ++ decimal leftSize ++
          ascii ")"))
    else
      -- the byte is copied into a `bool`, which then tests it against 0
      pure ⟨flag != [0], relativePath, compressedLength⟩

def write (bytes : Bytes) : Program Exception OStream Unit :=
  Program.modifyState fun stream => stream.write bytes

/-- The byte of a `bool`. -/
def flagByte (flag : Bool) : Bytes :=
  [if flag then 1 else 0]

/--
`writeToStream(stream)`; the result is the position of the payload length.
-/
def writeToStream (info : FSEntryInfo) : Program Exception OStream Nat := do
  write (flagByte info.isDirectory)
  let pathLen := info.relativePath.length
  if pathLen > pathMaxLen then
    Program.raise (fsEntryInfoException
      (ascii "Cannot write path to stream (too long! " ++ decimal pathLen ++
        ascii " > " ++ decimal pathMaxLen ++ ascii ")"))
  else
    write (sizeBytes pathLen)
    write info.relativePath
    let position ← Program.step fun stream => (stream.tellp, stream)
    write (sizeBytes info.compressedLength)
    pure position

/-- `writeCompressedLength(stream, pos, total_written)`. -/
def writeCompressedLength (position totalWritten : Nat) :
    Program Exception OStream Unit := do
  Program.modifyState fun stream => stream.seekp position
  write (sizeBytes totalWritten)
  Program.modifyState OStream.seekEnd

/-! ## The bytes of a header -/

/-- A header without its last field. -/
def headerStart (info : FSEntryInfo) : Bytes :=
  flagByte info.isDirectory ++ sizeBytes info.relativePath.length ++
    info.relativePath

def header (info : FSEntryInfo) : Bytes :=
  headerStart info ++ sizeBytes info.compressedLength

theorem header_length (info : FSEntryInfo) :
    (header info).length = 17 + info.relativePath.length := by
  simp only [header, headerStart, flagByte, List.length_append,
    List.length_singleton, sizeBytes_length]
  omega

theorem construct_run
    {σ : Type} {isDirectory : Bool} {relativePath : PathName}
    (short : relativePath.length ≤ pathMaxLen) (state : σ) :
    construct isDirectory relativePath state =
      .returned ⟨isDirectory, relativePath, 0⟩ state := by
  rw [construct, if_neg (Nat.not_lt.2 short)]
  rfl

theorem construct_tooLong
    {σ : Type} {relativePath : PathName}
    (tooLong : ¬ relativePath.length ≤ pathMaxLen)
    (isDirectory : Bool) (state : σ) :
    ∃ error,
      construct isDirectory relativePath state = .threw error state :=
  ⟨_, by rw [construct, if_pos (Nat.lt_of_not_le tooLong)]; rfl⟩

/-- Writing a header at the end appends its bytes. -/
theorem writeToStream_run
    (info : FSEntryInfo)
    (short : info.relativePath.length ≤ pathMaxLen)
    (before : Bytes) :
    writeToStream info (OStream.atEnd before) =
      .returned (before ++ headerStart info).length
        (OStream.atEnd (before ++ header info)) := by
  simp only [writeToStream, write, Program.bind_run,
    Program.modifyState_run, OStream.write_atEnd, Nat.not_lt.2 short,
    if_false, Program.step_run, Program.pure_run, header,
    headerStart, OStream.tellp, List.append_assoc]
  rfl

/-- Patching the payload length leaves everything else as it is. -/
theorem writeCompressedLength_run
    (info : FSEntryInfo) (before payload : Bytes) (totalWritten : Nat) :
    writeCompressedLength (before ++ headerStart info).length totalWritten
        (OStream.atEnd (before ++ header info ++ payload)) =
      .returned ()
        (OStream.atEnd
          (before ++ header { info with compressedLength := totalWritten } ++
            payload)) := by
  have patched := OStream.write_seekp (before ++ headerStart info)
    (sizeBytes info.compressedLength) (sizeBytes totalWritten) payload
    (by simp)
  simp only [header, ← List.append_assoc] at patched ⊢
  simp only [writeCompressedLength, write, Program.bind_run,
    Program.modifyState_run, patched]
  rfl

theorem readExactly_run
    (before bytes after : Bytes) (failure : String) (count : Nat)
    (size : bytes.length = count) :
    readExactly count failure
        (IStream.goodAt (before ++ (bytes ++ after)) before.length) =
      .returned bytes
        (IStream.goodAt (before ++ (bytes ++ after))
          (before ++ bytes).length) := by
  subst size
  simp only [readExactly, Program.bind_run, Program.step_run,
    IStream.read_goodAt_full, ne_eq, not_true_eq_false, if_false,
    Program.pure_run, List.length_append]

theorem getRemainingBytes_run
    (data : Bytes) (position total : Nat)
    (within : position ≤ total) :
    getRemainingBytes total (IStream.goodAt data position) =
      .returned (total - position) (IStream.goodAt data position) := by
  simp only [getRemainingBytes, Program.bind_run, Program.step_run,
    IStream.tellg_goodAt, Program.pure_run, sizeSub_of_le within]

/-- A header whose flag byte may be any. -/
def flaggedHeader (flag : UInt8) (relativePath : PathName)
    (compressedLength : Nat) : Bytes :=
  [flag] ++ sizeBytes relativePath.length ++ relativePath ++
    sizeBytes compressedLength

/--
Reading a header.  The stream may be longer than the total that the caller
announces, as long as the announced total covers the payload.
-/
theorem readFromStream_flagged
    (flag : UInt8) {relativePath : PathName} {compressedLength : Nat}
    (before after : Bytes) (total : Nat)
    (short : relativePath.length ≤ pathMaxLen)
    (fits : compressedLength < sizeModulus)
    (covered :
      (before ++ flaggedHeader flag relativePath compressedLength).length +
        compressedLength ≤ total) :
    readFromStream total
        (IStream.goodAt
          (before ++
            (flaggedHeader flag relativePath compressedLength ++ after))
          before.length) =
      .returned ⟨[flag] != [0], relativePath, compressedLength⟩
        (IStream.goodAt
          (before ++
            (flaggedHeader flag relativePath compressedLength ++ after))
          (before ++
            flaggedHeader flag relativePath compressedLength).length) := by
  have pathFits : relativePath.length < sizeModulus :=
    Nat.lt_of_le_of_lt short (by decide)
  have flagRead := readExactly_run before [flag]
    (sizeBytes relativePath.length ++
      (relativePath ++ (sizeBytes compressedLength ++ after)))
    "Could not read type of dir entry." 1 rfl
  have lengthRead := readExactly_run (before ++ [flag])
    (sizeBytes relativePath.length)
    (relativePath ++ (sizeBytes compressedLength ++ after))
    "Could not read path length." 8 (sizeBytes_length _)
  have pathRead := readExactly_run
    (before ++ [flag] ++ sizeBytes relativePath.length)
    relativePath (sizeBytes compressedLength ++ after)
    "Could not read whole path." _ rfl
  have compressedRead := readExactly_run
    (before ++ [flag] ++ sizeBytes relativePath.length ++ relativePath)
    (sizeBytes compressedLength) after
    "Could not read compressed length." 8 (sizeBytes_length _)
  simp only [flaggedHeader, List.append_assoc]
    at flagRead lengthRead pathRead compressedRead covered ⊢
  have remaining := getRemainingBytes_run
    (before ++ ([flag] ++ (sizeBytes relativePath.length ++
      (relativePath ++ (sizeBytes compressedLength ++ after)))))
    _ total (Nat.le_of_add_right_le covered)
  have notTooMuch :
      ¬ total - (before ++ ([flag] ++ (sizeBytes relativePath.length ++
        (relativePath ++ sizeBytes compressedLength)))).length <
          compressedLength := by
    omega
  simp only [readFromStream, Program.bind_returned flagRead,
    Program.bind_returned lengthRead, sizeOfBytes_sizeBytes pathFits,
    Nat.not_lt.2 short, if_false, Program.bind_returned pathRead,
    Program.bind_returned compressedRead, sizeOfBytes_sizeBytes fits,
    Program.bind_returned remaining, notTooMuch, Program.pure_run]

/-- Reading back a header that was written. -/
theorem readFromStream_run
    (info : FSEntryInfo) (before after : Bytes) (total : Nat)
    (short : info.relativePath.length ≤ pathMaxLen)
    (fits : info.compressedLength < sizeModulus)
    (covered :
      (before ++ header info).length + info.compressedLength ≤ total) :
    readFromStream total
        (IStream.goodAt (before ++ (header info ++ after))
          before.length) =
      .returned info
        (IStream.goodAt (before ++ (header info ++ after))
          (before ++ header info).length) := by
  obtain ⟨isDirectory, relativePath, compressedLength⟩ := info
  have reads := readFromStream_flagged (if isDirectory then 1 else 0) before
    after total short fits covered
  have flagEq : (flagByte isDirectory != [0]) = isDirectory := by
    cases isDirectory
    · rfl
    · rfl
  rw [← flagByte, flagEq] at reads
  exact reads

/-! ## Entries whose length is patched -/

/-- An entry as it is written around the bytes of its payload. -/
def writeEntry (info : FSEntryInfo) (payload : Bytes)
    (totalWritten : Nat) : Program Exception OStream Unit := do
  let position ← writeToStream info
  write payload
  writeCompressedLength position totalWritten

theorem writeEntry_run
    (info : FSEntryInfo)
    (short : info.relativePath.length ≤ pathMaxLen)
    (before payload : Bytes) (totalWritten : Nat) :
    writeEntry info payload totalWritten (OStream.atEnd before) =
      .returned ()
        (OStream.atEnd
          (before ++ header { info with compressedLength := totalWritten } ++
            payload)) := by
  have written : write payload (OStream.atEnd (before ++ header info)) =
      .returned () (OStream.atEnd (before ++ header info ++ payload)) := by
    simp only [write, Program.modifyState_run, OStream.write_atEnd]
  rw [writeEntry, Program.bind_returned (writeToStream_run info short before),
    Program.bind_returned written]
  exact writeCompressedLength_run info before payload totalWritten

/-- The patch is inside of its own header. -/
theorem sameOutside_patch
    (info : FSEntryInfo) (before payload : Bytes) (totalWritten : Nat) :
    SameOutside (before ++ headerStart info).length 8
      (before ++ header info ++ payload)
      (before ++ header { info with compressedLength := totalWritten } ++
        payload) := by
  have replaced := sameOutside_append (before ++ headerStart info)
    (sizeBytes info.compressedLength) (sizeBytes totalWritten) payload
    (by rw [sizeBytes_length, sizeBytes_length])
  simp only [sizeBytes_length] at replaced
  simp only [header, ← List.append_assoc] at replaced ⊢
  exact replaced

/--
The patch puts the length into the last eight bytes of the header, touches no
other byte and leaves the stream at its end, and the entry is read back from
there up to the first byte of its payload.
-/
theorem patched_entry_comes_back
    (info : FSEntryInfo) (before payload : Bytes) (totalWritten : Nat)
    (short : info.relativePath.length ≤ pathMaxLen)
    (isSize : totalWritten < sizeModulus) :
    ∃ position payloadStart patched,
      payloadStart = before.length + (header info).length ∧
      position + 8 = payloadStart ∧
      patched =
        before ++ header { info with compressedLength := totalWritten } ++
          payload ∧
      writeToStream info (OStream.atEnd before) =
        .returned position (OStream.atEnd (before ++ header info)) ∧
      writeEntry info payload totalWritten (OStream.atEnd before) =
        .returned () (OStream.atEnd patched) ∧
      SameOutside position 8 (before ++ header info ++ payload) patched ∧
      (∀ totalStreamSize, payloadStart + totalWritten ≤ totalStreamSize →
        readFromStream totalStreamSize
            (IStream.goodAt patched before.length) =
          .returned { info with compressedLength := totalWritten }
            (IStream.goodAt patched payloadStart)) ∧
      patched.drop payloadStart = payload := by
  have sameSize :
      (before ++
        header { info with compressedLength := totalWritten }).length =
          before.length + (header info).length := by
    rw [List.length_append, header_length, header_length]
  refine ⟨_, _, _, rfl, ?_, rfl, writeToStream_run info short before,
    writeEntry_run info short before payload totalWritten,
    sameOutside_patch info before payload totalWritten, ?_, ?_⟩
  · rw [header, List.length_append, List.length_append, sizeBytes_length,
      Nat.add_assoc]
  · intro totalStreamSize covered
    have reads := readFromStream_run
      { info with compressedLength := totalWritten } before payload
      totalStreamSize short isSize (by rw [sameSize]; exact covered)
    rw [← List.append_assoc, sameSize] at reads
    exact reads
  · exact List.drop_left' sameSize

/-- A file after two bytes of another record, whose name has no bytes. -/
theorem patched_entry_comes_back_unnamed :
    ∃ position payloadStart patched,
      payloadStart = 2 + (header ⟨false, [], 0⟩).length ∧
      position + 8 = payloadStart ∧
      patched = [7, 7] ++ header ⟨false, [], 3⟩ ++ [1, 2, 3] ∧
      writeToStream ⟨false, [], 0⟩ (OStream.atEnd [7, 7]) =
        .returned position
          (OStream.atEnd ([7, 7] ++ header ⟨false, [], 0⟩)) ∧
      writeEntry ⟨false, [], 0⟩ [1, 2, 3] 3 (OStream.atEnd [7, 7]) =
        .returned () (OStream.atEnd patched) ∧
      SameOutside position 8 ([7, 7] ++ header ⟨false, [], 0⟩ ++ [1, 2, 3])
        patched ∧
      (∀ totalStreamSize, payloadStart + 3 ≤ totalStreamSize →
        readFromStream totalStreamSize (IStream.goodAt patched 2) =
          .returned ⟨false, [], 3⟩ (IStream.goodAt patched payloadStart)) ∧
      patched.drop payloadStart = [1, 2, 3] :=
  patched_entry_comes_back ⟨false, [], 0⟩ [7, 7] [1, 2, 3] 3 (by decide)
    (by decide)

end DropFile.Client.EntryInfo
