import DropFile.Client.PackedEntries
import DropFile.Client.UnpackingEnds
import DropFile.Client.UnpackedPaths

/-!
# The archives that are accepted

The exact language of the reader of archives.  It is larger than the language
of the packer: the reader takes any flag byte but 0 for a directory's, and it
lets a directory announce a payload, which is then not skipped.  Nothing else
is accepted that the packer cannot write.
-/

namespace DropFile.Client.AcceptedArchives

open DropFile.General.FuelledProgram
open DropFile.General.PathNames
open DropFile.General.Files
open DropFile.Streams
open DropFile.FileSystem
open DropFile.Client.EntryInfo
open DropFile.Client.Zstd
open DropFile.Client.ArchiveManager
open DropFile.Client.LiveUnpacking
  (Buffering Undisturbed unpackArchive_undisturbed)
open DropFile.Client.PackedEntries
open DropFile.Client.UnpackingEnds

/-! ## Parsing -/

/-- The loop of `unpackArchive`, keeping what it reads. -/
def parsePass (archiveSize : Nat) (entries : List Entry) :
    Program Exception IStream (List Entry ⊕ List Entry) := do
  let remaining ← getRemainingBytes archiveSize
  if remaining > 0 then
    let entryInfo ← readFromStream archiveSize
    if entryInfo.isDirectory then
      pure (.inl (entries ++ [⟨entryInfo, []⟩]))
    else
      let payload ←
        Program.step fun stream => stream.read entryInfo.compressedLength
      pure (.inl (entries ++ [⟨entryInfo, payload⟩]))
  else
    pure (.inr entries)

def parse (archive : Bytes) (fuel : Nat) :
    Outcome Exception IStream (List Entry) :=
  Program.loop (fun _ => parsePass archive.length) fuel []
    (IStream.ofBytes archive)

/-- `writeToStream` for every entry, followed by its payload. -/
def encode (entries : List Entry) : Program Exception OStream Unit :=
  Program.forEach
    (fun entry => do
      let _ ← writeToStream entry.info
      write entry.payload)
    entries

/-! ## Records -/

/-- A record of an archive. -/
structure Record where
  flag : UInt8
  relativePath : PathName
  compressedLength : Nat
  payload : Bytes

namespace Record

variable (record : Record)

def header : Bytes :=
  flaggedHeader record.flag record.relativePath record.compressedLength

def bytes : Bytes :=
  record.header ++ record.payload

/-- What is read of the record. -/
def entry : Entry :=
  ⟨⟨[record.flag] != [0], record.relativePath, record.compressedLength⟩,
    record.payload⟩

/-- The reader accepts the record in front of the others. -/
structure Readable (others : Bytes) : Prop where
  short : record.relativePath.length ≤ pathMaxLen
  fits : record.compressedLength < sizeModulus
  covered : record.compressedLength ≤ record.payload.length + others.length
  directory : record.flag ≠ 0 → record.payload = []
  file :
    record.flag = 0 → record.payload.length = record.compressedLength

/-- The packer can write the record. -/
structure Writable : Prop where
  flag : record.flag = 0 ∨ record.flag = 1
  short : record.relativePath.length ≤ pathMaxLen
  fits : record.compressedLength < sizeModulus
  directory :
    record.flag = 1 → record.compressedLength = 0 ∧ record.payload = []
  file :
    record.flag = 0 → record.payload.length = record.compressedLength

end Record

def recordsBytes (records : List Record) : Bytes :=
  records.flatMap Record.bytes

/-- The reader accepts each record in front of the others behind it. -/
def Readable : List Record → Prop
  | [] => True
  | record :: others =>
      record.Readable (recordsBytes others) ∧ Readable others

/-- A record sequence that the packer can write. -/
def Written (archive : Bytes) : Prop :=
  ∃ records, archive = recordsBytes records ∧
    ∀ record ∈ records, record.Writable

@[simp]
theorem recordsBytes_nil : recordsBytes [] = [] :=
  rfl

@[simp]
theorem recordsBytes_cons (record : Record) (records : List Record) :
    recordsBytes (record :: records) =
      record.bytes ++ recordsBytes records :=
  List.flatMap_cons

theorem Record.Writable.readable
    {record : Record}
    (writable : record.Writable)
    (others : Bytes) :
    record.Readable others where
  short := writable.short
  fits := writable.fits
  covered := by
    rcases writable.flag with isFile | isDirectory
    · rw [writable.file isFile]
      exact Nat.le_add_right _ _
    · rw [(writable.directory isDirectory).1]
      exact Nat.zero_le _
  directory := by
    intro notFile
    rcases writable.flag with isFile | isDirectory
    · exact absurd isFile notFile
    · exact (writable.directory isDirectory).2
  file := writable.file

theorem readable_of_writable
    {records : List Record}
    (writable : ∀ record ∈ records, record.Writable) :
    Readable records := by
  induction records with
  | nil => trivial
  | cons record others inductionHypothesis =>
      rw [List.forall_mem_cons] at writable
      exact ⟨writable.1.readable _, inductionHypothesis writable.2⟩

/-- Only what announces nothing is taken for a directory by the packer. -/
theorem writable_iff_of_readable
    {record : Record} {others : Bytes}
    (readable : record.Readable others) :
    record.Writable ↔
      (record.flag = 0 ∨ record.flag = 1) ∧
        (record.flag ≠ 0 → record.compressedLength = 0) := by
  constructor
  · intro writable
    constructor
    · exact writable.flag
    · intro notFile
      rcases writable.flag with isFile | isDirectory
      · exact absurd isFile notFile
      · exact (writable.directory isDirectory).1
  · rintro ⟨flag, announcesNothing⟩
    exact
      { flag := flag
        short := readable.short
        fits := readable.fits
        directory := by
          intro isDirectory
          have notFile : record.flag ≠ 0 := by
            rw [isDirectory]
            decide
          exact ⟨announcesNothing notFile, readable.directory notFile⟩
        file := readable.file }

/-- The bytes of a record say all about it. -/
theorem record_unique
    {first second : Record} {firstOthers secondOthers : Bytes}
    (firstReadable : first.Readable firstOthers)
    (secondReadable : second.Readable secondOthers)
    (same : first.bytes ++ firstOthers = second.bytes ++ secondOthers) :
    first = second ∧ firstOthers = secondOthers := by
  rcases first with ⟨flag, path, compressedLength, payload⟩
  rcases second with
    ⟨otherFlag, otherPath, otherCompressedLength, otherPayload⟩
  simp only [Record.bytes, Record.header, flaggedHeader, List.append_assoc]
    at same
  rcases List.append_inj same rfl with ⟨sameFlag, afterFlag⟩
  rcases List.append_inj afterFlag (by simp) with
    ⟨sameLength, afterLength⟩
  have lengths : path.length = otherPath.length :=
    eq_of_sizeBytes_eq
      (Nat.lt_of_le_of_lt firstReadable.short (by decide))
      (Nat.lt_of_le_of_lt secondReadable.short (by decide)) sameLength
  rcases List.append_inj afterLength lengths with ⟨samePath, afterPath⟩
  rcases List.append_inj afterPath (by simp) with
    ⟨sameCompressed, afterHeader⟩
  have compressedLengths : compressedLength = otherCompressedLength :=
    eq_of_sizeBytes_eq firstReadable.fits secondReadable.fits sameCompressed
  cases sameFlag
  have payloads : payload.length = otherPayload.length := by
    by_cases isFile : flag = 0
    · have length : payload.length = compressedLength :=
        firstReadable.file isFile
      have otherLength : otherPayload.length = otherCompressedLength :=
        secondReadable.file isFile
      rw [length, otherLength, compressedLengths]
    · have empty : payload = [] := firstReadable.directory isFile
      have otherEmpty : otherPayload = [] := secondReadable.directory isFile
      rw [empty, otherEmpty]
  rcases List.append_inj afterHeader payloads with
    ⟨samePayload, sameOthers⟩
  cases samePath
  cases compressedLengths
  cases samePayload
  exact ⟨rfl, sameOthers⟩

theorem bytes_ne_nil (record : Record) (others : Bytes) :
    record.bytes ++ others ≠ [] :=
  List.cons_ne_nil _ _

theorem records_unique
    {first second : List Record}
    (firstReadable : Readable first)
    (secondReadable : Readable second)
    (same : recordsBytes first = recordsBytes second) :
    first = second := by
  induction first generalizing second with
  | nil =>
      cases second with
      | nil => rfl
      | cons record others =>
          rw [recordsBytes_cons] at same
          exact absurd same.symm (bytes_ne_nil record _)
  | cons record others inductionHypothesis =>
      cases second with
      | nil =>
          rw [recordsBytes_cons] at same
          exact absurd same (bytes_ne_nil record _)
      | cons otherRecord otherOthers =>
          rw [recordsBytes_cons, recordsBytes_cons] at same
          rcases record_unique firstReadable.1 secondReadable.1 same with
            ⟨sameRecord, sameOthers⟩
          rw [sameRecord, inductionHypothesis firstReadable.2
            secondReadable.2 sameOthers]

/-! ## What is read -/

section Reading

variable {before rest : Bytes}

theorem readExactly_split
    {count : Nat} {failure : String} {bytes : Bytes} {later : IStream}
    (reads : readExactly count failure
      (IStream.goodAt (before ++ rest) before.length) =
        .returned bytes later) :
    ∃ after, rest = bytes ++ after ∧ bytes.length = count ∧
      later = IStream.goodAt (before ++ bytes ++ after)
        (before ++ bytes).length := by
  have within : before.length ≤ (before ++ rest).length := by
    rw [List.length_append]
    exact Nat.le_add_right _ _
  rcases readExactly_position within reads with ⟨inside, -⟩
  have enough : count ≤ rest.length := by
    rw [List.length_append] at inside
    exact Nat.le_of_add_le_add_left inside
  have split : rest = rest.take count ++ rest.drop count :=
    (List.take_append_drop count rest).symm
  have length : (rest.take count).length = count :=
    List.length_take_of_le enough
  have reading := readExactly_run before (rest.take count)
    (rest.drop count) failure count length
  rw [← split] at reading
  cases reading.symm.trans reads
  refine ⟨rest.drop count, split, length, ?_⟩
  rw [List.append_assoc, ← split]

/-- A header that was accepted is there, with the bytes that it announces. -/
theorem readFromStream_split
    {total : Nat} {info : FSEntryInfo} {later : IStream}
    (isTotal : total = (before ++ rest).length)
    (accepts : readFromStream total
      (IStream.goodAt (before ++ rest) before.length) =
        .returned info later) :
    ∃ flag after,
      rest = flaggedHeader flag info.relativePath info.compressedLength ++
        after ∧
      info.relativePath.length ≤ pathMaxLen ∧
      info.compressedLength < sizeModulus ∧
      info.compressedLength ≤ after.length ∧
      info.isDirectory = ([flag] != [0]) := by
  rw [readFromStream] at accepts
  rcases Program.bind_eq_returned accepts with
    ⟨flagBytes, _, readFlag, accepts⟩
  rcases readExactly_split readFlag with ⟨_, rfl, flagLength, rfl⟩
  rcases Program.bind_eq_returned accepts with
    ⟨lengthBytes, _, readLength, accepts⟩
  rcases readExactly_split readLength with ⟨_, rfl, lengthLength, rfl⟩
  dsimp only at accepts
  split_ifs at accepts with tooLong
  · cases accepts
  · rcases Program.bind_eq_returned accepts with
      ⟨relativePath, _, readPath, accepts⟩
    rcases readExactly_split readPath with ⟨_, rfl, pathLength, rfl⟩
    rcases Program.bind_eq_returned accepts with
      ⟨compressedBytes, _, readCompressed, accepts⟩
    rcases readExactly_split readCompressed with
      ⟨after, rfl, compressedLength, rfl⟩
    have fits := sizeOfBytes_lt compressedLength
    have inside : (before ++ flagBytes ++ lengthBytes ++ relativePath ++
        compressedBytes).length ≤ total := by
      rw [isTotal]
      simp only [List.length_append]
      omega
    rw [Program.bind_returned (getRemainingBytes_run _ _ _ inside)]
      at accepts
    split_ifs at accepts with tooMuch
    · cases accepts
    · cases accepts
      rcases List.length_eq_one_iff.1 flagLength with ⟨flag, rfl⟩
      refine ⟨flag, after, ?_, ?_, fits, ?_, rfl⟩
      · rw [flaggedHeader, sizeBytes_sizeOfBytes compressedLength,
          pathLength, sizeBytes_sizeOfBytes lengthLength]
        simp only [List.append_assoc]
      · rw [pathLength]
        exact Nat.not_lt.1 tooLong
      · have left : total - (before ++ [flag] ++ lengthBytes ++
            relativePath ++ compressedBytes).length = after.length := by
          rw [isTotal]
          simp only [List.length_append]
          omega
        rw [left] at tooMuch
        exact Nat.not_lt.1 tooMuch

/-- The record that an accepted header belongs to. -/
theorem exists_record
    {total : Nat} {info : FSEntryInfo} {later : IStream}
    (isTotal : total = (before ++ rest).length)
    (accepts : readFromStream total
      (IStream.goodAt (before ++ rest) before.length) =
        .returned info later) :
    ∃ (record : Record) (others : Bytes),
      rest = record.bytes ++ others ∧ record.Readable others ∧
      info = record.entry.info := by
  rcases readFromStream_split isTotal accepts with
    ⟨flag, after, split, short, fits, covered, isFlag⟩
  rcases info with ⟨isDirectory, relativePath, compressedLength⟩
  have isFlag : isDirectory = ([flag] != [0]) := isFlag
  by_cases isFile : flag = 0
  · have length : (after.take compressedLength).length = compressedLength :=
      List.length_take_of_le covered
    refine ⟨⟨flag, relativePath, compressedLength,
      after.take compressedLength⟩, after.drop compressedLength, ?_, ?_, ?_⟩
    · rw [split, Record.bytes, Record.header, List.append_assoc,
        List.take_append_drop]
    · exact
        { short := short
          fits := fits
          covered := Nat.le_add_right_of_le (Nat.le_of_eq length.symm)
          directory := fun notFile => absurd isFile notFile
          file := fun _ => length }
    · rw [isFlag]
      rfl
  · refine ⟨⟨flag, relativePath, compressedLength, []⟩, after, ?_, ?_, ?_⟩
    · rw [split, Record.bytes, Record.header, List.append_nil]
    · exact
        { short := short
          fits := fits
          covered := Nat.le_add_left_of_le covered
          directory := fun _ => rfl
          file := fun isFile' => absurd isFile' isFile }
    · rw [isFlag]
      rfl

/-- The header of a record that is accepted. -/
theorem readFromStream_record
    {record : Record} {others : Bytes} {total : Nat}
    (readable : record.Readable others)
    (isTotal : total = (before ++ (record.bytes ++ others)).length) :
    readFromStream total
        (IStream.goodAt (before ++ (record.bytes ++ others))
          before.length) =
      .returned record.entry.info
        (IStream.goodAt (before ++ (record.bytes ++ others))
          (before ++ record.header).length) := by
  have covered :
      (before ++ record.header).length + record.compressedLength ≤
        total := by
    have inside := readable.covered
    rw [isTotal, Record.bytes]
    simp only [List.length_append]
    omega
  have reads := readFromStream_flagged record.flag before
    (record.payload ++ others) total readable.short readable.fits covered
  rw [← Record.header, ← List.append_assoc record.header] at reads
  exact reads

theorem isDirectory_entry
    (record : Record) :
    record.entry.info.isDirectory = true ↔ record.flag ≠ 0 := by
  simp [Record.entry]

/-- The payload of a file lies between its header and what follows. -/
theorem length_bytes_of_file
    {record : Record} {others : Bytes}
    (readable : record.Readable others)
    (isFile : record.flag = 0)
    (before : Bytes) :
    (before ++ record.bytes).length =
      (before ++ record.header).length + record.compressedLength := by
  rw [Record.bytes, ← List.append_assoc, List.length_append,
    readable.file isFile]

/-- A pass of the parser takes one record. -/
theorem parsePass_record
    {record : Record} {others : Bytes} {total : Nat}
    (readable : record.Readable others)
    (isTotal : total = (before ++ (record.bytes ++ others)).length)
    (entries : List Entry) :
    parsePass total entries
        (IStream.goodAt (before ++ (record.bytes ++ others))
          before.length) =
      .returned (.inl (entries ++ [record.entry]))
        (IStream.goodAt (before ++ (record.bytes ++ others))
          (before ++ record.bytes).length) := by
  have reads := readFromStream_record readable isTotal
  have within : before.length ≤ total := by
    rw [isTotal, List.length_append]
    exact Nat.le_add_right _ _
  have more : total - before.length > 0 := by
    rw [isTotal, List.length_append, Nat.add_sub_cancel_left]
    exact List.length_pos_of_ne_nil (bytes_ne_nil record others)
  rw [parsePass,
    Program.bind_returned (getRemainingBytes_run _ _ _ within),
    if_pos more, Program.bind_returned reads]
  by_cases isFile : record.flag = 0
  · have notDirectory : ¬ record.entry.info.isDirectory = true := by
      rw [isDirectory_entry, not_not]
      exact isFile
    have length := readable.file isFile
    have split : before ++ record.header ++ (record.payload ++ others) =
        before ++ (record.bytes ++ others) := by
      rw [Record.bytes]
      simp only [List.append_assoc]
    have atEnd := length_bytes_of_file readable isFile before
    have readsPayload := @IStream.read_goodAt_full
      (before ++ record.header) record.payload others
    rw [split, length, ← atEnd] at readsPayload
    have payloadRead :
        (Program.step fun stream => stream.read record.compressedLength :
          Program Exception IStream Bytes)
            (IStream.goodAt (before ++ (record.bytes ++ others))
              (before ++ record.header).length) =
          .returned record.payload
            (IStream.goodAt (before ++ (record.bytes ++ others))
              (before ++ record.bytes).length) := by
      rw [Program.step_run, readsPayload]
    rw [if_neg notDirectory]
    exact Program.bind_returned payloadRead
  · have nothing := readable.directory isFile
    have header : record.bytes = record.header := by
      rw [Record.bytes, nothing, List.append_nil]
    rw [if_pos ((isDirectory_entry record).2 isFile), header]
    have entry : record.entry = ⟨record.entry.info, []⟩ := by
      rw [Record.entry, nothing]
    rw [← entry]
    rfl

/-- At the end the parser gives out what it has read. -/
theorem parsePass_end
    {archive : Bytes}
    (entries : List Entry) :
    parsePass archive.length entries
        (IStream.goodAt archive archive.length) =
      .returned (.inr entries) (IStream.goodAt archive archive.length) := by
  rw [parsePass,
    Program.bind_returned (getRemainingBytes_run _ _ _ (Nat.le_refl _)),
    if_neg (by omega)]
  rfl

/-- A pass that does not fail takes a record or is at the end. -/
theorem parsePass_cases
    {total : Nat} {entries : List Entry} {exit : List Entry ⊕ List Entry}
    {later : IStream}
    (isTotal : total = (before ++ rest).length)
    (returns : parsePass total entries
      (IStream.goodAt (before ++ rest) before.length) =
        .returned exit later) :
    (rest = [] ∧ exit = .inr entries) ∨
      ∃ (record : Record) (others : Bytes),
        rest = record.bytes ++ others ∧ record.Readable others ∧
        exit = .inl (entries ++ [record.entry]) ∧
        later = IStream.goodAt (before ++ rest)
          (before ++ record.bytes).length := by
  by_cases atEnd : rest = []
  · left
    subst atEnd
    rw [List.append_nil] at isTotal returns
    subst isTotal
    rw [parsePass_end] at returns
    cases returns
    exact ⟨rfl, rfl⟩
  · right
    have within : before.length ≤ total := by
      rw [isTotal, List.length_append]
      exact Nat.le_add_right _ _
    have more : total - before.length > 0 := by
      rw [isTotal, List.length_append, Nat.add_sub_cancel_left]
      exact List.length_pos_of_ne_nil atEnd
    have reading := returns
    rw [parsePass,
      Program.bind_returned (getRemainingBytes_run _ _ _ within),
      if_pos more] at reading
    rcases Program.bind_eq_returned reading with ⟨info, _, accepts, -⟩
    rcases exists_record isTotal accepts with
      ⟨record, others, rfl, readable, -⟩
    rw [parsePass_record readable isTotal] at returns
    cases returns
    exact ⟨record, others, rfl, readable, rfl, rfl⟩

/-- A pass of `unpackArchive` that does not fail does the same. -/
theorem unpackEntry_cases
    {lib : Library} (progress : MakesProgress lib)
    {workingDirectory : Location} {directory : PathName}
    {total fuel : Nat} {exit : IStream ⊕ Unit} {disk later : Disk}
    (isTotal : total = (before ++ rest).length)
    (returns : unpackEntry lib workingDirectory directory total fuel
      (IStream.goodAt (before ++ rest) before.length) disk =
        .returned exit later) :
    (rest = [] ∧ exit = .inr ()) ∨
      ∃ (record : Record) (others : Bytes),
        rest = record.bytes ++ others ∧ record.Readable others ∧
        exit = .inl (IStream.goodAt (before ++ rest)
          (before ++ record.bytes).length) := by
  have within : before.length ≤ total := by
    rw [isTotal, List.length_append]
    exact Nat.le_add_right _ _
  have measured := getRemainingBytes_run (before ++ rest) before.length
    total within
  rw [unpackEntry, Program.bind_returned
    (Program.onLocal_returned measured disk)] at returns
  dsimp only at returns
  split_ifs at returns with more
  · right
    rcases Program.bind_eq_returned returns with
      ⟨⟨info, afterHeader⟩, between, accepts, returns⟩
    rcases Program.onLocal_eq_returned accepts with ⟨reads, rfl⟩
    rcases exists_record isTotal reads with
      ⟨record, others, rfl, readable, rfl⟩
    rw [readFromStream_record readable isTotal] at reads
    cases reads
    refine ⟨record, others, rfl, readable, ?_⟩
    dsimp only at returns
    split_ifs at returns with isDirectory
    · rcases Program.bind_eq_returned returns with ⟨_, _, -, returns⟩
      cases returns
      have nothing := readable.directory
        ((isDirectory_entry record).1 isDirectory)
      rw [Record.bytes, nothing, List.append_nil]
    · rcases Program.bind_eq_returned returns with
        ⟨afterPayload, _, unpacks, returns⟩
      cases returns
      rw [isDirectory_entry, not_not] at isDirectory
      have atEnd := length_bytes_of_file readable isDirectory before
      have within : (before ++ record.header).length +
          record.entry.info.compressedLength ≤
            (before ++ (record.bytes ++ others)).length := by
        show _ + record.compressedLength ≤ _
        rw [← atEnd, ← List.append_assoc,
          @List.length_append _ (before ++ record.bytes)]
        exact Nat.le_add_right _ _
      rw [unpackFile_position progress within unpacks, atEnd]
      rfl
  · left
    cases returns
    have atEnd : rest.length = 0 := by
      rw [isTotal, List.length_append] at more
      omega
    exact ⟨List.length_eq_zero_iff.1 atEnd, rfl⟩

/--
A loop over an archive whose passes each take a record, or leave at the end.
-/
theorem readable_of_loop
    {σ α β : Type} {body : Nat → β → Program Exception σ (β ⊕ α)}
    {archive : Bytes} (stream : β → σ → IStream)
    (passes : ∀ fuel current state exit later before rest,
      archive = before ++ rest →
      stream current state = IStream.goodAt archive before.length →
      body fuel current state = .returned exit later →
      rest = [] ∨
        ∃ (record : Record) (others : Bytes) (next : β),
          rest = record.bytes ++ others ∧ record.Readable others ∧
          exit = .inl next ∧
          stream next later =
            IStream.goodAt archive (before ++ record.bytes).length)
    {fuel : Nat} {current : β} {state later : σ} {result : α}
    (split : archive = before ++ rest)
    (position : stream current state =
      IStream.goodAt archive before.length)
    (returns : Program.loop body fuel current state =
      .returned result later) :
    ∃ records, rest = recordsBytes records ∧ Readable records := by
  induction fuel generalizing before rest current state with
  | zero => cases returns
  | succ fuel inductionHypothesis =>
      rw [Program.loop_succ] at returns
      cases pass : body fuel current state with
      | threw error between =>
          rw [pass] at returns
          cases returns
      | outOfFuel =>
          rw [pass] at returns
          cases returns
      | returned exit between =>
          rcases passes fuel current state exit between before rest split
              position pass with
            rfl | ⟨record, others, next, rfl, readable, rfl, reached⟩
          · exact ⟨[], rfl, trivial⟩
          · rw [pass] at returns
            rw [← List.append_assoc] at split
            rcases inductionHypothesis split reached returns with
              ⟨records, rfl, othersReadable⟩
            exact ⟨record :: records, (recordsBytes_cons _ _).symm,
              readable, othersReadable⟩

end Reading

/-! ## The accepted language -/

/-- The parser reads all records, one after the other. -/
theorem parse_readable
    {records : List Record}
    (readable : Readable records)
    {fuel : Nat}
    (enough : records.length < fuel)
    (before : Bytes) (entries : List Entry) :
    Program.loop
        (fun _ => parsePass (before ++ recordsBytes records).length) fuel
        entries
        (IStream.goodAt (before ++ recordsBytes records) before.length) =
      .returned (entries ++ records.map Record.entry)
        (IStream.goodAt (before ++ recordsBytes records)
          (before ++ recordsBytes records).length) := by
  induction records generalizing fuel before entries with
  | nil =>
      cases fuel with
      | zero => exact absurd enough (Nat.not_lt_zero _)
      | succ fuel =>
          rw [recordsBytes_nil, List.append_nil, Program.loop_succ,
            parsePass_end, List.map_nil, List.append_nil]
  | cons record others inductionHypothesis =>
      cases fuel with
      | zero => exact absurd enough (Nat.not_lt_zero _)
      | succ fuel =>
          have later := inductionHypothesis readable.2
            (Nat.lt_of_succ_lt_succ enough) (before ++ record.bytes)
            (entries ++ [record.entry])
          rw [List.append_assoc, List.append_assoc,
            List.singleton_append] at later
          rw [Program.loop_succ, recordsBytes_cons,
            parsePass_record readable.1 rfl]
          exact later

theorem parse_grows (total : Nat) :
    Program.Grows fun fuel =>
      Program.loop (fun _ => parsePass total) fuel [] := by
  intro fuel more ordered
  apply Program.Approximates.loop _ ordered
  intro _ _ entries _
  exact Program.Approximates.refl _

/-- What the parser has consumed without an exception are records. -/
theorem readable_of_parse
    {archive : Bytes} {fuel : Nat} {entries : List Entry} {later : IStream}
    (returns : parse archive fuel = .returned entries later) :
    ∃ records, archive = recordsBytes records ∧ Readable records := by
  apply readable_of_loop (fun _ stream => stream) _
    (List.nil_append archive).symm rfl returns
  rintro fuel current state exit between before rest rfl position pass
  rw [position] at pass
  rcases parsePass_cases rfl pass with
    ⟨atEnd, -⟩ | ⟨record, others, split, readable, goesOn, reached⟩
  · exact Or.inl atEnd
  · exact Or.inr ⟨record, others, _, split, readable, goesOn, reached⟩

/-- So are archives that were unpacked and did not change meanwhile. -/
theorem readable_of_unpackArchive
    {lib : Library} (progress : MakesProgress lib)
    {buffering : Buffering} {workingDirectory : Location}
    {directory archivePath : PathName} {archive : Bytes} {fuel : Nat}
    {disk later : Disk}
    (isFile : regularFile disk.tree workingDirectory archivePath =
      some archive)
    (undisturbed : Undisturbed lib workingDirectory directory archivePath
      fuel disk)
    (returns : LiveUnpacking.unpackArchive lib buffering workingDirectory
      directory archivePath fuel disk = .returned () later) :
    ∃ records, archive = recordsBytes records ∧ Readable records := by
  rw [unpackArchive_undisturbed lib buffering undisturbed] at returns
  have loops := loop_of_unpackArchive workingDirectory directory isFile
    returns
  apply readable_of_loop (fun stream _ => stream) _
    (List.nil_append archive).symm rfl loops
  rintro fuel current state exit between before rest rfl position pass
  have position : current =
      IStream.goodAt (before ++ rest) before.length := position
  rw [position] at pass
  rcases unpackEntry_cases progress rfl pass with
    ⟨atEnd, -⟩ | ⟨record, others, split, readable, goesOn⟩
  · exact Or.inl atEnd
  · exact Or.inr ⟨record, others, _, split, readable, goesOn, rfl⟩

/-! ## Writing the entries again -/

/-- The bytes behind the flag of a record. -/
def Record.afterFlag (record : Record) : Bytes :=
  sizeBytes record.relativePath.length ++ record.relativePath ++
    sizeBytes record.compressedLength ++ record.payload

theorem bytes_eq_cons (record : Record) :
    record.bytes = record.flag :: record.afterFlag := by
  simp only [Record.bytes, Record.header, flaggedHeader, Record.afterFlag,
    List.append_assoc, List.cons_append, List.nil_append]

theorem bytes_entry (record : Record) :
    record.entry.bytes =
      (if record.flag ≠ 0 then 1 else 0) :: record.afterFlag := by
  have isFlag : ([record.flag] != [0]) = decide (record.flag ≠ 0) := by
    rw [Bool.eq_iff_iff]
    simp
  simp only [Entry.bytes, Record.entry, isFlag, EntryInfo.header,
    headerStart, flagByte, Record.afterFlag, List.append_assoc,
    List.cons_append, List.nil_append, decide_eq_true_eq]

/-- The flag is written as 0 or 1, everything else as it was read. -/
theorem entriesBytes_entries_iff (records : List Record) :
    entriesBytes (records.map Record.entry) = recordsBytes records ↔
      ∀ record ∈ records, record.flag = 0 ∨ record.flag = 1 := by
  induction records with
  | nil =>
      constructor
      · intro _ record member
        exact absurd member List.not_mem_nil
      · intro _
        rfl
  | cons record others inductionHypothesis =>
      rw [List.map_cons, entriesBytes_cons, recordsBytes_cons, bytes_entry,
        bytes_eq_cons, List.forall_mem_cons, ← inductionHypothesis,
        List.cons_append, List.cons_append, List.cons_eq_cons]
      apply and_congr
      · by_cases isFile : record.flag = 0
        · simp [isFile]
        · rw [if_pos isFile, eq_comm]
          exact ⟨Or.inr, fun either => either.resolve_left isFile⟩
      · exact List.append_right_inj _

theorem encode_run
    {entries : List Entry}
    (short : ∀ entry ∈ entries,
      entry.info.relativePath.length ≤ pathMaxLen)
    (before : Bytes) :
    encode entries (OStream.atEnd before) =
      .returned () (OStream.atEnd (before ++ entriesBytes entries)) := by
  induction entries generalizing before with
  | nil =>
      rw [entriesBytes_nil, List.append_nil]
      rfl
  | cons entry others inductionHypothesis =>
      rw [List.forall_mem_cons] at short
      have headerWritten := writeToStream_run entry.info short.1 before
      have written :
          (do
            let _ ← writeToStream entry.info
            write entry.payload : Program Exception OStream Unit)
              (OStream.atEnd before) =
            .returned () (OStream.atEnd (before ++ entry.bytes)) := by
        rw [Program.bind_returned headerWritten, write,
          Program.modifyState_run, OStream.write_atEnd, Entry.bytes,
          List.append_assoc]
      have rest := inductionHypothesis short.2 (before ++ entry.bytes)
      rw [List.append_assoc, ← entriesBytes_cons] at rest
      exact (Program.bind_returned written).trans rest

theorem short_of_readable
    {records : List Record}
    (readable : Readable records) :
    ∀ entry ∈ records.map Record.entry,
      entry.info.relativePath.length ≤ pathMaxLen := by
  induction records with
  | nil => exact fun _ member => absurd member List.not_mem_nil
  | cons record others inductionHypothesis =>
      exact List.forall_mem_cons.2
        ⟨readable.1.short, inductionHypothesis readable.2⟩

theorem written_iff_of_readable
    {records : List Record}
    (readable : Readable records) :
    Written (recordsBytes records) ↔
      ∀ record ∈ records, (record.flag = 0 ∨ record.flag = 1) ∧
        (record.flag ≠ 0 → record.compressedLength = 0) := by
  have each : ∀ record ∈ records, record.Writable ↔
      (record.flag = 0 ∨ record.flag = 1) ∧
        (record.flag ≠ 0 → record.compressedLength = 0) := by
    induction records with
    | nil => exact fun _ member => absurd member List.not_mem_nil
    | cons record others inductionHypothesis =>
        exact List.forall_mem_cons.2
          ⟨writable_iff_of_readable readable.1,
            inductionHypothesis readable.2⟩
  constructor
  · rintro ⟨written, same, writable⟩ record member
    have isSame := records_unique readable
      (readable_of_writable writable) same
    rw [isSame] at member each
    exact (each record member).1 (writable record member)
  · intro all
    exact ⟨records, rfl,
      fun record member => (each record member).2 (all record member)⟩

/-! ## What the packer writes -/

/-- The record that is written for an entry. -/
def Record.ofEntry (entry : Entry) : Record :=
  ⟨if entry.info.isDirectory then 1 else 0, entry.info.relativePath,
    entry.info.compressedLength, entry.payload⟩

theorem recordsBytes_ofEntry (entries : List Entry) :
    recordsBytes (entries.map Record.ofEntry) = entriesBytes entries := by
  rw [recordsBytes, List.flatMap_map]
  rfl

theorem writable_directoryEntry
    {relativePath : PathName}
    (short : relativePath.length ≤ pathMaxLen) :
    (Record.ofEntry (directoryEntry relativePath)).Writable where
  flag := Or.inr rfl
  short := short
  fits := Nat.pow_pos (by decide)
  directory := fun _ => ⟨rfl, rfl⟩
  file := fun isFile => absurd isFile (show (1 : UInt8) ≠ 0 by decide)

theorem writable_fileEntry
    {relativePath : PathName} {payload : Bytes}
    (short : relativePath.length ≤ pathMaxLen)
    (fits : payload.length < sizeModulus) :
    (Record.ofEntry (fileEntry relativePath payload)).Writable where
  flag := Or.inl rfl
  short := short
  fits := fits
  directory := fun isDirectory => absurd isDirectory
    (show (0 : UInt8) ≠ 1 by decide)
  file := fun _ => rfl

theorem writable_of_packed
    {leads : Resolving} {tree : FileTree}
    {listing : Location → List PathName} {work : Work}
    {entries : List Entry}
    (packed : Packed leads tree listing work entries)
    (fits : (entriesBytes entries).length < sizeModulus) :
    ∀ record ∈ entries.map Record.ofEntry, record.Writable := by
  rw [List.forall_mem_map]
  induction packed with
  | directory short _ _ _ inductionHypothesis =>
      rw [entriesBytes_cons, List.length_append] at fits
      exact List.forall_mem_cons.2 ⟨writable_directoryEntry short,
        inductionHypothesis
          (Nat.lt_of_le_of_lt (Nat.le_add_left _ _) fits)⟩
  | done => exact fun _ member => absurd member List.not_mem_nil
  | subdirectory _ _ _ firstHypothesis othersHypothesis =>
      rw [entriesBytes_append, List.length_append] at fits
      exact List.forall_mem_append.2
        ⟨firstHypothesis (Nat.lt_of_le_of_lt (Nat.le_add_right _ _) fits),
          othersHypothesis
            (Nat.lt_of_le_of_lt (Nat.le_add_left _ _) fits)⟩
  | @file _ _ _ _ _ payload _ _ _ short _ inductionHypothesis =>
      rw [entriesBytes_cons, List.length_append, fileEntry, Entry.bytes,
        List.length_append] at fits
      have payloadFits : payload.length < sizeModulus :=
        Nat.lt_of_le_of_lt
          ((Nat.le_add_left _ _).trans (Nat.le_add_right _ _)) fits
      exact List.forall_mem_cons.2
        ⟨writable_fileEntry short payloadFits,
          inductionHypothesis
            (Nat.lt_of_le_of_lt (Nat.le_add_left _ _) fits)⟩
  | other _ _ _ inductionHypothesis => exact inductionHypothesis fits

/-- The packer's archives are sequences that the packer can write. -/
theorem written_of_packed
    {leads : Resolving} {tree : FileTree}
    {listing : Location → List PathName} {work : Work}
    {entries : List Entry}
    (packed : Packed leads tree listing work entries)
    (fits : (entriesBytes entries).length < sizeModulus) :
    Written (entriesBytes entries) :=
  ⟨entries.map Record.ofEntry, (recordsBytes_ofEntry entries).symm,
    writable_of_packed packed fits⟩

/-! ## The exact language -/

/-- What an archive is parsed as, if it consists of these records. -/
structure ParsedAs (archive : Bytes) (records : List Record) : Prop where
  entries : ∀ fuel entries later,
    parse archive fuel = .returned entries later →
      entries = records.map Record.entry ∧
        later = IStream.goodAt archive archive.length
  encoded :
    encode (records.map Record.entry) (OStream.atEnd []) =
        .returned () (OStream.atEnd archive) ↔
      ∀ record ∈ records, record.flag = 0 ∨ record.flag = 1
  written :
    Written archive ↔
      ∀ record ∈ records, (record.flag = 0 ∨ record.flag = 1) ∧
        (record.flag ≠ 0 → record.compressedLength = 0)

/-- A directory that announces one byte, in front of an empty directory. -/
def announcingRecords : List Record :=
  [⟨1, ascii "d", 1, []⟩, ⟨1, ascii "e", 0, []⟩]

theorem readable_announcingRecords : Readable announcingRecords := by
  refine ⟨?_, ?_, trivial⟩
  · exact ⟨by decide, by decide, by decide, fun _ => rfl,
      fun isFile => absurd isFile (by decide)⟩
  · exact ⟨by decide, by decide, by decide, fun _ => rfl,
      fun isFile => absurd isFile (by decide)⟩

/-- An archive with an empty file. -/
def emptyFile : List Record :=
  [⟨0, ascii "f", 0, []⟩]

theorem readable_emptyFile : Readable emptyFile :=
  ⟨⟨by decide, by decide, by decide, fun _ => rfl, fun _ => rfl⟩, trivial⟩

end DropFile.Client.AcceptedArchives
