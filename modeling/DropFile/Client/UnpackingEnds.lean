import DropFile.Client.ArchiveManager
import DropFile.Client.CutFrames

/-!
# Unpacking any archive

The archive may be any bytes at all.  Unpacking it terminates; at every entry
the stream is good and its position within the archive, and after a file the
position is just behind the payload.
-/

namespace DropFile.Client.UnpackingEnds

open DropFile.General.FuelledProgram
open DropFile.General.PathNames
open DropFile.General.Files
open DropFile.Streams
open DropFile.FileSystem
open DropFile.Client.EntryInfo
open DropFile.Client.Zstd
open DropFile.Client.DecompressRuns
open DropFile.Client.CutFrames
open DropFile.Client.ArchiveManager

/-! ## Headers -/

/-- What `readFromStream` reads before it asks for the remaining bytes. -/
def readFields : Program Exception IStream FSEntryInfo := do
  let flag ← readExactly 1 "Could not read type of dir entry."
  let lengthBytes ← readExactly 8 "Could not read path length."
  let pathLength := sizeOfBytes lengthBytes
  if pathLength > pathMaxLen then
    Program.raise (fsEntryInfoException
      (ascii "Path length exceeds maximum available value (" ++
        decimal pathLength ++ ascii " > " ++ decimal pathMaxLen ++
        ascii ")"))
  else
    let relativePath ← readExactly pathLength "Could not read whole path."
    let compressedBytes ←
      readExactly 8 "Could not read compressed length."
    pure ⟨flag != [0], relativePath, sizeOfBytes compressedBytes⟩

/-- The check that `readFromStream` makes at its end. -/
def checkLength (totalStreamSize : Nat) (info : FSEntryInfo) :
    Program Exception IStream FSEntryInfo := do
  let leftSize ← getRemainingBytes totalStreamSize
  if info.compressedLength > leftSize then
    Program.raise (fsEntryInfoException
      (ascii "Entry's size exceeds remaining data's size (" ++
        decimal info.compressedLength ++ ascii " > " ++ decimal leftSize ++
        ascii ")"))
  else
    pure info

theorem readFromStream_eq (totalStreamSize : Nat) :
    readFromStream totalStreamSize =
      readFields >>= checkLength totalStreamSize := by
  funext stream
  rw [Program.bind_run, readFromStream, readFields, Program.bind_run,
    Program.bind_run]
  cases readExactly 1 "Could not read type of dir entry." stream with
  | threw error later => rfl
  | outOfFuel => rfl
  | returned flag atLength =>
      dsimp only
      rw [Program.bind_run, Program.bind_run]
      cases readExactly 8 "Could not read path length." atLength with
      | threw error later => rfl
      | outOfFuel => rfl
      | returned lengthBytes atPath =>
          dsimp only
          by_cases tooLong : sizeOfBytes lengthBytes > pathMaxLen
          · rw [if_pos tooLong, if_pos tooLong]
            rfl
          · rw [if_neg tooLong, if_neg tooLong, Program.bind_run,
              Program.bind_run]
            cases readExactly (sizeOfBytes lengthBytes)
                "Could not read whole path." atPath with
            | threw error later => rfl
            | outOfFuel => rfl
            | returned relativePath atCompressed =>
                dsimp only
                rw [Program.bind_run, Program.bind_run]
                cases readExactly 8 "Could not read compressed length."
                    atCompressed with
                | threw error later => rfl
                | outOfFuel => rfl
                | returned compressedBytes later => rfl

theorem getRemainingBytes_total (totalStreamLength : Nat) :
    Program.Total (getRemainingBytes totalStreamLength) := by
  refine Program.Total.bind (Program.Total.step _) ?_
  intro measured
  cases measured with
  | none => exact Program.Total.raise _
  | some position => exact Program.Total.pure _

theorem readExactly_total (count : Nat) (failure : String) :
    Program.Total (readExactly count failure) := by
  refine Program.Total.bind (Program.Total.step _) ?_
  intro bytes
  split_ifs
  · exact Program.Total.raise _
  · exact Program.Total.pure _

theorem readFromStream_total (totalStreamSize : Nat) :
    Program.Total (readFromStream totalStreamSize) := by
  rw [readFromStream_eq]
  refine Program.Total.bind ?_ ?_
  · refine Program.Total.bind (readExactly_total _ _) fun flag =>
      Program.Total.bind (readExactly_total _ _) fun lengthBytes => ?_
    dsimp only
    split_ifs
    · exact Program.Total.raise _
    · exact Program.Total.bind (readExactly_total _ _) fun relativePath =>
        Program.Total.bind (readExactly_total _ _) fun compressedBytes =>
          Program.Total.pure _
  · intro info
    refine Program.Total.bind (getRemainingBytes_total _) fun leftSize => ?_
    split_ifs
    · exact Program.Total.raise _
    · exact Program.Total.pure _

theorem createDirectories_total
    (workingDirectory : Location) (path : PathName) :
    Program.Total (createDirectories workingDirectory path) := by
  intro disk
  rw [createDirectories]
  dsimp only
  split_ifs <;>
    first
    | exact Outcome.threw_ne _ _
    | exact Outcome.returned_ne _ _

variable {archive : Bytes} {position : Nat}

/-- Bytes that were read lie within the archive. -/
theorem readExactly_position
    {count : Nat} {failure : String} {bytes : Bytes} {later : IStream}
    (within : position ≤ archive.length)
    (reads : readExactly count failure (IStream.goodAt archive position) =
      .returned bytes later) :
    position + count ≤ archive.length ∧
      later = IStream.goodAt archive (position + count) := by
  rw [readExactly, Program.bind_run, Program.step_run] at reads
  dsimp only at reads
  have taken : ((IStream.goodAt archive position).read count).1 =
      (archive.drop position).take count := rfl
  by_cases short :
      ((IStream.goodAt archive position).read count).1.length ≠ count
  · rw [if_pos short] at reads
    cases reads
  · rw [if_neg short] at reads
    cases reads
    rw [not_not] at short
    have full := short
    rw [taken, List.length_take, List.length_drop] at full
    refine ⟨by omega, ?_⟩
    have read : (IStream.goodAt archive position).read count =
        ((archive.drop position).take count,
          ⟨archive,
            position + ((archive.drop position).take count).length,
            decide (((archive.drop position).take count).length < count),
            decide (((archive.drop position).take count).length < count)⟩) :=
      rfl
    rw [taken] at short
    rw [read, short, IStream.goodAt]
    simp

theorem readFields_position
    {info : FSEntryInfo} {later : IStream}
    (within : position ≤ archive.length)
    (reads : readFields (IStream.goodAt archive position) =
      .returned info later) :
    ∃ atPayload, later = IStream.goodAt archive atPayload ∧
      position + 17 ≤ atPayload ∧ atPayload ≤ archive.length := by
  rw [readFields] at reads
  rcases Program.bind_eq_returned reads with
    ⟨flag, atLength, readFlag, reads⟩
  rcases readExactly_position within readFlag with ⟨within, rfl⟩
  rcases Program.bind_eq_returned reads with
    ⟨lengthBytes, atPath, readLength, reads⟩
  rcases readExactly_position within readLength with ⟨within, rfl⟩
  dsimp only at reads
  split_ifs at reads with tooLong
  · cases reads
  · rcases Program.bind_eq_returned reads with
      ⟨relativePath, atCompressed, readPath, reads⟩
    rcases readExactly_position within readPath with ⟨within, rfl⟩
    rcases Program.bind_eq_returned reads with
      ⟨compressedBytes, atPayload, readCompressed, reads⟩
    rcases readExactly_position within readCompressed with ⟨within, rfl⟩
    cases reads
    exact ⟨_, rfl, by omega, within⟩

/-- The announced payload of an accepted entry is there. -/
theorem readFromStream_position
    {info : FSEntryInfo} {later : IStream}
    (within : position ≤ archive.length)
    (accepts : readFromStream archive.length
      (IStream.goodAt archive position) = .returned info later) :
    ∃ atPayload, later = IStream.goodAt archive atPayload ∧
      position + 17 ≤ atPayload ∧
      atPayload + info.compressedLength ≤ archive.length := by
  rw [readFromStream_eq] at accepts
  rcases Program.bind_eq_returned accepts with
    ⟨fields, between, reads, checks⟩
  rcases readFields_position within reads with
    ⟨atPayload, rfl, more, inArchive⟩
  rw [checkLength, Program.bind_returned
    (getRemainingBytes_run archive atPayload archive.length inArchive)]
    at checks
  split_ifs at checks with tooLong
  · cases checks
  · cases checks
    exact ⟨atPayload, rfl, more, by omega⟩

/-! ## Payloads -/

/--
What is relied on of libzstd: a call does not consume more than it is given,
and only finitely many calls in a row neither consume anything nor fail.
-/
structure MakesProgress (lib : Library) where
  toDeliver : lib.DCtx → Nat
  consumed_le :
    ∀ (dctx : lib.DCtx) (input : Bytes) (capacity : Nat),
      (lib.decompressStream dctx input capacity).consumed ≤ input.length
  progress :
    ∀ (dctx : lib.DCtx) (input : Bytes) (capacity : Nat),
      input ≠ [] → 0 < capacity →
      let call := lib.decompressStream dctx input capacity
      (∃ name, call.result = .error name) ∨ 0 < call.consumed ∨
        toDeliver call.context < toDeliver dctx

variable {lib : Library}

/-- Nothing else about the decoder is followed. -/
def MakesProgress.following (progress : MakesProgress lib) :
    Following lib where
  Taken _ _ := True
  Refused _ := True
  toDeliver := progress.toDeliver
  created _ := trivial
  call := by
    intro dctx taken input capacity _ nonempty positive
    cases result : (lib.decompressStream dctx input capacity).result with
    | error name => exact Or.inl ⟨⟨name, result⟩, trivial⟩
    | ok hint =>
        right
        refine ⟨⟨hint, result⟩, progress.consumed_le .., trivial, ?_⟩
        rcases progress.progress dctx input capacity nonempty positive with
          ⟨name, failed⟩ | moved
        · cases failed.symm.trans result
        · exact moved

/-- The payload in the archive, between what precedes and follows it. -/
theorem exists_around
    {size : Nat}
    (within : position + size ≤ archive.length) :
    ∃ before payload after,
      archive = around before payload after ∧
      before.length = position ∧ payload.length = size := by
  refine ⟨archive.take position, (archive.drop position).take size,
    (archive.drop position).drop size, ?_, ?_, ?_⟩
  · rw [around, List.take_append_drop, List.take_append_drop]
  · rw [List.length_take]
    omega
  · rw [List.length_take, List.length_drop]
    omega

variable (progress : MakesProgress lib)

include progress in
/-- A payload that was decompressed has been read to its end. -/
theorem decompress_position
    {size fuel written : Nat} {output : OStream} {later : Streams}
    (within : position + size ≤ archive.length)
    (returns : decompress lib size fuel
      ⟨IStream.goodAt archive position, output⟩ =
        .returned written later) :
    later.input = IStream.goodAt archive (position + size) := by
  rcases exists_around within with ⟨before, payload, after, rfl, rfl, rfl⟩
  exact ((decompress_satisfies progress.following before payload after
    fuel).returned rfl returns).1

include progress in
/-- The counter of `decompress` stays within the payload. -/
theorem decompressChunk_counts
    {size fuel passes left : Nat} {dctx : lib.DCtx} {output : OStream}
    {current : lib.DCtx × Nat × Nat × Nat} {streams : Streams}
    (within : position + size ≤ archive.length)
    (created : lib.createDCtx = some dctx)
    (reached : PassReached (decompressChunk lib size) fuel
      (dctx, 0, min lib.dStreamInSize size, 0)
      ⟨IStream.goodAt archive position, output⟩ passes left current
      streams) :
    current.2.1 ≤ size ∧
      ∀ chunk later,
        readInput current.2.2.1 streams = .returned chunk later →
        current.2.1 + chunk.length ≤ size := by
  rcases exists_around within with ⟨before, payload, after, rfl, rfl, rfl⟩
  have inPayload := reached.invariant
    (fun _ => InPayload progress.following before payload after)
    (fun fuel _ current state next later inPayload goesRound =>
      ((decompressChunk_satisfies progress.following before payload after
        fuel current).returned inPayload goesRound).1)
    (inPayload_start progress.following before payload after created rfl)
  rcases readInput_of_inPayload progress.following before payload after
      inPayload with ⟨taken, chunk, tail, split, total, -, -, reads, -⟩
  have lengths := congrArg List.length split
  rw [List.length_append, List.length_append] at lengths
  constructor
  · omega
  · intro otherChunk later otherReads
    cases otherReads.symm.trans reads
    omega

include progress in
/-- After a file its payload has been read, and nothing else. -/
theorem unpackFile_position
    {workingDirectory : Location} {directory : PathName} {fuel : Nat}
    {info : FSEntryInfo} {disk later : Disk} {rest : IStream}
    (within : position + info.compressedLength ≤ archive.length)
    (returns : unpackFile lib workingDirectory directory fuel
      (IStream.goodAt archive position) info disk = .returned rest later) :
    rest = IStream.goodAt archive (position + info.compressedLength) := by
  rw [unpackFile] at returns
  rcases Program.bind_eq_returned returns with
    ⟨opened, between, -, returns⟩
  cases opened with
  | none => cases returns
  | some location =>
      dsimp only at returns
      rw [decompressToFile] at returns
      cases decompresses : decompress lib info.compressedLength fuel
          ⟨IStream.goodAt archive position, OStream.atEnd []⟩ with
      | outOfFuel =>
          rw [decompresses] at returns
          cases returns
      | threw error streams =>
          rw [decompresses] at returns
          cases returns
      | returned written streams =>
          rw [decompresses] at returns
          cases returns
          exact decompress_position progress within decompresses

theorem decompressToFile_returned
    {compressedLength fuel written : Nat} {stream : IStream}
    {streams : Streams} (location : Location) (disk : Disk)
    (decompresses : decompress lib compressedLength fuel
      ⟨stream, OStream.atEnd []⟩ = .returned written streams) :
    decompressToFile lib location compressedLength fuel stream disk =
      .returned streams.input
        { disk with
          tree := disk.tree.place location (.file streams.output.data) } := by
  rw [decompressToFile, decompresses]
  rfl

theorem decompressToFile_threw
    {compressedLength fuel : Nat} {stream : IStream} {error : Exception}
    {streams : Streams} (location : Location) (disk : Disk)
    (decompresses : decompress lib compressedLength fuel
      ⟨stream, OStream.atEnd []⟩ = .threw error streams) :
    decompressToFile lib location compressedLength fuel stream disk =
      .threw error
        { disk with
          tree := disk.tree.place location (.file streams.output.data) } := by
  rw [decompressToFile, decompresses]
  rfl

include progress in
theorem unpackFile_terminates
    (workingDirectory : Location) (directory : PathName)
    {info : FSEntryInfo} (disk : Disk)
    (within : position + info.compressedLength ≤ archive.length) :
    Terminates fun fuel =>
      unpackFile lib workingDirectory directory fuel
        (IStream.goodAt archive position) info disk := by
  refine Terminates.bind (Terminates.of_returned (Settles.of_eq fun _ =>
    rfl)) ?_
  intro _ opened between _
  cases opened with
  | none => exact Terminates.of_threw (Settles.of_eq fun _ => rfl)
  | some location =>
      rcases exists_around within with
        ⟨before, payload, after, rfl, rfl, samePayload⟩
      rw [← samePayload]
      rcases decompress_terminates progress.following before payload after
          ⟨_, OStream.atEnd []⟩ rfl with ⟨outcome, ended, settles⟩
      cases outcome with
      | outOfFuel => exact absurd rfl ended
      | returned written streams =>
          apply Terminates.of_returned
          exact settles.mono fun fuel ends =>
            decompressToFile_returned location between ends
      | threw error streams =>
          apply Terminates.of_threw
          exact settles.mono fun fuel ends =>
            decompressToFile_threw location between ends

/-! ## Entries -/

variable (workingDirectory : Location) (directory : PathName)

include progress in
/-- Where a pass over an entry leaves the stream. -/
theorem unpackEntry_position
    {fuel : Nat} {disk later : Disk} {exit : IStream ⊕ Unit}
    (within : position ≤ archive.length)
    (returns : unpackEntry lib workingDirectory directory archive.length
      fuel (IStream.goodAt archive position) disk =
        .returned exit later) :
    (exit = .inr () ∧ position = archive.length ∧ later = disk) ∨
      ∃ next, exit = .inl (IStream.goodAt archive next) ∧
        position + 17 ≤ next ∧ next ≤ archive.length := by
  have measured := getRemainingBytes_run archive position archive.length
    within
  rw [unpackEntry, Program.bind_returned
    (Program.onLocal_returned measured disk)] at returns
  dsimp only at returns
  split_ifs at returns with more
  · right
    rcases Program.bind_eq_returned returns with
      ⟨⟨info, later⟩, between, accepts, returns⟩
    rcases Program.onLocal_eq_returned accepts with ⟨reads, rfl⟩
    rcases readFromStream_position within reads with
      ⟨atPayload, rfl, header, payload⟩
    dsimp only at returns
    split_ifs at returns with isDirectory
    · rcases Program.bind_eq_returned returns with
        ⟨_, made, -, returns⟩
      cases returns
      exact ⟨atPayload, rfl, header, by omega⟩
    · rcases Program.bind_eq_returned returns with
        ⟨rest, unpacked, unpacks, returns⟩
      cases returns
      have atEnd := unpackFile_position progress payload unpacks
      exact ⟨_, congrArg _ atEnd, by omega, payload⟩
  · left
    cases returns
    exact ⟨rfl, by omega, rfl⟩

include progress in
theorem unpackEntry_terminates
    (disk : Disk)
    (within : position ≤ archive.length) :
    Terminates fun fuel =>
      unpackEntry lib workingDirectory directory archive.length fuel
        (IStream.goodAt archive position) disk := by
  have measured := Program.onLocal_returned
    (getRemainingBytes_run archive position archive.length within) disk
  refine Terminates.bind (Terminates.of_total
    ((getRemainingBytes_total _).onLocal _) disk) ?_
  intro _ value later same
  cases same.symm.trans measured
  dsimp only
  by_cases more : archive.length - position > 0
  · simp only [if_pos more]
    refine Terminates.bind (Terminates.of_total
      ((readFromStream_total _).onLocal _) disk) ?_
    intro _ ⟨info, atPayload⟩ between accepts
    rcases Program.onLocal_eq_returned accepts with ⟨reads, rfl⟩
    rcases readFromStream_position within reads with
      ⟨payloadPosition, rfl, -, payload⟩
    dsimp only
    by_cases isDirectory : info.isDirectory = true
    · simp only [if_pos isDirectory]
      exact Terminates.of_total (Program.Total.bind
        (createDirectories_total _ _) fun _ => Program.Total.pure _) _
    · simp only [if_neg isDirectory]
      exact Terminates.bind (unpackFile_terminates progress
        workingDirectory directory _ payload) fun _ _ _ _ =>
          Terminates.of_total (Program.Total.pure _) _
  · simp only [if_neg more]
    exact Terminates.of_total (Program.Total.pure _) _

/-! ## The archive -/

/-- What holds where the loop of `unpackArchive` comes to. -/
structure WellPlaced (lib : Library) (workingDirectory : Location)
    (directory : PathName) (archive : Bytes) (passes : Nat)
    (stream : IStream) : Prop where
  /-- The first call of `getRemainingBytes` finds a good stream. -/
  good : stream = IStream.goodAt archive stream.position
  within : stream.position ≤ archive.length
  entries : 17 * passes ≤ stream.position
  /-- And so does the second one, in `readFromStream`. -/
  checked : ∀ info later,
    readFields stream = .returned info later →
      later = IStream.goodAt archive later.position ∧
        later.position ≤ archive.length
  /-- The payload of an accepted entry is there. -/
  payload : ∀ info atPayload,
    readFromStream archive.length stream = .returned info atPayload →
      17 * (passes + 1) ≤ atPayload.position ∧
        atPayload.position + info.compressedLength ≤ archive.length
  /-- A file entry that was unpacked was read to the end of its payload. -/
  behind : ∀ info atPayload fuel disk rest later,
    readFromStream archive.length stream = .returned info atPayload →
    unpackFile lib workingDirectory directory fuel atPayload info disk =
        .returned rest later →
      rest = IStream.goodAt archive
        (atPayload.position + info.compressedLength)
  /-- `compressed_length - total_read` does not wrap around. -/
  counted : ∀ info atPayload dctx output fuel readings left current
      streams,
    readFromStream archive.length stream = .returned info atPayload →
    lib.createDCtx = some dctx →
    PassReached (decompressChunk lib info.compressedLength) fuel
        (dctx, 0, min lib.dStreamInSize info.compressedLength, 0)
        ⟨atPayload, output⟩ readings left current streams →
      current.2.1 ≤ info.compressedLength ∧
        ∀ chunk later,
          readInput current.2.2.1 streams = .returned chunk later →
          current.2.1 + chunk.length ≤ info.compressedLength

include progress in
theorem wellPlaced_goodAt
    {passes : Nat}
    (within : position ≤ archive.length)
    (entries : 17 * passes ≤ position) :
    WellPlaced lib workingDirectory directory archive passes
      (IStream.goodAt archive position) where
  good := rfl
  within := within
  entries := entries
  checked := by
    intro info later reads
    rcases readFields_position within reads with
      ⟨atPayload, rfl, -, inArchive⟩
    exact ⟨rfl, inArchive⟩
  payload := by
    intro info atPayload accepts
    rcases readFromStream_position within accepts with
      ⟨payloadPosition, rfl, header, payload⟩
    constructor
    · show 17 * (passes + 1) ≤ payloadPosition
      omega
    · exact payload
  behind := by
    intro info atPayload fuel disk rest later accepts returns
    rcases readFromStream_position within accepts with
      ⟨payloadPosition, rfl, -, payload⟩
    exact unpackFile_position progress payload returns
  counted := by
    intro info atPayload dctx output fuel readings left current streams
      accepts created reached
    rcases readFromStream_position within accepts with
      ⟨payloadPosition, rfl, -, payload⟩
    exact decompressChunk_counts progress payload created reached

include progress in
theorem goodAt_of_reached
    {fuel passes left : Nat} {disk between : Disk} {stream : IStream}
    (reached : PassReached
      (unpackEntry lib workingDirectory directory archive.length) fuel
      (IStream.ofBytes archive) disk passes left stream between) :
    stream = IStream.goodAt archive stream.position ∧
      stream.position ≤ archive.length ∧ 17 * passes ≤ stream.position := by
  refine reached.invariant (fun passes stream _ =>
    stream = IStream.goodAt archive stream.position ∧
      stream.position ≤ archive.length ∧ 17 * passes ≤ stream.position)
    ?_ ⟨rfl, Nat.zero_le _, Nat.le_refl _⟩
  rintro fuel passes stream disk next later ⟨good, within, entries⟩ returns
  rw [good] at returns
  rcases unpackEntry_position progress workingDirectory directory within
      returns with ⟨impossible, -⟩ | ⟨position, goesRound, header, inArchive⟩
  · cases impossible
  · cases goesRound
    refine ⟨rfl, inArchive, ?_⟩
    show 17 * (passes + 1) ≤ position
    omega

include progress in
theorem unpackEntries_terminate (archive : Bytes) (disk : Disk) :
    Terminates fun fuel =>
      Program.loop
        (unpackEntry lib workingDirectory directory archive.length) fuel
        (IStream.ofBytes archive) disk := by
  refine Terminates.loop_of_variant Nat.lt_wfRel.wf
    (fun stream _ => archive.length - stream.position)
    (fun stream _ => stream = IStream.goodAt archive stream.position ∧
      stream.position ≤ archive.length) ?_ ?_ _ disk
    ⟨rfl, Nat.zero_le _⟩
  · rintro stream disk ⟨good, within⟩
    rw [good]
    exact unpackEntry_terminates progress workingDirectory directory disk
      within
  · rintro fuel stream disk next later ⟨good, within⟩ returns
    rw [good] at returns
    rcases unpackEntry_position progress workingDirectory directory within
        returns with
      ⟨impossible, -⟩ | ⟨position, goesRound, header, inArchive⟩
    · cases impossible
    · cases goesRound
      refine ⟨⟨rfl, inArchive⟩, ?_⟩
      show archive.length - position < archive.length - stream.position
      omega

include progress in
theorem unpackArchive_terminates
    (archivePath : PathName) (disk : Disk) :
    Terminates fun fuel =>
      unpackArchive lib workingDirectory directory archivePath fuel
        disk := by
  refine Terminates.bind (Terminates.of_returned (Settles.of_eq fun _ =>
    Program.getState_run disk)) ?_
  intro _ start between same
  cases same
  by_cases noDirectory :
      (!fileExists disk.tree workingDirectory directory) = true
  · simp only [if_pos noDirectory]
    exact Terminates.of_total (Program.Total.raise _) _
  · simp only [if_neg noDirectory]
    by_cases noArchive :
        (!fileExists disk.tree workingDirectory archivePath) = true
    · simp only [if_pos noArchive]
      exact Terminates.of_total (Program.Total.raise _) _
    · simp only [if_neg noArchive]
      cases regularFile disk.tree workingDirectory archivePath with
      | none => exact Terminates.of_total (Program.Total.raise _) _
      | some archive =>
          exact unpackEntries_terminate progress workingDirectory directory
            archive disk

/-- An archive that was unpacked existed, and its loop returned. -/
theorem loop_of_unpackArchive
    {archivePath : PathName} {fuel : Nat} {disk later : Disk}
    (isFile : regularFile disk.tree workingDirectory archivePath =
      some archive)
    (returns : unpackArchive lib workingDirectory directory archivePath fuel
      disk = .returned () later) :
    Program.loop
      (unpackEntry lib workingDirectory directory archive.length) fuel
      (IStream.ofBytes archive) disk = .returned () later := by
  rw [unpackArchive, Program.bind_returned (Program.getState_run _)]
    at returns
  split_ifs at returns
  · cases returns
  · cases returns
  · rw [isFile] at returns
    exact returns

/--
Unpacking terminates.  Wherever its loop comes to, the stream is good and
within the archive, a 17th of whose length bounds the entries, and the payloads
are read exactly; when it returns, the stream is at the end of the archive.
-/
theorem unpackArchive_ends
    (lib : Library) (progress : MakesProgress lib)
    (workingDirectory : Location) (directory archivePath : PathName)
    (disk : Disk) :
    (Terminates fun fuel =>
      unpackArchive lib workingDirectory directory archivePath fuel disk) ∧
    ∀ archive fuel,
      regularFile disk.tree workingDirectory archivePath = some archive →
      (∀ later,
        unpackArchive lib workingDirectory directory archivePath fuel disk =
          .returned () later →
        ∃ passes left,
          PassReached
            (unpackEntry lib workingDirectory directory archive.length)
            fuel (IStream.ofBytes archive) disk passes left
            (IStream.goodAt archive archive.length) later ∧
          passes ≤ archive.length / 17) ∧
      ∀ passes left stream between,
        PassReached
          (unpackEntry lib workingDirectory directory archive.length)
          fuel (IStream.ofBytes archive) disk passes left stream between →
        WellPlaced lib workingDirectory directory archive passes stream := by
  refine ⟨unpackArchive_terminates progress workingDirectory directory
    archivePath disk, ?_⟩
  intro archive fuel isFile
  constructor
  · intro later returns
    rcases exists_reached_of_returned
        (loop_of_unpackArchive workingDirectory directory isFile returns)
      with ⟨passes, left, stream, between, reached, leaves⟩
    rcases goodAt_of_reached progress workingDirectory directory reached
      with ⟨good, within, entries⟩
    rw [good] at reached leaves
    rcases unpackEntry_position progress workingDirectory directory within
        leaves with ⟨-, atEnd, rfl⟩ | ⟨_, impossible, -⟩
    · rw [atEnd] at reached
      refine ⟨passes, left + 1, reached, ?_⟩
      omega
    · cases impossible
  · intro passes left stream between reached
    rcases goodAt_of_reached progress workingDirectory directory reached
      with ⟨good, within, entries⟩
    rw [good]
    exact wellPlaced_goodAt progress workingDirectory directory within
      entries

/-- The decoder that takes one byte at a call makes progress. -/
def zeroEndedProgress : MakesProgress zeroEndedLibrary where
  toDeliver _ := 0
  consumed_le := by
    intro dctx input capacity
    cases input with
    | nil => exact Nat.le_refl 0
    | cons byte rest =>
        rw [decodeZeroEnded_consumed dctx byte rest capacity]
        exact Nat.le_add_left 1 _
  progress := by
    intro dctx input capacity nonempty positive
    rcases List.exists_cons_of_ne_nil nonempty with ⟨byte, rest, rfl⟩
    right
    left
    rw [decodeZeroEnded_consumed dctx byte rest capacity]
    exact Nat.one_pos

/-- An archive with a file `f` that holds a frame of two bytes. -/
def fileArchive : Bytes :=
  header ⟨false, ascii "f", 2⟩ ++ [1, 0]

/-- A directory `d` and the archive in the file `a`. -/
def fileTree : FileTree :=
  FileTree.empty
    |>.place [ascii "d"] .directory
    |>.place [ascii "a"] (.file fileArchive)

/-- The file comes out, and the stream is at the end of the archive. -/
theorem unpackArchive_ends_file :
    ∃ later passes left,
      regularFile later.tree [] (ascii "d/f") = some [1] ∧
      PassReached
        (unpackEntry zeroEndedLibrary [] (ascii "d") fileArchive.length) 6
        (IStream.ofBytes fileArchive) ⟨fileTree, []⟩ passes left
        (IStream.goodAt fileArchive fileArchive.length) later ∧
      WellPlaced zeroEndedLibrary [] (ascii "d") fileArchive passes
        (IStream.goodAt fileArchive fileArchive.length) := by
  have isFile :
      regularFile fileTree [] (ascii "a") = some fileArchive := by
    decide +kernel
  have ends := (unpackArchive_ends _ zeroEndedProgress [] (ascii "d")
    (ascii "a") ⟨fileTree, []⟩).2 fileArchive 6 isFile
  have computed :
      ((unpackArchive zeroEndedLibrary [] (ascii "d") (ascii "a") 6
        ⟨fileTree, []⟩).finalState.any fun later =>
          regularFile later.tree [] (ascii "d/f") = some [1]) = true := by
    decide +kernel
  rcases (Option.any_eq_true _ _).1 computed with ⟨later, final, unpacked⟩
  rcases ends.1 later (Outcome.eq_returned final) with
    ⟨passes, left, reached, -⟩
  exact ⟨later, passes, left, of_decide_eq_true unpacked, reached,
    ends.2 _ _ _ _ reached⟩

end DropFile.Client.UnpackingEnds
