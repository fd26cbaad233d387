import DropFile.Client.SparedFiles
import DropFile.General.Worklists
import Mathlib.Logic.Relation

/-!
# The steps of unpacking

`unpackArchive`, one access to the disk after the other, so that anything may
happen to the disk between two of them.  What is read of an archive that is not
as it was opened any more is left open.
-/

namespace DropFile.Client.UnpackingSteps

open DropFile.General.FuelledProgram
open DropFile.General.PathNames
open DropFile.General.Files
open DropFile.General.Worklists (endedAs)
open DropFile.Streams
open DropFile.FileSystem
open DropFile.Client.EntryInfo
open DropFile.Client.Zstd
open DropFile.Client.ArchiveManager
  (archiveManagerException decompressToFile)
open DropFile.Client.LiveUnpacking
open DropFile.Client.ExistingFiles (Unchanged unchanged_place)
open DropFile.Client.SparedFiles

/-- Where an archive was opened, and what it held. -/
structure OpenedArchive where
  location : Location
  content : Bytes

/-- How far an archive is read. -/
structure Reading where
  /-- The archive, if its file could be opened. -/
  archive : Option OpenedArchive
  archiveSize : Nat
  compressedArchive : IStream

/-- Where a receiver is in `unpackArchive`. -/
inductive UnpackingStage where
  /-- Before it is asked whether the directory exists. -/
  | testing
  /-- Before it is asked whether the archive exists. -/
  | checking
  /-- Before the archive is opened. -/
  | opening
  /-- Before it is asked how long the archive is. -/
  | measuring (archive : Option OpenedArchive)
  /-- Before a pass of the loop. -/
  | passing (reading : Reading)
  /-- Before the directories of an entry are created. -/
  | creating (reading : Reading) (path : PathName)
  /-- Before the file of an entry is opened. -/
  | placing (reading : Reading) (entryInfo : FSEntryInfo)
  /-- While the file of an entry is open, and what has reached it. -/
  | extracting (reading : Reading) (entryInfo : FSEntryInfo)
      (location : Location) (written : Bytes)
  | ended (ending : Except Exception Unit)

/-- The archive that a path leads to. -/
def openedArchive (tree : FileTree) (workingDirectory : Location)
    (path : PathName) : Option OpenedArchive :=
  (tree.resolve workingDirectory path).bind fun location =>
    (regularFile tree workingDirectory path).map fun content =>
      ⟨location, content⟩

/-- A stream whose file could not be opened fails at once. -/
def openStream : Option OpenedArchive → IStream
  | none => { IStream.ofBytes [] with failbit := true }
  | some archive => IStream.ofBytes archive.content

/-- The header of the next entry, if there is one. -/
def readHeader (archiveSize : Nat) :
    Program Exception IStream (Option FSEntryInfo) := do
  let remaining ← getRemainingBytes archiveSize
  if remaining > 0 then
    let entryInfo ← readFromStream archiveSize
    pure (some entryInfo)
  else
    pure none

/-- The stage behind a program, or the end if it throws. -/
def orEnded {α : Type}
    (program : DiskProgram α) (next : α → UnpackingStage) :
    DiskProgram UnpackingStage :=
  fun disk =>
    match program disk with
    | .returned value later => .returned (next value) later
    | .threw error later => .returned (.ended (.error error)) later
    | .outOfFuel => .outOfFuel

variable (lib : Library) (workingDirectory : Location)
variable (directory archivePath : PathName)

/-- The stage that an entry leads to. -/
def afterHeader (reading : Reading) :
    Option FSEntryInfo × IStream → UnpackingStage
  | (none, _) => .ended (.ok ())
  | (some entryInfo, compressedArchive) =>
      if entryInfo.isDirectory then
        .creating { reading with compressedArchive }
          (join directory entryInfo.relativePath)
      else
        .placing { reading with compressedArchive } entryInfo

/-- One step of `unpackArchive`. -/
def step (fuel : Nat) : UnpackingStage → DiskProgram UnpackingStage
  | .testing => do
      let disk ← Program.getState
      if !fileExists disk.tree workingDirectory directory then
        pure (.ended (.error (archiveManagerException
          (ascii "Directory that you try to unpack archive into (" ++
            archivePath ++ ascii ") does not exists!"))))
      else
        pure .checking
  | .checking => do
      let disk ← Program.getState
      if !fileExists disk.tree workingDirectory archivePath then
        pure (.ended (.error (archiveManagerException
          (ascii "Given archive " ++ archivePath ++
            ascii " does not exists!"))))
      else
        pure .opening
  | .opening => do
      let disk ← Program.getState
      pure (.measuring
        (openedArchive disk.tree workingDirectory archivePath))
  | .measuring archive => do
      let disk ← Program.getState
      match regularFile disk.tree workingDirectory archivePath with
      | none =>
          pure (.ended (.error (filesystemError "cannot get file size")))
      | some measured =>
          pure (.passing ⟨archive, measured.length, openStream archive⟩)
  | .passing reading =>
      orEnded
        (Program.onLocal (readHeader reading.archiveSize)
          reading.compressedArchive)
        (afterHeader directory reading)
  | .creating reading path =>
      orEnded (createDirectories workingDirectory path) fun _ =>
        .passing reading
  | .placing reading entryInfo => do
      let path := join directory entryInfo.relativePath
      match ← openForWriting workingDirectory path with
      | none =>
          pure (.ended (.error (archiveManagerException
            (ascii "Failed to open output decompressed_file: " ++ path))))
      | some location =>
          pure (.extracting reading entryInfo location [])
  | .extracting reading entryInfo location _ =>
      orEnded
        (decompressToFile lib location entryInfo.compressedLength fuel
          reading.compressedArchive)
        fun compressedArchive =>
          .passing { reading with compressedArchive }
  | .ended ending => pure (.ended ending)

/-- The archive is not as it was opened any more. -/
def Reading.Changed (reading : Reading) (tree : FileTree) : Prop :=
  ∃ archive, reading.archive = some archive ∧
    tree.node archive.location ≠ some (.file archive.content)

/-- The archive is the file that is written, or it has changed. -/
def Reading.Unsettled (reading : Reading) (tree : FileTree)
    (location : Location) : Prop :=
  (∃ archive, reading.archive = some archive ∧
    archive.location = location) ∨ reading.Changed tree

/-- The disk when this content has reached a file. -/
def filled (disk : Disk) (location : Location) (content : Bytes) : Disk :=
  { disk with tree := disk.tree.place location (.file content) }

/-- What can happen in one step. -/
inductive Act : UnpackingStage → Disk → UnpackingStage → Disk → Prop where
  | steps {stage next : UnpackingStage} {disk later : Disk} (fuel : Nat) :
      step lib workingDirectory directory archivePath fuel stage disk =
        .returned next later →
      Act stage disk next later
  /-- What the stream goes on to read is not what was there. -/
  | rereads {reading : Reading} {disk : Disk} (other : IStream) :
      reading.Changed disk.tree →
      Act (.passing reading) disk
        (.passing { reading with compressedArchive := other }) disk
  | rereadsEntry {reading : Reading} {entryInfo : FSEntryInfo}
      {location : Location} {written : Bytes} {disk : Disk}
      (other : IStream) :
      reading.Changed disk.tree →
      Act (.extracting reading entryInfo location written) disk
        (.extracting { reading with compressedArchive := other } entryInfo
          location written) disk
  /-- The file is written to before it is closed. -/
  | flushes {reading : Reading} {entryInfo : FSEntryInfo}
      {location : Location} {written : Bytes} {disk : Disk}
      (content : Bytes) :
      Act (.extracting reading entryInfo location written) disk
        (.extracting reading entryInfo location content)
        (filled disk location content)
  /-- The file is made of what was read of an archive that changes. -/
  | strays {reading : Reading} {entryInfo : FSEntryInfo}
      {location : Location} {written : Bytes} {disk : Disk}
      (content : Bytes) (other : IStream) :
      reading.Unsettled disk.tree location →
      Act (.extracting reading entryInfo location written) disk
        (.passing { reading with compressedArchive := other })
        (filled disk location content)
  | fails {reading : Reading} {entryInfo : FSEntryInfo}
      {location : Location} {written : Bytes} {disk : Disk}
      (content : Bytes) (error : Exception) :
      reading.Unsettled disk.tree location →
      Act (.extracting reading entryInfo location written) disk
        (.ended (.error error)) (filled disk location content)

/-- A run of steps with nothing in between. -/
abbrev Acts : UnpackingStage × Disk → UnpackingStage × Disk → Prop :=
  Relation.ReflTransGen fun before after =>
    Act lib workingDirectory directory archivePath before.1 before.2 after.1
      after.2

/-! ## The steps are `unpackArchive` -/

section Alone

variable {lib workingDirectory directory archivePath}
variable {buffering : Buffering} {disk later : Disk}

theorem acts_head
    {stage next : UnpackingStage} {between : Disk}
    {last : UnpackingStage × Disk}
    (fuel : Nat)
    (steps : step lib workingDirectory directory archivePath fuel stage disk =
      .returned next between)
    (acts : Acts lib workingDirectory directory archivePath (next, between)
      last) :
    Acts lib workingDirectory directory archivePath (stage, disk) last :=
  .head (.steps fuel steps) acts

theorem acts_single
    {stage next : UnpackingStage}
    (fuel : Nat)
    (steps : step lib workingDirectory directory archivePath fuel stage disk =
      .returned next later) :
    Acts lib workingDirectory directory archivePath (stage, disk)
      (next, later) :=
  .single (.steps fuel steps)

/-- Where the steps are when a pass has ended. -/
def landed (reading : Reading) :
    Outcome Exception Disk (IStream ⊕ Unit) → Option (UnpackingStage × Disk)
  | .returned (.inl compressedArchive) later =>
      some (.passing { reading with compressedArchive }, later)
  | .returned (.inr _) later => some (.ended (.ok ()), later)
  | .threw error later => some (.ended (.error error), later)
  | .outOfFuel => none

/-- Closing the file of an entry leads to the next pass, or out of the loop. -/
theorem acts_of_decompressToFile
    {reading : Reading} {entryInfo : FSEntryInfo} {location : Location}
    {written : Bytes} {fuel : Nat} {last : UnpackingStage × Disk}
    (lands : landed reading
      ((decompressToFile lib location entryInfo.compressedLength fuel
        reading.compressedArchive >>= fun rest => pure (.inl rest)) disk) =
          some last) :
    Acts lib workingDirectory directory archivePath
      (.extracting reading entryInfo location written, disk) last := by
  rw [Program.bind_run] at lands
  cases extracts : decompressToFile lib location entryInfo.compressedLength
      fuel reading.compressedArchive disk with
  | returned rest later =>
      rw [extracts] at lands
      cases lands
      apply acts_single fuel
      rw [step, orEnded, extracts]
  | threw error later =>
      rw [extracts] at lands
      cases lands
      apply acts_single fuel
      rw [step, orEnded, extracts]
  | outOfFuel =>
      rw [extracts] at lands
      cases lands

/-- So does closing the archive itself. -/
theorem acts_of_decompressToArchive
    {reading : Reading} {entryInfo : FSEntryInfo} {location : Location}
    {written : Bytes} {fuel : Nat} {last : UnpackingStage × Disk}
    (unsettled : reading.Unsettled disk.tree location)
    (lands : landed reading
      ((decompressToArchive lib buffering location
        entryInfo.compressedLength fuel reading.compressedArchive >>=
          fun rest => pure (.inl rest)) disk) = some last) :
    Acts lib workingDirectory directory archivePath
      (.extracting reading entryInfo location written, disk) last := by
  rw [Program.bind_run, decompressToArchive] at lands
  cases extracts : LiveUnpacking.decompress lib (rereadOutput buffering)
      entryInfo.compressedLength fuel
      ⟨reading.compressedArchive, OStream.atEnd []⟩ with
  | returned _ streams =>
      rw [extracts] at lands
      cases lands
      exact .single (.strays streams.output.data _ unsettled)
  | threw error streams =>
      rw [extracts] at lands
      cases lands
      exact .single (.fails streams.output.data error unsettled)
  | outOfFuel =>
      rw [extracts] at lands
      cases lands

theorem acts_of_unpackFile
    {reading : Reading} {archive : OpenedArchive} {entryInfo : FSEntryInfo}
    {fuel : Nat} {last : UnpackingStage × Disk}
    (isOpened : reading.archive = some archive)
    (lands : landed reading
      ((unpackFile lib buffering workingDirectory (some archive.location)
        directory fuel reading.compressedArchive entryInfo >>=
          fun rest => pure (.inl rest)) disk) = some last) :
    Acts lib workingDirectory directory archivePath
      (.placing reading entryInfo, disk) last := by
  obtain ⟨opened, between, opens⟩ : ∃ opened between,
      openForWriting workingDirectory
          (join directory entryInfo.relativePath) disk =
        .returned opened between :=
    ⟨_, _, Program.step_run _ disk⟩
  rw [unpackFile, Program.bind_run, Program.bind_returned opens] at lands
  cases opened with
  | none =>
      cases lands
      have fails : step lib workingDirectory directory archivePath fuel
          (.placing reading entryInfo) disk =
            .returned (.ended (.error (archiveManagerException
              (ascii "Failed to open output decompressed_file: " ++
                join directory entryInfo.relativePath)))) between := by
        rw [step, Program.bind_returned opens]
        rfl
      exact acts_single _ fails
  | some location =>
      have places : step lib workingDirectory directory archivePath fuel
          (.placing reading entryInfo) disk =
            .returned (.extracting reading entryInfo location []) between := by
        rw [step, Program.bind_returned opens]
        rfl
      dsimp only at lands
      rw [← Program.bind_run] at lands
      apply acts_head _ places
      by_cases isArchive : some archive.location = some location
      · rw [if_pos isArchive] at lands
        apply acts_of_decompressToArchive _ lands
        exact Or.inl ⟨archive, isOpened, Option.some.inj isArchive⟩
      · rw [if_neg isArchive] at lands
        exact acts_of_decompressToFile lands

theorem acts_of_createDirectories
    {reading : Reading} {path : PathName} {last : UnpackingStage × Disk}
    (lands : landed reading
      ((createDirectories workingDirectory path >>= fun _ =>
        pure (.inl reading.compressedArchive)) disk) = some last) :
    Acts lib workingDirectory directory archivePath
      (.creating reading path, disk) last := by
  rw [Program.bind_run] at lands
  cases creates : createDirectories workingDirectory path disk with
  | returned value later =>
      rw [creates] at lands
      cases lands
      have goesOn : step lib workingDirectory directory archivePath 0
          (.creating reading path) disk =
            .returned (.passing reading) later := by
        rw [step, orEnded, creates]
      exact acts_single _ goesOn
  | threw error later =>
      rw [creates] at lands
      cases lands
      have fails : step lib workingDirectory directory archivePath 0
          (.creating reading path) disk =
            .returned (.ended (.error error)) later := by
        rw [step, orEnded, creates]
      exact acts_single _ fails
  | outOfFuel =>
      rw [creates] at lands
      cases lands

theorem acts_of_header_threw
    {reading : Reading} {error : Exception} {rest : IStream}
    (threw : readHeader reading.archiveSize reading.compressedArchive =
      .threw error rest) :
    Acts lib workingDirectory directory archivePath
      (.passing reading, disk) (.ended (.error error), disk) := by
  have fails : step lib workingDirectory directory archivePath 0
      (.passing reading) disk = .returned (.ended (.error error)) disk := by
    rw [step, orEnded, Program.onLocal, threw]
  exact acts_single _ fails

/-- Reading a header leads to the entry that it announces. -/
theorem acts_of_header
    {reading : Reading} {header : Option FSEntryInfo} {rest : IStream}
    {last : UnpackingStage × Disk}
    (returned : readHeader reading.archiveSize reading.compressedArchive =
      .returned header rest)
    (acts : Acts lib workingDirectory directory archivePath
      (afterHeader directory reading (header, rest), disk) last) :
    Acts lib workingDirectory directory archivePath
      (.passing reading, disk) last := by
  have reads : step lib workingDirectory directory archivePath 0
      (.passing reading) disk =
        .returned (afterHeader directory reading (header, rest)) disk := by
    rw [step, orEnded, Program.onLocal, returned]
  exact acts_head _ reads acts

/-- One pass of the loop. -/
theorem acts_of_unpackEntry
    {reading : Reading} {archive : OpenedArchive} {fuel : Nat}
    {last : UnpackingStage × Disk}
    (isOpened : reading.archive = some archive)
    (lands : landed reading
      (unpackEntryWith workingDirectory
        (unpackFile lib buffering workingDirectory (some archive.location)
          directory)
        directory reading.archiveSize fuel reading.compressedArchive disk) =
          some last) :
    Acts lib workingDirectory directory archivePath
      (.passing reading, disk) last := by
  rw [unpackEntryWith, Program.bind_run, Program.onLocal] at lands
  cases measures :
      getRemainingBytes reading.archiveSize reading.compressedArchive with
  | threw error atEntry =>
      rw [measures] at lands
      cases lands
      apply acts_of_header_threw
      rw [readHeader, Program.bind_threw measures]
  | outOfFuel =>
      rw [measures] at lands
      cases lands
  | returned remaining atEntry =>
      rw [measures] at lands
      dsimp only at lands
      by_cases more : remaining > 0
      · rw [if_pos more, Program.bind_run, Program.onLocal] at lands
        have header : readHeader reading.archiveSize
            reading.compressedArchive =
              (readFromStream reading.archiveSize >>= fun entryInfo =>
                pure (some entryInfo)) atEntry := by
          rw [readHeader, Program.bind_returned measures, if_pos more]
        cases accepts : readFromStream reading.archiveSize atEntry with
        | threw error rest =>
            rw [accepts] at lands
            cases lands
            apply acts_of_header_threw
            rw [header, Program.bind_threw accepts]
        | outOfFuel =>
            rw [accepts] at lands
            cases lands
        | returned entryInfo rest =>
            rw [Program.bind_returned accepts] at header
            rw [accepts] at lands
            dsimp only at lands
            apply acts_of_header header
            by_cases isDirectory : entryInfo.isDirectory = true
            · rw [if_pos isDirectory] at lands
              rw [afterHeader, if_pos isDirectory]
              exact acts_of_createDirectories lands
            · rw [if_neg isDirectory] at lands
              rw [afterHeader, if_neg isDirectory]
              exact acts_of_unpackFile isOpened lands
      · rw [if_neg more] at lands
        cases lands
        apply acts_of_header
        · rw [readHeader, Program.bind_returned measures, if_neg more]
          rfl
        · rfl

/-- The loop, whatever fuel it is given. -/
theorem acts_of_loop
    {archive : OpenedArchive} {ending : Except Exception Unit}
    (fuel : Nat) (reading : Reading)
    (isOpened : reading.archive = some archive)
    (ends : Program.loop
      (unpackEntryWith workingDirectory
        (unpackFile lib buffering workingDirectory (some archive.location)
          directory)
        directory reading.archiveSize)
      fuel reading.compressedArchive disk = endedAs ending later) :
    Acts lib workingDirectory directory archivePath
      (.passing reading, disk) (.ended ending, later) := by
  induction fuel generalizing reading disk with
  | zero => cases ending <;> cases ends
  | succ fuel inductionHypothesis =>
      rw [Program.loop_succ] at ends
      cases passes : unpackEntryWith workingDirectory
          (unpackFile lib buffering workingDirectory (some archive.location)
            directory)
          directory reading.archiveSize fuel reading.compressedArchive
          disk with
      | returned next between =>
          have lands := congrArg (landed reading) passes
          rw [passes] at ends
          cases next with
          | inl rest =>
              have pass : Acts lib workingDirectory directory archivePath
                  (.passing reading, disk)
                  (.passing { reading with compressedArchive := rest },
                    between) :=
                acts_of_unpackEntry isOpened lands
              exact pass.trans (inductionHypothesis
                { reading with compressedArchive := rest } isOpened ends)
          | inr value =>
              cases ending with
              | ok value =>
                  cases ends
                  exact acts_of_unpackEntry isOpened lands
              | error error => cases ends
      | threw error between =>
          have lands := congrArg (landed reading) passes
          rw [passes] at ends
          cases ending with
          | ok value => cases ends
          | error error =>
              cases ends
              exact acts_of_unpackEntry isOpened lands
      | outOfFuel =>
          rw [passes] at ends
          cases ending <;> cases ends

theorem of_endedAs_eq_threw
    {ending : Except Exception Unit} {error : Exception} {other : Disk}
    (threw : endedAs ending later = .threw error other) :
    ending = .error error ∧ later = other := by
  cases ending with
  | ok value => cases threw
  | error error =>
      cases threw
      exact ⟨rfl, rfl⟩

/-- With nothing in between, the steps end like `unpackArchive`. -/
theorem acts_of_unpackArchive
    {fuel : Nat} {ending : Except Exception Unit}
    (ends : unpackArchive lib buffering workingDirectory directory
      archivePath fuel disk = endedAs ending later) :
    Acts lib workingDirectory directory archivePath
      (.testing, disk) (.ended ending, later) := by
  rw [unpackArchive, unpackArchiveWith,
    Program.bind_returned (Program.getState_run disk)] at ends
  have tests (present : ¬(!fileExists disk.tree workingDirectory
      directory) = true) :
      step lib workingDirectory directory archivePath fuel .testing disk =
        .returned .checking disk := by
    rw [step, Program.bind_returned (Program.getState_run disk),
      if_neg present]
    rfl
  have checks (present : ¬(!fileExists disk.tree workingDirectory
      archivePath) = true) :
      step lib workingDirectory directory archivePath fuel .checking disk =
        .returned .opening disk := by
    rw [step, Program.bind_returned (Program.getState_run disk),
      if_neg present]
    rfl
  split_ifs at ends with noDirectory noArchive
  · rcases of_endedAs_eq_threw ends.symm with ⟨rfl, rfl⟩
    apply acts_single fuel
    rw [step, Program.bind_returned (Program.getState_run later),
      if_pos noDirectory]
    rfl
  · rcases of_endedAs_eq_threw ends.symm with ⟨rfl, rfl⟩
    apply acts_head _ (tests noDirectory)
    apply acts_single fuel
    rw [step, Program.bind_returned (Program.getState_run later),
      if_pos noArchive]
    rfl
  · apply acts_head _ (tests noDirectory)
    apply acts_head _ (checks noArchive)
    have opens : step lib workingDirectory directory archivePath fuel
        .opening disk = .returned (.measuring
          (openedArchive disk.tree workingDirectory archivePath)) disk :=
      rfl
    apply acts_head _ opens
    cases isFile : regularFile disk.tree workingDirectory archivePath with
    | none =>
        rw [isFile] at ends
        rcases of_endedAs_eq_threw ends.symm with ⟨rfl, rfl⟩
        apply acts_single fuel
        rw [step, Program.bind_returned (Program.getState_run later), isFile]
        rfl
    | some archive =>
        rw [isFile] at ends
        rcases exists_location_of_regularFile isFile with
          ⟨location, resolved, -⟩
        rw [resolved] at ends
        have opened :
            openedArchive disk.tree workingDirectory archivePath =
              some ⟨location, archive⟩ := by
          rw [openedArchive, resolved, Option.bind_some, isFile,
            Option.map_some]
        have measures (found : Option OpenedArchive) :
            step lib workingDirectory directory archivePath fuel
              (.measuring found) disk =
                .returned
                  (.passing ⟨found, archive.length, openStream found⟩)
                  disk := by
          rw [step, Program.bind_returned (Program.getState_run disk),
            isFile]
          rfl
        apply acts_head _ (measures _)
        rw [opened]
        have isOpened : (⟨some ⟨location, archive⟩, archive.length,
            IStream.ofBytes archive⟩ : Reading).archive =
              some ⟨location, archive⟩ :=
          rfl
        exact acts_of_loop fuel _ isOpened ends

end Alone

/-! ## What a step changes -/

/-- Whether the archive is still to be looked up. -/
def UnpackingStage.looksUp : UnpackingStage → Bool
  | .testing | .checking | .opening | .measuring _ => true
  | _ => false

/-- The path at which a file is opened next. -/
def UnpackingStage.opens : UnpackingStage → Option PathName
  | .placing _ entryInfo => some (join directory entryInfo.relativePath)
  | _ => none

/-- The file that is open, with what has reached it. -/
def UnpackingStage.written : UnpackingStage → Option (Location × Bytes)
  | .extracting _ _ location written => some (location, written)
  | _ => none

section Changes

variable {lib workingDirectory directory archivePath}
variable {stage next : UnpackingStage} {disk later : Disk}
variable {kept : Location → Prop}

theorem orEnded_left
    {α : Type} {program : DiskProgram α} {onward : α → UnpackingStage}
    (steps : orEnded program onward disk = .returned next later) :
    (program disk).lastState = some later := by
  rw [orEnded] at steps
  cases ends : program disk with
  | returned value last =>
      rw [ends] at steps
      cases steps
      rfl
  | threw error last =>
      rw [ends] at steps
      cases steps
      rfl
  | outOfFuel =>
      rw [ends] at steps
      cases steps

theorem onLocal_left
    {α τ : Type} {program : Program Exception τ α} {start : τ}
    (leaves : ((Program.onLocal program start : DiskProgram (α × τ))
      disk).lastState = some later) :
    later = disk := by
  rw [Program.onLocal] at leaves
  cases ends : program start with
  | returned value last =>
      rw [ends] at leaves
      exact (Option.some.inj leaves).symm
  | threw error last =>
      rw [ends] at leaves
      exact (Option.some.inj leaves).symm
  | outOfFuel =>
      rw [ends] at leaves
      cases leaves

theorem decompressToFile_left
    {location : Location} {compressedLength fuel : Nat}
    {compressedArchive : IStream}
    (leaves : (decompressToFile lib location compressedLength fuel
      compressedArchive disk).lastState = some later) :
    ∃ content, later = filled disk location content := by
  rw [decompressToFile] at leaves
  cases ends : Zstd.decompress lib compressedLength fuel
      ⟨compressedArchive, OStream.atEnd []⟩ with
  | returned _ streams =>
      rw [ends] at leaves
      exact ⟨_, (Option.some.inj leaves).symm⟩
  | threw error streams =>
      rw [ends] at leaves
      exact ⟨_, (Option.some.inj leaves).symm⟩
  | outOfFuel =>
      rw [ends] at leaves
      cases leaves

theorem filled_unchanged
    {location : Location}
    (outside : ¬ kept location)
    (content : Bytes) :
    Unchanged kept disk.tree (filled disk location content).tree :=
  unchanged_place outside _

theorem step_unchanged
    {fuel : Nat}
    (steps : step lib workingDirectory directory archivePath fuel stage disk =
      .returned next later)
    (present : ∀ location, kept location → disk.tree.node location ≠ none)
    (sparesOpening : ∀ path ∈ stage.opens directory,
      SparesWriting kept disk.tree workingDirectory path)
    (sparesWritten : ∀ file ∈ stage.written, ¬ kept file.1) :
    Unchanged kept disk.tree later.tree := by
  cases stage with
  | testing =>
      rw [step, Program.bind_returned (Program.getState_run disk)] at steps
      split_ifs at steps
      · cases steps
        exact Unchanged.refl _
      · cases steps
        exact Unchanged.refl _
  | checking =>
      rw [step, Program.bind_returned (Program.getState_run disk)] at steps
      split_ifs at steps
      · cases steps
        exact Unchanged.refl _
      · cases steps
        exact Unchanged.refl _
  | opening =>
      cases steps
      exact Unchanged.refl _
  | measuring archive =>
      rw [step, Program.bind_returned (Program.getState_run disk)] at steps
      cases measured :
          regularFile disk.tree workingDirectory archivePath with
      | none =>
          rw [measured] at steps
          cases steps
          exact Unchanged.refl _
      | some content =>
          rw [measured] at steps
          cases steps
          exact Unchanged.refl _
  | passing reading =>
      rw [onLocal_left (orEnded_left steps)]
      exact Unchanged.refl _
  | creating reading path =>
      exact (createDirectories_sparing present path).left rfl
        (orEnded_left steps)
  | placing reading entryInfo =>
      rw [step] at steps
      rcases openForWriting_cases workingDirectory
          (join directory entryInfo.relativePath) disk with
        opens | ⟨location, resolved, possible, opens⟩
      · rw [Program.bind_returned opens] at steps
        cases steps
        exact Unchanged.refl _
      · rw [Program.bind_returned opens] at steps
        cases steps
        exact unchanged_place
          (sparesOpening _ rfl location resolved possible) _
  | extracting reading entryInfo location written =>
      rcases decompressToFile_left (orEnded_left steps) with
        ⟨content, rfl⟩
      exact filled_unchanged (sparesWritten _ rfl) content
  | ended ending =>
      cases steps
      exact Unchanged.refl _

/-- A step changes nothing but the file that it opens or has open. -/
theorem Act.unchanged
    (act : Act lib workingDirectory directory archivePath stage disk next
      later)
    (present : ∀ location, kept location → disk.tree.node location ≠ none)
    (sparesOpening : ∀ path ∈ stage.opens directory,
      SparesWriting kept disk.tree workingDirectory path)
    (sparesWritten : ∀ file ∈ stage.written, ¬ kept file.1) :
    Unchanged kept disk.tree later.tree := by
  cases act with
  | steps fuel steps =>
      exact step_unchanged steps present sparesOpening sparesWritten
  | rereads => exact Unchanged.refl _
  | rereadsEntry => exact Unchanged.refl _
  | flushes content =>
      exact filled_unchanged (sparesWritten _ rfl) content
  | strays content other unsettled =>
      exact filled_unchanged (sparesWritten _ rfl) content
  | fails content error unsettled =>
      exact filled_unchanged (sparesWritten _ rfl) content

theorem orEnded_looksUp
    {α : Type} {program : DiskProgram α} {onward : α → UnpackingStage}
    (isPast : ∀ value, (onward value).looksUp = false)
    (steps : orEnded program onward disk = .returned next later) :
    next.looksUp = false := by
  rw [orEnded] at steps
  cases ends : program disk with
  | returned value last =>
      rw [ends] at steps
      cases steps
      exact isPast value
  | threw error last =>
      rw [ends] at steps
      cases steps
      rfl
  | outOfFuel =>
      rw [ends] at steps
      cases steps

theorem afterHeader_looksUp
    (reading : Reading) (header : Option FSEntryInfo × IStream) :
    (afterHeader directory reading header).looksUp = false := by
  rcases header with ⟨_ | entryInfo, rest⟩
  · rfl
  · rw [afterHeader]
    split_ifs
    · rfl
    · rfl

/-- Looking the archive up changes nothing, and it is done once. -/
theorem Act.of_looksUp
    (act : Act lib workingDirectory directory archivePath stage disk next
      later)
    (looksUp : next.looksUp = true) :
    stage.looksUp = true ∧ later = disk := by
  cases act with
  | steps fuel steps =>
      cases stage with
      | testing =>
          rw [step, Program.bind_returned (Program.getState_run disk)]
            at steps
          split_ifs at steps
          · cases steps
            cases looksUp
          · cases steps
            exact ⟨rfl, rfl⟩
      | checking =>
          rw [step, Program.bind_returned (Program.getState_run disk)]
            at steps
          split_ifs at steps
          · cases steps
            cases looksUp
          · cases steps
            exact ⟨rfl, rfl⟩
      | opening =>
          cases steps
          exact ⟨rfl, rfl⟩
      | measuring archive =>
          rw [step, Program.bind_returned (Program.getState_run disk)]
            at steps
          cases measured :
              regularFile disk.tree workingDirectory archivePath with
          | none =>
              rw [measured] at steps
              cases steps
              cases looksUp
          | some content =>
              rw [measured] at steps
              cases steps
              cases looksUp
      | passing reading =>
          have isLater := orEnded_looksUp (afterHeader_looksUp reading) steps
          cases isLater.symm.trans looksUp
      | creating reading path =>
          have isLater := orEnded_looksUp (fun _ => rfl) steps
          cases isLater.symm.trans looksUp
      | placing reading entryInfo =>
          obtain ⟨opened, between, opens⟩ : ∃ opened between,
              openForWriting workingDirectory
                  (join directory entryInfo.relativePath) disk =
                .returned opened between :=
            ⟨_, _, Program.step_run _ disk⟩
          rw [step, Program.bind_returned opens] at steps
          cases opened with
          | none =>
              cases steps
              cases looksUp
          | some location =>
              cases steps
              cases looksUp
      | extracting reading entryInfo location written =>
          have isLater := orEnded_looksUp (fun _ => rfl) steps
          cases isLater.symm.trans looksUp
      | ended ending =>
          cases steps
          cases looksUp
  | rereads => cases looksUp
  | rereadsEntry => cases looksUp
  | flushes => cases looksUp
  | strays => cases looksUp
  | fails => cases looksUp

end Changes

end DropFile.Client.UnpackingSteps
