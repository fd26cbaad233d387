import DropFile.Client.ExistingFiles

/-!
# What a failed `receiveFile` leaves behind

The destructor of the receiver removes its temporary directory and nothing
else.  A received file outside of that directory stays, and so does what an
archive has unpacked before it failed.
-/

namespace DropFile.Client.LeftBehind

open DropFile.General.FuelledProgram
open DropFile.General.Processes.Process
open DropFile.General.PathNames
open DropFile.General.Files
open DropFile.General.Files.FileTree
open DropFile.Streams
open DropFile.FileSystem
open DropFile.Socket
open DropFile.Utils
open DropFile.SessionMessages
open DropFile.Client.EntryInfo
open DropFile.Client.LiveUnpacking
open DropFile.Client.UnpackedPaths
open DropFile.Client.DropFileReceiveClient
open DropFile.Client.Announcements
open DropFile.Client.ReceivedFiles
open DropFile.Client.ReceivingPhases
open DropFile.Client.AnnouncedRuns
open DropFile.Client.ExistingFiles

variable {Peer : Type} [DecidableEq Peer]
variable {machine : Machine} {disk : Disk} {server : Peer}
variable {confirmation : UInt8} {codeWords : Bytes} {fuel : Nat}
variable {moment : Local Peer Receiving}

/-! ## The current directory -/

/-- A location in the current directory that the destructor does not remove. -/
def InCurrentDirectory (machine : Machine) (tree : FileTree)
    (location : Location) : Prop :=
  machine.workingDirectory <+: location ∧
    ¬ InReceiverTmpDir machine tree location

/--
No step of the run has put anything into the current directory: the received
file is elsewhere, and so is all that the entries of the archive lead to.
-/
structure SparesCurrentDirectory
    (machine : Machine) (disk : Disk) (server : Peer) (fuel : Nat)
    (moment : Local Peer Receiving) : Prop where
  received : ∀ location bytes,
    moment.state.receivedFile = some (location, bytes) →
    ¬ InCurrentDirectory machine disk.tree location
  unpacked : ∀ entryInfo tree,
    ComesTo machine disk server fuel moment entryInfo tree →
    Spares (InCurrentDirectory machine disk.tree) machine.workingDirectory
      (currentPath machine.workingDirectory) entryInfo tree

/-! ## When the exception is thrown -/

theorem spotless_of_failed
    {error : Exception}
    (fails : Becomes
      (receiveFile machine server confirmation codeWords fuel)
      (starting disk) (.failed error) moment) :
    Spotless disk moment.state :=
  (((ReceivingPhases.receiveFile_ensures machine server confirmation
    codeWords fuel disk).of_becomes fails) trivial).2

omit [DecidableEq Peer] in
/-- The directories that were there are still there. -/
theorem directories_of_phase
    (phase : Phase machine disk server codeWords fuel moment) :
    Unchanged (fun location => disk.tree.node location = some .directory)
      disk.tree moment.state.disk.tree := by
  apply unchanged_of_phase phase
  · intro location isFree _ other isDirectory
    apply not_prefix_of_present isFree
    rw [isDirectory]
    exact Option.some_ne_none _
  · intro entryInfo tree _ same
    exact spares_directories _ _ same entryInfo

/-- What is put elsewhere is not above anything in the current directory. -/
theorem not_above_currentDirectory
    {location other : Location}
    (currentIsDirectory :
      disk.tree.node machine.workingDirectory = some .directory)
    (isFree : disk.tree.node location = none)
    (elsewhere : ¬ InCurrentDirectory machine disk.tree location)
    (isInside : InCurrentDirectory machine disk.tree other) :
    ¬ location <+: other := by
  intro isAbove
  apply elsewhere
  constructor
  · rcases List.prefix_or_prefix_of_prefix isInside.1 isAbove with
      inside | outside
    · exact inside
    · have present : disk.tree.node machine.workingDirectory ≠ none := by
        rw [currentIsDirectory]
        exact Option.some_ne_none _
      exact absurd outside (not_prefix_of_present isFree present)
  · rintro ⟨tmpDir, resolved, below⟩
    exact isInside.2 ⟨tmpDir, resolved, below.trans isAbove⟩

theorem unchanged_of_failed
    {error : Exception}
    (currentIsDirectory :
      disk.tree.node machine.workingDirectory = some .directory)
    (fails : Becomes
      (receiveFile machine server confirmation codeWords fuel)
      (starting disk) (.failed error) moment)
    (spares : SparesCurrentDirectory machine disk server fuel moment) :
    Unchanged (InCurrentDirectory machine disk.tree) disk.tree
      moment.state.disk.tree := by
  cases received : moment.state.receivedFile with
  | none =>
      have same := spotless_of_failed fails received
      rw [same]
      exact Unchanged.refl _
  | some file =>
      rcases file with ⟨location, bytes⟩
      apply unchanged_of_phase (phase_of_becomes fails)
      · rintro other isFree (noFile | ⟨otherBytes, isFile⟩)
        · rw [received] at noFile
          cases noFile
        · rw [received] at isFile
          cases isFile
          intro inside isInside
          exact not_above_currentDirectory currentIsDirectory isFree
            (spares.received location bytes received) isInside
      · intro entryInfo tree comes _
        exact spares.unpacked entryInfo tree comes

/-! ## The destructor -/

theorem destroy_ensures (moment : Local Peer Receiving) :
    Ensures (fun _ => True) (fun _ => True)
      (fun _ later => FileSystem.removeAll machine.workingDirectory
        (receiverTmpDir machine) moment.state.disk =
          .returned () later.state.disk)
      (fun _ _ => True) (destroy machine) moment := by
  rw [destroy, onDisk]
  apply Ensures.ofProgram trivial
  intro start same
  have same : start = moment.state := same
  rw [same]
  exact ⟨trivial, rfl⟩

/-- The destructor removes the temporary directory, wherever it is. -/
theorem tree_of_destroyed
    {tmpDir : Location} {after : Local Peer Receiving}
    (resolved : moment.state.disk.tree.resolve machine.workingDirectory
      (receiverTmpDir machine) = some tmpDir)
    (destroyed : Becomes (destroy machine) moment (.done ()) after) :
    after.state.disk.tree = moment.state.disk.tree.removeAll tmpDir := by
  have removes :=
    (((destroy_ensures moment).of_becomes destroyed) trivial).2
  rw [FileSystem.removeAll, Program.modifyState_run, resolved] at removes
  injection removes with _ isDisk
  rw [← isDisk]

/--
When `receiveFile` has failed and its client is destroyed, the current
directory is as it was before, if no step of the run has put anything there.
-/
theorem receiveFile_leaves_nothing
    {error : Exception} {tmpDir : Location} {after : Local Peer Receiving}
    (currentIsDirectory :
      disk.tree.node machine.workingDirectory = some .directory)
    (resolved : disk.tree.resolve machine.workingDirectory
      (receiverTmpDir machine) = some tmpDir)
    (fails : Becomes
      (receiveFile machine server confirmation codeWords fuel)
      (starting disk) (.failed error) moment)
    (destroyed : Becomes (destroy machine) moment (.done ()) after)
    (spares : SparesCurrentDirectory machine disk server fuel moment) :
    Unchanged (InCurrentDirectory machine disk.tree) disk.tree
      after.state.disk.tree := by
  have unchanged := unchanged_of_failed currentIsDirectory fails spares
  have directories := directories_of_phase (phase_of_becomes fails)
  have stillResolved :
      moment.state.disk.tree.resolve machine.workingDirectory
        (receiverTmpDir machine) = some tmpDir := by
    apply resolve_of_directories _ _ resolved
    intro location isDirectory
    rw [directories location isDirectory, isDirectory]
  rw [tree_of_destroyed stillResolved destroyed]
  apply unchanged.trans
  apply unchanged_removeAll
  intro other isInside below
  exact isInside.2 ⟨tmpDir, resolved, below⟩

theorem exists_destroyed (moment : Local Peer Receiving) :
    ∃ after, Becomes (destroy machine) moment (.done ()) after := by
  have removes : FileSystem.removeAll machine.workingDirectory
      (receiverTmpDir machine) moment.state.disk = .returned () _ :=
    Program.modifyState_run _ _
  have focused := @Program.focus_returned _ _ _ _ Receiving.disk
    (fun disk receiving => { receiving with disk })
    (FileSystem.removeAll machine.workingDirectory (receiverTmpDir machine))
    moment.state _ _ removes
  have plays :
      Plays (destroy machine) moment.state silence silence
        (.done () : ReceiverProcess Peer Unit) _ :=
    Plays.ofProgram focused
  exact ⟨_, .of_plays plays moment.received moment.sent⟩

/-! ### A hash that does not match -/

/-- A machine on which the client is started in `/d`. -/
def mismatchMachine : Machine where
  zstd := foreignMachine.zstd
  library := FlatJson.flatLibrary
  digest := knownDigest (ascii "!") [0xbb]
  workingDirectory := [ascii "d"]
  temporaryDirectory := ascii "/tmp"
  freeSpace _ := 100
  buffering := LiveUnpacking.unbuffered

def mismatchDisk : Disk :=
  ⟨FileTree.empty
    |>.place [ascii "tmp"] .directory
    |>.place [ascii "tmp", ascii "drop-file"] .directory
    |>.place [ascii "tmp", ascii "drop-file", ascii "receiver"] .directory
    |>.place [ascii "d"] .directory, []⟩

theorem mismatch_tmpDir :
    mismatchDisk.tree.resolve mismatchMachine.workingDirectory
      (receiverTmpDir mismatchMachine) =
        some [ascii "tmp", ascii "drop-file", ascii "receiver"] := by
  decide +kernel

/-- A file `x` of one byte comes with the hash of another one. -/
theorem exists_mismatch
    {isCompressed : Bool} {location : Location}
    (missing : mismatchDisk.tree.node location = none)
    (resolved : mismatchDisk.tree.resolve mismatchMachine.workingDirectory
      (receivePath mismatchMachine isCompressed (ascii "x")) = some location)
    (possible : mismatchDisk.tree.CanPlace location)
    (short : (flatMetadata (ascii "x") 1 (binaryToHumanReadable [0xcc])
      isCompressed).length ≤ bufferSize) :
    ∃ moment : Local Unit Receiving,
      Becomes (receiveFile mismatchMachine () 121 (ascii "a-b-1") 3)
        (starting mismatchDisk) (.failed hashMismatch) moment ∧
      moment.state =
        ⟨⟨(mismatchDisk.tree.place location (.file [])).place location
            (.file (ascii "!")),
          [receivePath mismatchMachine isCompressed (ascii "x")]⟩,
          some (location, ascii "!"), none⟩ := by
  rcases @exists_announcement mismatchMachine mismatchDisk.tree rfl
      (ascii "x") 1 (binaryToHumanReadable [0xcc]) isCompressed
      (by decide +kernel) (isUtf8_binaryToHumanReadable _) (by decide)
      (by decide +kernel) (by cases isCompressed <;> decide) with
    ⟨announcement, isMetadata, isFilename, isFileSize, compressed,
      fileHashRead⟩
  have isPath : announcement.path =
      receivePath mismatchMachine isCompressed (ascii "x") := by
    rw [Announcement.path, compressed, isFilename]
  rw [← isPath] at resolved
  have hashes : HasHash mismatchMachine.digest (ascii "!")
      (binaryToHumanReadable [0xbb]) :=
    hasHash_knownDigest (by decide +kernel)
  rcases @becomes_received mismatchMachine FlatJson.flatLibrary_contract
      mismatchDisk announcement (by rw [isMetadata]; exact short) location
      (ascii "!") _ missing resolved possible (by decide) (by decide)
      (by rw [isFileSize]; decide) fileHashRead 3 (by decide) with
    ⟨_, _, receives⟩
  rcases becomes_mismatch receives resolved possible hashes (by decide) with
    ⟨received, sent, becomes⟩
  refine ⟨_, becomes, ?_⟩
  rw [← isPath]
  rfl

/-- An entry in the temporary directory, and the beginning of another one. -/
def tornArchive : Bytes :=
  header ⟨false, ascii "/tmp/drop-file/receiver/s", 0⟩ ++ [0]

def tornMachine : Machine :=
  { mismatchMachine with digest := knownDigest tornArchive [0xbb] }

/-- Where the archive is received. -/
def tornAt : Location :=
  [ascii "tmp", ascii "drop-file", ascii "receiver", ascii "g"]

/-- The disk when the archive has come. -/
def tornDisk : Disk :=
  withFile mismatchDisk (ascii "/tmp/drop-file/receiver/g") tornAt
    tornArchive

/-- The entry is unpacked, and then the archive ends too early. -/
theorem exists_torn :
    ∃ (error : Exception) (moment : Local Unit Receiving),
      Becomes (receiveFile tornMachine () 121 (ascii "a-b-1") 3)
        (starting mismatchDisk) (.failed error) moment ∧
      moment.state.receivedFile = some (tornAt, tornArchive) ∧
      moment.state.unpacking = some (ascii "/tmp/drop-file/receiver/g") ∧
      moment.state.disk.tree.node
        [ascii "tmp", ascii "drop-file", ascii "receiver", ascii "s"] =
          some (.file []) := by
  have isPath : receivePath tornMachine true (ascii "g") =
      ascii "/tmp/drop-file/receiver/g" := by
    decide +kernel
  have hashes : HasHash tornMachine.digest tornArchive
      (binaryToHumanReadable [0xbb]) :=
    hasHash_knownDigest (by decide +kernel)
  have possible : mismatchDisk.tree.CanPlace tornAt := by
    decide +kernel
  rcases @exists_checked tornMachine rfl mismatchDisk tornAt tornArchive
      [0xbb] (by decide +kernel) (by decide +kernel) (by decide +kernel)
      (by decide +kernel) (by decide +kernel) possible (by decide +kernel)
      (by decide +kernel) hashes with
    ⟨received, sent, becomes⟩
  rw [isPath] at becomes
  have isDisk : (writeAll [tornArchive]
      (openedAt (ascii "/tmp/drop-file/receiver/g") tornAt
        ⟨mismatchDisk, none, none⟩)).disk = tornDisk := by
    rw [tornDisk, withFile, ← place_place possible [] _]
    rfl
  have computed :
      (unpackArchive tornMachine.zstd tornMachine.buffering
        tornMachine.workingDirectory
        (currentPath tornMachine.workingDirectory)
        (ascii "/tmp/drop-file/receiver/g") 3 tornDisk).thrown.any
          (fun thrown => thrown.2.tree.node
            [ascii "tmp", ascii "drop-file", ascii "receiver", ascii "s"] =
              some (.file [])) = true := by
    decide +kernel
  rcases (Option.any_eq_true _ _).1 computed with
    ⟨⟨error, between⟩, thrown, extracted⟩
  have throws := Outcome.eq_threw thrown
  rw [← isDisk] at throws
  have handles := @handleCompressedFile_plays_threw Unit tornMachine _
    (ascii "/tmp/drop-file/receiver/g") _ 3 error between throws
  exact ⟨error, _, becomes.trans (.of_plays handles _ _), rfl, rfl,
    of_decide_eq_true extracted⟩

/-- What was unpacked into the temporary directory goes with it. -/
theorem receiveFile_leaves_nothing_torn :
    ∃ (error : Exception) (moment after : Local Unit Receiving),
      Becomes (receiveFile tornMachine () 121 (ascii "a-b-1") 3)
        (starting mismatchDisk) (.failed error) moment ∧
      moment.state.disk.tree.node
        [ascii "tmp", ascii "drop-file", ascii "receiver", ascii "s"] =
          some (.file []) ∧
      Becomes (destroy tornMachine) moment (.done ()) after ∧
      Unchanged (InCurrentDirectory tornMachine mismatchDisk.tree)
        mismatchDisk.tree after.state.disk.tree := by
  rcases exists_torn with
    ⟨error, moment, fails, received, unpacking, extracted⟩
  rcases @exists_destroyed Unit _ tornMachine moment with
    ⟨after, destroyed⟩
  have entries :
      ∀ entry ∈ unpackedEntries tornMachine.zstd tornMachine.buffering
          tornMachine.workingDirectory
          (currentPath tornMachine.workingDirectory)
          (ascii "/tmp/drop-file/receiver/g") 3 tornArchive tornDisk,
        entry.1.isDirectory = false ∧
          entry.2.resolve tornMachine.workingDirectory
              (join (currentPath tornMachine.workingDirectory)
                entry.1.relativePath) =
            some [ascii "tmp", ascii "drop-file", ascii "receiver",
              ascii "s"] := by
    decide +kernel
  have spares : SparesCurrentDirectory tornMachine mismatchDisk () 3
      moment := by
    constructor
    · rintro location bytes isFile ⟨inside, -⟩
      cases received.symm.trans isFile
      revert inside
      decide
    · intro entryInfo tree comes
      have isEntry := entries _ (mem_of_comesTo unpacking received comes)
      rw [Spares, if_neg (by rw [isEntry.1]; exact Bool.false_ne_true)]
      rintro location resolved - ⟨inside, -⟩
      cases isEntry.2.symm.trans resolved
      revert inside
      decide
  have resolved : mismatchDisk.tree.resolve tornMachine.workingDirectory
      (receiverTmpDir tornMachine) =
        some [ascii "tmp", ascii "drop-file", ascii "receiver"] :=
    mismatch_tmpDir
  exact ⟨error, moment, after, fails, extracted, destroyed,
    receiveFile_leaves_nothing (by decide +kernel) resolved fails destroyed
      spares⟩

/-- A plain file whose hash does not match stays in the current directory. -/
theorem not_receiveFile_leaves_nothing :
    ∃ moment after : Local Unit Receiving,
      Becomes (receiveFile mismatchMachine () 121 (ascii "a-b-1") 3)
        (starting mismatchDisk) (.failed hashMismatch) moment ∧
      Becomes (destroy mismatchMachine) moment (.done ()) after ∧
      ¬ Unchanged (InCurrentDirectory mismatchMachine mismatchDisk.tree)
        mismatchDisk.tree after.state.disk.tree := by
  rcases @exists_mismatch false [ascii "d", ascii "x"] (by decide +kernel)
      (by decide +kernel) (by decide +kernel) (by decide +kernel) with
    ⟨moment, fails, isState⟩
  rcases @exists_destroyed Unit _ mismatchMachine moment with
    ⟨after, destroyed⟩
  refine ⟨moment, after, fails, destroyed, ?_⟩
  intro unchanged
  have inside : InCurrentDirectory mismatchMachine mismatchDisk.tree
      [ascii "d", ascii "x"] := by
    constructor
    · decide
    · rintro ⟨tmpDir, resolved, below⟩
      cases mismatch_tmpDir.symm.trans resolved
      revert below
      decide
  have same := unchanged _ inside
  have stillResolved : moment.state.disk.tree.resolve
      mismatchMachine.workingDirectory (receiverTmpDir mismatchMachine) =
        some [ascii "tmp", ascii "drop-file", ascii "receiver"] := by
    rw [isState]
    decide +kernel
  rw [tree_of_destroyed stillResolved destroyed, isState] at same
  revert same
  decide +kernel

end DropFile.Client.LeftBehind
