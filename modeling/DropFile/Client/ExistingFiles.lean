import DropFile.Client.AnnouncedRuns
import DropFile.Client.ReceivingPhases
import DropFile.Client.UnpackedPaths

/-!
# Files that were there before

What `receiveFile` changes on the disk: it fills a place that was free, and
then an archive opens whatever its entries lead to.  A file that was there
before is safe as long as no entry leads to it.
-/

namespace DropFile.Client.ExistingFiles

open DropFile.General.FuelledProgram
open DropFile.General.Processes.Process
open DropFile.General.PathNames
open DropFile.General.Files
open DropFile.General.Files.FileTree
open DropFile.Streams
open DropFile.FileSystem
open DropFile.Utils
open DropFile.Client.EntryInfo
open DropFile.Client.Zstd
open DropFile.Client.LiveUnpacking
open DropFile.Client.UnpackedPaths
open DropFile.Client.DropFileReceiveClient
open DropFile.Client.Announcements
open DropFile.Client.ReceivedFiles
open DropFile.Client.ReceivingPhases
open DropFile.Client.AnnouncedRuns

/-! ## Locations that stay as they are -/

/-- The kept locations hold what they held before. -/
def Unchanged (kept : Location → Prop) (before after : FileTree) : Prop :=
  ∀ location, kept location → after.node location = before.node location

section Trees

variable {kept : Location → Prop} {before middle after : FileTree}

theorem Unchanged.refl (tree : FileTree) : Unchanged kept tree tree :=
  fun _ _ => rfl

theorem Unchanged.trans
    (first : Unchanged kept before middle)
    (second : Unchanged kept middle after) :
    Unchanged kept before after := by
  intro location isKept
  rw [second location isKept, first location isKept]

theorem unchanged_place
    {location : Location}
    (outside : ¬ kept location)
    (new : Node) :
    Unchanged kept before (before.place location new) := by
  intro other isKept
  apply node_place_other
  rintro rfl
  exact outside isKept

theorem unchanged_removeAll
    {location : Location}
    (outside : ∀ other, kept other → ¬ location <+: other) :
    Unchanged kept before (before.removeAll location) :=
  fun other isKept => node_removeAll_outside _ (outside other isKept)

end Trees

/-- The tree after creating the directories on a path. -/
def madeDirectories (tree : FileTree) (workingDirectory : Location)
    (path : PathName) : FileTree :=
  (tree.makeDirectories
    (if isAbsolute (native path) then [] else workingDirectory)
    (components (native path))).1

/-- An entry whose path leads to none of the kept locations. -/
def Spares (kept : Location → Prop) (workingDirectory : Location)
    (directory : PathName) (entryInfo : FSEntryInfo) (tree : FileTree) :
    Prop :=
  if entryInfo.isDirectory then
    Unchanged kept tree
      (madeDirectories tree workingDirectory
        (join directory entryInfo.relativePath))
  else
    ∀ location,
      tree.resolve workingDirectory
          (join directory entryInfo.relativePath) = some location →
      tree.CanPlace location →
      ¬ kept location

/-! ## Unpacking -/

variable (lib : Library) (buffering : Buffering)
variable {workingDirectory : Location} {kept : Location → Prop}

theorem createDirectories_unchanged
    {path : PathName} {disk : Disk}
    (made : Unchanged kept disk.tree
      (madeDirectories disk.tree workingDirectory path)) :
    Program.Satisfies (fun start => start = disk)
      (createDirectories workingDirectory path)
      (fun _ later => Unchanged kept disk.tree later.tree)
      (fun _ later => Unchanged kept disk.tree later.tree) := by
  rintro start rfl
  unfold createDirectories
  dsimp only
  by_cases empty : native path = []
  · rw [if_pos empty]
    exact Unchanged.refl _
  · rw [if_neg empty]
    rw [madeDirectories] at made
    generalize start.tree.makeDirectories _ _ = result at made ⊢
    rcases result with ⟨tree, _ | _⟩
    · exact made
    · exact made

section Removing

variable {path : PathName} {disk : Disk}

/-- Removing a path touches nothing that is not below it. -/
theorem removeAll_unchanged
    (outside : ∀ location,
      disk.tree.resolve workingDirectory path = some location →
      ∀ other, kept other → ¬ location <+: other) :
    Program.Satisfies (fun start => start = disk)
      (FileSystem.removeAll workingDirectory path)
      (fun _ later => Unchanged kept disk.tree later.tree)
      (fun _ later => Unchanged kept disk.tree later.tree) := by
  rintro start rfl
  rw [FileSystem.removeAll, Program.modifyState_run]
  cases resolved : start.tree.resolve workingDirectory path with
  | none => exact Unchanged.refl _
  | some location => exact unchanged_removeAll (outside location resolved)

theorem remove_unchanged
    (outside : ∀ location,
      disk.tree.resolve workingDirectory path = some location →
      ∀ other, kept other → ¬ location <+: other) :
    Program.Satisfies (fun start => start = disk)
      (remove workingDirectory path)
      (fun _ later => Unchanged kept disk.tree later.tree)
      (fun _ later => Unchanged kept disk.tree later.tree) := by
  rintro start rfl
  rw [remove, Program.bind_returned (Program.getState_run _)]
  rcases status start.tree workingDirectory path with
    _ | (_ | content)
  · exact removeAll_unchanged outside start rfl
  · exact Unchanged.refl _
  · exact removeAll_unchanged outside start rfl

end Removing

theorem unchanged_of_wroteFile
    {path : PathName} {disk later : Disk}
    (wrote : WroteFile workingDirectory path disk later)
    (outside : ∀ location,
      disk.tree.resolve workingDirectory path = some location →
      disk.tree.CanPlace location →
      ¬ kept location) :
    Unchanged kept disk.tree later.tree := by
  rcases wrote.placed with
    same | ⟨location, content, resolved, possible, placed⟩
  · rw [same]
    exact Unchanged.refl _
  · rw [placed]
    exact unchanged_place (outside location resolved possible) _

theorem unpackEntry_unchanged
    (opened : Option Location) {directory : PathName} {archiveSize : Nat}
    (fuel : Nat) {compressedArchive : IStream} {disk : Disk}
    (spares : ∀ entryInfo afterHeader,
      ReadsEntry archiveSize compressedArchive entryInfo afterHeader →
      Spares kept workingDirectory directory entryInfo disk.tree) :
    Program.Satisfies (fun start => start = disk)
      (unpackEntryWith workingDirectory
        (unpackFile lib buffering workingDirectory opened directory)
        directory archiveSize fuel compressedArchive)
      (fun _ later => Unchanged kept disk.tree later.tree)
      (fun _ later => Unchanged kept disk.tree later.tree) := by
  apply unpackEntryWith_satisfies fun later =>
    Unchanged kept disk.tree later.tree
  · exact Unchanged.refl _
  · intro entryInfo afterHeader reads isDirectory
    have made := spares entryInfo afterHeader reads
    rw [Spares, if_pos isDirectory] at made
    exact createDirectories_unchanged made
  · intro entryInfo afterHeader reads isFile
    have outside := spares entryInfo afterHeader reads
    rw [Spares, if_neg (by rw [isFile]; exact Bool.false_ne_true)]
      at outside
    apply (unpackFile_effect lib buffering opened directory fuel afterHeader
      entryInfo disk).weaken (fun _ same => same)
    · intro _ later wrote
      exact unchanged_of_wroteFile wrote outside
    · intro _ later wrote
      exact unchanged_of_wroteFile wrote outside

theorem unpackArchive_unchanged
    {directory archivePath : PathName} {fuel : Nat} {archive : Bytes}
    {disk : Disk}
    (isFile : regularFile disk.tree workingDirectory archivePath =
      some archive)
    (spares : ∀ compressedArchive now entryInfo afterHeader,
      UnpackReached lib buffering workingDirectory directory archivePath
        fuel archive disk compressedArchive now →
      Unchanged kept disk.tree now.tree →
      ReadsEntry archive.length compressedArchive entryInfo afterHeader →
      Spares kept workingDirectory directory entryInfo now.tree) :
    Program.Satisfies (fun start => start = disk)
      (unpackArchive lib buffering workingDirectory directory archivePath
        fuel)
      (fun _ later => Unchanged kept disk.tree later.tree)
      (fun _ later => Unchanged kept disk.tree later.tree) := by
  rintro start rfl
  rw [unpackArchive, unpackArchiveWith,
    Program.bind_returned (Program.getState_run _)]
  split_ifs
  · exact Unchanged.refl _
  · exact Unchanged.refl _
  · simp only [isFile]
    refine Program.Satisfies.loop_of_reached
      (fun _ later => Unchanged kept start.tree later.tree)
      (Unchanged.refl _) ?_ start rfl
    intro passes left compressedArchive now reached unchanged
    apply (unpackEntry_unchanged lib buffering _ left _).weaken
      (fun _ same => same)
    · rintro (rest | _) later kept
      · exact unchanged.trans kept
      · exact unchanged.trans kept
    · intro _ later kept
      exact unchanged.trans kept
    · intro entryInfo afterHeader
      exact spares compressedArchive now entryInfo afterHeader
        ⟨passes, left, reached⟩ unchanged

/-- No entry takes a directory away. -/
theorem spares_directories
    {before tree : FileTree} (workingDirectory : Location)
    (directory : PathName)
    (same : Unchanged
      (fun location => before.node location = some .directory) before tree)
    (entryInfo : FSEntryInfo) :
    Spares (fun location => before.node location = some .directory)
      workingDirectory directory entryInfo tree := by
  rw [Spares]
  split_ifs
  · intro location isDirectory
    apply makeDirectories_node
    rw [same location isDirectory, isDirectory]
    exact Option.some_ne_none _
  · intro location _ possible isDirectory
    apply possible.2.2.2
    rw [same location isDirectory, isDirectory]

/-- Unpacking keeps every directory. -/
theorem unpackArchive_directories
    {directory archivePath : PathName} {fuel : Nat} {archive : Bytes}
    {disk : Disk}
    (isFile : regularFile disk.tree workingDirectory archivePath =
      some archive) :
    Program.Satisfies (fun start => start = disk)
      (unpackArchive lib buffering workingDirectory directory archivePath
        fuel)
      (fun _ later => Unchanged
        (fun location => disk.tree.node location = some .directory)
        disk.tree later.tree)
      (fun _ later => Unchanged
        (fun location => disk.tree.node location = some .directory)
        disk.tree later.tree) := by
  apply unpackArchive_unchanged lib buffering isFile
  rintro compressedArchive now entryInfo afterHeader - same -
  exact spares_directories _ _ same entryInfo

/-! ## The whole run -/

variable {Peer : Type} {machine : Machine} {disk : Disk}

/-- Free places stay free of what was there before, also below them. -/
theorem not_prefix_of_present
    {tree : FileTree} {location other : Location}
    (free : tree.node location = none)
    (present : tree.node other ≠ none) :
    ¬ location <+: other := by
  rintro ⟨below, rfl⟩
  exact present (tree.node_below_none free below)

/-- The received file is where its path leads, as long as it is there. -/
theorem resolve_withFile
    {path : PathName} {location : Location}
    (resolved : disk.tree.resolve machine.workingDirectory path =
      some location)
    (possible : disk.tree.CanPlace location)
    (bytes : Bytes) :
    (withFile disk path location bytes).tree.resolve
      machine.workingDirectory path = some location :=
  resolve_place resolved possible bytes

theorem regularFile_withFile
    {path : PathName} {location : Location}
    (resolved : disk.tree.resolve machine.workingDirectory path =
      some location)
    (possible : disk.tree.CanPlace location)
    (bytes : Bytes) :
    regularFile (withFile disk path location bytes).tree
      machine.workingDirectory path = some bytes :=
  regularFile_place resolved possible bytes

section Handling

variable {path : PathName} {location : Location} {archive : Bytes}
variable {fuel : Nat}

/-- What the client has made of the disk when it handles the archive. -/
theorem unchanged_of_unpacking
    {now : Disk}
    (resolved : disk.tree.resolve machine.workingDirectory path =
      some location)
    (possible : disk.tree.CanPlace location)
    (outside : ∀ other, kept other → ¬ location <+: other)
    (spares : ∀ compressedArchive between entryInfo afterHeader,
      UnpackReached machine.zstd machine.buffering machine.workingDirectory
        (currentPath machine.workingDirectory) path fuel archive
        (withFile disk path location archive) compressedArchive between →
      Unchanged kept disk.tree between.tree →
      ReadsEntry archive.length compressedArchive entryInfo afterHeader →
      Spares kept machine.workingDirectory
        (currentPath machine.workingDirectory) entryInfo between.tree)
    (unpacking : Unpacking machine path fuel
      (withFile disk path location archive) now) :
    Unchanged kept disk.tree now.tree := by
  have placed : Unchanged kept disk.tree
      (withFile disk path location archive).tree :=
    unchanged_place (fun isKept => outside location isKept
      List.prefix_rfl) _
  have isFile := regularFile_withFile resolved possible archive
  have unpacks := @unpackArchive_unchanged machine.zstd
    machine.buffering machine.workingDirectory kept
    (currentPath machine.workingDirectory) path fuel archive
    (withFile disk path location archive) isFile
    (fun compressedArchive between entryInfo afterHeader reached same =>
      spares compressedArchive between entryInfo afterHeader reached
        (placed.trans same))
  cases unpacking with
  | starts => exact placed
  | unpacks left => exact placed.trans (unpacks.left rfl left)
  | removes returned left =>
      rename_i between
      have directories := (unpackArchive_directories machine.zstd
        machine.buffering isFile).returned rfl returned
      have stillResolved :
          between.tree.resolve machine.workingDirectory path =
            some location := by
        apply resolve_of_directories _ _
          (resolve_withFile resolved possible archive)
        intro other isDirectory
        rw [directories other isDirectory, isDirectory]
      have outsideArchive : ∀ place,
          between.tree.resolve machine.workingDirectory path =
            some place →
          ∀ other, kept other → ¬ place <+: other := by
        intro place leads
        cases stillResolved.symm.trans leads
        exact outside
      apply (placed.trans (unpacks.returned rfl returned)).trans
      exact (remove_unchanged outsideArchive).left rfl left

end Handling

variable {server : Peer} {codeWords : Bytes} {fuel : Nat}
variable {moment : Local Peer Receiving}

/-- The received archive is unpacked as far as this entry, in this tree. -/
def ComesTo (machine : Machine) (disk : Disk) (server : Peer) (fuel : Nat)
    (moment : Local Peer Receiving) (entryInfo : FSEntryInfo)
    (tree : FileTree) : Prop :=
  ∃ (announcement : Announcement machine disk.tree)
    (contents : List Bytes) (fileHash : Bytes) (location : Location)
    (compressedArchive afterHeader : IStream) (now : Disk),
    moment.state.unpacking = some announcement.path ∧
    Verified announcement server contents fileHash location moment ∧
    UnpackReached machine.zstd machine.buffering machine.workingDirectory
      (currentPath machine.workingDirectory) announcement.path fuel
      (announcement.expected contents)
      (withFile disk announcement.path location
        (announcement.expected contents)) compressedArchive now ∧
    ReadsEntry (announcement.expected contents).length compressedArchive
      entryInfo afterHeader ∧
    now.tree = tree

/-- It is one of the entries that the passes of the run read. -/
theorem mem_of_comesTo
    {path : PathName} {location : Location} {bytes : Bytes}
    {entryInfo : FSEntryInfo} {tree : FileTree}
    (unpacking : moment.state.unpacking = some path)
    (received : moment.state.receivedFile = some (location, bytes))
    (comes : ComesTo machine disk server fuel moment entryInfo tree) :
    (entryInfo, tree) ∈ unpackedEntries machine.zstd machine.buffering
      machine.workingDirectory (currentPath machine.workingDirectory) path
      fuel bytes (withFile disk path location bytes) := by
  rcases comes with
    ⟨announcement, contents, _, _, _, _, now, isPath, verified, reached,
      reads, rfl⟩
  cases unpacking.symm.trans isPath
  cases received.symm.trans verified.receivedFile
  exact mem_unpackedEntries _ _ reached reads

/-- The file that is received is not above a kept location. -/
def ReceivedAway (kept : Location → Prop) (disk : Disk)
    (receiving : Receiving) : Prop :=
  ∀ location, disk.tree.node location = none →
    (receiving.receivedFile = none ∨
      ∃ bytes, receiving.receivedFile = some (location, bytes)) →
    ∀ other, kept other → ¬ location <+: other

theorem unchanged_of_holds
    {announcement : Announcement machine disk.tree} {bytes : Bytes}
    {receiving : Receiving}
    (holds : Holds announcement bytes receiving)
    (away : ReceivedAway kept disk receiving) :
    Unchanged kept disk.tree receiving.disk.tree := by
  cases holds with
  | opened free resolved possible =>
      rename_i location
      apply unchanged_place
      intro isKept
      exact away location free (Or.inr ⟨bytes, rfl⟩) location isKept
        List.prefix_rfl
  | notOpened => exact Unchanged.refl _

/-- What the run can have changed at any moment. -/
theorem unchanged_of_phase
    (phase : Phase machine disk server codeWords fuel moment)
    (away : ReceivedAway kept disk moment.state)
    (spares : ∀ entryInfo tree,
      ComesTo machine disk server fuel moment entryInfo tree →
      Unchanged kept disk.tree tree →
      Spares kept machine.workingDirectory
        (currentPath machine.workingDirectory) entryInfo tree) :
    Unchanged kept disk.tree moment.state.disk.tree := by
  cases phase with
  | silent state | requests dumped state | declines dumped state
  | agrees dumped state =>
      rw [state]
      exact Unchanged.refl _
  | opens dumped fits received holds state sent =>
      rename_i holding announcement
      rw [state] at away ⊢
      apply unchanged_of_holds holds
      rintro location free - other isKept
      exact away location free (Or.inl rfl) other isKept
  | fills dumped fits contentsFit received holds =>
      exact unchanged_of_holds holds away
  | refuses dumped fits contentsFit received oversized holds =>
      exact unchanged_of_holds holds away
  | finishes dumped fits contentsFit arrived holds =>
      exact unchanged_of_holds holds away
  | unpacks dumped fits contentsFit verified isCompressed free possible
      unpacks unpacking sent =>
      rename_i fileHash announcement contents location
      apply unchanged_of_unpacking verified.resolved possible _ _ unpacking
      · exact away location free (Or.inr ⟨_, verified.receivedFile⟩)
      · intro compressedArchive now entryInfo afterHeader reached same read
        apply spares entryInfo now.tree _ same
        exact ⟨announcement, contents, fileHash, location,
          compressedArchive, afterHeader, now, unpacks, verified, reached,
          read, rfl⟩

/-! ## Files outside of the temporary directory -/

/-- The receiver's temporary directory and what is in it. -/
def InReceiverTmpDir (machine : Machine) (tree : FileTree)
    (location : Location) : Prop :=
  ∃ tmpDir,
    tree.resolve machine.workingDirectory (receiverTmpDir machine) =
      some tmpDir ∧
    tmpDir <+: location

/-- A regular file outside of the temporary directory. -/
def IsOutsideFile (machine : Machine) (tree : FileTree)
    (location : Location) : Prop :=
  ¬ InReceiverTmpDir machine tree location ∧
    ∃ content, tree.node location = some (.file content)

/-- The archive comes to an entry that opens this location for writing. -/
def Opens (machine : Machine) (disk : Disk) (server : Peer) (fuel : Nat)
    (moment : Local Peer Receiving) (location : Location) : Prop :=
  ∃ entryInfo tree,
    ComesTo machine disk server fuel moment entryInfo tree ∧
    entryInfo.isDirectory = false ∧
    tree.resolve machine.workingDirectory
        (join (currentPath machine.workingDirectory)
          entryInfo.relativePath) = some location ∧
    tree.CanPlace location

variable [DecidableEq Peer]

/--
As long as the archive opens no regular file that was there before outside of
the temporary directory, all of these files keep their content.
-/
theorem receiveFile_protects
    (machine : Machine) (server : Peer) (confirmation : UInt8)
    (codeWords : Bytes) (fuel : Nat) (disk : Disk)
    {later : ReceiverProcess Peer Unit} {moment : Local Peer Receiving}
    (becomes : Becomes
      (receiveFile machine server confirmation codeWords fuel)
      (starting disk) later moment)
    (opensNone : ∀ location,
      Opens machine disk server fuel moment location →
      ¬ IsOutsideFile machine disk.tree location) :
    ∀ location content,
      ¬ InReceiverTmpDir machine disk.tree location →
      disk.tree.node location = some (.file content) →
      moment.state.disk.tree.node location = some (.file content) := by
  intro location content outside isFile
  have phase := phase_of_becomes becomes
  have unchanged : Unchanged (IsOutsideFile machine disk.tree) disk.tree
      moment.state.disk.tree := by
    apply unchanged_of_phase phase
    · rintro free isFree - other ⟨-, content, isFile⟩
      apply not_prefix_of_present isFree
      rw [isFile]
      exact Option.some_ne_none _
    · intro entryInfo tree comes same
      rw [Spares]
      split_ifs with isDirectory
      · rintro other ⟨isOutside, content, isFile⟩
        apply makeDirectories_node
        rw [same other ⟨isOutside, content, isFile⟩, isFile]
        exact Option.some_ne_none _
      · intro other resolved possible
        apply opensNone
        exact ⟨entryInfo, tree, comes, Bool.eq_false_iff.2 isDirectory,
          resolved, possible⟩
  rw [unchanged location ⟨outside, content, isFile⟩, isFile]

/-! ## An archive that overwrites a file -/

/-- An archive with an empty file `f`. -/
def foreignArchive : Bytes :=
  header ⟨false, ascii "f", 0⟩

/-- The SHA-256 digest of the archive. -/
def foreignDigest : Bytes :=
  [0xb3, 0x40, 0x6c, 0xa3, 0x3b, 0x76, 0x89, 0x80, 0xdc, 0xbf, 0x54, 0xed,
    0xca, 0xca, 0x35, 0x33, 0xf5, 0x76, 0x16, 0x86, 0xf9, 0x39, 0x94, 0xe5,
    0xa0, 0xa6, 0x70, 0x0d, 0x54, 0xf4, 0x56, 0x27]

/-- A machine with room for the archive. -/
def foreignMachine : Machine where
  zstd := ZstdRoundTrip.holdingBack Nat.one_pos Nat.one_pos
  library := FlatJson.flatLibrary
  digest := knownDigest foreignArchive foreignDigest
  workingDirectory := []
  temporaryDirectory := ascii "/tmp"
  freeSpace _ := 100
  buffering := LiveUnpacking.unbuffered

/-- The temporary directory of the receiver and a file `f`. -/
def occupiedTree : FileTree :=
  FileTree.empty
    |>.place [ascii "tmp"] .directory
    |>.place [ascii "tmp", ascii "drop-file"] .directory
    |>.place [ascii "tmp", ascii "drop-file", ascii "receiver"] .directory
    |>.place [ascii "f"] (.file (ascii "old"))

theorem outside_occupiedTree :
    ¬ InReceiverTmpDir foreignMachine occupiedTree [ascii "f"] := by
  rintro ⟨tmpDir, resolved, below⟩
  have isTmpDir : occupiedTree.resolve foreignMachine.workingDirectory
      (receiverTmpDir foreignMachine) =
        some [ascii "tmp", ascii "drop-file", ascii "receiver"] := by
    decide +kernel
  cases isTmpDir.symm.trans resolved
  revert below
  decide +kernel

/-- Where the archive is received. -/
def receivedAt : Location :=
  [ascii "tmp", ascii "drop-file", ascii "receiver", ascii "g"]

/-- The archive is announced as `g`, unpacked and removed. -/
theorem exists_unpacked
    {tree : FileTree} {between last : Disk}
    (isFree : fileExists tree [] (ascii "g") = false ∧
      tree.node receivedAt = none)
    (resolved : tree.resolve [] (ascii "/tmp/drop-file/receiver/g") =
      some receivedAt)
    (possible : tree.CanPlace receivedAt)
    (unpacked : unpackArchive foreignMachine.zstd foreignMachine.buffering
      [] (currentPath []) (ascii "/tmp/drop-file/receiver/g") 3
      (withFile ⟨tree, []⟩ (ascii "/tmp/drop-file/receiver/g") receivedAt
        foreignArchive) = .returned () between)
    (removed : remove [] (ascii "/tmp/drop-file/receiver/g") between =
      .returned () last) :
    ∃ moment : Local Unit Receiving,
      Becomes (receiveFile foreignMachine () 121 (ascii "a-b-1") 3)
        (starting ⟨tree, []⟩) (.done ()) moment ∧
      moment.state = ⟨last, some (receivedAt, foreignArchive),
        some (ascii "/tmp/drop-file/receiver/g")⟩ := by
  have hashes : HasHash foreignMachine.digest foreignArchive
      (binaryToHumanReadable foreignDigest) :=
    hasHash_knownDigest (by decide +kernel)
  have isPath : receivePath foreignMachine true (ascii "g") =
      ascii "/tmp/drop-file/receiver/g" := by
    decide +kernel
  rcases @exists_checked foreignMachine rfl ⟨tree, []⟩ receivedAt
      foreignArchive foreignDigest isFree.1 (by decide +kernel)
      (by decide +kernel) isFree.2 (by rw [isPath]; exact resolved) possible
      (by decide +kernel) (by decide +kernel) hashes with
    ⟨received, sent, becomes⟩
  rw [isPath] at becomes
  have isDisk : (writeAll [foreignArchive]
      (openedAt (ascii "/tmp/drop-file/receiver/g") receivedAt
        ⟨⟨tree, []⟩, none, none⟩)).disk =
      withFile ⟨tree, []⟩ (ascii "/tmp/drop-file/receiver/g") receivedAt
        foreignArchive := by
    rw [withFile, ← place_place possible [] _]
    rfl
  rw [← isDisk] at unpacked
  have handles := @handleCompressedFile_plays Unit foreignMachine _
    (ascii "/tmp/drop-file/receiver/g") _ 3 between last unpacked removed
  exact ⟨_, becomes.trans (.of_plays handles _ _), rfl⟩

/-- What unpacking and removing the archive makes of the disk. -/
def unpackedFrom (tree : FileTree) : Outcome Exception Disk Unit :=
  (do
    unpackArchive foreignMachine.zstd foreignMachine.buffering []
      (currentPath []) (ascii "/tmp/drop-file/receiver/g") 3
    remove [] (ascii "/tmp/drop-file/receiver/g") : DiskProgram Unit)
      (withFile ⟨tree, []⟩ (ascii "/tmp/drop-file/receiver/g") receivedAt
        foreignArchive)

/-- The archive overwrites `f`. -/
theorem exists_overwritten :
    ∃ moment : Local Unit Receiving,
      Becomes (receiveFile foreignMachine () 121 (ascii "a-b-1") 3)
        (starting ⟨occupiedTree, []⟩) (.done ()) moment ∧
      moment.state.disk.tree.node [ascii "f"] = some (.file []) := by
  have computed :
      (unpackedFrom occupiedTree).finalState.any (fun later =>
        later.tree.node [ascii "f"] = some (.file [])) = true := by
    decide +kernel
  rcases (Option.any_eq_true _ _).1 computed with
    ⟨last, final, overwritten⟩
  rcases Program.bind_eq_returned (Outcome.eq_returned final) with
    ⟨_, between, unpacked, removed⟩
  rcases exists_unpacked (by decide +kernel) (by decide +kernel)
      (by decide +kernel) unpacked removed with
    ⟨moment, becomes, state⟩
  refine ⟨moment, becomes, ?_⟩
  rw [state]
  exact of_decide_eq_true overwritten

/-- A file `o` instead of the file `f`. -/
def sparedTree : FileTree :=
  FileTree.empty
    |>.place [ascii "tmp"] .directory
    |>.place [ascii "tmp", ascii "drop-file"] .directory
    |>.place [ascii "tmp", ascii "drop-file", ascii "receiver"] .directory
    |>.place [ascii "o"] (.file (ascii "old"))

/-- The archive puts `f` where nothing was, and `o` is safe. -/
theorem receiveFile_protects_spared :
    ∃ moment : Local Unit Receiving,
      Becomes (receiveFile foreignMachine () 121 (ascii "a-b-1") 3)
        (starting ⟨sparedTree, []⟩) (.done ()) moment ∧
      moment.state.disk.tree.node [ascii "f"] = some (.file []) ∧
      moment.state.disk.tree.node [ascii "o"] =
        some (.file (ascii "old")) := by
  have computed :
      (unpackedFrom sparedTree).finalState.any (fun later =>
        later.tree.node [ascii "f"] = some (.file [])) = true := by
    decide +kernel
  rcases (Option.any_eq_true _ _).1 computed with ⟨last, final, placed⟩
  rcases Program.bind_eq_returned (Outcome.eq_returned final) with
    ⟨_, between, unpacked, removed⟩
  rcases exists_unpacked (by decide +kernel) (by decide +kernel)
      (by decide +kernel) unpacked removed with
    ⟨moment, becomes, state⟩
  refine ⟨moment, becomes, ?_, ?_⟩
  · rw [state]
    exact of_decide_eq_true placed
  · apply receiveFile_protects foreignMachine () 121 _ 3 _ becomes _
      [ascii "o"] (ascii "old") _ (by decide +kernel)
    · have free :
          ∀ entry ∈ unpackedEntries foreignMachine.zstd
              foreignMachine.buffering [] (currentPath [])
              (ascii "/tmp/drop-file/receiver/g") 3 foreignArchive
              (withFile ⟨sparedTree, []⟩
                (ascii "/tmp/drop-file/receiver/g") receivedAt
                foreignArchive),
            entry.2.resolve []
                (join (currentPath []) entry.1.relativePath) =
              some [ascii "f"] := by
        decide +kernel
      rintro location ⟨entryInfo, tree, comes, -, resolved, -⟩
      have isEntry := mem_of_comesTo (by rw [state]) (by rw [state]) comes
      cases (free _ isEntry).symm.trans resolved
      rintro ⟨-, content, isFile⟩
      have missing : sparedTree.node [ascii "f"] = none := by
        decide +kernel
      cases missing.symm.trans isFile
    · rintro ⟨tmpDir, resolved, below⟩
      have isTmpDir : sparedTree.resolve foreignMachine.workingDirectory
          (receiverTmpDir foreignMachine) =
            some [ascii "tmp", ascii "drop-file", ascii "receiver"] := by
        decide +kernel
      cases isTmpDir.symm.trans resolved
      revert below
      decide +kernel

/-- Not every file that was there before keeps its content. -/
theorem not_receiveFile_protects :
    ¬ ∀ (machine : Machine) (confirmation : UInt8) (codeWords : Bytes)
        (fuel : Nat) (disk : Disk) (moment : Local Unit Receiving),
      Becomes (receiveFile machine () confirmation codeWords fuel)
        (starting disk) (.done ()) moment →
      ∀ location content,
        ¬ InReceiverTmpDir machine disk.tree location →
        disk.tree.node location = some (.file content) →
        moment.state.disk.tree.node location =
          some (.file content) := by
  intro always
  rcases exists_overwritten with ⟨moment, becomes, overwritten⟩
  have kept := always foreignMachine 121 _ 3 _ moment becomes [ascii "f"]
    (ascii "old") outside_occupiedTree (by decide +kernel)
  rw [overwritten] at kept
  revert kept
  decide

end DropFile.Client.ExistingFiles
