import DropFile.Client.EntryInfo
import DropFile.Client.Zstd
import DropFile.FileSystem

/-!
# `ArchiveManager`

Packing a directory into an archive and unpacking an archive into a
directory.  The order in which `directory_iterator` lists a directory is a
parameter.  An archive that is being unpacked is read as it was when the
unpacking started, and a file that is packed as it was when it was opened.
-/

namespace DropFile.Client.ArchiveManager

open DropFile.General.FuelledProgram
open DropFile.General.PathNames
open DropFile.General.Files
open DropFile.Streams
open DropFile.FileSystem
open DropFile.Client.EntryInfo
open DropFile.Client.Zstd

def archiveManagerException (what : Bytes) : Exception :=
  ⟨.archiveManager, what⟩

variable (lib : Library) (workingDirectory : Location)

/-! ## Unpacking -/

/--
`zstd::decompress(decompressed_file, compressed_archive, length)`.  What was
written before an exception stays in the file.
-/
def decompressToFile
    (location : Location) (compressedLength fuel : Nat)
    (compressedArchive : IStream) : DiskProgram IStream :=
  fun disk =>
    match decompress lib compressedLength fuel
        ⟨compressedArchive, OStream.atEnd []⟩ with
    | .returned _ streams =>
        (do
          saveFile location streams.output.data
          pure streams.input : DiskProgram IStream) disk
    | .threw error streams =>
        (do
          saveFile location streams.output.data
          Program.raise error : DiskProgram IStream) disk
    | .outOfFuel => .outOfFuel

/-- `ArchiveManager::unpackFile`. -/
def unpackFile
    (directory : PathName) (fuel : Nat) (compressedArchive : IStream)
    (entryInfo : FSEntryInfo) : DiskProgram IStream := do
  let path := join directory entryInfo.relativePath
  match ← openForWriting workingDirectory path with
  | none =>
      Program.raise (archiveManagerException
        (ascii "Failed to open output decompressed_file: " ++ path))
  | some location =>
      decompressToFile lib location entryInfo.compressedLength fuel
        compressedArchive

/-- One pass of the loop of `unpackArchive`. -/
def unpackEntry
    (directory : PathName) (archiveSize fuel : Nat)
    (compressedArchive : IStream) : DiskProgram (IStream ⊕ Unit) := do
  let (remaining, compressedArchive) ←
    Program.onLocal (getRemainingBytes archiveSize) compressedArchive
  if remaining > 0 then
    let (entryInfo, compressedArchive) ←
      Program.onLocal (readFromStream archiveSize) compressedArchive
    if entryInfo.isDirectory then
      createDirectories workingDirectory
        (join directory entryInfo.relativePath)
      pure (.inl compressedArchive)
    else
      let compressedArchive ←
        unpackFile lib workingDirectory directory fuel compressedArchive
          entryInfo
      pure (.inl compressedArchive)
  else
    pure (.inr ())

/-- `ArchiveManager{directory}.unpackArchive(archive_path)`. -/
def unpackArchive
    (directory archivePath : PathName) (fuel : Nat) :
    DiskProgram Unit := do
  let disk ← Program.getState
  if !fileExists disk.tree workingDirectory directory then
    Program.raise (archiveManagerException
      (ascii "Directory that you try to unpack archive into (" ++
        archivePath ++ ascii ") does not exists!"))
  else if !fileExists disk.tree workingDirectory archivePath then
    Program.raise (archiveManagerException
      (ascii "Given archive " ++ archivePath ++ ascii " does not exists!"))
  else
    match regularFile disk.tree workingDirectory archivePath with
    | none => Program.raise (filesystemError "cannot get file size")
    | some archive =>
        Program.loop
          (unpackEntry lib workingDirectory directory archive.length) fuel
          (IStream.ofBytes archive)

/-! ## Packing -/

/-- The disk and the archive that is being written. -/
structure Packing where
  disk : Disk
  newArchive : OStream

abbrev PackProgram (α : Type) := Program Exception Packing α

def onArchive {α : Type} (program : Program Exception OStream α) :
    PackProgram α :=
  Program.focus Packing.newArchive
    (fun newArchive packing => { packing with newArchive }) program

/-- `zstd::compress(input_file, compressed_archive, …)`. -/
def compressFile (content : Bytes) (fuel : Nat) : PackProgram Nat :=
  Program.focus
    (fun packing => ⟨IStream.ofBytes content, packing.newArchive⟩)
    (fun streams packing => { packing with newArchive := streams.output })
    (compress lib fuel)

/-- `ArchiveManager::addDirectory`. -/
def addDirectory (relativePath : PathName) : PackProgram Unit := do
  let info ← construct true relativePath
  let _ ← onArchive (writeToStream info)

/-- `ArchiveManager::addFile`. -/
def addFile
    (fuel : Nat) (filePath relativePath : PathName) :
    PackProgram Unit := do
  let fileInfo ← construct false relativePath
  let position ← onArchive (writeToStream fileInfo)
  let packing ← Program.getState
  match regularFile packing.disk.tree workingDirectory filePath with
  | none =>
      Program.raise (archiveManagerException
        (ascii "Failed to open input file: " ++ filePath))
  | some content =>
      let bytesWritten ← compressFile lib content fuel
      onArchive (writeCompressedLength position bytesWritten)

variable (listing : Location → List PathName)

/-- The names that `directory_iterator(directory)` goes through. -/
def directoryEntries (directory : PathName) :
    PackProgram (List PathName) := do
  let packing ← Program.getState
  match packing.disk.tree.resolve workingDirectory directory with
  | none =>
      Program.raise (filesystemError "directory iterator cannot open")
  | some location =>
      if packing.disk.tree.node location = some .directory then
        pure (listing location)
      else
        Program.raise (filesystemError "directory iterator cannot open")

/-- One entry of the directory that is being packed. -/
def packEntry
    (packDirectory : PathName → PathName → PackProgram Unit)
    (fuel : Nat) (dirToCompress relativePath name : PathName) :
    PackProgram Unit := do
  let current := join dirToCompress name
  let newRelative := join relativePath (filename current)
  let packing ← Program.getState
  if isDirectory packing.disk.tree workingDirectory current then
    packDirectory current newRelative
  else if (regularFile packing.disk.tree workingDirectory current).isSome
  then
    addFile lib workingDirectory fuel current newRelative
  else
    pure ()

/-- `ArchiveManager::packDirectory`, with fuel for its depth. -/
def packDirectory :
    (fuel : Nat) → (dirToCompress relativePath : PathName) →
      PackProgram Unit
  | 0, _, _ => fun _ => .outOfFuel
  | fuel + 1, dirToCompress, relativePath => do
      addDirectory relativePath
      let entries ← directoryEntries workingDirectory listing dirToCompress
      Program.forEach
        (packEntry lib workingDirectory (packDirectory fuel) fuel
          dirToCompress relativePath)
        entries

/-- What was written to the archive reaches the disk when it is closed. -/
def closeArchive (opened : Option Location) (newArchive : OStream) :
    DiskProgram Unit :=
  match opened with
  | none => pure ()
  | some location => saveFile location newArchive.data

/--
The part of `createArchive` in which the archive is open.  It is closed on
every way out, so what was written reaches the disk; nothing does if the file
could not be opened, which the function does not ask.
-/
def writeArchive
    (directory : PathName) (opened : Option Location) (fuel : Nat) :
    DiskProgram Unit :=
  fun disk =>
    match packDirectory lib workingDirectory listing fuel directory
        (filename directory) ⟨disk, OStream.atEnd []⟩ with
    | .returned _ packing =>
        closeArchive opened packing.newArchive packing.disk
    | .threw error packing =>
        (do
          closeArchive opened packing.newArchive
          Program.raise error : DiskProgram Unit) packing.disk
    | .outOfFuel => .outOfFuel

/-- `ArchiveManager{directory}.createArchive(new_archive_path)`. -/
def createArchive
    (directory newArchivePath : PathName) (fuel : Nat) :
    DiskProgram Unit := do
  let disk ← Program.getState
  if fileExists disk.tree workingDirectory newArchivePath then
    Program.raise (archiveManagerException
      (ascii "File that you try to unpackArchive to (" ++ newArchivePath ++
        ascii ") already exists!"))
  else
    let opened ← openForWriting workingDirectory newArchivePath
    writeArchive lib workingDirectory listing directory opened fuel

/-! ## More fuel -/

theorem addFile_grows (filePath relativePath : PathName) :
    Program.Grows fun fuel =>
      addFile lib workingDirectory fuel filePath relativePath := by
  intro fuel more ordered
  refine Program.Approximates.bind (Program.Approximates.refl _)
    fun fileInfo => Program.Approximates.bind
      (Program.Approximates.refl _) fun position =>
        Program.Approximates.bind (Program.Approximates.refl _)
          fun packing => ?_
  split
  · exact Program.Approximates.refl _
  · exact Program.Approximates.bind
      (Program.Approximates.focus
        (compress_grows lib fuel more ordered))
      fun _ => Program.Approximates.refl _

theorem packDirectory_grows (dirToCompress relativePath : PathName) :
    Program.Grows fun fuel =>
      packDirectory lib workingDirectory listing fuel dirToCompress
        relativePath := by
  intro fuel
  induction fuel generalizing dirToCompress relativePath with
  | zero => exact fun _ _ _ => Or.inl rfl
  | succ fuel inductionHypothesis =>
      intro more ordered
      obtain ⟨more, rfl⟩ : ∃ previous, more = previous + 1 :=
        ⟨more - 1, by omega⟩
      have shorter : fuel ≤ more := Nat.le_of_succ_le_succ ordered
      refine Program.Approximates.bind (Program.Approximates.refl _)
        fun _ => Program.Approximates.bind
          (Program.Approximates.refl _) fun entries =>
            Program.Approximates.forEach (fun name => ?_) entries
      refine Program.Approximates.bind (Program.Approximates.refl _)
        fun packing => ?_
      split_ifs
      · exact inductionHypothesis _ _ more shorter
      · exact addFile_grows lib workingDirectory _ _ fuel more shorter
      · exact Program.Approximates.refl _

theorem createArchive_grows (directory newArchivePath : PathName) :
    Program.Grows
      (createArchive lib workingDirectory listing directory
        newArchivePath) := by
  intro fuel more ordered
  refine Program.Approximates.bind (Program.Approximates.refl _)
    fun disk => ?_
  split_ifs
  · exact Program.Approximates.refl _
  · refine Program.Approximates.bind (Program.Approximates.refl _)
      fun opened disk => ?_
    have packs := packDirectory_grows lib workingDirectory listing
      directory (filename directory) fuel more ordered
      ⟨disk, OStream.atEnd []⟩
    dsimp only at packs
    rcases packs with out | same
    · exact Or.inl (by rw [writeArchive, out])
    · exact Or.inr (by rw [writeArchive, writeArchive, same])

end DropFile.Client.ArchiveManager
