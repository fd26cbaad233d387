import DropFile.Client.ArchiveManager

/-!
# Unpacking while the archive is open

An entry of an archive may lead to the file of the archive itself, which is
then truncated and written while it is still being read.  The stream that
reads it goes on with what is in its buffer and then with what the file holds
by then.
-/

namespace DropFile.Client.LiveUnpacking

open DropFile.General.FuelledProgram
open DropFile.General.PathNames
open DropFile.General.Files
open DropFile.Streams
open DropFile.FileSystem
open DropFile.Client.EntryInfo
open DropFile.Client.Zstd
open DropFile.Client.ArchiveManager

/-! ## Reading what is being written -/

/-- What the buffers of the file streams hold back. -/
structure Buffering where
  /-- How far the buffer of an input stream has been filled. -/
  ahead : IStream → Nat
  /-- What the file of an output stream holds before it is closed. -/
  flushed : OStream → Bytes

/-- The stream when its file has changed to the content. -/
def Buffering.reread
    (buffering : Buffering) (content : Bytes) (stream : IStream) : IStream :=
  let buffered := stream.data.take (buffering.ahead stream)
  { stream with data := buffered ++ content.drop buffered.length }

/-- Every byte is read and written at once. -/
def unbuffered : Buffering :=
  ⟨IStream.position, OStream.data⟩

variable (lib : Library) (buffering : Buffering)
variable (workingDirectory : Location)

/-- The next read sees what the file that is written holds by then. -/
def rereadOutput : ZstdProgram Unit :=
  Program.modifyState fun streams =>
    { streams with
      input :=
        buffering.reread (buffering.flushed streams.output) streams.input }

/--
`zstd::decompress(decompressed_out_stream, compressed_in_stream,
compressed_length)` on a file that may have changed before each read.
-/
def decompress
    (changes : ZstdProgram Unit) (compressedLength fuel : Nat) :
    ZstdProgram Nat := do
  match lib.createDCtx with
  | none =>
      Program.raise (zstdException (ascii "ZSTD_createDCtx() failed!"))
  | some dctx =>
      let thisChunkSize := min lib.dStreamInSize compressedLength
      Program.loop
        (fun fuel current => do
          changes
          decompressChunk lib compressedLength fuel current)
        fuel (dctx, 0, thisChunkSize, 0)

/-- `zstd::decompress(decompressed_file, compressed_archive, length)`. -/
def decompressToArchive
    (location : Location) (compressedLength fuel : Nat)
    (compressedArchive : IStream) : DiskProgram IStream :=
  fun disk =>
    match decompress lib (rereadOutput buffering) compressedLength fuel
        ⟨compressedArchive, OStream.atEnd []⟩ with
    | .returned _ streams =>
        (do
          saveFile location streams.output.data
          pure (buffering.reread streams.output.data streams.input) :
            DiskProgram IStream) disk
    | .threw error streams =>
        (do
          saveFile location streams.output.data
          Program.raise error : DiskProgram IStream) disk
    | .outOfFuel => .outOfFuel

/-- `ArchiveManager::unpackFile`, for an archive that was opened there. -/
def unpackFile
    (opened : Option Location) (directory : PathName) (fuel : Nat)
    (compressedArchive : IStream) (entryInfo : FSEntryInfo) :
    DiskProgram IStream := do
  let path := join directory entryInfo.relativePath
  match ← openForWriting workingDirectory path with
  | none =>
      Program.raise (archiveManagerException
        (ascii "Failed to open output decompressed_file: " ++ path))
  | some location =>
      if opened = some location then
        decompressToArchive lib buffering location
          entryInfo.compressedLength fuel compressedArchive
      else
        decompressToFile lib location entryInfo.compressedLength fuel
          compressedArchive

/-! ## The loop -/

/-- A way to extract a file, with what is left of the archive behind it. -/
abbrev Extracting :=
  (fuel : Nat) → IStream → FSEntryInfo → DiskProgram IStream

/-- One pass of the loop of `unpackArchive`. -/
def unpackEntryWith
    (extracts : Extracting) (directory : PathName)
    (archiveSize fuel : Nat) (compressedArchive : IStream) :
    DiskProgram (IStream ⊕ Unit) := do
  let (remaining, compressedArchive) ←
    Program.onLocal (getRemainingBytes archiveSize) compressedArchive
  if remaining > 0 then
    let (entryInfo, compressedArchive) ←
      Program.onLocal (readFromStream archiveSize) compressedArchive
    if entryInfo.isDirectory then
      createDirectories workingDirectory
        (join directory entryInfo.relativePath)
      pure (.inl compressedArchive)
    else
      let compressedArchive ← extracts fuel compressedArchive entryInfo
      pure (.inl compressedArchive)
  else
    pure (.inr ())

/-- `unpackArchive`; how files are extracted may depend on the archive. -/
def unpackArchiveWith
    (extracts : Option Location → Extracting)
    (directory archivePath : PathName) (fuel : Nat) :
    DiskProgram Unit := do
  let disk ← Program.getState
  if !fileExists disk.tree workingDirectory directory then
    Program.raise (archiveManagerException
      (ascii "Directory that you try to unpack archive into (" ++
        archivePath ++ ascii ") does not exists!"))
  else if !fileExists disk.tree workingDirectory archivePath then
    Program.raise (archiveManagerException
      (ascii "Given archive " ++ archivePath ++ ascii " does not exists!"))
  else
    match regularFile disk.tree workingDirectory archivePath with
    | none => Program.raise (filesystemError "cannot get file size")
    | some archive =>
        Program.loop
          (unpackEntryWith workingDirectory
            (extracts (disk.tree.resolve workingDirectory archivePath))
            directory archive.length)
          fuel (IStream.ofBytes archive)

/-- `ArchiveManager{directory}.unpackArchive(archive_path)`. -/
def unpackArchive (directory : PathName) :
    (archivePath : PathName) → (fuel : Nat) → DiskProgram Unit :=
  unpackArchiveWith workingDirectory
    (fun opened =>
      unpackFile lib buffering workingDirectory opened directory)
    directory

/-- The entry that a pass with this part of the archive left reads. -/
structure ReadsEntry
    (archiveSize : Nat) (compressedArchive : IStream)
    (entryInfo : FSEntryInfo) (afterHeader : IStream) : Prop where
  more : ∃ remaining > 0,
    getRemainingBytes archiveSize compressedArchive =
      .returned remaining compressedArchive
  accepted : readFromStream archiveSize compressedArchive =
    .returned entryInfo afterHeader

/-- A pass of `unpackArchive` that begins with the stream and the disk. -/
def UnpackReached
    (directory archivePath : PathName) (fuel : Nat) (archive : Bytes)
    (disk : Disk) (compressedArchive : IStream) (now : Disk) : Prop :=
  ∃ passes left,
    PassReached
      (unpackEntryWith workingDirectory
        (unpackFile lib buffering workingDirectory
          (disk.tree.resolve workingDirectory archivePath) directory)
        directory archive.length)
      fuel (IStream.ofBytes archive) disk passes (left + 1)
      compressedArchive now

/-- An archive that lies nowhere is read as it was when it was opened. -/
theorem unpackFile_none (directory : PathName) :
    unpackFile lib buffering workingDirectory none directory =
      ArchiveManager.unpackFile lib workingDirectory directory := by
  funext fuel compressedArchive entryInfo disk
  apply Program.bind_congr rfl
  rintro (_ | location) later -
  · rfl
  · dsimp only
    rw [if_neg (by simp)]

theorem unpackArchive_eq (directory : PathName) :
    ArchiveManager.unpackArchive lib workingDirectory directory =
      unpackArchiveWith workingDirectory
        (fun _ => ArchiveManager.unpackFile lib workingDirectory directory)
        directory :=
  rfl

/-! ## Archives that no entry leads to -/

section Undisturbed

variable {workingDirectory} {directory : PathName} {disk : Disk}

/-- Asking for the position of a good stream does not change it. -/
theorem getRemainingBytes_returned
    {total remaining : Nat} {stream later : IStream}
    (measured : getRemainingBytes total stream = .returned remaining later) :
    later = stream := by
  rw [getRemainingBytes, Program.bind_run, Program.step_run,
    IStream.tellg] at measured
  split_ifs at measured
  · cases measured
    rfl
  · cases measured

/-- A file that is not the archive is extracted as if nothing changed. -/
theorem unpackFile_undisturbed
    {opened : Option Location} {entryInfo : FSEntryInfo}
    (apart : ∀ location,
      disk.tree.resolve workingDirectory
          (join directory entryInfo.relativePath) = some location →
        opened ≠ some location)
    (fuel : Nat) (compressedArchive : IStream) :
    unpackFile lib buffering workingDirectory opened directory fuel
        compressedArchive entryInfo disk =
      ArchiveManager.unpackFile lib workingDirectory directory fuel
        compressedArchive entryInfo disk := by
  apply Program.bind_congr rfl
  intro file later opens
  cases file with
  | none => rfl
  | some location =>
      rcases openForWriting_cases workingDirectory
          (join directory entryInfo.relativePath) disk with
        fails | ⟨other, resolved, -, succeeds⟩
      · cases fails.symm.trans opens
      · cases succeeds.symm.trans opens
        dsimp only
        rw [if_neg (apart location resolved)]

/-- Passes agree if they extract the file that is read in the same way. -/
theorem unpackEntryWith_congr
    {extracts others : Extracting} {archiveSize fuel : Nat}
    {compressedArchive : IStream}
    (same : ∀ entryInfo afterHeader,
      ReadsEntry archiveSize compressedArchive entryInfo afterHeader →
      entryInfo.isDirectory = false →
      extracts fuel afterHeader entryInfo disk =
        others fuel afterHeader entryInfo disk) :
    unpackEntryWith workingDirectory extracts directory archiveSize fuel
        compressedArchive disk =
      unpackEntryWith workingDirectory others directory archiveSize fuel
        compressedArchive disk := by
  apply Program.bind_congr rfl
  rintro ⟨remaining, atEntry⟩ _ measures
  rcases Program.onLocal_eq_returned measures with ⟨measured, rfl⟩
  have unmoved := getRemainingBytes_returned measured
  dsimp only
  split_ifs with more
  · apply Program.bind_congr rfl
    rintro ⟨entryInfo, afterHeader⟩ _ reads
    rcases Program.onLocal_eq_returned reads with ⟨accepted, rfl⟩
    rw [unmoved] at accepted measured
    dsimp only
    split_ifs with isDirectory
    · rfl
    · rw [Bool.not_eq_true] at isDirectory
      apply Program.bind_congr
      · exact same entryInfo afterHeader ⟨⟨remaining, more, measured⟩,
          accepted⟩ isDirectory
      · intro _ _ _
        rfl
  · rfl

/-- No file that is extracted is the archive. -/
def Undisturbed (lib : Library) (workingDirectory : Location)
    (directory archivePath : PathName) (fuel : Nat) (disk : Disk) : Prop :=
  ∀ archive passes left compressedArchive now entryInfo afterHeader location,
    regularFile disk.tree workingDirectory archivePath = some archive →
    PassReached (unpackEntry lib workingDirectory directory archive.length)
      fuel (IStream.ofBytes archive) disk passes left compressedArchive
      now →
    ReadsEntry archive.length compressedArchive entryInfo afterHeader →
    entryInfo.isDirectory = false →
    now.tree.resolve workingDirectory
      (join directory entryInfo.relativePath) = some location →
    disk.tree.resolve workingDirectory archivePath ≠ some location

/-- Such an archive is unpacked as it was when it was opened. -/
theorem unpackArchive_undisturbed
    {archivePath : PathName} {fuel : Nat}
    (undisturbed : Undisturbed lib workingDirectory directory archivePath
      fuel disk) :
    unpackArchive lib buffering workingDirectory directory archivePath fuel
        disk =
      ArchiveManager.unpackArchive lib workingDirectory directory
        archivePath fuel disk := by
  rw [unpackArchive_eq]
  apply Program.bind_congr rfl
  intro _ _ gets
  cases gets
  dsimp only
  split_ifs
  · rfl
  · rfl
  · cases isArchive :
        regularFile disk.tree workingDirectory archivePath with
    | none => rfl
    | some archive =>
        apply Program.loop_congr_of_reached
        intro passes left compressedArchive now reached
        apply unpackEntryWith_congr
        intro entryInfo afterHeader reads isFile
        apply unpackFile_undisturbed
        intro location
        exact undisturbed archive passes (left + 1) compressedArchive now
          entryInfo afterHeader location isArchive reached reads isFile

end Undisturbed

end DropFile.Client.LiveUnpacking
