import DropFile.Client.ArchiveManager

/-!
# What an archive is made of

For every tree and every library: a `packDirectory` that returns has written a
sequence of entries, and the entries tell which way it went through the tree.
Nothing is assumed about the names in the tree or about the frames that the
library gives out.
-/

namespace DropFile.Client.PackedEntries

open DropFile.General.FuelledProgram
open DropFile.General.PathNames
open DropFile.General.Files
open DropFile.Streams
open DropFile.FileSystem
open DropFile.Client.EntryInfo
open DropFile.Client.Zstd
open DropFile.Client.ArchiveManager

/-! ## Entries -/

/-- A header with the payload behind it. -/
structure Entry where
  info : FSEntryInfo
  payload : Bytes

def Entry.bytes (entry : Entry) : Bytes :=
  header entry.info ++ entry.payload

def entriesBytes (entries : List Entry) : Bytes :=
  entries.flatMap Entry.bytes

@[simp]
theorem entriesBytes_nil : entriesBytes [] = [] :=
  rfl

@[simp]
theorem entriesBytes_cons (entry : Entry) (entries : List Entry) :
    entriesBytes (entry :: entries) = entry.bytes ++ entriesBytes entries :=
  List.flatMap_cons

@[simp]
theorem entriesBytes_append (first second : List Entry) :
    entriesBytes (first ++ second) =
      entriesBytes first ++ entriesBytes second :=
  List.flatMap_append

/-- The entry that `addDirectory` writes. -/
def directoryEntry (relativePath : PathName) : Entry :=
  ⟨⟨true, relativePath, 0⟩, []⟩

/-- The entry that `addFile` writes. -/
def fileEntry (relativePath : PathName) (payload : Bytes) : Entry :=
  ⟨⟨false, relativePath, payload.length⟩, payload⟩

/-! ## Where path names lead -/

/-- A way to find the location that a path name leads to in a tree. -/
abbrev Resolving := FileTree → PathName → Option Location

/-- From a working directory, in a tree without links. -/
def withoutLinks (workingDirectory : Location) : Resolving :=
  fun tree => tree.resolve workingDirectory

section Resolving

variable (leads : Resolving) (tree : FileTree) (path : PathName)

/-- `status` with any way to resolve a path name. -/
def statusWith : Option Node :=
  (leads tree path).bind tree.node

def fileExistsWith : Bool :=
  (statusWith leads tree path).isSome

def isDirectoryWith : Bool :=
  statusWith leads tree path = some .directory

def regularFileWith : Option Bytes :=
  match statusWith leads tree path with
  | some (.file content) => some content
  | _ => none

end Resolving

/-! ## The way through the tree -/

/-- A directory to be packed, or what is left of its listing. -/
inductive Work where
  | directory (dirToCompress relativePath : PathName)
  | entries (dirToCompress relativePath : PathName)
      (names : List PathName)

/-- The entries that are written for some work. -/
inductive Packed (leads : Resolving) (tree : FileTree)
    (listing : Location → List PathName) : Work → List Entry → Prop where
  | directory {dirToCompress relativePath : PathName} {location : Location}
      {entries : List Entry} :
      relativePath.length ≤ pathMaxLen →
      leads tree dirToCompress = some location →
      tree.node location = some .directory →
      Packed leads tree listing
        (.entries dirToCompress relativePath (listing location)) entries →
      Packed leads tree listing
        (.directory dirToCompress relativePath)
        (directoryEntry relativePath :: entries)
  | done (dirToCompress relativePath : PathName) :
      Packed leads tree listing
        (.entries dirToCompress relativePath []) []
  | subdirectory {dirToCompress relativePath name : PathName}
      {names : List PathName} {first others : List Entry} :
      isDirectoryWith leads tree (join dirToCompress name) = true →
      Packed leads tree listing
        (.directory (join dirToCompress name)
          (join relativePath (filename (join dirToCompress name)))) first →
      Packed leads tree listing
        (.entries dirToCompress relativePath names) others →
      Packed leads tree listing
        (.entries dirToCompress relativePath (name :: names))
        (first ++ others)
  | file {dirToCompress relativePath name : PathName}
      {names : List PathName} {content payload : Bytes}
      {others : List Entry} :
      isDirectoryWith leads tree (join dirToCompress name) = false →
      regularFileWith leads tree (join dirToCompress name) =
        some content →
      (join relativePath (filename (join dirToCompress name))).length ≤
        pathMaxLen →
      Packed leads tree listing
        (.entries dirToCompress relativePath names) others →
      Packed leads tree listing
        (.entries dirToCompress relativePath (name :: names))
        (fileEntry
          (join relativePath (filename (join dirToCompress name)))
          payload :: others)
  | other {dirToCompress relativePath name : PathName}
      {names : List PathName} {others : List Entry} :
      isDirectoryWith leads tree (join dirToCompress name) = false →
      regularFileWith leads tree (join dirToCompress name) = none →
      Packed leads tree listing
        (.entries dirToCompress relativePath names) others →
      Packed leads tree listing
        (.entries dirToCompress relativePath (name :: names)) others

/-! ## Compressing appends -/

section Compressing

variable (lib : Library) {before : Bytes}

/-- The output has grown by so many bytes. -/
def Grown (before : Bytes) (bytesWritten : Nat) (streams : Streams) :
    Prop :=
  ∃ payload, streams.output = OStream.atEnd (before ++ payload) ∧
    payload.length = bytesWritten

theorem assertOk_satisfies
    {α : Type} {holds : Streams → Prop} (result : Except Bytes α) :
    Program.Satisfies holds (assertOk result) (fun _ => holds)
      (fun error _ => error.thrown = .zstd) := by
  cases result with
  | ok value => exact .pure value fun _ holds => holds
  | error name => exact .raise _ fun _ _ => rfl

theorem writeOutput_grows (bytesWritten : Nat) (bytes : Bytes) :
    Program.Satisfies (Grown before bytesWritten) (writeOutput bytes)
      (fun _ => Grown before (bytesWritten + bytes.length))
      (fun error _ => error.thrown = .zstd) := by
  rintro streams ⟨payload, output, length⟩
  refine ⟨payload ++ bytes, ?_, ?_⟩
  · show streams.output.write bytes = _
    rw [output, OStream.write_atEnd, List.append_assoc]
  · rw [List.length_append, length]

theorem compressPass_grows
    (chunk : Bytes) (isLastChunk : Bool)
    (current : lib.CCtx × Nat × Nat) :
    Program.Satisfies (Grown before current.2.2)
      (compressPass lib chunk isLastChunk current)
      (Sum.elim (fun next => Grown before next.2.2)
        (fun last => Grown before last.2.2))
      (fun error _ => error.thrown = .zstd) := by
  apply (assertOk_satisfies _).bind
  intro remaining
  apply (writeOutput_grows current.2.2 _).bind
  intro _
  dsimp only
  split_ifs
  · exact .pure _ fun _ grown => grown
  · exact .pure _ fun _ grown => grown
  · exact .pure _ fun _ grown => grown
  · exact .pure _ fun _ grown => grown

theorem compressChunk_grows
    (fuel : Nat) (current : lib.CCtx × Nat) :
    Program.Satisfies (Grown before current.2)
      (compressChunk lib fuel current)
      (Sum.elim (fun next => Grown before next.2) (Grown before))
      (fun error _ => error.thrown = .zstd) := by
  have reads : Program.Satisfies (Grown before current.2)
      (readInput lib.dStreamInSize)
      (fun _ => Grown before current.2)
      (fun error _ => error.thrown = .zstd) := by
    rintro streams grown
    exact grown
  apply reads.bind
  intro chunk
  dsimp only
  split_ifs
  · exact .pure _ fun _ grown => grown
  · have passes := Program.Satisfies.loop
      (fun (position : lib.CCtx × Nat × Nat) => Grown before position.2.2)
      (fun _ => compressPass_grows lib chunk
        (decide (chunk.length < lib.dStreamInSize))) fuel
      (current.1, 0, current.2)
    apply passes.bind
    intro last
    split_ifs
    · exact .raise _ fun _ _ => rfl
    · exact .pure _ fun _ grown => grown

/-- A loop whose passes append what they count. -/
theorem loop_grows
    {body : Nat → lib.CCtx × Nat → ZstdProgram (lib.CCtx × Nat ⊕ Nat)}
    (pass : ∀ fuel current,
      Program.Satisfies (Grown before current.2) (body fuel current)
        (Sum.elim (fun next => Grown before next.2) (Grown before))
        (fun error _ => error.thrown = .zstd))
    (fuel : Nat) (fresh : lib.CCtx) :
    Program.Satisfies (fun streams => streams.output = OStream.atEnd before)
      (Program.loop body fuel (fresh, 0)) (Grown before)
      (fun error _ => error.thrown = .zstd) := by
  apply (Program.Satisfies.loop
    (fun (position : lib.CCtx × Nat) => Grown before position.2) pass fuel
    (fresh, 0)).weaken
  · intro streams output
    refine ⟨[], ?_, rfl⟩
    rw [List.append_nil]
    exact output
  · exact fun _ _ grown => grown
  · exact fun _ _ failed => failed

/-- Whatever the library does, its output is appended and counted. -/
theorem compress_grows (fuel : Nat) :
    Program.Satisfies (fun streams => streams.output = OStream.atEnd before)
      (compress lib fuel) (Grown before)
      (fun error _ => error.thrown = .zstd) := by
  rw [compress]
  cases lib.createCCtx with
  | none => exact .raise _ fun _ _ => rfl
  | some created =>
      apply (assertOk_satisfies _).bind
      intro levelled
      apply (assertOk_satisfies _).bind
      intro checked
      apply (assertOk_satisfies _).bind
      intro fresh
      exact loop_grows lib (compressChunk_grows lib) fuel fresh

end Compressing

/-! ## Packing -/

section Packing

variable (lib : Library) (workingDirectory : Location)
variable (leads : Resolving)
variable (listing : Location → List PathName)
variable {disk : Disk} {before : Bytes}

/-- What can go wrong while a directory is packed. -/
def PackingFault (error : Exception) : Prop :=
  error.thrown ≠ .archiveManager ∨
    ∃ path, error = archiveManagerException
      (ascii "Failed to open input file: " ++ path)

theorem packingFault_of_thrown
    {error : Exception} {thrown : ExceptionClass}
    (isThrown : error.thrown = thrown)
    (different : thrown ≠ .archiveManager) :
    PackingFault error := by
  left
  rw [isThrown]
  exact different

/-- The packing at some length of the archive. -/
def At (disk : Disk) (archive : Bytes) (packing : Packing) : Prop :=
  packing = ⟨disk, OStream.atEnd archive⟩

/-- Compressing a file into the archive. -/
def compressInto (content : Bytes) (compress : ZstdProgram Nat) :
    PackProgram Nat :=
  Program.focus
    (fun packing => ⟨IStream.ofBytes content, packing.newArchive⟩)
    (fun streams packing => { packing with newArchive := streams.output })
    compress

theorem compressInto_satisfies
    {compress : ZstdProgram Nat}
    (grows : Program.Satisfies
      (fun streams => streams.output = OStream.atEnd before) compress
      (Grown before) (fun error _ => error.thrown = .zstd))
    (content : Bytes) :
    Program.Satisfies (At disk before) (compressInto content compress)
      (fun bytesWritten packing => ∃ payload,
        payload.length = bytesWritten ∧
          At disk (before ++ payload) packing)
      (fun error _ => PackingFault error) := by
  rintro _ rfl
  have compresses := grows ⟨IStream.ofBytes content, OStream.atEnd before⟩ rfl
  rw [compressInto, Program.focus]
  cases outcome : compress ⟨IStream.ofBytes content, OStream.atEnd before⟩
  with
  | returned bytesWritten streams =>
      rw [outcome] at compresses
      rcases compresses with ⟨payload, output, length⟩
      refine ⟨payload, length, ?_⟩
      show (⟨disk, streams.output⟩ : ArchiveManager.Packing) = _
      rw [output]
  | threw error streams =>
      rw [outcome] at compresses
      exact packingFault_of_thrown compresses (by decide)
  | outOfFuel => trivial

theorem construct_satisfies
    {holds : ArchiveManager.Packing → Prop} (isDirectory : Bool)
    (relativePath : PathName) :
    Program.Satisfies holds (construct isDirectory relativePath)
      (fun info packing => info = ⟨isDirectory, relativePath, 0⟩ ∧
        relativePath.length ≤ pathMaxLen ∧ holds packing)
      (fun error _ => PackingFault error) := by
  rw [construct]
  split_ifs with tooLong
  · apply Program.Satisfies.raise
    exact fun _ _ =>
      @packingFault_of_thrown _ .fsEntryInfo rfl (by decide)
  · exact .pure _ fun _ start => ⟨rfl, Nat.not_lt.1 tooLong, start⟩

theorem addDirectory_satisfies (relativePath : PathName) :
    Program.Satisfies (At disk before) (addDirectory relativePath)
      (fun _ packing => relativePath.length ≤ pathMaxLen ∧
        At disk (before ++ (directoryEntry relativePath).bytes) packing)
      (fun error _ => PackingFault error) := by
  apply (construct_satisfies true relativePath).bind
  rintro info _ ⟨rfl, short, rfl⟩
  have written := writeToStream_run ⟨true, relativePath, 0⟩ short before
  have onDisk : onArchive (writeToStream ⟨true, relativePath, 0⟩)
      ⟨disk, OStream.atEnd before⟩ = .returned _ _ :=
    Program.focus_returned written
  rw [Program.bind_returned onDisk]
  refine ⟨short, ?_⟩
  rw [Entry.bytes, directoryEntry, List.append_nil]
  rfl

theorem closeArchive_returns
    (opened : Option Location) (newArchive : OStream) (disk : Disk) :
    ∃ closed, closeArchive opened newArchive disk = .returned () closed := by
  cases opened with
  | none => exact ⟨disk, rfl⟩
  | some location => exact ⟨_, rfl⟩

/-! ### Any way to resolve path names and to compress files -/

/-- How a file that was opened is compressed, given its path and content. -/
abbrev Compressing :=
  (fuel : Nat) → PathName → Bytes → PackProgram Nat

/-- `directoryEntries` with any way to resolve a path name. -/
def directoryEntriesWith (directory : PathName) :
    PackProgram (List PathName) := do
  let packing ← Program.getState
  match leads packing.disk.tree directory with
  | none =>
      Program.raise (filesystemError "directory iterator cannot open")
  | some location =>
      if packing.disk.tree.node location = some .directory then
        pure (listing location)
      else
        Program.raise (filesystemError "directory iterator cannot open")

theorem directoryEntries_satisfies (directory : PathName) :
    Program.Satisfies (At disk before)
      (directoryEntriesWith leads listing directory)
      (fun names packing => ∃ location,
        leads disk.tree directory = some location ∧
          disk.tree.node location = some .directory ∧
          names = listing location ∧ At disk before packing)
      (fun error _ => PackingFault error) := by
  rintro _ rfl
  rw [directoryEntriesWith, Program.bind_returned (Program.getState_run _)]
  cases resolved : leads disk.tree directory with
  | none => exact packingFault_of_thrown rfl (by decide)
  | some location =>
      dsimp only
      split_ifs with inDirectory
      · exact ⟨location, rfl, inDirectory, rfl, rfl⟩
      · exact packingFault_of_thrown rfl (by decide)

/-- `addFile` with any way to resolve and to compress. -/
def addFileWith
    (compresses : Compressing) (fuel : Nat)
    (filePath relativePath : PathName) : PackProgram Unit := do
  let fileInfo ← construct false relativePath
  let position ← onArchive (writeToStream fileInfo)
  let packing ← Program.getState
  match regularFileWith leads packing.disk.tree filePath with
  | none =>
      Program.raise (archiveManagerException
        (ascii "Failed to open input file: " ++ filePath))
  | some content =>
      let bytesWritten ← compresses fuel filePath content
      onArchive (writeCompressedLength position bytesWritten)

/-- `packEntry` with any way to resolve and to compress. -/
def packEntryWith
    (compresses : Compressing)
    (packDirectory : PathName → PathName → PackProgram Unit)
    (fuel : Nat) (dirToCompress relativePath name : PathName) :
    PackProgram Unit := do
  let current := join dirToCompress name
  let newRelative := join relativePath (filename current)
  let packing ← Program.getState
  if isDirectoryWith leads packing.disk.tree current then
    packDirectory current newRelative
  else if (regularFileWith leads packing.disk.tree current).isSome
  then
    addFileWith leads compresses fuel current newRelative
  else
    pure ()

/-- `packDirectory` with any way to resolve and to compress. -/
def packDirectoryWith (compresses : Compressing) :
    (fuel : Nat) → (dirToCompress relativePath : PathName) →
      PackProgram Unit
  | 0, _, _ => fun _ => .outOfFuel
  | fuel + 1, dirToCompress, relativePath => do
      addDirectory relativePath
      let entries ← directoryEntriesWith leads listing dirToCompress
      Program.forEach
        (packEntryWith leads compresses
          (packDirectoryWith compresses fuel) fuel dirToCompress
          relativePath)
        entries

/-- `writeArchive` with any way to resolve and to compress. -/
def writeArchiveWith
    (compresses : Option Location → Compressing)
    (directory : PathName) (opened : Option Location) (fuel : Nat) :
    DiskProgram Unit :=
  fun disk =>
    match packDirectoryWith leads listing (compresses opened) fuel
        directory (filename directory) ⟨disk, OStream.atEnd []⟩ with
    | .returned _ packing =>
        closeArchive opened packing.newArchive packing.disk
    | .threw error packing =>
        (do
          closeArchive opened packing.newArchive
          Program.raise error : DiskProgram Unit) packing.disk
    | .outOfFuel => .outOfFuel

/-- `openForWriting` with any way to resolve a path name. -/
def openForWritingWith (path : PathName) :
    DiskProgram (Option Location) :=
  Program.step fun disk =>
    let handed := disk.handed ++ [path]
    match leads disk.tree path with
    | none => (none, ⟨disk.tree, handed⟩)
    | some location =>
        if disk.tree.CanPlace location then
          (some location, ⟨disk.tree.place location (.file []), handed⟩)
        else
          (none, ⟨disk.tree, handed⟩)

/-- `createArchive`; how files are compressed may depend on the archive. -/
def createArchiveWith
    (compresses : Option Location → Compressing)
    (directory newArchivePath : PathName) (fuel : Nat) :
    DiskProgram Unit := do
  let disk ← Program.getState
  if fileExistsWith leads disk.tree newArchivePath then
    Program.raise (archiveManagerException
      (ascii "File that you try to unpackArchive to (" ++ newArchivePath ++
        ascii ") already exists!"))
  else
    let opened ← openForWritingWith leads newArchivePath
    writeArchiveWith leads listing compresses directory opened
      fuel

/-- Every file is read as it was when it was opened. -/
def asOpened : Compressing :=
  fun fuel _ content => compressFile lib content fuel

theorem packDirectory_eq (fuel : Nat) :
    packDirectory lib workingDirectory listing fuel =
      packDirectoryWith (withoutLinks workingDirectory) listing (asOpened lib)
        fuel := by
  induction fuel with
  | zero => rfl
  | succ fuel inductionHypothesis =>
      funext dirToCompress relativePath
      rw [packDirectory, packDirectoryWith, inductionHypothesis]
      rfl

theorem createArchive_eq :
    createArchive lib workingDirectory listing =
      createArchiveWith (withoutLinks workingDirectory) listing
        fun _ => asOpened lib := by
  funext directory newArchivePath fuel
  have writes (opened : Option Location) :
      writeArchive lib workingDirectory listing directory opened fuel =
        writeArchiveWith (withoutLinks workingDirectory) listing
          (fun _ => asOpened lib) directory opened fuel := by
    funext disk
    rw [writeArchive, packDirectory_eq]
    rfl
  simp only [createArchive, createArchiveWith, writes]
  rfl

/-- A payload is appended to the archive, and its length is the result. -/
def Appends (compresses : Compressing) : Prop :=
  ∀ disk before fuel filePath content,
    Program.Satisfies (At disk before)
      (compresses fuel filePath content)
      (fun bytesWritten packing => ∃ payload,
        payload.length = bytesWritten ∧
          At disk (before ++ payload) packing)
      (fun error _ => PackingFault error)

theorem asOpened_appends : Appends (asOpened lib) :=
  fun _ _ fuel _ content =>
    compressInto_satisfies (compress_grows lib fuel) content

section Appending

variable {compresses : Compressing} (appends : Appends compresses)

include appends

theorem addFileWith_satisfies
    (fuel : Nat) (filePath relativePath : PathName) :
    Program.Satisfies (At disk before)
      (addFileWith leads compresses fuel filePath relativePath)
      (fun _ packing => relativePath.length ≤ pathMaxLen ∧
        ∃ payload, At disk
          (before ++ (fileEntry relativePath payload).bytes) packing)
      (fun error _ => PackingFault error) := by
  apply (construct_satisfies false relativePath).bind
  rintro info _ ⟨rfl, short, rfl⟩
  have written := writeToStream_run ⟨false, relativePath, 0⟩ short before
  have onDisk : onArchive (writeToStream ⟨false, relativePath, 0⟩)
      ⟨disk, OStream.atEnd before⟩ = .returned _ _ :=
    Program.focus_returned written
  rw [Program.bind_returned onDisk,
    Program.bind_returned (Program.getState_run _)]
  cases regularFileWith leads disk.tree filePath with
  | none => exact Or.inr ⟨filePath, rfl⟩
  | some content =>
      apply ((appends disk (before ++ header ⟨false, relativePath, 0⟩) fuel
        filePath content).bind _) _ rfl
      rintro bytesWritten _ ⟨payload, rfl, rfl⟩
      have patched := writeCompressedLength_run ⟨false, relativePath, 0⟩
        before payload payload.length
      have patches :
          onArchive (writeCompressedLength _ payload.length)
            ⟨disk, OStream.atEnd
              (before ++ header ⟨false, relativePath, 0⟩ ++ payload)⟩ =
            .returned _ _ :=
        Program.focus_returned patched
      rw [patches]
      have whole : (fileEntry relativePath payload).bytes =
          header ⟨false, relativePath, payload.length⟩ ++ payload :=
        rfl
      refine ⟨short, payload, ?_⟩
      rw [whole, ← List.append_assoc]
      rfl

/-- One entry of a listing, if the directories below are packed. -/
theorem packEntryWith_satisfies
    {fuel : Nat}
    (subdirectories : ∀ (before : Bytes)
        (dirToCompress relativePath : PathName),
      Program.Satisfies (At disk before)
        (packDirectoryWith leads listing compresses fuel
          dirToCompress relativePath)
        (fun _ packing => ∃ entries,
          Packed leads disk.tree listing
            (.directory dirToCompress relativePath) entries ∧
            At disk (before ++ entriesBytes entries) packing)
        (fun error _ => PackingFault error))
    (dirToCompress relativePath name : PathName) :
    Program.Satisfies (At disk before)
      (packEntryWith leads compresses
        (packDirectoryWith leads listing compresses fuel) fuel
        dirToCompress relativePath name)
      (fun _ packing => ∃ entries,
        (∀ names others,
          Packed leads disk.tree listing
              (.entries dirToCompress relativePath names) others →
            Packed leads disk.tree listing
              (.entries dirToCompress relativePath (name :: names))
              (entries ++ others)) ∧
          At disk (before ++ entriesBytes entries) packing)
      (fun error _ => PackingFault error) := by
  rintro _ rfl
  simp only [packEntryWith, Program.bind_returned (Program.getState_run _)]
  split_ifs with inDirectory isFile
  · apply ((subdirectories before _ _).weaken (fun _ start => start) _
      (fun _ _ fault => fault)) _ rfl
    rintro - packing ⟨entries, packed, reached⟩
    refine ⟨entries, ?_, reached⟩
    intro names others rest
    exact .subdirectory inDirectory packed rest
  · rw [Bool.not_eq_true] at inDirectory
    rcases Option.isSome_iff_exists.1 isFile with ⟨content, isContent⟩
    apply ((addFileWith_satisfies leads appends fuel _ _).weaken
      (fun _ start => start) _ (fun _ _ fault => fault)) _ rfl
    rintro - packing ⟨short, payload, reached⟩
    refine ⟨[fileEntry
      (join relativePath (filename (join dirToCompress name))) payload],
      ?_, ?_⟩
    · intro names others rest
      exact .file inDirectory isContent short rest
    · rw [entriesBytes_cons, entriesBytes_nil, List.append_nil]
      exact reached
  · rw [Bool.not_eq_true] at inDirectory
    rw [Bool.not_eq_true, Option.isSome_eq_false_iff,
      Option.isNone_iff_eq_none] at isFile
    refine ⟨[], ?_, ?_⟩
    · intro names others rest
      exact .other inDirectory isFile rest
    · rw [entriesBytes_nil, List.append_nil]
      rfl

theorem packEntriesWith_satisfies
    {fuel : Nat}
    (subdirectories : ∀ (before : Bytes)
        (dirToCompress relativePath : PathName),
      Program.Satisfies (At disk before)
        (packDirectoryWith leads listing compresses fuel
          dirToCompress relativePath)
        (fun _ packing => ∃ entries,
          Packed leads disk.tree listing
            (.directory dirToCompress relativePath) entries ∧
            At disk (before ++ entriesBytes entries) packing)
        (fun error _ => PackingFault error))
    (dirToCompress relativePath : PathName) (names : List PathName) :
    Program.Satisfies (At disk before)
      (Program.forEach
        (packEntryWith leads compresses
          (packDirectoryWith leads listing compresses fuel) fuel
          dirToCompress relativePath) names)
      (fun _ packing => ∃ entries,
        Packed leads disk.tree listing
          (.entries dirToCompress relativePath names) entries ∧
          At disk (before ++ entriesBytes entries) packing)
      (fun error _ => PackingFault error) := by
  induction names generalizing before with
  | nil =>
      rintro _ rfl
      refine ⟨[], .done _ _, ?_⟩
      rw [entriesBytes_nil, List.append_nil]
      rfl
  | cons name names inductionHypothesis =>
      apply (packEntryWith_satisfies leads listing appends
        subdirectories dirToCompress relativePath name).bind
      rintro - packing ⟨first, continues, reached⟩
      apply (inductionHypothesis.weaken (fun _ start => start) _
        (fun _ _ fault => fault)) packing reached
      rintro - later ⟨others, packed, reachedLater⟩
      refine ⟨first ++ others, continues names others packed, ?_⟩
      rw [entriesBytes_append, ← List.append_assoc]
      exact reachedLater

/-- The archive of a directory that was packed. -/
theorem packDirectoryWith_satisfies
    (fuel : Nat) (dirToCompress relativePath : PathName) :
    Program.Satisfies (At disk before)
      (packDirectoryWith leads listing compresses fuel
        dirToCompress relativePath)
      (fun _ packing => ∃ entries,
        Packed leads disk.tree listing
          (.directory dirToCompress relativePath) entries ∧
          At disk (before ++ entriesBytes entries) packing)
      (fun error _ => PackingFault error) := by
  induction fuel generalizing before dirToCompress relativePath with
  | zero =>
      rintro _ rfl
      trivial
  | succ fuel inductionHypothesis =>
      apply (addDirectory_satisfies relativePath).bind
      rintro - packing ⟨short, reached⟩
      apply ((directoryEntries_satisfies leads listing
        dirToCompress).bind _) packing reached
      rintro names later ⟨location, resolved, inDirectory, rfl, reachedLater⟩
      apply ((packEntriesWith_satisfies leads listing appends
        (fun before => @inductionHypothesis before) dirToCompress
        relativePath (listing location)).weaken (fun _ start => start) _
        (fun _ _ fault => fault)) later reachedLater
      rintro - last ⟨entries, packed, reachedLast⟩
      refine ⟨directoryEntry relativePath :: entries,
        .directory short resolved inDirectory packed, ?_⟩
      rw [entriesBytes_cons, ← List.append_assoc]
      exact reachedLast

end Appending

/-- The exception for an archive path that exists already. -/
def alreadyThere (archivePath : PathName) : Exception :=
  archiveManagerException
    (ascii "File that you try to unpackArchive to (" ++ archivePath ++
      ascii ") already exists!")

theorem openForWritingWith_run
    {leads : Resolving} {disk : Disk} {path : PathName}
    {location : Location}
    (resolved : leads disk.tree path = some location)
    (possible : disk.tree.CanPlace location) :
    openForWritingWith leads path disk =
      .returned (some location)
        ⟨disk.tree.place location (.file []), disk.handed ++ [path]⟩ := by
  simp only [openForWritingWith, Program.step_run, resolved, if_pos possible]

/-- A file is opened where its path leads, or nothing changes. -/
theorem openForWritingWith_cases (path : PathName) (disk : Disk) :
    openForWritingWith leads path disk =
        .returned none ⟨disk.tree, disk.handed ++ [path]⟩ ∨
      ∃ location,
        leads disk.tree path = some location ∧
        disk.tree.CanPlace location ∧
        openForWritingWith leads path disk =
          .returned (some location)
            ⟨disk.tree.place location (.file []),
              disk.handed ++ [path]⟩ := by
  cases resolved : leads disk.tree path with
  | none =>
      left
      simp only [openForWritingWith, Program.step_run, resolved]
  | some location =>
      by_cases possible : disk.tree.CanPlace location
      · right
        exact ⟨location, rfl, possible,
          openForWritingWith_run resolved possible⟩
      · left
        simp only [openForWritingWith, Program.step_run, resolved,
          if_neg possible]

theorem createArchiveWith_there
    {archivePath : PathName}
    (there : fileExistsWith leads disk.tree archivePath = true)
    (compresses : Option Location → Compressing) (directory : PathName)
    (fuel : Nat) :
    createArchiveWith leads listing compresses directory
        archivePath fuel disk = .threw (alreadyThere archivePath) disk := by
  rw [createArchiveWith, Program.bind_returned (Program.getState_run _),
    if_pos there]
  rfl

section Archives

variable {compresses : Option Location → Compressing}
variable (appends : ∀ opened, Appends (compresses opened))

include appends

theorem writeArchiveWith_threw
    {directory : PathName} {opened : Option Location} {fuel : Nat}
    {error : Exception} {later : Disk}
    (threw : writeArchiveWith leads listing compresses directory
      opened fuel disk = .threw error later) :
    PackingFault error := by
  rw [writeArchiveWith] at threw
  cases packs : packDirectoryWith leads listing
      (compresses opened) fuel directory (filename directory)
      ⟨disk, OStream.atEnd []⟩ with
  | returned _ packing =>
      rw [packs] at threw
      rcases closeArchive_returns opened packing.newArchive packing.disk with
        ⟨closed, closes⟩
      have closing : closeArchive opened packing.newArchive packing.disk =
          .threw error later :=
        threw
      rw [closes] at closing
      cases closing
  | threw other packing =>
      have fault := (packDirectoryWith_satisfies leads listing
        (appends opened) fuel directory (filename directory)).threw rfl packs
      rw [packs] at threw
      rcases closeArchive_returns opened packing.newArchive packing.disk with
        ⟨closed, closes⟩
      have closing :
          (do
            closeArchive opened packing.newArchive
            Program.raise other : DiskProgram Unit) packing.disk =
            .threw error later :=
        threw
      rw [Program.bind_returned closes] at closing
      cases closing
      exact fault
  | outOfFuel =>
      rw [packs] at threw
      cases threw

/-- What a `createArchive` that returned has done. -/
theorem createArchiveWith_returned
    {directory archivePath : PathName} {fuel : Nat} {later : Disk}
    (returns : createArchiveWith leads listing compresses
      directory archivePath fuel disk = .returned () later) :
    fileExistsWith leads disk.tree archivePath = false ∧
      ∃ opened between entries,
        openForWritingWith leads archivePath disk =
            .returned opened between ∧
          Packed leads between.tree listing
            (.directory directory (filename directory)) entries ∧
          closeArchive opened (OStream.atEnd (entriesBytes entries))
            between = .returned () later := by
  rw [createArchiveWith, Program.bind_returned (Program.getState_run _)]
    at returns
  split_ifs at returns with there
  · cases returns
  · rw [Bool.not_eq_true] at there
    rcases Program.bind_eq_returned returns with
      ⟨opened, between, opens, writes⟩
    refine ⟨there, opened, between, ?_⟩
    rw [writeArchiveWith] at writes
    cases packs : packDirectoryWith leads listing
        (compresses opened) fuel directory (filename directory)
        ⟨between, OStream.atEnd []⟩ with
    | returned _ packing =>
        have ends := (packDirectoryWith_satisfies leads listing
          (appends opened) fuel directory (filename directory)).returned rfl
            packs
        rcases ends with ⟨entries, packed, reached⟩
        rw [packs, reached, List.nil_append] at writes
        exact ⟨entries, opens, packed, writes⟩
    | threw error packing =>
        rw [packs] at writes
        rcases Program.bind_eq_returned writes with ⟨_, _, -, raises⟩
        cases raises
    | outOfFuel =>
        rw [packs] at writes
        cases writes

/-- The tree while the archive is open, and when it is closed. -/
theorem packed_of_returned
    {directory archivePath : PathName} {location : Location} {fuel : Nat}
    {later : Disk}
    (resolved : leads disk.tree archivePath = some location)
    (possible : disk.tree.CanPlace location)
    (returns : createArchiveWith leads listing compresses directory
      archivePath fuel disk = .returned () later) :
    ∃ entries,
      later.tree =
          disk.tree.place location (.file (entriesBytes entries)) ∧
        Packed leads (disk.tree.place location (.file [])) listing
          (.directory directory (filename directory)) entries := by
  rcases createArchiveWith_returned leads listing appends returns with
    ⟨-, opened, between, entries, opens, packed, closes⟩
  rw [openForWritingWith_run resolved possible] at opens
  cases opens
  cases closes
  exact ⟨entries, FileTree.place_place possible [] _, packed⟩

/-- After the check nothing goes wrong but the packing itself. -/
theorem createArchiveWith_threw
    {directory archivePath : PathName} {fuel : Nat} {error : Exception}
    {later : Disk}
    (there : fileExistsWith leads disk.tree archivePath = false)
    (threw : createArchiveWith leads listing compresses
      directory archivePath fuel disk = .threw error later) :
    PackingFault error := by
  rw [createArchiveWith, Program.bind_returned (Program.getState_run _), there,
    if_neg Bool.false_ne_true] at threw
  rcases openForWritingWith_cases leads archivePath disk with
    opens | ⟨location, -, -, opens⟩
  · rw [Program.bind_returned opens] at threw
    exact writeArchiveWith_threw leads listing appends threw
  · rw [Program.bind_returned opens] at threw
    exact writeArchiveWith_threw leads listing appends threw

end Archives

/-! ### As the files were when they were opened -/

/-- After the check nothing goes wrong but the packing itself. -/
theorem createArchive_threw
    {directory archivePath : PathName} {fuel : Nat} {error : Exception}
    {later : Disk}
    (there : fileExists disk.tree workingDirectory archivePath = false)
    (threw : createArchive lib workingDirectory listing directory
      archivePath fuel disk = .threw error later) :
    PackingFault error := by
  rw [createArchive_eq] at threw
  exact createArchiveWith_threw (withoutLinks workingDirectory) listing
    (fun _ => asOpened_appends lib) there threw

theorem createArchive_there
    {archivePath : PathName}
    (there : fileExists disk.tree workingDirectory archivePath = true)
    (directory : PathName) (fuel : Nat) :
    createArchive lib workingDirectory listing directory archivePath fuel
        disk = .threw (alreadyThere archivePath) disk := by
  rw [createArchive_eq]
  exact createArchiveWith_there (withoutLinks workingDirectory) listing there
    _ directory fuel

end Packing

end DropFile.Client.PackedEntries
