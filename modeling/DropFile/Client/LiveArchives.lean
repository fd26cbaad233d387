import DropFile.Client.LinkedTrees
import DropFile.Client.SentNames

/-!
# Packing while the archive is open

The archive lies in the sender's temporary directory while a tree is packed,
and the tree may be one that the temporary directory belongs to, or one with a
link that leads there.  Then the walk meets the archive.  Here every read of the
archive's own file sees what has been written to it by then.
-/

namespace DropFile.Client.LiveArchives

open DropFile.General.FuelledProgram
open DropFile.General.PathNames
open DropFile.General.Files
open DropFile.General.SymbolicLinks
open DropFile.General.Processes.Process
open DropFile.Streams
open DropFile.FileSystem
open DropFile.Client.EntryInfo
open DropFile.Client.Zstd
open DropFile.Client.ArchiveManager
open DropFile.Client.DropFileSendClient hiding construct
open DropFile.Client.PackedEntries
open DropFile.Client.AcceptedArchives
open DropFile.Client.LinkedTrees
open DropFile.Client.SentNames

/-! ## Reading what is being written -/

section Reading

variable (lib : Library) (leads : Resolving)
variable (listing : Location → List PathName)

/--
What the file of the archive holds.  The rest of the output is still in the
buffer of the stream.
-/
abbrev Flushed := OStream → Bytes

variable (flushed : Flushed)

/-- The next read sees what the file of the archive holds by then. -/
def reread : ZstdProgram Unit :=
  Program.modifyState fun streams =>
    { streams with
      input := { streams.input with data := flushed streams.output } }

/--
`zstd::compress(input_stream, output_stream, update_callback)` on a file that
may have changed before each read.
-/
def compress (changes : ZstdProgram Unit) (fuel : Nat) :
    ZstdProgram Nat := do
  match lib.createCCtx with
  | none =>
      Program.raise (zstdException (ascii "ZSTD_createCCtx() failed!"))
  | some cctx =>
      let cctx ← assertOk (lib.setParameter cctx .compressionLevel 6)
      let cctx ← assertOk (lib.setParameter cctx .checksumFlag 1)
      let cctx ← assertOk (lib.resetSession cctx)
      Program.loop
        (fun fuel current => do
          changes
          compressChunk lib fuel current)
        fuel (cctx, 0)

/-- `zstd::compress(input_file, compressed_archive, …)`. -/
def compressFile (opened : Option Location) : Compressing :=
  fun fuel filePath content => do
    let packing ← Program.getState
    compressInto content
      (compress lib
        (if leads packing.disk.tree filePath = opened then
          reread flushed
        else
          pure ())
        fuel)

/-- `ArchiveManager{directory}.createArchive(new_archive_path)`. -/
def createArchive :
    (directory newArchivePath : PathName) → (fuel : Nat) →
      DiskProgram Unit :=
  createArchiveWith leads listing (compressFile lib leads flushed)

/-- Whatever the file holds, the output is appended and counted. -/
theorem compress_appends
    (before : Bytes) (isArchive : Prop) [Decidable isArchive] (fuel : Nat) :
    Program.Satisfies (fun streams => streams.output = OStream.atEnd before)
      (compress lib (if isArchive then reread flushed else pure ()) fuel)
      (Grown before) (fun error _ => error.thrown = .zstd) := by
  have changes (current : lib.CCtx × Nat) :
      Program.Satisfies (Grown before current.2)
        (if isArchive then reread flushed else pure ())
        (fun _ => Grown before current.2)
        (fun error _ => error.thrown = .zstd) := by
    split_ifs
    · intro streams grown
      exact grown
    · exact .pure () fun _ grown => grown
  rw [compress]
  cases lib.createCCtx with
  | none => exact .raise _ fun _ _ => rfl
  | some created =>
      apply (assertOk_satisfies _).bind
      intro levelled
      apply (assertOk_satisfies _).bind
      intro checked
      apply (assertOk_satisfies _).bind
      intro fresh
      apply loop_grows lib
      intro fuel current
      apply (changes current).bind
      intro _
      exact compressChunk_grows lib fuel current

theorem compressFile_appends (opened : Option Location) :
    Appends (compressFile lib leads flushed opened) := by
  rintro disk before fuel filePath content _ rfl
  have compresses := compress_appends lib flushed before
    (leads disk.tree filePath = opened) fuel
  exact compressInto_satisfies compresses content _ rfl

/-- A file that is not the archive is read as it was when it was opened. -/
theorem compressFile_eq
    {opened : Option Location} {filePath : PathName} {packing : Packing}
    (different : leads packing.disk.tree filePath ≠ opened)
    (fuel : Nat) (content : Bytes) :
    compressFile lib leads flushed opened fuel filePath content packing =
      asOpened lib fuel filePath content packing := by
  rw [compressFile, Program.bind_returned (Program.getState_run _),
    if_neg different]
  rfl

end Reading

/-! ## Where the archive is not read -/

section Agreeing

variable {leads : Resolving}
variable {listing : Location → List PathName}
variable {compresses other : Compressing} {disk : Disk}

/-- Two ways to compress agree on the files that are spared. -/
def Agree
    (compresses other : Compressing) (disk : Disk)
    (spared : PathName → Prop) : Prop :=
  ∀ fuel filePath content packing,
    spared filePath → packing.disk = disk →
      compresses fuel filePath content packing =
        other fuel filePath content packing

variable {spared : PathName → Prop}
variable (agree : Agree compresses other disk spared)

include agree

theorem addFileWith_congr
    {filePath : PathName}
    (isSpared : spared filePath)
    (fuel : Nat) (relativePath : PathName) (newArchive : OStream) :
    addFileWith leads compresses fuel filePath relativePath
        ⟨disk, newArchive⟩ =
      addFileWith leads other fuel filePath relativePath
        ⟨disk, newArchive⟩ := by
  apply Program.bind_congr rfl
  intro info packing constructs
  have afterInfo : packing.disk = disk := by
    rw [construct] at constructs
    split_ifs at constructs
    · cases constructs
    · cases constructs
      rfl
  apply Program.bind_congr rfl
  intro position later writes
  have keeps : Program.Keeps Packing.disk
      (onArchive (writeToStream info)) := by
    apply Program.Keeps.focus
    intro _ _
    rfl
  have afterHeader : later.disk = disk :=
    (keeps.returned writes).trans afterInfo
  apply Program.bind_congr rfl
  intro _ _ gets
  cases gets
  cases regularFileWith leads later.disk.tree filePath with
  | none => rfl
  | some content =>
      apply Program.bind_congr
      · exact agree fuel filePath content later isSpared afterHeader
      · intro _ _ _
        rfl

theorem packDirectoryWith_congr
    (appends : Appends other)
    (descends : ∀ dirToCompress location,
      spared dirToCompress →
      leads disk.tree dirToCompress = some location →
      disk.tree.node location = some .directory →
      ∀ name ∈ listing location, spared (join dirToCompress name))
    (fuel : Nat) {dirToCompress : PathName}
    (isSpared : spared dirToCompress)
    (relativePath : PathName) (archive : Bytes) :
    packDirectoryWith leads listing compresses fuel dirToCompress
        relativePath ⟨disk, OStream.atEnd archive⟩ =
      packDirectoryWith leads listing other fuel dirToCompress
        relativePath ⟨disk, OStream.atEnd archive⟩ := by
  induction fuel generalizing dirToCompress relativePath archive with
  | zero => rfl
  | succ fuel inductionHypothesis =>
      apply Program.bind_congr rfl
      intro _ packing adds
      have added := (addDirectory_satisfies relativePath).returned rfl adds
      apply Program.bind_congr rfl
      intro names later lists
      rcases (directoryEntries_satisfies leads listing
          dirToCompress).returned added.2 lists with
        ⟨location, resolved, inDirectory, rfl, reached⟩
      have entrySpared := descends dirToCompress location isSpared resolved
        inDirectory
      apply @Program.forEach_congr _ _ _ fun packing =>
        ∃ archive, At disk archive packing
      · rintro name member _ ⟨archive, rfl⟩
        apply Program.bind_congr rfl
        intro _ _ gets
        cases gets
        dsimp only
        split_ifs
        · exact inductionHypothesis (entrySpared name member) _ archive
        · exact addFileWith_congr agree (entrySpared name member) fuel _ _
        · rfl
      · rintro name - packing ⟨archive, isAt⟩
        have packs := @packEntryWith_satisfies leads listing disk
          archive other appends fuel
          (fun _ => packDirectoryWith_satisfies leads listing
            appends fuel)
          dirToCompress relativePath name
        apply packs.weaken (fun _ start => start) _ (fun _ _ _ => trivial)
          packing isAt
        rintro - later ⟨entries, -, reached⟩
        exact ⟨_, reached⟩
      · exact ⟨_, reached⟩

end Agreeing

/-! ## The directory that is sent -/

variable {Peer : Type} [DecidableEq Peer]

/-- `DropFileSendClient::compressIfNecessary`. -/
def compressIfNecessary
    (links : Links) (machine : Machine) (flushed : Flushed) (path : PathName)
    (fuel : Nat) : SenderProcess Peer (RAIIFSEntry × Bool) := do
  let disk ← getState
  if isDirectoryWith (through links machine.workingDirectory) disk.tree path
  then
    let newPath := join (senderTmpDir machine) (filename path)
    ofProgram (createArchive machine.zstd
      (through links machine.workingDirectory) machine.listing flushed path
      newPath fuel)
    pure (⟨newPath, true⟩, true)
  else
    pure (⟨path, false⟩, false)

/-- The sender's temporary directory is there, and nothing is in it. -/
structure FreshThrough (links : Links) (machine : Machine) (tree : FileTree)
    (tmpDir : Location) : Prop where
  noNul : 0 ∉ senderTmpDir machine
  resolved :
    links.resolve tree machine.workingDirectory (senderTmpDir machine) =
      some tmpDir
  isDirectory : tree.node tmpDir = some .directory
  empty : ∀ name, tree.node (tmpDir ++ [name]) = none
  noLink : ∀ name, links.target (tmpDir ++ [name]) = none

/-- Exactly one record for each directory and regular file of a tree. -/
def ArchiveOf (tree : FileTree) (root : PathName) (archive : Bytes) : Prop :=
  ∃ records, archive = recordsBytes records ∧
    (∀ record ∈ records, record.Writable) ∧
    RecordsOf tree [] root Everything records

/--
The archive is one of the tree that was there before, as it is seen through the
links, and every file in it was read as it was when it was opened.
-/
structure PackedAsItWas
    (links : Links) (machine : Machine) (flushed : Flushed)
    (disk later : Disk) (path archivePath : PathName) (source : Location)
    (fuel : Nat) : Prop where
  archive : ∃ isDirectory archive,
    regularFileWith (through links machine.workingDirectory) later.tree
        archivePath = some archive ∧
      ArchiveOf (links.seen disk.tree source isDirectory) (filename path)
        archive
  noGrowth :
    createArchive machine.zstd (through links machine.workingDirectory)
        machine.listing flushed path archivePath fuel disk =
      createArchiveWith (through links machine.workingDirectory)
        machine.listing (fun _ => asOpened machine.zstd) path archivePath
        fuel disk

/-- Names of entries lead from a directory to a location. -/
def LeadsTo (links : Links) (tree : FileTree) (source location : Location) :
    Prop :=
  ∃ below, links.descend tree source below = some location

section Sending

variable {links : Links} {machine : Machine} {flushed : Flushed}
variable {disk : Disk} {path : PathName} {source tmpDir : Location}
variable {fuel : Nat}

theorem returned_of_becomes
    {entry : RAIIFSEntry} {isCompressed : Bool} {moment : Local Peer Disk}
    (inDirectory :
      isDirectoryWith (through links machine.workingDirectory) disk.tree
        path = true)
    (becomes : Becomes (compressIfNecessary links machine flushed path fuel)
      ⟨disk, silence, silence⟩ (.done (entry, isCompressed)) moment) :
    entry.path = archivePath machine path ∧
      createArchive machine.zstd (through links machine.workingDirectory)
        machine.listing flushed path (archivePath machine path) fuel disk =
          .returned () moment.state := by
  have ensures : Ensures (fun _ => True) (fun _ => True)
      (fun result later => result.1.path = archivePath machine path ∧
        createArchive machine.zstd (through links machine.workingDirectory)
          machine.listing flushed path (archivePath machine path) fuel disk =
            .returned () later.state)
      (fun _ _ => True)
      (compressIfNecessary links machine flushed path fuel)
      (⟨disk, silence, silence⟩ : Local Peer Disk) := by
    apply Ensures.getState_bind trivial
    dsimp only
    rw [if_pos inDirectory]
    have creates : Ensures (fun _ => True) (fun _ => True)
        (fun _ later =>
          createArchive machine.zstd
            (through links machine.workingDirectory) machine.listing flushed
            path (archivePath machine path) fuel disk =
              .returned () later.state)
        (fun _ _ => True)
        (ofProgram (createArchive machine.zstd
          (through links machine.workingDirectory) machine.listing flushed
          path (archivePath machine path) fuel))
        (⟨disk, silence, silence⟩ : Local Peer Disk) := by
      apply Ensures.ofProgram trivial
      apply (Program.Satisfies.outcome _ disk).weaken fun _ same => same
      · exact fun _ _ returned => ⟨trivial, returned⟩
      · exact fun _ _ _ => ⟨trivial, trivial⟩
    apply creates.bind
    intro _ later _ _ returns
    exact .pure trivial ⟨rfl, returns⟩
  exact ((ensures.of_becomes becomes) trivial).2

section Fresh

variable (fresh : FreshThrough links machine disk.tree tmpDir)

include fresh

/-- What no name leads to from the temporary directory is there. -/
theorem archivePath_there
    (noName : filename path = [] ∨ filename path = dot ∨
      filename path = dotDot) :
    fileExistsWith (through links machine.workingDirectory) disk.tree
      (archivePath machine path) = true := by
  have there
      {below : Location}
      (noNul : 0 ∉ filename path)
      (relative : isAbsolute (filename path) = false)
      (walked : links.walk disk.tree tmpDir (components (filename path)) =
        some below)
      (isDirectory : disk.tree.node below = some .directory) :
      fileExistsWith (through links machine.workingDirectory) disk.tree
        (archivePath machine path) = true := by
    rw [fileExistsWith, statusWith, through, archivePath,
      Links.resolve_join fresh.resolved fresh.noNul noNul relative, walked,
      Option.bind_some, isDirectory]
    rfl
  rcases noName with isEmpty | isDot | isDotDot
  · rw [isEmpty] at there
    apply there (by decide) (by decide) _ fresh.isDirectory
    have single : components [] = [[]] := by decide
    rw [single, Links.walk, if_pos fresh.isDirectory, if_pos (Or.inl rfl),
      Links.walk]
  · rw [isDot] at there
    apply there (by decide) (by decide) _ fresh.isDirectory
    have single : components dot = [dot] := by decide
    rw [single, Links.walk, if_pos fresh.isDirectory, if_pos (Or.inr rfl),
      Links.walk]
  · rw [isDotDot] at there
    apply there (by decide) (by decide) _
      (FileTree.dropLast_isDirectory fresh.isDirectory)
    have single : components dotDot = [dotDot] := by decide
    rw [single, Links.walk, if_pos fresh.isDirectory,
      if_neg (by decide), if_pos rfl, Links.walk]

/-- A directory without a name of its own has not been packed. -/
theorem isName_of_returned
    {later : Disk}
    (noNul : 0 ∉ path)
    (returns : createArchive machine.zstd
      (through links machine.workingDirectory) machine.listing flushed path
      (archivePath machine path) fuel disk = .returned () later) :
    IsName (filename path) := by
  have named (noName : filename path = [] ∨ filename path = dot ∨
      filename path = dotDot) : False := by
    have there := archivePath_there fresh noName
    have refused := createArchiveWith_there
      (through links machine.workingDirectory) machine.listing there
      (compressFile machine.zstd (through links machine.workingDirectory)
        flushed) path fuel
    cases refused.symm.trans returns
  exact
    { nonempty := fun isEmpty => named (Or.inl isEmpty)
      not_dot := fun isDot => named (Or.inr (Or.inl isDot))
      not_dotDot := fun isDotDot => named (Or.inr (Or.inr isDotDot))
      no_slash := no_slash_filename path
      no_nul := fun member => noNul (mem_of_mem_filename member) }

theorem archivePath_resolved
    (isName : IsName (filename path)) :
    through links machine.workingDirectory disk.tree
        (archivePath machine path) =
      some (tmpDir ++ [filename path]) := by
  have resolved := Links.resolve_join_name fresh.resolved fresh.isDirectory
    fresh.noNul isName
  rw [Links.follow, fresh.noLink, Option.getD_none] at resolved
  exact resolved

theorem canPlace_archive
    (isName : IsName (filename path)) :
    disk.tree.CanPlace (tmpDir ++ [filename path]) := by
  apply FileTree.canPlace_concat isName fresh.isDirectory
  rw [fresh.empty]
  exact (Option.some_ne_none _).symm

/-- Where the archive is put, there was no directory and there is none. -/
theorem directories_place
    (isName : IsName (filename path)) (content : Bytes)
    (location : Location) :
    (disk.tree.place (tmpDir ++ [filename path]) (.file content)).node
        location = some .directory ↔
      disk.tree.node location = some .directory := by
  by_cases same : location = tmpDir ++ [filename path]
  · rw [same, FileTree.node_place_self (canPlace_archive fresh isName),
      fresh.empty]
    simp
  · rw [FileTree.node_place_other disk.tree _ same]

end Fresh

/-- The file system's promise about the listings while the archive is open. -/
def ListsBelow
    (links : Links) (machine : Machine) (tree : FileTree)
    (source : Location) : Prop :=
  ∀ below location,
    links.descend tree source below = some location →
    tree.node location = some .directory →
    Lists links tree location (machine.listing location)

section Placed

variable (fresh : FreshThrough links machine disk.tree tmpDir)
variable (isName : IsName (filename path))

include fresh isName

/-- Opening the archive leaves every path where it leads. -/
theorem through_place
    (content : Bytes) (other : PathName) :
    through links machine.workingDirectory
        (disk.tree.place (tmpDir ++ [filename path]) (.file content)) other =
      through links machine.workingDirectory disk.tree other :=
  Links.resolve_of_directories (directories_place fresh isName content) other

theorem descend_place
    (content : Bytes) (below : List PathName) :
    links.descend
        (disk.tree.place (tmpDir ++ [filename path]) (.file content)) source
        below =
      links.descend disk.tree source below :=
  Links.descend_of_directories (directories_place fresh isName content)
    source below

/-- The archive is found wherever the names lead to it. -/
theorem found_place
    {below : List PathName}
    (content : Bytes)
    (leads : links.descend disk.tree source below =
      some (tmpDir ++ [filename path])) :
    links.found
        (disk.tree.place (tmpDir ++ [filename path]) (.file content)) source
        below =
      some (.file content) := by
  rw [← descend_place fresh isName content] at leads
  rw [Links.found_of_descend leads]
  exact FileTree.node_place_self (canPlace_archive fresh isName) _

/-- Everywhere else nothing has changed. -/
theorem found_place_other
    {below : List PathName}
    (content : Bytes)
    (elsewhere : links.descend disk.tree source below ≠
      some (tmpDir ++ [filename path])) :
    links.found
        (disk.tree.place (tmpDir ++ [filename path]) (.file content)) source
        below =
      links.found disk.tree source below := by
  rw [Links.found, Links.found, descend_place fresh isName content]
  cases leads : links.descend disk.tree source below with
  | none => rfl
  | some location =>
      apply FileTree.node_place_other
      rintro rfl
      exact elsewhere leads

end Placed

/-- The archive of a run that ended, with itself in the tree. -/
theorem records_of_returned
    {later : Disk}
    (noNul : 0 ∉ path)
    (fresh : FreshThrough links machine disk.tree tmpDir)
    (resolved :
      links.resolve disk.tree machine.workingDirectory path = some source)
    (lists : ListsBelow links machine
      (disk.tree.place (tmpDir ++ [filename path]) (.file [])) source)
    (inDirectory :
      (disk.tree.place (tmpDir ++ [filename path]) (.file [])).node source =
        some .directory)
    (returns : createArchive machine.zstd
      (through links machine.workingDirectory) machine.listing flushed path
      (archivePath machine path) fuel disk = .returned () later)
    (fits : ∀ archive,
      regularFileWith (through links machine.workingDirectory) later.tree
          (archivePath machine path) = some archive →
        archive.length < sizeModulus) :
    ∃ records,
      regularFileWith (through links machine.workingDirectory) later.tree
          (archivePath machine path) = some (recordsBytes records) ∧
        (∀ record ∈ records, record.Writable) ∧
        RecordsOf
          (links.seen
            (disk.tree.place (tmpDir ++ [filename path]) (.file [])) source
            inDirectory) []
          (filename path) Everything records := by
  have isName := isName_of_returned fresh noNul returns
  have archiveResolved := archivePath_resolved fresh isName
  have possible := canPlace_archive fresh isName
  rcases packed_of_returned _ _
      (compressFile_appends machine.zstd
        (through links machine.workingDirectory) flushed)
      archiveResolved possible returns with
    ⟨entries, closed, packed⟩
  have archive :
      regularFileWith (through links machine.workingDirectory) later.tree
        (archivePath machine path) = some (entriesBytes entries) := by
    rw [closed, regularFileWith, statusWith, through_place fresh isName,
      archiveResolved, Option.bind_some, FileTree.node_place_self possible]
  have kept := (through_place fresh isName [] path).trans resolved
  have records := @recorded_of_packed links _ _ _ _ inDirectory lists _ _
    packed [] source rfl kept noNul
  refine ⟨entries.map Record.ofEntry, ?_, ?_, records⟩
  · rw [recordsBytes_ofEntry]
    exact archive
  · exact writable_of_packed packed (fits _ archive)

/-- Where no names lead to it, the archive does not disturb the packing. -/
theorem createArchive_undisturbed
    (noNul : 0 ∉ path)
    (fresh : FreshThrough links machine disk.tree tmpDir)
    (isName : IsName (filename path))
    (resolved :
      links.resolve disk.tree machine.workingDirectory path = some source)
    (lists : ListsBelow links machine
      (disk.tree.place (tmpDir ++ [filename path]) (.file [])) source)
    (outside :
      ¬ LeadsTo links disk.tree source (tmpDir ++ [filename path])) :
    createArchive machine.zstd (through links machine.workingDirectory)
        machine.listing flushed path (archivePath machine path) fuel disk =
      createArchiveWith (through links machine.workingDirectory)
        machine.listing (fun _ => asOpened machine.zstd) path
        (archivePath machine path) fuel disk := by
  have opens := openForWritingWith_run (archivePath_resolved fresh isName)
    (canPlace_archive fresh isName)
  have leadsOnce := @through_place links machine disk path tmpDir fresh
    isName [] path
  have sameDescend := fun below =>
    @descend_place links machine disk path source tmpDir fresh isName []
      below
  generalize isOpen :
    (⟨disk.tree.place (tmpDir ++ [filename path]) (.file []),
      disk.handed ++ [archivePath machine path]⟩ : Disk) = between at opens
  have isTree : between.tree =
      disk.tree.place (tmpDir ++ [filename path]) (.file []) := by
    rw [← isOpen]
  rw [← isTree] at lists leadsOnce
  -- a path that the walk comes to leads where some names lead
  let spared (current : PathName) : Prop :=
    0 ∉ current ∧ ∃ below location,
      links.descend between.tree source below = some location ∧
      through links machine.workingDirectory between.tree current =
        some location
  have agree : Agree
      (compressFile machine.zstd (through links machine.workingDirectory)
        flushed (some (tmpDir ++ [filename path])))
      (asOpened machine.zstd) between spared := by
    rintro fuel filePath content packing
      ⟨-, below, location, descends, leads⟩ isDisk
    apply compressFile_eq
    rw [isDisk, leads]
    intro same
    cases same
    rw [isTree, sameDescend] at descends
    exact outside ⟨below, descends⟩
  have descends : ∀ dirToCompress location,
      spared dirToCompress →
      through links machine.workingDirectory between.tree dirToCompress =
        some location →
      between.tree.node location = some .directory →
      ∀ name ∈ machine.listing location,
        spared (join dirToCompress name) := by
    rintro dirToCompress location ⟨noNul, below, _, descends, leads⟩ leadsTo
      isDirectory name member
    cases leads.symm.trans leadsTo
    have isEntry := (lists below location descends isDirectory).named name
      member
    exact ⟨FileTree.no_nul_join noNul isEntry.no_nul, below ++ [name], _,
      Links.descend_concat descends isDirectory name,
      Links.resolve_join_name leads isDirectory noNul isEntry⟩
  have isSpared : spared path :=
    ⟨noNul, [], source, rfl, leadsOnce.trans resolved⟩
  have packs := packDirectoryWith_congr agree
    (asOpened_appends machine.zstd) descends fuel isSpared (filename path) []
  rw [createArchive]
  apply Program.bind_congr rfl
  intro _ _ gets
  cases gets
  split_ifs
  · rfl
  · apply Program.bind_congr rfl
    intro opened later opensLater
    cases opens.symm.trans opensLater
    rw [writeArchiveWith, writeArchiveWith, packs]

/-- An archive that some names lead to has a record for itself. -/
theorem not_packedAsItWas
    {later : Disk}
    (noNul : 0 ∉ path)
    (fresh : FreshThrough links machine disk.tree tmpDir)
    (resolved :
      links.resolve disk.tree machine.workingDirectory path = some source)
    (lists : ListsBelow links machine
      (disk.tree.place (tmpDir ++ [filename path]) (.file [])) source)
    (returns : createArchive machine.zstd
      (through links machine.workingDirectory) machine.listing flushed path
      (archivePath machine path) fuel disk = .returned () later)
    (fits : ∀ archive,
      regularFileWith (through links machine.workingDirectory) later.tree
          (archivePath machine path) = some archive →
        archive.length < sizeModulus)
    (leads : LeadsTo links disk.tree source (tmpDir ++ [filename path])) :
    ¬ PackedAsItWas links machine flushed disk later path
      (archivePath machine path) source fuel := by
  rintro ⟨⟨isDirectory, archive, isArchive, before, rfl, beforeWritable,
    ofBefore⟩, -⟩
  have isName := isName_of_returned fresh noNul returns
  have stillDirectory :=
    (directories_place fresh isName [] source).2 isDirectory
  rcases records_of_returned noNul fresh resolved lists stillDirectory
      returns fits with
    ⟨records, isRecords, writable, ofPlaced⟩
  have same : before = records := by
    apply records_unique (readable_of_writable beforeWritable)
      (readable_of_writable writable)
    exact Option.some.inj (isArchive.symm.trans isRecords)
  rw [same] at ofBefore
  rcases leads with ⟨below, descends⟩
  have more (other : List PathName)
      (present : (links.seen disk.tree source isDirectory).node other ≠
        none) :
      (links.seen (disk.tree.place (tmpDir ++ [filename path]) (.file []))
        source stillDirectory).node other ≠ none := by
    by_cases isArchive : links.descend disk.tree source other =
        some (tmpDir ++ [filename path])
    · exact (found_place fresh isName [] isArchive).trans_ne
        (Option.some_ne_none _)
    · exact (found_place_other fresh isName [] isArchive).trans_ne present
  have isFree : (links.seen disk.tree source isDirectory).node below = none :=
    (Links.found_of_descend descends).trans (fresh.empty _)
  have isThere : (links.seen
      (disk.tree.place (tmpDir ++ [filename path]) (.file [])) source
      stillDirectory).node below ≠ none :=
    (found_place fresh isName [] descends).trans_ne (Option.some_ne_none _)
  exact RecordsOf.not_of_more more isFree isThere ofPlaced ofBefore

end Sending

/--
A directory that was packed is packed as it was, without its archive, unless
names of entries lead from it to the archive, straight down or through links.
-/
theorem packedAsItWas_iff
    {links : Links} {machine : Machine} {flushed : Flushed} {disk : Disk}
    {path : PathName} {source tmpDir : Location} {fuel : Nat}
    {entry : RAIIFSEntry} {isCompressed : Bool} {moment : Local Peer Disk}
    (noNul : 0 ∉ path)
    (fresh : FreshThrough links machine disk.tree tmpDir)
    (resolved :
      links.resolve disk.tree machine.workingDirectory path = some source)
    (inDirectory : disk.tree.node source = some .directory)
    (lists : ListsBelow links machine
      (disk.tree.place (tmpDir ++ [filename path]) (.file [])) source)
    (becomes : Becomes (compressIfNecessary links machine flushed path fuel)
      ⟨disk, silence, silence⟩ (.done (entry, isCompressed)) moment)
    (fits : ∀ archive,
      regularFileWith (through links machine.workingDirectory)
          moment.state.tree entry.path = some archive →
        archive.length < sizeModulus) :
    PackedAsItWas links machine flushed disk moment.state path entry.path
        source fuel ↔
      ¬ LeadsTo links disk.tree source (tmpDir ++ [filename path]) := by
  have isDirectory :
      isDirectoryWith (through links machine.workingDirectory) disk.tree
        path = true := by
    rw [isDirectoryWith, statusWith, through, resolved, Option.bind_some,
      inDirectory]
    rfl
  rcases returned_of_becomes isDirectory becomes with ⟨isPath, returns⟩
  rw [isPath] at fits ⊢
  constructor
  · intro packed leads
    exact not_packedAsItWas noNul fresh resolved lists returns fits leads
      packed
  · intro outside
    have isName := isName_of_returned fresh noNul returns
    have stillDirectory :=
      (directories_place fresh isName [] source).2 inDirectory
    rcases records_of_returned noNul fresh resolved lists stillDirectory
        returns fits with
      ⟨records, isRecords, writable, ofPlaced⟩
    have same :
        links.seen
            (disk.tree.place (tmpDir ++ [filename path]) (.file [])) source
            stillDirectory =
          links.seen disk.tree source inDirectory := by
      apply FileTree.ext
      intro below
      exact found_place_other fresh isName [] fun leads =>
        outside ⟨below, leads⟩
    rw [same] at ofPlaced
    exact
      { archive :=
          ⟨inDirectory, _, isRecords, records, rfl, writable, ofPlaced⟩
        noGrowth := createArchive_undisturbed noNul fresh isName resolved
          lists outside }

/-! ### Without links -/

section Nowhere

/-- Without links the archive is created as `ArchiveManager` does it. -/
theorem createArchiveWith_nowhere
    (lib : Library) (workingDirectory : Location)
    (listing : Location → List PathName) :
    createArchiveWith (through Links.nowhere workingDirectory) listing
        (fun _ => asOpened lib) =
      ArchiveManager.createArchive lib workingDirectory listing := by
  have same : through Links.nowhere workingDirectory =
      withoutLinks workingDirectory := by
    funext tree path
    exact Links.resolve_nowhere workingDirectory path
  rw [same, createArchive_eq]

/-- Without links only the directory above leads to the archive. -/
theorem leadsTo_nowhere_iff
    {machine : Machine} {tree : FileTree} {source tmpDir : Location}
    (fresh : FreshThrough Links.nowhere machine tree tmpDir)
    (inDirectory : tree.node source = some .directory)
    (name : PathName) :
    LeadsTo Links.nowhere tree source (tmpDir ++ [name]) ↔
      source <+: tmpDir := by
  constructor
  · rintro ⟨below, descends⟩
    have isPrefix : source <+: tmpDir ++ [name] := by
      rw [Links.descend_nowhere descends]
      exact List.prefix_append _ _
    rcases List.prefix_concat_iff.1 isPrefix with rfl | isAbove
    · rw [fresh.empty] at inDirectory
      cases inDirectory
    · exact isAbove
  · rintro ⟨below, rfl⟩
    exact ⟨below ++ [name],
      Links.descend_nowhere_concat fresh.isDirectory name⟩

end Nowhere

/-! ### Two directories on one disk -/

/-- The machine with listings of the directories while one of them is sent. -/
def listingMachine : Machine where
  zstd := ZstdRoundTrip.holdingBack (show 0 < 1000 by decide)
    (show 0 < 1000 by decide)
  library := FlatJson.flatLibrary
  digest := machineInD.digest
  workingDirectory := [ascii "d"]
  temporaryDirectory := ascii "/tmp"
  listing location :=
    if location = [] then [ascii "tmp", ascii "d"]
    else if location = [ascii "d"] then [ascii "e", ascii "l"]
    else if location = [ascii "tmp"] then [ascii "drop-file"]
    else if location = [ascii "tmp", ascii "drop-file"] then [ascii "sender"]
    else if location = [ascii "tmp", ascii "drop-file", ascii "sender"] then
      [ascii "tmp", ascii "d"]
    else []
  ready _ := 1

/-- The link `/d/l`, and no other one. -/
def oneLink (target : Location) : Links where
  target location :=
    if location = [ascii "d", ascii "l"] then some target else none
  named := by
    intro location name present
    split_ifs at present with isLink
    · have isLast := congrArg List.getLast? isLink
      rw [List.getLast?_concat] at isLast
      cases isLast
      decide
    · exact absurd rfl present

theorem follow_oneLink (target location : Location) :
    (oneLink target).follow location =
      if location = [ascii "d", ascii "l"] then target else location := by
  rw [Links.follow, oneLink]
  dsimp only
  split_ifs
  · rfl
  · rfl

theorem node_freshDisk (location : Location) :
    freshDisk.tree.node location =
      if location = [ascii "d", ascii "e"] then some .directory
      else if location = [ascii "d"] then some .directory
      else if location = [ascii "tmp", ascii "drop-file", ascii "sender"]
      then some .directory
      else if location = [ascii "tmp", ascii "drop-file"] then some .directory
      else if location = [ascii "tmp"] then some .directory
      else if location = [] then some .directory
      else none := by
  rw [freshDisk]
  dsimp only
  rw [FileTree.node_place (by decide +kernel),
    FileTree.node_place (by decide +kernel),
    FileTree.node_place (by decide +kernel),
    FileTree.node_place (by decide +kernel),
    FileTree.node_place (by decide +kernel)]
  rfl

/-- What a listing must have, if at most `/d/l` is a link. -/
theorem lists_of_complete
    {links : Links} {tree : FileTree} {location : Location}
    {names : List PathName}
    (onlyLink : ∀ other, other ≠ [ascii "d", ascii "l"] →
      links.follow other = other)
    (listed : location = [ascii "d"] → ascii "l" ∈ names)
    (nodup : names.Nodup)
    (named : ∀ name ∈ names, IsName name)
    (complete : ∀ name, tree.node (location ++ [name]) ≠ none →
      name ∈ names) :
    Lists links tree location names where
  nodup := nodup
  named := named
  complete := by
    intro name present
    by_cases isLink : location ++ [name] = [ascii "d", ascii "l"]
    · have split : [ascii "d", ascii "l"] = [ascii "d"] ++ [ascii "l"] :=
        rfl
      rw [split] at isLink
      rcases List.append_inj' isLink rfl with ⟨isHolder, isName⟩
      cases isName
      exact listed isHolder
    · rw [onlyLink _ isLink] at present
      exact complete name present

theorem listsBelow_listingMachine
    {links : Links} {name : PathName} (source : Location)
    (onlyLink : ∀ other, other ≠ [ascii "d", ascii "l"] →
      links.follow other = other)
    (isOne : name = ascii "tmp" ∨ name = ascii "d")
    (possible : freshDisk.tree.CanPlace
      [ascii "tmp", ascii "drop-file", ascii "sender", name]) :
    ListsBelow links listingMachine
      (freshDisk.tree.place
        [ascii "tmp", ascii "drop-file", ascii "sender", name] (.file []))
      source := by
  intro _ location _ isDirectory
  have outside : ascii "d" ≠ ascii "tmp" := by decide
  have different := FileTree.node_place possible
  rw [different, node_freshDisk] at isDirectory
  split_ifs at isDirectory with isArchive inE inD inSender inDropFile inTmp
    inRoot
  · cases isDirectory
  · rw [inE]
    apply lists_of_complete onlyLink (by decide) (by decide) (by decide)
    intro child present
    rw [different, node_freshDisk] at present
    simp [outside] at present
  · rw [inD]
    apply lists_of_complete onlyLink (by decide) (by decide) (by decide)
    intro child present
    rw [different, node_freshDisk] at present
    have isChild : child = ascii "e" := by
      by_contra other
      simp [outside, other] at present
    rw [isChild]
    decide
  · rw [inSender]
    apply lists_of_complete onlyLink (by decide) (by decide) (by decide)
    intro child present
    rw [different, node_freshDisk] at present
    have isChild : child = name := by
      by_contra other
      simp [other] at present
    rw [isChild]
    rcases isOne with rfl | rfl
    · decide
    · decide
  · rw [inDropFile]
    apply lists_of_complete onlyLink (by decide) (by decide) (by decide)
    intro child present
    rw [different, node_freshDisk] at present
    have isChild : child = ascii "sender" := by
      by_contra other
      simp [other] at present
    rw [isChild]
    decide
  · rw [inTmp]
    apply lists_of_complete onlyLink (by decide) (by decide) (by decide)
    intro child present
    rw [different, node_freshDisk] at present
    have isChild : child = ascii "drop-file" := by
      by_contra other
      simp [outside.symm, other] at present
    rw [isChild]
    decide
  · rw [inRoot]
    apply lists_of_complete onlyLink (by decide) (by decide) (by decide)
    intro child present
    rw [different, node_freshDisk] at present
    have isChild : child = ascii "tmp" ∨ child = ascii "d" := by
      by_contra others
      rw [not_or] at others
      simp [others.1, others.2] at present
    rcases isChild with rfl | rfl
    · decide
    · decide

/-- A directory is compressed if its archive can be created. -/
theorem becomes_of_returned
    {links : Links} {machine : Machine} {flushed : Flushed}
    {disk later : Disk} {path : PathName} {fuel : Nat}
    (inDirectory :
      isDirectoryWith (through links machine.workingDirectory) disk.tree
        path = true)
    (returns : createArchive machine.zstd
      (through links machine.workingDirectory) machine.listing flushed path
      (archivePath machine path) fuel disk = .returned () later) :
    Becomes (compressIfNecessary links machine flushed path fuel)
      (⟨disk, silence, silence⟩ : Local Peer Disk)
      (.done (⟨archivePath machine path, true⟩, true))
      ⟨later, silence, silence⟩ := by
  have creates :
      Plays (ofProgram (createArchive machine.zstd
          (through links machine.workingDirectory) machine.listing flushed
          path (archivePath machine path) fuel))
        disk silence silence (.done () : SenderProcess Peer Unit) later :=
    Plays.ofProgram returns
  have attempts := creates.bind fun _ =>
    (pure (⟨archivePath machine path, true⟩, true) :
      SenderProcess Peer (RAIIFSEntry × Bool))
  have plays :
      Plays (compressIfNecessary links machine flushed path fuel) disk
        silence silence
        (.done (⟨archivePath machine path, true⟩, true) :
          SenderProcess Peer (RAIIFSEntry × Bool)) later := by
    apply Plays.update
    show Plays (ite _ _ _) disk silence silence _ later
    rw [if_pos inDirectory]
    exact attempts
  exact Becomes.of_plays plays silence silence

/-- A run that is seen to end with a small archive. -/
theorem exists_returned
    {links : Links} {path : PathName} {fuel : Nat}
    (ends :
      ((createArchive listingMachine.zstd
        (through links listingMachine.workingDirectory)
        listingMachine.listing OStream.data path
        (archivePath listingMachine path) fuel freshDisk).finalState.any
          fun later =>
            (regularFileWith (through links listingMachine.workingDirectory)
              later.tree (archivePath listingMachine path)).all
                fun archive => archive.length < sizeModulus) = true) :
    ∃ later : Disk,
      createArchive listingMachine.zstd
          (through links listingMachine.workingDirectory)
          listingMachine.listing OStream.data path
          (archivePath listingMachine path) fuel freshDisk =
        .returned () later ∧
      ∀ archive,
        regularFileWith (through links listingMachine.workingDirectory)
            later.tree (archivePath listingMachine path) = some archive →
          archive.length < sizeModulus := by
  rw [Option.any_eq_true] at ends
  rcases ends with ⟨later, final, small⟩
  refine ⟨later, Outcome.eq_returned final, ?_⟩
  intro archive isArchive
  rw [isArchive, Option.all_some, decide_eq_true_eq] at small
  exact small

theorem freshThrough_listingMachine
    {links : Links}
    (resolved : links.resolve freshDisk.tree listingMachine.workingDirectory
        (senderTmpDir listingMachine) =
      some [ascii "tmp", ascii "drop-file", ascii "sender"])
    (noLink : ∀ name, links.target
      ([ascii "tmp", ascii "drop-file", ascii "sender"] ++ [name]) = none) :
    FreshThrough links listingMachine freshDisk.tree
      [ascii "tmp", ascii "drop-file", ascii "sender"] where
  noNul := by decide +kernel
  resolved := resolved
  isDirectory := by decide +kernel
  empty := freshTmpDir_freshDisk.empty
  noLink := noLink

theorem freshThrough_oneLink
    {target : Location}
    (resolved : (oneLink target).resolve freshDisk.tree
        listingMachine.workingDirectory (senderTmpDir listingMachine) =
      some [ascii "tmp", ascii "drop-file", ascii "sender"]) :
    FreshThrough (oneLink target) listingMachine freshDisk.tree
      [ascii "tmp", ascii "drop-file", ascii "sender"] := by
  apply freshThrough_listingMachine resolved
  intro name
  have elsewhere : [ascii "tmp", ascii "drop-file", ascii "sender"] ++
      [name] ≠ [ascii "d", ascii "l"] := by
    simp
  rw [oneLink]
  dsimp only
  rw [if_neg elsewhere]

theorem lists_oneLink
    (target : Location) (source : Location) :
    ListsBelow (oneLink target) listingMachine
      (freshDisk.tree.place
        ([ascii "tmp", ascii "drop-file", ascii "sender"] ++
          [filename (ascii "/d")]) (.file [])) source := by
  have isName : filename (ascii "/d") = ascii "d" := by decide
  rw [isName]
  apply listsBelow_listingMachine source _ (Or.inr rfl) (by decide +kernel)
  intro other different
  rw [follow_oneLink, if_neg different]

/-- A directory with a link to a directory in it. -/
theorem packedAsItWas_iff_d :
    ∃ later : Disk,
      PackedAsItWas (oneLink [ascii "d", ascii "e"]) listingMachine
        OStream.data freshDisk later (ascii "/d")
        (archivePath listingMachine (ascii "/d")) [ascii "d"] 5 := by
  have inDirectory : isDirectoryWith
      (through (oneLink [ascii "d", ascii "e"])
        listingMachine.workingDirectory) freshDisk.tree (ascii "/d") =
      true := by
    decide +kernel
  rcases @exists_returned (oneLink [ascii "d", ascii "e"]) (ascii "/d")
      5 (by decide +kernel) with
    ⟨later, returns, fits⟩
  have becomes := @becomes_of_returned Unit _ _ _ _ _ _ _ _ inDirectory
    returns
  have packed := packedAsItWas_iff (by decide)
    (freshThrough_oneLink (by decide +kernel)) (by decide +kernel)
    (by decide +kernel) (lists_oneLink _ [ascii "d"]) becomes fits
  refine ⟨later, packed.2 ?_⟩
  rintro ⟨below, descends⟩
  have within : [ascii "d"] <+:
      [ascii "tmp", ascii "drop-file", ascii "sender"] ++
        [filename (ascii "/d")] := by
    refine Links.descend_within (List.prefix_refl _) ?_ descends
    intro location name inD
    rw [follow_oneLink]
    split_ifs
    · exact ⟨[ascii "e"], rfl⟩
    · exact inD.trans (List.prefix_append _ _)
  exact absurd within (by decide)

/-- The parent of the temporary directory is packed with its archive. -/
theorem not_packedAsItWas_tmp :
    ∃ moment : Local Unit Disk,
      Becomes (compressIfNecessary Links.nowhere listingMachine OStream.data
          (ascii "/tmp") 5)
        ⟨freshDisk, silence, silence⟩
        (.done (⟨archivePath listingMachine (ascii "/tmp"), true⟩, true))
        moment ∧
      ¬ PackedAsItWas Links.nowhere listingMachine OStream.data freshDisk
        moment.state (ascii "/tmp")
        (archivePath listingMachine (ascii "/tmp")) [ascii "tmp"] 5 := by
  have inDirectory : isDirectoryWith
      (through Links.nowhere listingMachine.workingDirectory) freshDisk.tree
        (ascii "/tmp") = true := by
    decide +kernel
  rcases @exists_returned Links.nowhere (ascii "/tmp") 5 (by decide +kernel)
    with ⟨later, returns, fits⟩
  have fresh : FreshThrough Links.nowhere listingMachine freshDisk.tree
      [ascii "tmp", ascii "drop-file", ascii "sender"] :=
    freshThrough_listingMachine (by decide +kernel) fun _ => rfl
  have lists : ListsBelow Links.nowhere listingMachine
      (freshDisk.tree.place
        ([ascii "tmp", ascii "drop-file", ascii "sender"] ++
          [filename (ascii "/tmp")]) (.file [])) [ascii "tmp"] := by
    have isName : filename (ascii "/tmp") = ascii "tmp" := by decide
    rw [isName]
    exact listsBelow_listingMachine _ (fun _ _ => rfl) (Or.inl rfl)
      (by decide +kernel)
  refine ⟨_, becomes_of_returned inDirectory returns, ?_⟩
  apply not_packedAsItWas (by decide) fresh (by decide +kernel) lists returns
    fits
  exact (leadsTo_nowhere_iff fresh (by decide +kernel) _).2 (by decide)

/-- So is a directory that only has a link to that parent. -/
theorem not_packedAsItWas_link :
    ∃ later : Disk,
      createArchive listingMachine.zstd
          (through (oneLink [ascii "tmp"]) listingMachine.workingDirectory)
          listingMachine.listing OStream.data (ascii "/d")
          (archivePath listingMachine (ascii "/d")) 7 freshDisk =
        .returned () later ∧
      ¬ PackedAsItWas (oneLink [ascii "tmp"]) listingMachine OStream.data
        freshDisk later (ascii "/d")
        (archivePath listingMachine (ascii "/d")) [ascii "d"] 7 := by
  rcases @exists_returned (oneLink [ascii "tmp"]) (ascii "/d") 7
      (by decide +kernel) with
    ⟨later, returns, fits⟩
  refine ⟨later, returns, ?_⟩
  apply not_packedAsItWas (by decide)
    (freshThrough_oneLink (by decide +kernel)) (by decide +kernel)
    (lists_oneLink _ _) returns fits
  exact ⟨[ascii "l", ascii "drop-file", ascii "sender", ascii "d"],
    by decide +kernel⟩

end DropFile.Client.LiveArchives
