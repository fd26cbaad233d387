import DropFile.Client.ArchiveRoundTrip

/-!
# Which trees are packed

A tree is packed exactly if none of the paths in it is too long for a header.
Packing and unpacking then both end, and the copy is there.
-/

namespace DropFile.Client.PackedTrees

open DropFile.General.FuelledProgram
open DropFile.General.PathNames
open DropFile.General.Files
open DropFile.General.Files.FileTree
open DropFile.Streams
open DropFile.FileSystem
open DropFile.Client.EntryInfo
open DropFile.Client.Zstd
open DropFile.Client.ZstdRoundTrip
open DropFile.Client.ArchiveManager
open DropFile.Client.LiveUnpacking (Buffering)
open DropFile.Client.ArchiveRoundTrip

/-- The path of everything in the tree fits into a header. -/
def Fits (tree : FileTree) (origin : Location) (names : List PathName) :
    Prop :=
  ∀ below, tree.node (origin ++ below) ≠ none →
    (joinNames (names ++ below)).length ≤ pathMaxLen

section Trees

variable {tree : FileTree} {origin : Location} {names : List PathName}

theorem fits_file
    {content : Bytes}
    (isFile : tree.node origin = some (.file content)) :
    Fits tree origin names ↔ (joinNames names).length ≤ pathMaxLen := by
  constructor
  · intro fits
    have short := fits [] (by
      rw [List.append_nil, isFile]
      exact Option.some_ne_none _)
    rwa [List.append_nil] at short
  · intro short below present
    by_cases top : below = []
    · rwa [top, List.append_nil]
    · have isDirectory := tree.ancestor_isDirectory below present top
      rw [isFile] at isDirectory
      cases isDirectory

theorem fits_directory
    (isDirectory : tree.node origin = some .directory) :
    Fits tree origin names ↔
      (joinNames names).length ≤ pathMaxLen ∧
        ∀ entry, tree.node (origin ++ [entry]) ≠ none →
          Fits tree (origin ++ [entry]) (names ++ [entry]) := by
  constructor
  · intro fits
    constructor
    · have short := fits [] (by
        rw [List.append_nil, isDirectory]
        exact Option.some_ne_none _)
      rwa [List.append_nil] at short
    · intro entry _ below present
      rw [List.append_assoc] at present ⊢
      exact fits _ present
  · rintro ⟨short, entries⟩ below present
    cases below with
    | nil => rwa [List.append_nil]
    | cons entry rest =>
        have split (before : List PathName) :
            before ++ entry :: rest = before ++ [entry] ++ rest := by simp
        rw [split] at present ⊢
        apply entries entry _ rest present
        intro free
        exact present (tree.node_below_none free rest)

end Trees

/-! ## What packing reports -/

section Reporting

variable {lib : Library} {workingDirectory : Location}
variable {listing : Location → List PathName} {disk : Disk}

/-- Nothing but an archive is written. -/
def AtEnd (disk : Disk) (packing : Packing) : Prop :=
  ∃ archive, packing = ⟨disk, OStream.atEnd archive⟩

/-- The exception of a path that is too long, if there is such a path. -/
def Reports (tooLong : Prop) (error : Exception) (_ : Packing) : Prop :=
  error.thrown = .fsEntryInfo ∧ tooLong

theorem construct_reports
    {σ : Type} {relativePath : PathName}
    (tooLong : ¬ relativePath.length ≤ pathMaxLen)
    (isDirectory : Bool) (state : σ) :
    ∃ error, error.thrown = .fsEntryInfo ∧
      construct isDirectory relativePath state = .threw error state := by
  rw [construct, if_pos (Nat.lt_of_not_le tooLong)]
  exact ⟨_, rfl, rfl⟩

theorem addDirectory_reports (names : List PathName) :
    Program.Satisfies (AtEnd disk) (addDirectory (joinNames names))
      (fun _ packing => AtEnd disk packing ∧
        (joinNames names).length ≤ pathMaxLen)
      (Reports ¬ (joinNames names).length ≤ pathMaxLen) := by
  rintro _ ⟨before, rfl⟩
  by_cases short : (joinNames names).length ≤ pathMaxLen
  · rw [addDirectory_run short before]
    exact ⟨⟨_, rfl⟩, short⟩
  · rcases construct_reports short true
      (⟨disk, OStream.atEnd before⟩ : Packing) with ⟨error, kind, threw⟩
    rw [addDirectory, Program.bind_threw threw]
    exact ⟨kind, short⟩

/-- Compressing what can be restored does not fail. -/
theorem addFile_reports
    {origin : Location} {filePath : PathName} {content : Bytes}
    (leads : Leads disk.tree workingDirectory filePath origin)
    (isFile : disk.tree.node origin = some (.file content))
    (roundTrips : RoundTrips lib content)
    (names : List PathName) (fuel : Nat) :
    Program.Satisfies (AtEnd disk)
      (addFile lib workingDirectory fuel filePath
        (joinNames names))
      (fun _ packing => AtEnd disk packing ∧
        (joinNames names).length ≤ pathMaxLen)
      (Reports ¬ (joinNames names).length ≤ pathMaxLen) := by
  rintro _ ⟨before, rfl⟩
  by_cases short : (joinNames names).length ≤ pathMaxLen
  · have written :=
      writeToStream_run ⟨false, joinNames names, 0⟩ short before
    rw [addFile, Program.bind_returned (construct_run short _),
      Program.bind_returned (onArchive_returned written),
      Program.bind_returned (Program.getState_run _)]
    simp only [leads.regularFile isFile]
    rcases roundTrips (before ++ header
      ⟨false, joinNames names, 0⟩) with
      ⟨payload, ⟨finished, compresses⟩, -⟩
    rcases Settles.outOfFuel_or_eq (compress_grows lib) compresses fuel with
      out | compressed
    · have streamed : compressFile lib content fuel
          ⟨disk, OStream.atEnd (before ++ header
            ⟨false, joinNames names, 0⟩)⟩ = .outOfFuel := by
        simp only [compressFile, Program.focus, out]
      rw [Program.bind_run, streamed]
      trivial
    · have streamed : compressFile lib content fuel
          ⟨disk, OStream.atEnd (before ++ header
            ⟨false, joinNames names, 0⟩)⟩ =
          .returned payload.length
            ⟨disk, OStream.atEnd (before ++ header
              ⟨false, joinNames names, 0⟩ ++ payload)⟩ := by
        simp only [compressFile, Program.focus, compressed]
      have patched := writeCompressedLength_run
        ⟨false, joinNames names, 0⟩ before payload
        payload.length
      rw [Program.bind_returned streamed, onArchive_returned patched]
      exact ⟨⟨_, rfl⟩, short⟩
  · rcases construct_reports short false
      (⟨disk, OStream.atEnd before⟩ : Packing) with ⟨error, kind, threw⟩
    rw [addFile, Program.bind_threw threw]
    exact ⟨kind, short⟩

/-- What is asked of the directories among the entries. -/
def EntriesReport (lib : Library) (workingDirectory : Location)
    (listing : Location → List PathName) (disk : Disk) (origin : Location)
    (fuel : Nat) : Prop :=
  ∀ (name : PathName) (holder : List PathName) (path : PathName),
    disk.tree.node (origin ++ [name]) = some .directory →
    Leads disk.tree workingDirectory path (origin ++ [name]) →
    (∀ each ∈ holder ++ [name], IsName each) →
    Program.Satisfies (AtEnd disk)
      (packDirectory lib workingDirectory listing fuel path
        (joinNames (holder ++ [name])))
      (fun _ packing => AtEnd disk packing ∧
        Fits disk.tree (origin ++ [name]) (holder ++ [name]))
      (Reports ¬ Fits disk.tree (origin ++ [name]) (holder ++ [name]))

section Entries

variable {origin : Location} {holder : List PathName}
variable {name dirToCompress : PathName} {fuel : Nat}
variable (leads : Leads disk.tree workingDirectory dirToCompress origin)
variable (topIsDirectory : disk.tree.node origin = some .directory)
variable (subdirectories :
  EntriesReport lib workingDirectory listing disk origin fuel)
variable (areNames : ∀ each ∈ holder ++ [name], IsName each)
include leads topIsDirectory subdirectories areNames

theorem packEntry_reports
    {entry : PathName}
    (present : disk.tree.node (origin ++ [entry]) ≠ none)
    (roundTrips : ∀ content,
      disk.tree.node (origin ++ [entry]) = some (.file content) →
        RoundTrips lib content) :
    Program.Satisfies (AtEnd disk)
      (packEntry lib workingDirectory
        (packDirectory lib workingDirectory listing fuel) fuel dirToCompress
        (joinNames (holder ++ [name])) entry)
      (fun _ packing => AtEnd disk packing ∧
        Fits disk.tree (origin ++ [entry]) (holder ++ [name] ++ [entry]))
      (Reports ¬ Fits disk.tree (origin ++ [entry])
        (holder ++ [name] ++ [entry])) := by
  have isName : IsName entry := disk.tree.named origin entry present
  have entryNames :
      ∀ each ∈ holder ++ [name] ++ [entry], IsName each := by
    intro each member
    rcases List.mem_append.1 member with inNames | isEntry
    · exact areNames each inNames
    · rwa [List.mem_singleton.1 isEntry]
  have entryLeads := leads.join topIsDirectory isName
  have relative :
      join (joinNames (holder ++ [name])) entry =
        joinNames (holder ++ [name] ++ [entry]) :=
    join_joinNames (by simp) areNames isName
  rintro _ ⟨before, rfl⟩
  simp only [packEntry, filename_join isName, relative,
    Program.bind_returned (Program.getState_run _),
    entryLeads.isDirectory_iff]
  cases node : disk.tree.node (origin ++ [entry]) with
  | none => exact absurd node present
  | some kind =>
      cases kind with
      | directory =>
          rw [decide_eq_true rfl, if_pos rfl]
          exact subdirectories entry (holder ++ [name]) _ node entryLeads
            entryNames _ ⟨before, rfl⟩
      | file content =>
          have isFile := entryLeads.regularFile node
          rw [decide_eq_false (by simp), if_neg Bool.false_ne_true, isFile,
            Option.isSome_some, if_pos rfl, fits_file node]
          exact addFile_reports entryLeads node (roundTrips content node) _
            fuel _ ⟨before, rfl⟩

/-- The first entry with a path that is too long ends the packing. -/
theorem packEntries_reports
    (entries : List PathName)
    (present : ∀ entry ∈ entries,
      disk.tree.node (origin ++ [entry]) ≠ none)
    (roundTrips : ∀ entry content,
      disk.tree.node (origin ++ [entry]) = some (.file content) →
        RoundTrips lib content) :
    Program.Satisfies (AtEnd disk)
      (Program.forEach
        (packEntry lib workingDirectory
          (packDirectory lib workingDirectory listing fuel) fuel
          dirToCompress (joinNames (holder ++ [name])))
        entries)
      (fun _ packing => AtEnd disk packing ∧
        ∀ entry ∈ entries, Fits disk.tree (origin ++ [entry])
          (holder ++ [name] ++ [entry]))
      (Reports (∃ entry ∈ entries, ¬ Fits disk.tree (origin ++ [entry])
        (holder ++ [name] ++ [entry]))) := by
  induction entries with
  | nil =>
      apply Program.Satisfies.pure
      intro packing atEnd
      exact ⟨atEnd, fun entry member => absurd member List.not_mem_nil⟩
  | cons entry rest inductionHypothesis =>
      have others := inductionHypothesis fun other member =>
        present other (List.mem_cons_of_mem entry member)
      have first := packEntry_reports leads topIsDirectory subdirectories
        areNames (present entry List.mem_cons_self) (roundTrips entry)
      rw [Program.forEach]
      apply Program.Satisfies.bind
        (first.weaken (fun _ atEnd => atEnd) (fun _ _ holds => holds) _)
      · rintro _ packing ⟨atEnd, fits⟩
        apply others.weaken (fun _ atEnd => atEnd) _ _ packing atEnd
        · rintro _ later ⟨stillAtEnd, restFit⟩
          exact ⟨stillAtEnd, List.forall_mem_cons.2 ⟨fits, restFit⟩⟩
        · rintro error later ⟨kind, other, member, tooLong⟩
          exact ⟨kind, other, List.mem_cons_of_mem entry member, tooLong⟩
      · rintro error packing ⟨kind, tooLong⟩
        exact ⟨kind, entry, List.mem_cons_self, tooLong⟩

end Entries

/-- Packing fails on a path that is too long, and on nothing else. -/
theorem packDirectory_reports
    (fuel : Nat) {origin : Location} (holder : List PathName)
    {name dirToCompress : PathName}
    (leads : Leads disk.tree workingDirectory dirToCompress origin)
    (packable : Packable lib listing disk.tree origin)
    (areNames : ∀ each ∈ holder ++ [name], IsName each) :
    Program.Satisfies (AtEnd disk)
      (packDirectory lib workingDirectory listing fuel dirToCompress
        (joinNames (holder ++ [name])))
      (fun _ packing => AtEnd disk packing ∧
        Fits disk.tree origin (holder ++ [name]))
      (Reports ¬ Fits disk.tree origin (holder ++ [name])) := by
  induction fuel generalizing origin holder name dirToCompress with
  | zero =>
      intro packing _
      trivial
  | succ fuel inductionHypothesis =>
      have lists := packable.lists []
      rw [List.append_nil] at lists
      have lists := lists packable.isDirectory
      have subdirectories :
          EntriesReport lib workingDirectory listing disk origin fuel := by
        intro entry holder path isDirectory entryLeads entryNames
        exact inductionHypothesis holder entryLeads
          (packable.entry isDirectory) entryNames
      have entries := packEntries_reports leads packable.isDirectory
        subdirectories areNames (listing origin)
        (fun entry member => (lists.complete entry).1 member)
        (fun entry => packable.roundTrips [entry])
      rw [packDirectory]
      apply Program.Satisfies.bind
        ((addDirectory_reports (holder ++ [name])).weaken
          (fun _ atEnd => atEnd) (fun _ _ holds => holds) _)
      · rintro _ packing ⟨atEnd, short⟩
        have listed : directoryEntries workingDirectory listing
            dirToCompress packing = .returned (listing origin) packing := by
          rcases atEnd with ⟨before, rfl⟩
          rw [directoryEntries, Program.bind_returned
            (Program.getState_run _)]
          simp only [leads.resolved, packable.isDirectory, if_true]
          rfl
        rw [Program.bind_returned listed]
        apply entries.weaken (fun _ atEnd => atEnd) _ _ packing atEnd
        · rintro _ later ⟨stillAtEnd, entriesFit⟩
          refine ⟨stillAtEnd, (fits_directory packable.isDirectory).2
            ⟨short, ?_⟩⟩
          intro entry present
          exact entriesFit entry ((lists.complete entry).2 present)
        · rintro error later ⟨kind, entry, member, tooLong⟩
          refine ⟨kind, fun fits => tooLong ?_⟩
          exact ((fits_directory packable.isDirectory).1 fits).2 entry
            ((lists.complete entry).1 member)
      · rintro error packing ⟨kind, tooLong⟩
        exact ⟨kind, fun fits =>
          tooLong ((fits_directory packable.isDirectory).1 fits).1⟩

end Reporting

/-! ## Creating the archive -/

/-- The archive is closed on both ways out of the packer. -/
theorem writeArchive_cases
    {lib : Library} {workingDirectory : Location}
    {listing : Location → List PathName} {directory : PathName}
    {opened : Option Location} {fuel : Nat} {disk : Disk} :
    (∀ packed,
      writeArchive lib workingDirectory listing directory opened fuel disk =
          .returned () packed →
        ∃ packing, packDirectory lib workingDirectory listing fuel directory
          (filename directory) ⟨disk, OStream.atEnd []⟩ =
            .returned () packing) ∧
      ∀ error packed,
        writeArchive lib workingDirectory listing directory opened fuel
            disk = .threw error packed →
          ∃ packing, packDirectory lib workingDirectory listing fuel
            directory (filename directory) ⟨disk, OStream.atEnd []⟩ =
              .threw error packing := by
  have closes : ∀ newArchive (later : Disk), ∃ closed,
      closeArchive opened newArchive later = .returned () closed := by
    intro newArchive later
    cases opened with
    | none => exact ⟨_, rfl⟩
    | some location => exact ⟨_, rfl⟩
  rw [writeArchive]
  cases packDirectory lib workingDirectory listing fuel directory
    (filename directory) ⟨disk, OStream.atEnd []⟩ with
  | returned value later =>
      rcases closes later.newArchive later.disk with ⟨closed, closed_eq⟩
      constructor
      · intro packed ends
        exact ⟨later, rfl⟩
      · intro error packed ends
        cases closed_eq.symm.trans ends
  | threw reason later =>
      rcases closes later.newArchive later.disk with ⟨closed, closed_eq⟩
      have raises : (do
          closeArchive opened later.newArchive
          Program.raise reason : DiskProgram Unit) later.disk =
            .threw reason closed :=
        Program.bind_returned closed_eq
      simp only [raises]
      constructor
      · intro packed ends
        cases ends
      · intro error packed ends
        cases ends
        exact ⟨later, rfl⟩
  | outOfFuel =>
      constructor
      · intro packed ends
        cases ends
      · intro error packed ends
        cases ends

section Creating

variable {lib : Library} {workingDirectory origin location : Location}
variable {listing : Location → List PathName}
variable {directory archivePath : PathName} {source : Disk}

/-- A new file can be created outside of the directory that is packed. -/
structure ArchiveAt (tree : FileTree) (workingDirectory : Location)
    (archivePath : PathName) (origin location : Location) : Prop where
  resolved : tree.resolve workingDirectory archivePath = some location
  possible : tree.CanPlace location
  free : tree.node location = none
  outside : ¬ origin <+: location

/-- The disk when the archive is open. -/
def opened (source : Disk) (archivePath : PathName) (location : Location) :
    Disk :=
  ⟨source.tree.place location (.file []), source.handed ++ [archivePath]⟩

variable (archiveAt :
  ArchiveAt source.tree workingDirectory archivePath origin location)
include archiveAt

theorem createArchive_eq (fuel : Nat) :
    createArchive lib workingDirectory listing directory archivePath fuel
        source =
      writeArchive lib workingDirectory listing directory (some location)
        fuel (opened source archivePath location) := by
  have notThere : fileExists source.tree workingDirectory archivePath =
      false := by
    rw [fileExists, status, archiveAt.resolved, Option.bind_some,
      archiveAt.free]
    rfl
  rw [createArchive, Program.bind_returned (Program.getState_run _),
    notThere, if_neg Bool.false_ne_true, Program.bind_returned
      (openForWriting_run archiveAt.resolved archiveAt.possible)]
  rfl

/-- The open archive is not in what is packed. -/
theorem node_opened (below : Location) :
    source.tree.node (origin ++ below) =
      (opened source archivePath location).tree.node (origin ++ below) := by
  apply (node_place_other source.tree _ _).symm
  rintro rfl
  exact archiveAt.outside (List.prefix_append origin below)

theorem fits_opened (names : List PathName) :
    Fits (opened source archivePath location).tree origin names ↔
      Fits source.tree origin names := by
  simp only [Fits, node_opened archiveAt]

variable (isName : IsName (filename directory))
variable (leads :
  Leads source.tree workingDirectory directory origin)
variable (packable : Packable lib listing source.tree origin)
include isName leads packable

/-- The packer ends one way or the other way, by the lengths of the paths. -/
theorem packDirectory_opened (fuel : Nat) :
    Program.Satisfies
      (AtEnd (opened source archivePath location))
      (packDirectory lib workingDirectory listing fuel directory
        (filename directory))
      (fun _ _ => Fits source.tree origin [filename directory])
      (Reports ¬ Fits source.tree origin [filename directory]) := by
  have kept : ∀ other, source.tree.node other = some .directory →
      (opened source archivePath location).tree.node other =
        some .directory := fun other isDirectory =>
    directory_place archiveAt.possible.2.2.2 isDirectory
  have reports := @packDirectory_reports lib workingDirectory listing
    (opened source archivePath location) fuel origin []
    (filename directory) directory (leads.of_directories kept)
    (packable.congr (node_opened archiveAt)) (by simpa using isName)
  have single : joinNames ([] ++ [filename directory]) =
      filename directory := by simp [joinNames]
  rw [single, List.nil_append, fits_opened archiveAt] at reports
  exact reports.weaken (fun _ atEnd => atEnd) (fun _ _ holds => holds.2)
    fun _ _ holds => holds

theorem createArchive_settles
    (finite : {below | source.tree.node (origin ++ below) ≠ none}.Finite) :
    (Fits source.tree origin [filename directory] →
      ∃ records,
        Packs lib source.tree origin [filename directory] records ∧
        Settles
          (fun fuel =>
            createArchive lib workingDirectory listing directory
              archivePath fuel source)
          (.returned ()
            ⟨source.tree.place location (.file (archiveBytes records)),
              source.handed ++ [archivePath]⟩)) ∧
      (¬ Fits source.tree origin [filename directory] →
        ∃ error packed, error.thrown = .fsEntryInfo ∧
          Settles
            (fun fuel =>
              createArchive lib workingDirectory listing directory
                archivePath fuel source)
            (.threw error packed)) := by
  have kept : ∀ other, source.tree.node other = some .directory →
      (opened source archivePath location).tree.node other =
        some .directory := fun other isDirectory =>
    directory_place archiveAt.possible.2.2.2 isDirectory
  obtain ⟨bound, isBound⟩ := (finite.image List.length).bddAbove
  have deep : ∀ below,
      (opened source archivePath location).tree.node (origin ++ below) ≠
        none → below.length < bound + 1 := by
    intro below present
    rw [← node_opened archiveAt] at present
    exact Nat.lt_succ_of_le (isBound ⟨below, present, rfl⟩)
  have reports := packDirectory_opened archiveAt isName leads packable
  simp only [createArchive_eq archiveAt]
  rcases writeArchive_ends (opened source archivePath location) isName
    (leads.of_directories kept) (packable.congr (node_opened archiveAt))
    deep (some location) with
    ⟨error, packed, threw⟩ | ⟨_, packed, settles, records, packs, closes⟩
  · rcases threw.exists with ⟨fuel, ends⟩
    rcases writeArchive_cases.2 error packed ends with ⟨packing, threwToo⟩
    have reported := (reports fuel).threw ⟨[], rfl⟩ threwToo
    constructor
    · intro fits
      exact absurd fits reported.2
    · intro _
      exact ⟨error, packed, reported.1, threw⟩
  · rcases settles.exists with ⟨fuel, ends⟩
    rcases writeArchive_cases.1 packed ends with ⟨packing, returnedToo⟩
    have fits := (reports fuel).returned ⟨[], rfl⟩ returnedToo
    have isPacked : packed =
        ⟨source.tree.place location (.file (archiveBytes records)),
          source.handed ++ [archivePath]⟩ := by
      cases closes
      simp only [opened, place_place archiveAt.possible]
      rfl
    rw [isPacked] at settles
    constructor
    · intro _
      exact ⟨records, packs.congr fun below =>
        (node_opened archiveAt below).symm, settles⟩
    · intro tooLong
      exact absurd fits tooLong

/--
A finite tree is packed exactly if every path in it fits into a header, and
whoever unpacks its archive gets the tree back, however far ahead the stream
reads.
-/
theorem packed_tree_comes_back
    (finite : {below | source.tree.node (origin ++ below) ≠ none}.Finite) :
    (Fits source.tree origin [filename directory] →
      ∃ archive,
        Settles
          (fun fuel =>
            createArchive lib workingDirectory listing directory
              archivePath fuel source)
          (.returned ()
            ⟨source.tree.place location (.file archive),
              source.handed ++ [archivePath]⟩) ∧
        ∀ (buffering : Buffering) (target : Disk) targetWorkingDirectory base
            targetDirectory receivedPath,
          archive.length < sizeModulus →
          Leads target.tree targetWorkingDirectory targetDirectory base →
          target.tree.node base = some .directory →
          regularFile target.tree targetWorkingDirectory receivedPath =
            some archive →
          target.tree.node (base ++ [filename directory]) = none →
          ∃ unpacked : Disk,
            Settles
              (fun fuel =>
                LiveUnpacking.unpackArchive lib buffering
                  targetWorkingDirectory targetDirectory receivedPath fuel
                  target)
              (.returned () unpacked) ∧
            IsCopy source.tree origin target.tree
              (base ++ [filename directory]) unpacked.tree) ∧
      (¬ Fits source.tree origin [filename directory] →
        ∃ error packed, error.thrown = .fsEntryInfo ∧
          Settles
            (fun fuel =>
              createArchive lib workingDirectory listing directory
                archivePath fuel source)
            (.threw error packed)) := by
  have settles := createArchive_settles archiveAt isName leads packable
    finite
  refine ⟨?_, settles.2⟩
  intro fits
  rcases settles.1 fits with ⟨records, packs, returns⟩
  refine ⟨archiveBytes records, returns, ?_⟩
  intro buffering target targetWorkingDirectory base targetDirectory
    receivedPath short targetLeads isDirectory isArchive free
  rcases packs.copies target.tree base (by simpa using isDirectory) free with
    ⟨final, extracts, copied⟩
  rcases live_unpackArchive_settles extracts packs.good targetLeads
    isDirectory isArchive short with ⟨unpacked, rfl, unpacks⟩
  exact ⟨unpacked, unpacks, copied⟩

end Creating

/-- The paths of the small tree are short. -/
theorem fits_smallTree : Fits smallTree [ascii "t"] [ascii "t"] := by
  intro below present
  rw [smallTree_below] at present
  split_ifs at present with isFile isEmpty isTop
  · rw [isFile]
    decide
  · rw [isEmpty]
    decide
  · rw [isTop]
    decide
  · exact absurd rfl present

theorem finite_smallTree :
    {below | smallTree.node ([ascii "t"] ++ below) ≠ none}.Finite := by
  have few : ({[ascii "f"], [ascii "e"], []} : Set Location).Finite := by
    simp
  apply few.subset
  intro below present
  have present : smallTree.node ([ascii "t"] ++ below) ≠ none := present
  rw [smallTree_below] at present
  split_ifs at present with isFile isEmpty isTop
  · simp [isFile]
  · simp [isEmpty]
  · simp [isTop]
  · exact absurd rfl present

theorem packed_tree_comes_back_smallTree :
    ∃ archive,
      Settles
        (fun fuel =>
          createArchive smallLibrary [] smallListing (ascii "t")
            (ascii "x") fuel ⟨smallTree, []⟩)
        (.returned ()
          ⟨smallTree.place [ascii "x"] (.file archive), [ascii "x"]⟩) := by
  have archiveAt : ArchiveAt smallTree [] (ascii "x") [ascii "t"]
      [ascii "x"] := by
    constructor
    · decide +kernel
    · decide +kernel
    · decide +kernel
    · decide
  have comesBack := @packed_tree_comes_back smallLibrary [] [ascii "t"]
    [ascii "x"] smallListing (ascii "t") (ascii "x") ⟨smallTree, []⟩
    archiveAt (by decide) ⟨by decide, by decide +kernel⟩ smallTree_packable
    finite_smallTree
  rcases comesBack.1 fits_smallTree with ⟨archive, returns, -⟩
  exact ⟨archive, returns⟩

end DropFile.Client.PackedTrees
