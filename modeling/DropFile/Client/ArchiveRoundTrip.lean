import DropFile.Client.LiveUnpacking
import DropFile.Client.ZstdRoundTrip
import Mathlib.Data.Set.Finite.Lattice

/-!
# Unpacking what was packed

An archive is a sequence of records.  The packer emits the record of every
directory before those of its entries, so extracting the records one after
another always finds the directory an entry belongs in, and never anything in
its place.  Extracting the records of a whole tree therefore copies the tree.
-/

namespace DropFile.Client.ArchiveRoundTrip

open DropFile.General.FuelledProgram
open DropFile.General.PathNames
open DropFile.General.Files
open DropFile.General.Files.FileTree
open DropFile.Streams
open DropFile.FileSystem
open DropFile.Client.EntryInfo
open DropFile.Client.Zstd
open DropFile.Client.ZstdRoundTrip
open DropFile.Client.ArchiveManager
open DropFile.Client.LiveUnpacking
  (Buffering Extracting unpackEntryWith unpackArchiveWith)

/-! ## Records -/

/-- A record of an archive; a file comes with its compressed form. -/
inductive Record where
  | directory (names : List PathName)
  | file (names : List PathName) (content payload : Bytes)

namespace Record

def names : Record → List PathName
  | directory names => names
  | file names _ _ => names

def node : Record → Node
  | directory _ => .directory
  | file _ content _ => .file content

def payload : Record → Bytes
  | directory _ => []
  | file _ _ payload => payload

def info : Record → FSEntryInfo
  | directory names => ⟨true, joinNames names, 0⟩
  | file names _ payload => ⟨false, joinNames names, payload.length⟩

def bytes (record : Record) : Bytes :=
  header record.info ++ record.payload

/-- The compressed form of a file alone gives its content back. -/
def Restores (lib : Library) : Record → Prop
  | directory _ => True
  | file _ content payload =>
      ∃ (bytesWritten : Nat) (finished : IStream),
        Settles
          (fun fuel =>
            decompress lib payload.length fuel
              ⟨IStream.ofBytes payload, OStream.atEnd []⟩)
          (.returned bytesWritten ⟨finished, OStream.atEnd content⟩)

/-- A record that can be read back. -/
structure Good (lib : Library) (record : Record) : Prop where
  areNames : ∀ name ∈ record.names, IsName name
  short : record.info.relativePath.length ≤ pathMaxLen
  restores : record.Restores lib

@[simp]
theorem info_compressedLength (record : Record) :
    record.info.compressedLength = record.payload.length := by
  cases record <;> rfl

end Record

def archiveBytes (records : List Record) : Bytes :=
  records.flatMap Record.bytes

@[simp]
theorem archiveBytes_nil : archiveBytes [] = [] :=
  rfl

@[simp]
theorem archiveBytes_cons (record : Record) (records : List Record) :
    archiveBytes (record :: records) =
      record.bytes ++ archiveBytes records :=
  List.flatMap_cons

@[simp]
theorem archiveBytes_append (left right : List Record) :
    archiveBytes (left ++ right) =
      archiveBytes left ++ archiveBytes right :=
  List.flatMap_append

/--
Extracting records below a base, each into a directory that is there and at a
place that is free.
-/
inductive Extracts (base : Location) :
    List Record → FileTree → FileTree → Prop where
  | nil (tree : FileTree) : Extracts base [] tree tree
  | cons {record : Record} {rest : List Record} {tree final : FileTree}
      {holder : List PathName} {name : PathName}
      (namesEq : record.names = holder ++ [name])
      (isDirectory : tree.node (base ++ holder) = some .directory)
      (free : tree.node (base ++ record.names) = none)
      (rest_extracts :
        Extracts base rest
          (tree.place (base ++ record.names) record.node) final) :
      Extracts base (record :: rest) tree final

theorem Extracts.append
    {base : Location} {left right : List Record}
    {tree middle final : FileTree}
    (leftExtracts : Extracts base left tree middle)
    (rightExtracts : Extracts base right middle final) :
    Extracts base (left ++ right) tree final := by
  induction leftExtracts with
  | nil => exact rightExtracts
  | cons namesEq isDirectory free _ inductionHypothesis =>
      exact .cons namesEq isDirectory free
        (inductionHypothesis rightExtracts)

theorem Extracts.single
    {base : Location} {record : Record} {tree : FileTree}
    {holder : List PathName} {name : PathName}
    (namesEq : record.names = holder ++ [name])
    (isDirectory : tree.node (base ++ holder) = some .directory)
    (free : tree.node (base ++ record.names) = none) :
    Extracts base [record] tree
      (tree.place (base ++ record.names) record.node) :=
  .cons namesEq isDirectory free (.nil _)

/-- A path name that leads to a location. -/
structure Leads (tree : FileTree) (workingDirectory : Location)
    (path : PathName) (location : Location) : Prop where
  noNul : 0 ∉ path
  resolved : tree.resolve workingDirectory path = some location

theorem Leads.joinNames
    {tree : FileTree} {workingDirectory base : Location}
    {path : PathName}
    (leads : Leads tree workingDirectory path base)
    (holder : List PathName) (name : PathName)
    (isDirectory : tree.node (base ++ holder) = some .directory)
    (areNames : ∀ each ∈ holder ++ [name], IsName each) :
    Leads tree workingDirectory
      (join path (joinNames (holder ++ [name])))
      (base ++ (holder ++ [name])) where
  noNul := no_nul_join leads.noNul (no_nul_joinNames areNames)
  resolved :=
    resolve_joinNames leads.resolved leads.noNul isDirectory areNames

theorem Leads.join
    {tree : FileTree} {workingDirectory base : Location}
    {path name : PathName}
    (leads : Leads tree workingDirectory path base)
    (isDirectory : tree.node base = some .directory)
    (isName : IsName name) :
    Leads tree workingDirectory (join path name) (base ++ [name]) := by
  have below := leads.joinNames [] name
    (by rwa [List.append_nil]) (by simpa using isName)
  simpa [General.PathNames.joinNames] using below

theorem Leads.of_directories
    {tree other : FileTree} {workingDirectory location : Location}
    {path : PathName}
    (leads : Leads tree workingDirectory path location)
    (kept : ∀ location, tree.node location = some .directory →
      other.node location = some .directory) :
    Leads other workingDirectory path location :=
  ⟨leads.noNul, resolve_of_directories other kept leads.resolved⟩

theorem Leads.regularFile
    {tree : FileTree} {workingDirectory location : Location}
    {path : PathName} {content : Bytes}
    (leads : Leads tree workingDirectory path location)
    (isFile : tree.node location = some (.file content)) :
    regularFile tree workingDirectory path = some content := by
  rw [FileSystem.regularFile, status, leads.resolved, Option.bind_some,
    isFile]

theorem Leads.isDirectory_iff
    {tree : FileTree} {workingDirectory location : Location}
    {path : PathName}
    (leads : Leads tree workingDirectory path location) :
    isDirectory tree workingDirectory path =
      decide (tree.node location = some .directory) := by
  rw [isDirectory, status, leads.resolved, Option.bind_some]

theorem canPlace_of_free
    {tree : FileTree} {base : Location} {holder : List PathName}
    {name : PathName}
    (isName : IsName name)
    (isDirectory : tree.node (base ++ holder) = some .directory)
    (free : tree.node (base ++ (holder ++ [name])) = none) :
    tree.CanPlace (base ++ (holder ++ [name])) := by
  rw [← List.append_assoc] at free ⊢
  refine canPlace_concat isName isDirectory ?_
  rw [free]
  simp

/-! ## Packing -/

section Packing

variable {lib : Library} {workingDirectory : Location}
variable {listing : Location → List PathName} {disk : Disk}

/-- Records that hold the subtree at `origin` under the given names. -/
structure Packs (lib : Library) (tree : FileTree) (origin : Location)
    (names : List PathName) (records : List Record) : Prop where
  good : ∀ record ∈ records, record.Good lib
  copies :
    ∀ (target : FileTree) (base : Location),
      target.node (base ++ names.dropLast) = some .directory →
      target.node (base ++ names) = none →
      ∃ final,
        Extracts base records target final ∧
          IsCopy tree origin target (base ++ names) final

/-- Records that hold some entries of the directory at `origin`. -/
structure PacksEntries (lib : Library) (tree : FileTree)
    (origin : Location) (names entries : List PathName)
    (records : List Record) : Prop where
  good : ∀ record ∈ records, record.Good lib
  copies :
    ∀ (target : FileTree) (base : Location) (done : List PathName)
      (middle : FileTree),
      IsPartialCopy tree origin target (base ++ names) done middle →
      (done ++ entries).Nodup →
      ∃ final,
        Extracts base records middle final ∧
          IsPartialCopy tree origin target (base ++ names)
            (done ++ entries) final

/-- The archive grew by records with some property. -/
def Appended (disk : Disk) (before : Bytes)
    (property : List Record → Prop) (packing : Packing) : Prop :=
  ∃ records,
    packing = ⟨disk, OStream.atEnd (before ++ archiveBytes records)⟩ ∧
      property records

theorem PacksEntries.cons
    {tree : FileTree} {origin : Location}
    {names entries : List PathName} {name : PathName}
    {first rest : List Record}
    (firstPacks :
      Packs lib tree (origin ++ [name]) (names ++ [name]) first)
    (restPacks : PacksEntries lib tree origin names entries rest) :
    PacksEntries lib tree origin names (name :: entries)
      (first ++ rest) where
  good record member := by
    rcases List.mem_append.1 member with inFirst | inRest
    · exact firstPacks.good record inFirst
    · exact restPacks.good record inRest
  copies target base done middle copied distinct := by
    have fresh : name ∉ done := by
      intro member
      have disjoint := List.disjoint_of_nodup_append distinct
      exact disjoint member List.mem_cons_self
    have free : middle.node (base ++ (names ++ [name])) = none := by
      rw [← List.append_assoc, copied.inside, if_neg fresh]
    obtain ⟨next, firstExtracts, entry⟩ :=
      firstPacks.copies middle base
        (by rw [List.dropLast_concat]; exact copied.top) free
    rw [← List.append_assoc] at entry
    obtain ⟨final, restExtracts, complete⟩ :=
      restPacks.copies target base (done ++ [name]) next
        (copied.append entry) (by simpa using distinct)
    refine ⟨final, firstExtracts.append restExtracts, ?_⟩
    simpa using complete

/-- A directory record followed by its entries holds the whole subtree. -/
theorem Packs.of_entries
    {tree : FileTree} {origin : Location}
    {holder entries : List PathName} {name : PathName}
    {records : List Record}
    (isDirectory : tree.node origin = some .directory)
    (areNames : ∀ each ∈ holder ++ [name], IsName each)
    (short : (joinNames (holder ++ [name])).length ≤ pathMaxLen)
    (distinct : entries.Nodup)
    (complete : ∀ entry, tree.node (origin ++ [entry]) ≠ none →
      entry ∈ entries)
    (entriesPack :
      PacksEntries lib tree origin (holder ++ [name]) entries records) :
    Packs lib tree origin (holder ++ [name])
      (Record.directory (holder ++ [name]) :: records) where
  good record member := by
    rcases List.mem_cons.1 member with rfl | inEntries
    · exact ⟨areNames, short, trivial⟩
    · exact entriesPack.good record inEntries
  copies target base holderIsDirectory free := by
    rw [List.dropLast_concat] at holderIsDirectory
    have possible := canPlace_of_free (areNames name (by simp))
      holderIsDirectory free
    obtain ⟨final, extracts, copied⟩ :=
      entriesPack.copies target base [] _
        (isPartialCopy_nil possible free) distinct
    exact ⟨final, .cons rfl holderIsDirectory free extracts,
      copied.isCopy isDirectory complete⟩

theorem Packs.of_file
    {tree : FileTree} {origin : Location}
    {holder : List PathName} {name : PathName} {content payload : Bytes}
    (isFile : tree.node origin = some (.file content))
    (areNames : ∀ each ∈ holder ++ [name], IsName each)
    (short : (joinNames (holder ++ [name])).length ≤ pathMaxLen)
    (restores :
      (Record.file (holder ++ [name]) content payload).Restores lib) :
    Packs lib tree origin (holder ++ [name])
      [Record.file (holder ++ [name]) content payload] where
  good record member := by
    obtain rfl := List.mem_singleton.1 member
    exact ⟨areNames, short, restores⟩
  copies target base holderIsDirectory free := by
    rw [List.dropLast_concat] at holderIsDirectory
    have possible := canPlace_of_free (areNames name (by simp))
      holderIsDirectory free
    exact ⟨_, .single rfl holderIsDirectory free,
      isCopy_file isFile possible free⟩

theorem onArchive_returned
    {α : Type} {program : Program Exception OStream α} {value : α}
    {start later : OStream}
    (ends : program start = .returned value later) :
    onArchive program ⟨disk, start⟩ = .returned value ⟨disk, later⟩ :=
  Program.focus_returned ends

theorem addDirectory_run
    {names : List PathName}
    (short : (joinNames names).length ≤ pathMaxLen)
    (before : Bytes) :
    addDirectory (joinNames names) ⟨disk, OStream.atEnd before⟩ =
      .returned ()
        ⟨disk, OStream.atEnd (before ++ (Record.directory names).bytes)⟩ := by
  have written :=
    writeToStream_run ⟨true, joinNames names, 0⟩ short before
  simp only [addDirectory, Program.bind_returned (construct_run short _),
    Program.bind_returned (onArchive_returned written), Program.pure_run,
    Record.bytes, Record.info, Record.payload, List.append_nil]

/-- Adding a file fails on a path that is too long, and on nothing else. -/
theorem addFile_ends
    {origin : Location} {holder : List PathName} {name filePath : PathName}
    {content : Bytes}
    (leads : Leads disk.tree workingDirectory filePath origin)
    (isFile : disk.tree.node origin = some (.file content))
    (roundTrips : RoundTrips lib content)
    (areNames : ∀ each ∈ holder ++ [name], IsName each)
    (before : Bytes) :
    Ends
      (fun fuel =>
        addFile lib workingDirectory fuel filePath
          (joinNames (holder ++ [name])) ⟨disk, OStream.atEnd before⟩)
      (fun _ =>
        Appended disk before
          (Packs lib disk.tree origin (holder ++ [name]))) := by
  by_cases short :
    (joinNames (holder ++ [name])).length ≤ pathMaxLen
  · let blank : FSEntryInfo := ⟨false, joinNames (holder ++ [name]), 0⟩
    obtain ⟨payload, ⟨finished, compresses⟩, restores⟩ :=
      roundTrips (before ++ header blank)
    refine Or.inr ⟨(), ⟨disk, OStream.atEnd (before ++
        archiveBytes [.file (holder ++ [name]) content payload])⟩,
      ?_, _, rfl, Packs.of_file isFile areNames short restores⟩
    filter_upwards [compresses] with fuel compressed
    have written := writeToStream_run blank short before
    have streamed :
        compressFile lib content fuel
            ⟨disk, OStream.atEnd (before ++ header blank)⟩ =
          .returned payload.length
            ⟨disk, OStream.atEnd (before ++ header blank ++ payload)⟩ := by
      simp only [compressFile, Program.focus, compressed]
    have patched :=
      writeCompressedLength_run blank before payload payload.length
    rw [addFile, Program.bind_returned (construct_run short _),
      Program.bind_returned (onArchive_returned written),
      Program.bind_returned (Program.getState_run _)]
    simp only [leads.regularFile isFile]
    rw [Program.bind_returned streamed, onArchive_returned patched]
    simp [blank, Record.bytes, Record.info, Record.payload]
  · obtain ⟨error, threw⟩ := construct_tooLong short false
      (⟨disk, OStream.atEnd before⟩ : Packing)
    exact Or.inl ⟨error, _, Settles.of_eq fun fuel =>
      Program.bind_threw threw⟩

/-- What is asked of the entries of a directory that is packed. -/
def EntriesEnd (lib : Library) (workingDirectory : Location)
    (listing : Location → List PathName) (disk : Disk)
    (origin : Location) : Prop :=
  ∀ (name : PathName) (holder : List PathName) (path : PathName)
    (before : Bytes),
    disk.tree.node (origin ++ [name]) = some .directory →
    Leads disk.tree workingDirectory path (origin ++ [name]) →
    (∀ each ∈ holder ++ [name], IsName each) →
    Ends
      (fun fuel =>
        packDirectory lib workingDirectory listing fuel path
          (joinNames (holder ++ [name])) ⟨disk, OStream.atEnd before⟩)
      (fun _ =>
        Appended disk before
          (Packs lib disk.tree (origin ++ [name]) (holder ++ [name])))

theorem packEntry_ends
    {origin : Location} {holder : List PathName}
    {name entry dirToCompress : PathName}
    (leads : Leads disk.tree workingDirectory dirToCompress origin)
    (topIsDirectory : disk.tree.node origin = some .directory)
    (present : disk.tree.node (origin ++ [entry]) ≠ none)
    (roundTrips : ∀ content,
      disk.tree.node (origin ++ [entry]) = some (.file content) →
        RoundTrips lib content)
    (subdirectories :
      EntriesEnd lib workingDirectory listing disk origin)
    (areNames : ∀ each ∈ holder ++ [name], IsName each)
    (before : Bytes) :
    Ends
      (fun fuel =>
        packEntry lib workingDirectory
          (packDirectory lib workingDirectory listing fuel) fuel
          dirToCompress (joinNames (holder ++ [name])) entry
          ⟨disk, OStream.atEnd before⟩)
      (fun _ =>
        Appended disk before
          (Packs lib disk.tree (origin ++ [entry])
            (holder ++ [name] ++ [entry]))) := by
  have isName : IsName entry := disk.tree.named origin entry present
  have entryNames :
      ∀ each ∈ holder ++ [name] ++ [entry], IsName each := by
    intro each member
    rcases List.mem_append.1 member with inNames | isEntry
    · exact areNames each inNames
    · rwa [List.mem_singleton.1 isEntry]
  have entryLeads := leads.join topIsDirectory isName
  have relative :
      join (joinNames (holder ++ [name])) entry =
        joinNames (holder ++ [name] ++ [entry]) :=
    join_joinNames (by simp) areNames isName
  simp only [packEntry, filename_join isName, relative,
    Program.bind_returned (Program.getState_run _),
    entryLeads.isDirectory_iff]
  cases node : disk.tree.node (origin ++ [entry]) with
  | none => exact absurd node present
  | some kind =>
      cases kind with
      | directory =>
          simpa using subdirectories entry (holder ++ [name]) _ before node
            entryLeads entryNames
      | file content =>
          simpa [entryLeads.regularFile node] using
            addFile_ends entryLeads node (roundTrips content node)
              entryNames before

/-- Packing entries one after another. -/
theorem packEntries_ends
    {origin : Location} {holder : List PathName}
    {name dirToCompress : PathName} (entries : List PathName)
    (leads : Leads disk.tree workingDirectory dirToCompress origin)
    (topIsDirectory : disk.tree.node origin = some .directory)
    (present : ∀ entry ∈ entries,
      disk.tree.node (origin ++ [entry]) ≠ none)
    (roundTrips : ∀ entry content,
      disk.tree.node (origin ++ [entry]) = some (.file content) →
        RoundTrips lib content)
    (subdirectories :
      EntriesEnd lib workingDirectory listing disk origin)
    (areNames : ∀ each ∈ holder ++ [name], IsName each)
    (before : Bytes) :
    Ends
      (fun fuel =>
        Program.forEach
          (packEntry lib workingDirectory
            (packDirectory lib workingDirectory listing fuel) fuel
            dirToCompress (joinNames (holder ++ [name])))
          entries ⟨disk, OStream.atEnd before⟩)
      (fun _ =>
        Appended disk before
          (PacksEntries lib disk.tree origin (holder ++ [name])
            entries)) := by
  induction entries generalizing before with
  | nil =>
      refine Ends.of_returned (Settles.of_eq fun _ => rfl)
        ⟨[], by simp, ?_, ?_⟩
      · intro record member
        cases member
      · intro target base done middle copied _
        exact ⟨middle, .nil middle, by simpa using copied⟩
  | cons entry rest inductionHypothesis =>
      refine Ends.bind
        (packEntry_ends leads topIsDirectory
          (present entry List.mem_cons_self) (roundTrips entry)
          subdirectories areNames before) ?_
      rintro _ _ ⟨first, rfl, firstPacks⟩
      have restEnds := inductionHypothesis
        (fun other member =>
          present other (List.mem_cons_of_mem entry member))
        (before ++ archiveBytes first)
      rcases restEnds with
        threw | ⟨value, _, settles, others, rfl, othersPack⟩
      · exact Or.inl threw
      · exact Ends.of_returned settles
          ⟨first ++ others, by simp,
            PacksEntries.cons firstPacks othersPack⟩

/-- The directory is listed completely and without repetition. -/
structure Lists (listing : Location → List PathName) (tree : FileTree)
    (location : Location) : Prop where
  distinct : (listing location).Nodup
  complete : ∀ name,
    name ∈ listing location ↔ tree.node (location ++ [name]) ≠ none

/-- Everything `packDirectory` asks of the tree at `origin`. -/
structure Packable (lib : Library) (listing : Location → List PathName)
    (tree : FileTree) (origin : Location) : Prop where
  isDirectory : tree.node origin = some .directory
  lists : ∀ below, tree.node (origin ++ below) = some .directory →
    Lists listing tree (origin ++ below)
  roundTrips : ∀ below content,
    tree.node (origin ++ below) = some (.file content) →
      RoundTrips lib content

theorem Packable.entry
    {tree : FileTree} {origin : Location} {name : PathName}
    (packable : Packable lib listing tree origin)
    (isDirectory : tree.node (origin ++ [name]) = some .directory) :
    Packable lib listing tree (origin ++ [name]) where
  isDirectory := isDirectory
  lists below isDirectory := by
    rw [List.append_assoc] at isDirectory ⊢
    exact packable.lists _ isDirectory
  roundTrips below content isFile := by
    rw [List.append_assoc] at isFile
    exact packable.roundTrips _ content isFile

/-- Packing a directory, by induction on the depth of its tree. -/
theorem packDirectory_ends
    {depth : Nat} {origin : Location} (holder : List PathName)
    {name dirToCompress : PathName}
    (leads : Leads disk.tree workingDirectory dirToCompress origin)
    (packable : Packable lib listing disk.tree origin)
    (deep : ∀ below, disk.tree.node (origin ++ below) ≠ none →
      below.length < depth)
    (areNames : ∀ each ∈ holder ++ [name], IsName each)
    (before : Bytes) :
    Ends
      (fun fuel =>
        packDirectory lib workingDirectory listing fuel dirToCompress
          (joinNames (holder ++ [name])) ⟨disk, OStream.atEnd before⟩)
      (fun _ =>
        Appended disk before
          (Packs lib disk.tree origin (holder ++ [name]))) := by
  induction depth generalizing origin holder name dirToCompress before with
  | zero =>
      have present : disk.tree.node (origin ++ []) ≠ none := by
        rw [List.append_nil, packable.isDirectory]
        simp
      exact absurd (deep [] present) (Nat.not_lt_zero _)
  | succ depth inductionHypothesis =>
      have lists := packable.lists [] (by simpa using packable.isDirectory)
      rw [List.append_nil] at lists
      have subdirectories :
          EntriesEnd lib workingDirectory listing disk origin := by
        intro entry holder path before isDirectory entryLeads entryNames
        refine inductionHypothesis holder entryLeads
          (packable.entry isDirectory) ?_ entryNames before
        intro below present
        rw [List.append_assoc] at present
        simpa using deep _ present
      apply Ends.of_succ
      by_cases short :
        (joinNames (holder ++ [name])).length ≤ pathMaxLen
      · have opened :
            directoryEntries workingDirectory listing dirToCompress
                ⟨disk, OStream.atEnd (before ++
                  (Record.directory (holder ++ [name])).bytes)⟩ =
              .returned (listing origin)
                ⟨disk, OStream.atEnd (before ++
                  (Record.directory (holder ++ [name])).bytes)⟩ := by
          rw [directoryEntries,
            Program.bind_returned (Program.getState_run _)]
          simp only [leads.resolved, packable.isDirectory, if_true,
            Program.pure_run]
        simp only [packDirectory,
          Program.bind_returned (addDirectory_run short before),
          Program.bind_returned opened]
        have entriesEnd := packEntries_ends (listing origin) leads
          packable.isDirectory
          (fun entry member => (lists.complete entry).1 member)
          (fun entry content isFile =>
            packable.roundTrips [entry] content isFile)
          subdirectories areNames
          (before ++ (Record.directory (holder ++ [name])).bytes)
        rcases entriesEnd with
          threw | ⟨value, _, settles, records, rfl, entriesPack⟩
        · exact Or.inl threw
        · exact Ends.of_returned settles
            ⟨Record.directory (holder ++ [name]) :: records, by simp,
              Packs.of_entries packable.isDirectory areNames short
                lists.distinct
                (fun entry present => (lists.complete entry).2 present)
                entriesPack⟩
      · obtain ⟨error, threw⟩ := construct_tooLong short true
          (⟨disk, OStream.atEnd before⟩ : Packing)
        refine Or.inl ⟨error, ⟨disk, OStream.atEnd before⟩,
          Settles.of_eq fun fuel => ?_⟩
        exact Program.bind_threw (Program.bind_threw threw)

/-- Records of a subtree are records of the same subtree elsewhere. -/
theorem Packs.congr
    {tree other : FileTree} {origin : Location} {names : List PathName}
    {records : List Record}
    (packs : Packs lib tree origin names records)
    (same : ∀ below,
      tree.node (origin ++ below) = other.node (origin ++ below)) :
    Packs lib other origin names records where
  good := packs.good
  copies target base isDirectory free := by
    obtain ⟨final, extracts, copied⟩ :=
      packs.copies target base isDirectory free
    refine ⟨final, extracts, ⟨fun below => ?_, copied.outside⟩⟩
    rw [copied.inside, same]

theorem Packable.congr
    {tree other : FileTree} {origin : Location}
    (packable : Packable lib listing tree origin)
    (same : ∀ below,
      tree.node (origin ++ below) = other.node (origin ++ below)) :
    Packable lib listing other origin where
  isDirectory := by
    have top := same []
    rw [List.append_nil] at top
    rw [← top, packable.isDirectory]
  lists below isDirectory := by
    rw [← same] at isDirectory
    obtain ⟨distinct, complete⟩ := packable.lists below isDirectory
    refine ⟨distinct, fun name => ?_⟩
    rw [complete, List.append_assoc, same]
  roundTrips below content isFile := by
    rw [← same] at isFile
    exact packable.roundTrips below content isFile

/-- Closing the archive saves it where it could be opened. -/
theorem writeArchive_ends
    (disk : Disk) {directory : PathName} {depth : Nat} {origin : Location}
    (isName : IsName (filename directory))
    (leads : Leads disk.tree workingDirectory directory origin)
    (packable : Packable lib listing disk.tree origin)
    (deep : ∀ below, disk.tree.node (origin ++ below) ≠ none →
      below.length < depth)
    (opened : Option Location) :
    Ends
      (fun fuel =>
        writeArchive lib workingDirectory listing directory opened fuel
          disk)
      (fun _ packed =>
        ∃ records,
          Packs lib disk.tree origin [filename directory] records ∧
            closeArchive opened (OStream.atEnd (archiveBytes records))
              disk = .returned () packed) := by
  have packs := packDirectory_ends [] leads packable deep
    (by simpa using isName) []
  have single :
      joinNames ([] ++ [filename directory]) = filename directory := by
    simp [joinNames]
  rw [single] at packs
  have closes : ∀ (newArchive : OStream) (disk : Disk), ∃ closed,
      closeArchive opened newArchive disk = .returned () closed := by
    intro newArchive disk
    cases opened <;> exact ⟨_, rfl⟩
  rcases packs with
    ⟨error, later, threw⟩ | ⟨_, _, settles, records, rfl, packs⟩
  · obtain ⟨closed, closesEq⟩ := closes later.newArchive later.disk
    refine Or.inl ⟨error, closed, ?_⟩
    filter_upwards [threw] with fuel threwEq
    rw [writeArchive, threwEq]
    exact Program.bind_returned closesEq
  · obtain ⟨closed, closesEq⟩ :=
      closes (OStream.atEnd (archiveBytes records)) disk
    refine Or.inr ⟨(), closed, ?_, records, packs, closesEq⟩
    filter_upwards [settles] with fuel returnedEq
    rw [writeArchive, returnedEq]
    exact closesEq

/-- What a returning `createArchive` leaves at the path of the archive. -/
theorem createArchive_ends
    {directory archivePath : PathName} {depth : Nat} {origin : Location}
    {source : Disk}
    (isName : IsName (filename directory))
    (leads : Leads source.tree workingDirectory directory origin)
    (packable : Packable lib listing source.tree origin)
    (deep : ∀ below, source.tree.node (origin ++ below) ≠ none →
      below.length < depth)
    (outside : ∀ location,
      source.tree.resolve workingDirectory archivePath = some location →
        ¬ origin <+: location) :
    Ends
      (fun fuel =>
        createArchive lib workingDirectory listing directory archivePath
          fuel source)
      (fun _ packed =>
        ∀ archive,
          regularFile packed.tree workingDirectory archivePath =
            some archive →
          ∃ records,
            Packs lib source.tree origin [filename directory] records ∧
              archive = archiveBytes records) := by
  cases there :
    fileExists source.tree workingDirectory archivePath with
  | true =>
      simp only [createArchive,
        Program.bind_returned (Program.getState_run _), there, if_true]
      exact Or.inl ⟨_, source, Settles.of_eq fun _ => rfl⟩
  | false =>
      have noStatus :
          status source.tree workingDirectory archivePath = none := by
        simpa [fileExists] using there
      simp only [createArchive,
        Program.bind_returned (Program.getState_run _), there,
        Bool.false_eq_true, if_false]
      rcases openForWriting_cases workingDirectory archivePath source with
        opens | ⟨location, resolved, possible, opens⟩
      · simp only [Program.bind_returned opens]
        rcases writeArchive_ends
            ⟨source.tree, source.handed ++ [archivePath]⟩ isName
            leads packable deep none with
          threw | ⟨_, _, settles, records, packs, closes⟩
        · exact Or.inl threw
        · refine Ends.of_returned settles fun archive isFile => ?_
          cases closes
          simp [regularFile, noStatus] at isFile
      · simp only [Program.bind_returned opens]
        have same : ∀ below, source.tree.node (origin ++ below) =
            (source.tree.place location (.file [])).node
              (origin ++ below) := by
          intro below
          refine (node_place_other source.tree _ ?_).symm
          rintro rfl
          exact outside _ resolved (List.prefix_append origin below)
        have kept : ∀ other,
            source.tree.node other = some .directory →
            (source.tree.place location (.file [])).node other =
              some .directory :=
          fun other isDirectory =>
            directory_place possible.2.2.2 isDirectory
        rcases writeArchive_ends
            ⟨source.tree.place location (.file []),
              source.handed ++ [archivePath]⟩ isName
            (leads.of_directories kept) (packable.congr same)
            (fun below present => deep below (by rwa [same]))
            (some location) with
          threw | ⟨_, _, settles, records, packs, closes⟩
        · exact Or.inl threw
        · refine Ends.of_returned settles fun archive isFile =>
            ⟨records, packs.congr fun below => (same below).symm, ?_⟩
          cases closes
          simp only [place_place possible] at isFile
          have stillResolved := resolve_of_directories
            (source.tree.place location
              (.file (archiveBytes records)))
            (fun other isDirectory =>
              directory_place possible.2.2.2 isDirectory)
            resolved
          simpa [regularFile, status, stillResolved,
            node_place_self possible, OStream.atEnd, eq_comm] using isFile

end Packing

/-! ## Decompressing in the middle of an archive -/

section Embedding

variable {lib : Library} {before payload after : Bytes}

/--
Both runs have read the first `position` bytes of the payload, one of them
inside an archive, and have written the same.
-/
structure Embedded (before payload after : Bytes) (position : Nat)
    (inArchive alone : Streams) : Prop where
  archiveInput :
    inArchive.input =
      IStream.goodAt (before ++ (payload ++ after))
        (before.length + position)
  aloneInput : alone.input = IStream.goodAt payload position
  within : position ≤ payload.length
  output : inArchive.output = alone.output

/-- A good stream reads what is there. -/
theorem read_goodAt_of_length
    {data chunk : Bytes} {position count : Nat}
    (chunkEq : (data.drop position).take count = chunk)
    (chunkLength : chunk.length = count) :
    (IStream.goodAt data position).read count =
      (chunk, IStream.goodAt data (position + count)) := by
  simp [IStream.read, IStream.good, IStream.goodAt, chunkEq, chunkLength]

/-- A read that stays in the payload. -/
theorem readInput_simulates
    (before payload after : Bytes) (position count : Nat)
    (covered : position + count ≤ payload.length) :
    Program.Simulates (Embedded before payload after position)
      (readInput count) (readInput count)
      (fun chunk inArchive alone =>
        chunk.length = count ∧
          Embedded before payload after (position + count)
            inArchive alone) := by
  rintro inArchive alone ⟨archiveInput, aloneInput, -, output⟩
  have chunkLength :
      ((payload.drop position).take count).length = count := by
    rw [List.length_take, List.length_drop]
    omega
  have sameChunk :
      ((before ++ (payload ++ after)).drop
          (before.length + position)).take count =
        (payload.drop position).take count := by
    rw [List.drop_append, List.drop_of_length_le (by omega),
      List.nil_append, Nat.add_sub_cancel_left,
      List.drop_append_of_le_length (by omega),
      List.take_append_of_le_length (by rw [List.length_drop]; omega)]
  simp only [readInput, Program.step_run, archiveInput, aloneInput,
    read_goodAt_of_length sameChunk chunkLength,
    read_goodAt_of_length rfl chunkLength]
  exact ⟨trivial, chunkLength,
    by rw [Nat.add_assoc], rfl, covered, output⟩

theorem assertOk_simulates
    {α : Type} {position : Nat} (result : Except Bytes α) :
    Program.Simulates (Embedded before payload after position)
      (assertOk result) (assertOk result)
      (fun _ => Embedded before payload after position) := by
  cases result with
  | ok value => exact Program.Simulates.pure value fun _ _ same => same
  | error name => exact Program.Simulates.raise _

theorem writeOutput_simulates
    {position : Nat} (bytes : Bytes) :
    Program.Simulates (Embedded before payload after position)
      (writeOutput bytes) (writeOutput bytes)
      (fun _ => Embedded before payload after position) := by
  rintro inArchive alone ⟨archiveInput, aloneInput, within, output⟩
  exact ⟨rfl, archiveInput, aloneInput, within,
    congrArg (fun stream => OStream.write stream bytes) output⟩

theorem decompressPass_simulates
    {position : Nat} (chunk : Bytes) (current : lib.DCtx × Nat × Nat) :
    Program.Simulates (Embedded before payload after position)
      (decompressPass lib chunk current)
      (decompressPass lib chunk current)
      (fun _ => Embedded before payload after position) := by
  obtain ⟨dctx, inputPos, bytesWritten⟩ := current
  dsimp only [decompressPass]
  split_ifs
  · exact Program.Simulates.bind (assertOk_simulates _) fun _ =>
      Program.Simulates.bind (writeOutput_simulates _) fun _ =>
        Program.Simulates.pure _ fun _ _ same => same
  · exact Program.Simulates.pure _ fun _ _ same => same

/-- Where both runs are when they read the next chunk. -/
def BeforeChunk (before payload after : Bytes) :
    lib.DCtx × Nat × Nat × Nat → Streams → Streams → Prop
  | (_, totalRead, thisChunkSize, _), inArchive, alone =>
      Embedded before payload after totalRead inArchive alone ∧
        thisChunkSize =
          min lib.dStreamInSize (payload.length - totalRead)

/-- The loop reads chunk after chunk and stops at the end of the payload. -/
theorem decompressChunk_simulates
    (fuel : Nat) (current : lib.DCtx × Nat × Nat × Nat) :
    Program.Simulates (BeforeChunk before payload after current)
      (decompressChunk lib payload.length fuel current)
      (decompressChunk lib payload.length fuel current)
      (Sum.elim (BeforeChunk before payload after) fun _ =>
        Embedded before payload after payload.length) := by
  obtain ⟨dctx, totalRead, thisChunkSize, bytesWritten⟩ := current
  rintro inArchive alone ⟨embedded, chunkSize⟩
  have within := embedded.within
  have reads := readInput_simulates before payload after totalRead
    thisChunkSize (by omega)
  refine Program.Simulates.bind reads ?_ inArchive alone embedded
  intro chunk inArchive alone ⟨chunkLength, embedded⟩
  by_cases finished : chunk.length = 0
  · have atEnd : totalRead + thisChunkSize = payload.length := by
      have inSize_pos := lib.inSize_pos
      omega
    rw [atEnd] at embedded
    simp only [finished, if_true]
    exact ⟨rfl, embedded⟩
  · simp only [finished, if_false]
    rw [chunkLength, sizeSub_of_le embedded.within]
    refine Program.Simulates.bind
      (Program.Simulates.loop (τ := Streams)
        (fun _ => Embedded before payload after
          (totalRead + thisChunkSize))
        (fun _ current =>
          (decompressPass_simulates chunk current).weaken
            fun exit _ _ same => by cases exit <;> exact same)
        fuel _)
      (fun _ => Program.Simulates.pure _ fun _ _ embedded =>
        ⟨embedded, rfl⟩)
      inArchive alone embedded

/--
A payload that gives its content back alone does so in the middle of an
archive, and the archive is then read up to the end of the payload.
-/
theorem decompress_embedded
    {content : Bytes} {bytesWritten : Nat} {finished : IStream}
    (restores :
      Settles
        (fun fuel =>
          decompress lib payload.length fuel
            ⟨IStream.ofBytes payload, OStream.atEnd []⟩)
        (.returned bytesWritten ⟨finished, OStream.atEnd content⟩)) :
    Settles
      (fun fuel =>
        decompress lib payload.length fuel
          ⟨IStream.goodAt (before ++ (payload ++ after)) before.length,
            OStream.atEnd []⟩)
      (.returned bytesWritten
        ⟨IStream.goodAt (before ++ (payload ++ after))
            (before.length + payload.length),
          OStream.atEnd content⟩) := by
  have simulates : ∀ fuel,
      Program.Simulates (Embedded before payload after 0)
        (decompress lib payload.length fuel)
        (decompress lib payload.length fuel)
        (fun _ => Embedded before payload after payload.length) := by
    intro fuel
    unfold decompress
    cases lib.createDCtx with
    | none => exact Program.Simulates.raise _
    | some dctx =>
        intro inArchive alone embedded
        exact Program.Simulates.loop (BeforeChunk before payload after)
          decompressChunk_simulates fuel _ inArchive alone ⟨embedded, rfl⟩
  filter_upwards [restores] with fuel restored
  have start :
      Embedded before payload after 0
        ⟨IStream.goodAt (before ++ (payload ++ after)) before.length,
          OStream.atEnd []⟩
        ⟨IStream.ofBytes payload, OStream.atEnd []⟩ :=
    ⟨rfl, rfl, Nat.zero_le _, rfl⟩
  obtain ⟨later, ends, embedded⟩ :=
    (simulates fuel).returned start restored
  obtain ⟨input, output⟩ := later
  obtain rfl := embedded.archiveInput
  obtain rfl := embedded.output
  exact ends

end Embedding

/-! ## Unpacking -/

section Unpacking

variable {lib : Library} {buffering : Buffering}
variable {workingDirectory base : Location} {directory : PathName}
variable {disk : Disk}

theorem createDirectories_run
    {holder : List PathName} {name : PathName}
    (leads : Leads disk.tree workingDirectory directory base)
    (areNames : ∀ each ∈ holder ++ [name], IsName each)
    (isDirectory : disk.tree.node (base ++ holder) = some .directory)
    (free : disk.tree.node (base ++ (holder ++ [name])) = none) :
    createDirectories workingDirectory
        (join directory (joinNames (holder ++ [name]))) disk =
      .returned ()
        ⟨disk.tree.place (base ++ (holder ++ [name])) .directory,
          disk.handed ++
            [join directory (joinNames (holder ++ [name]))]⟩ := by
  have nonempty : holder ++ [name] ≠ [] := by simp
  have relative := isAbsolute_joinNames nonempty areNames
  have joinedNonempty :
      join directory (joinNames (holder ++ [name])) ≠ [] := fun joined =>
    resolve_ne_nil leads.resolved (join_eq_nil joined).1
  have baseIsDirectory : disk.tree.node base = some .directory := by
    by_cases top : holder = []
    · simpa [top] using isDirectory
    · refine disk.tree.ancestor_isDirectory holder ?_ top
      rw [isDirectory]
      simp
  obtain ⟨leading, split, walked⟩ :=
    walk_join leads.resolved leads.noNul relative
  rw [createDirectories, native_of_no_nul
    (no_nul_join leads.noNul (no_nul_joinNames areNames)),
    if_neg joinedNonempty, isAbsolute_join relative, split,
    components_joinNames nonempty areNames,
    makeDirectories_walk walked baseIsDirectory,
    makeDirectories_names isDirectory areNames free]
  rfl

theorem decompressToFile_run
    (location : Location) (before after : Bytes) (disk : Disk)
    {content payload : Bytes}
    {bytesWritten : Nat} {finished : IStream}
    (restores :
      Settles
        (fun fuel =>
          decompress lib payload.length fuel
            ⟨IStream.ofBytes payload, OStream.atEnd []⟩)
        (.returned bytesWritten ⟨finished, OStream.atEnd content⟩)) :
    Settles
      (fun fuel =>
        decompressToFile lib location payload.length fuel
          (IStream.goodAt (before ++ (payload ++ after)) before.length)
          disk)
      (.returned
        (IStream.goodAt (before ++ (payload ++ after))
          (before.length + payload.length))
        ⟨disk.tree.place location (.file content), disk.handed⟩) := by
  filter_upwards [decompress_embedded restores] with fuel decompressed
  rw [decompressToFile, decompressed]
  rfl

/-- The part of a pass that reads the header of a record. -/
theorem unpackEntryWith_header
    {extracts : Extracting} {record : Record} {before after : Bytes}
    (short : record.info.relativePath.length ≤ pathMaxLen)
    (fits :
      (before ++ (record.bytes ++ after)).length < sizeModulus)
    (fuel : Nat) :
    unpackEntryWith workingDirectory extracts directory
        (before ++ (record.bytes ++ after)).length fuel
        (IStream.goodAt (before ++ (record.bytes ++ after))
          before.length) disk =
      (let afterHeader :=
        IStream.goodAt (before ++ (record.bytes ++ after))
          (before ++ header record.info).length
      if record.info.isDirectory then do
        createDirectories workingDirectory
          (join directory record.info.relativePath)
        pure (.inl afterHeader)
      else do
        let compressedArchive ← extracts fuel afterHeader record.info
        pure (.inl compressedArchive) : DiskProgram _) disk := by
  have sizes :
      (before ++ (record.bytes ++ after)).length =
        before.length + (header record.info).length +
          record.payload.length + after.length := by
    simp only [Record.bytes, List.length_append]
    omega
  have headerSize := header_length record.info
  have remaining := getRemainingBytes_run
    (before ++ (record.bytes ++ after)) before.length
    (before ++ (record.bytes ++ after)).length (by omega)
  have headerRead := readFromStream_run record.info before
    (record.payload ++ after)
    (before ++ (record.bytes ++ after)).length short
    (by rw [record.info_compressedLength]; omega)
    (by rw [record.info_compressedLength, List.length_append]; omega)
  have split :
      header record.info ++ (record.payload ++ after) =
        record.bytes ++ after := by
    rw [Record.bytes, List.append_assoc]
  rw [split] at headerRead
  have more :
      (before ++ (record.bytes ++ after)).length - before.length > 0 := by
    omega
  rw [unpackEntryWith,
    Program.bind_returned (Program.onLocal_returned remaining disk)]
  simp only [more, if_true]
  rw [Program.bind_returned (Program.onLocal_returned headerRead disk)]

/-- The archive, if it lies somewhere, is there. -/
def HasOpened (tree : FileTree) (opened : Option Location) : Prop :=
  ∀ location, opened = some location → tree.node location ≠ none

/-- One pass of the loop extracts one record. -/
theorem unpackEntry_settles
    {opened : Option Location} (disk : Disk)
    (hasOpened : HasOpened disk.tree opened)
    {record : Record} {holder : List PathName} {name : PathName}
    {before after : Bytes}
    (good : record.Good lib)
    (leads : Leads disk.tree workingDirectory directory base)
    (namesEq : record.names = holder ++ [name])
    (isDirectory : disk.tree.node (base ++ holder) = some .directory)
    (free : disk.tree.node (base ++ record.names) = none)
    (fits :
      (before ++ (record.bytes ++ after)).length < sizeModulus) :
    Settles
      (fun fuel =>
        unpackEntryWith workingDirectory
          (LiveUnpacking.unpackFile lib buffering workingDirectory opened
            directory)
          directory (before ++ (record.bytes ++ after)).length fuel
          (IStream.goodAt (before ++ (record.bytes ++ after))
            before.length) disk)
      (.returned
        (.inl
          (IStream.goodAt (before ++ (record.bytes ++ after))
            (before ++ record.bytes).length))
        ⟨disk.tree.place (base ++ record.names) record.node,
          disk.handed ++ [join directory (joinNames record.names)]⟩) := by
  have areNames := good.areNames
  rw [namesEq] at areNames
  simp only [unpackEntryWith_header good.short fits]
  cases record with
  | directory names =>
      obtain rfl : names = holder ++ [name] := namesEq
      have created := createDirectories_run leads areNames isDirectory free
      refine Settles.of_eq fun fuel => ?_
      simp only [Record.info, reduceIte]
      rw [Program.bind_returned created]
      simp [Record.bytes, Record.payload, Record.info, Record.names,
        Record.node]
  | file names content payload =>
      obtain rfl : names = holder ++ [name] := namesEq
      obtain ⟨bytesWritten, finished, restores⟩ := good.restores
      have possible : disk.tree.CanPlace (base ++ (holder ++ [name])) :=
        canPlace_of_free (areNames name (by simp)) isDirectory free
      have fileLeads := leads.joinNames holder name isDirectory areNames
      have opens := openForWriting_run fileLeads.resolved possible
      have apart : opened ≠ some (base ++ (holder ++ [name])) :=
        fun same => hasOpened _ same free
      let info : FSEntryInfo :=
        ⟨false, joinNames (holder ++ [name]), payload.length⟩
      have written := decompressToFile_run
        (base ++ (holder ++ [name])) (before ++ header info) after
        ⟨disk.tree.place (base ++ (holder ++ [name])) (.file []),
          disk.handed ++
            [join directory (joinNames (holder ++ [name]))]⟩ restores
      filter_upwards [written] with fuel writtenEq
      simp only [Record.info, Record.bytes, Record.payload, Record.names,
        Record.node, Bool.false_eq_true, reduceIte, List.append_assoc,
        List.length_append, LiveUnpacking.unpackFile, Program.bind_run,
        opens, apart, info, place_place possible] at writtenEq ⊢
      rw [writtenEq]
      simp [Nat.add_assoc]

/-- The loop extracts the records one after another. -/
theorem unpackEntries_settles
    {records : List Record} {tree final : FileTree}
    (extracts : Extracts base records tree final)
    (good : ∀ record ∈ records, record.Good lib)
    (leads : Leads tree workingDirectory directory base)
    {opened : Option Location}
    (hasOpened : HasOpened tree opened)
    (before : Bytes) (handed : List PathName)
    (fits : (before ++ archiveBytes records).length < sizeModulus) :
    ∃ later : Disk,
      later.tree = final ∧
      Settles
        (fun fuel =>
          Program.loop
            (unpackEntryWith workingDirectory
              (LiveUnpacking.unpackFile lib buffering workingDirectory
                opened directory)
              directory (before ++ archiveBytes records).length) fuel
            (IStream.goodAt (before ++ archiveBytes records)
              before.length) ⟨tree, handed⟩)
        (.returned () later) := by
  induction extracts generalizing before handed with
  | nil tree =>
      refine ⟨⟨tree, handed⟩, rfl, Settles.loop_leave ?_⟩
      refine Settles.of_eq fun fuel => ?_
      have nothing :=
        getRemainingBytes_run before before.length before.length le_rfl
      simp only [archiveBytes_nil, List.append_nil]
      rw [unpackEntryWith,
        Program.bind_returned (Program.onLocal_returned nothing _)]
      simp
  | @cons record rest tree final holder name namesEq isDirectory free
      _ inductionHypothesis =>
      have kept : ∀ other, tree.node other = some .directory →
          (tree.place (base ++ record.names) record.node).node other =
            some .directory :=
        fun other otherIsDirectory =>
          directory_place (by rw [free]; simp) otherIsDirectory
      have stillOpened :
          HasOpened (tree.place (base ++ record.names) record.node)
            opened := by
        intro location isOpened
        rw [node_place_other]
        · exact hasOpened location isOpened
        · rintro rfl
          exact hasOpened _ isOpened free
      rw [archiveBytes_cons] at fits ⊢
      have pass := @unpackEntry_settles lib buffering workingDirectory base
        directory opened ⟨tree, handed⟩ hasOpened _ _ _ _ _
        (good record List.mem_cons_self) leads namesEq isDirectory free fits
      obtain ⟨later, laterEq, settles⟩ := inductionHypothesis
        (fun other member => good other (List.mem_cons_of_mem _ member))
        (leads.of_directories kept) stillOpened (before ++ record.bytes)
        (handed ++ [join directory (joinNames record.names)])
        (by rwa [List.append_assoc])
      rw [List.append_assoc] at settles
      exact ⟨later, laterEq, Settles.loop_again pass settles⟩

section Archives

variable {records : List Record} {archivePath : PathName} {final : FileTree}
variable (extracts : Extracts base records disk.tree final)
variable (good : ∀ record ∈ records, record.Good lib)
variable (leads : Leads disk.tree workingDirectory directory base)
variable (isDirectory : disk.tree.node base = some .directory)
variable (isArchive : regularFile disk.tree workingDirectory archivePath =
  some (archiveBytes records))
variable (fits : (archiveBytes records).length < sizeModulus)

include extracts good leads isDirectory isArchive fits

/-- Unpacking an archive of good records extracts them. -/
theorem unpackArchiveWith_settles
    {opening : Option Location → Option Location}
    (hasOpened : HasOpened disk.tree
      (opening (disk.tree.resolve workingDirectory archivePath))) :
    ∃ unpacked : Disk,
      unpacked.tree = final ∧
      Settles
        (fun fuel =>
          unpackArchiveWith workingDirectory
            (fun opened => LiveUnpacking.unpackFile lib buffering
              workingDirectory (opening opened) directory)
            directory archivePath fuel disk)
        (.returned () unpacked) := by
  rcases unpackEntries_settles extracts good leads hasOpened [] disk.handed
      (by rwa [List.nil_append]) with
    ⟨unpacked, unpackedEq, settles⟩
  refine ⟨unpacked, unpackedEq, ?_⟩
  have directoryExists :
      fileExists disk.tree workingDirectory directory = true := by
    rw [fileExists, status, leads.resolved, Option.bind_some, isDirectory]
    rfl
  have archiveExists :
      fileExists disk.tree workingDirectory archivePath = true := by
    rw [fileExists, status_of_regularFile isArchive]
    rfl
  simp only [unpackArchiveWith,
    Program.bind_returned (Program.getState_run _), directoryExists,
    archiveExists, Bool.not_true, Bool.false_eq_true, reduceIte, isArchive]
  exact settles

theorem unpackArchive_settles :
    ∃ unpacked : Disk,
      unpacked.tree = final ∧
      Settles
        (fun fuel =>
          unpackArchive lib workingDirectory directory archivePath fuel
            disk)
        (.returned () unpacked) := by
  have settles := @unpackArchiveWith_settles lib LiveUnpacking.unbuffered
    workingDirectory base directory disk records archivePath final extracts
    good leads isDirectory isArchive fits (fun _ => none)
    fun _ nowhere => nomatch nowhere
  simp only [LiveUnpacking.unpackFile_none] at settles
  exact settles

/-- The archive itself stays as it is, so every byte of it is read. -/
theorem live_unpackArchive_settles :
    ∃ unpacked : Disk,
      unpacked.tree = final ∧
      Settles
        (fun fuel =>
          LiveUnpacking.unpackArchive lib buffering workingDirectory
            directory archivePath fuel disk)
        (.returned () unpacked) := by
  apply unpackArchiveWith_settles extracts good leads isDirectory isArchive
    fits
  intro location leadsTo isFree
  have found := status_of_regularFile isArchive
  rw [status, leadsTo, Option.bind_some, isFree] at found
  cases found

end Archives

end Unpacking

/-! ## The round trip -/

/--
Unpacking an archive that `createArchive` returned copies the tree.  The tree
may lie in another file system than the one the archive is unpacked in, and
nothing but the copy changes there.
-/
theorem unpackArchive_createArchive
    {lib : Library} {listing : Location → List PathName}
    {sourceWorkingDirectory workingDirectory origin base : Location}
    {sourceDirectory newArchivePath directory archivePath : PathName}
    (source target : Disk) {packed : Disk} {archive : Bytes}
    {fuel : Nat}
    (properName : IsName (filename sourceDirectory))
    (sourceLeads :
      Leads source.tree sourceWorkingDirectory sourceDirectory origin)
    (packable : Packable lib listing source.tree origin)
    (finite :
      {below | source.tree.node (origin ++ below) ≠ none}.Finite)
    (archiveOutside : ∀ location,
      source.tree.resolve sourceWorkingDirectory newArchivePath =
        some location → ¬ origin <+: location)
    (created :
      createArchive lib sourceWorkingDirectory listing sourceDirectory
        newArchivePath fuel source = .returned () packed)
    (written :
      regularFile packed.tree sourceWorkingDirectory newArchivePath =
        some archive)
    (fits : archive.length < sizeModulus)
    (leads : Leads target.tree workingDirectory directory base)
    (isDirectory : target.tree.node base = some .directory)
    (sameArchive :
      regularFile target.tree workingDirectory archivePath = some archive)
    (free :
      target.tree.node (base ++ [filename sourceDirectory]) = none) :
    ∃ unpacked : Disk,
      Settles
        (fun fuel =>
          unpackArchive lib workingDirectory directory archivePath fuel
            target)
        (.returned () unpacked) ∧
      IsCopy source.tree origin target.tree
        (base ++ [filename sourceDirectory]) unpacked.tree := by
  obtain ⟨bound, isBound⟩ := (finite.image List.length).bddAbove
  have deep : ∀ below, source.tree.node (origin ++ below) ≠ none →
      below.length < bound + 1 := fun below present =>
    Nat.lt_succ_of_le (isBound ⟨below, present, rfl⟩)
  have ends := createArchive_ends properName sourceLeads packable deep
    archiveOutside
  have settles := Settles.of_run
    (createArchive_grows lib sourceWorkingDirectory listing
      sourceDirectory newArchivePath) created nofun
  obtain ⟨records, packs, rfl⟩ :=
    ends.good_of_returned settles archive written
  obtain ⟨final, extracts, copied⟩ :=
    packs.copies target.tree base (by simpa using isDirectory) free
  obtain ⟨unpacked, rfl, settles⟩ :=
    unpackArchive_settles extracts packs.good leads isDirectory
      sameArchive fits
  exact ⟨unpacked, settles, copied⟩

/-- A directory `t` with an empty directory and a file, and a free `d`. -/
def smallTree : FileTree :=
  FileTree.empty
    |>.place [ascii "d"] .directory
    |>.place [ascii "t"] .directory
    |>.place [ascii "t", ascii "e"] .directory
    |>.place [ascii "t", ascii "f"] (.file [5])

def smallListing (location : Location) : List PathName :=
  if location = [ascii "t"] then [ascii "f", ascii "e"] else []

def smallLibrary : Library :=
  holdingBack (show 0 < 4 by decide) (show 0 < 4 by decide)

theorem smallTree_below (below : Location) :
    smallTree.node ([ascii "t"] ++ below) =
      if below = [ascii "f"] then some (.file [5])
      else if below = [ascii "e"] then some .directory
      else if below = [] then some .directory
      else none := by
  have outside : ascii "t" ≠ ascii "d" := by decide
  unfold smallTree
  rw [node_place (by decide +kernel), node_place (by decide +kernel),
    node_place (by decide +kernel), node_place (by decide +kernel)]
  simp [FileTree.empty, outside]

theorem smallTree_packable :
    Packable smallLibrary smallListing smallTree [ascii "t"] where
  isDirectory := smallTree_below []
  lists below isDirectory := by
    rw [smallTree_below] at isDirectory
    split_ifs at isDirectory with isFile isEmpty isTop
    · cases isDirectory
    · subst isEmpty
      refine ⟨by decide, fun name => ?_⟩
      rw [List.append_assoc, smallTree_below]
      simp [smallListing]
    · subst isTop
      refine ⟨by decide, fun name => ?_⟩
      rw [List.append_assoc, smallTree_below]
      have different : ascii "e" ≠ ascii "f" := by decide
      by_cases isF : name = ascii "f"
      · simp [smallListing, isF]
      · by_cases isE : name = ascii "e"
        · simp [smallListing, isE, different]
        · simp [smallListing, isF, isE]
  roundTrips below content isFile := by
    rw [smallTree_below] at isFile
    split_ifs at isFile
    all_goals cases isFile
    exact roundTrips_of_lastShort (holdingBackContract _ _) (by decide)

/-- What a run of `createArchive` on the small tree leaves. -/
theorem smallTree_packs :
    ∃ packed archive,
      createArchive smallLibrary [] smallListing (ascii "t") (ascii "x") 10
          ⟨smallTree, []⟩ = .returned () packed ∧
        regularFile packed.tree [] (ascii "x") = some archive ∧
        archive.length < sizeModulus ∧
        packed.tree.resolve [] (ascii "d") = some [ascii "d"] ∧
        packed.tree.node [ascii "d"] = some .directory ∧
        packed.tree.node [ascii "d", ascii "t"] = none := by
  have computed :
      ((createArchive smallLibrary [] smallListing (ascii "t") (ascii "x")
          10 ⟨smallTree, []⟩).finalState.any fun packed =>
        (regularFile packed.tree [] (ascii "x")).any fun archive =>
          decide (archive.length < sizeModulus ∧
            packed.tree.resolve [] (ascii "d") = some [ascii "d"] ∧
            packed.tree.node [ascii "d"] = some .directory ∧
            packed.tree.node [ascii "d", ascii "t"] = none)) = true := by
    decide +kernel
  obtain ⟨packed, final, computed⟩ := (Option.any_eq_true _ _).1 computed
  obtain ⟨archive, isFile, computed⟩ := (Option.any_eq_true _ _).1 computed
  exact ⟨packed, archive, Outcome.eq_returned final, isFile,
    of_decide_eq_true computed⟩

theorem unpackArchive_createArchive_smallTree :
    ∃ packed unpacked,
      createArchive smallLibrary [] smallListing (ascii "t") (ascii "x") 10
          ⟨smallTree, []⟩ = .returned () packed ∧
      Settles
        (fun fuel =>
          unpackArchive smallLibrary [] (ascii "d") (ascii "x") fuel packed)
        (.returned () unpacked) ∧
      IsCopy smallTree [ascii "t"] packed.tree [ascii "d", ascii "t"]
        unpacked.tree := by
  obtain ⟨packed, archive, runs, isFile, fits, resolved, isDirectory,
    free⟩ := smallTree_packs
  have finite : {below : Location |
      smallTree.node ([ascii "t"] ++ below) ≠ none}.Finite := by
    have few : ({[ascii "f"], [ascii "e"], []} : Set Location).Finite := by
      simp
    refine few.subset ?_
    intro below present
    change smallTree.node _ ≠ none at present
    rw [smallTree_below] at present
    split_ifs at present <;> simp_all
  have archiveOutside : ∀ location,
      smallTree.resolve [] (ascii "x") = some location →
        ¬ [ascii "t"] <+: location := by
    intro location resolved
    have known : smallTree.resolve [] (ascii "x") = some [ascii "x"] := by
      decide +kernel
    cases known.symm.trans resolved
    decide
  obtain ⟨unpacked, settles, copied⟩ :=
    unpackArchive_createArchive ⟨smallTree, []⟩ packed (by decide)
      ⟨by decide, by decide +kernel⟩ smallTree_packable finite
      archiveOutside runs isFile fits ⟨by decide, resolved⟩ isDirectory
      isFile free
  exact ⟨packed, unpacked, runs, settles, copied⟩

end DropFile.Client.ArchiveRoundTrip
