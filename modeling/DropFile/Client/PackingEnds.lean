import DropFile.Client.ZstdRoundTrip
import DropFile.Client.PackedEntries

/-!
# Packing ends

`is_directory` follows symbolic links, so a directory that is packed may lead
back to itself.  What ends the recursion is the relative path: every call makes
it longer, and `FSEntryInfo` refuses it when it is too long.
-/

namespace DropFile.Client.PackingEnds

open DropFile.General.FuelledProgram
open DropFile.General.PathNames
open DropFile.General.Files
open DropFile.Streams
open DropFile.FileSystem
open DropFile.Client.EntryInfo
open DropFile.Client.Zstd
open DropFile.Client.ArchiveManager
open DropFile.Client.PackedEntries

/-! ## Directories with links -/

/-- What the path of an entry leads to, through any number of links. -/
inductive Target (Directory : Type) where
  | directory (directory : Directory)
  /-- A regular file; nothing is known of one that cannot be opened. -/
  | regularFile (content : Option Bytes)
  | other
  /-- `is_directory` throws, for example on a link that leads to itself. -/
  | unknown (error : Exception)

/--
Directories and what their entries lead to.  An entry may lead to any
directory, and many may lead to the same.
-/
structure DirectoryGraph where
  Directory : Type
  /-- What `directory_iterator` goes through, in its order, or throws. -/
  listing :
    Directory → Except Exception (List (PathName × Target Directory))
  named : ∀ directory entries, listing directory = .ok entries →
    ∀ entry ∈ entries, IsName entry.1

abbrev ArchiveProgram (α : Type) := Program Exception OStream α

variable (graph : DirectoryGraph) (lib : Library)

/-- `ArchiveManager::addDirectory`. -/
def addDirectory (relativePath : PathName) : ArchiveProgram Unit := do
  let info ← construct true relativePath
  let _ ← writeToStream info

/-- `zstd::compress(input_file, compressed_archive, …)`. -/
def compressFile (content : Bytes) (fuel : Nat) : ArchiveProgram Nat :=
  Program.focus
    (fun compressedArchive => ⟨IStream.ofBytes content, compressedArchive⟩)
    (fun streams _ => streams.output) (compress lib fuel)

/-- `ArchiveManager::addFile`. -/
def addFile
    (fuel : Nat) (inputFile : Option Bytes)
    (filePath relativePath : PathName) : ArchiveProgram Unit := do
  let fileInfo ← construct false relativePath
  let position ← writeToStream fileInfo
  match inputFile with
  | none =>
      Program.raise (archiveManagerException
        (ascii "Failed to open input file: " ++ filePath))
  | some content =>
      let bytesWritten ← compressFile lib content fuel
      writeCompressedLength position bytesWritten

/-- One entry of the directory that is being packed. -/
def packEntry
    (packDirectory : graph.Directory → PathName → PathName →
      ArchiveProgram Unit)
    (fuel : Nat) (dirToCompress relativePath : PathName)
    (entry : PathName × Target graph.Directory) : ArchiveProgram Unit :=
  let current := join dirToCompress entry.1
  let newRelative := join relativePath (filename current)
  match entry.2 with
  | .directory directory => packDirectory directory current newRelative
  | .regularFile inputFile =>
      addFile lib fuel inputFile current newRelative
  | .other => pure ()
  | .unknown error => Program.raise error

/-- `ArchiveManager::packDirectory`, with a bound for its depth. -/
def packDirectory (fuel : Nat) :
    (depth : Nat) → graph.Directory →
      (dirToCompress relativePath : PathName) → ArchiveProgram Unit
  | 0, _, _, _ => fun _ => .outOfFuel
  | depth + 1, directory, dirToCompress, relativePath => do
      addDirectory relativePath
      match graph.listing directory with
      | .error error => Program.raise error
      | .ok entries =>
          Program.forEach
            (packEntry graph lib (packDirectory fuel depth) fuel
              dirToCompress relativePath)
            entries

/-! ## Relative paths grow -/

/-- Joining a name adds at least one character, also to nothing. -/
theorem length_join_name
    (left : PathName) {name : PathName}
    (isName : IsName name) :
    left.length < (join left name).length := by
  have positive := List.length_pos_of_ne_nil isName.nonempty
  have relative := isAbsolute_of_no_slash isName.no_slash
  rw [join, relative, if_neg Bool.false_ne_true]
  split_ifs
  · rw [List.length_append]
    exact Nat.lt_add_of_pos_right positive
  · rw [List.length_append, List.length_cons]
    exact Nat.lt_add_of_pos_right (Nat.succ_pos _)

/-- The arguments of a call of `packDirectory`. -/
structure Call where
  directory : graph.Directory
  dirToCompress : PathName
  relativePath : PathName

variable {graph}

/-- The first call makes the second one. -/
structure Calls (first second : Call graph) : Prop where
  /-- The header of the first call was written. -/
  accepted : first.relativePath.length ≤ pathMaxLen
  made : ∃ entries name,
    graph.listing first.directory = .ok entries ∧
    (name, .directory second.directory) ∈ entries ∧
    second.dirToCompress = join first.dirToCompress name ∧
    second.relativePath =
      join first.relativePath (filename second.dirToCompress)

/-- A chain of so many recursive calls. -/
inductive CallChain : Call graph → Nat → Call graph → Prop where
  | here (call : Call graph) : CallChain call 0 call
  | next {first second last : Call graph} {count : Nat} :
      Calls first second →
      CallChain second count last →
      CallChain first (count + 1) last

theorem Calls.grows
    {first second : Call graph}
    (calls : Calls first second) :
    first.relativePath.length < second.relativePath.length := by
  rcases calls.made with ⟨entries, name, listed, member, path, relative⟩
  have isName := graph.named first.directory entries listed _ member
  rw [relative, path, filename_join isName]
  exact length_join_name first.relativePath isName

theorem CallChain.grows
    {first last : Call graph} {count : Nat}
    (chain : CallChain first count last) :
    first.relativePath.length + count ≤ last.relativePath.length := by
  induction chain with
  | here => exact Nat.le_refl _
  | next calls _ inductionHypothesis =>
      have grows := calls.grows
      omega

/-- Only the last call of a chain may have been refused. -/
theorem CallChain.bounded
    {first last : Call graph} {count : Nat}
    (chain : CallChain first (count + 1) last) :
    first.relativePath.length + count ≤ pathMaxLen := by
  generalize isCount : count + 1 = total at chain
  induction chain generalizing count with
  | here => cases isCount
  | @next first second last others calls rest inductionHypothesis =>
      cases isCount
      cases others with
      | zero => exact calls.accepted
      | succ others =>
          have later := inductionHypothesis rfl
          have grows := calls.grows
          omega

/-! ## Termination -/

/-- Reading each regular file ends. -/
def ReadingEnds (graph : DirectoryGraph) (lib : Library) : Prop :=
  ∀ directory entries name content,
    graph.listing directory = .ok entries →
    (name, .regularFile (some content)) ∈ entries →
    ∀ compressedArchive,
      Terminates fun fuel =>
        compress lib fuel ⟨IStream.ofBytes content, compressedArchive⟩

section Ending

variable {lib}

theorem construct_total {σ : Type}
    (isDirectory : Bool) (relativePath : PathName) :
    Program.Total
      (construct isDirectory relativePath : Program Exception σ _) := by
  rw [construct]
  split_ifs
  · exact .raise _
  · exact .pure _

theorem write_total (bytes : Bytes) : Program.Total (write bytes) :=
  fun _ => Outcome.returned_ne _ _

theorem writeToStream_total (info : FSEntryInfo) :
    Program.Total (writeToStream info) := by
  rw [writeToStream]
  apply (write_total _).bind
  intro _
  dsimp only
  split_ifs
  · exact .raise _
  · apply (write_total _).bind
    intro _
    apply (write_total _).bind
    intro _
    apply Program.Total.bind (.step _)
    intro position
    apply (write_total _).bind
    intro _
    exact .pure position

theorem writeCompressedLength_total (position totalWritten : Nat) :
    Program.Total (writeCompressedLength position totalWritten) := by
  have seeks (change : OStream → OStream) :
      Program.Total
        (Program.modifyState change : Program Exception OStream Unit) :=
    fun _ => Outcome.returned_ne _ _
  rw [writeCompressedLength]
  apply (seeks _).bind
  intro _
  apply (write_total _).bind
  intro _
  exact seeks _

theorem addDirectory_total (relativePath : PathName) :
    Program.Total (addDirectory relativePath) := by
  apply (construct_total true relativePath).bind
  intro info
  apply (writeToStream_total info).bind
  intro _
  exact .pure ()

theorem addFile_terminates
    {inputFile : Option Bytes}
    (readingEnds : ∀ content, inputFile = some content →
      ∀ compressedArchive,
        Terminates fun fuel =>
          compress lib fuel ⟨IStream.ofBytes content, compressedArchive⟩)
    (filePath relativePath : PathName) (archive : OStream) :
    Terminates fun fuel =>
      addFile lib fuel inputFile filePath relativePath archive := by
  apply Terminates.bind (Terminates.of_total (construct_total _ _) archive)
  intro _ fileInfo afterInfo _
  apply Terminates.bind
    (Terminates.of_total (writeToStream_total fileInfo) afterInfo)
  intro _ position afterHeader _
  cases inputFile with
  | none => exact Terminates.of_total (.raise _) afterHeader
  | some content =>
      apply Terminates.bind
      · exact Terminates.focus (readingEnds content rfl afterHeader)
      · intro _ bytesWritten afterPayload _
        exact Terminates.of_total
          (writeCompressedLength_total position bytesWritten) afterPayload

/-- With more depth than characters are left, the packing ends. -/
theorem packDirectory_ends
    (readingEnds : ReadingEnds graph lib)
    {depth : Nat} (directory : graph.Directory)
    (dirToCompress : PathName) {relativePath : PathName}
    (enough : pathMaxLen + 1 - relativePath.length < depth)
    (archive : OStream) :
    Terminates fun fuel =>
      packDirectory graph lib fuel depth directory dirToCompress
        relativePath archive := by
  induction depth generalizing directory dirToCompress relativePath archive
  with
  | zero => exact absurd enough (Nat.not_lt_zero _)
  | succ depth inductionHypothesis =>
      by_cases short : relativePath.length ≤ pathMaxLen
      · apply Terminates.bind
          (Terminates.of_total (addDirectory_total relativePath) archive)
        intro _ _ afterHeader _
        cases listed : graph.listing directory with
        | error error => exact Terminates.of_total (.raise error) afterHeader
        | ok entries =>
            apply Terminates.forEach
            rintro ⟨name, target⟩ member current
            cases target with
            | directory subdirectory =>
                have isName := graph.named directory entries listed _ member
                have grows := length_join_name relativePath isName
                apply inductionHypothesis
                dsimp only
                rw [filename_join isName]
                omega
            | regularFile inputFile =>
                apply addFile_terminates
                rintro content rfl compressedArchive
                exact readingEnds directory entries name content listed
                  member compressedArchive
            | other => exact Terminates.of_total (.pure ()) current
            | unknown error => exact Terminates.of_total (.raise error) current
      · -- the constructor throws before anything is listed
        rcases construct_tooLong short true archive with ⟨error, refuses⟩
        apply Terminates.of_threw
        apply Settles.of_eq
        intro fuel
        exact Program.bind_threw (Program.bind_threw refuses)

end Ending

/--
Packing ends from every directory of every graph.  Along a chain of recursive
calls the relative path gets longer with each call, so the calls are never
nested more deeply than a path may be long.
-/
theorem packDirectory_terminates
    (graph : DirectoryGraph) (lib : Library)
    (readingEnds : ReadingEnds graph lib)
    (directory : graph.Directory) (dirToCompress relativePath : PathName)
    (archive : OStream) :
    (∀ depth, pathMaxLen + 2 ≤ depth →
      Terminates fun fuel =>
        packDirectory graph lib fuel depth directory dirToCompress
          relativePath archive) ∧
    ∀ count last,
      CallChain ⟨directory, dirToCompress, relativePath⟩ count last →
        relativePath.length + count ≤ last.relativePath.length ∧
          count ≤ pathMaxLen + 1 := by
  constructor
  · intro depth enough
    apply packDirectory_ends readingEnds
    exact Nat.lt_of_lt_of_le
      (Nat.lt_of_le_of_lt (Nat.sub_le _ _) (Nat.lt_succ_self _)) enough
  · intro count last chain
    refine ⟨chain.grows, ?_⟩
    cases count with
    | zero => exact Nat.zero_le _
    | succ count =>
        have bounded := chain.bounded
        exact Nat.succ_le_succ
          ((Nat.le_add_left _ _).trans bounded)

/-- A directory with a file and with a link to itself. -/
def selfLinked : DirectoryGraph where
  Directory := Unit
  listing _ := .ok
    [(ascii "f", .regularFile (some [7])), (ascii "loop", .directory ())]
  named := by
    rintro _ _ ⟨⟩ entry member
    rcases List.mem_pair.1 member with rfl | rfl
    · decide
    · decide

theorem packs_seven (archive : OStream) :
    ∃ written later,
      compress (ZstdRoundTrip.holdingBack Nat.one_pos Nat.one_pos) 9
          ⟨IStream.ofBytes [7], archive⟩ =
        .returned written later :=
  ⟨_, _, rfl⟩

theorem packDirectory_terminates_selfLinked :
    Terminates fun fuel =>
      packDirectory selfLinked (ZstdRoundTrip.holdingBack Nat.one_pos
        Nat.one_pos) fuel (pathMaxLen + 2) () (ascii "d") [] ⟨[], 0⟩ := by
  have readingEnds : ReadingEnds selfLinked
      (ZstdRoundTrip.holdingBack Nat.one_pos Nat.one_pos) := by
    rintro _ _ name content ⟨⟩ member compressedArchive
    rcases List.mem_pair.1 member with isFile | isLink
    · cases isFile
      rcases packs_seven compressedArchive with ⟨written, later, returns⟩
      exact .of_returned (Settles.of_run
        (Zstd.compress_grows _) returns (Outcome.returned_ne written later))
    · cases isLink
  exact (packDirectory_terminates selfLinked _ readingEnds () (ascii "d") []
    ⟨[], 0⟩).1 _ (Nat.le_refl _)

/-! ## Trees with links -/

section Trees

variable (lib : Library) (leads : Resolving)
variable (listing : Location → List PathName) (tree : FileTree)

/-- What a path name leads to in a tree. -/
def targetOf (path : PathName) : Target PathName :=
  if isDirectoryWith leads tree path then
    .directory path
  else if (regularFileWith leads tree path).isSome then
    .regularFile (regularFileWith leads tree path)
  else
    .other

/-- The names that `directory_iterator` goes through, or what it throws. -/
def namesIn (directory : PathName) : Except Exception (List PathName) :=
  match leads tree directory with
  | none => .error (filesystemError "directory iterator cannot open")
  | some location =>
      if tree.node location = some .directory then
        .ok (listing location)
      else
        .error (filesystemError "directory iterator cannot open")

variable {leads listing} in
theorem directoryEntries_returned
    {directory : PathName} {names : List PathName} {disk : Disk}
    (listed : namesIn leads listing disk.tree directory = .ok names)
    (archive : OStream) :
    directoryEntriesWith leads listing directory ⟨disk, archive⟩ =
      .returned names ⟨disk, archive⟩ := by
  rw [directoryEntriesWith, Program.bind_returned (Program.getState_run _)]
  rw [namesIn] at listed
  cases resolved : leads disk.tree directory with
  | none =>
      rw [resolved] at listed
      cases listed
  | some location =>
      rw [resolved] at listed
      dsimp only at listed ⊢
      split_ifs at listed ⊢
      cases listed
      rfl

variable {leads listing} in
theorem directoryEntries_threw
    {directory : PathName} {error : Exception} {disk : Disk}
    (fails : namesIn leads listing disk.tree directory = .error error)
    (archive : OStream) :
    directoryEntriesWith leads listing directory ⟨disk, archive⟩ =
      .threw error ⟨disk, archive⟩ := by
  rw [directoryEntriesWith, Program.bind_returned (Program.getState_run _)]
  rw [namesIn] at fails
  cases resolved : leads disk.tree directory with
  | none =>
      rw [resolved] at fails
      cases fails
      rfl
  | some location =>
      rw [resolved] at fails
      dsimp only at fails ⊢
      split_ifs at fails ⊢
      cases fails
      rfl

variable {listing} in
theorem namesIn_named
    (named : ∀ location, ∀ name ∈ listing location, IsName name)
    {directory : PathName} {names : List PathName}
    (listed : namesIn leads listing tree directory = .ok names) :
    ∀ name ∈ names, IsName name := by
  rw [namesIn] at listed
  split at listed
  · cases listed
  · split_ifs at listed
    cases listed
    exact named _

variable {listing} in
/-- The directories of a tree are known by the paths that lead to them. -/
def graphOf (named : ∀ location, ∀ name ∈ listing location, IsName name) :
    DirectoryGraph where
  Directory := PathName
  listing directory :=
    (namesIn leads listing tree directory).map fun names =>
      names.map fun name => (name, targetOf leads tree (join directory name))
  named := by
    intro directory entries listed entry member
    cases names : namesIn leads listing tree directory with
    | error error =>
        rw [names] at listed
        cases listed
    | ok names' =>
        rw [names] at listed
        cases listed
        rcases List.mem_map.1 member with ⟨name, isEntry, rfl⟩
        exact namesIn_named leads tree named names name isEntry

variable {listing} in
theorem graphOf_listing
    (named : ∀ location, ∀ name ∈ listing location, IsName name)
    (directory : PathName) :
    (graphOf leads tree named).listing directory =
      (namesIn leads listing tree directory).map fun names =>
        names.map fun name =>
          (name, targetOf leads tree (join directory name)) :=
  rfl

/--
On a disk that nothing changes the second program does what the first one does
with the archive, if the fuel of the first is enough.
-/
def Within {α : Type} (disk : Disk) (first : ArchiveProgram α)
    (second : PackProgram α) : Prop :=
  ∀ archive, first archive = .outOfFuel ∨
    second ⟨disk, archive⟩ = onArchive first ⟨disk, archive⟩

variable {lib leads listing} {disk : Disk} {α β : Type}

theorem Within.onArchive (program : ArchiveProgram α) :
    Within disk program (onArchive program) :=
  fun _ => Or.inr rfl

theorem Within.raise (error : Exception) :
    Within disk (Program.raise error : ArchiveProgram α)
      (Program.raise error) :=
  fun _ => Or.inr rfl

theorem Within.pure (value : α) :
    Within disk (pure value : ArchiveProgram α) (pure value) :=
  fun _ => Or.inr rfl

theorem Within.bind
    {first : ArchiveProgram α} {second : PackProgram α}
    {firstNext : α → ArchiveProgram β} {secondNext : α → PackProgram β}
    (within : Within disk first second)
    (next : ∀ value, Within disk (firstNext value) (secondNext value)) :
    Within disk (first >>= firstNext) (second >>= secondNext) := by
  intro archive
  rcases within archive with out | same
  · left
    rw [Program.bind_run, out]
  · rw [ArchiveManager.onArchive, Program.focus] at same
    rw [ArchiveManager.onArchive, Program.focus, Program.bind_run,
      Program.bind_run, same]
    dsimp only
    cases first archive with
    | returned value later => exact next value later
    | threw error later => exact Or.inr rfl
    | outOfFuel => exact Or.inl rfl

/-- The disk that is looked at is the one that nothing changes. -/
theorem Within.getState
    {first : ArchiveProgram α} {next : Packing → PackProgram α}
    (within : ∀ packing, packing.disk = disk →
      Within disk first (next packing)) :
    Within disk first (Program.getState >>= next) :=
  fun archive => within ⟨disk, archive⟩ rfl archive

theorem Within.forEach
    {γ : Type} {first : γ → ArchiveProgram Unit}
    {second : β → PackProgram Unit} {entry : β → γ} {elements : List β}
    (within : ∀ element ∈ elements,
      Within disk (first (entry element)) (second element)) :
    Within disk (Program.forEach first (elements.map entry))
      (Program.forEach second elements) := by
  induction elements with
  | nil => exact .pure ()
  | cons element rest inductionHypothesis =>
      apply (within element List.mem_cons_self).bind
      intro _
      apply inductionHypothesis
      intro other member
      exact within other (List.mem_cons_of_mem element member)

theorem construct_within (isDirectory : Bool) (relativePath : PathName) :
    Within disk (construct isDirectory relativePath)
      (construct isDirectory relativePath) := by
  rw [construct, construct]
  split_ifs
  · exact .raise _
  · exact .pure _

theorem addDirectory_within (relativePath : PathName) :
    Within disk (addDirectory relativePath)
      (ArchiveManager.addDirectory relativePath) := by
  apply (construct_within true relativePath).bind
  intro info
  apply (Within.onArchive (writeToStream info)).bind
  intro _
  exact .pure ()

theorem compressFile_within
    {fuel more : Nat}
    (ordered : fuel ≤ more)
    (filePath : PathName) (content : Bytes) :
    Within disk (compressFile lib content fuel)
      (asOpened lib more filePath content) := by
  intro archive
  rcases Zstd.compress_grows lib fuel more ordered
      ⟨IStream.ofBytes content, archive⟩ with out | same
  · left
    rw [compressFile, Program.focus, out]
  · right
    rw [asOpened, ArchiveManager.compressFile, Program.focus, same,
      ArchiveManager.onArchive, Program.focus, compressFile, Program.focus]
    dsimp only
    cases compress lib fuel ⟨IStream.ofBytes content, archive⟩ with
    | returned value later => rfl
    | threw error later => rfl
    | outOfFuel => rfl

theorem addFile_within
    {fuel more : Nat}
    (ordered : fuel ≤ more)
    (filePath relativePath : PathName) :
    Within disk
      (addFile lib fuel (regularFileWith leads disk.tree filePath) filePath
        relativePath)
      (addFileWith leads (asOpened lib) more filePath relativePath) := by
  apply (construct_within false relativePath).bind
  intro fileInfo
  apply (Within.onArchive (writeToStream fileInfo)).bind
  intro position
  apply Within.getState
  rintro packing rfl
  cases regularFileWith leads packing.disk.tree filePath with
  | none => exact .raise _
  | some content =>
      apply (compressFile_within ordered filePath content).bind
      intro bytesWritten
      exact .onArchive _

variable (named : ∀ location, ∀ name ∈ listing location, IsName name)

/-- Packing a tree is packing its graph. -/
theorem packDirectory_within
    {fuel depth more : Nat}
    (ordered : fuel + depth ≤ more)
    (dirToCompress relativePath : PathName) :
    Within disk
      (packDirectory (graphOf leads disk.tree named) lib fuel depth
        dirToCompress dirToCompress relativePath)
      (packDirectoryWith leads listing (asOpened lib) more dirToCompress
        relativePath) := by
  induction depth generalizing more dirToCompress relativePath with
  | zero => exact fun _ => Or.inl rfl
  | succ depth inductionHypothesis =>
      obtain ⟨more, rfl⟩ : ∃ previous, more = previous + 1 :=
        ⟨more - 1, by omega⟩
      apply (addDirectory_within relativePath).bind
      intro _
      cases listed : namesIn leads listing disk.tree dirToCompress with
      | error error =>
          have fails : (graphOf leads disk.tree named).listing dirToCompress =
              .error error := by
            rw [graphOf_listing, listed]
            rfl
          rw [fails]
          intro archive
          right
          exact Program.bind_threw (directoryEntries_threw listed archive)
      | ok names =>
          have lists : (graphOf leads disk.tree named).listing dirToCompress =
              .ok (names.map fun name =>
                (name, targetOf leads disk.tree
                  (join dirToCompress name))) := by
            rw [graphOf_listing, listed]
            rfl
          rw [lists]
          intro archive
          rw [Program.bind_returned (directoryEntries_returned listed archive)]
          apply Within.forEach
          intro name _
          apply Within.getState
          rintro packing rfl
          rw [packEntry, targetOf]
          split_ifs with inDirectory isFile
          · exact inductionHypothesis (by omega) _ _
          · exact addFile_within (by omega) _ _
          · exact .pure ()

theorem readingEnds_graphOf
    (files : ∀ location content, tree.node location = some (.file content) →
      ∀ compressedArchive,
        Terminates fun fuel =>
          compress lib fuel ⟨IStream.ofBytes content, compressedArchive⟩) :
    ReadingEnds (graphOf leads tree named) lib := by
  intro directory entries name content listed member
  have lists := (graphOf_listing leads tree named directory).symm.trans listed
  cases names : namesIn leads listing tree directory with
  | error error =>
      rw [names] at lists
      cases lists
  | ok names' =>
      rw [names] at lists
      cases lists
      rcases List.mem_map.1 member with ⟨entry, -, isEntry⟩
      have isTarget := congrArg Prod.snd isEntry
      dsimp only at isTarget
      rw [targetOf] at isTarget
      split_ifs at isTarget
      have isFile := Target.regularFile.inj isTarget
      rw [regularFileWith, statusWith] at isFile
      split at isFile
      next content' present =>
        cases isFile
        rcases Option.bind_eq_some_iff.1 present with ⟨location, -, holds⟩
        exact files location content holds
      next => cases isFile

/--
With enough fuel, packing a tree is packing its graph, whatever links there are,
and it ends.
-/
theorem packDirectoryWith_settles
    (files : ∀ location content,
      disk.tree.node location = some (.file content) →
      ∀ compressedArchive,
        Terminates fun fuel =>
          compress lib fuel ⟨IStream.ofBytes content, compressedArchive⟩)
    (dirToCompress relativePath : PathName) (archive : OStream) :
    ∃ outcome, outcome ≠ .outOfFuel ∧
      Settles (fun fuel =>
        packDirectory (graphOf leads disk.tree named) lib fuel
          (pathMaxLen + 2) dirToCompress dirToCompress relativePath archive)
        outcome ∧
      Settles (fun fuel =>
        packDirectoryWith leads listing (asOpened lib) fuel dirToCompress
          relativePath ⟨disk, archive⟩)
        (onArchive (fun _ => outcome) ⟨disk, archive⟩) := by
  have enough : pathMaxLen + 1 - relativePath.length < pathMaxLen + 2 :=
    Nat.lt_of_le_of_lt (Nat.sub_le _ _) (Nat.lt_succ_self _)
  rcases @packDirectory_ends (graphOf leads disk.tree named) lib
      (readingEnds_graphOf disk.tree named files) _ dirToCompress
      dirToCompress _ enough archive with
    ⟨outcome, ended, settles⟩
  refine ⟨outcome, ended, settles, ?_⟩
  rcases settles.exists with ⟨bound, reached⟩
  refine Filter.eventually_atTop.2 ⟨bound + (pathMaxLen + 2), ?_⟩
  intro fuel ordered
  rcases packDirectory_within named ordered dirToCompress relativePath archive
    with out | same
  · exact absurd (reached.symm.trans out) ended
  · refine same.trans ?_
    dsimp only at reached
    simp only [onArchive, Program.focus, reached]

/-- So it does without links. -/
theorem packDirectory_settles
    (workingDirectory : Location)
    (files : ∀ location content,
      disk.tree.node location = some (.file content) →
      ∀ compressedArchive,
        Terminates fun fuel =>
          compress lib fuel ⟨IStream.ofBytes content, compressedArchive⟩)
    (dirToCompress relativePath : PathName) (archive : OStream) :
    ∃ outcome, outcome ≠ .outOfFuel ∧
      Settles (fun fuel =>
        packDirectory
          (graphOf (withoutLinks workingDirectory) disk.tree named) lib fuel
          (pathMaxLen + 2) dirToCompress dirToCompress relativePath archive)
        outcome ∧
      Settles (fun fuel =>
        ArchiveManager.packDirectory lib workingDirectory listing fuel
          dirToCompress relativePath ⟨disk, archive⟩)
        (onArchive (fun _ => outcome) ⟨disk, archive⟩) := by
  simp only [packDirectory_eq]
  exact packDirectoryWith_settles named files dirToCompress relativePath
    archive

end Trees

end DropFile.Client.PackingEnds
