import DropFile.Client.DropFileSendClient
import DropFile.Client.PackedEntries
import DropFile.Client.ZstdRoundTrip
import DropFile.FlatJson
import DropFile.SessionMessages

/-!
# The name that a directory is sent under

The argument loses its trailing slashes, and then its last component names
the archive, the announced file and the root of the archive's entries.  For
`.` and `..` this is no name: the path of the archive then leads to the
temporary directory or to its parent, which exist already.
-/

namespace DropFile.Client.SentNames

open DropFile.General.PathNames
open DropFile.General.Files
open DropFile.General.Processes.Process
open DropFile.Streams
open DropFile.FileSystem
open DropFile.InitSessionMessage
open DropFile.SessionMessages
open DropFile.Client.ArchiveManager
open DropFile.Client.DropFileSendClient
open DropFile.Client.PackedEntries

/-! ## `ClientArgParser` -/

/-- `find_last_not_of`. -/
def findLastNotOf (byte : UInt8) : Bytes → Option Nat
  | [] => none
  | first :: rest =>
      match findLastNotOf byte rest with
      | some pos => some (pos + 1)
      | none => if first = byte then none else some 0

/-- `removeTrailingSlashes` of `ClientArgParser.cpp`. -/
def removeTrailingSlashes (fileOrCode : Bytes) : Bytes :=
  match findLastNotOf slash fileOrCode with
  | some pos => fileOrCode.take (pos + 1)
  | none => fileOrCode.take (min fileOrCode.length 1)

/-- What is kept ends in another byte. -/
theorem getLast?_take_findLastNotOf
    {byte : UInt8} {bytes : Bytes} {pos : Nat}
    (found : findLastNotOf byte bytes = some pos) :
    ∃ last, (bytes.take (pos + 1)).getLast? = some last ∧ last ≠ byte := by
  induction bytes generalizing pos with
  | nil => cases found
  | cons first rest inductionHypothesis =>
      rw [findLastNotOf] at found
      split at found
      · rename_i before foundBefore
        cases found
        rcases inductionHypothesis foundBefore with ⟨last, isLast, different⟩
        have sameLast :
            ((first :: rest).take (before + 1 + 1)).getLast? = some last := by
          simp only [List.take_succ_cons, List.getLast?_cons, isLast,
            Option.getD_some]
        exact ⟨last, sameLast, different⟩
      · split_ifs at found with same
        cases found
        exact ⟨first, rfl, same⟩

theorem eq_of_findLastNotOf_none
    {byte : UInt8} {bytes : Bytes}
    (notFound : findLastNotOf byte bytes = none) :
    ∀ each ∈ bytes, each = byte := by
  induction bytes with
  | nil => exact fun _ member => absurd member List.not_mem_nil
  | cons first rest inductionHypothesis =>
      rw [findLastNotOf] at notFound
      split at notFound
      · cases notFound
      · rename_i notFoundBefore
        split_ifs at notFound with same
        exact List.forall_mem_cons.2
          ⟨same, inductionHypothesis notFoundBefore⟩

/-- Nothing is left behind the last slash but the root directory's own. -/
theorem removeTrailingSlashes_cases (fileOrCode : Bytes) :
    removeTrailingSlashes fileOrCode = [] ∨
      removeTrailingSlashes fileOrCode = [slash] ∨
      (removeTrailingSlashes fileOrCode).getLast? ≠ some slash := by
  rw [removeTrailingSlashes]
  split
  · rename_i pos found
    right
    right
    rcases getLast?_take_findLastNotOf found with ⟨last, isLast, different⟩
    rw [isLast]
    exact fun same => different (Option.some.inj same)
  · rename_i notFound
    cases fileOrCode with
    | nil => exact Or.inl rfl
    | cons first rest =>
        right
        left
        have isSlash : first = slash :=
          eq_of_findLastNotOf_none notFound first List.mem_cons_self
        have kept : min (first :: rest).length 1 = 1 :=
          Nat.min_eq_right (Nat.succ_le_succ (Nat.zero_le rest.length))
        rw [kept, isSlash]
        rfl

theorem mem_of_mem_removeTrailingSlashes
    {fileOrCode : Bytes} {byte : UInt8}
    (member : byte ∈ removeTrailingSlashes fileOrCode) :
    byte ∈ fileOrCode := by
  rw [removeTrailingSlashes] at member
  split at member
  · exact List.mem_of_mem_take member
  · exact List.mem_of_mem_take member

/-! ## The root of the entries -/

/-- The first component of a path. -/
def rootName (path : PathName) : Option PathName :=
  (components path).head?

theorem rootName_join
    {left right name : PathName}
    (relative : isAbsolute right = false)
    (nonempty : name ≠ [])
    (isRoot : rootName left = some name) :
    rootName (join left right) = some name := by
  rcases components_join left relative with
    joined | ⟨before, split, joined⟩
  · rw [rootName, joined, List.head?_append, ← rootName, isRoot]
    rfl
  · rw [rootName, split] at isRoot
    cases before with
    | nil =>
        cases isRoot
        exact absurd rfl nonempty
    | cons first rest =>
        rw [rootName, joined]
        exact isRoot

/-- The relative path that some work starts from. -/
def workPath : Work → PathName
  | .directory _ relativePath => relativePath
  | .entries _ relativePath _ => relativePath

/-- All entries are below the root that the packing started with. -/
theorem rootName_of_packed
    {leads : Resolving} {tree : FileTree}
    {listing : Location → List PathName} {work : Work}
    {entries : List Entry} {name : PathName}
    (packed : Packed leads tree listing work entries)
    (nonempty : name ≠ [])
    (isRoot : rootName (workPath work) = some name) :
    ∀ entry ∈ entries, rootName entry.info.relativePath = some name := by
  have below (path dirToCompress entryName : PathName)
      (isRoot : rootName path = some name) :
      rootName (join path (filename (join dirToCompress entryName))) =
        some name :=
    rootName_join
      (isAbsolute_of_no_slash (no_slash_filename _)) nonempty isRoot
  induction packed with
  | directory _ _ _ _ inductionHypothesis =>
      exact List.forall_mem_cons.2 ⟨isRoot, inductionHypothesis isRoot⟩
  | done => exact fun _ member => absurd member List.not_mem_nil
  | subdirectory _ _ _ firstHypothesis othersHypothesis =>
      intro entry member
      rcases List.mem_append.1 member with inFirst | inOthers
      · exact firstHypothesis (below _ _ _ isRoot) entry inFirst
      · exact othersHypothesis isRoot entry inOthers
  | file _ _ _ _ inductionHypothesis =>
      exact List.forall_mem_cons.2
        ⟨below _ _ _ isRoot, inductionHypothesis isRoot⟩
  | other _ _ _ inductionHypothesis => exact inductionHypothesis isRoot

/-! ## What is sent -/

variable {Peer : Type} [DecidableEq Peer]
variable {machine : Machine} {disk : Disk} {path : PathName}

/-- `DROP_FILE_SENDER_TMP_DIR / path.filename()`. -/
def archivePath (machine : Machine) (path : PathName) : PathName :=
  join (senderTmpDir machine) (filename path)

/-- The sender's temporary directory is there, and nothing is in it. -/
structure FreshTmpDir (machine : Machine) (tree : FileTree)
    (tmpDir : Location) : Prop where
  noNul : 0 ∉ senderTmpDir machine
  resolved :
    tree.resolve machine.workingDirectory (senderTmpDir machine) =
      some tmpDir
  isDirectory : tree.node tmpDir = some .directory
  empty : ∀ name, tree.node (tmpDir ++ [name]) = none

/-- The path leads to a directory other than the root. -/
structure NamesDirectory (machine : Machine) (tree : FileTree)
    (path : PathName) (location : Location) : Prop where
  resolved : tree.resolve machine.workingDirectory path = some location
  isDirectory : tree.node location = some .directory
  notRoot : location ≠ []

/--
The directory is compressed without meeting something at the path of its
archive, and its proper name is the one that is announced and the root of
every entry.
-/
structure SentUnderItsName (Peer : Type) [DecidableEq Peer]
    (machine : Machine) (disk : Disk) (path : PathName) : Prop where
  notThere : ∀ fuel (moment : Local Peer Disk),
    ¬ Becomes (compressIfNecessary machine path fuel)
      ⟨disk, silence, silence⟩
      (.failed (alreadyThere (archivePath machine path))) moment
  named : ∀ fuel entry isCompressed (moment : Local Peer Disk),
    Becomes (compressIfNecessary machine path fuel)
        ⟨disk, silence, silence⟩ (.done (entry, isCompressed)) moment →
      ∃ name, IsName name ∧
        (∀ json,
          createSendMessage machine.digest moment.state.tree
              machine.workingDirectory entry.path isCompressed = .ok json →
            json.find filenameKey = some (.string name)) ∧
        ∃ entries, entries ≠ [] ∧
          regularFile moment.state.tree machine.workingDirectory
              entry.path = some (entriesBytes entries) ∧
            ∀ entry ∈ entries,
              rootName entry.info.relativePath = some name

/-! ## Names that are none -/

/-- What no name leads to from the temporary directory is there. -/
theorem archivePath_there
    {tmpDir : Location}
    (fresh : FreshTmpDir machine disk.tree tmpDir)
    (noName : filename path = [] ∨ filename path = dot ∨
      filename path = dotDot) :
    fileExists disk.tree machine.workingDirectory
      (archivePath machine path) = true := by
  have there
      {below : Location}
      (noNul : 0 ∉ filename path)
      (relative : isAbsolute (filename path) = false)
      (walked : disk.tree.walk tmpDir (components (filename path)) =
        some below)
      (isDirectory : disk.tree.node below = some .directory) :
      fileExists disk.tree machine.workingDirectory
        (archivePath machine path) = true := by
    rw [fileExists, status, archivePath,
      FileTree.resolve_join fresh.resolved fresh.noNul noNul relative, walked,
      Option.bind_some, isDirectory]
    rfl
  rcases noName with isEmpty | isDot | isDotDot
  · rw [isEmpty] at there
    apply there (by decide) (by decide) _ fresh.isDirectory
    have single : components [] = [[]] := by decide
    rw [single, FileTree.walk, if_pos fresh.isDirectory, if_pos (Or.inl rfl),
      FileTree.walk]
  · rw [isDot] at there
    apply there (by decide) (by decide) _ fresh.isDirectory
    have single : components dot = [dot] := by decide
    rw [single, FileTree.walk, if_pos fresh.isDirectory, if_pos (Or.inr rfl),
      FileTree.walk]
  · rw [isDotDot] at there
    apply there (by decide) (by decide) _
      (FileTree.dropLast_isDirectory fresh.isDirectory)
    have single : components dotDot = [dotDot] := by decide
    rw [single, FileTree.walk, if_pos fresh.isDirectory,
      if_neg (by decide), if_pos rfl, FileTree.walk]

theorem isDirectory_of_namesDirectory
    {location : Location}
    (names : NamesDirectory machine disk.tree path location) :
    isDirectory disk.tree machine.workingDirectory path = true := by
  rw [FileSystem.isDirectory, status, names.resolved, Option.bind_some,
    names.isDirectory]
  rfl

/-- A path without trailing slashes ends in one only at the root. -/
theorem lastIsNoSlash_of_namesDirectory
    {fileOrCode : Bytes} {location : Location}
    (names : NamesDirectory machine disk.tree
      (removeTrailingSlashes fileOrCode) location) :
    (removeTrailingSlashes fileOrCode).getLast? ≠ some slash := by
  rcases removeTrailingSlashes_cases fileOrCode with
    empty | isRoot | lastIsNoSlash
  · exact absurd empty (FileTree.resolve_ne_nil names.resolved)
  · have resolved := names.resolved
    rw [isRoot] at resolved
    have toRoot : disk.tree.resolve machine.workingDirectory [slash] =
        some [] := by
      have split : components [slash] = [[], []] := by decide
      rw [FileTree.resolve, FileTree.native_of_no_nul (by decide),
        if_neg (List.cons_ne_nil _ _), if_pos (by decide), split]
      rw [FileTree.walk, if_pos disk.tree.root, if_pos (Or.inl rfl),
        FileTree.walk, if_pos disk.tree.root, if_pos (Or.inl rfl),
        FileTree.walk]
    rw [toRoot] at resolved
    cases resolved
    exact absurd rfl names.notRoot
  · exact lastIsNoSlash

/-- The directory is refused because of what its archive's path leads to. -/
theorem becomes_alreadyThere
    {location : Location}
    (names : NamesDirectory machine disk.tree path location)
    (there : fileExists disk.tree machine.workingDirectory
      (archivePath machine path) = true)
    (fuel : Nat) :
    Becomes (compressIfNecessary machine path fuel)
      (⟨disk, silence, silence⟩ : Local Peer Disk)
      (.failed (alreadyThere (archivePath machine path)))
      ⟨disk, silence, silence⟩ := by
  have creates := createArchive_there machine.zstd machine.workingDirectory
    machine.listing there path fuel
  have fails :
      Plays (ofProgram (createArchive machine.zstd machine.workingDirectory
          machine.listing path (archivePath machine path) fuel)) disk
        silence silence
        (.failed (alreadyThere (archivePath machine path)) :
          SenderProcess Peer Unit) disk :=
    Plays.ofProgram_threw creates
  have attempts := fails.bind fun _ =>
    (pure (⟨archivePath machine path, true⟩, true) :
      SenderProcess Peer (RAIIFSEntry × Bool))
  have plays :
      Plays (compressIfNecessary machine path fuel) disk silence silence
        (.failed (alreadyThere (archivePath machine path)) :
          SenderProcess Peer (RAIIFSEntry × Bool)) disk := by
    apply Plays.update
    show Plays (ite _ _ _) disk silence silence _ disk
    rw [if_pos (isDirectory_of_namesDirectory names)]
    exact attempts
  exact Becomes.of_plays plays silence silence

/-! ## Proper names -/

section ProperNames

variable {tmpDir : Location}
variable (fresh : FreshTmpDir machine disk.tree tmpDir)
variable (isName : IsName (filename path))

include fresh isName

theorem archivePath_resolved :
    disk.tree.resolve machine.workingDirectory (archivePath machine path) =
      some (tmpDir ++ [filename path]) := by
  exact FileTree.resolve_join_name fresh.resolved fresh.isDirectory
    fresh.noNul isName

theorem archivePath_free :
    fileExists disk.tree machine.workingDirectory
      (archivePath machine path) = false := by
  rw [fileExists, status, archivePath_resolved fresh isName,
    Option.bind_some, fresh.empty]
  rfl

/-- The archive is the only file in the temporary directory. -/
theorem archive_of_returned
    {fuel : Nat} {later : Disk}
    (returns : createArchive machine.zstd machine.workingDirectory
      machine.listing path (archivePath machine path) fuel disk =
        .returned () later) :
    ∃ entries, entries ≠ [] ∧
      regularFile later.tree machine.workingDirectory
          (archivePath machine path) = some (entriesBytes entries) ∧
        ∀ entry ∈ entries,
          rootName entry.info.relativePath = some (filename path) := by
  have resolved := archivePath_resolved fresh isName
  have notDirectory :
      disk.tree.node (tmpDir ++ [filename path]) ≠ some .directory := by
    rw [fresh.empty]
    exact (Option.some_ne_none _).symm
  have possible : disk.tree.CanPlace (tmpDir ++ [filename path]) :=
    FileTree.canPlace_concat isName fresh.isDirectory notDirectory
  rw [createArchive_eq] at returns
  rcases packed_of_returned _ _ (fun _ => asOpened_appends machine.zstd)
      resolved possible returns with
    ⟨entries, closed, packed⟩
  have archive : regularFile later.tree machine.workingDirectory
      (archivePath machine path) = some (entriesBytes entries) := by
    rw [closed]
    exact regularFile_place resolved possible _
  refine ⟨entries, ?_, archive, ?_⟩
  · cases packed
    exact List.cons_ne_nil _ _
  · have isRoot : rootName (filename path) = some (filename path) := by
      rw [rootName, components_of_no_slash isName.no_slash]
      rfl
    exact rootName_of_packed packed isName.nonempty isRoot

/-- Whatever happens, the directory is compressed under its name. -/
theorem compressIfNecessary_ensures
    {location : Location}
    (names : NamesDirectory machine disk.tree path location)
    (fuel : Nat) :
    Ensures (fun _ => True) (fun _ => True)
      (fun result later => ∃ entries, entries ≠ [] ∧
        result.1.path = archivePath machine path ∧
        regularFile later.state.tree machine.workingDirectory
            (archivePath machine path) = some (entriesBytes entries) ∧
          ∀ entry ∈ entries,
            rootName entry.info.relativePath = some (filename path))
      (fun error _ => PackingFault error)
      (compressIfNecessary machine path fuel)
      (⟨disk, silence, silence⟩ : Local Peer Disk) := by
  apply Ensures.getState_bind trivial
  dsimp only
  rw [if_pos (isDirectory_of_namesDirectory names)]
  have creates : Ensures (fun _ => True) (fun _ => True)
      (fun _ later => ∃ entries, entries ≠ [] ∧
        regularFile later.state.tree machine.workingDirectory
            (archivePath machine path) = some (entriesBytes entries) ∧
          ∀ entry ∈ entries,
            rootName entry.info.relativePath = some (filename path))
      (fun error _ => PackingFault error)
      (ofProgram (createArchive machine.zstd machine.workingDirectory
        machine.listing path (archivePath machine path) fuel))
      (⟨disk, silence, silence⟩ : Local Peer Disk) := by
    apply Ensures.ofProgram trivial
    intro start same
    have same : start = disk := same
    rw [same]
    cases outcome : createArchive machine.zstd machine.workingDirectory
        machine.listing path (archivePath machine path) fuel disk with
    | returned _ later =>
        exact ⟨trivial, archive_of_returned fresh isName outcome⟩
    | threw error later =>
        exact ⟨trivial, createArchive_threw _ _ _
          (archivePath_free fresh isName) outcome⟩
    | outOfFuel => trivial
  apply creates.bind
  rintro _ later - - ⟨entries, nonempty, archive, roots⟩
  exact .pure trivial ⟨entries, nonempty, rfl, archive, roots⟩

end ProperNames

/-- The exception for an archive that is there is not one of the packing. -/
theorem not_packingFault_alreadyThere (archivePath : PathName) :
    ¬ PackingFault (alreadyThere archivePath) := by
  rintro (other | ⟨path, same⟩)
  · exact other rfl
  · have texts := congrArg (fun error => error.what.take 4) same
    simp only [alreadyThere, archiveManagerException, List.append_assoc]
      at texts
    rw [List.take_append_of_le_length (by decide),
      List.take_append_of_le_length (by decide)] at texts
    exact absurd texts (by decide)

/--
Removing the slashes at the end makes sure that the directory has a proper
name, unless its last component is a dot or a dot-dot.
-/
theorem sentUnderItsName_iff
    {fileOrCode : Bytes} {tmpDir location : Location}
    (noNul : 0 ∉ fileOrCode)
    (fresh : FreshTmpDir machine disk.tree tmpDir)
    (names : NamesDirectory machine disk.tree
      (removeTrailingSlashes fileOrCode) location) :
    SentUnderItsName Peer machine disk (removeTrailingSlashes fileOrCode) ↔
      filename (removeTrailingSlashes fileOrCode) ≠ dot ∧
        filename (removeTrailingSlashes fileOrCode) ≠ dotDot := by
  constructor
  · intro sent
    have proper
        (noName : filename (removeTrailingSlashes fileOrCode) = [] ∨
          filename (removeTrailingSlashes fileOrCode) = dot ∨
          filename (removeTrailingSlashes fileOrCode) = dotDot) : False :=
      sent.notThere 0 _ (becomes_alreadyThere names
        (archivePath_there fresh noName) 0)
    exact ⟨fun isDot => proper (Or.inr (Or.inl isDot)),
      fun isDotDot => proper (Or.inr (Or.inr isDotDot))⟩
  · rintro ⟨not_dot, not_dotDot⟩
    have isName : IsName (filename (removeTrailingSlashes fileOrCode)) :=
      isName_filename (FileTree.resolve_ne_nil names.resolved)
        (lastIsNoSlash_of_namesDirectory names)
        (fun member => noNul (mem_of_mem_removeTrailingSlashes member))
        not_dot not_dotDot
    constructor
    · intro fuel moment becomes
      have ends := (compressIfNecessary_ensures fresh isName names
        fuel).of_becomes becomes
      exact not_packingFault_alreadyThere _ (ends trivial).2
    · intro fuel entry isCompressed moment becomes
      have ends := (compressIfNecessary_ensures fresh isName names
        fuel).of_becomes becomes
      rcases (ends trivial).2 with
        ⟨entries, nonempty, isPath, archive, roots⟩
      have isPath : entry.path =
          archivePath machine (removeTrailingSlashes fileOrCode) :=
        isPath
      refine ⟨_, isName, ?_, entries, nonempty, ?_, roots⟩
      · intro json creates
        rcases createSendMessage_ok creates with ⟨content, data, -, -, rfl⟩
        rw [isPath, archivePath, filename_join isName]
        exact (isSendMessage_sendMessage _ _ _ _).filename
      · rw [isPath]
        exact archive

/-- A machine on which the client is started in `/d`. -/
def machineInD : Machine where
  zstd := ZstdRoundTrip.holdingBack Nat.one_pos Nat.one_pos
  library := FlatJson.flatLibrary
  digest := ⟨Unit, some (), some, fun _ _ => some (), fun _ => some []⟩
  workingDirectory := [ascii "d"]
  temporaryDirectory := ascii "/tmp"
  listing _ := []
  ready _ := 1

/-- The sender's temporary directory and `/d` with a directory `e`. -/
def freshDisk : Disk :=
  ⟨FileTree.empty
    |>.place [ascii "tmp"] .directory
    |>.place [ascii "tmp", ascii "drop-file"] .directory
    |>.place [ascii "tmp", ascii "drop-file", ascii "sender"] .directory
    |>.place [ascii "d"] .directory
    |>.place [ascii "d", ascii "e"] .directory, []⟩

theorem freshTmpDir_freshDisk :
    FreshTmpDir machineInD freshDisk.tree
      [ascii "tmp", ascii "drop-file", ascii "sender"] where
  noNul := by decide +kernel
  resolved := by decide +kernel
  isDirectory := by decide +kernel
  empty := by
    intro name
    have outside : ascii "tmp" ≠ ascii "d" := by decide
    rw [freshDisk]
    dsimp only
    rw [FileTree.node_place (by decide +kernel),
      FileTree.node_place (by decide +kernel),
      FileTree.node_place (by decide +kernel),
      FileTree.node_place (by decide +kernel),
      FileTree.node_place (by decide +kernel)]
    simp [FileTree.empty, outside]

theorem sentUnderItsName_iff_trimmed :
    SentUnderItsName Unit machineInD freshDisk
      (removeTrailingSlashes (ascii "e//")) :=
  (@sentUnderItsName_iff Unit _ machineInD freshDisk (ascii "e//")
    [ascii "tmp", ascii "drop-file", ascii "sender"] [ascii "d", ascii "e"]
    (by decide) freshTmpDir_freshDisk
    ⟨by decide +kernel, by decide +kernel, by decide⟩).2
      ⟨by decide, by decide⟩

/-- The directory that the client is started in has no name of its own. -/
theorem not_sentUnderItsName_dot :
    ¬ SentUnderItsName Unit machineInD freshDisk
      (removeTrailingSlashes (ascii ".")) := by
  intro sent
  have names : NamesDirectory machineInD freshDisk.tree
      (removeTrailingSlashes (ascii ".")) [ascii "d"] :=
    ⟨by decide +kernel, by decide +kernel, by decide⟩
  have there : fileExists freshDisk.tree machineInD.workingDirectory
      (archivePath machineInD (removeTrailingSlashes (ascii "."))) =
        true := by
    decide +kernel
  exact sent.notThere 0 _ (becomes_alreadyThere names there 0)

end DropFile.Client.SentNames
