import DropFile.Client.LiveUnpacking
import DropFile.Client.ZstdRoundTrip

/-!
# The paths that unpacking writes to

Every path that `unpackArchive` hands to the file system is the target
directory joined with the path of an entry that was accepted.  The path of an
entry is not looked at, so only a path that is relative and never climbs is
known to stay inside the directory.
-/

namespace DropFile.Client.UnpackedPaths

open DropFile.General.FuelledProgram
open DropFile.General.PathNames
open DropFile.General.Files
open DropFile.Streams
open DropFile.FileSystem
open DropFile.Client.EntryInfo
open DropFile.Client.Zstd
open DropFile.Client.ArchiveManager hiding unpackArchive unpackFile
open DropFile.Client.LiveUnpacking

variable (lib : Library) (buffering : Buffering)

/-! ## What one pass can do -/

/-- What creating a directory can do to the disk. -/
structure CreatedDirectories (path : PathName) (disk later : Disk) :
    Prop where
  handed : later.handed = disk.handed ++ [path]
  kept : ∀ location, disk.tree.node location ≠ none →
    later.tree.node location = disk.tree.node location

/-- What opening and writing a file can do to the disk. -/
structure WroteFile (workingDirectory : Location) (path : PathName)
    (disk later : Disk) : Prop where
  handed : later.handed = disk.handed ++ [path]
  placed :
    later.tree = disk.tree ∨
      ∃ location content,
        disk.tree.resolve workingDirectory path = some location ∧
        disk.tree.CanPlace location ∧
        later.tree = disk.tree.place location (.file content)

/-- What a pass does for an entry that it read. -/
def ExtractedEntry (workingDirectory : Location) (directory : PathName)
    (entryInfo : FSEntryInfo) (disk later : Disk) : Prop :=
  if entryInfo.isDirectory then
    CreatedDirectories (join directory entryInfo.relativePath) disk later
  else
    WroteFile workingDirectory (join directory entryInfo.relativePath)
      disk later

/-- What a pass that starts with some part of the archive read can do. -/
def PassEffect (workingDirectory : Location) (directory : PathName)
    (archiveSize : Nat) (compressedArchive : IStream)
    (disk later : Disk) : Prop :=
  later = disk ∨
    ∃ entryInfo afterHeader,
      ReadsEntry archiveSize compressedArchive entryInfo afterHeader ∧
      ExtractedEntry workingDirectory directory entryInfo disk later

variable {workingDirectory : Location}

theorem createDirectories_effect (path : PathName) (disk : Disk) :
    Program.Satisfies (fun start => start = disk)
      (createDirectories workingDirectory path)
      (fun _ => CreatedDirectories path disk)
      (fun _ => CreatedDirectories path disk) := by
  rintro _ rfl
  unfold createDirectories
  dsimp only
  split_ifs
  · exact ⟨rfl, fun _ _ => rfl⟩
  all_goals exact ⟨rfl, FileTree.makeDirectories_node _ _ _⟩

/-- Closing a file that could be opened leaves some content in it. -/
theorem wroteFile_of_opened
    {path : PathName} {disk : Disk} {location : Location}
    (resolved : disk.tree.resolve workingDirectory path = some location)
    (possible : disk.tree.CanPlace location)
    (content : Bytes) :
    WroteFile workingDirectory path disk
      ⟨(disk.tree.place location (.file [])).place location (.file content),
        disk.handed ++ [path]⟩ where
  handed := rfl
  placed := Or.inr ⟨location, content, resolved, possible,
    FileTree.place_place possible [] _⟩

theorem unpackFile_effect
    (opened : Option Location) (directory : PathName) (fuel : Nat)
    (compressedArchive : IStream) (entryInfo : FSEntryInfo) (disk : Disk) :
    Program.Satisfies (fun start => start = disk)
      (unpackFile lib buffering workingDirectory opened directory fuel
        compressedArchive entryInfo)
      (fun _ => WroteFile workingDirectory
        (join directory entryInfo.relativePath) disk)
      (fun _ => WroteFile workingDirectory
        (join directory entryInfo.relativePath) disk) := by
  rintro start rfl
  set path := join directory entryInfo.relativePath with pathEq
  rcases openForWriting_cases workingDirectory path start with
    opens | ⟨location, resolved, possible, opens⟩
  · rw [unpackFile, ← pathEq, Program.bind_returned opens]
    exact ⟨rfl, Or.inl rfl⟩
  · rw [unpackFile, ← pathEq, Program.bind_returned opens]
    dsimp only
    have closes := wroteFile_of_opened resolved possible
    split_ifs
    · unfold decompressToArchive
      cases LiveUnpacking.decompress lib (rereadOutput buffering)
          entryInfo.compressedLength fuel
          ⟨compressedArchive, OStream.atEnd []⟩ with
      | returned bytesWritten streams => exact closes streams.output.data
      | threw error streams => exact closes streams.output.data
      | outOfFuel => trivial
    · unfold decompressToFile
      cases Zstd.decompress lib entryInfo.compressedLength fuel
          ⟨compressedArchive, OStream.atEnd []⟩ with
      | returned bytesWritten streams => exact closes streams.output.data
      | threw error streams => exact closes streams.output.data
      | outOfFuel => trivial

/-- The rule for a pass: what both kinds of entries can do, the pass can. -/
theorem unpackEntryWith_satisfies
    {extracts : Extracting} {directory : PathName}
    {archiveSize fuel : Nat} {compressedArchive : IStream} {disk : Disk}
    (effect : Disk → Prop)
    (unchanged : effect disk)
    (directories : ∀ entryInfo afterHeader,
      ReadsEntry archiveSize compressedArchive entryInfo afterHeader →
      entryInfo.isDirectory = true →
      Program.Satisfies (fun start => start = disk)
        (createDirectories workingDirectory
          (join directory entryInfo.relativePath))
        (fun _ => effect) (fun _ => effect))
    (files : ∀ entryInfo afterHeader,
      ReadsEntry archiveSize compressedArchive entryInfo afterHeader →
      entryInfo.isDirectory = false →
      Program.Satisfies (fun start => start = disk)
        (extracts fuel afterHeader entryInfo)
        (fun _ => effect) (fun _ => effect)) :
    Program.Satisfies (fun start => start = disk)
      (unpackEntryWith workingDirectory extracts directory archiveSize fuel
        compressedArchive)
      (fun _ => effect) (fun _ => effect) := by
  rintro start rfl
  rw [unpackEntryWith, Program.bind_run, Program.onLocal]
  cases measured : getRemainingBytes archiveSize compressedArchive with
  | threw error later => exact unchanged
  | outOfFuel => trivial
  | returned remaining atEntry =>
      obtain rfl := getRemainingBytes_returned measured
      dsimp only
      by_cases more : remaining > 0
      · rw [if_pos more, Program.bind_run, Program.onLocal]
        cases accepted : readFromStream archiveSize atEntry with
        | threw error later => exact unchanged
        | outOfFuel => trivial
        | returned entryInfo afterHeader =>
            have reads : ReadsEntry archiveSize atEntry entryInfo
                afterHeader := ⟨⟨remaining, more, measured⟩, accepted⟩
            dsimp only
            by_cases isDirectory : entryInfo.isDirectory = true
            · rw [if_pos isDirectory]
              exact (directories entryInfo afterHeader reads
                isDirectory).bind
                  (fun _ => .pure _ fun _ reached => reached) start rfl
            · rw [if_neg isDirectory]
              exact (files entryInfo afterHeader reads
                (Bool.eq_false_iff.2 isDirectory)).bind
                  (fun _ => .pure _ fun _ reached => reached) start rfl
      · rw [if_neg more]
        exact unchanged

theorem unpackEntry_effect
    (opened : Option Location) (directory : PathName)
    (archiveSize fuel : Nat) (compressedArchive : IStream) (disk : Disk) :
    Program.Satisfies (fun start => start = disk)
      (unpackEntryWith workingDirectory
        (unpackFile lib buffering workingDirectory opened directory)
        directory archiveSize fuel compressedArchive)
      (fun _ => PassEffect workingDirectory directory archiveSize
        compressedArchive disk)
      (fun _ => PassEffect workingDirectory directory archiveSize
        compressedArchive disk) := by
  apply unpackEntryWith_satisfies
  · exact Or.inl rfl
  · intro entryInfo afterHeader reads isDirectory
    have extracts {later : Disk}
        (created : CreatedDirectories
          (join directory entryInfo.relativePath) disk later) :
        PassEffect workingDirectory directory archiveSize
          compressedArchive disk later := by
      refine Or.inr ⟨entryInfo, afterHeader, reads, ?_⟩
      rwa [ExtractedEntry, if_pos isDirectory]
    exact (createDirectories_effect _ disk).weaken
      (fun _ same => same) (fun _ _ created => extracts created)
      (fun _ _ created => extracts created)
  · intro entryInfo afterHeader reads isFile
    have extracts {later : Disk}
        (wrote : WroteFile workingDirectory
          (join directory entryInfo.relativePath) disk later) :
        PassEffect workingDirectory directory archiveSize
          compressedArchive disk later := by
      refine Or.inr ⟨entryInfo, afterHeader, reads, ?_⟩
      rwa [ExtractedEntry, if_neg (by rw [isFile]; exact
        Bool.false_ne_true)]
    exact (unpackFile_effect lib buffering opened directory fuel
      afterHeader entryInfo disk).weaken (fun _ same => same)
        (fun _ _ wrote => extracts wrote)
        (fun _ _ wrote => extracts wrote)

/-! ## Where the paths lead -/

/-- The entries that the passes read, each with the tree that it meets. -/
def unpackedEntries
    (workingDirectory : Location) (directory archivePath : PathName)
    (fuel : Nat) (archive : Bytes) (disk : Disk) :
    List (FSEntryInfo × FileTree) :=
  (Program.passes
    (unpackEntryWith workingDirectory
      (unpackFile lib buffering workingDirectory
        (disk.tree.resolve workingDirectory archivePath) directory)
      directory archive.length)
    fuel (IStream.ofBytes archive) disk).filterMap fun pass =>
      match readFromStream archive.length pass.1 with
      | .returned entryInfo _ => some (entryInfo, pass.2.tree)
      | _ => none

theorem mem_unpackedEntries
    {directory archivePath : PathName} {fuel : Nat} {archive : Bytes}
    {disk now : Disk} {compressedArchive afterHeader : IStream}
    {entryInfo : FSEntryInfo}
    (reached : UnpackReached lib buffering workingDirectory directory
      archivePath fuel archive disk compressedArchive now)
    (reads : ReadsEntry archive.length compressedArchive entryInfo
      afterHeader) :
    (entryInfo, now.tree) ∈ unpackedEntries lib buffering workingDirectory
      directory archivePath fuel archive disk := by
  rcases reached with ⟨passes, left, reached⟩
  rw [unpackedEntries, List.mem_filterMap]
  refine ⟨(compressedArchive, now), reached.mem_passes, ?_⟩
  simp only [reads.accepted]

/-- An entry that a pass of this call has accepted. -/
def Accepted
    (workingDirectory : Location) (directory archivePath : PathName)
    (fuel : Nat) (disk : Disk) (entryInfo : FSEntryInfo) : Prop :=
  ∃ archive compressedArchive now afterHeader,
    regularFile disk.tree workingDirectory archivePath = some archive ∧
    UnpackReached lib buffering workingDirectory directory archivePath fuel
      archive disk compressedArchive now ∧
    ReadsEntry archive.length compressedArchive entryInfo afterHeader

/--
Every path that was handed over by the call belongs to an accepted entry, and
the path of a contained entry is inside the directory.
-/
def HandsOverInside
    (workingDirectory : Location) (directory archivePath : PathName)
    (fuel : Nat) (start disk : Disk) : Prop :=
  ∀ path ∈ disk.handed, path ∈ start.handed ∨
    ∃ entryInfo,
      Accepted lib buffering workingDirectory directory archivePath fuel
        start entryInfo ∧
      path = join directory entryInfo.relativePath ∧
      (Contained entryInfo.relativePath → LexicallyInside directory path)

theorem HandsOverInside.pass
    {directory archivePath : PathName} {fuel : Nat} {archive : Bytes}
    {compressedArchive : IStream} {start disk later : Disk}
    (inside : HandsOverInside lib buffering workingDirectory directory
      archivePath fuel start disk)
    (isArchive : regularFile start.tree workingDirectory archivePath =
      some archive)
    (reached : UnpackReached lib buffering workingDirectory directory
      archivePath fuel archive start compressedArchive disk)
    (effect : PassEffect workingDirectory directory archive.length
      compressedArchive disk later) :
    HandsOverInside lib buffering workingDirectory directory archivePath
      fuel start later := by
  rcases effect with rfl | ⟨entryInfo, afterHeader, reads, extracted⟩
  · exact inside
  · have handed : later.handed =
        disk.handed ++ [join directory entryInfo.relativePath] := by
      unfold ExtractedEntry at extracted
      split_ifs at extracted
      · exact extracted.handed
      · exact extracted.handed
    intro path member
    rw [handed] at member
    rcases List.mem_append.1 member with before | new
    · exact inside path before
    · obtain rfl := List.mem_singleton.1 new
      exact Or.inr ⟨entryInfo, ⟨archive, compressedArchive, disk,
        afterHeader, isArchive, reached, reads⟩, rfl,
        fun contained => contained.inside directory⟩

/--
Whether it returns or throws, `unpackArchive` only hands over paths of
accepted entries, and those of contained entries lie inside the directory.
-/
theorem unpackArchive_handsOverInside
    (directory archivePath : PathName) (fuel : Nat) (disk : Disk) :
    Program.Satisfies (fun start => start = disk)
      (unpackArchive lib buffering workingDirectory directory archivePath
        fuel)
      (fun _ => HandsOverInside lib buffering workingDirectory directory
        archivePath fuel disk)
      (fun _ => HandsOverInside lib buffering workingDirectory directory
        archivePath fuel disk) := by
  rintro start rfl
  have begins : HandsOverInside lib buffering workingDirectory directory
      archivePath fuel start start := fun path member => Or.inl member
  rw [unpackArchive, unpackArchiveWith,
    Program.bind_returned (Program.getState_run _)]
  split_ifs
  · exact begins
  · exact begins
  · cases isArchive :
        regularFile start.tree workingDirectory archivePath with
    | none => exact begins
    | some archive =>
        refine Program.Satisfies.loop_of_reached
          (fun _ => HandsOverInside lib buffering workingDirectory directory
            archivePath fuel start)
          begins ?_ start rfl
        intro passes left compressedArchive now reached inside
        have passed {later : Disk}
            (effect : PassEffect workingDirectory directory archive.length
              compressedArchive now later) :
            HandsOverInside lib buffering workingDirectory directory
              archivePath fuel start later :=
          inside.pass lib buffering isArchive ⟨passes, left, reached⟩ effect
        apply (unpackEntry_effect lib buffering _ directory archive.length
          left compressedArchive now).weaken (fun _ same => same)
        · rintro (rest | _) later effect
          · exact passed effect
          · exact passed effect
        · intro _ later effect
          exact passed effect

/-- An archive with one directory, whose path climbs. -/
def climbingArchive : Bytes :=
  header ⟨true, ascii "../x", 0⟩

/-- A directory `d` and the archive in the file `a`. -/
def climbingTree : FileTree :=
  FileTree.empty
    |>.place [ascii "d"] .directory
    |>.place [ascii "a"] (.file climbingArchive)

/-- Unpacking a climbing archive into `d` creates `d/../x`. -/
theorem not_unpackArchive_inside :
    ¬ ∀ (lib : Library) (buffering : Buffering)
        (workingDirectory : Location) (directory archivePath : PathName)
        (fuel : Nat) (disk later : Disk),
      (unpackArchive lib buffering workingDirectory directory archivePath
        fuel disk).finalState = some later →
      ∀ path ∈ later.handed,
        path ∈ disk.handed ∨ LexicallyInside directory path := by
  intro always
  let lib := ZstdRoundTrip.holdingBack Nat.one_pos Nat.one_pos
  have computed :
      ((unpackArchive lib unbuffered [] (ascii "d") (ascii "a") 2
        ⟨climbingTree, []⟩).finalState.any fun later =>
          later.handed = [ascii "d/../x"]) = true := by
    decide +kernel
  obtain ⟨later, final, handed⟩ := (Option.any_eq_true _ _).1 computed
  have handedEq := of_decide_eq_true handed
  rcases always lib unbuffered [] _ _ _ _ later final (ascii "d/../x")
      (by rw [handedEq]; exact List.mem_singleton_self _) with
    before | ⟨-, below, names, -⟩
  · cases before
  · have outside : ¬ normalNames (ascii "d") <+:
        normalNames (ascii "d/../x") := by
      decide +kernel
    exact outside ⟨below, names.symm⟩

end DropFile.Client.UnpackedPaths
