import DropFile.Client.ExistingFiles

/-!
# What a call on the disk spares

Each call changes the disk at one place only: where it removes something, or
where it writes an archive.  Everything else is spared.
-/

namespace DropFile.Client.SparedFiles

open DropFile.General.FuelledProgram
open DropFile.General.PathNames
open DropFile.General.Files
open DropFile.General.Files.FileTree
open DropFile.Streams
open DropFile.FileSystem
open DropFile.Client.EntryInfo
open DropFile.Client.Zstd
open DropFile.Client.ArchiveManager hiding unpackArchive unpackFile
open DropFile.Client.ExistingFiles

variable {α : Type} (kept : Location → Prop)

/-- The program changes nothing at the kept locations. -/
def Sparing (disk : Disk) (program : DiskProgram α) : Prop :=
  Program.Satisfies (fun start => start = disk) program
    (fun _ later => Unchanged kept disk.tree later.tree)
    (fun _ later => Unchanged kept disk.tree later.tree)

/-- Where the path leads, nothing that is kept is below. -/
def SparesRemoval (tree : FileTree) (workingDirectory : Location)
    (path : PathName) : Prop :=
  ∀ location, tree.resolve workingDirectory path = some location →
    ∀ other, kept other → ¬ location <+: other

/-- A file that is opened at the path is not one of the kept ones. -/
def SparesWriting (tree : FileTree) (workingDirectory : Location)
    (path : PathName) : Prop :=
  ∀ location, tree.resolve workingDirectory path = some location →
    tree.CanPlace location → ¬ kept location

variable {kept} {disk : Disk} {workingDirectory : Location}
variable {path : PathName}

theorem removeAll_sparing
    (spares : SparesRemoval kept disk.tree workingDirectory path) :
    Sparing kept disk (removeAll workingDirectory path) :=
  removeAll_unchanged spares

theorem remove_sparing
    (spares : SparesRemoval kept disk.tree workingDirectory path) :
    Sparing kept disk (remove workingDirectory path) :=
  remove_unchanged spares

/-- New directories only take the place of nothing. -/
theorem createDirectories_sparing
    (present : ∀ location, kept location →
      disk.tree.node location ≠ none)
    (path : PathName) :
    Sparing kept disk (createDirectories workingDirectory path) := by
  apply createDirectories_unchanged
  intro location isKept
  exact makeDirectories_node _ _ _ location (present location isKept)

/-! ## Packing -/

section Packing

variable (lib : Library) (listing : Location → List PathName)

theorem onArchive_keeps (program : Program Exception OStream α) :
    Program.Keeps Packing.disk (onArchive program) := by
  apply Program.Keeps.focus
  intro _ _
  rfl

theorem construct_keeps (isDirectory : Bool) (relativePath : PathName) :
    Program.Keeps Packing.disk (construct isDirectory relativePath) := by
  rw [construct]
  split_ifs
  · exact .raise _
  · exact .pure _

theorem addDirectory_keeps (relativePath : PathName) :
    Program.Keeps Packing.disk (addDirectory relativePath) :=
  (construct_keeps true relativePath).bind fun _ =>
    (onArchive_keeps _).bind fun _ => .pure _

theorem addFile_keeps
    (fuel : Nat) (filePath relativePath : PathName) :
    Program.Keeps Packing.disk
      (addFile lib workingDirectory fuel filePath relativePath) := by
  apply (construct_keeps false relativePath).bind
  intro fileInfo
  apply (onArchive_keeps _).bind
  intro position
  apply Program.Keeps.getState.bind
  intro packing
  split
  · exact .raise _
  · apply Program.Keeps.bind
    · apply Program.Keeps.focus
      intro _ _
      rfl
    · intro bytesWritten
      exact onArchive_keeps _

theorem directoryEntries_keeps (directory : PathName) :
    Program.Keeps Packing.disk
      (directoryEntries workingDirectory listing directory) := by
  apply Program.Keeps.getState.bind
  intro packing
  split
  · exact .raise _
  · split_ifs
    · exact .pure _
    · exact .raise _

/-- Packing only reads the disk. -/
theorem packDirectory_keeps
    (fuel : Nat) (dirToCompress relativePath : PathName) :
    Program.Keeps Packing.disk
      (packDirectory lib workingDirectory listing fuel dirToCompress
        relativePath) := by
  induction fuel generalizing dirToCompress relativePath with
  | zero => exact fun _ _ _ => trivial
  | succ fuel inductionHypothesis =>
      apply (addDirectory_keeps relativePath).bind
      intro _
      apply (directoryEntries_keeps listing dirToCompress).bind
      intro names
      apply Program.Keeps.forEach
      intro name _
      apply Program.Keeps.getState.bind
      intro packing
      split_ifs
      · exact inductionHypothesis _ _
      · exact addFile_keeps lib fuel _ _
      · exact .pure _

theorem closeArchive_sparing
    {opened : Option Location}
    (outside : ∀ location ∈ opened, ¬ kept location)
    (newArchive : OStream) :
    Sparing kept disk (closeArchive opened newArchive) := by
  rintro start rfl
  cases opened with
  | none => exact Unchanged.refl _
  | some location => exact unchanged_place (outside location rfl) _

theorem writeArchive_sparing
    {opened : Option Location}
    (outside : ∀ location ∈ opened, ¬ kept location)
    (directory : PathName) (fuel : Nat) :
    Sparing kept disk
      (writeArchive lib workingDirectory listing directory opened fuel) := by
  rintro start rfl
  have keeps := @packDirectory_keeps workingDirectory lib listing fuel
    directory (filename directory) start ⟨start, OStream.atEnd []⟩ rfl
  rw [writeArchive]
  cases packs : packDirectory lib workingDirectory listing fuel directory
      (filename directory) ⟨start, OStream.atEnd []⟩ with
  | returned _ packing =>
      rw [packs] at keeps
      have same : packing.disk = start := keeps
      rw [← same]
      exact closeArchive_sparing outside _ _ rfl
  | threw error packing =>
      rw [packs] at keeps
      have same : packing.disk = start := keeps
      rw [← same]
      exact (closeArchive_sparing outside _).bind
        (fun _ => .raise _ fun _ unchanged => unchanged) _ rfl
  | outOfFuel => trivial

/-- The archive is all that is written. -/
theorem createArchive_sparing
    (outside : fileExists disk.tree workingDirectory path = false →
      SparesWriting kept disk.tree workingDirectory path)
    (directory : PathName) (fuel : Nat) :
    Sparing kept disk
      (createArchive lib workingDirectory listing directory path fuel) := by
  rintro start rfl
  rw [createArchive, Program.bind_returned (Program.getState_run _)]
  split_ifs with there
  · exact Unchanged.refl _
  · rcases openForWriting_cases workingDirectory path start with
      opens | ⟨location, resolved, possible, opens⟩
    · have writes : Sparing kept ⟨start.tree, start.handed ++ [path]⟩
          (writeArchive lib workingDirectory listing directory none fuel) :=
        writeArchive_sparing lib listing (by simp) directory fuel
      rw [Program.bind_returned opens]
      exact writes _ rfl
    · have notKept : ¬ kept location :=
        outside (Bool.eq_false_iff.2 there) location resolved possible
      have opened : Unchanged kept start.tree
          (start.tree.place location (.file [])) :=
        unchanged_place notKept _
      have writes : Sparing kept
          ⟨start.tree.place location (.file []), start.handed ++ [path]⟩
          (writeArchive lib workingDirectory listing directory
            (some location) fuel) :=
        writeArchive_sparing lib listing (by simpa using notKept) directory
          fuel
      rw [Program.bind_returned opens]
      apply writes.weaken (fun _ same => same) _ _ _ rfl
      · exact fun _ _ unchanged => opened.trans unchanged
      · exact fun _ _ unchanged => opened.trans unchanged

end Packing

end DropFile.Client.SparedFiles
