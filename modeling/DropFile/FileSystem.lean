import DropFile.General.Files
import DropFile.Streams

/-!
# `std::filesystem` and file streams

The calls of the standard library that the clients make on the disk.  The
disk also records the path names that were handed to it to create a directory
or to open a file for writing, in their order and whether or not the call
succeeded.
-/

namespace DropFile.FileSystem

open DropFile.General.FuelledProgram
open DropFile.General.PathNames
open DropFile.General.Files
open DropFile.Streams

structure Disk where
  tree : FileTree
  handed : List PathName

abbrev DiskProgram (α : Type) := Program Exception Disk α

def filesystemError (what : String) : Exception :=
  ⟨.filesystemError, ascii ("filesystem error: " ++ what)⟩

/-- What a path name leads to. -/
def status (tree : FileTree) (workingDirectory : Location)
    (path : PathName) : Option Node :=
  (tree.resolve workingDirectory path).bind tree.node

/-- `std::filesystem::exists(path)`. -/
def fileExists (tree : FileTree) (workingDirectory : Location)
    (path : PathName) : Bool :=
  (status tree workingDirectory path).isSome

/-- `std::filesystem::is_directory(path)`. -/
def isDirectory (tree : FileTree) (workingDirectory : Location)
    (path : PathName) : Bool :=
  status tree workingDirectory path = some .directory

/-- The content of a regular file, and nothing for anything else. -/
def regularFile (tree : FileTree) (workingDirectory : Location)
    (path : PathName) : Option Bytes :=
  match status tree workingDirectory path with
  | some (.file content) => some content
  | _ => none

/-- `std::filesystem::create_directories(path)`. -/
def createDirectories (workingDirectory : Location) (path : PathName) :
    DiskProgram Unit :=
  fun disk =>
    let handed := disk.handed ++ [path]
    if FileTree.native path = [] then
      .threw (filesystemError "cannot create directories")
        ⟨disk.tree, handed⟩
    else
      let made :=
        disk.tree.makeDirectories
          (if isAbsolute (FileTree.native path) then [] else workingDirectory)
          (components (FileTree.native path))
      if made.2 then
        .returned () ⟨made.1, handed⟩
      else
        .threw (filesystemError "cannot create directories")
          ⟨made.1, handed⟩

/--
Opening a `std::ofstream` that truncates.  The result is the location of the
file, or nothing when `is_open()` is false.
-/
def openForWriting (workingDirectory : Location) (path : PathName) :
    DiskProgram (Option Location) :=
  Program.step fun disk =>
    let handed := disk.handed ++ [path]
    match disk.tree.resolve workingDirectory path with
    | none => (none, ⟨disk.tree, handed⟩)
    | some location =>
        if disk.tree.CanPlace location then
          (some location, ⟨disk.tree.place location (.file []), handed⟩)
        else
          (none, ⟨disk.tree, handed⟩)

/-- What was written to an open file reaches the disk. -/
def saveFile (location : Location) (content : Bytes) : DiskProgram Unit :=
  Program.modifyState fun disk =>
    { disk with tree := disk.tree.place location (.file content) }

/-- `std::filesystem::remove_all(path)`. -/
def removeAll (workingDirectory : Location) (path : PathName) :
    DiskProgram Unit :=
  Program.modifyState fun disk =>
    match disk.tree.resolve workingDirectory path with
    | none => disk
    | some location =>
        { disk with tree := disk.tree.removeAll location }

/-- `std::filesystem::remove(path)` for what is not an empty directory. -/
def remove (workingDirectory : Location) (path : PathName) :
    DiskProgram Unit := do
  let disk ← Program.getState
  match status disk.tree workingDirectory path with
  | some .directory => Program.raise (filesystemError "cannot remove")
  | _ => removeAll workingDirectory path

/-- `std::filesystem::current_path()`. -/
def currentPath (workingDirectory : Location) : PathName :=
  slash :: joinNames workingDirectory

/-! ## What a call can do -/

theorem status_of_regularFile
    {tree : FileTree} {workingDirectory : Location} {path : PathName}
    {bytes : Bytes}
    (isFile : regularFile tree workingDirectory path = some bytes) :
    status tree workingDirectory path = some (.file bytes) := by
  rw [regularFile] at isFile
  split at isFile
  · next content found =>
      cases isFile
      exact found
  · cases isFile

/-- A regular file is at the end of the way of its path. -/
theorem exists_location_of_regularFile
    {tree : FileTree} {workingDirectory : Location} {path : PathName}
    {content : Bytes}
    (isFile : regularFile tree workingDirectory path = some content) :
    ∃ location, tree.resolve workingDirectory path = some location ∧
      tree.node location = some (.file content) := by
  have found := status_of_regularFile isFile
  rw [status] at found
  exact Option.bind_eq_some_iff.1 found

/-- There is something at every location on the way to a regular file. -/
theorem present_of_mem_way
    {tree : FileTree} {workingDirectory : Location} {path : PathName}
    {content : Bytes}
    (isFile : regularFile tree workingDirectory path = some content) :
    ∀ location ∈ tree.way workingDirectory path,
      tree.node location ≠ none := by
  rcases exists_location_of_regularFile isFile with
    ⟨final, resolved, holdsFile⟩
  intro location member
  rcases (FileTree.mem_way resolved).2 location member with
    rfl | isDirectory
  · rw [holdsFile]
    exact Option.some_ne_none _
  · rw [isDirectory]
    exact Option.some_ne_none _

theorem openForWriting_run
    {workingDirectory location : Location} {path : PathName} {disk : Disk}
    (resolved : disk.tree.resolve workingDirectory path = some location)
    (possible : disk.tree.CanPlace location) :
    openForWriting workingDirectory path disk =
      .returned (some location)
        ⟨disk.tree.place location (.file []), disk.handed ++ [path]⟩ := by
  simp only [openForWriting, Program.step_run, resolved, if_pos possible]

/-- A file is opened where its path leads, or nothing changes. -/
theorem openForWriting_cases
    (workingDirectory : Location) (path : PathName) (disk : Disk) :
    openForWriting workingDirectory path disk =
        .returned none ⟨disk.tree, disk.handed ++ [path]⟩ ∨
      ∃ location,
        disk.tree.resolve workingDirectory path = some location ∧
        disk.tree.CanPlace location ∧
        openForWriting workingDirectory path disk =
          .returned (some location)
            ⟨disk.tree.place location (.file []),
              disk.handed ++ [path]⟩ := by
  cases resolved : disk.tree.resolve workingDirectory path with
  | none =>
      left
      simp only [openForWriting, Program.step_run, resolved]
  | some location =>
      by_cases possible : disk.tree.CanPlace location
      · right
        exact ⟨location, rfl, possible,
          openForWriting_run resolved possible⟩
      · left
        simp only [openForWriting, Program.step_run, resolved,
          if_neg possible]

/-- A file is placed where its path still leads. -/
theorem resolve_place
    {tree : FileTree} {workingDirectory location : Location}
    {path : PathName}
    (resolved : tree.resolve workingDirectory path = some location)
    (possible : tree.CanPlace location)
    (content : Bytes) :
    (tree.place location (.file content)).resolve workingDirectory path =
      some location := by
  apply FileTree.resolve_of_directories _ _ resolved
  intro other inDirectory
  exact FileTree.directory_place possible.2.2.2 inDirectory

theorem regularFile_place
    {tree : FileTree} {workingDirectory location : Location}
    {path : PathName}
    (resolved : tree.resolve workingDirectory path = some location)
    (possible : tree.CanPlace location)
    (content : Bytes) :
    regularFile (tree.place location (.file content)) workingDirectory
      path = some content := by
  have found :
      status (tree.place location (.file content)) workingDirectory path =
        some (.file content) := by
    rw [status, resolve_place resolved possible, Option.bind_some]
    exact FileTree.node_place_self possible _
  rw [regularFile, found]

end DropFile.FileSystem
