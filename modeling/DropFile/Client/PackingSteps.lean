import DropFile.Client.SparedFiles
import DropFile.Client.PackedEntries
import DropFile.General.Worklists
import Mathlib.Logic.Relation

/-!
# The steps of packing

`createArchive`, one access to the disk after the other.  Where the walk
through the directory stands is a list of tasks, so that anything may happen to
the disk between two of them.
-/

namespace DropFile.Client.PackingSteps

open DropFile.General.FuelledProgram
open DropFile.General.PathNames
open DropFile.General.Files
open DropFile.General.Worklists
open DropFile.Streams
open DropFile.FileSystem
open DropFile.Client.Zstd
open DropFile.Client.ArchiveManager
open DropFile.Client.PackedEntries
open DropFile.Client.SparedFiles

/-- What is left to do of the walk. -/
inductive Task where
  /-- Before a directory is listed. -/
  | directory (dirToCompress relativePath : PathName)
  /-- Before it is asked whether an entry is a directory. -/
  | entry (dirToCompress relativePath name : PathName)
  /-- Before it is asked whether it is a regular file. -/
  | other (current newRelative : PathName)
  /-- Before the file is opened. -/
  | file (current newRelative : PathName)

/-- Where a sender is in `createArchive`. -/
inductive PackingStage where
  /-- Before it is asked whether the archive exists. -/
  | testing
  /-- Before the archive is opened. -/
  | opening
  /-- In `packDirectory`, with the archive open. -/
  | walking (opened : Option Location) (tasks : List Task)
      (newArchive : OStream)
  /-- Before the archive is closed. -/
  | closing (opened : Option Location) (newArchive : OStream)
      (ending : Except Exception Unit)
  | ended (ending : Except Exception Unit)

/-- Where the archive is open. -/
def PackingStage.opened : PackingStage → Option Location
  | .walking opened _ _ | .closing opened _ _ => opened
  | _ => none

variable (lib : Library) (workingDirectory : Location)
variable (listing : Location → List PathName) (fuel : Nat)

/-- A task looks at the disk once. -/
def perform : Task → PackProgram (List Task)
  | .directory dirToCompress relativePath => do
      addDirectory relativePath
      let names ← directoryEntries workingDirectory listing dirToCompress
      pure (names.map (.entry dirToCompress relativePath))
  | .entry dirToCompress relativePath name => do
      let current := join dirToCompress name
      let newRelative := join relativePath (filename current)
      let packing ← Program.getState
      if isDirectory packing.disk.tree workingDirectory current then
        pure [.directory current newRelative]
      else
        pure [.other current newRelative]
  | .other current newRelative => do
      let packing ← Program.getState
      if (regularFile packing.disk.tree workingDirectory current).isSome then
        pure [.file current newRelative]
      else
        pure []
  | .file current newRelative => do
      addFile lib workingDirectory fuel current newRelative
      pure []

/-- What a task makes of the stage. -/
def walk (opened : Option Location) (tasks : List Task) :
    Outcome Exception Packing (List Task) →
      Outcome Exception Disk PackingStage
  | .returned more packing =>
      .returned (.walking opened (more ++ tasks) packing.newArchive)
        packing.disk
  | .threw error packing =>
      .returned (.closing opened packing.newArchive (.error error))
        packing.disk
  | .outOfFuel => .outOfFuel

variable (directory newArchivePath : PathName)

/-- One step of `createArchive`. -/
def step : PackingStage → DiskProgram PackingStage
  | .testing => do
      let disk ← Program.getState
      if fileExists disk.tree workingDirectory newArchivePath then
        pure (.ended (.error (alreadyThere newArchivePath)))
      else
        pure .opening
  | .opening => do
      let opened ← openForWriting workingDirectory newArchivePath
      pure (.walking opened [.directory directory (filename directory)]
        (OStream.atEnd []))
  | .walking opened [] newArchive =>
      pure (.closing opened newArchive (.ok ()))
  | .walking opened (task :: tasks) newArchive => fun disk =>
      walk opened tasks
        (perform lib workingDirectory listing fuel task ⟨disk, newArchive⟩)
  | .closing opened newArchive ending => do
      closeArchive opened newArchive
      pure (.ended ending)
  | .ended ending => pure (.ended ending)

/-- What can happen in one step, if a file may change while it is read. -/
inductive Act : PackingStage → Disk → PackingStage → Disk → Prop where
  | steps {stage next : PackingStage} {disk later : Disk} :
      step lib workingDirectory listing fuel directory newArchivePath stage
        disk = .returned next later →
      Act stage disk next later
  | strays {opened : Option Location} {current newRelative : PathName}
      {tasks : List Task} {newArchive : OStream} {disk : Disk}
      (other : OStream) :
      Act (.walking opened (.file current newRelative :: tasks) newArchive)
        disk (.walking opened tasks other) disk
  | fails {opened : Option Location} {current newRelative : PathName}
      {tasks : List Task} {newArchive : OStream} {disk : Disk}
      (other : OStream) (error : Exception) :
      Act (.walking opened (.file current newRelative :: tasks) newArchive)
        disk (.closing opened other (.error error)) disk

/-- A run of steps with nothing in between. -/
abbrev Steps : PackingStage × Disk → PackingStage × Disk → Prop :=
  Relation.ReflTransGen fun before after =>
    step lib workingDirectory listing fuel directory newArchivePath before.1
      before.2 = .returned after.1 after.2

/-! ## The steps are `createArchive` -/

variable {lib workingDirectory listing fuel}

/-- The walk leads to the closing of the archive. -/
theorem steps_of_works
    {tasks : List Task} {packing final : Packing}
    {ending : Except Exception Unit}
    (works : Works (perform lib workingDirectory listing fuel) tasks packing
      ending final)
    (opened : Option Location) :
    Steps lib workingDirectory listing fuel directory newArchivePath
      (.walking opened tasks packing.newArchive, packing.disk)
      (.closing opened final.newArchive ending, final.disk) := by
  induction works with
  | nothing => exact .single rfl
  | goesOn performs _ inductionHypothesis =>
      refine .head ?_ inductionHypothesis
      simp only [step, performs, walk]
  | fails tasks performs =>
      apply Relation.ReflTransGen.single
      simp only [step, performs, walk]

/-- Less fuel is no other way to add a file. -/
theorem worksOff_addFile
    {less : Nat}
    (enough : less ≤ fuel)
    (current newRelative : PathName) :
    WorksOff (perform lib workingDirectory listing fuel)
      (addFile lib workingDirectory less current newRelative)
      [.file current newRelative] := by
  apply WorksOff.task
  intro packing
  rcases addFile_grows lib workingDirectory current newRelative less fuel
      enough packing with
    runsOut | same
  · exact .outOfFuel runsOut
  · cases outcome :
        addFile lib workingDirectory fuel current newRelative packing with
    | returned value later =>
        refine .goesOn (pure ()) ?_ (same.symm.trans outcome) .pure
        rw [perform, Program.bind_returned outcome]
        rfl
    | threw error later =>
        refine .fails ?_ (same.symm.trans outcome)
        rw [perform, Program.bind_threw outcome]
    | outOfFuel => exact .outOfFuel (same.symm.trans outcome)

theorem worksOff_packEntry
    {packDirectory : PathName → PathName → PackProgram Unit}
    (recursive : ∀ current newRelative,
      WorksOff (perform lib workingDirectory listing fuel)
        (packDirectory current newRelative)
        [.directory current newRelative])
    {less : Nat}
    (enough : less ≤ fuel)
    (dirToCompress relativePath name : PathName) :
    WorksOff (perform lib workingDirectory listing fuel)
      (packEntry lib workingDirectory packDirectory less dirToCompress
        relativePath name)
      [.entry dirToCompress relativePath name] := by
  let current := join dirToCompress name
  let newRelative := join relativePath (filename current)
  have others : WorksOff (perform lib workingDirectory listing fuel)
      (Program.getState >>= fun packing =>
        if (regularFile packing.disk.tree workingDirectory current).isSome
        then
          addFile lib workingDirectory less current newRelative
        else
          pure ())
      [.other current newRelative] := by
    apply WorksOff.choose _ (worksOff_addFile enough current newRelative)
      .pure
    intro packing
    rw [perform, Program.bind_returned (Program.getState_run packing)]
    split_ifs
    · rfl
    · rfl
  apply WorksOff.task
  intro packing
  by_cases inDirectory :
      isDirectory packing.disk.tree workingDirectory current
  · apply WorksOff.Unfolds.goesOn _ _ _ (recursive current newRelative)
    · exact packing
    · rw [perform, Program.bind_returned (Program.getState_run packing),
        if_pos inDirectory]
      rfl
    · rw [packEntry, Program.bind_returned (Program.getState_run packing),
        if_pos inDirectory]
  · apply WorksOff.Unfolds.goesOn _ _ _ others
    · exact packing
    · rw [perform, Program.bind_returned (Program.getState_run packing),
        if_neg inDirectory]
      rfl
    · rw [packEntry, Program.bind_returned (Program.getState_run packing),
        if_neg inDirectory, Program.bind_returned
          (Program.getState_run packing)]

/-- The tasks do what `packDirectory` does. -/
theorem worksOff_packDirectory
    {depth : Nat}
    (enough : depth ≤ fuel)
    (dirToCompress relativePath : PathName) :
    WorksOff (perform lib workingDirectory listing fuel)
      (packDirectory lib workingDirectory listing depth dirToCompress
        relativePath)
      [.directory dirToCompress relativePath] := by
  induction depth generalizing dirToCompress relativePath with
  | zero =>
      apply WorksOff.task
      intro packing
      exact .outOfFuel rfl
  | succ depth inductionHypothesis =>
      have less : depth ≤ fuel := Nat.le_of_succ_le enough
      apply WorksOff.task
      intro packing
      cases adds : addDirectory relativePath packing with
      | threw error later =>
          apply WorksOff.Unfolds.fails
          · rw [perform, Program.bind_threw adds]
          · rw [packDirectory, Program.bind_threw adds]
      | outOfFuel =>
          apply WorksOff.Unfolds.outOfFuel
          rw [packDirectory, Program.bind_run, adds]
      | returned _ between =>
          cases lists : directoryEntries workingDirectory listing
              dirToCompress between with
          | threw error later =>
              apply WorksOff.Unfolds.fails
              · rw [perform, Program.bind_returned adds,
                  Program.bind_threw lists]
              · rw [packDirectory, Program.bind_returned adds,
                  Program.bind_threw lists]
          | outOfFuel =>
              apply WorksOff.Unfolds.outOfFuel
              rw [packDirectory, Program.bind_returned adds,
                Program.bind_run, lists]
          | returned names later =>
              apply WorksOff.Unfolds.goesOn _ _ _
                (WorksOff.forEach
                  (worksOff_packEntry (inductionHypothesis less) less
                    dirToCompress relativePath)
                  names)
              · exact later
              · rw [perform, Program.bind_returned adds,
                  Program.bind_returned lists]
                rfl
              · rw [packDirectory, Program.bind_returned adds,
                  Program.bind_returned lists]

/-- Writing the archive is walking and closing it. -/
theorem steps_of_writeArchive
    {disk later : Disk} {opened : Option Location}
    {ending : Except Exception Unit}
    (ends : writeArchive lib workingDirectory listing directory opened fuel
      disk = endedAs ending later) :
    Steps lib workingDirectory listing fuel directory newArchivePath
      (.walking opened [.directory directory (filename directory)]
        (OStream.atEnd []), disk)
      (.ended ending, later) := by
  have closes (packing : Packing) (walked : Except Exception Unit)
      (packs : packDirectory lib workingDirectory listing fuel directory
        (filename directory) ⟨disk, OStream.atEnd []⟩ =
          endedAs walked packing)
      {closed : Disk}
      (closing : closeArchive opened packing.newArchive packing.disk =
        .returned () closed) :
      Steps lib workingDirectory listing fuel directory newArchivePath
        (.walking opened [.directory directory (filename directory)]
          (OStream.atEnd []), disk)
        (.ended walked, closed) := by
    have works := (worksOff_packDirectory (Nat.le_refl fuel) directory
      (filename directory)).works packs
    apply (steps_of_works directory newArchivePath works opened).tail
    show (closeArchive opened packing.newArchive >>= _) packing.disk = _
    rw [Program.bind_returned closing]
    rfl
  rw [writeArchive] at ends
  cases packs : packDirectory lib workingDirectory listing fuel directory
      (filename directory) ⟨disk, OStream.atEnd []⟩ with
  | returned _ packing =>
      rw [packs] at ends
      rcases closeArchive_returns opened packing.newArchive packing.disk with
        ⟨closed, closing⟩
      dsimp only at ends
      rw [closing] at ends
      cases ending with
      | ok value =>
          cases ends
          exact closes packing (.ok ()) packs closing
      | error error => cases ends
  | threw error packing =>
      rw [packs] at ends
      rcases closeArchive_returns opened packing.newArchive packing.disk with
        ⟨closed, closing⟩
      dsimp only at ends
      rw [Program.bind_returned closing] at ends
      cases ending with
      | ok value => cases ends
      | error other =>
          cases ends
          exact closes packing (.error error) packs closing
  | outOfFuel =>
      rw [packs] at ends
      cases ending with
      | ok value => cases ends
      | error error => cases ends

/-- Alone on the disk, the steps end like `createArchive`. -/
theorem steps_of_createArchive
    {disk later : Disk} {ending : Except Exception Unit}
    (ends : createArchive lib workingDirectory listing directory
      newArchivePath fuel disk = endedAs ending later) :
    Steps lib workingDirectory listing fuel directory newArchivePath
      (.testing, disk) (.ended ending, later) := by
  rw [createArchive, Program.bind_returned (Program.getState_run disk)]
    at ends
  by_cases isThere :
      fileExists disk.tree workingDirectory newArchivePath
  · rw [if_pos isThere] at ends
    cases ending with
    | ok value => cases ends
    | error error =>
        cases ends
        apply Relation.ReflTransGen.single
        rw [step, Program.bind_returned (Program.getState_run disk),
          if_pos isThere]
        rfl
  · rw [if_neg isThere] at ends
    have tests : step lib workingDirectory listing fuel directory
        newArchivePath .testing disk = .returned .opening disk := by
      rw [step, Program.bind_returned (Program.getState_run disk),
        if_neg isThere]
      rfl
    obtain ⟨opened, between, opens⟩ : ∃ opened between,
        openForWriting workingDirectory newArchivePath disk =
          .returned opened between :=
      ⟨_, _, Program.step_run _ disk⟩
    rw [Program.bind_returned opens] at ends
    have opening : step lib workingDirectory listing fuel directory
        newArchivePath .opening disk =
          .returned (.walking opened
            [.directory directory (filename directory)] (OStream.atEnd []))
            between := by
      rw [step, Program.bind_returned opens]
      rfl
    have writes : Steps lib workingDirectory listing fuel directory
        newArchivePath (.opening, disk) (.ended ending, later) :=
      .head opening (steps_of_writeArchive directory newArchivePath ends)
    exact .head tests writes

/-! ## What a step changes -/

/-- The tree when an archive is closed. -/
def closed (tree : FileTree) (opened : Option Location) (content : Bytes) :
    FileTree :=
  match opened with
  | none => tree
  | some location => tree.place location (.file content)

variable (workingDirectory) in
/-- What becomes of the archive, and nothing else changes. -/
inductive Changes :
    PackingStage → FileTree → PackingStage → FileTree → Prop where
  | tests (tree : FileTree) : Changes .testing tree .opening tree
  | refuses (tree : FileTree) (error : Exception) :
      Changes .testing tree (.ended (.error error)) tree
  | opens {tree : FileTree} {location : Location} (tasks : List Task)
      (newArchive : OStream) :
      tree.resolve workingDirectory newArchivePath = some location →
      tree.CanPlace location →
      Changes .opening tree (.walking (some location) tasks newArchive)
        (tree.place location (.file []))
  | opensNothing (tree : FileTree) (tasks : List Task)
      (newArchive : OStream) :
      Changes .opening tree (.walking none tasks newArchive) tree
  | walks (opened : Option Location) (tasks more : List Task)
      (newArchive other : OStream) (tree : FileTree) :
      Changes (.walking opened tasks newArchive) tree
        (.walking opened more other) tree
  | finishes (opened : Option Location) (tasks : List Task)
      (newArchive other : OStream) (ending : Except Exception Unit)
      (tree : FileTree) :
      Changes (.walking opened tasks newArchive) tree
        (.closing opened other ending) tree
  | closes (opened : Option Location) (newArchive : OStream)
      (ending : Except Exception Unit) (tree : FileTree) :
      Changes (.closing opened newArchive ending) tree (.ended ending)
        (closed tree opened newArchive.data)
  | rests (ending : Except Exception Unit) (tree : FileTree) :
      Changes (.ended ending) tree (.ended ending) tree

/-- The walk only reads the disk. -/
theorem perform_keeps (task : Task) :
    Program.Keeps Packing.disk
      (perform lib workingDirectory listing fuel task) := by
  cases task with
  | directory dirToCompress relativePath =>
      apply (addDirectory_keeps relativePath).bind
      intro _
      exact (directoryEntries_keeps listing dirToCompress).bind fun _ =>
        .pure _
  | entry dirToCompress relativePath name =>
      apply Program.Keeps.getState.bind
      intro packing
      split_ifs
      · exact .pure _
      · exact .pure _
  | other current newRelative =>
      apply Program.Keeps.getState.bind
      intro packing
      split_ifs
      · exact .pure _
      · exact .pure _
  | file current newRelative =>
      exact (addFile_keeps lib fuel current newRelative).bind fun _ =>
        .pure _

theorem changes_of_walk
    {disk later : Disk} {opened : Option Location} {task : Task}
    {tasks : List Task} {newArchive : OStream} {next : PackingStage}
    (walks : walk opened tasks
      (perform lib workingDirectory listing fuel task ⟨disk, newArchive⟩) =
        .returned next later) :
    Changes workingDirectory newArchivePath
      (.walking opened (task :: tasks) newArchive) disk.tree next
      later.tree := by
  have keeps := @perform_keeps lib workingDirectory listing fuel task disk
    ⟨disk, newArchive⟩ rfl
  cases performs :
      perform lib workingDirectory listing fuel task ⟨disk, newArchive⟩ with
  | returned more packing =>
      rw [performs] at walks keeps
      cases walks
      have same : packing.disk = disk := keeps
      rw [same]
      exact .walks ..
  | threw error packing =>
      rw [performs] at walks keeps
      cases walks
      have same : packing.disk = disk := keeps
      rw [same]
      exact .finishes ..
  | outOfFuel =>
      rw [performs] at walks
      cases walks

theorem changes_of_step
    {stage next : PackingStage} {disk later : Disk}
    (steps : step lib workingDirectory listing fuel directory newArchivePath
      stage disk = .returned next later) :
    Changes workingDirectory newArchivePath stage disk.tree next
      later.tree := by
  cases stage with
  | testing =>
      rw [step, Program.bind_returned (Program.getState_run disk)] at steps
      split_ifs at steps
      · cases steps
        exact .refuses ..
      · cases steps
        exact .tests _
  | opening =>
      rw [step] at steps
      rcases openForWriting_cases workingDirectory newArchivePath disk with
        opens | ⟨location, resolved, possible, opens⟩
      · rw [Program.bind_returned opens] at steps
        cases steps
        exact .opensNothing ..
      · rw [Program.bind_returned opens] at steps
        cases steps
        exact .opens _ _ resolved possible
  | walking opened tasks newArchive =>
      cases tasks with
      | nil =>
          cases steps
          exact .finishes ..
      | cons task tasks => exact changes_of_walk newArchivePath steps
  | closing opened newArchive ending =>
      cases opened with
      | none =>
          cases steps
          exact .closes none ..
      | some location =>
          cases steps
          exact .closes (some location) ..
  | ended ending =>
      cases steps
      exact .rests ..

theorem Act.changes
    {stage next : PackingStage} {disk later : Disk}
    (act : Act lib workingDirectory listing fuel directory newArchivePath
      stage disk next later) :
    Changes workingDirectory newArchivePath stage disk.tree next
      later.tree := by
  cases act with
  | steps steps => exact changes_of_step directory newArchivePath steps
  | strays other => exact .walks ..
  | fails other error => exact .finishes ..

end DropFile.Client.PackingSteps
