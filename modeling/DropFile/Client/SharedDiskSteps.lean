import DropFile.Client.PackingSteps
import DropFile.Client.SparingStages
import DropFile.Client.UnpackingSteps

/-!
# The steps of clients on one disk

A client goes on by a stage of its program, or by a step of the archive that it
creates or unpacks.  Whatever its peer does is a possible environment, and other
clients may change the disk before each step.
-/

namespace DropFile.Client.SharedDisk

open DropFile.General.FuelledProgram
open DropFile.General.Processes.Process
open DropFile.General.PathNames
open DropFile.General.Files
open DropFile.General.Files.FileTree
open DropFile.General.Stages
open DropFile.General.Worklists (endedAs)
open DropFile.Streams
open DropFile.FileSystem
open DropFile.Client.DropFileSendClient hiding construct destroy
open DropFile.Client.DropFileReceiveClient hiding Machine construct destroy
open DropFile.Client.RunDropFileClient
open DropFile.Client.ExistingFiles hiding Spares
open DropFile.Client.SparedFiles
open DropFile.Client.SparingStages
open DropFile.Client.SendStages (SendStage)
open DropFile.Client.SentNames (archivePath)
open DropFile.Client.PackingSteps (PackingStage)
open DropFile.Client.ReceiveStages (ReceiveStage Incoming)
open DropFile.Client.UnpackingSteps (UnpackingStage)

/-! ## The clients -/

structure Sender where
  machine : DropFileSendClient.Machine
  fileToSendPath : PathName
  fuel : Nat
  stage : SendStage
  handed : List PathName
  /-- Where it is in `createArchive`. -/
  packing : PackingStage
  /-- What it has left in the file of its archive, if that could be opened. -/
  archive : Option Bytes

structure Receiver where
  machine : DropFileReceiveClient.Machine
  interactionStream : Bytes
  receiveCode : Bytes
  fuel : Nat
  stage : ReceiveStage
  receiving : Receiving
  /-- Where it is in `unpackArchive`. -/
  unpacking : UnpackingStage

inductive ClientProcess where
  | sender (sender : Sender)
  | receiver (receiver : Receiver)

abbrev Clients (Name : Type) := World Name FileTree ClientProcess

namespace Sender

variable (sender : Sender)

/-- The archive that the sender is creating, or still has to open. -/
def needed : Option PathName :=
  match sender.stage with
  | .packing =>
      match sender.packing with
      | .walking _ _ _ | .closing _ _ (.ok _) | .ended (.ok _) =>
          some (archivePath sender.machine sender.fileToSendPath)
      | _ => none
  | .describing entry _ | .announcing entry _ | .waiting entry
  | .opening entry =>
      if entry.shouldRemove then some entry.path else none
  | _ => none

/-- The archive with its content. -/
def holding : Option (PathName × Bytes) :=
  sender.needed.bind fun path =>
    sender.archive.map fun content => (path, content)

/-- Where the sender has its archive open. -/
def opened : Option Location :=
  match sender.stage with
  | .packing => sender.packing.opened
  | _ => none

/-- The file that is open, with what has reached it. -/
def written : Option (Location × Bytes) :=
  sender.opened.map fun location => (location, sender.archive.getD [])

/-- The path at which the next step opens a file. -/
def opens : Option PathName :=
  match sender.stage, sender.packing with
  | .packing, .opening =>
      some (archivePath sender.machine sender.fileToSendPath)
  | _, _ => none

/-- The path that the next step removes with all that is below it. -/
def clears : Option PathName :=
  match sender.stage with
  | .clearing | .destroying _ => some (senderTmpDir sender.machine)
  | .dropping entry _ =>
      if entry.shouldRemove then some entry.path else none
  | _ => none

/-- The disk as the sender sees it. -/
def view (tree : FileTree) : Disk :=
  ⟨tree, sender.handed⟩

def part : SenderProcess Unit SendStage :=
  SendStages.part sender.machine () sender.fileToSendPath sender.fuel
    sender.stage

/-- The sender after a stage. -/
def next (stage : SendStage) (disk : Disk) : Sender :=
  { sender with stage, handed := disk.handed, packing := .testing }

/-- What can happen in one step of `createArchive`. -/
def Packs : PackingStage → Disk → PackingStage → Disk → Prop :=
  PackingSteps.Act sender.machine.zstd sender.machine.workingDirectory
    sender.machine.listing sender.fuel sender.fileToSendPath
    (archivePath sender.machine sender.fileToSendPath)

/-- The stage that `createArchive` leads to when it has ended. -/
def afterPacking : PackingStage → SendStage
  | .ended (.ok _) =>
      .describing
        ⟨archivePath sender.machine sender.fileToSendPath, true⟩ true
  | .ended (.error exception) => .destroying (.error exception)
  | _ => .packing

/-- What is in the file of the archive after a step. -/
def archiveAfter (packing : PackingStage) : Option Bytes :=
  match sender.packing with
  | .opening => packing.opened.map fun _ => []
  | .closing (some _) newArchive _ =>
      sender.archive.map fun _ => newArchive.data
  | _ => sender.archive

/-- The sender after a step of `createArchive`. -/
def packed (packing : PackingStage) (disk : Disk) : Sender :=
  { sender with
    stage := sender.afterPacking packing
    handed := disk.handed
    packing
    archive := sender.archiveAfter packing }

/-- The sender when this has reached the file of its archive. -/
def flushed (content : Bytes) : Sender :=
  { sender with archive := sender.archive.map fun _ => content }

end Sender

namespace Receiver

variable (receiver : Receiver)

/-- The archive that the receiver is receiving or still has to look up. -/
def needed : Option PathName :=
  match receiver.stage with
  | .receiving incoming _ _ | .acknowledging incoming
  | .hashing incoming _ =>
      if incoming.isCompressed then some incoming.path else none
  | .unpacking incoming =>
      if receiver.unpacking.looksUp then some incoming.path else none
  | _ => none

/-- The archive with what has been written to it. -/
def holding : Option (PathName × Bytes) :=
  receiver.needed.bind fun path =>
    receiver.receiving.receivedFile.map fun file => (path, file.2)

/-- The file that is open, with what has reached it. -/
def written : Option (Location × Bytes) :=
  match receiver.stage with
  | .receiving _ _ _ => receiver.receiving.receivedFile
  | .unpacking _ => receiver.unpacking.written
  | _ => none

/-- The path at which the next step opens a file. -/
def opens : Option PathName :=
  match receiver.stage with
  | .opening incoming => some incoming.path
  | .unpacking _ =>
      receiver.unpacking.opens
        (currentPath receiver.machine.workingDirectory)
  | _ => none

/-- The path that the next step removes with all that is below it. -/
def clears : Option PathName :=
  match receiver.stage with
  | .clearing | .destroying _ => some (receiverTmpDir receiver.machine)
  | _ => none

/-- The archive that the next step removes. -/
def removes : Option PathName :=
  match receiver.stage with
  | .removing incoming => some incoming.path
  | _ => none

/-- The disk as the receiver sees it. -/
def view (tree : FileTree) : Receiving :=
  { receiver.receiving with
    disk := ⟨tree, receiver.receiving.disk.handed⟩ }

def part : ReceiverProcess Unit ReceiveStage :=
  ReceiveStages.part receiver.machine () receiver.interactionStream
    receiver.receiveCode receiver.fuel receiver.stage

/-- The receiver after a stage. -/
def next (stage : ReceiveStage) (receiving : Receiving) : Receiver :=
  { receiver with stage, receiving, unpacking := .testing }

/-- What can happen in one step of `unpackArchive`. -/
def Unpacks (incoming : Incoming) :
    UnpackingStage → Disk → UnpackingStage → Disk → Prop :=
  UnpackingSteps.Act receiver.machine.zstd
    receiver.machine.workingDirectory
    (currentPath receiver.machine.workingDirectory) incoming.path

/-- The stage that `unpackArchive` leads to when it has ended. -/
def afterUnpacking (incoming : Incoming) : UnpackingStage → ReceiveStage
  | .ended (.ok _) => .removing incoming
  | .ended (.error exception) => .destroying (.error exception)
  | _ => .unpacking incoming

/-- The receiver after a step of `unpackArchive`. -/
def unpacked (incoming : Incoming) (unpacking : UnpackingStage)
    (disk : Disk) : Receiver :=
  { receiver with
    stage := afterUnpacking incoming unpacking
    unpacking
    receiving :=
      { receiver.receiving with disk, unpacking := some incoming.path } }

end Receiver

namespace ClientProcess

def workingDirectory : ClientProcess → Location
  | sender member => member.machine.workingDirectory
  | receiver member => member.machine.workingDirectory

def holding : ClientProcess → Option (PathName × Bytes)
  | sender member => member.holding
  | receiver member => member.holding

def written : ClientProcess → Option (Location × Bytes)
  | sender member => member.written
  | receiver member => member.written

def opens : ClientProcess → Option PathName
  | sender member => member.opens
  | receiver member => member.opens

def clears : ClientProcess → Option PathName
  | sender member => member.clears
  | receiver member => member.clears

def removes : ClientProcess → Option PathName
  | sender _ => none
  | receiver member => member.removes

/-- Before the constructor of the client. -/
def Unborn : ClientProcess → Prop
  | sender member => member.stage = .clearing
  | receiver member => member.stage = .clearing

/-- What the next step removes, opens or writes is away from the locations. -/
structure Spares (kept : Location → Prop) (tree : FileTree)
    (client : ClientProcess) : Prop where
  clearing : ∀ path ∈ client.clears,
    SparesRemoval kept tree client.workingDirectory path
  removing : ∀ path ∈ client.removes,
    SparesRemoval kept tree client.workingDirectory path
  opening : ∀ path ∈ client.opens,
    SparesWriting kept tree client.workingDirectory path
  writing : ∀ file ∈ client.written, ¬ kept file.1

/--
The client writes to a file that another client has changed or removed since
it was opened.
-/
def Disturbed (tree : FileTree) (client : ClientProcess) : Prop :=
  ∃ location bytes, client.written = some (location, bytes) ∧
    tree.node location ≠ some (.file bytes)

/--
The tree after a step.  What a disturbed client leaves at the location of its
file is left open.
-/
def Settles (client : ClientProcess) (tree later settled : FileTree) : Prop :=
  settled = later ∨
    client.Disturbed tree ∧
      ∀ location, (∀ bytes, client.written ≠ some (location, bytes)) →
        settled.node location = later.node location

end ClientProcess

/-- One client goes on by one step, whatever its peers do. -/
inductive Step :
    FileTree → ClientProcess → FileTree → ClientProcess → Prop where
  /-- A stage of a sender. -/
  | sender {tree : FileTree} {sender : Sender} {stage : SendStage}
      {moment : Local Unit Disk} :
      sender.stage ≠ .packing →
      Becomes sender.part ⟨sender.view tree, silence, silence⟩
        (.done stage) moment →
      Step tree (.sender sender) moment.state.tree
        (.sender (sender.next stage moment.state))
  /-- A step of `createArchive`. -/
  | packs {tree settled : FileTree} {sender : Sender}
      {packing : PackingStage} {later : Disk} :
      sender.stage = .packing →
      sender.Packs sender.packing (sender.view tree) packing later →
      (ClientProcess.sender sender).Settles tree later.tree settled →
      Step tree (.sender sender) settled
        (.sender (sender.packed packing later))
  /-- The archive is written to before it is closed. -/
  | flushes {tree settled : FileTree} {sender : Sender}
      {location : Location} (content : Bytes) :
      sender.opened = some location →
      (ClientProcess.sender sender).Settles tree
        (tree.place location (.file content)) settled →
      Step tree (.sender sender) settled
        (.sender (sender.flushed content))
  /-- A stage of a receiver. -/
  | receiver {tree settled : FileTree} {receiver : Receiver}
      {stage : ReceiveStage} {moment : Local Unit Receiving} :
      (∀ incoming, receiver.stage ≠ .unpacking incoming) →
      Becomes receiver.part ⟨receiver.view tree, silence, silence⟩
        (.done stage) moment →
      (ClientProcess.receiver receiver).Settles tree
        moment.state.disk.tree settled →
      Step tree (.receiver receiver) settled
        (.receiver (receiver.next stage moment.state))
  /-- A step of `unpackArchive`. -/
  | unpacks {tree settled : FileTree} {receiver : Receiver}
      {incoming : Incoming} {unpacking : UnpackingStage} {later : Disk} :
      receiver.stage = .unpacking incoming →
      receiver.Unpacks incoming receiver.unpacking
        (receiver.view tree).disk unpacking later →
      (ClientProcess.receiver receiver).Settles tree later.tree settled →
      Step tree (.receiver receiver) settled
        (.receiver (receiver.unpacked incoming unpacking later))
  /-- A part of a directory is removed before the rest of it. -/
  | clears {tree : FileTree} {client : ClientProcess} {path : PathName}
      {location other : Location} :
      client.clears = some path →
      tree.resolve client.workingDirectory path = some location →
      location <+: other →
      Step tree client (tree.removeAll other) client

/-! ## The programs of the clients -/

/-- What the sender still has to do. -/
def Sender.rest (sender : Sender) : SenderProcess Unit Unit :=
  SendStages.rest sender.machine () sender.fileToSendPath sender.fuel
    sender.stage

def Receiver.rest (receiver : Receiver) : ReceiverProcess Unit Unit :=
  ReceiveStages.rest receiver.machine () receiver.interactionStream
    receiver.receiveCode receiver.fuel receiver.stage

/-- Before its constructor a sender has its whole program to run. -/
theorem Sender.rest_of_clearing
    {sender : Sender}
    (clearing : sender.stage = .clearing) :
    sender.rest =
      runSendClient sender.machine () sender.fileToSendPath sender.fuel := by
  rw [rest, clearing]
  rfl

theorem Receiver.rest_of_clearing
    {receiver : Receiver}
    (clearing : receiver.stage = .clearing) :
    receiver.rest =
      runReceiveClient receiver.machine () receiver.interactionStream
        receiver.receiveCode receiver.fuel := by
  rw [rest, clearing]
  rfl

/-- The step of a sender is a run of its program. -/
theorem Sender.becomes_rest
    {sender : Sender} {tree : FileTree} {stage : SendStage}
    {moment : Local Unit Disk}
    (becomes : Becomes sender.part ⟨sender.view tree, silence, silence⟩
      (.done stage) moment) :
    Becomes sender.rest ⟨sender.view tree, silence, silence⟩
      (sender.next stage moment.state).rest moment :=
  (SendStages.staged sender.machine () sender.fileToSendPath
    sender.fuel).becomes_rest becomes

/-- The step of a receiver is a run of its program. -/
theorem Receiver.becomes_rest
    {receiver : Receiver} {tree : FileTree} {stage : ReceiveStage}
    {moment : Local Unit Receiving}
    (becomes : Becomes receiver.part ⟨receiver.view tree, silence, silence⟩
      (.done stage) moment) :
    Becomes receiver.rest ⟨receiver.view tree, silence, silence⟩
      (receiver.next stage moment.state).rest moment :=
  (ReceiveStages.staged receiver.machine () receiver.interactionStream
    receiver.receiveCode receiver.fuel).becomes_rest becomes

/-! ## With nothing in between -/

/-- A run of steps that one client takes. -/
abbrev Steps :
    FileTree × ClientProcess → FileTree × ClientProcess → Prop :=
  Relation.ReflTransGen fun before after =>
    Step before.1 before.2 after.1 after.2

section Alone

variable {tree : FileTree}

theorem Sender.afterPacking_eq
    (sender : Sender) {packing : PackingStage}
    (goesOn : ¬ ∃ ending, packing = .ended ending) :
    sender.afterPacking packing = .packing := by
  cases packing with
  | testing => rfl
  | opening => rfl
  | walking opened tasks newArchive => rfl
  | closing opened newArchive ending => rfl
  | ended ending => exact absurd ⟨ending, rfl⟩ goesOn

theorem Sender.steps_of_packing
    {sender : Sender} {packing : PackingStage} {later : Disk}
    (isPacking : sender.stage = .packing)
    (begins : sender.packing = .testing)
    (steps : PackingSteps.Steps sender.machine.zstd
      sender.machine.workingDirectory sender.machine.listing sender.fuel
      sender.fileToSendPath
      (archivePath sender.machine sender.fileToSendPath)
      (.testing, sender.view tree) (packing, later)) :
    ∃ archive, Steps (tree, .sender sender)
      (later.tree, .sender
        { sender with
          stage := sender.afterPacking packing
          handed := later.handed
          packing
          archive }) := by
  generalize last : (packing, later) = final at steps
  induction steps generalizing packing later with
  | refl =>
      cases last
      refine ⟨sender.archive, ?_⟩
      rcases sender with ⟨_, _, _, _, _, _, _⟩
      cases isPacking
      cases begins
      exact .refl
  | @tail middle final _ step inductionHypothesis =>
      cases last
      rcases middle with ⟨now, disk⟩
      rcases inductionHypothesis rfl with ⟨archive, steps⟩
      by_cases isOver : ∃ ending, now = .ended ending
      · rcases isOver with ⟨ending, rfl⟩
        cases step
        exact ⟨archive, steps⟩
      · rw [afterPacking_eq sender isOver] at steps
        exact ⟨_, steps.tail (.packs rfl (.steps step) (Or.inl rfl))⟩

/--
With nothing in between, a sender goes through `createArchive` as it does in
its own program.
-/
theorem Sender.steps_of_becomes
    {sender : Sender} {stage : SendStage} {moment : Local Unit Disk}
    (isPacking : sender.stage = .packing)
    (begins : sender.packing = .testing)
    (becomes : Becomes sender.part ⟨sender.view tree, silence, silence⟩
      (.done stage) moment) :
    ∃ packing archive, Steps (tree, .sender sender)
      (moment.state.tree, .sender
        { sender with
          stage
          handed := moment.state.handed
          packing
          archive }) := by
  have leaves : Leaves (sender.view tree) sender.part
      (fun stage later => ∃ ending,
        stage = sender.afterPacking (.ended ending) ∧
        ArchiveManager.createArchive sender.machine.zstd
            sender.machine.workingDirectory sender.machine.listing
            sender.fileToSendPath
            (archivePath sender.machine sender.fileToSendPath) sender.fuel
            (sender.view tree) = endedAs ending later)
      (fun _ _ => True) := by
    rw [part, isPacking]
    apply Leaves.attempt_resume
    apply (Leaves.ofProgram (Program.Satisfies.outcome _ _)).weaken
    · exact fun value later returned => ⟨.ok value, rfl, returned⟩
    · exact fun error later threw => ⟨.error error, rfl, threw⟩
  rcases leaves.of_becomes becomes with ⟨ending, rfl, ends⟩
  exact ⟨_, steps_of_packing isPacking begins
    (PackingSteps.steps_of_createArchive _ _ ends)⟩

theorem Receiver.afterUnpacking_eq
    (incoming : Incoming) {unpacking : UnpackingStage}
    (goesOn : ¬ ∃ ending, unpacking = .ended ending) :
    afterUnpacking incoming unpacking = .unpacking incoming := by
  cases unpacking with
  | ended ending => exact absurd ⟨ending, rfl⟩ goesOn
  | testing => rfl
  | checking => rfl
  | opening => rfl
  | measuring archive => rfl
  | passing reading => rfl
  | creating reading path => rfl
  | placing reading entryInfo => rfl
  | extracting reading entryInfo location written => rfl

/-- What has ended stays as it is. -/
theorem Receiver.eq_of_ended
    {receiver : Receiver} {incoming : Incoming}
    {ending : Except Exception Unit} {unpacking : UnpackingStage}
    {disk later : Disk}
    (unpacks : receiver.Unpacks incoming (.ended ending) disk unpacking
      later) :
    unpacking = .ended ending ∧ later = disk := by
  cases unpacks with
  | steps fuel steps =>
      cases steps
      exact ⟨rfl, rfl⟩

theorem Receiver.steps_of_acts
    {receiver : Receiver} {incoming : Incoming}
    {now unpacking : UnpackingStage} {disk later : Disk}
    (acts : UnpackingSteps.Acts receiver.machine.zstd
      receiver.machine.workingDirectory
      (currentPath receiver.machine.workingDirectory) incoming.path
      (now, disk) (unpacking, later)) :
    Steps
      (disk.tree, .receiver (receiver.unpacked incoming now disk))
      (later.tree, .receiver
        (receiver.unpacked incoming unpacking later)) := by
  generalize last : (unpacking, later) = final at acts
  induction acts generalizing unpacking later with
  | refl =>
      cases last
      exact .refl
  | @tail middle final _ act inductionHypothesis =>
      cases last
      rcases middle with ⟨now, disk⟩
      have steps := inductionHypothesis rfl
      by_cases isOver : ∃ ending, now = .ended ending
      · rcases isOver with ⟨ending, rfl⟩
        rcases @eq_of_ended receiver incoming _ _ _ _ act with ⟨rfl, rfl⟩
        exact steps
      · refine steps.tail (.unpacks ?_ act (Or.inl rfl))
        exact afterUnpacking_eq incoming isOver

theorem Receiver.steps_of_unpacking
    {receiver : Receiver} {incoming : Incoming}
    {ending : Except Exception Unit} {later : Disk}
    (isUnpacking : receiver.stage = .unpacking incoming)
    (begins : receiver.unpacking = .testing)
    (acts : UnpackingSteps.Acts receiver.machine.zstd
      receiver.machine.workingDirectory
      (currentPath receiver.machine.workingDirectory) incoming.path
      (.testing, (receiver.view tree).disk) (.ended ending, later)) :
    Steps (tree, .receiver receiver)
      (later.tree, .receiver
        (receiver.unpacked incoming (.ended ending) later)) := by
  rcases acts.cases_head with same | ⟨⟨now, disk⟩, act, acts⟩
  · cases same
  · have first : Step tree (.receiver receiver) disk.tree
        (.receiver (receiver.unpacked incoming now disk)) := by
      apply Step.unpacks isUnpacking _ (Or.inl rfl)
      rw [begins]
      exact act
    exact .head first (steps_of_acts acts)

/--
With nothing in between, a receiver goes through `unpackArchive` as it does in
its own program.
-/
theorem Receiver.steps_of_becomes
    {receiver : Receiver} {incoming : Incoming} {stage : ReceiveStage}
    {moment : Local Unit Receiving}
    (isUnpacking : receiver.stage = .unpacking incoming)
    (begins : receiver.unpacking = .testing)
    (becomes : Becomes receiver.part ⟨receiver.view tree, silence, silence⟩
      (.done stage) moment) :
    ∃ unpacking, Steps (tree, .receiver receiver)
      (moment.state.disk.tree, .receiver
        { receiver with
          stage
          receiving := moment.state
          unpacking }) := by
  have leaves : Leaves (receiver.view tree) receiver.part
      (fun stage later => ∃ ending disk,
        stage = afterUnpacking incoming (.ended ending) ∧
        later =
          { receiver.receiving with
            disk, unpacking := some incoming.path } ∧
        LiveUnpacking.unpackArchive receiver.machine.zstd
            receiver.machine.buffering receiver.machine.workingDirectory
            (currentPath receiver.machine.workingDirectory) incoming.path
            receiver.fuel (receiver.view tree).disk = endedAs ending disk)
      (fun _ _ => True) := by
    rw [part, isUnpacking]
    apply Leaves.attempt_resume
    apply Leaves.modifyState_bind
    apply leaves_onDisk
    apply (Program.Satisfies.outcome _ _).weaken fun _ same => same
    · exact fun value disk returned =>
        ⟨.ok value, disk, rfl, rfl, returned⟩
    · exact fun error disk threw => ⟨.error error, disk, rfl, rfl, threw⟩
  rcases leaves.of_becomes becomes with ⟨ending, disk, rfl, later, ends⟩
  have steps := steps_of_unpacking isUnpacking begins
    (UnpackingSteps.acts_of_unpackArchive ends)
  refine ⟨.ended ending, ?_⟩
  rw [later]
  exact steps

end Alone

end DropFile.Client.SharedDisk
