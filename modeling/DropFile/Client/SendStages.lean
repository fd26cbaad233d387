import DropFile.Client.RunDropFileClient
import DropFile.Client.SentNames
import DropFile.General.Stages

/-!
# The stages of a sending client

The program of a sender, cut where it touches the disk.  Creating the archive
is one part here, although it touches the disk many times.
-/

namespace DropFile.Client.SendStages

open DropFile.General.Processes
open DropFile.General.Processes.Process
open DropFile.General.PathNames
open DropFile.General.Files
open DropFile.General.Stages
open DropFile.Streams
open DropFile.FileSystem
open DropFile.Socket
open DropFile.JsonObjects
open DropFile.InitSessionMessage
open DropFile.Client.ArchiveManager
open DropFile.Client.DropFileSendClient
open DropFile.Client.RunDropFileClient
open DropFile.Client.SentNames

/-- Where a sender is in its program. -/
inductive SendStage where
  /-- In the constructor, before the old directory is removed. -/
  | clearing
  /-- In the constructor, before the new directory is created. -/
  | making
  /-- Before it is asked whether a directory is sent. -/
  | testing
  /-- Before the archive is created. -/
  | packing
  /-- Before the entry is opened for its size and its hash. -/
  | describing (entry : RAIIFSEntry) (isCompressed : Bool)
  /-- Before the metadata is sent. -/
  | announcing (entry : RAIIFSEntry) (message : Bytes)
  /-- Before the other client has confirmed the transfer. -/
  | waiting (entry : RAIIFSEntry)
  /-- Before the entry is opened to be sent. -/
  | opening (entry : RAIIFSEntry)
  | sending (entry : RAIIFSEntry) (content : Bytes)
  /-- Before the destructor of the entry. -/
  | dropping (entry : RAIIFSEntry) (ending : Ending)
  /-- Before the destructor of the client. -/
  | destroying (ending : Ending)
  | ended (ending : Ending)

variable {Peer : Type} (machine : Machine) (server : Peer)
variable (fileToSendPath : PathName) (fuel : Nat)

/-- The message with the metadata. -/
def metadataMessage (tree : FileTree) (entry : RAIIFSEntry)
    (isCompressed : Bool) : Except Exception Bytes := do
  let json ←
    createSendMessage machine.digest tree machine.workingDirectory
      entry.path isCompressed
  orJsonException (machine.library.dump json)

def afterDescribing (entry : RAIIFSEntry) :
    Except Exception Bytes → SendStage
  | .ok message => .announcing entry message
  | .error exception => .dropping entry (.error exception)

def afterOpening (entry : RAIIFSEntry) : Option Bytes → SendStage
  | none =>
      .dropping entry (.error (filesystemError "cannot get file size"))
  | some content => .sending entry content

/-- The stage that follows when the entry has to be destroyed on failure. -/
def orDropping {α : Type} (entry : RAIIFSEntry) (next : α → SendStage) :
    Except Exception α → SenderProcess Peer SendStage :=
  resume (fun exception => pure (.dropping entry (.error exception)))
    fun value => pure (next value)

/-- What a sender does in one stage. -/
def part : SendStage → SenderProcess Peer SendStage
  | .clearing => do
      ofProgram (removeAll machine.workingDirectory (senderTmpDir machine))
      pure .making
  | .making =>
      attempt (ofProgram (createDirectories machine.workingDirectory
        (senderTmpDir machine))) >>=
      resume (fun exception => pure (.ended (.error exception)))
        fun _ => pure .testing
  | .testing => do
      let disk ← getState
      if isDirectory disk.tree machine.workingDirectory fileToSendPath then
        pure .packing
      else
        pure (.describing ⟨fileToSendPath, false⟩ false)
  | .packing =>
      attempt (ofProgram (createArchive machine.zstd
        machine.workingDirectory machine.listing fileToSendPath
        (archivePath machine fileToSendPath) fuel)) >>=
      resume (fun exception => pure (.destroying (.error exception)))
        fun _ =>
          pure (.describing ⟨archivePath machine fileToSendPath, true⟩ true)
  | .describing entry isCompressed => do
      let disk ← getState
      pure (afterDescribing entry
        (metadataMessage machine disk.tree entry isCompressed))
  | .announcing entry message =>
      attempt (do
        send server message
        getReceiveCodeFromServer machine server) >>=
      orDropping entry fun _ => .waiting entry
  | .waiting entry =>
      attempt (receiveACK server) >>=
      orDropping entry fun _ => .opening entry
  | .opening entry => do
      let disk ← getState
      pure (afterOpening entry
        (regularFile disk.tree machine.workingDirectory entry.path))
  | .sending entry content =>
      attempt (do
        sendContent machine server fuel (content, 0)
        receiveACK server) >>=
      orDropping entry fun _ => .dropping entry (.ok ())
  | .dropping entry ending => do
      destroyEntry machine entry
      pure (.destroying ending)
  | .destroying ending => do
      DropFileSendClient.destroy machine
      pure (.ended ending)
  | .ended ending => pure (.ended ending)

/-- What a sender has left to do from a stage on. -/
def rest : SendStage → SenderProcess Peer Unit
  | .clearing => runSendClient machine server fileToSendPath fuel
  | .making => do
      ofProgram (createDirectories machine.workingDirectory
        (senderTmpDir machine))
      alive (destroy machine) do
        let (entry, _) ←
          sendFSEntryMetadata machine server fileToSendPath fuel
        sendFSEntry machine server entry fuel
  | .testing =>
      alive (destroy machine) do
        let (entry, _) ←
          sendFSEntryMetadata machine server fileToSendPath fuel
        sendFSEntry machine server entry fuel
  | .packing =>
      alive (destroy machine) do
        ofProgram (createArchive machine.zstd machine.workingDirectory
          machine.listing fileToSendPath
          (archivePath machine fileToSendPath) fuel)
        let (entry, _) ← sendMetadata
          ⟨archivePath machine fileToSendPath, true⟩ true
        sendFSEntry machine server entry fuel
  | .describing entry isCompressed =>
      alive (destroy machine) do
        let (entry, _) ← sendMetadata entry isCompressed
        sendFSEntry machine server entry fuel
  | .announcing entry message =>
      alive (destroy machine) do
        let (entry, _) ← withEntry machine entry do
          send server message
          let code ← getReceiveCodeFromServer machine server
          pure (entry, code)
        sendFSEntry machine server entry fuel
  | .waiting entry =>
      alive (destroy machine) (sendFSEntry machine server entry fuel)
  | .opening entry =>
      alive (destroy machine) do
        withEntry machine entry do
          let disk ← getState
          match regularFile disk.tree machine.workingDirectory
              entry.path with
          | none => raise (filesystemError "cannot get file size")
          | some content => sendContent machine server fuel (content, 0)
          receiveACK server
        destroyEntry machine entry
  | .sending entry content =>
      alive (destroy machine) do
        withEntry machine entry do
          sendContent machine server fuel (content, 0)
          receiveACK server
        destroyEntry machine entry
  | .dropping entry ending => do
      destroyEntry machine entry
      DropFileSendClient.destroy machine
      ofExcept ending
  | .destroying ending => do
      DropFileSendClient.destroy machine
      ofExcept ending
  | .ended ending => ofExcept ending
where
  sendMetadata (entry : RAIIFSEntry) (isCompressed : Bool) :
      SenderProcess Peer (RAIIFSEntry × Bytes) :=
    withEntry machine entry do
      let disk ← getState
      let json ←
        ofExcept (createSendMessage machine.digest disk.tree
          machine.workingDirectory entry.path isCompressed)
      let message ← ofExcept (orJsonException (machine.library.dump json))
      send server message
      let code ← getReceiveCodeFromServer machine server
      pure (entry, code)

/-! ## The stages are the program -/

section Alive

variable {α : Type}

theorem alive_attempt_bind
    (process : SenderProcess Peer α)
    (next : Except Exception α → SenderProcess Peer Unit) :
    alive (destroy machine) (attempt process >>= next) =
      attempt process >>= fun result =>
        alive (destroy machine) (next result) := by
  rw [alive, handle_attempt_bind, Process.bind_assoc]
  rfl

/-- A failure leads to the destructor. -/
theorem alive_bind
    (process : SenderProcess Peer α)
    (next : α → SenderProcess Peer Unit) :
    alive (destroy machine) (process >>= next) =
      attempt process >>=
        resume
          (fun exception =>
            rest machine server fileToSendPath fuel
              (.destroying (.error exception)))
          fun value => alive (destroy machine) (next value) := by
  rw [alive, handle_bind, Process.bind_assoc]
  exact bind_result_congr _ (fun _ => rfl) fun _ => rfl

/-- A failure leads to the destructor of the entry first. -/
theorem alive_failed
    (entry : RAIIFSEntry)
    (exception : Exception)
    (next : α → SenderProcess Peer Unit) :
    alive (destroy machine)
        (withEntry machine entry (raise exception) >>= next) =
      rest machine server fileToSendPath fuel
        (.dropping entry (.error exception)) := by
  rcases entry with ⟨path, _ | _⟩
  · rfl
  · rfl

theorem alive_withEntry
    (entry : RAIIFSEntry)
    (process : SenderProcess Peer α)
    (next : α → SenderProcess Peer Unit) :
    alive (destroy machine) (withEntry machine entry process >>= next) =
      attempt process >>=
        resume
          (fun exception =>
            rest machine server fileToSendPath fuel
              (.dropping entry (.error exception)))
          fun value => alive (destroy machine) (next value) := by
  rw [withEntry, handle_eq_attempt, Process.bind_assoc, alive_attempt_bind]
  exact bind_result_congr _ (fun _ => rfl) fun _ =>
    alive_failed machine server fileToSendPath fuel entry _ next

theorem alive_withEntry_bind
    {β : Type}
    (entry : RAIIFSEntry)
    (process : SenderProcess Peer β)
    (onward : β → SenderProcess Peer α)
    (next : α → SenderProcess Peer Unit) :
    alive (destroy machine)
        (withEntry machine entry (process >>= onward) >>= next) =
      attempt process >>=
        resume
          (fun exception =>
            rest machine server fileToSendPath fuel
              (.dropping entry (.error exception)))
          fun value =>
            alive (destroy machine)
              (withEntry machine entry (onward value) >>= next) := by
  rw [withEntry, handle_bind, Process.bind_assoc, alive_attempt_bind]
  exact bind_result_congr _ (fun _ => rfl) fun _ =>
    alive_failed machine server fileToSendPath fuel entry _ next

theorem alive_getState_bind
    (next : Disk → SenderProcess Peer Unit) :
    alive (destroy machine) (getState >>= next) =
      getState >>= fun disk => alive (destroy machine) (next disk) :=
  rfl

theorem alive_withEntry_getState_bind
    (entry : RAIIFSEntry)
    (onward : Disk → SenderProcess Peer α)
    (next : α → SenderProcess Peer Unit) :
    alive (destroy machine)
        (withEntry machine entry (getState >>= onward) >>= next) =
      getState >>= fun disk =>
        alive (destroy machine)
          (withEntry machine entry (onward disk) >>= next) :=
  rfl

end Alive

/-- The rest of a stage is its part and the rest of the stage that follows. -/
theorem rest_eq (stage : SendStage) :
    rest machine server fileToSendPath fuel stage =
      part machine server fileToSendPath fuel stage >>=
        rest machine server fileToSendPath fuel := by
  cases stage with
  | clearing => rfl
  | making =>
      rw [rest, part, Process.bind_assoc, bind_eq_attempt]
      exact bind_result_congr _ (fun _ => rfl) fun _ => rfl
  | testing =>
      rw [rest, sendFSEntryMetadata, compressIfNecessary,
        Process.bind_assoc, Process.bind_assoc, alive_getState_bind, part,
        Process.bind_assoc]
      congr 1
      funext disk
      split_ifs with inDirectory
      · rw [Process.bind_assoc]
        rfl
      · rfl
  | packing =>
      rw [rest, part, Process.bind_assoc,
        alive_bind machine server fileToSendPath fuel]
      exact bind_result_congr _ (fun _ => rfl) fun _ => rfl
  | describing entry isCompressed =>
      rw [rest, rest.sendMetadata, alive_withEntry_getState_bind, part,
        Process.bind_assoc]
      congr 1
      funext disk
      rw [metadataMessage]
      cases createSendMessage machine.digest disk.tree
          machine.workingDirectory entry.path isCompressed with
      | error exception =>
          exact alive_failed machine server fileToSendPath fuel entry _ _
      | ok json =>
          show alive (destroy machine) (withEntry machine entry
            (ofExcept (orJsonException (machine.library.dump json)) >>= _) >>=
              _) =
            rest machine server fileToSendPath fuel
              (afterDescribing entry
                (orJsonException (machine.library.dump json)))
          cases orJsonException (machine.library.dump json) with
          | error exception =>
              exact alive_failed machine server fileToSendPath fuel entry _ _
          | ok message => rfl
  | announcing entry message =>
      rw [rest, part, Process.bind_assoc, ← Process.bind_assoc,
        alive_withEntry_bind machine server fileToSendPath fuel]
      exact bind_result_congr _ (fun _ => rfl) fun _ => rfl
  | waiting entry =>
      rw [rest, part, Process.bind_assoc, sendFSEntry,
        alive_withEntry_bind machine server fileToSendPath fuel]
      exact bind_result_congr _ (fun _ => rfl) fun _ => rfl
  | opening entry =>
      rw [rest, alive_withEntry_getState_bind, part, Process.bind_assoc]
      congr 1
      funext disk
      cases regularFile disk.tree machine.workingDirectory entry.path with
      | none =>
          exact alive_failed machine server fileToSendPath fuel entry _ _
      | some content => rfl
  | sending entry content =>
      rw [rest, part, Process.bind_assoc,
        alive_withEntry machine server fileToSendPath fuel]
      congr 1
      funext result
      cases result with
      | ok value =>
          rcases entry with ⟨path, _ | _⟩
          · rfl
          · rfl
      | error exception => rfl
  | dropping entry ending =>
      rw [part, Process.bind_assoc]
      rfl
  | destroying ending =>
      rw [part, Process.bind_assoc]
      rfl
  | ended ending => rfl

/-- The program of a sender in stages. -/
def staged : Staged Peer Exception Disk Unit SendStage where
  part := part machine server fileToSendPath fuel
  rest := rest machine server fileToSendPath fuel
  rest_eq := rest_eq machine server fileToSendPath fuel

end DropFile.Client.SendStages
