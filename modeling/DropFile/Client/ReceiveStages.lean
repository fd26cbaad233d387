import DropFile.Client.RunDropFileClient
import DropFile.General.Stages

/-!
# The stages of a receiving client

The program of a receiver, cut where it touches the disk.  Unpacking the
archive is one part here, although it touches the disk many times.
-/

namespace DropFile.Client.ReceiveStages

open DropFile.General.Processes
open DropFile.General.Processes.Process
open DropFile.General.PathNames
open DropFile.General.Stages
open DropFile.Streams
open DropFile.FileSystem
open DropFile.Socket
open DropFile.JsonObjects
open DropFile.InitSessionMessage
open DropFile.Client.LiveUnpacking
open DropFile.Client.DropFileReceiveClient
open DropFile.Client.RunDropFileClient

/-- What a receiver knows of the file that is coming. -/
structure Incoming where
  serverResponse : Json
  path : PathName
  isCompressed : Bool
  expectedBytes : Nat

/-- Where a receiver is in its program. -/
inductive ReceiveStage where
  /-- In the constructor, before the old directory is removed. -/
  | clearing
  /-- In the constructor, before the new directory is created. -/
  | making
  /-- Before the metadata is requested. -/
  | requesting
  /-- Before the metadata is checked. -/
  | checking (received : Bytes)
  /-- Before the user is asked. -/
  | confirming (serverResponse : Json)
  /-- Before it is asked whether the path is free. -/
  | testing (incoming : Incoming)
  /-- Before the file is opened. -/
  | opening (incoming : Incoming)
  /-- In the loop of `receiveFileImpl`, with fuel for what is left of it. -/
  | receiving (incoming : Incoming) (totalTransferredBytes fuel : Nat)
  /-- Before the last `ACK`. -/
  | acknowledging (incoming : Incoming)
  | hashing (incoming : Incoming) (expectedFileHash : Bytes)
  | unpacking (incoming : Incoming)
  /-- Before the archive is removed. -/
  | removing (incoming : Incoming)
  /-- Before the destructor of the client. -/
  | destroying (ending : Ending)
  | ended (ending : Ending)

variable {Peer : Type} (machine : Machine) (server : Peer)
variable (interactionStream receiveCode : Bytes) (fuel : Nat)

/-- What `receiveFile` reads from the metadata when the user has agreed. -/
def readIncoming (serverResponse : Json) : ReceiverProcess Peer Incoming := do
  let filename ←
    ofExcept (machine.library.stringAt serverResponse filenameKey)
  let isCompressed ←
    ofExcept (machine.library.boolAt serverResponse isCompressedKey)
  let expectedBytes ←
    ofExcept (machine.library.sizeAt serverResponse fileSizeKey)
  pure ⟨serverResponse, receivePath machine isCompressed filename,
    isCompressed, expectedBytes⟩

def afterChecking : Except Exception Json → ReceiveStage
  | .ok serverResponse => .confirming serverResponse
  | .error exception => .destroying (.error exception)

/-- The stage that follows when the client is destroyed on failure. -/
def orDestroying {α : Type} (next : α → ReceiveStage) :
    Except Exception α → ReceiverProcess Peer ReceiveStage :=
  resume (fun exception => pure (.destroying (.error exception)))
    fun value => pure (next value)

/-- What a receiver does in one stage. -/
def part : ReceiveStage → ReceiverProcess Peer ReceiveStage
  | .clearing => do
      onDisk (removeAll machine.workingDirectory (receiverTmpDir machine))
      pure .making
  | .making =>
      attempt (onDisk (createDirectories machine.workingDirectory
        (receiverTmpDir machine))) >>=
      resume (fun exception => pure (.ended (.error exception)))
        fun _ => pure .requesting
  | .requesting =>
      attempt (do
        let message ←
          ofExcept (orJsonException
            (machine.library.dump (createReceiveMessage receiveCode)))
        send server message
        receive server) >>=
      orDestroying .checking
  | .checking received => do
      let receiving ← getState
      pure (afterChecking
        (checkResponse machine receiving.disk.tree received))
  | .confirming serverResponse =>
      attempt (do
        getUserConfirmation server (extractConfirmation interactionStream)
        readIncoming machine serverResponse) >>=
      orDestroying .testing
  | .testing incoming => do
      let receiving ← getState
      if fileExists receiving.disk.tree machine.workingDirectory
          incoming.path then
        pure (.destroying (.error (dropFileReceiveException
          (ascii "Path " ++ incoming.path ++ ascii " already exists!"))))
      else
        pure (.opening incoming)
  | .opening incoming => do
      openReceivedFile machine incoming.path
      pure (.receiving incoming 0 fuel)
  | .receiving _ _ 0 => .outOfFuel
  | .receiving incoming totalTransferredBytes (left + 1) =>
      attempt (receivePass server incoming.expectedBytes
        totalTransferredBytes) >>=
      orDestroying (Sum.elim (fun later => .receiving incoming later left)
        fun _ => .acknowledging incoming)
  | .acknowledging incoming =>
      attempt (do
        sendACK server
        ofExcept (machine.library.stringAt incoming.serverResponse
          fileHashKey)) >>=
      orDestroying (.hashing incoming)
  | .hashing incoming expectedFileHash =>
      attempt (validateFileHash machine incoming.path expectedFileHash) >>=
      orDestroying fun _ =>
        if incoming.isCompressed then .unpacking incoming
        else .destroying (.ok ())
  | .unpacking incoming =>
      attempt (do
        modifyState fun receiving =>
          { receiving with unpacking := some incoming.path }
        onDisk (unpackArchive machine.zstd machine.buffering
          machine.workingDirectory (currentPath machine.workingDirectory)
          incoming.path fuel)) >>=
      orDestroying fun _ => .removing incoming
  | .removing incoming =>
      attempt (onDisk (remove machine.workingDirectory incoming.path)) >>=
      orDestroying fun _ => .destroying (.ok ())
  | .destroying ending => do
      DropFileReceiveClient.destroy machine
      pure (.ended ending)
  | .ended ending => pure (.ended ending)

/-- What is left of `receiveFile` when the file has been received. -/
def afterReceived (incoming : Incoming) : ReceiverProcess Peer Unit := do
  let expectedFileHash ←
    ofExcept (machine.library.stringAt incoming.serverResponse fileHashKey)
  validateFileHash machine incoming.path expectedFileHash
  handleCompressedFile machine incoming.isCompressed incoming.path fuel

/-- What a receiver has left to do from a stage on. -/
def rest : ReceiveStage → ReceiverProcess Peer Unit
  | .clearing =>
      runReceiveClient machine server interactionStream receiveCode fuel
  | .making => do
      onDisk (createDirectories machine.workingDirectory
        (receiverTmpDir machine))
      alive (destroy machine) (receiveFile machine server
        (extractConfirmation interactionStream) receiveCode fuel)
  | .requesting =>
      alive (destroy machine) (receiveFile machine server
        (extractConfirmation interactionStream) receiveCode fuel)
  | .checking received =>
      alive (destroy machine) do
        let receiving ← getState
        let serverResponse ←
          ofExcept (checkResponse machine receiving.disk.tree received)
        getUserConfirmation server (extractConfirmation interactionStream)
        receiveConfirmed machine server serverResponse fuel
  | .confirming serverResponse =>
      alive (destroy machine) do
        getUserConfirmation server (extractConfirmation interactionStream)
        receiveConfirmed machine server serverResponse fuel
  | .testing incoming =>
      alive (destroy machine) do
        receiveFileImpl machine server incoming.path incoming.expectedBytes
          fuel
        afterReceived machine fuel incoming
  | .opening incoming =>
      alive (destroy machine) do
        openReceivedFile machine incoming.path
        receiveContent server incoming.expectedBytes fuel 0
        sendACK server
        afterReceived machine fuel incoming
  | .receiving incoming totalTransferredBytes left =>
      alive (destroy machine) do
        receiveContent server incoming.expectedBytes left
          totalTransferredBytes
        sendACK server
        afterReceived machine fuel incoming
  | .acknowledging incoming =>
      alive (destroy machine) do
        sendACK server
        afterReceived machine fuel incoming
  | .hashing incoming expectedFileHash =>
      alive (destroy machine) do
        validateFileHash machine incoming.path expectedFileHash
        handleCompressedFile machine incoming.isCompressed incoming.path
          fuel
  | .unpacking incoming =>
      alive (destroy machine)
        (handleCompressedFile machine true incoming.path fuel)
  | .removing incoming =>
      alive (destroy machine)
        (onDisk (remove machine.workingDirectory incoming.path))
  | .destroying ending => do
      DropFileReceiveClient.destroy machine
      ofExcept ending
  | .ended ending => ofExcept ending

/-! ## The stages are the program -/

variable {α : Type}

/-- A failure leads to the destructor. -/
theorem alive_bind
    (process : ReceiverProcess Peer α)
    (next : α → ReceiverProcess Peer Unit) :
    alive (destroy machine) (process >>= next) =
      attempt process >>=
        resume
          (fun exception =>
            rest machine server interactionStream receiveCode fuel
              (.destroying (.error exception)))
          fun value => alive (destroy machine) (next value) := by
  rw [alive, handle_bind, Process.bind_assoc]
  exact bind_result_congr _ (fun _ => rfl) fun _ => rfl

theorem alive_getState_bind
    (next : Receiving → ReceiverProcess Peer Unit) :
    alive (destroy machine) (getState >>= next) =
      getState >>= fun receiving => alive (destroy machine) (next receiving) :=
  rfl

/-- An attempt, and a stage for what it returns. -/
theorem alive_bind_eq
    (process : ReceiverProcess Peer α)
    {onward : α → ReceiverProcess Peer Unit}
    {next : α → ReceiveStage}
    (leads : ∀ value, alive (destroy machine) (onward value) =
      rest machine server interactionStream receiveCode fuel
        (next value)) :
    alive (destroy machine) (process >>= onward) =
      (attempt process >>= orDestroying next) >>=
        rest machine server interactionStream receiveCode fuel := by
  rw [alive_bind machine server interactionStream receiveCode fuel,
    Process.bind_assoc]
  exact bind_result_congr _ leads fun _ => rfl

theorem receiveFile_eq :
    receiveFile machine server (extractConfirmation interactionStream)
        receiveCode fuel =
      (do
        let message ←
          ofExcept (orJsonException
            (machine.library.dump (createReceiveMessage receiveCode)))
        send server message
        receive server) >>= fun received => (do
      let receiving ← getState
      let serverResponse ←
        ofExcept (checkResponse machine receiving.disk.tree received)
      getUserConfirmation server (extractConfirmation interactionStream)
      receiveConfirmed machine server serverResponse fuel) := by
  rw [receiveFile]
  simp only [getServerResponse, Process.bind_assoc]

theorem receiveConfirmed_eq (serverResponse : Json) :
    receiveConfirmed machine server serverResponse fuel =
      readIncoming machine serverResponse >>= fun incoming => (do
        receiveFileImpl machine server incoming.path incoming.expectedBytes
          fuel
        afterReceived machine fuel incoming) := by
  simp only [receiveConfirmed, readIncoming, Process.bind_assoc]
  rfl

theorem rest_eq (stage : ReceiveStage) :
    rest machine server interactionStream receiveCode fuel stage =
      part machine server interactionStream receiveCode fuel stage >>=
        rest machine server interactionStream receiveCode fuel := by
  cases stage with
  | clearing => rfl
  | making =>
      rw [rest, part, Process.bind_assoc, bind_eq_attempt]
      exact bind_result_congr _ (fun _ => rfl) fun _ => rfl
  | requesting =>
      rw [rest, part, receiveFile_eq]
      apply alive_bind_eq
      intro received
      rfl
  | checking received =>
      rw [rest, alive_getState_bind, part, Process.bind_assoc]
      congr 1
      funext receiving
      cases checkResponse machine receiving.disk.tree received with
      | ok serverResponse => rfl
      | error exception => rfl
  | confirming serverResponse =>
      rw [rest, part, receiveConfirmed_eq, ← Process.bind_assoc]
      apply alive_bind_eq
      intro incoming
      rfl
  | testing incoming =>
      rw [rest, receiveFileImpl, Process.bind_assoc, alive_getState_bind,
        part, Process.bind_assoc]
      congr 1
      funext receiving
      split_ifs with present
      · rfl
      · simp only [Process.bind_assoc]
        rfl
  | opening incoming => rfl
  | receiving incoming totalTransferredBytes left =>
      cases left with
      | zero => rfl
      | succ left =>
          rw [rest, receiveContent, Process.loop, Process.bind_assoc, part]
          apply alive_bind_eq
          rintro (later | result)
          · rfl
          · rfl
  | acknowledging incoming =>
      rw [rest, part, afterReceived, ← Process.bind_assoc]
      apply alive_bind_eq
      intro expectedFileHash
      rfl
  | hashing incoming expectedFileHash =>
      rw [rest, part]
      apply alive_bind_eq
      intro _
      rw [handleCompressedFile]
      split_ifs
      · rfl
      · rfl
  | unpacking incoming =>
      rw [rest, part, handleCompressedFile, if_pos rfl,
        ← Process.bind_assoc]
      apply alive_bind_eq
      intro _
      rfl
  | removing incoming =>
      rw [rest, part, alive, handle_eq_attempt, Process.bind_assoc,
        Process.bind_assoc]
      exact bind_result_congr _ (fun _ => rfl) fun _ => rfl
  | destroying ending =>
      rw [part, Process.bind_assoc]
      rfl
  | ended ending => rfl

/-- The program of a receiver in stages. -/
def staged : Staged Peer Exception Receiving Unit ReceiveStage where
  part := part machine server interactionStream receiveCode fuel
  rest := rest machine server interactionStream receiveCode fuel
  rest_eq := rest_eq machine server interactionStream receiveCode fuel

end DropFile.Client.ReceiveStages
