import DropFile.Client.RunDropFileClient
import DropFile.General.Dialogues
import DropFile.Server.Serving

/-!
# Parties

A server with its clients: senders and receivers that run the client program,
and strangers that do anything.
-/

namespace DropFile.Parties

open DropFile.General.Processes.Process
open DropFile.General.Networks
open DropFile.General.Networks.Network
open DropFile.General.Dialogues
open DropFile.General.PathNames
open DropFile.Streams
open DropFile.FileSystem
open DropFile.Socket
open DropFile.JsonObjects
open DropFile.Client
open DropFile.Client.DropFileReceiveClient
open DropFile.Client.DropFileSendClient
open DropFile.Client.RunDropFileClient
open DropFile.Server.SessionsManager
open DropFile.Server.ServerSideClientSession
open DropFile.Server.FirstRead
open DropFile.Server.Serving

variable {Sender Receiver Stranger : Type}

inductive Party (Sender Receiver Stranger : Type) where
  | server
  | sender (name : Sender)
  | receiver (name : Receiver)
  | stranger (name : Stranger)
deriving DecidableEq

/-- A client that sends. -/
structure SendingClient where
  machine : DropFileSendClient.Machine
  fileToSendPath : PathName
  fuel : Nat
  disk : Disk

/-- A client that receives. -/
structure ReceivingClient where
  machine : DropFileReceiveClient.Machine
  interactionStream : Bytes
  receiveCode : Bytes
  fuel : Nat
  receiving : Receiving

structure Participants (Sender Receiver Stranger : Type) where
  visits : List (Visit (Party Sender Receiver Stranger))
  sender : Sender → SendingClient
  receiver : Receiver → ReceivingClient
  stranger : Stranger →
    SocketProcess (Party Sender Receiver Stranger) Unit Unit

namespace Participants

variable (participants : Participants Sender Receiver Stranger)

/-- The state of a party. -/
abbrev State : Party Sender Receiver Stranger → Type
  | .server => SendersSessions (Party Sender Receiver Stranger) Json
  | .sender _ => Disk
  | .receiver _ => Receiving
  | .stranger _ => Unit

/-- What a party runs. -/
def process : (party : Party Sender Receiver Stranger) →
    SocketProcess (Party Sender Receiver Stranger) (State party) Unit
  | .server => serve participants.visits
  | .sender name =>
      let client := participants.sender name
      runSendClient client.machine .server client.fileToSendPath client.fuel
  | .receiver name =>
      let client := participants.receiver name
      runReceiveClient client.machine .server client.interactionStream
        client.receiveCode client.fuel
  | .stranger name => participants.stranger name

def initialState :
    (party : Party Sender Receiver Stranger) → State party
  | .server => ∅
  | .sender name => (participants.sender name).disk
  | .receiver name => (participants.receiver name).receiving
  | .stranger _ => ()

/-- Before anything has happened. -/
def network :
    Network (Party Sender Receiver Stranger) Exception State
      (fun _ => Unit) where
  process := participants.process
  state := participants.initialState
  sent _ := silence
  consumed _ _ := 0
  bounded _ _ := Nat.zero_le _

theorem network_view (party : Party Sender Receiver Stranger) :
    participants.network.view party =
      ⟨participants.initialState party, silence, silence⟩ :=
  rfl

section Dialogues

variable [DecidableEq Sender] [DecidableEq Receiver]
  [DecidableEq Stranger]
variable {participants}

/-- Parties that can take their turns hold the dialogue. -/
theorem exists_dialogue
    {party peer : Party Sender Receiver Stranger}
    {messages : List (Party Sender Receiver Stranger × Bytes)}
    {ends : (who : Party Sender Receiver Stranger) →
      SocketProcess (Party Sender Receiver Stranger) (State who) Unit →
        State who → Prop}
    (alternates : Alternates party messages)
    (converses : ∀ who, Converses (ends who)
      (turnsOf who party peer [] messages) (participants.process who)
      (participants.initialState who)) :
    ∃ network, LossyRun participants.network network ∧
      (∀ who, ends who (network.process who) (network.state who)) ∧
      ∀ who other, network.sent who other =
        saidBy who other party messages := by
  have silent : participants.network.Turn party peer [] := by
    intro reader
    rw [only_nil, ite_self]
    rfl
  rcases reaches_end_of_dialogue silent alternates converses with
    ⟨network, reaches, ends, said, -⟩
  refine ⟨network, lossyRun_of_reaches reaches, ends, ?_⟩
  intro who other
  rw [said]
  rfl

end Dialogues

/-- The answer with the code goes into one frame. -/
def FitsAnswer (library : JsonLibrary) (code : SessionCode) : Prop :=
  ∀ answer, library.dump (codeResponse code) = .ok answer →
    answer.length ≤ bufferSize

/--
Everybody but the strangers has the same library, and the server visits every
connection once.
-/
structure Agree (library : JsonLibrary) : Prop where
  server : ∀ visit ∈ participants.visits, visit.settings.library = library
  sender : ∀ name,
    (participants.sender name).machine.library = library
  receiver : ∀ name,
    (participants.receiver name).machine.library = library
  draws : ∀ visit ∈ participants.visits, DrawsCodes visit.settings
  answers : ∀ visit ∈ participants.visits, ∀ attempt,
    FitsAnswer library (visit.settings.generateSessionID attempt)
  apart : (participants.visits.map Visit.client).Nodup

end Participants

end DropFile.Parties
