import DropFile.FinishedTransfers
import DropFile.Server.EventLoopSafety

/-!
# Clients that connect at the same time

The network of the participants when the server is its event loop.  Clients
connect in any order, their first messages come in at the same time, and
connections are lost; the server still keeps the transfers apart, no content is
sent without consent, and no client that has returned has been deceived.
-/

namespace DropFile.ConcurrentClients

open DropFile.General.Processes.Process
open DropFile.General.Networks
open DropFile.General.Networks.Network
open DropFile.Streams
open DropFile.Socket
open DropFile.JsonObjects
open DropFile.SessionMessages
open DropFile.Client.FirstMessages
open DropFile.Client.ReceivedFiles (Fresh)
open DropFile.Server.Transfers
open DropFile.Server.Serving
open DropFile.Server.EventLoop
open DropFile.Parties
open DropFile.Parties.Participants
open DropFile.Consent
open DropFile.FinishedTransfers

variable {Sender Receiver Stranger : Type}
variable [DecidableEq Sender] [DecidableEq Receiver]
variable [DecidableEq Stranger]

/-- The connection that is served in a visit. -/
def connectionOf {Peer : Type} (visited : Visit Peer) : Connection Peer :=
  ⟨visited.client, visited.settings, visited.fuel⟩

section Gathering

variable (participants : Participants Sender Receiver Stranger)
variable (clientTimeout : Int)
variable (events : List (Event (Party Sender Receiver Stranger)))

/-- The program of each party, with the event loop for the server. -/
def eventProcess : (party : Party Sender Receiver Stranger) →
    SocketProcess (Party Sender Receiver Stranger) (State party) Unit
  | .server => run clientTimeout events fun _ => none
  | .sender name => participants.process (.sender name)
  | .receiver name => participants.process (.receiver name)
  | .stranger name => participants.process (.stranger name)

def eventNetwork :
    Network (Party Sender Receiver Stranger) Exception State
      (fun _ => Unit) :=
  { participants.network with
    process := eventProcess participants clientTimeout events }

/-- The loop accepts the clients that the participants' server visits. -/
def Accepts : Prop :=
  connections events = participants.visits.map connectionOf

end Gathering

section Runs

variable {library : JsonLibrary}
variable {participants : Participants Sender Receiver Stranger}
variable {clientTimeout : Int}
variable {events : List (Event (Party Sender Receiver Stranger))}

section Accepting

variable (agree : participants.Agree library)
variable (accepts : Accepts participants events)
include agree accepts

omit [DecidableEq Sender] [DecidableEq Receiver] [DecidableEq Stranger] in
theorem once_of_accepts :
    ((connections events).map Connection.client).Nodup := by
  rw [accepts, List.map_map]
  exact agree.apart

omit [DecidableEq Sender] [DecidableEq Receiver] [DecidableEq Stranger] in
/-- What holds of the visits holds of the connections. -/
theorem forall_connections
    {connection : Connection (Party Sender Receiver Stranger)}
    (isAccepted : connection ∈ connections events) :
    Sound library connection ∧
      ∀ attempt,
        FitsAnswer library (connection.settings.generateSessionID attempt) := by
  rw [accepts] at isAccepted
  rcases List.mem_map.1 isAccepted with ⟨visited, isVisit, rfl⟩
  exact ⟨⟨agree.server visited isVisit, agree.draws visited isVisit⟩,
    agree.answers visited isVisit⟩

end Accepting

theorem behaves_eventNetwork
    (strict : library.StrictContract)
    (agree : participants.Agree library)
    (accepts : Accepts participants events) :
    Behaves library participants
      (eventNetwork participants clientTimeout events) where
  server :=
    run_safe strict.toUtf8Contract clientTimeout events
      (once_of_accepts agree accepts)
      (fun _ isAccepted => (forall_connections agree accepts isAccepted).1)
      fun _ isAccepted => (forall_connections agree accepts isAccepted).2
  sender := (behaves_network strict agree).sender
  receiver := (behaves_network strict agree).receiver

theorem honors_eventNetwork
    (fresh : ∀ name, Fresh (participants.receiver name).receiving) :
    Honors participants (eventNetwork participants clientTimeout events) where
  sender := (honors_network fresh).sender
  receiver := (honors_network fresh).receiver

variable {network : Network (Party Sender Receiver Stranger) Exception State
  fun _ => Unit}
variable {visited : List (Party Sender Receiver Stranger)}
variable {transfers : List (Transfer library (FitsAnswer library)
  (Party Sender Receiver Stranger))}

omit [DecidableEq Sender] [DecidableEq Receiver] [DecidableEq Stranger] in
/-- A sender that keeps to its part sends content after consent only. -/
theorem consent_of_keeps
    {name : Sender}
    (strict : library.StrictContract)
    (agree : participants.Agree library)
    (consistent : Consistent visited transfers (network.view .server))
    (keeps : Keeps (participants.sender name).machine .server
      (network.view (.sender name))) :
    BeforeContent participants network name ∨
      HasConsent participants network transfers name := by
  cases keeps with
  | silent silent => exact Or.inl (Or.inl silent)
  | offers isOffer offered => exact Or.inl (Or.inr ⟨_, isOffer, offered⟩)
  | released isOffer released =>
      have offer := isOffer
      rcases isOffer with ⟨tree, filePath, isCompressed, json, creates, dumped⟩
      rw [agree.sender name] at dumped
      rcases create_of_dump_sendMessage strict creates dumped with
        ⟨created, isSend, nonempty⟩
      rcases confirmed_of_released consistent created isSend nonempty
          released with
        ⟨transfer, isTransfer, isSender, rfl, confirmed⟩
      exact Or.inr ⟨transfer, isTransfer, isSender, offer, confirmed⟩

end Runs

/-- A part of a first message arrives. -/
def hears (client : Couple) (size : Nat) : List (Event Couple) :=
  List.replicate size (.arrives client) ++ [.completes client]

theorem connections_append (first second : List (Event Couple)) :
    connections (first ++ second) =
      connections first ++ connections second :=
  List.flatMap_append

theorem connections_hears (client : Couple) (size : Nat) :
    connections (hears client size) = [] := by
  simp [connections, hears, Event.connections, List.flatMap_replicate]

/-- Both connect before one of them has sent anything. -/
def coupleEvents : List (Event Couple) :=
  [.accepts ⟨.sender (), Server.FirstRead.flatSettings, 4⟩,
    .accepts ⟨.receiver (), Server.FirstRead.flatSettings, 4⟩] ++
  hears (.sender ()) 8 ++ hears (.sender ()) abcOffer.length ++
  hears (.receiver ()) 8 ++ [.sweeps [(ascii "old-two-7", 0)]] ++
  hears (.receiver ()) requestText.length

theorem coupleEvents_accepts : Accepts couple coupleEvents := by
  simp only [Accepts, coupleEvents, connections_append, connections_hears]
  rfl

theorem exists_returned_coupleEvents :
    ∃ later, LossyRun (eventNetwork couple 60 coupleEvents) later ∧
      ∀ who, Returned who (later.process who) (later.state who) := by
  refine exists_returned_of_server rfl ?_ rfl (by decide +kernel)
  intro who isClient
  cases who with
  | server => exact absurd rfl isClient
  | sender name => rfl
  | receiver name => rfl
  | stranger name => rfl

end DropFile.ConcurrentClients
