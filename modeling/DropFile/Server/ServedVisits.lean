import DropFile.General.Dialogues
import DropFile.ContentLoops
import DropFile.Server.Serving

/-!
# Served visits

What the server does, turn by turn, in the visit of a client that does what it
is meant to do: it registers a sender, or it takes a receiver and its sender
through their transfer.
-/

namespace DropFile.Server.ServedVisits

open DropFile.General.Dialogues
open DropFile.General.Processes
open DropFile.General.Processes.Process
open DropFile.Streams
open DropFile.Socket
open DropFile.ContentLoops
open DropFile.JsonObjects
open DropFile.InitSessionMessage
open DropFile.SessionMessages
open DropFile.Server.SessionsManager
open DropFile.Server.ServerSideClientSession
open DropFile.Server.Serving

variable {Peer : Type} [DecidableEq Peer]

/-- A first message that is accepted is handled without an exception. -/
theorem handleFirstRead_plays
    {settings : Settings} {self : Peer} {fuel : Nat} {text action : Bytes}
    {json : Json} {process : SessionProcess Peer Unit}
    {state later : SendersSessions Peer Json} {outputs : Traffic Peer}
    (accepts : create settings.library text = .ok json)
    (isAction : json.find actionKey = some (.string action))
    (registers : Plays (registerSession settings self json fuel) state
      silence outputs process later) :
    Plays (handleFirstRead settings self fuel text) state silence outputs
      (Process.handle (catchFirstRead self) process) later := by
  rw [handleFirstRead, accepts]
  apply Plays.handle
  apply (Plays.rest (.done json) _).andThen
    (_ : Plays _ _ silence outputs _ _)
  rw [stringAt_of_find isAction]
  exact (Plays.rest (.done action) _).andThen registers

/-- The rest of a visit, with the visits after it. -/
def visiting (client : Peer) (rest : List (Visit Peer))
    (process : SessionProcess Peer Unit) : SessionProcess Peer Unit := do
  Process.handle (catchFirstRead client) process
  serve rest

/-- A visit after which the server may still be busy with the client. -/
theorem visit_plays
    (visit : Visit Peer) (rest : List (Visit Peer))
    {text action : Bytes} {json : Json} {process : SessionProcess Peer Unit}
    {state later : SendersSessions Peer Json} {outputs : Traffic Peer}
    (fits : text.length ≤ maxFirstMessageSize)
    (accepts : create visit.settings.library text = .ok json)
    (isAction : json.find actionKey = some (.string action))
    (registers : Plays
      (registerSession visit.settings visit.client json visit.fuel)
      (terminateTimeoutClients visit.clientTimeout visit.sweep state)
      silence outputs process later) :
    Plays (serve (visit :: rest)) state (only visit.client (frame text))
      outputs (visiting visit.client rest process) later := by
  rw [serve]
  apply Plays.update
  have reads := @asyncReadMessage_plays Peer _ _
    (terminateTimeoutClients visit.clientTimeout visit.sweep state)
    visit.client _ text (handleFirstRead visit.settings visit.client
      visit.fuel) (by decide) fits
  have handles := handleFirstRead_plays accepts isAction registers
  have plays := (reads.trans handles).bind fun _ => serve rest
  rw [followedBy_silence, silence_followedBy] at plays
  exact plays

theorem visiting_plays
    {process later : SessionProcess Peer Unit}
    {table : SendersSessions Peer Json} {inputs outputs : Traffic Peer}
    (plays : Plays process table inputs outputs later table)
    (client : Peer) (rest : List (Visit Peer)) :
    Plays (visiting client rest process) table inputs outputs
      (visiting client rest later) table :=
  (plays.handle (catchFirstRead client)).bind fun _ => serve rest

/-- The table when a visit's handler runs. -/
def swept (visit : Visit Peer) (table : SendersSessions Peer Json) :
    SendersSessions Peer Json :=
  terminateTimeoutClients visit.clientTimeout visit.sweep table

/-- The code that a visit draws first. -/
def code (visit : Visit Peer) : SessionCode :=
  visit.settings.generateSessionID 0

/-! ## A sender is registered -/

/-- The visit of a sender that can be registered. -/
structure Registers (visit : Visit Peer) (json : Json)
    (message answer : Bytes) : Prop where
  accepted : create visit.settings.library message = .ok json
  isSend : json.find actionKey = some (.string (ascii "send"))
  messageFits : message.length ≤ maxFirstMessageSize
  alive : visit.settings.managerAlive = true
  dumpsAnswer :
    visit.settings.library.dump (codeResponse (code visit)) = .ok answer
  answerFilled : answer ≠ []
  answerFits : answer.length ≤ bufferSize
  fuel : 0 < visit.fuel

theorem Registers.registerSession_plays
    {visit : Visit Peer} {json : Json} {message answer : Bytes}
    {table : SendersSessions Peer Json}
    (registers : Registers visit json message answer)
    (free : code visit ∉ table) :
    Plays (registerSession visit.settings visit.client json visit.fuel)
      table silence (only visit.client (frame answer)) (.done ())
      (table.insert (code visit)
        ⟨visit.client, json, visit.settings.now⟩) := by
  rcases Nat.exists_eq_add_one.2 registers.fuel with ⟨fuel, isFuel⟩
  have registered := registerSender_run visit.settings.now visit.client json
    fuel free
  have answers := @send_plays_frame Peer _ _
    (table.insert (code visit) ⟨visit.client, json, visit.settings.now⟩)
    visit.client answer registers.answerFilled registers.answerFits
  rw [registerSession, if_pos registers.alive,
    index_of_find visit.settings.library registers.isSend, isFuel]
  apply (Plays.rest (.done (Json.string (ascii "send"))) _).andThen
    (_ : Plays _ _ silence (only visit.client (frame answer)) _ _)
  rw [if_pos (by simp [Json.equals])]
  apply (Plays.ofProgram registered).andThen
    (_ : Plays _ _ silence (only visit.client (frame answer)) _ _)
  rw [show visit.settings.library.dump
    (codeResponse (visit.settings.generateSessionID 0)) = .ok answer from
      registers.dumpsAnswer]
  exact (Plays.rest (.done answer) _).andThen answers

theorem serve_registers
    {visit : Visit Peer} {json : Json} {message answer : Bytes}
    {table : SendersSessions Peer Json}
    (registers : Registers visit json message answer)
    (free : code visit ∉ swept visit table)
    (rest : List (Visit Peer)) :
    Plays (serve (visit :: rest)) table
      (only visit.client (frame message)) (only visit.client (frame answer))
      (serve rest)
      ((swept visit table).insert (code visit)
        ⟨visit.client, json, visit.settings.now⟩) :=
  visit_plays visit rest registers.messageFits registers.accepted
    registers.isSend (registers.registerSession_plays free)

/-! ## A receiver gets its file -/

section Fetching

variable (settings : Settings) (receiver sender : Peer) (json : Json)

/-- The end of a transfer. -/
def finishTransfer : SessionProcess Peer Unit := do
  receiveACK receiver
  sendACK sender
  let _ ← ofExcept (settings.library.stringAt json filenameKey)
  pure ()

/-- The transfer when both clients have agreed. -/
def relayFile (expectedBytes fuel : Nat) : SessionProcess Peer Unit := do
  relay receiver sender expectedBytes fuel 0
  finishTransfer settings receiver sender json

/-- The transfer when the receiver has the metadata. -/
def awaitConfirmation (fuel : Nat) : SessionProcess Peer Unit := do
  receiveACK receiver
  sendACK sender
  let _ ← ofExcept (settings.library.stringAt json filenameKey)
  let expectedBytes ← ofExcept (settings.library.sizeAt json fileSizeKey)
  relayFile settings receiver sender json expectedBytes fuel

variable {settings json} in
theorem finishTransfer_plays
    {filename : Bytes}
    (read : settings.library.stringAt json filenameKey = .ok filename)
    (table : SendersSessions Peer Json) :
    Plays (finishTransfer settings receiver sender json) table
      (only receiver (frame ack)) (only sender (frame ack)) (.done ())
      table := by
  rw [finishTransfer, read]
  apply (receiveACK_plays receiver).andThen
    (_ : Plays _ _ silence (only sender (frame ack)) _ _)
  exact (sendACK_plays sender).andThen_eq rfl

end Fetching

/-- The visit of a receiver whose file is as its sender says. -/
structure Fetches (visit : Visit Peer) (json : Json) (key : SessionCode)
    (message request : Bytes) (pieces : List Bytes) : Prop where
  accepted :
    create visit.settings.library request = .ok (createReceiveMessage key)
  requestFits : request.length ≤ maxFirstMessageSize
  alive : visit.settings.managerAlive = true
  dumps : visit.settings.library.dump json = .ok message
  messageFilled : message ≠ []
  messageFits : message.length ≤ bufferSize
  filenameRead : ∃ filename,
    visit.settings.library.stringAt json filenameKey = .ok filename
  fileSizeRead : visit.settings.library.sizeAt json fileSizeKey =
    .ok pieces.flatten.length
  isSize : pieces.flatten.length < sizeModulus
  filled : ∀ piece ∈ pieces, piece ≠ []
  pieceFits : ∀ piece ∈ pieces, piece.length ≤ bufferSize
  fuel : pieces.flatten.length < visit.fuel

namespace Fetches

variable {visit : Visit Peer} {sender : Peer} {json : Json}
variable {key : SessionCode} {message request : Bytes}
variable {pieces : List Bytes} {table : SendersSessions Peer Json}
variable (fetches : Fetches visit json key message request pieces)
include fetches

section Stages

variable (sender table)

theorem awaitConfirmation_plays :
    Plays
      (awaitConfirmation visit.settings visit.client sender json visit.fuel)
      table (only visit.client (frame ack)) (only sender (frame ack))
      (relayFile visit.settings visit.client sender json
        pieces.flatten.length visit.fuel) table := by
  rcases fetches.filenameRead with ⟨filename, read⟩
  rw [awaitConfirmation, read, fetches.fileSizeRead]
  apply (receiveACK_plays visit.client).andThen
    (_ : Plays _ _ silence (only sender (frame ack)) _ _)
  exact (sendACK_plays sender).andThen_eq rfl

theorem relayFile_plays :
    Plays
      (relayFile visit.settings visit.client sender json
        pieces.flatten.length visit.fuel) table
      (only sender (frames pieces)) (only visit.client (frames pieces))
      (finishTransfer visit.settings visit.client sender json) table := by
  have hands : ∀ piece : Bytes, piece ≠ [] → piece.length ≤ bufferSize →
      ∀ state, Plays (send visit.client piece : SessionProcess Peer Unit)
        state silence (only visit.client (frame piece)) (.done ()) state :=
    fun piece filled fits _ => send_plays_frame visit.client filled fits
  have relays := contentLoop_plays sender hands fetches.isSize table
    fetches.filled fetches.pieceFits (by rw [Nat.zero_add])
    (lt_of_pieces fetches.filled rfl fetches.fuel)
  rw [allOutputs_frame, List.foldl_fixed, ← relay_eq] at relays
  exact relays.bind _

end Stages

theorem registerSession_plays
    {time : Int}
    (found : (swept visit table).lookup key = some ⟨sender, json, time⟩) :
    Plays
      (registerSession visit.settings visit.client
        (createReceiveMessage key) visit.fuel)
      (swept visit table) silence (only visit.client (frame message))
      (awaitConfirmation visit.settings visit.client sender json visit.fuel)
      ((swept visit table).erase key) := by
  have members := find_createReceiveMessage key
  have sends := @send_plays_frame Peer _ _
    ((swept visit table).erase key) visit.client message
    fetches.messageFilled fetches.messageFits
  have announces : Plays
      (receiveFile visit.settings visit.client sender json visit.fuel)
      ((swept visit table).erase key) silence
      (only visit.client (frame message))
      (awaitConfirmation visit.settings visit.client sender json visit.fuel)
      ((swept visit table).erase key) := by
    rw [receiveFile, awaitConfirmation, fetches.dumps]
    apply (Plays.rest (.done message) _).andThen
      (_ : Plays _ _ silence (only visit.client (frame message)) _ _)
    exact sends.bind _
  rw [registerSession, if_pos fetches.alive,
    index_of_find visit.settings.library members.1]
  apply (Plays.rest (.done (Json.string (ascii "receive"))) _).andThen
    (_ : Plays _ _ silence (only visit.client (frame message)) _ _)
  rw [if_neg (by decide), stringAt_of_find members.2]
  apply (Plays.rest (.done key) _).andThen
    (_ : Plays _ _ silence (only visit.client (frame message)) _ _)
  exact (Plays.ofProgram (getSenderWithMetadata_of_lookup found)).andThen
    announces

/-- The first three turns of the server in a transfer. -/
theorem serve_relays
    {time : Int}
    (found : (swept visit table).lookup key = some ⟨sender, json, time⟩)
    {rest : List (Visit Peer)} {turns : List (TurnTaken Peer)}
    {ends : SessionProcess Peer Unit → SendersSessions Peer Json → Prop}
    (continues : Converses ends turns
      (visiting visit.client rest
        (finishTransfer visit.settings visit.client sender json))
      ((swept visit table).erase key)) :
    Converses ends
      (⟨visit.client, frame request, visit.client, frame message⟩ ::
        ⟨visit.client, frame ack, sender, frame ack⟩ ::
        ⟨sender, frames pieces, visit.client, frames pieces⟩ :: turns)
      (serve (visit :: rest)) table := by
  have asks := visit_plays visit rest fetches.requestFits fetches.accepted
    (find_createReceiveMessage key).1 (fetches.registerSession_plays found)
  have confirmed := visiting_plays
    (fetches.awaitConfirmation_plays sender ((swept visit table).erase key))
    visit.client rest
  have relayed := visiting_plays
    (fetches.relayFile_plays sender ((swept visit table).erase key))
    visit.client rest
  exact ⟨_, _, asks, _, _, confirmed, _, _, relayed, continues⟩

/-- All four of them. -/
theorem serve_converses
    {time : Int}
    (found : (swept visit table).lookup key = some ⟨sender, json, time⟩)
    {rest : List (Visit Peer)} {turns : List (TurnTaken Peer)}
    {ends : SessionProcess Peer Unit → SendersSessions Peer Json → Prop}
    (continues : Converses ends turns (serve rest)
      ((swept visit table).erase key)) :
    Converses ends
      (⟨visit.client, frame request, visit.client, frame message⟩ ::
        ⟨visit.client, frame ack, sender, frame ack⟩ ::
        ⟨sender, frames pieces, visit.client, frames pieces⟩ ::
        ⟨visit.client, frame ack, sender, frame ack⟩ :: turns)
      (serve (visit :: rest)) table := by
  rcases fetches.filenameRead with ⟨filename, read⟩
  have finished := visiting_plays
    (finishTransfer_plays visit.client sender read
      ((swept visit table).erase key))
    visit.client rest
  exact fetches.serve_relays found ⟨_, _, finished, continues⟩

end Fetches

end DropFile.Server.ServedVisits
