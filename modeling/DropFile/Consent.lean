import DropFile.Client.FirstMessages
import DropFile.Client.ReceivedFiles
import DropFile.Client.SendLoop
import DropFile.Parties
import Mathlib.Data.Nat.Digits.Defs

/-!
# Consent

No file leaves a sender before a receiver with the code of this sender has
agreed, and nobody but this receiver gets anything of it.
-/

namespace DropFile.Consent

open DropFile.General.Processes.Process
open DropFile.General.Networks
open DropFile.General.Networks.Network
open DropFile.General.Dialogues
open DropFile.Streams
open DropFile.Socket
open DropFile.Framing
open DropFile.JsonObjects
open DropFile.InitSessionMessage
open DropFile.SessionMessages
open DropFile.Client.DropFileReceiveClient
open DropFile.Client.FirstMessages
open DropFile.Client.RunDropFileClient
open DropFile.Server.ServerSideClientSession
open DropFile.Server.Transfers
open DropFile.Server.Serving
open DropFile.Parties
open DropFile.Parties.Participants

variable {Sender Receiver Stranger : Type}

/-! ## Answers of the server -/

theorem tooLargeText_fits
    {messageSize : Nat}
    (small : messageSize < sizeModulus) :
    (tooLargeText messageSize maxFirstMessageSize).length ≤
      bufferSize := by
  have digits : (toString messageSize).length ≤ 20 := by
    apply Nat.repr_length _ _ (by decide)
    exact small.trans (by decide)
  have others :
      (toString "Tried to send ").length +
        (toString " bytes, which is more than allowed (").length +
        (toString maxFirstMessageSize).length +
        (toString ").").length ≤ 100 := by
    decide +kernel
  have room : 120 ≤ bufferSize := by
    decide
  rw [tooLargeText, ascii_length]
  simp only [String.length_append]
  omega

variable {library : JsonLibrary} {received sent : Bytes}

/-- A first message that the server has heard is the one that was sent. -/
theorem eq_of_heard
    {first message more : Bytes}
    (fits : first.length ≤ maxFirstMessageSize)
    (nonempty : message ≠ [])
    (hears : frame first <+: received)
    (heard : received <+: frames (chunks message) ++ more) :
    message = first :=
  eq_of_prefix_chunks (Nat.lt_of_le_of_lt fits (by decide)) nonempty
    (hears.trans heard)

/-- A client whose message is accepted gets a single answer. -/
theorem singleAnswer_of_ownAnswer
    {message more answer : Bytes} {json : Json}
    (created : create library message = .ok json)
    (nonempty : message ≠ [])
    (heard : received <+: frames (chunks message) ++ more)
    (own : OwnAnswer library (FitsAnswer library) received answer)
    (isPart : sent <+: frames (chunks answer)) :
    SingleAnswer sent := by
  cases own with
  | unavailable => exact singleAnswer_of_chunks (by decide) isPart
  | tooLarge small =>
      exact singleAnswer_of_chunks (tooLargeText_fits small) isPart
  | @refused first error refuses fits isFirst =>
      have same := eq_of_heard fits nonempty isFirst heard
      rw [same, refuses] at created
      cases created
  | unknown => exact singleAnswer_of_chunks (by decide) isPart
  | registered fits dumped =>
      exact singleAnswer_of_chunks (fits _ dumped) isPart

/-! ## One moment -/

section Moments

variable {participants : Participants Sender Receiver Stranger}
variable {network : Network (Party Sender Receiver Stranger) Exception State
  fun _ => Unit}
variable {visited : List (Party Sender Receiver Stranger)}
variable {transfers : List (Transfer library (FitsAnswer library)
  (Party Sender Receiver Stranger))}

/-- The server has heard a part of what a client has sent to it. -/
theorem heard_of_sent
    (network : Network (Party Sender Receiver Stranger) Exception State
      fun _ => Unit)
    (party : Party Sender Receiver Stranger) :
    (network.view .server).received party <+:
      network.sent party .server :=
  network.prefix_sent .server party

/-- A sender that is released has got the confirmation of its receiver. -/
theorem confirmed_of_released
    {name : Sender} {message : Bytes} {json : Json}
    (consistent : Consistent visited transfers (network.view .server))
    (created : create library message = .ok json)
    (isSend : json.find actionKey = some (.string (ascii "send")))
    (nonempty : message ≠ [])
    (released : Released .server message (network.view (.sender name))) :
    ∃ transfer ∈ transfers, transfer.sender.client = .sender name ∧
      transfer.sender.message = message ∧
      Confirmed transfer (network.view .server) := by
  rcases released.offered with ⟨more, whole⟩
  have heard : (network.view .server).received (.sender name) <+:
      frames (chunks message) ++ more := by
    rw [whole]
    exact heard_of_sent network (.sender name)
  have notSingle : ¬ SingleAnswer ((network.view .server).sent
      (.sender name)) := by
    intro single
    exact released.answered
      (single.of_prefix (network.prefix_sent (.sender name) .server))
  by_cases isParty : (.sender name : Party Sender Receiver Stranger) ∈
      partiesOf transfers
  · rcases List.mem_flatMap.1 isParty with ⟨transfer, isTransfer, isParty⟩
    have proceeds := consistent.proceeds transfer isTransfer
    rcases List.mem_pair.1 isParty with isSender | isReceiver
    · have announced := proceeds.announced
      rw [← isSender] at announced
      have same := eq_of_heard transfer.sender.fits nonempty announced heard
      rcases proceeds.stage with offered | confirmed
      · exfalso
        have answered := offered.answered
        rw [← isSender] at answered
        exact notSingle (singleAnswer_of_chunks
          (transfer.sender.drawn _ transfer.sender.answered) answered)
      · exact ⟨transfer, isTransfer, isSender.symm, same.symm, confirmed⟩
    · exfalso
      have requested := proceeds.requested
      rw [← isReceiver] at requested
      have same := eq_of_heard transfer.fits nonempty requested heard
      rcases transfer.requested with ⟨other, accepted, request⟩
      rw [← same, created] at accepted
      cases accepted
      cases request.action.symm.trans isSend
  · exfalso
    rcases consistent.others _ isParty with ⟨answer, own, isPart⟩
    exact notSingle
      (singleAnswer_of_ownAnswer created nonempty heard own isPart)

/-- A receiver that declines has no part in a confirmed transfer. -/
theorem not_confirmed_of_declines
    {name : Receiver} {machine : Machine} {codeWords : Bytes}
    (strict : library.StrictContract)
    (sameLibrary : machine.library = library)
    (declines :
      Declines machine codeWords .server (network.view (.receiver name)))
    (consistent : Consistent visited transfers (network.view .server))
    {transfer : Transfer library (FitsAnswer library)
      (Party Sender Receiver Stranger)}
    (isTransfer : transfer ∈ transfers) :
    (transfer.receiver = .receiver name →
      ¬ Confirmed transfer (network.view .server)) ∧
    transfer.sender.client ≠ .receiver name := by
  subst sameLibrary
  have heard := heard_of_sent network (.receiver name)
  have proceeds := consistent.proceeds transfer isTransfer
  cases declines with
  | silent silent =>
      have nothing : (network.view .server).received (.receiver name) =
          [] := by
        have sent : network.sent (.receiver name) .server = [] := silent
        rw [sent] at heard
        exact List.prefix_nil.1 heard
      constructor
      · intro isReceiver _
        have requested := proceeds.requested
        rw [isReceiver, nothing, List.prefix_nil] at requested
        exact frame_ne_nil _ requested
      · intro isSender
        have announced := proceeds.announced
        rw [isSender, nothing, List.prefix_nil] at announced
        exact frame_ne_nil _ announced
  | @requests request last dumped isLast isPart =>
      have accepted := create_of_dump_receiveMessage strict dumped
      have heard := heard.trans isPart
      constructor
      · intro isReceiver confirmed
        have confirmed := confirmed.confirmed
        rw [isReceiver] at confirmed
        have same := eq_of_heard transfer.fits accepted.2
          ((List.prefix_append _ _).trans confirmed) heard
        have fits : request.length ≤ bufferSize := by
          rw [same]
          exact transfer.fits.trans (by decide)
        have agrees := confirmed.trans heard
        rw [frames_chunks_of_fits accepted.2 fits, same,
          List.prefix_append_right_inj,
          ← List.append_nil (frame ack)] at agrees
        rcases isLast with rfl | rfl
        · have sameText := (eq_of_prefix_frame (by decide) (by decide)
            agrees).1
          exact absurd sameText (by decide)
        · have sameText := (eq_of_prefix_frame (by decide) (by decide)
            agrees).1
          exact absurd sameText (by decide)
      · intro isSender
        have announced := proceeds.announced
        rw [isSender] at announced
        have same := eq_of_heard transfer.sender.fits accepted.2 announced
          heard
        have created := transfer.sender.created
        rw [← same, accepted.1] at created
        have isSend := transfer.sender.isSend
        rw [← Except.ok.inj created] at isSend
        cases (find_createReceiveMessage codeWords).1.symm.trans isSend

end Moments

/-! ## Every run -/

section Runs

variable [DecidableEq Sender] [DecidableEq Receiver]
  [DecidableEq Stranger]
variable (library) (participants : Participants Sender Receiver Stranger)

/-- What everybody but the strangers still does. -/
structure Behaves
    (network : Network (Party Sender Receiver Stranger) Exception State
      fun _ => Unit) : Prop where
  server : Ensures (fun _ => True)
    (fun later => ∃ visited,
      Safe library (FitsAnswer library) visited later)
    (fun _ _ => True) (fun _ _ => True) (network.process .server)
    (network.view .server)
  sender : ∀ name, Ensures (fun _ => True)
    (Keeps (participants.sender name).machine .server)
    (fun _ _ => True) (fun _ _ => True) (network.process (.sender name))
    (network.view (.sender name))
  receiver : ∀ name,
    extractConfirmation (participants.receiver name).interactionStream ≠
      121 →
    Ensures (fun _ => True)
      (Declines (participants.receiver name).machine
        (participants.receiver name).receiveCode .server)
      (fun _ _ => True) (fun _ _ => True)
      (network.process (.receiver name)) (network.view (.receiver name))

variable {library participants}

theorem behaves_network
    (strict : library.StrictContract)
    (agree : participants.Agree library) :
    Behaves library participants participants.network where
  server := by
    have safe : Safe library (FitsAnswer library) []
        (participants.network.view .server) :=
      ⟨[], consistent_start⟩
    exact serve_safe strict.toUtf8Contract participants.visits
      agree.server agree.draws agree.answers agree.apart
      (fun _ _ => List.not_mem_nil) safe
  sender name := runSendClient_keeps _ _ _ rfl rfl
  receiver name notYes := runReceiveClient_declines _ notYes _ rfl

theorem Behaves.of_lossyRun
    {start network : Network (Party Sender Receiver Stranger) Exception
      State fun _ => Unit}
    (behaves : Behaves library participants start)
    (run : LossyRun start network) :
    Behaves library participants network where
  server := ensures_of_lossyRun Party.server run behaves.server
  sender name :=
    ensures_of_lossyRun (Party.sender name) run (behaves.sender name)
  receiver name notYes :=
    ensures_of_lossyRun (Party.receiver name) run
      (behaves.receiver name notYes)

section Statement

variable (participants : Participants Sender Receiver Stranger)
variable (network : Network (Party Sender Receiver Stranger) Exception State
  fun _ => Unit)
variable (transfers : List (Transfer library (FitsAnswer library)
  (Party Sender Receiver Stranger)))

/-- A sender has sent nothing, or nothing but its metadata. -/
def BeforeContent (name : Sender) : Prop :=
  network.sent (.sender name) .server = [] ∨
    ∃ message, IsOffer (participants.sender name).machine message ∧
      network.sent (.sender name) .server <+: frames (chunks message)

/-- A receiver with the code of the sender has agreed. -/
def HasConsent (name : Sender) : Prop :=
  ∃ transfer ∈ transfers, transfer.sender.client = .sender name ∧
    IsOffer (participants.sender name).machine transfer.sender.message ∧
    Confirmed transfer (network.view .server)

/-- A receiver whose user does not agree. -/
structure Refuses (name : Receiver) : Prop where
  declines : Declines (participants.receiver name).machine
    (participants.receiver name).receiveCode .server
    (network.view (.receiver name))
  /-- It gets no content. -/
  offered : ∀ transfer ∈ transfers, transfer.receiver = .receiver name →
    Offered transfer (network.view .server)
  noSender : ∀ transfer ∈ transfers,
    transfer.sender.client ≠ .receiver name
  aborts : ∀ answer,
    Answered (participants.receiver name).interactionStream answer →
    ∀ state, Plays
      (getUserConfirmation (Party.server : Party Sender Receiver Stranger)
        (extractConfirmation
          (participants.receiver name).interactionStream))
      state silence (only Party.server (frame abortMessage))
      (.failed (dropFileReceiveException
        (ascii "Entered '" ++ [answer] ++ ascii "', aborting."))) state

end Statement

/--
At every moment of every run the transfers explain all that the server has
sent: a sender that has sent any content is the sender of a confirmed transfer,
nobody is in two transfers, and a receiver whose user does not enter a `y`
first sends a refusal and is in no confirmed transfer.
-/
theorem content_needs_consent
    (library : JsonLibrary) (strict : library.StrictContract)
    (participants : Participants Sender Receiver Stranger)
    (agree : participants.Agree library)
    (network : Network (Party Sender Receiver Stranger) Exception State
      fun _ => Unit)
    (run : LossyRun participants.network network) :
    ∃ visited, ∃ transfers : List (Transfer library (FitsAnswer library)
        (Party Sender Receiver Stranger)),
      Consistent visited transfers (network.view .server) ∧
      (∀ name, BeforeContent participants network name ∨
        HasConsent participants network transfers name) ∧
      (∀ first ∈ transfers, ∀ second ∈ transfers, ∀ party,
        party ∈ first.parties → party ∈ second.parties →
          first = second) ∧
      ∀ name,
        ¬ FirstEntered (participants.receiver name).interactionStream 121 →
        Refuses participants network transfers name := by
  have behaves := (behaves_network strict agree).of_lossyRun run
  rcases behaves.server.now trivial with ⟨visited, transfers, consistent⟩
  refine ⟨visited, transfers, consistent, ?_, ?_, ?_⟩
  · intro name
    cases (behaves.sender name).now trivial with
    | silent silent => exact Or.inl (Or.inl silent)
    | offers isOffer offered =>
        exact Or.inl (Or.inr ⟨_, isOffer, offered⟩)
    | released isOffer released =>
        right
        rcases isOffer with
          ⟨tree, filePath, isCompressed, json, creates, dumped⟩
        have dumpedHere := dumped
        rw [agree.sender name] at dumpedHere
        rcases create_of_dump_sendMessage strict creates dumpedHere with
          ⟨created, isSend, nonempty⟩
        rcases confirmed_of_released consistent created isSend nonempty
            released with
          ⟨transfer, isTransfer, isSender, sameMessage, confirmed⟩
        refine ⟨transfer, isTransfer, isSender, ?_, confirmed⟩
        rw [sameMessage]
        exact ⟨tree, filePath, isCompressed, json, creates, dumped⟩
  · intro first isFirst second isSecond party ofFirst ofSecond
    exact eq_of_common_party consistent.apart isFirst isSecond ofFirst
      ofSecond
  · intro name notEntered
    have notYes := mt (extractConfirmation_eq_iff _).1 notEntered
    have declines := (behaves.receiver name notYes).now trivial
    constructor
    · exact declines
    · intro transfer isTransfer isReceiver
      have notConfirmed := (not_confirmed_of_declines strict
        (agree.receiver name) declines consistent isTransfer).1 isReceiver
      rcases (consistent.proceeds transfer isTransfer).stage with
        offered | confirmed
      · exact offered
      · exact absurd confirmed notConfirmed
    · intro transfer isTransfer
      exact (not_confirmed_of_declines strict (agree.receiver name)
        declines consistent isTransfer).2
    · intro answer answered state
      have same := answered.unique (answered_extractConfirmation _)
      rw [same]
      exact getUserConfirmation_plays
        (Party.server : Party Sender Receiver Stranger) notYes state

end Runs

/-! ## A sender and a receiver -/

def onlyFlat : SendingClient where
  machine :=
    { Client.SendLoop.machineWith fun _ => 1 with
      library := FlatJson.flatLibrary }
  fileToSendPath := ascii "f"
  fuel := 3
  disk := Client.SendLoop.twoBytes

def entering (interactionStream : Bytes) : ReceivingClient where
  machine := Client.ReceivedFiles.smallMachine
  interactionStream
  receiveCode := ascii "old-two-7"
  fuel := 3
  receiving := ⟨⟨.empty, []⟩, none, none⟩

/-- A sender, and a receiver whose user enters something. -/
def pair (interactionStream : Bytes) : Participants Unit Unit Empty where
  visits :=
    [⟨.sender (), Server.FirstRead.flatSettings, 3, 0, []⟩,
      ⟨.receiver (), Server.FirstRead.flatSettings, 3, 0, []⟩]
  sender _ := onlyFlat
  receiver _ := entering interactionStream
  stranger name := nomatch name

theorem flatSettings_fitsAnswer (attempt : Nat) :
    FitsAnswer FlatJson.flatLibrary
      (Server.FirstRead.flatSettings.generateSessionID attempt) := by
  intro answer dumped
  have printed : FlatJson.flatLibrary.dump
      (codeResponse
        (Server.FirstRead.flatSettings.generateSessionID 0)) =
      .ok (ascii "\x7b\"code_words_key\":\"old-two-7\"\x7d") := by
    decide +kernel
  cases dumped.symm.trans printed
  decide

/-- A server with one library and one code for everybody. -/
theorem agree_of_flatSettings
    {participants : Participants Sender Receiver Stranger}
    (settings : ∀ visit ∈ participants.visits,
      visit.settings = Server.FirstRead.flatSettings)
    (sender : ∀ name, (participants.sender name).machine.library =
      FlatJson.flatLibrary)
    (receiver : ∀ name, (participants.receiver name).machine.library =
      FlatJson.flatLibrary)
    (apart : (participants.visits.map Visit.client).Nodup) :
    participants.Agree FlatJson.flatLibrary where
  server visit isVisit := by
    rw [settings visit isVisit]
    rfl
  sender := sender
  receiver := receiver
  draws visit isVisit := by
    rw [settings visit isVisit]
    exact Server.FirstRead.flatSettings_draws
  answers visit isVisit attempt := by
    rw [settings visit isVisit]
    exact flatSettings_fitsAnswer attempt
  apart := apart

theorem pair_agree (interactionStream : Bytes) :
    (pair interactionStream).Agree FlatJson.flatLibrary := by
  apply agree_of_flatSettings
  · intro visit isVisit
    rcases List.mem_pair.1 isVisit with rfl | rfl
    · rfl
    · rfl
  · intro _
    rfl
  · intro _
    rfl
  · show ([.sender (), .receiver ()] :
      List (Party Unit Unit Empty)).Nodup
    decide

abbrev PairParty := Party Unit Unit Empty

/-- The metadata of the two bytes. -/
def offerText : Bytes :=
  ascii "\x7b\"action\":\"send\",\"file_hash\":\"\",\"file_size\":2,\"filename\":\"f\",\"is_compressed\":false\x7d"

def codeText : Bytes :=
  ascii "\x7b\"code_words_key\":\"old-two-7\"\x7d"

def requestText : Bytes :=
  ascii "\x7b\"action\":\"receive\",\"code_words_key\":\"old-two-7\"\x7d"

/-- The code goes to the sender and the metadata to the receiver. -/
def untilAnswered (rest : List (PairParty × Bytes)) :
    List (PairParty × Bytes) :=
  (.server, frame offerText) ::
    (.sender (), frame codeText) ::
    (.receiver (), []) ::
    (.server, frame requestText) ::
    (.receiver (), frame offerText) :: rest

/-- The parties of a pair hold a dialogue. -/
theorem exists_dialogue_pair
    {interactionStream : Bytes} {messages : List (PairParty × Bytes)}
    (alternates : Alternates (Party.sender () : PairParty) messages)
    (sender : (takeTurns
      (turnsOf (.sender ()) (.sender ()) .server [] messages)
      ((pair interactionStream).process (.sender ()))
      onlyFlat.disk).isSome = true)
    (server : (takeTurns
      (turnsOf .server (.sender ()) .server [] messages)
      (serve (pair interactionStream).visits) ∅).isSome = true)
    (receiver : (takeTurns
      (turnsOf (.receiver ()) (.sender ()) .server [] messages)
      ((pair interactionStream).process (.receiver ()))
      (entering interactionStream).receiving).isSome = true) :
    ∃ network, LossyRun (pair interactionStream).network network ∧
      ∀ who other, network.sent who other =
        saidBy who other (.sender ()) messages := by
  have converses : ∀ who : PairParty,
      Converses (fun _ _ => True)
        (turnsOf who (.sender ()) .server [] messages)
        ((pair interactionStream).process who)
        ((pair interactionStream).initialState who) := by
    intro who
    cases who with
    | server =>
        rcases Option.isSome_iff_exists.1 server with ⟨⟨_, _⟩, taken⟩
        exact converses_of_takeTurns taken trivial
    | sender name =>
        rcases Option.isSome_iff_exists.1 sender with ⟨⟨_, _⟩, taken⟩
        exact converses_of_takeTurns taken trivial
    | receiver name =>
        rcases Option.isSome_iff_exists.1 receiver with ⟨⟨_, _⟩, taken⟩
        exact converses_of_takeTurns taken trivial
    | stranger name => cases name
  rcases Participants.exists_dialogue alternates converses with
    ⟨network, run, -, said⟩
  exact ⟨network, run, said⟩

/-- The user agrees, and both bytes are sent. -/
def agreeingDialogue : List (PairParty × Bytes) :=
  untilAnswered [(.server, frame Socket.ack), (.sender (), frame Socket.ack),
    (.server, frame [1] ++ frame [2])]

/-- The user does not agree. -/
def decliningDialogue : List (PairParty × Bytes) :=
  untilAnswered [(.server, frame abortMessage)]

/-- Two bytes are not the metadata. -/
theorem not_beforeContent
    {interactionStream : Bytes}
    {network : Network PairParty Exception State fun _ => Unit}
    (sent : network.sent (.sender ()) .server =
      frame offerText ++ (frame [1] ++ frame [2])) :
    ¬ BeforeContent (pair interactionStream) network () := by
  rintro (nothing | ⟨message, -, isPart⟩)
  · rw [sent] at nothing
    exact frame_ne_nil _ (List.append_eq_nil_iff.1 nothing).1
  · rw [sent] at isPart
    have nonempty : message ≠ [] := by
      rintro rfl
      have nothing := List.prefix_nil.1 isPart
      exact frame_ne_nil _ (List.append_eq_nil_iff.1 nothing).1
    have same := eq_of_prefix_chunks
      (show offerText.length < bufferSize by decide) nonempty
      (((List.prefix_append _ _).trans isPart).trans
        (List.prefix_append _ []))
    rw [same, frames_chunks_of_fits (by decide) (by decide)] at isPart
    have lengths := isPart.length_le
    revert lengths
    decide

/--
With a `y` the bytes leave the sender and it has consent; with an `n` the
receiver aborts.
-/
theorem content_needs_consent_pair :
    (∃ network, ∃ transfers : List (Transfer FlatJson.flatLibrary
        (FitsAnswer FlatJson.flatLibrary) PairParty),
      LossyRun (pair (ascii " y")).network network ∧
      network.sent (.sender ()) .server =
        frame offerText ++ (frame [1] ++ frame [2]) ∧
      HasConsent (pair (ascii " y")) network transfers ()) ∧
    ∃ network, ∃ transfers : List (Transfer FlatJson.flatLibrary
        (FitsAnswer FlatJson.flatLibrary) PairParty),
      LossyRun (pair (ascii " no")).network network ∧
      network.sent (.receiver ()) .server =
        frame requestText ++ frame abortMessage ∧
      Refuses (pair (ascii " no")) network transfers () := by
  constructor
  · rcases @exists_dialogue_pair (ascii " y") agreeingDialogue
        (by decide +kernel) (by decide +kernel) (by decide +kernel)
        (by decide +kernel) with
      ⟨network, run, said⟩
    have sent : network.sent (.sender ()) .server =
        frame offerText ++ (frame [1] ++ frame [2]) := by
      rw [said]
      decide +kernel
    rcases content_needs_consent FlatJson.flatLibrary
        FlatJson.flatLibrary_strict (pair _) (pair_agree _) network run with
      ⟨-, transfers, -, consent, -, -⟩
    exact ⟨network, transfers, run, sent,
      (consent ()).resolve_left (not_beforeContent sent)⟩
  · rcases @exists_dialogue_pair (ascii " no") decliningDialogue
        (by decide +kernel) (by decide +kernel) (by decide +kernel)
        (by decide +kernel) with
      ⟨network, run, said⟩
    have sent : network.sent (.receiver ()) .server =
        frame requestText ++ frame abortMessage := by
      rw [said]
      decide +kernel
    have notEntered : ¬ FirstEntered (ascii " no") 121 := by
      rw [← extractConfirmation_eq_iff]
      decide
    rcases content_needs_consent FlatJson.flatLibrary
        FlatJson.flatLibrary_strict (pair _) (pair_agree _) network run with
      ⟨-, transfers, -, -, -, refuses⟩
    exact ⟨network, transfers, run, sent, refuses () notEntered⟩

end DropFile.Consent
