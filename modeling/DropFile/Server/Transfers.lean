import DropFile.ContentLoops
import DropFile.Server.FirstRead

/-!
# Transfers

What the server exchanges with the two parties of a transfer, at every moment
and whatever they do: the receiver gets the sender's metadata, after its
confirmation also the sender's content, and at last perhaps a text of the
server; and the sender learns of no confirmation that the receiver has not
given.
-/

namespace DropFile.Server.Transfers

open DropFile.General.Processes.Process
open DropFile.Streams
open DropFile.Socket
open DropFile.Framing
open DropFile.JsonObjects
open DropFile.InitSessionMessage
open DropFile.SessionMessages
open DropFile.ContentLoops
open DropFile.Server.SessionsManager
open DropFile.Server.ServerSideClientSession

variable {library : JsonLibrary} {codes : SessionCode → Prop}
variable {Peer : Type}

/-! ## The parties -/

/-- A sender that was registered under one of the codes. -/
structure Registration (library : JsonLibrary)
    (codes : SessionCode → Prop) (Peer : Type) where
  client : Peer
  code : SessionCode
  /-- The first message of the client. -/
  message : Bytes
  json : Json
  /-- The text that is passed on. -/
  metadata : Bytes
  /-- The text with the code. -/
  answer : Bytes
  drawn : codes code
  fits : message.length ≤ maxFirstMessageSize
  created : create library message = .ok json
  isSend : json.find actionKey = some (.string (ascii "send"))
  dumped : library.dump json = .ok metadata
  answered : library.dump (codeResponse code) = .ok answer

/-- A receiver that has asked for the file of a registered sender. -/
structure Transfer (library : JsonLibrary) (codes : SessionCode → Prop)
    (Peer : Type) where
  sender : Registration library codes Peer
  receiver : Peer
  /-- The first message of the receiver. -/
  request : Bytes
  fits : request.length ≤ maxFirstMessageSize
  requested : ∃ json, create library request = .ok json ∧
    IsReceiveMessage json sender.code
  apart : sender.client ≠ receiver

namespace Transfer

abbrev parties (transfer : Transfer library codes Peer) : List Peer :=
  [transfer.sender.client, transfer.receiver]

end Transfer

abbrev Moment (Peer : Type) := Local Peer (SendersSessions Peer Json)

/-- What the receiver may be sent when the transfer fails. -/
inductive Tail (transfer : Transfer library codes Peer)
    (moment : Moment Peer) : Bytes → Prop where
  | nothing : Tail transfer moment []
  | receiverTooLong {heard header refused : Bytes} :
      heard = [] ∨ heard = frame ack →
      Oversized header →
      frame transfer.request ++ heard ++ header <+:
        moment.received transfer.receiver →
      refused <+: frames (chunks refusal) →
      Tail transfer moment
        (refused ++ frames (chunks (tooLong (sizeOfBytes header)).message))
  | receiverNotOk {heard response : Bytes} :
      heard = [] ∨ heard = frame ack →
      response ≠ Socket.ack →
      response.length ≤ bufferSize →
      frame transfer.request ++ heard ++ frame response <+:
        moment.received transfer.receiver →
      Tail transfer moment
        (frames (chunks (responseNotOk response).message))
  | senderTooLong {contents : List Bytes} {header : Bytes} :
      Oversized header →
      frame transfer.sender.message ++ frames contents ++ header <+:
        moment.received transfer.sender.client →
      Tail transfer moment
        (frames (chunks (tooLong (sizeOfBytes header)).message))

/-- The receiver has not confirmed. -/
structure Offered (transfer : Transfer library codes Peer)
    (moment : Moment Peer) : Prop where
  /-- The sender knows of nothing. -/
  answered : moment.sent transfer.sender.client <+:
    frames (chunks transfer.sender.answer)
  offered : ∃ tail, Tail transfer moment tail ∧
    moment.sent transfer.receiver <+:
      frames (chunks transfer.sender.metadata) ++ tail

/-- The receiver has confirmed. -/
structure Confirmed (transfer : Transfer library codes Peer)
    (moment : Moment Peer) : Prop where
  confirmed : frame transfer.request ++ frame ack <+:
    moment.received transfer.receiver
  offered : frames (chunks transfer.sender.metadata) <+:
    moment.sent transfer.receiver
  acknowledged : ∃ answered acks refused,
    answered <+: frames (chunks transfer.sender.answer) ∧
    acks <+: frame ack ++ frame ack ∧
    refused <+: frames (chunks refusal) ∧
    moment.sent transfer.sender.client = answered ++ acks ++ refused ∧
    ((frame ack).length < acks.length →
      frame transfer.request ++ frame ack ++ frame ack <+:
        moment.received transfer.receiver)
  relayed : ∃ contents pieces tail,
    frame transfer.sender.message ++ frames contents <+:
      moment.received transfer.sender.client ∧
    pieces.flatten <+: contents.flatten ∧
    (∀ piece ∈ pieces, piece.length ≤ bufferSize) ∧
    Tail transfer moment tail ∧
    moment.sent transfer.receiver <+:
      frames (chunks transfer.sender.metadata) ++ frames pieces ++ tail

/-- What holds at every moment of a transfer. -/
structure Proceeds (transfer : Transfer library codes Peer)
    (moment : Moment Peer) : Prop where
  announced : frame transfer.sender.message <+:
    moment.received transfer.sender.client
  requested : frame transfer.request <+: moment.received transfer.receiver
  stage : Offered transfer moment ∨ Confirmed transfer moment

/-! ## Moments that look the same to the parties -/

section SameTraffic

variable {moment later : Moment Peer}

/-- The traffic with a peer is the same at two moments. -/
def SameAt (peer : Peer) (moment later : Moment Peer) : Prop :=
  later.received peer = moment.received peer ∧
    later.sent peer = moment.sent peer

theorem Tail.congr
    {transfer : Transfer library codes Peer} {tail : Bytes}
    (isTail : Tail transfer moment tail)
    (sameSender : SameAt transfer.sender.client moment later)
    (sameReceiver : SameAt transfer.receiver moment later) :
    Tail transfer later tail := by
  cases isTail with
  | nothing => exact .nothing
  | receiverTooLong heard oversized received isRefused =>
      rw [← sameReceiver.1] at received
      exact .receiverTooLong heard oversized received isRefused
  | receiverNotOk heard notAck fits received =>
      rw [← sameReceiver.1] at received
      exact .receiverNotOk heard notAck fits received
  | senderTooLong oversized received =>
      rw [← sameSender.1] at received
      exact .senderTooLong oversized received

theorem Proceeds.congr
    {transfer : Transfer library codes Peer}
    (proceeds : Proceeds transfer moment)
    (sameSender : SameAt transfer.sender.client moment later)
    (sameReceiver : SameAt transfer.receiver moment later) :
    Proceeds transfer later := by
  constructor
  · rw [sameSender.1]
    exact proceeds.announced
  · rw [sameReceiver.1]
    exact proceeds.requested
  · rcases proceeds.stage with offered | confirmed
    · left
      constructor
      · rw [sameSender.2]
        exact offered.answered
      · rw [sameReceiver.2]
        rcases offered.offered with ⟨tail, isTail, sent⟩
        exact ⟨tail, Tail.congr isTail sameSender sameReceiver, sent⟩
    · right
      constructor
      · rw [sameReceiver.1]
        exact confirmed.confirmed
      · rw [sameReceiver.2]
        exact confirmed.offered
      · rw [sameSender.2, sameReceiver.1]
        exact confirmed.acknowledged
      · rw [sameSender.1, sameReceiver.2]
        rcases confirmed.relayed with
          ⟨contents, pieces, tail, fetched, passed, fit, isTail, sent⟩
        exact ⟨contents, pieces, tail, fetched, passed, fit,
          Tail.congr isTail sameSender sameReceiver, sent⟩

end SameTraffic

/-- Before and after the confirmation. -/
theorem Proceeds.relayed
    {transfer : Transfer library codes Peer} {moment : Moment Peer}
    (proceeds : Proceeds transfer moment) :
    ∃ contents pieces tail,
      frame transfer.sender.message ++ frames contents <+:
        moment.received transfer.sender.client ∧
      pieces.flatten <+: contents.flatten ∧
      (∀ piece ∈ pieces, piece.length ≤ bufferSize) ∧
      Tail transfer moment tail ∧
      moment.sent transfer.receiver <+:
        frames (chunks transfer.sender.metadata) ++ frames pieces ++
          tail := by
  rcases proceeds.stage with offered | confirmed
  · rcases offered.offered with ⟨tail, isTail, sent⟩
    refine ⟨[], [], tail, ?_, List.prefix_rfl, List.forall_mem_nil _,
      isTail, ?_⟩
    · rw [frames_nil, List.append_nil]
      exact proceeds.announced
    · rw [frames_nil, List.append_nil]
      exact sent
  · exact confirmed.relayed

/-! ## Positions -/

/--
The handler of the receiver is at work: what has been exchanged with the two
parties since it has taken the sender out of the table.
-/
structure At (transfer : Transfer library codes Peer)
    (base : Moment Peer) (got fetched gave told : Bytes)
    (moment : Moment Peer) : Prop where
  state : moment.state = base.state
  elsewhere : ∀ peer, peer ∉ transfer.parties →
    moment.received peer = base.received peer ∧
      moment.sent peer = base.sent peer
  got : moment.received transfer.receiver = frame transfer.request ++ got
  fetched : moment.received transfer.sender.client =
    frame transfer.sender.message ++ fetched
  gave : moment.sent transfer.receiver = gave
  told : ∃ answered,
    answered <+: frames (chunks transfer.sender.answer) ∧
    moment.sent transfer.sender.client = answered ++ told

theorem not_parties
    {transfer : Transfer library codes Peer} {peer : Peer}
    (other : peer ∉ transfer.parties) :
    peer ≠ transfer.sender.client ∧ peer ≠ transfer.receiver := by
  simpa using other

section Steps

variable [DecidableEq Peer]
variable {transfer : Transfer library codes Peer} {base moment : Moment Peer}
variable {got fetched gave told : Bytes} {expectedBytes : Nat}

theorem At.receives_receiver
    (position : At transfer base got fetched gave told moment)
    (part : Bytes) :
    At transfer base (got ++ part) fetched gave told
      (moment.receives transfer.receiver part) where
  state := position.state
  elsewhere peer other := by
    have different := (not_parties other).2
    rw [Local.received_receives_other different]
    exact position.elsewhere peer other
  got := by
    rw [Local.received_receives_self, position.got, List.append_assoc]
  fetched := by
    rw [Local.received_receives_other transfer.apart]
    exact position.fetched
  gave := position.gave
  told := position.told

theorem At.receives_sender
    (position : At transfer base got fetched gave told moment)
    (part : Bytes) :
    At transfer base got (fetched ++ part) gave told
      (moment.receives transfer.sender.client part) where
  state := position.state
  elsewhere peer other := by
    have different := (not_parties other).1
    rw [Local.received_receives_other different]
    exact position.elsewhere peer other
  got := by
    rw [Local.received_receives_other transfer.apart.symm]
    exact position.got
  fetched := by
    rw [Local.received_receives_self, position.fetched, List.append_assoc]
  gave := position.gave
  told := position.told

theorem At.sends_receiver
    (position : At transfer base got fetched gave told moment)
    (part : Bytes) :
    At transfer base got fetched (gave ++ part) told
      (moment.sends transfer.receiver part) where
  state := position.state
  elsewhere peer other := by
    have different := (not_parties other).2
    rw [Local.sent_sends_other different]
    exact position.elsewhere peer other
  got := position.got
  fetched := position.fetched
  gave := by
    rw [Local.sent_sends_self, position.gave]
  told := by
    rw [Local.sent_sends_other transfer.apart]
    exact position.told

theorem At.sends_sender
    (position : At transfer base got fetched gave told moment)
    (part : Bytes) :
    At transfer base got fetched gave (told ++ part)
      (moment.sends transfer.sender.client part) where
  state := position.state
  elsewhere peer other := by
    have different := (not_parties other).1
    rw [Local.sent_sends_other different]
    exact position.elsewhere peer other
  got := position.got
  fetched := position.fetched
  gave := by
    rw [Local.sent_sends_other transfer.apart.symm]
    exact position.gave
  told := by
    rcases position.told with ⟨answered, isPrefix, whole⟩
    refine ⟨answered, isPrefix, ?_⟩
    rw [Local.sent_sends_self, whole, List.append_assoc]

/-- The moments of a transfer that has begun at `base`. -/
structure Within (transfer : Transfer library codes Peer)
    (base moment : Moment Peer) : Prop where
  position : ∃ got fetched gave told,
    At transfer base got fetched gave told moment
  proceeds : Proceeds transfer moment

omit [DecidableEq Peer] in
theorem At.offered
    (position : At transfer base got fetched gave [] moment)
    (offers : ∃ tail, Tail transfer moment tail ∧
      gave <+: frames (chunks transfer.sender.metadata) ++ tail) :
    Within transfer base moment where
  position := ⟨got, fetched, gave, [], position⟩
  proceeds := by
    constructor
    · rw [position.fetched]
      exact List.prefix_append _ _
    · rw [position.got]
      exact List.prefix_append _ _
    · left
      constructor
      · rcases position.told with ⟨answered, isPrefix, whole⟩
        rw [whole, List.append_nil]
        exact isPrefix
      · rw [position.gave]
        exact offers

omit [DecidableEq Peer] in
theorem At.confirmed
    (position : At transfer base got fetched gave told moment)
    (confirms : frame ack <+: got)
    (offers : frames (chunks transfer.sender.metadata) <+: gave)
    (tells : ∃ acks refused,
      acks <+: frame ack ++ frame ack ∧
      refused <+: frames (chunks refusal) ∧
      told = acks ++ refused ∧
      ((frame ack).length < acks.length → frame ack ++ frame ack <+: got))
    (relays : ∃ contents pieces tail,
      frames contents <+: fetched ∧
      pieces.flatten <+: contents.flatten ∧
      (∀ piece ∈ pieces, piece.length ≤ bufferSize) ∧
      Tail transfer moment tail ∧
      gave <+:
        frames (chunks transfer.sender.metadata) ++ frames pieces ++
          tail) :
    Within transfer base moment where
  position := ⟨got, fetched, gave, told, position⟩
  proceeds := by
    rcases position.told with ⟨answered, isPrefix, whole⟩
    rcases tells with ⟨acks, refused, isAcks, isRefused, rfl, completes⟩
    rcases relays with
      ⟨contents, pieces, tail, fetches, passed, fit, isTail, gives⟩
    constructor
    · rw [position.fetched]
      exact List.prefix_append _ _
    · rw [position.got]
      exact List.prefix_append _ _
    · right
      constructor
      · rw [position.got, List.prefix_append_right_inj]
        exact confirms
      · rw [position.gave]
        exact offers
      · refine ⟨answered, acks, refused, isPrefix, isAcks, isRefused, ?_,
          ?_⟩
        · rw [whole, List.append_assoc]
        · intro longer
          rw [position.got, List.append_assoc, List.prefix_append_right_inj]
          exact completes longer
      · refine ⟨contents, pieces, tail, ?_, passed, fit, isTail, ?_⟩
        · rw [position.fetched, List.prefix_append_right_inj]
          exact fetches
        · rw [position.gave]
          exact gives

/-- If the exception is caught, its text can be sent to the receiver. -/
def Answerable (transfer : Transfer library codes Peer)
    (base : Moment Peer) (error : Exception) (moment : Moment Peer) :
    Prop :=
  error.thrown.isDropFileBase = true →
    ∀ part, part <+: frames (chunks error.message) →
      Within transfer base (moment.sends transfer.receiver part)

theorem answerable_of_systemError
    {error : Exception}
    (isSystemError : error = systemError) :
    Answerable transfer base error moment := by
  intro isBase
  rw [isSystemError] at isBase
  cases isBase

/-- The server waits for an ACK of the receiver, for the first or the second. -/
theorem receiveACK_within
    (heard : got = [] ∨ got = frame ack)
    (position : At transfer base got fetched gave told moment)
    (stays : ∀ later more given tail,
      At transfer base (got ++ more) fetched (gave ++ given) told later →
      Tail transfer later tail →
      given <+: tail →
      Within transfer base later) :
    Ensures (fun _ => True) (Within transfer base)
      (fun _ later =>
        later = moment.receives transfer.receiver (frame ack))
      (Answerable transfer base) (receiveACK transfer.receiver)
      moment := by
  have arriving (part : Bytes) :
      Within transfer base (moment.receives transfer.receiver part) := by
    have later := position.receives_receiver part
    rw [← List.append_nil gave] at later
    exact stays _ _ _ _ later .nothing List.nil_prefix
  have tooLongTail {header refused : Bytes} {later : Moment Peer}
      (oversized : Oversized header)
      (isRefused : refused <+: frames (chunks refusal))
      (received : later.received transfer.receiver =
        frame transfer.request ++ (got ++ header)) :
      Tail transfer later (refused ++
        frames (chunks (tooLong (sizeOfBytes header)).message)) := by
    apply Tail.receiverTooLong heard oversized _ isRefused
    rw [received, ← List.append_assoc]
  apply (receiveACK_ensures transfer.receiver (fun part _ => arriving part)
    _).weaken (fun _ _ _ _ received => received)
  · rintro error later - - ((⟨lost, -⟩ | ⟨header, refused, rfl, oversized,
      isRefused, rfl⟩) | ⟨response, rfl, notAck, fits, rfl⟩)
    · exact answerable_of_systemError lost
    · intro _ part isPart
      have last := ((position.receives_receiver header).sends_receiver
        refused).sends_receiver part
      rw [List.append_assoc gave] at last
      apply stays _ _ _ _ last (tooLongTail oversized isRefused last.got)
      rw [List.prefix_append_right_inj]
      exact isPart
    · intro _ part isPart
      have last := (position.receives_receiver (frame
        response)).sends_receiver part
      apply stays _ _ _ _ last _ isPart
      apply Tail.receiverNotOk heard notAck fits
      rw [last.got, ← List.append_assoc]
  · intro header refused oversized _ isRefused
    have later := (position.receives_receiver header).sends_receiver refused
    exact stays _ _ _ _ later (tooLongTail oversized isRefused later.got)
      (List.prefix_append _ _)

theorem sendACK_within
    (position : At transfer base got fetched gave told moment)
    (stays : ∀ later part,
      At transfer base got fetched gave (told ++ part) later →
      part <+: frame ack →
      Within transfer base later) :
    Ensures (fun _ => True) (Within transfer base)
      (fun _ later =>
        later = moment.sends transfer.sender.client (frame ack))
      (Answerable transfer base) (sendACK transfer.sender.client)
      moment := by
  have single : frames (chunks ack) = frame ack :=
    frames_chunks_of_fits (by decide) (by decide)
  apply (send_ensures transfer.sender.client ack _).weaken
  · rintro _ later - - rfl
    rw [single]
  · rintro error later - - ⟨lost, -⟩
    exact answerable_of_systemError lost
  · intro part isPart
    rw [single] at isPart
    exact stays _ part (position.sends_sender part) isPart

/-- These contents of the sender were passed on in these pieces. -/
structure Relayed (transfer : Transfer library codes Peer)
    (base : Moment Peer) (expectedBytes : Nat) (contents pieces : List Bytes)
    (moment : Moment Peer) : Prop where
  passed : pieces.flatten = contents.flatten.take expectedBytes
  fit : ∀ piece ∈ pieces, piece.length ≤ bufferSize
  position : At transfer base (frame ack) (frames contents)
    (frames (chunks transfer.sender.metadata) ++ frames pieces)
    (frame ack) moment

omit [DecidableEq Peer] in
/-- While the contents are passed on. -/
theorem At.relaying
    {contents pieces : List Bytes} {tail : Bytes}
    (position : At transfer base (frame ack) fetched gave told moment)
    (fetches : frames contents <+: fetched)
    (passed : pieces.flatten <+: contents.flatten)
    (fit : ∀ piece ∈ pieces, piece.length ≤ bufferSize)
    (offers : frames (chunks transfer.sender.metadata) <+: gave)
    (isTail : Tail transfer moment tail)
    (gives : gave <+:
      frames (chunks transfer.sender.metadata) ++ frames pieces ++ tail)
    (tells : ∃ refused, refused <+: frames (chunks refusal) ∧
      told = frame ack ++ refused) :
    Within transfer base moment := by
  apply position.confirmed List.prefix_rfl offers
  · rcases tells with ⟨refused, isRefused, rfl⟩
    refine ⟨frame ack, refused, List.prefix_append _ _, isRefused, rfl, ?_⟩
    intro impossible
    exact absurd impossible (Nat.lt_irrefl _)
  · exact ⟨contents, pieces, tail, fetches, passed, fit, isTail, gives⟩

/-- The sender was told of the confirmation and of nothing more. -/
theorem tells_nothing_more :
    ∃ refused, refused <+: frames (chunks refusal) ∧
      frame ack = frame ack ++ refused :=
  ⟨[], List.nil_prefix, (List.append_nil _).symm⟩

theorem relay_within
    (expectedFits : expectedBytes < sizeModulus)
    (fuel : Nat)
    (start : Relayed transfer base expectedBytes [] [] moment) :
    Ensures (fun _ => True) (Within transfer base)
      (fun _ later => ∃ contents pieces,
        Relayed transfer base expectedBytes contents pieces later)
      (Answerable transfer base)
      (relay transfer.receiver transfer.sender.client expectedBytes fuel 0)
      moment := by
  have passedOn {contents pieces : List Bytes} {later : Moment Peer}
      (relayed :
        Relayed transfer base expectedBytes contents pieces later) :
      pieces.flatten <+: contents.flatten := by
    rw [relayed.passed]
    exact List.take_prefix _ _
  have arriving {contents pieces : List Bytes} {later : Moment Peer}
      (relayed :
        Relayed transfer base expectedBytes contents pieces later)
      (part : Bytes) :
      Within transfer base
        (later.receives transfer.sender.client part) := by
    apply (relayed.position.receives_sender part).relaying
      (List.prefix_append _ _) (passedOn relayed) relayed.fit
      (List.prefix_append _ _) .nothing _ tells_nothing_more
    rw [List.append_nil]
  rw [relay_eq]
  apply (contentLoop_ensures
    (fun contents later => ∃ pieces,
      Relayed transfer base expectedBytes contents pieces later)
    expectedFits _ _ _ _ fuel _ ⟨[], start⟩).weaken
  · rintro _ later - - ⟨contents, ⟨pieces, relayed⟩, -⟩
    exact ⟨contents, pieces, relayed⟩
  · intro error later _ _ answerable
    exact answerable
  · -- some bytes of a frame
    rintro contents later part ⟨pieces, relayed⟩ -
    exact arriving relayed part
  · -- a frame that is too long
    rintro contents later header part ⟨pieces, relayed⟩ oversized - isPart
    apply ((relayed.position.receives_sender header).sends_sender
      part).relaying (List.prefix_append _ _) (passedOn relayed) relayed.fit
        (List.prefix_append _ _) .nothing _ ⟨part, isPart, rfl⟩
    rw [List.append_nil]
  · rintro contents middle error later ⟨pieces, relayed⟩
      (⟨lost, -⟩ | ⟨header, refused, rfl, oversized, isRefused, rfl⟩)
    · exact answerable_of_systemError lost
    · intro _ part isPart
      have last := ((relayed.position.receives_sender
        header).sends_sender refused).sends_receiver part
      have announced : frame transfer.sender.message ++ frames contents ++
          header <+: (((middle.receives transfer.sender.client
            header).sends transfer.sender.client refused).sends
              transfer.receiver part).received transfer.sender.client := by
        rw [last.fetched, List.append_assoc]
      apply last.relaying (List.prefix_append _ _) (passedOn relayed)
        relayed.fit _ (.senderTooLong oversized announced) _
        ⟨refused, isRefused, rfl⟩
      · rw [List.append_assoc]
        exact List.prefix_append _ _
      · rw [List.prefix_append_right_inj]
        exact isPart
  · rintro contents data later ⟨pieces, relayed⟩ accepted unfinished
    let piece := data.take (expectedBytes - contents.flatten.length)
    have arrived := relayed.position.receives_sender (frame data)
    have passed : (pieces ++ chunks piece).flatten =
        (contents ++ [data]).flatten.take expectedBytes := by
      rw [List.flatten_append, relayed.passed, (cutsInto_chunks piece).whole,
        List.flatten_append, List.flatten_singleton, List.take_append]
    have fetched : frames contents ++ frame data =
        frames (contents ++ [data]) := by
      rw [frames_append, frames_cons, frames_nil, List.append_nil]
    rw [fetched] at arrived
    have fit : ∀ some ∈ pieces ++ chunks piece, some.length ≤ bufferSize := by
      intro some member
      rcases List.mem_append.1 member with before | new
      · exact relayed.fit some before
      · exact ((cutsInto_chunks piece).accepted some new).2
    apply (send_ensures transfer.receiver piece _).weaken
    · rintro _ last - - rfl
      have position := arrived.sends_receiver (frames (chunks piece))
      rw [List.append_assoc, ← frames_append] at position
      exact ⟨pieces ++ chunks piece, passed, fit, position⟩
    · rintro error last - - ⟨lost, -⟩
      exact answerable_of_systemError lost
    · intro part isPart
      have some : (pieces ++ chunks piece).flatten <+:
          (contents ++ [data]).flatten := by
        rw [passed]
        exact List.take_prefix _ _
      apply (arrived.sends_receiver part).relaying List.prefix_rfl some fit _
        .nothing _ tells_nothing_more
      · rw [List.append_assoc]
        exact List.prefix_append _ _
      · rw [frames_append, List.append_nil, ← List.append_assoc,
          List.prefix_append_right_inj]
        exact isPart
  · have holds := arriving start []
    rwa [Local.receives_nil] at holds

/-- The whole file has been passed on, and the last ACK has come. -/
theorem finish_within
    {contents pieces : List Bytes}
    (relayed : Relayed transfer base expectedBytes contents pieces moment) :
    Ensures (fun _ => True) (Within transfer base) (fun _ _ => True)
      (Answerable transfer base)
      (do
        receiveACK transfer.receiver
        sendACK transfer.sender.client : SessionProcess Peer Unit)
      moment := by
  have passed : pieces.flatten <+: contents.flatten := by
    rw [relayed.passed]
    exact List.take_prefix _ _
  apply (receiveACK_within (Or.inr rfl) relayed.position _).bind
  · rintro _ later - - rfl
    have position := relayed.position.receives_receiver (frame ack)
    apply (sendACK_within position _).weaken
    · intro _ _ _ _ _
      trivial
    · intro error later _ _ answerable
      exact answerable
    · intro later part position isPart
      apply position.confirmed (List.prefix_append _ _)
        (List.prefix_append _ _)
      · refine ⟨frame ack ++ part, [], ?_, List.nil_prefix,
          (List.append_nil _).symm, fun _ => List.prefix_rfl⟩
        rw [List.prefix_append_right_inj]
        exact isPart
      · refine ⟨contents, pieces, [], List.prefix_rfl, passed, relayed.fit,
          .nothing, ?_⟩
        rw [List.append_nil]
  · intro later more given tail position isTail isGiven
    apply position.confirmed (List.prefix_append _ _)
    · rw [List.append_assoc]
      exact List.prefix_append _ _
    · refine ⟨frame ack, [], List.prefix_append _ _, List.nil_prefix,
        (List.append_nil _).symm, ?_⟩
      intro impossible
      exact absurd impossible (Nat.lt_irrefl _)
    · refine ⟨contents, pieces, tail, List.prefix_rfl, passed, relayed.fit,
        isTail, ?_⟩
      rw [List.prefix_append_right_inj]
      exact isGiven

theorem receiveFile_within
    {settings : Settings}
    (sameLibrary : settings.library = library)
    (fuel : Nat)
    (position : At transfer base [] [] [] [] moment) :
    Ensures (fun _ => True) (Within transfer base) (fun _ _ => True)
      (Answerable transfer base)
      (receiveFile settings transfer.receiver transfer.sender.client
        transfer.sender.json fuel) moment := by
  rcases (create_ok library transfer.sender.created).2 with
    ⟨filename, fileSize, fileHash, isCompressed, fits, members⟩ |
      ⟨code, request⟩
  · have reads := reads_of_isSendMessage library fits members
    rw [receiveFile, sameLibrary, transfer.sender.dumped, reads.filename,
      reads.fileSize]
    show Ensures _ _ _ _ (do
      send transfer.receiver transfer.sender.metadata
      receiveACK transfer.receiver
      sendACK transfer.sender.client
      relay transfer.receiver transfer.sender.client fileSize fuel 0
      receiveACK transfer.receiver
      sendACK transfer.sender.client) _
    have offering (part : Bytes)
        (isPart : part <+: frames (chunks transfer.sender.metadata)) :
        Within transfer base (moment.sends transfer.receiver part) := by
      apply (position.sends_receiver part).offered
      refine ⟨[], .nothing, ?_⟩
      rw [List.nil_append, List.append_nil]
      exact isPart
    apply ((send_ensures transfer.receiver transfer.sender.metadata
      offering).weaken (fun _ _ _ _ sent => sent)
        (fun error later _ _ lost => answerable_of_systemError lost.1)).bind
    rintro _ _ - - rfl
    have offered := position.sends_receiver
      (frames (chunks transfer.sender.metadata))
    rw [List.nil_append] at offered
    apply (receiveACK_within (Or.inl rfl) offered _).bind
    · rintro _ _ - - rfl
      have confirmed := offered.receives_receiver (frame ack)
      rw [List.nil_append] at confirmed
      apply (sendACK_within confirmed _).bind
      · rintro _ _ - - rfl
        have told := confirmed.sends_sender (frame ack)
        rw [List.nil_append] at told
        have relaying : Relayed transfer base fileSize [] []
            (((moment.sends transfer.receiver
              (frames (chunks transfer.sender.metadata))).receives
                transfer.receiver (frame ack)).sends
                  transfer.sender.client (frame ack)) := by
          constructor
          · rw [List.flatten_nil, List.take_nil]
          · exact List.forall_mem_nil _
          · rw [frames_nil, List.append_nil]
            exact told
        apply (relay_within fits fuel relaying).bind
        rintro _ _ - - ⟨contents, pieces, relayed⟩
        exact finish_within relayed
      · intro later part position isPart
        apply position.confirmed List.prefix_rfl List.prefix_rfl
        · refine ⟨part, [], isPart.trans (List.prefix_append _ _),
            List.nil_prefix, (List.append_nil _).symm, ?_⟩
          intro longer
          exact absurd isPart.length_le (Nat.not_le.2 longer)
        · refine ⟨[], [], [], List.nil_prefix, List.nil_prefix,
            List.forall_mem_nil _, .nothing, ?_⟩
          rw [frames_nil, List.append_nil, List.append_nil]
    · intro later more given tail position isTail isGiven
      apply position.offered
      refine ⟨tail, isTail, ?_⟩
      rw [List.prefix_append_right_inj]
      exact isGiven
  · cases request.action.symm.trans transfer.sender.isSend

end Steps

end DropFile.Server.Transfers
