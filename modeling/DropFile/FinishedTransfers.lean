import DropFile.Client.ReceivedContents
import DropFile.Client.SentContents
import DropFile.HonestTransfers
import DropFile.WrittenContents

/-!
# Finished transfers

A client that returns has not been deceived.  When a sender returns, a receiver
has confirmed the whole file, and when a receiver returns, what it has written
is the file that its sender has announced.  The server, the network and all
other clients may fail or do anything in between.
-/

namespace DropFile.FinishedTransfers

open DropFile.General.Processes.Process
open DropFile.General.Networks
open DropFile.General.Networks.Network
open DropFile.Streams
open DropFile.Socket
open DropFile.Framing
open DropFile.JsonObjects
open DropFile.InitSessionMessage
open DropFile.SessionMessages
open DropFile.Client.DropFileReceiveClient
open DropFile.Client.FirstMessages
open DropFile.Client.SentContents
open DropFile.Client.ReceivedContents
open DropFile.Client.ReceivedFiles (acknowledgement Fresh)
open DropFile.Server.SessionsManager
open DropFile.Server.ServerSideClientSession
open DropFile.Server.Transfers
open DropFile.Server.Serving
open DropFile.Parties
open DropFile.Parties.Participants
open DropFile.Consent
open DropFile.WrittenContents

/-! ## What a sender has sent -/

section Sending

variable {Peer : Type} {machine : Client.DropFileSendClient.Machine}
variable {server : Peer} {content : Bytes} {pieces : List Bytes}

/-- The bytes of a content and of the headers of its frames can be counted. -/
def Counts (content : Bytes) : Prop :=
  9 * content.length < sizeModulus

theorem Counts.frames_lt
    (counts : Counts content)
    (isPieces : PiecesOf content pieces) :
    (frames pieces).length < sizeModulus := by
  have few := ContentLoops.length_le_flatten isPieces.filled
  have part := isPieces.part.length_le
  rw [Counts] at counts
  rw [frames_length]
  omega

/-- A sender was sent a header that it refuses. -/
def Misled (server : Peer) {σ : Type} (moment : Local Peer σ) : Prop :=
  ∃ heard header, (∀ answer ∈ heard, answer.length ≤ bufferSize) ∧
    Oversized header ∧ frames heard ++ header <+: moment.received server

theorem ne_nil_of_offers
    {library : JsonLibrary} {message : Bytes}
    (strict : library.StrictContract)
    (sameLibrary : machine.library = library)
    (offers : OffersContent machine message content) :
    message ≠ [] := by
  rcases offers with ⟨_, _, _, _, -, creates, dumped⟩
  rw [sameLibrary] at dumped
  exact (create_of_dump_sendMessage strict creates dumped).2.2

/-- All of a sender's frames are pieces of the content that it offers. -/
theorem pieces_of_sends
    {library : JsonLibrary} {moment : Local Peer FileSystem.Disk}
    {first more : Bytes}
    (strict : library.StrictContract)
    (sameLibrary : machine.library = library)
    (sends : Sends machine server moment)
    (fits : first.length ≤ maxFirstMessageSize)
    (heard : frame first ++ more <+: moment.sent server) :
    Misled server moment ∨ ∃ content pieces,
      OffersContent machine first content ∧ PiecesOf content pieces ∧
        moment.sent server <+: frame first ++ frames pieces := by
  cases sends with
  | silent silent =>
      rw [silent, List.prefix_nil, List.append_eq_nil_iff] at heard
      exact absurd heard.1 (frame_ne_nil _)
  | @offers message content pieces offers isPieces isPart =>
      right
      have nonempty := ne_nil_of_offers strict sameLibrary offers
      have same := eq_of_heard fits nonempty
        ((List.prefix_append _ _).trans heard) isPart
      subst same
      refine ⟨content, pieces, offers, isPieces, ?_⟩
      rwa [frames_chunks_of_fits nonempty (fits.trans (by decide))]
        at isPart
  | refuses heardFits oversized received =>
      exact Or.inl ⟨_, _, heardFits, oversized, received⟩

end Sending

/-! ## One transfer -/

section Linking

variable {library : JsonLibrary} {codes : SessionCode → Prop}
variable {Peer : Type} {moment : Moment Peer}
variable {transfer : Transfer library codes Peer}
variable {sending : Client.DropFileSendClient.Machine}
variable {content : Bytes} {pieces : List Bytes}

/-- What the server makes of an offer is the offer. -/
theorem metadata_of_offers
    (strict : library.StrictContract)
    (sameLibrary : sending.library = library)
    (offers : OffersContent sending transfer.sender.message content) :
    transfer.sender.metadata = transfer.sender.message := by
  rcases offers with ⟨_, _, _, json, -, creates, dumped⟩
  rw [sameLibrary] at dumped
  have created := (create_of_dump_sendMessage strict creates dumped).1
  cases transfer.sender.created.symm.trans created
  exact Except.ok.inj (transfer.sender.dumped.symm.trans dumped)

/-- A receiver reads the size of the content in the offer. -/
theorem fileSize_of_offers
    {message : Bytes} {json : Json} {fileSize : Nat}
    (strict : library.StrictContract)
    (sameLibrary : sending.library = library)
    (offers : OffersContent sending message content)
    (counts : content.length < sizeModulus)
    (parsed : library.parse message = .ok json)
    (isSize : library.sizeAt json fileSizeKey = .ok fileSize) :
    fileSize = content.length := by
  rcases offers.exists_metadata with ⟨name, fileHash, isCompressed, dumped⟩
  rw [sameLibrary] at dumped
  have printed := parse_of_dump strict
    ((exists_members_assign _ _ _).imp fun _ both => both.1)
    (sendMessage_ordered _ _ _ _) (sendMessage_allPlain _ _ _ _) dumped
  cases parsed.symm.trans printed.1
  have reads := reads_of_isSendMessage library counts
    (isSendMessage_sendMessage name content.length fileHash isCompressed)
  exact Except.ok.inj (isSize.symm.trans reads.fileSize)

/-- A sender that sends pieces announces nothing that is too long. -/
theorem regular_of_pieces
    (strict : library.StrictContract)
    (sameLibrary : sending.library = library)
    (offers : OffersContent sending transfer.sender.message content)
    (counts : Counts content)
    (isPieces : PiecesOf content pieces)
    (heard : moment.received transfer.sender.client <+:
      frame transfer.sender.message ++ frames pieces) :
    Regular transfer moment where
  fits := by
    rw [metadata_of_offers strict sameLibrary offers]
    exact transfer.sender.fits.trans (by decide)
  accepted contents header oversized announced := by
    have whole := announced.trans heard
    rw [List.append_assoc, List.prefix_append_right_inj] at whole
    rcases exists_append_of_short (counts.frames_lt isPieces) whole with
      ⟨others, rfl, isHeader⟩
    apply not_oversized_of_prefix_frames _ isHeader oversized
    intro piece member
    exact isPieces.fits piece (List.mem_append_right _ member)

/-- What has come at the receiver is what the sender has offered. -/
theorem content_arrives
    {machine : Machine} {server : Peer} {view : Local Peer Receiving}
    {metadata : Bytes} {fileSize : Nat} {contents : List Bytes}
    (strict : library.StrictContract)
    (sameSending : sending.library = library)
    (sameReceiving : machine.library = library)
    (proceeds : Proceeds transfer moment)
    (offers : OffersContent sending transfer.sender.message content)
    (counts : Counts content)
    (isPieces : PiecesOf content pieces)
    (announced : moment.received transfer.sender.client <+:
      frame transfer.sender.message ++ frames pieces)
    (heard : moment.received transfer.receiver <+:
      frame transfer.request ++ frames [Socket.ack, Socket.ack])
    (told : view.received server <+: moment.sent transfer.receiver)
    (arrived :
      ArrivedWhole machine server metadata fileSize contents view) :
    metadata = transfer.sender.message ∧ fileSize = content.length ∧
      contents.flatten = content := by
  have regular := regular_of_pieces strict sameSending offers counts
    isPieces announced
  have sameMetadata := metadata_of_offers strict sameSending offers
  rcases proceeds.relayed with
    ⟨fetched, relayed, tail, fetches, passed, fit, isTail, sent⟩
  rcases texts_of_tail regular (Or.inl rfl) heard isTail with
    ⟨texts, rfl, -, noTexts⟩
  cases noTexts rfl
  have given : frames (metadata :: contents) ++ [] <+:
      frames (transfer.sender.metadata :: relayed) := by
    have whole := told.trans sent
    rw [arrived.received, frames_chunks_of_fits
      (metadata_ne_nil strict transfer) regular.fits, frames_nil,
      List.append_nil] at whole
    rwa [frames_cons, frames_cons, List.append_nil]
  rcases exists_append_of_prefix_frames
      (List.forall_mem_cons.2 ⟨arrived.fits, arrived.contentsFit⟩)
      (List.forall_mem_cons.2 ⟨regular.fits, fit⟩) given with
    ⟨others, split, -⟩
  rw [List.cons_append, List.cons.injEq, sameMetadata] at split
  have isMessage : metadata = transfer.sender.message := split.1.symm
  have isSize : fileSize = content.length := by
    rcases arrived.announced with ⟨json, parsed, isSize⟩
    rw [sameReceiving] at parsed isSize
    rw [isMessage] at parsed
    apply fileSize_of_offers strict sameSending offers _ parsed isSize
    rw [Counts] at counts
    omega
  refine ⟨isMessage, isSize, ?_⟩
  -- received, relayed, fetched and sent: each a part of the next
  have fromSender : fetched.flatten <+: content := by
    have whole := fetches.trans announced
    rw [List.prefix_append_right_inj, ← List.append_nil (frames fetched)]
      at whole
    rcases exists_append_of_short (counts.frames_lt isPieces) whole with
      ⟨rest, split, -⟩
    have isPart := isPieces.part
    rw [split, List.flatten_append] at isPart
    exact (List.prefix_append _ _).trans isPart
  have atReceiver : contents.flatten <+: relayed.flatten := by
    rw [split.2, List.flatten_append]
    exact List.prefix_append _ _
  apply (atReceiver.trans (passed.trans fromSender)).eq_of_length_le
  rw [← isSize]
  exact arrived.enough

end Linking

/-! ## What a receiver has sent -/

/-- A receiver that has confirmed its request twice has got all. -/
theorem arrived_of_two_acks
    {library : JsonLibrary} {Peer : Type} {machine : Machine}
    {server : Peer} {codeWords request : Bytes}
    {moment : Local Peer Receiving}
    (strict : library.StrictContract)
    (sameLibrary : machine.library = library)
    (confirms : Confirms machine server codeWords moment)
    (fits : request.length ≤ maxFirstMessageSize)
    (confirmed : frame request ++ frame Socket.ack ++ frame Socket.ack <+:
      moment.sent server) :
    moment.sent server =
        frame request ++ frames [Socket.ack, Socket.ack] ∧
      ∃ metadata fileSize contents,
        ArrivedWhole machine server metadata fileSize contents moment := by
  rcases confirms.requests with silent | ⟨message, more, dumped, sent⟩
  · rw [silent, List.prefix_nil, List.append_eq_nil_iff] at confirmed
    exact absurd confirmed.2 (frame_ne_nil _)
  · have printed := dumped
    rw [sameLibrary] at printed
    have nonempty := (create_of_dump_receiveMessage strict printed).2
    rw [List.append_assoc] at confirmed
    have same := eq_of_heard fits nonempty
      ((List.prefix_append _ _).trans confirmed) sent
    subst same
    have single : acknowledgement message ++ frame Socket.ack =
        frame message ++ frames [Socket.ack, Socket.ack] := by
      rw [acknowledgement, frames_chunks_of_fits nonempty
        (fits.trans (by decide)), List.append_assoc]
      rfl
    rw [← List.append_assoc] at confirmed
    have arrived := confirms.arrived message dumped
      (by rwa [acknowledgement, frames_chunks_of_fits nonempty
        (fits.trans (by decide))])
    rwa [single] at arrived

/-! ## Two confirmations -/

/-- In an `ACK` and a refusal there are no two `ACK`s. -/
theorem no_two_acks :
    ∀ length < (frame Socket.ack).length + 1,
      ∀ start < ((frame Socket.ack) ++ frames (chunks refusal)).length,
        ¬ frame Socket.ack ++ frame Socket.ack <+:
          ((frame Socket.ack).take length ++
            frames (chunks refusal)).drop start := by
  decide +kernel

/-- A peer that has read two `ACK`s was sent more than one. -/
theorem lt_of_two_acks
    {answer response answered acks refused : Bytes}
    (answerFits : answer.length ≤ bufferSize)
    (responseFits : response.length ≤ bufferSize)
    (isAnswered : answered <+: frames (chunks answer))
    (isAcks : acks <+: frame Socket.ack ++ frame Socket.ack)
    (isRefused : refused <+: frames (chunks refusal))
    (heard : frames [response, Socket.ack, Socket.ack] <+:
      answered ++ acks ++ refused) :
    (frame Socket.ack).length < acks.length := by
  rw [frames_cons, frames_cons, frames_cons, frames_nil, List.append_nil,
    List.append_assoc] at heard
  -- the answer may have been cut, and the response may have gone on with ACKs
  have inside : ∃ skipped,
      skipped ++ (frame Socket.ack ++ frame Socket.ack) <+:
        acks ++ refused := by
    have isResponse := (List.prefix_append _ _).trans heard
    rcases List.prefix_or_prefix_of_prefix isResponse
        (List.prefix_append answered (acks ++ refused)) with
      ⟨rest, whole⟩ | ⟨skipped, whole⟩
    · refine ⟨[], ?_⟩
      rcases singleAnswer_of_chunks answerFits isAnswered with
        ⟨single, singleFits, isPart⟩
      rw [← whole] at isPart
      have nothing := (eq_of_prefix_frame responseFits singleFits isPart).2
      rw [nothing, List.append_nil] at whole
      rw [← whole, List.prefix_append_right_inj] at heard
      exact heard
    · refine ⟨skipped, ?_⟩
      rw [← whole, List.append_assoc, List.prefix_append_right_inj] at heard
      exact heard
  rcases inside with ⟨skipped, inside⟩
  by_contra notLonger
  have short : acks.length < (frame Socket.ack).length + 1 :=
    Nat.lt_succ_of_le (Nat.not_lt.1 notLonger)
  have isTaken : acks = (frame Socket.ack).take acks.length := by
    have isPart : acks <+: frame Socket.ack :=
      List.prefix_of_prefix_length_le isAcks (List.prefix_append _ _)
        (Nat.not_lt.1 notLonger)
    exact List.prefix_iff_eq_take.1 isPart
  have within : skipped ++ (frame Socket.ack ++ frame Socket.ack) <+:
      (frame Socket.ack).take acks.length ++ frames (chunks refusal) := by
    rw [← isTaken]
    exact inside.trans ((List.prefix_append_right_inj _).2 isRefused)
  rcases within with ⟨more, whole⟩
  have longEnough := congrArg List.length whole
  have twoAcks : (frame Socket.ack ++ frame Socket.ack).length = 22 := by
    decide
  have oneAck : (frame Socket.ack).length = 11 := by
    decide
  apply no_two_acks acks.length short skipped.length
  · simp only [List.length_append, List.length_take] at longEnough ⊢
    rw [oneAck] at longEnough ⊢
    omega
  · rw [← whole, List.append_assoc, List.drop_left]
    exact List.prefix_append _ _

/-! ## One moment -/

section Moments

variable {Sender Receiver Stranger : Type}
variable {library : JsonLibrary}
variable {participants : Participants Sender Receiver Stranger}
variable {network : Network (Party Sender Receiver Stranger) Exception State
  fun _ => Unit}
variable {visited : List (Party Sender Receiver Stranger)}
variable {transfers : List (Transfer library (FitsAnswer library)
  (Party Sender Receiver Stranger))}

/-- A sender that returns was told of both confirmations of its receiver. -/
theorem confirmed_of_ended
    {name : Sender} {message content : Bytes} {pieces : List Bytes}
    {response : Bytes}
    (strict : library.StrictContract)
    (sameLibrary : (participants.sender name).machine.library = library)
    (consistent : Consistent visited transfers (network.view .server))
    (stands : Stands (participants.sender name).machine .server message
      content pieces [response, Socket.ack, Socket.ack]
      (network.view (.sender name))) :
    ∃ transfer ∈ transfers, transfer.sender.client = .sender name ∧
      transfer.sender.message = message ∧
      frame transfer.request ++ frame Socket.ack ++ frame Socket.ack <+:
        (network.view .server).received transfer.receiver := by
  have responseFits : response.length ≤ bufferSize :=
    stands.heardFits response List.mem_cons_self
  have released : Released .server message
      (network.view (.sender name)) := by
    constructor
    · rw [stands.sent]
      exact List.prefix_append _ _
    · rw [stands.received, frames_cons]
      exact not_single_of_more responseFits (by decide)
  rcases stands.offers with ⟨_, _, _, json, -, creates, dumped⟩
  rw [sameLibrary] at dumped
  rcases create_of_dump_sendMessage strict creates dumped with
    ⟨created, isSend, nonempty⟩
  rcases confirmed_of_released consistent created isSend nonempty
      released with
    ⟨transfer, isTransfer, isSender, sameMessage, confirmed⟩
  refine ⟨transfer, isTransfer, isSender, sameMessage, ?_⟩
  rcases confirmed.acknowledged with
    ⟨answered, acks, refused, isAnswered, isAcks, isRefused, sent,
      completes⟩
  apply completes
  have told := network.prefix_sent (.sender name) .server
  have heard : frames [response, Socket.ack, Socket.ack] <+:
      (network.view .server).sent transfer.sender.client := by
    rw [isSender, ← stands.received]
    exact told
  rw [sent] at heard
  exact lt_of_two_acks (transfer.sender.drawn _ transfer.sender.answered)
    responseFits isAnswered isAcks isRefused heard

/-- Who asks for a file gets one answer, or is the receiver of a transfer. -/
theorem single_or_transfer
    {party : Party Sender Receiver Stranger}
    {message more codeWords : Bytes}
    (consistent : Consistent visited transfers (network.view .server))
    (accepted :
      create library message = .ok (createReceiveMessage codeWords))
    (nonempty : message ≠ [])
    (requested :
      network.sent party .server <+: frames (chunks message) ++ more) :
    SingleAnswer ((network.view .server).sent party) ∨
      ∃ transfer ∈ transfers, transfer.receiver = party ∧
        transfer.request = message ∧ transfer.sender.code = codeWords := by
  have heard := (heard_of_sent network party).trans requested
  by_cases isParty : party ∈ partiesOf transfers
  · right
    rcases List.mem_flatMap.1 isParty with ⟨transfer, isTransfer, isParty⟩
    have proceeds := consistent.proceeds transfer isTransfer
    rcases List.mem_pair.1 isParty with rfl | rfl
    · exfalso
      have same := eq_of_heard transfer.sender.fits nonempty
        proceeds.announced heard
      have created := transfer.sender.created
      rw [← same, accepted] at created
      have isSend := transfer.sender.isSend
      rw [← Except.ok.inj created] at isSend
      cases (find_createReceiveMessage codeWords).1.symm.trans isSend
    · have same := eq_of_heard transfer.fits nonempty proceeds.requested
        heard
      rcases transfer.requested with ⟨json, created, request⟩
      rw [← same, accepted] at created
      cases created
      cases (find_createReceiveMessage codeWords).2.symm.trans
        request.codeWords
      exact ⟨transfer, isTransfer, rfl, same.symm, rfl⟩
  · left
    rcases consistent.others _ isParty with ⟨answer, own, isPart⟩
    exact singleAnswer_of_ownAnswer accepted nonempty heard own isPart

end Moments

/-! ## Every run -/

section Runs

variable {Sender Receiver Stranger : Type}
variable [DecidableEq Sender] [DecidableEq Receiver]
  [DecidableEq Stranger]
variable {library : JsonLibrary}
variable (participants : Participants Sender Receiver Stranger)
variable (network : Network (Party Sender Receiver Stranger) Exception State
  fun _ => Unit)

/-- What the clients still do. -/
structure Honors : Prop where
  sender : ∀ name, Ensures (fun _ => True)
    (Sends (participants.sender name).machine .server)
    (fun _ => Ended (participants.sender name).machine .server)
    (fun _ _ => True) (network.process (.sender name))
    (network.view (.sender name))
  receiver : ∀ name, Ensures (fun _ => True)
    (Confirms (participants.receiver name).machine .server
      (participants.receiver name).receiveCode)
    (fun _ => Wrote (participants.receiver name).machine .server
      (participants.receiver name).receiveCode)
    (fun _ _ => True) (network.process (.receiver name))
    (network.view (.receiver name))

variable {participants network}

theorem honors_network
    (fresh : ∀ name, Fresh (participants.receiver name).receiving) :
    Honors participants participants.network where
  sender _ := runSendClient_sends _ _ _ rfl rfl
  receiver name := runReceiveClient_wrote _ _ _ _ _ (fresh name)

theorem Honors.of_lossyRun
    {start : Network (Party Sender Receiver Stranger) Exception State
      fun _ => Unit}
    (honors : Honors participants start)
    (run : LossyRun start network) :
    Honors participants network where
  sender name :=
    ensures_of_lossyRun (Party.sender name) run (honors.sender name)
  receiver name :=
    ensures_of_lossyRun (Party.receiver name) run (honors.receiver name)

theorem Honors.ended
    {name : Sender}
    (honors : Honors participants network)
    (done : network.process (.sender name) = .done ()) :
    Ended (participants.sender name).machine .server
      (network.view (.sender name)) := by
  have ensures := honors.sender name
  rw [done] at ensures
  exact (ensures trivial).2

theorem Honors.wrote
    {name : Receiver}
    (honors : Honors participants network)
    (done : network.process (.receiver name) = .done ()) :
    Wrote (participants.receiver name).machine .server
      (participants.receiver name).receiveCode
      (network.view (.receiver name)) := by
  have ensures := honors.receiver name
  rw [done] at ensures
  exact (ensures trivial).2

section Statement

variable (participants network)
variable (transfers : List (Transfer library (FitsAnswer library)
  (Party Sender Receiver Stranger)))

/-- A receiver has got the file of a sender, and it has confirmed that. -/
def HasDelivered (name : Sender) : Prop :=
  ∃ transfer ∈ transfers, ∃ content,
    transfer.sender.client = .sender name ∧
    OffersContent (participants.sender name).machine
      transfer.sender.message content ∧
    frame transfer.request ++ frame Socket.ack ++ frame Socket.ack <+:
      network.sent transfer.receiver .server ∧
    ∀ receiver, transfer.receiver = .receiver receiver → Counts content →
      ∃ contents,
        (network.view (.receiver receiver)).received .server =
          frame transfer.sender.message ++ frames contents ∧
        contents.flatten = content

/-- What a receiver has written is the file that was offered. -/
def HasReceived (name : Receiver) : Prop :=
  (network.state (.receiver name)).written = [] ∨
    ∃ transfer ∈ transfers,
      transfer.receiver = .receiver name ∧
      transfer.sender.code = (participants.receiver name).receiveCode ∧
      ∀ sender, transfer.sender.client = .sender sender →
        Misled .server (network.view (.sender sender)) ∨
          ∃ content,
            OffersContent (participants.sender sender).machine
              transfer.sender.message content ∧
            (Counts content →
              (network.state (.receiver name)).written = content)

end Statement

variable {visited : List (Party Sender Receiver Stranger)}
variable {transfers : List (Transfer library (FitsAnswer library)
  (Party Sender Receiver Stranger))}

theorem hasDelivered_of_ended
    {name : Sender}
    (strict : library.StrictContract)
    (agree : participants.Agree library)
    (consistent : Consistent visited transfers (network.view .server))
    (honors : Honors participants network)
    (ended : Ended (participants.sender name).machine .server
      (network.view (.sender name))) :
    HasDelivered participants network transfers name := by
  rcases ended with ⟨message, content, pieces, response, stands⟩
  rcases confirmed_of_ended strict (agree.sender name) consistent
      stands with ⟨transfer, isTransfer, isSender, rfl, confirmed⟩
  have proceeds := consistent.proceeds transfer isTransfer
  have answered := confirmed.trans
    (heard_of_sent network transfer.receiver)
  refine ⟨transfer, isTransfer, content, isSender, stands.offers, answered,
    ?_⟩
  intro receiver isReceiver counts
  rw [isReceiver] at answered
  rcases arrived_of_two_acks strict (agree.receiver receiver)
      ((honors.receiver receiver).now trivial) transfer.fits answered with
    ⟨sent, metadata, fileSize, contents, arrived⟩
  have announced : (network.view .server).received transfer.sender.client <+:
      frame transfer.sender.message ++ frames pieces := by
    have nonempty :=
      ne_nil_of_offers strict (agree.sender name) stands.offers
    rw [isSender, ← frames_chunks_of_fits nonempty
      (transfer.sender.fits.trans (by decide)), ← stands.sent]
    exact heard_of_sent network (.sender name)
  have heard : (network.view .server).received transfer.receiver <+:
      frame transfer.request ++ frames [Socket.ack, Socket.ack] := by
    rw [isReceiver, ← sent]
    exact heard_of_sent network (.receiver receiver)
  have told : (network.view (.receiver receiver)).received .server <+:
      (network.view .server).sent transfer.receiver := by
    rw [isReceiver]
    exact network.prefix_sent (.receiver receiver) .server
  rcases content_arrives strict (agree.sender name)
      (agree.receiver receiver) proceeds stands.offers counts
      stands.isPieces announced heard told arrived with
    ⟨rfl, -, whole⟩
  exact ⟨contents, arrived.received, whole⟩

theorem hasReceived_of_wrote
    {name : Receiver}
    (strict : library.StrictContract)
    (agree : participants.Agree library)
    (consistent : Consistent visited transfers (network.view .server))
    (honors : Honors participants network)
    (wrote : Wrote (participants.receiver name).machine .server
      (participants.receiver name).receiveCode
      (network.view (.receiver name))) :
    HasReceived participants network transfers name := by
  rcases wrote with
    ⟨request, metadata, fileSize, contents, dumped, arrived, sent, written⟩
  have told := network.prefix_sent (.receiver name) .server
  rw [agree.receiver name] at dumped
  have accepted := create_of_dump_receiveMessage strict dumped
  have requested : network.sent (.receiver name) .server <+:
      frames (chunks request) ++ frames [Socket.ack, Socket.ack] := by
    show (network.view (.receiver name)).sent .server <+: _
    rw [sent, acknowledgement, frames_cons, frames_cons, frames_nil,
      List.append_nil, List.append_assoc]
  rcases single_or_transfer consistent accepted.1 accepted.2 requested with
    single | ⟨transfer, isTransfer, isReceiver, rfl, sameCode⟩
  · left
    have whole := single.of_prefix told
    have nothing : contents = [] := by
      by_contra some
      have more : frames contents ≠ [] := by
        cases contents with
        | nil => exact absurd rfl some
        | cons content others =>
            rw [frames_cons]
            exact List.append_ne_nil_of_left_ne_nil (frame_ne_nil _) _
      apply not_single_of_more arrived.fits more
      rw [← arrived.received]
      exact whole
    rw [nothing] at written
    exact written.trans List.take_nil
  · right
    refine ⟨transfer, isTransfer, isReceiver, sameCode, ?_⟩
    intro sender isSender
    have proceeds := consistent.proceeds transfer isTransfer
    have announced := heard_of_sent network transfer.sender.client
    have first := proceeds.announced.trans announced
    rw [← List.append_nil (frame _), isSender] at first
    rcases pieces_of_sends strict (agree.sender sender)
        ((honors.sender sender).now trivial) transfer.sender.fits first with
      misled | ⟨content, pieces, offers, isPieces, whole⟩
    · exact Or.inl misled
    · right
      refine ⟨content, offers, ?_⟩
      intro counts
      rw [isSender] at announced
      have heard : (network.view .server).received transfer.receiver <+:
          frame transfer.request ++ frames [Socket.ack, Socket.ack] := by
        rw [isReceiver, ← frames_chunks_of_fits accepted.2
          (transfer.fits.trans (by decide))]
        exact (heard_of_sent network _).trans requested
      have fromServer :
          (network.view (.receiver name)).received .server <+:
            (network.view .server).sent transfer.receiver := by
        rw [isReceiver]
        exact told
      rcases content_arrives strict (agree.sender sender)
          (agree.receiver name) proceeds offers counts isPieces
          (isSender ▸ announced.trans whole) heard fromServer arrived with
        ⟨-, rfl, isContent⟩
      rw [isContent, List.take_length] at written
      exact written

/--
At every moment of every run the transfers explain all that the server has
sent, and no client that has returned is wrong about its transfer.
-/
theorem finished_clients_have_transferred
    (library : JsonLibrary) (strict : library.StrictContract)
    (participants : Participants Sender Receiver Stranger)
    (agree : participants.Agree library)
    (fresh : ∀ name, Fresh (participants.receiver name).receiving)
    (network : Network (Party Sender Receiver Stranger) Exception State
      fun _ => Unit)
    (run : LossyRun participants.network network) :
    ∃ visited, ∃ transfers : List (Transfer library (FitsAnswer library)
        (Party Sender Receiver Stranger)),
      Consistent visited transfers (network.view .server) ∧
      (∀ name, network.process (.sender name) = .done () →
        HasDelivered participants network transfers name) ∧
      ∀ name, network.process (.receiver name) = .done () →
        HasReceived participants network transfers name := by
  have behaves := (behaves_network strict agree).of_lossyRun run
  have honors := (honors_network fresh).of_lossyRun run
  rcases behaves.server.now trivial with ⟨visited, transfers, consistent⟩
  refine ⟨visited, transfers, consistent, ?_, ?_⟩
  · intro name done
    exact hasDelivered_of_ended strict agree consistent honors
      (honors.ended done)
  · intro name done
    exact hasReceived_of_wrote strict agree consistent honors
      (honors.wrote done)

end Runs

/-! ## Three bytes -/

abbrev Couple := Party Unit Unit Empty

/-- A sender and a receiver that run the client program. -/
def couple : Participants Unit Unit Empty where
  visits :=
    [⟨.sender (), Server.FirstRead.flatSettings, 4, 0, []⟩,
      ⟨.receiver (), Server.FirstRead.flatSettings, 4, 0, []⟩]
  sender _ := ⟨HonestTransfers.abcExchange.sender, ascii "f", 4,
    HonestTransfers.abcExchange.senderDisk⟩
  receiver _ := ⟨Client.FileHashes.hashingMachine, ascii "y",
    ascii "old-two-7", 4, ⟨⟨.empty, []⟩, none, none⟩⟩
  stranger name := nomatch name

theorem couple_agree : couple.Agree FlatJson.flatLibrary := by
  apply agree_of_flatSettings
  · intro visit isVisit
    rcases List.mem_pair.1 isVisit with rfl | rfl
    · rfl
    · rfl
  · intro _
    rfl
  · intro _
    rfl
  · decide

theorem couple_fresh (name : Unit) :
    Fresh (couple.receiver name).receiving :=
  ⟨rfl, rfl⟩

def abcOffer : Bytes :=
  FlatJson.flatText
    (HonestTransfers.abcExchange.metadata Client.FileHashes.knownSha256
      (ascii "abc"))

/-- The file goes over the server byte by byte. -/
def wholeTransfer : List (Couple × Bytes) :=
  let content := frames [ascii "a", ascii "b", ascii "c"]
  [(.server, frame abcOffer), (.sender (), frame codeText),
    (.receiver (), []), (.server, frame requestText),
    (.receiver (), frame abcOffer), (.server, frame Socket.ack),
    (.sender (), frame Socket.ack), (.server, content),
    (.receiver (), content), (.server, frame Socket.ack),
    (.sender (), frame Socket.ack), (.server, [])]

/-- Whether a party has returned. -/
def hasReturned {σ : Type} : SocketProcess Couple σ Unit → Bool
  | .done _ => true
  | _ => false

theorem eq_done_of_hasReturned
    {σ : Type} {process : SocketProcess Couple σ Unit}
    (returned : hasReturned process = true) :
    process = .done () := by
  cases process with
  | done value => rfl
  | _ => cases returned

/-- A client that has returned, and what the receiver has then written. -/
def Returned : (who : Couple) →
    SocketProcess Couple (State who) Unit → State who → Prop
  | .sender _, left, _ => left = .done ()
  | .receiver _, left, receiving =>
      left = .done () ∧ receiving.written = ascii "abc"
  | _, _, _ => True

/-- The clients keep to their parts, whoever serves them. -/
theorem couple_converses (who : Couple) (isClient : who ≠ .server) :
    General.Dialogues.Converses (Returned who)
      (General.Dialogues.turnsOf who (.sender ()) .server [] wholeTransfer)
      (couple.process who) (couple.initialState who) := by
  have sender : (General.Dialogues.takeTurns
      (General.Dialogues.turnsOf (.sender ()) (.sender ()) .server []
        wholeTransfer)
      (couple.process (.sender ())) (couple.initialState (.sender ()))).map
        (fun reached => hasReturned reached.1) = some true := by
    decide +kernel
  have receiver : (General.Dialogues.takeTurns
      (General.Dialogues.turnsOf (.receiver ()) (.sender ()) .server []
        wholeTransfer)
      (couple.process (.receiver ()))
      (couple.initialState (.receiver ()))).map
        (fun reached => (hasReturned reached.1, reached.2.written)) =
          some (true, ascii "abc") := by
    decide +kernel
  cases who with
  | server => exact absurd rfl isClient
  | sender name =>
      rcases Option.map_eq_some_iff.1 sender with
        ⟨⟨_, _⟩, taken, returned⟩
      exact General.Dialogues.converses_of_takeTurns taken
        (eq_done_of_hasReturned returned)
  | receiver name =>
      rcases Option.map_eq_some_iff.1 receiver with
        ⟨⟨_, _⟩, taken, ends⟩
      have both := Prod.mk.inj ends
      exact General.Dialogues.converses_of_takeTurns taken
        ⟨eq_done_of_hasReturned both.1, both.2⟩
  | stranger name => cases name

/-- A server that keeps to its part of the transfer. -/
theorem exists_returned_of_server
    {network : Network Couple Exception State fun _ => Unit}
    (nothingSent : network.sent = fun _ => silence)
    (clients : ∀ who, who ≠ .server →
      network.process who = couple.process who)
    (states : network.state = couple.initialState)
    (server : (General.Dialogues.takeTurns
      (General.Dialogues.turnsOf .server (.sender ()) .server []
        wholeTransfer)
      (network.process .server) ∅).isSome = true) :
    ∃ later, LossyRun network later ∧
      ∀ who, Returned who (later.process who) (later.state who) := by
  have silent : network.Turn (.sender ()) .server [] := by
    intro reader
    rw [only_nil, ite_self]
    ext1 peer
    simp [Network.unread, nothingSent]
  have converses : ∀ who : Couple,
      General.Dialogues.Converses (Returned who)
        (General.Dialogues.turnsOf who (.sender ()) .server []
          wholeTransfer)
        (network.process who) (network.state who) := by
    intro who
    rw [states]
    by_cases isServer : who = .server
    · subst isServer
      rcases Option.isSome_iff_exists.1 server with ⟨⟨_, _⟩, taken⟩
      exact General.Dialogues.converses_of_takeTurns taken trivial
    · rw [clients who isServer]
      exact couple_converses who isServer
  rcases General.Dialogues.reaches_end_of_dialogue silent
      (by decide +kernel) converses with ⟨later, reaches, ends, -⟩
  exact ⟨later, lossyRun_of_reaches reaches, ends⟩

theorem exists_returned :
    ∃ network, LossyRun couple.network network ∧
      ∀ who, Returned who (network.process who) (network.state who) :=
  exists_returned_of_server rfl (fun _ _ => rfl) rfl
    (by decide +kernel)

theorem finished_clients_have_transferred_couple :
    ∃ network, LossyRun couple.network network ∧
      (∀ who, Returned who (network.process who) (network.state who)) ∧
      ∃ visited, ∃ transfers : List (Transfer FlatJson.flatLibrary
          (FitsAnswer FlatJson.flatLibrary) Couple),
        Consistent visited transfers (network.view .server) ∧
        (∀ name, network.process (.sender name) = .done () →
          HasDelivered couple network transfers name) ∧
        ∀ name, network.process (.receiver name) = .done () →
          HasReceived couple network transfers name := by
  rcases exists_returned with ⟨network, run, returned⟩
  exact ⟨network, run, returned,
    finished_clients_have_transferred FlatJson.flatLibrary
      FlatJson.flatLibrary_strict couple couple_agree couple_fresh network
      run⟩

end DropFile.FinishedTransfers
