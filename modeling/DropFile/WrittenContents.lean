import DropFile.Client.LeftBehind
import DropFile.Consent

/-!
# What a receiver writes

A receiver writes what the sender has sent, as long as the sender announces no
frame that is too long.  The server answers to such a frame with a text for the
receiver, which has nothing to tell this text from a content.
-/

namespace DropFile.WrittenContents

open DropFile.General.Dialogues
open DropFile.General.Processes
open DropFile.General.Processes.Process
open DropFile.General.Networks
open DropFile.General.Networks.Network
open DropFile.Streams
open DropFile.FileSystem
open DropFile.Socket
open DropFile.Framing
open DropFile.JsonObjects
open DropFile.InitSessionMessage
open DropFile.SessionMessages
open DropFile.Client
open DropFile.Client.DropFileReceiveClient
open DropFile.Client.FirstMessages
open DropFile.Client.ReceivedFiles
open DropFile.Client.ReceivingPhases
open DropFile.Client.RunDropFileClient
open DropFile.Server.SessionsManager
open DropFile.Server.ServerSideClientSession
open DropFile.Server.Transfers
open DropFile.Server.Serving
open DropFile.Parties
open DropFile.Parties.Participants
open DropFile.Consent

/-! ## The receiver -/

section Receiving

variable {Peer : Type} {machine : Machine} {server : Peer}
variable {codeWords : Bytes} {moment : Local Peer Receiving}

/--
What a receiver has written are contents that came after the metadata.  After
them it has sent an ACK, or a refusal of what came next.
-/
inductive Stores (machine : Machine) (server : Peer) (codeWords : Bytes)
    (moment : Local Peer Receiving) : Prop where
  | nothing :
      moment.state.written = [] → Stores machine server codeWords moment
  | contents {message metadata rest last : Bytes} {contents : List Bytes} :
      machine.library.dump (createReceiveMessage codeWords) =
        .ok message →
      metadata.length ≤ bufferSize →
      (∀ content ∈ contents, content.length ≤ bufferSize) →
      moment.received server =
        frame metadata ++ frames contents ++ rest →
      moment.state.written <+: contents.flatten →
      last = Socket.ack ∨ last = refusal ∧ Oversized rest →
      moment.sent server <+: acknowledgement message ++ frame last →
      Stores machine server codeWords moment

theorem stores_of_untouched
    {disk : Disk}
    (isUntouched : moment.state = untouched disk) :
    Stores machine server codeWords moment := by
  apply Stores.nothing
  rw [isUntouched]
  rfl

theorem written_of_holds
    {disk : Disk} {announcement : Announcements.Announcement machine disk.tree}
    {contents : List Bytes} {receiving : Receiving}
    (holds : Holds announcement (announcement.expected contents)
      receiving) :
    receiving.written <+: contents.flatten := by
  rcases holds.written with all | nothing
  · rw [all]
    exact List.take_prefix _ _
  · rw [nothing]
    exact List.nil_prefix

theorem stores_of_phase
    {disk : Disk} {fuel : Nat}
    (phase : Phase machine disk server codeWords fuel moment) :
    Stores machine server codeWords moment := by
  cases phase with
  | silent isUntouched => exact stores_of_untouched isUntouched
  | requests _ isUntouched => exact stores_of_untouched isUntouched
  | declines _ isUntouched => exact stores_of_untouched isUntouched
  | agrees _ isUntouched => exact stores_of_untouched isUntouched
  | opens _ _ _ _ isState =>
      apply Stores.nothing
      rw [isState]
      rfl
  | fills dumped fits contentsFit received holds sent =>
      apply Stores.contents dumped fits contentsFit received
        (written_of_holds holds) (Or.inl rfl)
      rw [sent]
      exact List.prefix_append _ _
  | refuses dumped fits contentsFit received oversized holds sent =>
      rw [chunks_last (Or.inr rfl)] at sent
      exact .contents dumped fits contentsFit received
        (written_of_holds holds) (Or.inr ⟨rfl, oversized⟩) sent
  | finishes dumped fits contentsFit arrived holds _ sent =>
      have received := arrived.received
      rw [← List.append_nil (_ ++ _)] at received
      exact .contents dumped fits contentsFit received
        (written_of_holds holds) (Or.inl rfl) sent
  | unpacks dumped fits contentsFit verified _ _ _ _ _ sent =>
      have received := verified.arrived.received
      rw [← List.append_nil (_ ++ _)] at received
      apply Stores.contents dumped fits contentsFit received _ (Or.inl rfl)
      · rw [sent]
      · rw [Receiving.written, verified.receivedFile]
        exact List.take_prefix _ _

theorem Stores.withDisk
    (stores : Stores machine server codeWords moment)
    (disk : Disk) :
    Stores machine server codeWords (withDisk moment disk) := by
  cases stores with
  | nothing nothing => exact .nothing nothing
  | contents dumped fits contentsFit received written isLast sent =>
      exact .contents dumped fits contentsFit received written isLast sent

variable [DecidableEq Peer]

theorem onDisk_stores
    (stores : Stores machine server codeWords moment)
    (program : DiskProgram Unit) :
    Ensures (fun _ => True) (Stores machine server codeWords)
      (fun _ later => ∃ disk, later = ReceivedFiles.withDisk moment disk)
      (fun _ _ => True) (onDisk program : ReceiverProcess Peer Unit)
      moment :=
  onDisk_ensures_always program stores stores.withDisk

theorem runReceiveClient_stores
    (machine : Machine) (server : Peer) (interactionStream : Bytes)
    (codeWords : Bytes) (fuel : Nat) (disk : Disk) :
    Ensures (fun _ => True) (Stores machine server codeWords)
      (fun _ _ => True) (fun _ _ => True)
      (runReceiveClient machine server interactionStream codeWords fuel)
      (starting disk) := by
  have started (other : Disk) :
      Stores machine server codeWords (starting other : Local Peer _) :=
    stores_of_untouched rfl
  have destroys {later : Local Peer Receiving}
      (stores : Stores machine server codeWords later) :
      Ensures (fun _ => True) (Stores machine server codeWords)
        (fun _ _ => True) (fun _ _ => True)
        (DropFileReceiveClient.destroy machine) later := by
    apply (onDisk_stores stores _).weaken
    · intro _ _ _ _ _
      trivial
    · intro _ _ _ _ _
      trivial
  have constructs : Ensures (fun _ => True)
      (Stores machine server codeWords)
      (fun _ later => ∃ other, later = starting other) (fun _ _ => True)
      (DropFileReceiveClient.construct machine) (starting disk) := by
    rw [DropFileReceiveClient.construct]
    apply (onDisk_stores (started disk) _).bind
    rintro _ _ _ _ ⟨other, rfl⟩
    apply (onDisk_stores (started other) _).weaken
    · rintro _ _ _ _ ⟨last, rfl⟩
      exact ⟨last, rfl⟩
    · intro _ _ _ _ _
      trivial
  rw [runReceiveClient]
  apply constructs.bind
  rintro _ _ _ _ ⟨other, rfl⟩
  have receives := (ReceivingPhases.receiveFile_ensures machine server
    (extractConfirmation interactionStream) codeWords fuel
    other).weakenAlways fun later => stores_of_phase
  have handles : Ensures (fun _ => True) (Stores machine server codeWords)
      (fun _ _ => True) (fun _ _ => True)
      (Process.handle
        (fun exception => do
          DropFileReceiveClient.destroy machine
          raise exception)
        (receiveFile machine server (extractConfirmation interactionStream)
          codeWords fuel)) (starting other) := by
    apply receives.handle
    intro exception later _ stores _
    apply (destroys stores).bind
    intro _ _ _ stores _
    exact .raise stores trivial
  apply handles.bind
  intro _ later _ stores _
  exact destroys stores

end Receiving

/-! ## Headers -/

/-- No header of an accepted frame announces too much. -/
theorem not_oversized_of_prefix_frames
    {header : Bytes} {texts : List Bytes}
    (accepted : ∀ text ∈ texts, text.length ≤ bufferSize)
    (isPrefix : header <+: frames texts) :
    ¬ Oversized header := by
  intro oversized
  cases texts with
  | nil =>
      have none := List.prefix_nil.1 isPrefix
      have length := oversized.1
      rw [none] at length
      cases length
  | cons text rest =>
      rw [frames_cons] at isPrefix
      have isFirst : header <+: frame text := by
        apply List.prefix_of_prefix_length_le isPrefix
          (List.prefix_append _ _)
        rw [oversized.1, frame, List.length_append, sizeBytes_length]
        exact Nat.le_add_right _ _
      exact not_single_of_oversized oversized
        ⟨text, accepted text List.mem_cons_self, isFirst⟩

theorem accepted_pair
    {last : Bytes}
    (isLast : last = Socket.ack ∨ last = refusal) :
    ∀ text ∈ [Socket.ack, last], text.length ≤ bufferSize := by
  intro text member
  rcases List.mem_pair.1 member with rfl | rfl
  · decide
  · rcases isLast with rfl | rfl
    · decide
    · decide +kernel

/-! ## One moment -/

section Moments

variable {library : JsonLibrary} {codes : SessionCode → Prop}
variable {Peer : Type} {moment : Moment Peer}
variable {transfer : Transfer library codes Peer}

/--
The metadata goes into one frame, and the sender announces nothing that is too
long.
-/
structure Regular (transfer : Transfer library codes Peer)
    (moment : Moment Peer) : Prop where
  fits : transfer.sender.metadata.length ≤ bufferSize
  accepted : ∀ contents header, Oversized header →
    ¬ frame transfer.sender.message ++ frames contents ++ header <+:
      moment.received transfer.sender.client

/-- The server answers to nothing but a refusal. -/
theorem texts_of_tail
    {last tail : Bytes}
    (regular : Regular transfer moment)
    (isLast : last = Socket.ack ∨ last = refusal)
    (heard : moment.received transfer.receiver <+:
      frame transfer.request ++ frames [Socket.ack, last])
    (isTail : Tail transfer moment tail) :
    ∃ texts, tail = frames texts ∧
      (∀ text ∈ texts, text.length ≤ bufferSize) ∧
      (last = Socket.ack → texts = []) := by
  have accepted := accepted_pair isLast
  have acked {response : Bytes}
      (fits : response.length ≤ bufferSize)
      (notAck : response ≠ Socket.ack) :
      ¬ frame response <+: frames [Socket.ack, last] := by
    intro responds
    have single : frames [response] ++ [] <+: frames [Socket.ack, last] := by
      rw [frames_cons, frames_nil, List.append_nil, List.append_nil]
      exact responds
    rcases exists_append_of_prefix_frames (by simpa using fits) accepted
      single with ⟨others, same, -⟩
    exact notAck (List.cons.inj same).1.symm
  have second {rest : Bytes}
      (isPrefix : frame Socket.ack ++ rest <+: frames [Socket.ack, last]) :
      rest <+: frames [last] := by
    rw [frames_cons, List.prefix_append_right_inj] at isPrefix
    exact isPrefix
  cases isTail with
  | nothing => exact ⟨[], rfl, List.forall_mem_nil _, fun _ => rfl⟩
  | receiverTooLong hears oversized received _ =>
      exfalso
      have announced := received.trans heard
      rw [List.append_assoc, List.prefix_append_right_inj] at announced
      rcases hears with rfl | rfl
      · exact not_oversized_of_prefix_frames accepted announced oversized
      · apply not_oversized_of_prefix_frames _ (second announced) oversized
        exact fun text member =>
          accepted text (List.mem_cons_of_mem _ member)
  | @receiverNotOk _ response hears notAck fits received =>
      have responds := received.trans heard
      rw [List.append_assoc, List.prefix_append_right_inj] at responds
      rcases hears with rfl | rfl
      · exact absurd responds (acked fits notAck)
      · refine ⟨chunks (responseNotOk response).message, rfl, ?_, ?_⟩
        · intro text member
          exact ((cutsInto_chunks _).accepted text member).2
        · rintro rfl
          have again := second responds
          rw [frames_cons, frames_nil] at again
          rw [← List.append_nil (frame response),
            List.append_nil (frame Socket.ack)] at again
          exact absurd (eq_of_prefix_frame fits (by decide) again).1 notAck
  | senderTooLong oversized received =>
      exact absurd received (regular.accepted _ _ oversized)

theorem metadata_ne_nil
    (strict : library.StrictContract)
    (transfer : Transfer library codes Peer) :
    transfer.sender.metadata ≠ [] := by
  intro empty
  have accepted := (create_ok library transfer.sender.created).1
  have ordered := strict.ordered_of_parse accepted
  have isUtf8 := strict.utf8_of_parse accepted
  rcases strict.parses ordered isUtf8 transfer.sender.dumped with
    ⟨again, parsed, -⟩
  rw [empty] at parsed
  exact strict.nothing again parsed

/-- What a receiver has written is what it was sent of the contents. -/
theorem written_of_transfer
    {machine : Machine} {server : Peer} {codeWords : Bytes}
    {view : Local Peer Receiving}
    (strict : library.StrictContract)
    (sameLibrary : machine.library = library)
    (proceeds : Proceeds transfer moment)
    (regular : Regular transfer moment)
    (stores : Stores machine server codeWords view)
    (heard : moment.received transfer.receiver <+: view.sent server)
    (told : view.received server <+: moment.sent transfer.receiver) :
    ∃ contents,
      frame transfer.sender.message ++ frames contents <+:
        moment.received transfer.sender.client ∧
      view.state.written <+: contents.flatten := by
  rcases proceeds.relayed with
    ⟨contents, pieces, tail, fetched, passed, fit, isTail, sent⟩
  cases stores with
  | nothing nothing =>
      refine ⟨contents, fetched, ?_⟩
      rw [nothing]
      exact List.nil_prefix
  | @contents message metadata rest last written dumped fits writtenFit
      received isWritten isLast confirmed =>
      subst sameLibrary
      have accepted := create_of_dump_receiveMessage strict dumped
      have isLastText : last = Socket.ack ∨ last = refusal :=
        isLast.imp_right And.left
      have requested := heard.trans confirmed
      rw [acknowledgement, List.append_assoc] at requested
      have isRequest := eq_of_heard transfer.fits accepted.2
        proceeds.requested requested
      have single : frames (chunks message) = frame transfer.request := by
        rw [frames_chunks_of_fits accepted.2, isRequest]
        rw [isRequest]
        exact transfer.fits.trans (by decide)
      have after : moment.received transfer.receiver <+:
          frame transfer.request ++ frames [Socket.ack, last] := by
        rw [single] at requested
        rw [frames_cons, frames_cons, frames_nil, List.append_nil]
        exact requested
      rcases texts_of_tail regular isLastText after isTail with
        ⟨texts, rfl, textsFit, noTexts⟩
      have given : frames (metadata :: written) ++ rest <+:
          frames (transfer.sender.metadata :: (pieces ++ texts)) := by
        have whole := told.trans sent
        rw [received, frames_chunks_of_fits (metadata_ne_nil strict transfer)
          regular.fits, List.append_assoc _ (frames pieces),
          ← frames_append] at whole
        rw [frames_cons, frames_cons]
        exact whole
      have givenFit : ∀ text ∈ transfer.sender.metadata ::
          (pieces ++ texts), text.length ≤ bufferSize := by
        rw [List.forall_mem_cons, List.forall_mem_append]
        exact ⟨regular.fits, fit, textsFit⟩
      rcases exists_append_of_prefix_frames
          (List.forall_mem_cons.2 ⟨fits, writtenFit⟩) givenFit given with
        ⟨others, split, isRest⟩
      rw [List.cons_append, List.cons.injEq] at split
      rcases isLast with isAck | ⟨-, oversized⟩
      · refine ⟨contents, fetched, ?_⟩
        rw [noTexts isAck, List.append_nil] at split
        have first : written.flatten <+: pieces.flatten := by
          rw [split.2, List.flatten_append]
          exact List.prefix_append _ _
        exact (isWritten.trans first).trans passed
      · exfalso
        apply not_oversized_of_prefix_frames _ isRest oversized
        intro text member
        apply givenFit
        rw [split.2]
        exact List.mem_cons_of_mem _ (List.mem_append_right _ member)

end Moments

/-! ## Every run -/

section Runs

variable {Sender Receiver Stranger : Type}
variable {library : JsonLibrary}
variable {participants : Participants Sender Receiver Stranger}
variable {network : Network (Party Sender Receiver Stranger) Exception State
  fun _ => Unit}
variable {visited : List (Party Sender Receiver Stranger)}
variable {transfers : List (Transfer library (FitsAnswer library)
  (Party Sender Receiver Stranger))}

variable (network transfers) in
/--
A receiver has written nothing but contents of the sender whose file it has
asked for.
-/
def WritesContents (name : Receiver) : Prop :=
  (network.state (.receiver name)).written = [] ∨
    ∃ transfer ∈ transfers, transfer.receiver = .receiver name ∧
      ∃ contents,
        frame transfer.sender.message ++ frames contents <+:
          network.sent transfer.sender.client .server ∧
        (network.state (.receiver name)).written <+: contents.flatten

theorem writesContents_of_stores
    {name : Receiver}
    (strict : library.StrictContract)
    (sameLibrary : (participants.receiver name).machine.library = library)
    (consistent : Consistent visited transfers (network.view .server))
    (stores : Stores (participants.receiver name).machine .server
      (participants.receiver name).receiveCode
      (network.view (.receiver name)))
    (regular : ∀ transfer ∈ transfers,
      transfer.receiver = .receiver name →
      Regular transfer (network.view .server)) :
    WritesContents network transfers name := by
  have heard := heard_of_sent network (.receiver name)
  have told := network.prefix_sent (.receiver name) .server
  by_cases isParty : (.receiver name : Party Sender Receiver Stranger) ∈
      partiesOf transfers
  · rcases List.mem_flatMap.1 isParty with ⟨transfer, isTransfer, isParty⟩
    have proceeds := consistent.proceeds transfer isTransfer
    rcases List.mem_pair.1 isParty with isSender | isReceiver
    · left
      cases stores with
      | nothing nothing => exact nothing
      | contents dumped _ _ _ _ _ confirmed =>
          exfalso
          subst sameLibrary
          have accepted := create_of_dump_receiveMessage strict dumped
          have announced := proceeds.announced
          rw [← isSender] at announced
          have requested := heard.trans confirmed
          rw [acknowledgement, List.append_assoc] at requested
          have same := eq_of_heard transfer.sender.fits accepted.2 announced
            requested
          have created := transfer.sender.created
          rw [← same, accepted.1] at created
          have isSend := transfer.sender.isSend
          rw [← Except.ok.inj created] at isSend
          cases (find_createReceiveMessage
            (participants.receiver name).receiveCode).1.symm.trans isSend
    · right
      rcases written_of_transfer strict sameLibrary proceeds
          (regular transfer isTransfer isReceiver.symm) stores
          (isReceiver ▸ heard) (isReceiver ▸ told) with
        ⟨contents, fetched, written⟩
      exact ⟨transfer, isTransfer, isReceiver.symm, contents,
        fetched.trans (heard_of_sent network _), written⟩
  · left
    cases stores with
    | nothing nothing => exact nothing
    | @contents _ metadata rest _ contents dumped fits _ received written _
        confirmed =>
        subst sameLibrary
        have accepted := create_of_dump_receiveMessage strict dumped
        have requested := heard.trans confirmed
        rw [acknowledgement, List.append_assoc] at requested
        rcases consistent.others _ isParty with ⟨answer, own, isPart⟩
        have single := singleAnswer_of_ownAnswer accepted.1 accepted.2
          requested own isPart
        have whole := single.of_prefix told
        cases contents with
        | nil => exact List.prefix_nil.1 written
        | cons content others =>
            exfalso
            have more : frames (content :: others) ++ rest ≠ [] := by
              rw [frames_cons, List.append_assoc]
              exact List.append_ne_nil_of_left_ne_nil (frame_ne_nil _) _
            apply not_single_of_more fits more
            rw [← List.append_assoc, ← received]
            exact whole

variable [DecidableEq Sender] [DecidableEq Receiver]
  [DecidableEq Stranger]

/--
At every moment of every run the transfers explain all that the server has
sent, and a receiver has written nothing but contents of its sender, unless the
sender announces a frame that is too long.
-/
theorem receiver_writes_contents
    (library : JsonLibrary) (strict : library.StrictContract)
    (participants : Participants Sender Receiver Stranger)
    (agree : participants.Agree library)
    (fresh : ∀ name,
      ReceivedFiles.Fresh (participants.receiver name).receiving)
    (network : Network (Party Sender Receiver Stranger) Exception State
      fun _ => Unit)
    (run : LossyRun participants.network network) :
    ∃ visited, ∃ transfers : List (Transfer library (FitsAnswer library)
        (Party Sender Receiver Stranger)),
      Consistent visited transfers (network.view .server) ∧
      ∀ name,
        (∀ transfer ∈ transfers, transfer.receiver = .receiver name →
          Regular transfer (network.view .server)) →
        WritesContents network transfers name := by
  have behaves := (behaves_network strict agree).of_lossyRun run
  rcases behaves.server.now trivial with ⟨visited, transfers, consistent⟩
  refine ⟨visited, transfers, consistent, ?_⟩
  intro name regular
  have starts : participants.network.view (.receiver name) =
      starting (participants.receiver name).receiving.disk := by
    have isFresh := fresh name
    rw [participants.network_view]
    show (⟨(participants.receiver name).receiving, _, _⟩ : Local _ _) = _
    cases receiving : (participants.receiver name).receiving with
    | mk disk receivedFile unpacking =>
        rw [receiving] at isFresh
        cases isFresh.receivedFile
        cases isFresh.unpacking
        rfl
  have stores := ensures_of_lossyRun (.receiver name) run
    (starts ▸ runReceiveClient_stores _ _ _ _ _ _)
  exact writesContents_of_stores strict (agree.receiver name) consistent
    (stores.now trivial) regular

end Runs

/-! ## Two dialogues -/

abbrev Somebody := Party Empty Unit Unit

/-- The metadata of a file of a hundred bytes. -/
def hundredBytes : Bytes :=
  ascii "\x7b\"action\":\"send\",\"file_hash\":\"cc\",\"file_size\":100,\"filename\":\"x\",\"is_compressed\":false\x7d"

/-- A sender that announces a hundred bytes and then sends anything. -/
def announces (last : Bytes) : SocketProcess Somebody Unit Unit := do
  send .server hundredBytes
  let _ ← receive .server
  receiveACK .server
  write .server last
  let _ ← receive .server

def agreeing : ReceivingClient where
  machine := LeftBehind.mismatchMachine
  interactionStream := ascii "y"
  receiveCode := ascii "old-two-7"
  fuel := 3
  receiving := ⟨LeftBehind.mismatchDisk, none, none⟩

def trio (last : Bytes) : Participants Empty Unit Unit where
  visits :=
    [⟨.stranger (), Server.FirstRead.flatSettings, 3, 0, []⟩,
      ⟨.receiver (), Server.FirstRead.flatSettings, 3, 0, []⟩]
  sender name := nomatch name
  receiver _ := agreeing
  stranger _ := announces last

theorem trio_agree (last : Bytes) :
    (trio last).Agree FlatJson.flatLibrary := by
  apply agree_of_flatSettings
  · intro visit isVisit
    rcases List.mem_pair.1 isVisit with rfl | rfl
    · rfl
    · rfl
  · intro name
    cases name
  · intro _
    rfl
  · show ([.stranger (), .receiver ()] : List Somebody).Nodup
    decide

theorem trio_fresh (last : Bytes) (name : Unit) :
    ReceivedFiles.Fresh ((trio last).receiver name).receiving :=
  ⟨rfl, rfl⟩

/-- The code goes to the sender and the metadata to the receiver. -/
def untilConfirmed (rest : List (Somebody × Bytes)) :
    List (Somebody × Bytes) :=
  (.server, frame hundredBytes) ::
    (.stranger (), frame codeText) ::
    (.receiver (), []) ::
    (.server, frame requestText) ::
    (.receiver (), frame hundredBytes) ::
    (.server, frame Socket.ack) ::
    (.stranger (), frame Socket.ack) :: rest

/-- What the receiver has written in the end. -/
def Writes (written : Bytes) :
    (who : Somebody) →
      SocketProcess Somebody (State who) Unit → State who → Prop
  | .receiver _, _, receiving => receiving.written = written
  | _, _, _ => True

variable {last written : Bytes} {messages : List (Somebody × Bytes)}

/-- Parties that can take their turns hold the dialogue. -/
theorem exists_dialogue
    (alternates : Alternates (Party.stranger () : Somebody) messages)
    (stranger : (takeTurns
      (turnsOf (.stranger ()) (.stranger ()) .server [] messages)
      (announces last) ()).isSome = true)
    (server : (takeTurns
      (turnsOf .server (.stranger ()) .server [] messages)
      (serve (trio last).visits) ∅).isSome = true)
    (receiver : (takeTurns
      (turnsOf (.receiver ()) (.stranger ()) .server [] messages)
      ((trio last).process (.receiver ())) agreeing.receiving).map
        (fun reached => reached.2.written) = some written) :
    ∃ network, LossyRun (trio last).network network ∧
      (network.state (.receiver ())).written = written ∧
      ∀ who other, network.sent who other =
        saidBy who other (.stranger ()) messages := by
  have converses : ∀ who : Somebody,
      Converses (Writes written who)
        (turnsOf who (.stranger ()) .server [] messages)
        ((trio last).process who) ((trio last).initialState who) := by
    intro who
    cases who with
    | server =>
        rcases Option.isSome_iff_exists.1 server with ⟨⟨_, _⟩, taken⟩
        exact converses_of_takeTurns taken trivial
    | sender name => cases name
    | receiver name =>
        rcases Option.map_eq_some_iff.1 receiver with
          ⟨⟨_, _⟩, taken, ends⟩
        exact converses_of_takeTurns taken ends
    | stranger name =>
        rcases Option.isSome_iff_exists.1 stranger with ⟨⟨_, _⟩, taken⟩
        exact converses_of_takeTurns taken trivial
  rcases Participants.exists_dialogue alternates converses with
    ⟨network, run, ends, said⟩
  exact ⟨network, run, ends (.receiver ()), said⟩

/-! ### A content -/

def contentDialogue : List (Somebody × Bytes) :=
  untilConfirmed [(.server, frame (ascii "!")),
    (.receiver (), frame (ascii "!")), (.server, [])]

/-- The server prints the metadata into one frame. -/
theorem metadata_fits
    {json : Json} {metadata : Bytes}
    (created : create FlatJson.flatLibrary hundredBytes = .ok json)
    (dumped : FlatJson.flatLibrary.dump json = .ok metadata) :
    metadata.length ≤ bufferSize := by
  have computed :
      (create FlatJson.flatLibrary hundredBytes).toOption.all (fun json =>
        (FlatJson.flatLibrary.dump json).toOption.all fun metadata =>
          metadata.length ≤ bufferSize) = true := by
    decide +kernel
  rw [created] at computed
  simpa [Except.toOption, dumped] using computed

/-- The sender of a single byte announces nothing that is too long. -/
theorem regular_of_byte
    {network : Network Somebody Exception State fun _ => Unit}
    {transfer : Transfer FlatJson.flatLibrary
      (FitsAnswer FlatJson.flatLibrary) Somebody}
    (said : ∀ who other, network.sent who other =
      saidBy who other (.stranger () : Somebody) contentDialogue)
    (proceeds : Proceeds transfer (network.view .server))
    (isReceiver : transfer.receiver = .receiver ()) :
    Regular transfer (network.view .server) := by
  have announced := proceeds.announced.trans
    (heard_of_sent network transfer.sender.client)
  have heard := heard_of_sent network transfer.sender.client
  have apart := transfer.apart
  rw [said] at announced heard
  cases isClient : transfer.sender.client with
  | server =>
      have nothing : saidBy Party.server Party.server
          (.stranger () : Somebody) contentDialogue = [] := by
        decide +kernel
      rw [isClient, nothing, List.prefix_nil] at announced
      exact absurd announced (frame_ne_nil _)
  | sender name => cases name
  | receiver name => exact absurd (isClient.trans isReceiver.symm) apart
  | stranger name =>
      cases name
      have sent : saidBy (.stranger ()) Party.server
          (.stranger () : Somebody) contentDialogue =
            frame hundredBytes ++ frame (ascii "!") := by
        decide +kernel
      rw [isClient, sent] at announced heard
      have isMessage : hundredBytes = transfer.sender.message := by
        apply eq_of_prefix_chunks _ (by decide)
        · rw [frames_chunks_of_fits (by decide) (by decide)]
          exact announced
        · exact Nat.lt_of_le_of_lt transfer.sender.fits (by decide)
      constructor
      · have created := transfer.sender.created
        rw [← isMessage] at created
        exact metadata_fits created transfer.sender.dumped
      · intro contents header oversized received
        rw [isClient, ← isMessage, List.append_assoc] at received
        have more := received.trans heard
        rw [List.prefix_append_right_inj] at more
        cases contents with
        | nil =>
            rw [frames_nil, List.nil_append] at more
            have isFirst : header <+: frames [ascii "!"] := by
              rw [frames_cons, frames_nil, List.append_nil]
              exact more
            exact not_oversized_of_prefix_frames (by decide) isFirst
              oversized
        | cons content others =>
            -- two headers are longer than all that is left
            have lengths := more.length_le
            rw [frames_cons, List.length_append, List.length_append, frame,
              List.length_append, sizeBytes_length, oversized.1] at lengths
            have short : (frame (ascii "!")).length = 9 := by decide
            omega

theorem receiver_writes_contents_byte :
    ∃ network, ∃ transfers : List (Transfer FlatJson.flatLibrary
        (FitsAnswer FlatJson.flatLibrary) Somebody),
      LossyRun (trio (frame (ascii "!"))).network network ∧
      (network.state (.receiver ())).written = ascii "!" ∧
      WritesContents network transfers () := by
  rcases @exists_dialogue (frame (ascii "!")) (ascii "!") contentDialogue
      (by decide +kernel) (by decide +kernel) (by decide +kernel)
      (by decide +kernel) with ⟨network, run, written, said⟩
  rcases receiver_writes_contents FlatJson.flatLibrary
      FlatJson.flatLibrary_strict (trio _) (trio_agree _) (trio_fresh _)
      network run with ⟨_, transfers, consistent, writes⟩
  refine ⟨network, transfers, run, written, writes () ?_⟩
  intro transfer isTransfer isReceiver
  exact regular_of_byte said (consistent.proceeds transfer isTransfer)
    isReceiver

/-! ### A text of the server -/

/-- A frame of one byte more than is accepted. -/
def oversizedHeader : Bytes :=
  sizeBytes (bufferSize + 1)

def textDialogue : List (Somebody × Bytes) :=
  untilConfirmed [(.server, oversizedHeader),
    (.stranger (), frame refusal), (.server, []),
    (.receiver (), frame (tooLong (bufferSize + 1)).message),
    (.server, [])]

theorem frames_length (contents : List Bytes) :
    (frames contents).length =
      contents.flatten.length + 8 * contents.length := by
  induction contents with
  | nil => rfl
  | cons content rest inductionHypothesis =>
      rw [frames_cons, List.length_append, frame, List.length_append,
        sizeBytes_length, inductionHypothesis, List.flatten_cons,
        List.length_append, List.length_cons]
      omega

/-- The contents after a first message are not longer than what was sent. -/
theorem contents_length_le
    {first message rest : Bytes} {contents : List Bytes}
    (small : (frame first ++ rest).length < sizeModulus)
    (isPrefix : frame message ++ frames contents <+:
      frame first ++ rest) :
    contents.flatten.length ≤ rest.length := by
  have lengths := isPrefix.length_le
  rw [List.length_append, List.length_append, frame, frame,
    List.length_append, List.length_append, sizeBytes_length,
    sizeBytes_length, frames_length] at lengths
  rw [List.length_append, frame, List.length_append,
    sizeBytes_length] at small
  have headers : sizeBytes message.length = sizeBytes first.length := by
    rcases isPrefix with ⟨more, same⟩
    rw [frame, frame, List.append_assoc, List.append_assoc,
      List.append_assoc] at same
    exact (List.append_inj same
      (by rw [sizeBytes_length, sizeBytes_length])).1
  have sizes := congrArg sizeOfBytes headers
  rw [sizeOfBytes_sizeBytes (by omega), sizeOfBytes_sizeBytes (by omega)]
    at sizes
  omega

/-- The text about a frame that is too long gets into the file. -/
theorem not_receiver_writes_contents :
    ∃ network, LossyRun (trio oversizedHeader).network network ∧
      (trio oversizedHeader).Agree FlatJson.flatLibrary ∧
      (network.state (.receiver ())).written =
        (tooLong (bufferSize + 1)).message ∧
      ¬ ∃ (party : Somebody) (message : Bytes) (contents : List Bytes),
        frame message ++ frames contents <+: network.sent party .server ∧
        (network.state (.receiver ())).written <+: contents.flatten := by
  rcases @exists_dialogue oversizedHeader
      (tooLong (bufferSize + 1)).message textDialogue (by decide +kernel)
      (by decide +kernel) (by decide +kernel) (by decide +kernel) with
    ⟨network, run, written, said⟩
  refine ⟨network, run, trio_agree _, written, ?_⟩
  rintro ⟨party, message, contents, isPrefix, isWritten⟩
  rw [said] at isPrefix
  rw [written] at isWritten
  have long := isWritten.length_le
  have texts : 11 < (tooLong (bufferSize + 1)).message.length := by
    decide +kernel
  have short {first rest : Bytes}
      (sent : saidBy party Party.server (.stranger () : Somebody)
        textDialogue = frame first ++ rest)
      (small : (frame first ++ rest).length < sizeModulus)
      (few : rest.length ≤ 11) : False := by
    rw [sent] at isPrefix
    have some := contents_length_le small isPrefix
    omega
  cases party with
  | server =>
      have nothing : saidBy Party.server Party.server
          (.stranger () : Somebody) textDialogue = [] := by
        decide +kernel
      rw [nothing, List.prefix_nil] at isPrefix
      exact frame_ne_nil _ (List.append_eq_nil_iff.1 isPrefix).1
  | sender name => cases name
  | receiver name =>
      cases name
      have sent : saidBy (.receiver ()) Party.server
          (.stranger () : Somebody) textDialogue =
            frame requestText ++ frame Socket.ack := by
        decide +kernel
      exact short sent (by decide +kernel) (by decide)
  | stranger name =>
      cases name
      have sent : saidBy (.stranger ()) Party.server
          (.stranger () : Somebody) textDialogue =
            frame hundredBytes ++ oversizedHeader := by
        decide +kernel
      exact short sent (by decide +kernel) (by decide)

end DropFile.WrittenContents
