import DropFile.Client.RunDropFileClient
import DropFile.Framing
import Mathlib.Data.List.Infix

/-!
# What the clients say first

A sending client sends its metadata and then nothing until the server has
answered more than once.  A receiving client whose user does not agree sends
its request and then nothing but a refusal.
-/

namespace DropFile.Client.FirstMessages

open DropFile.General.Processes
open DropFile.General.Processes.Process
open DropFile.General.PathNames
open DropFile.Streams
open DropFile.FileSystem
open DropFile.Socket
open DropFile.Framing
open DropFile.InitSessionMessage
open DropFile.Client.DropFileReceiveClient
open DropFile.Client.DropFileSendClient
open DropFile.Client.RunDropFileClient

/-! ## Single answers -/

/-- Some bytes of one message that fits into a frame. -/
def SingleAnswer (bytes : Bytes) : Prop :=
  ∃ answer, answer.length ≤ bufferSize ∧ bytes <+: frame answer

theorem SingleAnswer.of_prefix
    {bytes more : Bytes}
    (single : SingleAnswer more)
    (isPrefix : bytes <+: more) :
    SingleAnswer bytes := by
  rcases single with ⟨answer, fits, isPart⟩
  exact ⟨answer, fits, isPrefix.trans isPart⟩

theorem singleAnswer_of_chunks
    {bytes answer : Bytes}
    (fits : answer.length ≤ bufferSize)
    (isPart : bytes <+: frames (chunks answer)) :
    SingleAnswer bytes := by
  by_cases empty : answer = []
  · subst empty
    rw [chunks_nil, frames_nil] at isPart
    exact ⟨[], Nat.zero_le _, isPart.trans List.nil_prefix⟩
  · rw [chunks_of_le empty fits, frames_cons, frames_nil,
      List.append_nil] at isPart
    exact ⟨answer, fits, isPart⟩

theorem not_single_of_more
    {response rest : Bytes}
    (fits : response.length ≤ bufferSize)
    (more : rest ≠ []) :
    ¬ SingleAnswer (frame response ++ rest) := by
  rintro ⟨answer, answerFits, isPrefix⟩
  exact more (eq_of_prefix_frame fits answerFits isPrefix).2

theorem not_single_of_oversized
    {header : Bytes}
    (oversized : Oversized header) :
    ¬ SingleAnswer header := by
  rintro ⟨answer, fits, isPrefix⟩
  have isHeader : header = sizeBytes answer.length := by
    apply List.IsPrefix.eq_of_length
    · exact List.prefix_of_prefix_length_le isPrefix
        (List.prefix_append _ _)
        (by rw [oversized.1, sizeBytes_length])
    · rw [oversized.1, sizeBytes_length]
  have size := oversized.2
  rw [isHeader, sizeOfBytes_sizeBytes
    (Nat.lt_of_le_of_lt fits bufferSize_lt_sizeModulus)] at size
  exact absurd size (Nat.not_lt.2 fits)

variable {Peer : Type} [DecidableEq Peer] {server : Peer}

/-! ## The sender -/

section Sending

variable {machine : DropFileSendClient.Machine}
variable {message response : Bytes} {moment later : Local Peer Disk}

/-- The first message of a sender. -/
def IsOffer (machine : DropFileSendClient.Machine) (message : Bytes) :
    Prop :=
  ∃ tree filePath isCompressed json,
    createSendMessage machine.digest tree machine.workingDirectory filePath
      isCompressed = .ok json ∧
    machine.library.dump json = .ok message

/-- The metadata were sent, and the server has said more than one thing. -/
structure Released (server : Peer) (message : Bytes)
    (moment : Local Peer Disk) : Prop where
  offered : frames (chunks message) <+: moment.sent server
  answered : ¬ SingleAnswer (moment.received server)

/-- What a sender has sent at any moment. -/
inductive Keeps (machine : DropFileSendClient.Machine) (server : Peer)
    (moment : Local Peer Disk) : Prop where
  | silent : moment.sent server = [] → Keeps machine server moment
  | offers {message : Bytes} :
      IsOffer machine message →
      moment.sent server <+: frames (chunks message) →
      Keeps machine server moment
  | released {message : Bytes} :
      IsOffer machine message →
      Released server message moment →
      Keeps machine server moment

omit [DecidableEq Peer] in
theorem Keeps.withState
    (keeps : Keeps machine server moment) (state : Disk) :
    Keeps machine server { moment with state := state } := by
  cases keeps with
  | silent silent => exact .silent silent
  | offers isOffer offered => exact .offers isOffer offered
  | released isOffer released =>
      exact .released isOffer ⟨released.offered, released.answered⟩

theorem Released.sends
    (released : Released server message moment)
    (peer : Peer) (bytes : Bytes) :
    Released server message (moment.sends peer bytes) := by
  constructor
  · exact released.offered.trans (List.prefix_append _ _)
  · exact released.answered

theorem Released.receives
    (released : Released server message moment)
    (peer : Peer) (bytes : Bytes) :
    Released server message (moment.receives peer bytes) := by
  constructor
  · exact released.offered
  · intro single
    exact released.answered (single.of_prefix (List.prefix_append _ _))

/-- Nothing has to be kept any more. -/
theorem keeps_of_released
    {α : Type} (process : SenderProcess Peer α)
    (isOffer : IsOffer machine message)
    (released : Released server message moment) :
    Ensures (fun _ => True) (Keeps machine server) (fun _ _ => True)
      (fun _ _ => True) process moment := by
  have ensures : Ensures (fun _ => True) (Released server message)
      (fun _ _ => True) (fun _ _ => True) process moment := by
    apply Ensures.of_closed _ process released
    intro moment released
    exact ⟨fun _ => ⟨released.offered, released.answered⟩,
      fun peer byte => released.sends peer [byte],
      fun peer byte => released.receives peer [byte]⟩
  exact ensures.weakenAlways fun later released =>
    .released isOffer released

theorem destroyEntry_keeps
    (keeps : Keeps machine server moment) (entry : RAIIFSEntry) :
    Ensures (fun _ => True) (Keeps machine server) (fun _ _ => True)
      (fun _ _ => True) (destroyEntry machine entry) moment := by
  rw [destroyEntry]
  split_ifs
  · exact (Ensures.ofProgram_keeps keeps keeps.withState _).weaken
      (fun _ _ _ _ _ => trivial) (fun _ _ _ _ _ => trivial)
  · exact .pure keeps trivial

theorem withEntry_keeps
    {α : Type} {after : α → Local Peer Disk → Prop}
    {process : SenderProcess Peer α}
    (ensures : Ensures (fun _ => True) (Keeps machine server) after
      (fun _ _ => True) process moment)
    (entry : RAIIFSEntry) :
    Ensures (fun _ => True) (Keeps machine server) after (fun _ _ => True)
      (withEntry machine entry process) moment := by
  apply ensures.handle
  intro exception later _ keeps _
  apply (destroyEntry_keeps keeps entry).bind
  intro _ last _ keeps _
  exact .raise keeps trivial

/-- The server has answered the metadata. -/
structure Answered (machine : DropFileSendClient.Machine) (server : Peer)
    (moment : Local Peer Disk) (message response : Bytes) : Prop where
  isOffer : IsOffer machine message
  sent : moment.sent server = frames (chunks message)
  received : moment.received server = frame response
  fits : response.length ≤ bufferSize

/-- The sender waits for a first message. -/
theorem getReceiveCode_keeps
    (isOffer : IsOffer machine message)
    (sent : moment.sent server = frames (chunks message))
    (silent : moment.received server = []) :
    Ensures (fun _ => True) (Keeps machine server)
      (fun _ later => ∃ response,
        Answered machine server later message response)
      (fun _ _ => True) (getReceiveCodeFromServer machine server)
      moment := by
  rw [getReceiveCodeFromServer]
  apply ((receive_ensures server _ _).weaken
    (fun _ _ _ _ received => received) (fun _ _ _ _ _ => trivial)).bind
  · rintro response _ - keeps ⟨fits, rfl⟩
    have answered : Answered machine server
        (moment.receives server (frame response)) message response := by
      constructor
      · exact isOffer
      · exact sent
      · rw [Local.received_receives_self, silent, List.nil_append]
      · exact fits
    cases receiveCode machine response with
    | ok code => exact .pure keeps ⟨response, answered⟩
    | error error => exact .raise keeps trivial
  · intro part _
    apply Keeps.offers isOffer
    show moment.sent server <+: _
    rw [sent]
  · intro header part oversized _ _
    apply Keeps.released isOffer
    constructor
    · rw [Local.sent_sends_self]
      show _ <+: moment.sent server ++ part
      rw [sent]
      exact List.prefix_append _ _
    · show ¬ SingleAnswer ((moment.receives server header).received server)
      rw [Local.received_receives_self, silent]
      exact not_single_of_oversized oversized

theorem sendFSEntryMetadata_keeps
    (path : PathName) (fuel : Nat)
    (sent : moment.sent server = [])
    (received : moment.received server = []) :
    Ensures (fun _ => True) (Keeps machine server)
      (fun _ later => ∃ message response,
        Answered machine server later message response)
      (fun _ _ => True) (sendFSEntryMetadata machine server path fuel)
      moment := by
  have keeps : Keeps machine server moment := .silent sent
  have compresses : Ensures (fun _ => True) (Keeps machine server)
      (fun _ later => ∃ state, later = { moment with state := state })
      (fun _ _ => True)
      (compressIfNecessary machine path fuel :
        SenderProcess Peer (RAIIFSEntry × Bool)) moment := by
    apply Ensures.getState_bind keeps
    split_ifs
    · apply ((Ensures.ofProgram_keeps keeps keeps.withState _).weaken
        (fun _ _ _ _ kept => kept) (fun _ _ _ _ _ => trivial)).bind
      rintro _ _ - keeps ⟨state, rfl⟩
      exact .pure keeps ⟨state, rfl⟩
    · exact .pure keeps ⟨moment.state, rfl⟩
  apply compresses.bind
  rintro ⟨entry, isCompressed⟩ _ - keeps ⟨state, rfl⟩
  apply withEntry_keeps
  apply Ensures.getState_bind keeps
  apply Ensures.ofExcept_bind keeps
  · intro json created
    apply Ensures.ofExcept_bind keeps
    · intro message dumps
      have isOffer : IsOffer machine message := by
        refine ⟨state.tree, entry.path, isCompressed, json, created, ?_⟩
        cases dumped : machine.library.dump json with
        | ok text =>
            rw [dumped] at dumps
            cases dumps
            rfl
        | error what =>
            rw [dumped] at dumps
            cases dumps
      apply ((send_ensures server message _).weaken
        (fun _ _ _ _ sent => sent) (fun _ _ _ _ _ => trivial)).bind
      · rintro _ _ - - rfl
        have metadataSent : (Local.sends server (frames (chunks message))
            { moment with state := state }).sent server =
              frames (chunks message) := by
          rw [Local.sent_sends_self]
          show moment.sent server ++ _ = _
          rw [sent, List.nil_append]
        apply (getReceiveCode_keeps isOffer metadataSent received).bind
        rintro code last - keeps ⟨response, answered⟩
        exact .pure keeps ⟨message, response, answered⟩
      · intro part isPart
        apply Keeps.offers isOffer
        rw [Local.sent_sends_self]
        show moment.sent server ++ part <+: _
        rw [sent]
        exact isPart
    · intro _ _
      trivial
  · intro _ _
    trivial

theorem sendFSEntry_keeps
    (entry : RAIIFSEntry) (fuel : Nat)
    (answered : Answered machine server moment message response) :
    Ensures (fun _ => True) (Keeps machine server) (fun _ _ => True)
      (fun _ _ => True) (sendFSEntry machine server entry fuel)
      moment := by
  have isOffer := answered.isOffer
  -- any byte after the answer releases the sender
  have releases {bytes : Bytes} (some : bytes ≠ []) :
      Released server message (moment.receives server bytes) := by
    constructor
    · show _ <+: moment.sent server
      rw [answered.sent]
    · rw [Local.received_receives_self, answered.received]
      exact not_single_of_more answered.fits some
  rw [sendFSEntry]
  apply Ensures.bind
  · apply withEntry_keeps
    apply ((receiveACK_ensures server _ _).weaken
      (fun _ _ _ _ received => received) (fun _ _ _ _ _ => trivial)).bind
    · rintro _ _ - - rfl
      exact keeps_of_released _ isOffer (releases (by decide))
    · intro part _
      apply Keeps.offers isOffer
      show moment.sent server <+: _
      rw [answered.sent]
    · intro header part oversized _ _
      have some : header ≠ [] := by
        intro empty
        have length := oversized.1
        rw [empty] at length
        cases length
      exact .released isOffer ((releases some).sends server part)
  · intro _ later _ keeps _
    exact destroyEntry_keeps keeps entry

theorem runSendClient_keeps
    (machine : DropFileSendClient.Machine) (path : PathName) (fuel : Nat)
    (sent : moment.sent server = [])
    (received : moment.received server = []) :
    Ensures (fun _ => True) (Keeps machine server) (fun _ _ => True)
      (fun _ _ => True) (runSendClient machine server path fuel)
      moment := by
  have destroys {later : Local Peer Disk}
      (keeps : Keeps machine server later) :
      Ensures (fun _ => True) (Keeps machine server) (fun _ _ => True)
        (fun _ _ => True)
        (DropFileSendClient.destroy machine : SenderProcess Peer Unit)
        later :=
    (Ensures.ofProgram_keeps keeps keeps.withState _).weaken
      (fun _ _ _ _ _ => trivial) (fun _ _ _ _ _ => trivial)
  have keeps : Keeps machine server moment := .silent sent
  have constructs : Ensures (fun _ => True) (Keeps machine server)
      (fun _ later => ∃ state, later = { moment with state := state })
      (fun _ _ => True)
      (DropFileSendClient.construct machine : SenderProcess Peer Unit)
      moment := by
    rw [DropFileSendClient.construct]
    apply ((Ensures.ofProgram_keeps keeps keeps.withState _).weaken
      (fun _ _ _ _ kept => kept) (fun _ _ _ _ _ => trivial)).bind
    rintro _ _ - keeps ⟨state, rfl⟩
    apply (Ensures.ofProgram_keeps keeps keeps.withState _).weaken
    · rintro _ _ - - ⟨last, rfl⟩
      exact ⟨last, rfl⟩
    · intro _ _ _ _ _
      trivial
  rw [runSendClient]
  apply constructs.bind
  rintro _ _ - - ⟨state, rfl⟩
  apply Ensures.bind
  · apply Ensures.handle
    · apply (@sendFSEntryMetadata_keeps _ _ _ _
        { moment with state := state } path fuel sent received).bind
      rintro ⟨entry, code⟩ later - - ⟨message, response, answered⟩
      exact sendFSEntry_keeps entry fuel answered
    · intro exception later _ keeps _
      apply (destroys keeps).bind
      intro _ last _ keeps _
      exact .raise keeps trivial
  · intro _ later _ keeps _
    exact destroys keeps

end Sending

/-! ## The receiver -/

section Receiving

variable {machine : DropFileReceiveClient.Machine}
variable {confirmation : UInt8} {codeWords message : Bytes}
variable {moment : Local Peer Receiving}

def abortMessage : Bytes := ascii "abort"

/-- What a receiver has sent whose user does not agree. -/
inductive Declines (machine : DropFileReceiveClient.Machine)
    (codeWords : Bytes) (server : Peer) (moment : Local Peer Receiving) :
    Prop where
  | silent : moment.sent server = [] →
      Declines machine codeWords server moment
  | requests {request : Bytes} (last : Bytes) :
      machine.library.dump (createReceiveMessage codeWords) =
        .ok request →
      last = abortMessage ∨ last = refusal →
      moment.sent server <+: frames (chunks request) ++ frame last →
      Declines machine codeWords server moment

theorem chunks_last
    {last : Bytes}
    (isLast : last = abortMessage ∨ last = refusal) :
    frames (chunks last) = frame last := by
  rcases isLast with rfl | rfl
  · exact frames_chunks_of_fits (by decide) (by decide)
  · exact frames_chunks_of_fits (by decide) (by decide)

/-- Any other answer sends a refusal and nothing else. -/
theorem getUserConfirmation_plays
    (server : Peer) (notYes : confirmation ≠ 121) (state : Receiving) :
    Plays (getUserConfirmation server confirmation) state silence
      (only server (frame abortMessage))
      (.failed (dropFileReceiveException
        (ascii "Entered '" ++ [confirmation] ++ ascii "', aborting.")))
      state := by
  have sends : Plays (send server abortMessage) state silence
      (only server (frame abortMessage)) (.done ()) state :=
    send_plays_frame server (by decide) (by decide)
  rw [getUserConfirmation, if_pos notYes]
  exact sends.andThen_eq rfl

theorem receiveFile_declines
    (notYes : confirmation ≠ 121) (fuel : Nat)
    (sent : moment.sent server = []) :
    Ensures (fun _ => True) (Declines machine codeWords server)
      (fun _ _ => False) (fun _ _ => True)
      (receiveFile machine server confirmation codeWords fuel)
      moment := by
  have declines : Declines machine codeWords server moment := .silent sent
  rw [receiveFile]
  apply Ensures.ofExcept_bind declines
  · intro request dumps
    have dumped : machine.library.dump (createReceiveMessage codeWords) =
        .ok request := by
      cases printed : machine.library.dump
          (createReceiveMessage codeWords) with
      | ok text =>
          rw [printed] at dumps
          cases dumps
          rfl
      | error what =>
          rw [printed] at dumps
          cases dumps
    -- after the request, some of the last message
    have ends {later : Local Peer Receiving} {last part : Bytes}
        (isLast : last = abortMessage ∨ last = refusal)
        (isPart : part <+: frames (chunks last))
        (whole : later.sent server = frames (chunks request) ++ part) :
        Declines machine codeWords server later := by
      apply Declines.requests last dumped isLast
      rw [chunks_last isLast] at isPart
      rw [whole, List.prefix_append_right_inj]
      exact isPart
    apply ((send_ensures server request _).weaken
      (fun _ _ _ _ sent => sent) (fun _ _ _ _ _ => trivial)).bind
    · rintro _ _ - - rfl
      have requested : (moment.sends server
          (frames (chunks request))).sent server =
            frames (chunks request) := by
        rw [Local.sent_sends_self, sent, List.nil_append]
      have waits {later : Local Peer Receiving}
          (same : later.sent server = frames (chunks request)) :
          Declines machine codeWords server later := by
        apply ends (Or.inl rfl) List.nil_prefix
        rw [same, List.append_nil]
      have responds : Ensures (fun _ => True)
          (Declines machine codeWords server)
          (fun _ later => later.sent server = frames (chunks request))
          (fun _ _ => True) (getServerResponse machine server)
          (moment.sends server (frames (chunks request))) := by
        rw [getServerResponse]
        apply ((receive_ensures server _ _).weaken
          (fun _ _ _ _ received => received)
          (fun _ _ _ _ _ => trivial)).bind
        · rintro received _ - holds ⟨-, rfl⟩
          apply Ensures.getState_bind holds
          cases checkResponse machine _ received with
          | ok json => exact .pure holds requested
          | error error => exact .raise holds trivial
        · intro part _
          exact waits requested
        · intro header part _ _ isPart
          apply ends (Or.inr rfl) isPart
          rw [Local.sent_sends_self]
          show (moment.sends server _).sent server ++ part = _
          rw [requested]
      apply responds.bind
      intro serverResponse later _ holds same
      have refuses : Ensures (fun _ => True)
          (Declines machine codeWords server) (fun _ _ => False)
          (fun _ _ => True) (getUserConfirmation server confirmation)
          later := by
        rw [getUserConfirmation, if_pos notYes]
        apply ((send_ensures server abortMessage _).weaken
          (fun _ _ _ _ sent => sent) (fun _ _ _ _ _ => trivial)).bind
        · intro _ last _ holds _
          exact .raise holds trivial
        · intro part isPart
          apply ends (Or.inl rfl) isPart
          rw [Local.sent_sends_self, same]
      exact refuses.bind fun _ _ _ _ => False.elim
    · intro part isPart
      apply Declines.requests abortMessage dumped (Or.inl rfl)
      rw [Local.sent_sends_self, sent]
      exact isPart.trans (List.prefix_append _ _)
  · intro _ _
    trivial

omit [DecidableEq Peer] in
theorem Declines.withState
    (declines : Declines machine codeWords server moment)
    (state : Receiving) :
    Declines machine codeWords server
      { moment with state := state } := by
  cases declines with
  | silent silent => exact .silent silent
  | requests last dumped isLast isPart =>
      exact .requests last dumped isLast isPart

theorem runReceiveClient_declines
    (machine : DropFileReceiveClient.Machine)
    {interactionStream : Bytes}
    (notYes : extractConfirmation interactionStream ≠ 121) (fuel : Nat)
    (sent : moment.sent server = []) :
    Ensures (fun _ => True) (Declines machine codeWords server)
      (fun _ _ => True) (fun _ _ => True)
      (runReceiveClient machine server interactionStream codeWords fuel)
      moment := by
  -- a change of the disk sends nothing
  have changes {later : Local Peer Receiving}
      (declines : Declines machine codeWords server later)
      (program : DiskProgram Unit) :
      Ensures (fun _ => True) (Declines machine codeWords server)
        (fun _ last => last.sent server = later.sent server)
        (fun _ _ => True)
        (onDisk program : ReceiverProcess Peer Unit) later := by
    apply (Ensures.ofProgram_keeps declines declines.withState _).weaken
    · rintro _ _ - - ⟨state, rfl⟩
      rfl
    · intro _ _ _ _ _
      trivial
  have constructs : Ensures (fun _ => True)
      (Declines machine codeWords server)
      (fun _ later => later.sent server = []) (fun _ _ => True)
      (DropFileReceiveClient.construct machine : ReceiverProcess Peer Unit)
      moment := by
    rw [DropFileReceiveClient.construct]
    apply (changes (.silent sent) _).bind
    intro _ later _ declines same
    apply (changes declines _).weaken
    · intro _ last _ _ again
      rw [again, same, sent]
    · intro _ _ _ _ _
      trivial
  rw [runReceiveClient]
  apply constructs.bind
  intro _ later _ _ silent
  have receives : Ensures (fun _ => True)
      (Declines machine codeWords server) (fun _ _ => False)
      (fun _ _ => True)
      (Process.handle
        (fun exception => do
          DropFileReceiveClient.destroy machine
          raise exception)
        (receiveFile machine server (extractConfirmation interactionStream)
          codeWords fuel)) later := by
    apply (receiveFile_declines notYes fuel silent).handle
    intro exception last _ declines _
    apply (changes declines _).bind
    intro _ _ _ declines _
    exact .raise declines trivial
  exact receives.bind fun _ _ _ _ => False.elim

end Receiving

end DropFile.Client.FirstMessages
