import DropFile.Client.FirstMessages
import DropFile.Client.SendLoop
import DropFile.SessionMessages

/-!
# Sent contents

What a sender has sent at any moment: a part of its metadata, and of the
content that the metadata announce.  It returns after three answers.
-/

namespace DropFile.Client.SentContents

open DropFile.General.Processes.Process
open DropFile.General.PathNames
open DropFile.Streams
open DropFile.FileSystem
open DropFile.Socket
open DropFile.Framing
open DropFile.InitSessionMessage
open DropFile.SessionMessages
open DropFile.Client.DropFileSendClient
open DropFile.Client.FirstMessages
open DropFile.Client.RunDropFileClient
open DropFile.Client.SendLoop

variable {Peer : Type} {machine : Machine}

/-- A first message that announces this content. -/
def OffersContent (machine : Machine) (message content : Bytes) : Prop :=
  ∃ tree filePath isCompressed json,
    regularFile tree machine.workingDirectory filePath = some content ∧
    createSendMessage machine.digest tree machine.workingDirectory filePath
      isCompressed = .ok json ∧
    machine.library.dump json = .ok message

theorem OffersContent.isOffer
    {message content : Bytes}
    (offers : OffersContent machine message content) :
    IsOffer machine message := by
  rcases offers with
    ⟨tree, filePath, isCompressed, json, -, creates, dumps⟩
  exact ⟨tree, filePath, isCompressed, json, creates, dumps⟩

/-- The message gives the size of the content. -/
theorem OffersContent.exists_metadata
    {message content : Bytes}
    (offers : OffersContent machine message content) :
    ∃ name fileHash isCompressed,
      machine.library.dump
        (sendMessage name content.length fileHash isCompressed) =
          .ok message := by
  rcases offers with
    ⟨tree, filePath, isCompressed, json, isFile, creates, dumps⟩
  rcases createSendMessage_ok creates with
    ⟨found, data, isFound, -, rfl⟩
  cases isFile.symm.trans isFound
  exact ⟨_, _, _, dumps⟩

/-- Some pieces of a content, from its start on. -/
structure PiecesOf (content : Bytes) (pieces : List Bytes) : Prop where
  filled : ∀ piece ∈ pieces, piece ≠ []
  fits : ∀ piece ∈ pieces, piece.length ≤ bufferSize
  part : pieces.flatten <+: content

theorem PiecesOf.nil (content : Bytes) : PiecesOf content [] where
  filled := List.forall_mem_nil _
  fits := List.forall_mem_nil _
  part := List.nil_prefix

theorem PiecesOf.concat
    {content piece : Bytes} {pieces : List Bytes}
    (isPieces : PiecesOf content pieces)
    (filled : piece ≠ [])
    (fits : piece.length ≤ bufferSize)
    (part : pieces.flatten ++ piece <+: content) :
    PiecesOf content (pieces ++ [piece]) where
  filled := by
    rw [List.forall_mem_append, List.forall_mem_singleton]
    exact ⟨isPieces.filled, filled⟩
  fits := by
    rw [List.forall_mem_append, List.forall_mem_singleton]
    exact ⟨isPieces.fits, fits⟩
  part := by
    rw [List.flatten_append, List.flatten_singleton]
    exact part

/-- What a sender has sent at any moment. -/
inductive Sends (machine : Machine) (server : Peer)
    (moment : Local Peer Disk) : Prop where
  | silent : moment.sent server = [] → Sends machine server moment
  | offers {message content : Bytes} {pieces : List Bytes} :
      OffersContent machine message content →
      PiecesOf content pieces →
      moment.sent server <+: frames (chunks message) ++ frames pieces →
      Sends machine server moment
  /-- The server has sent a header that is refused. -/
  | refuses {heard : List Bytes} {header : Bytes} :
      (∀ answer ∈ heard, answer.length ≤ bufferSize) →
      Oversized header →
      frames heard ++ header <+: moment.received server →
      Sends machine server moment

theorem Sends.withState
    {server : Peer} {moment : Local Peer Disk}
    (sends : Sends machine server moment)
    (state : Disk) :
    Sends machine server { moment with state := state } := by
  cases sends with
  | silent silent => exact .silent silent
  | offers offers isPieces isPart => exact .offers offers isPieces isPart
  | refuses heardFits oversized heard =>
      exact .refuses heardFits oversized heard

/-- A sender between two of its messages. -/
structure Stands (machine : Machine) (server : Peer)
    (message content : Bytes) (pieces heard : List Bytes)
    (moment : Local Peer Disk) : Prop where
  offers : OffersContent machine message content
  isPieces : PiecesOf content pieces
  sent : moment.sent server = frames (chunks message) ++ frames pieces
  heardFits : ∀ answer ∈ heard, answer.length ≤ bufferSize
  received : moment.received server = frames heard

namespace Stands

variable {server : Peer} {message content : Bytes}
variable {pieces heard : List Bytes} {moment : Local Peer Disk}
variable (stands :
  Stands machine server message content pieces heard moment)
include stands

theorem sends : Sends machine server moment := by
  apply Sends.offers stands.offers stands.isPieces
  rw [stands.sent]

theorem withState (state : Disk) :
    Stands machine server message content pieces heard
      { moment with state := state } :=
  ⟨stands.offers, stands.isPieces, stands.sent, stands.heardFits,
    stands.received⟩

variable [DecidableEq Peer]

theorem sends_receives (part : Bytes) :
    Sends machine server (moment.receives server part) := by
  apply Sends.offers stands.offers stands.isPieces
  show moment.sent server <+: _
  rw [stands.sent]

theorem sends_refusal
    {header : Bytes}
    (oversized : Oversized header)
    (part : Bytes) :
    Sends machine server ((moment.receives server header).sends server
      part) := by
  apply Sends.refuses stands.heardFits oversized
  show _ <+: (moment.receives server header).received server
  rw [Local.received_receives_self, stands.received]

theorem hears
    {answer : Bytes}
    (fits : answer.length ≤ bufferSize) :
    Stands machine server message content pieces (heard ++ [answer])
      (moment.receives server (frame answer)) where
  offers := stands.offers
  isPieces := stands.isPieces
  sent := stands.sent
  heardFits := by
    rw [List.forall_mem_append, List.forall_mem_singleton]
    exact ⟨stands.heardFits, fits⟩
  received := by
    rw [Local.received_receives_self, stands.received, frames_append,
      frames_cons, frames_nil, List.append_nil]

/-- An `ACK` is the only answer that the sender goes on with. -/
theorem receiveACK_ensures :
    Ensures (fun _ => True) (Sends machine server)
      (fun _ => Stands machine server message content pieces
        (heard ++ [Socket.ack])) (fun _ _ => True)
      (receiveACK server : SenderProcess Peer Unit) moment := by
  apply (Socket.receiveACK_ensures server
    (fun part _ => stands.sends_receives part)
    fun header part oversized _ _ =>
      stands.sends_refusal oversized part).weaken
  · rintro _ _ - - rfl
    exact stands.hears (by decide)
  · intro _ _ _ _ _
    trivial

end Stands

/-- A sender that has come to its end has heard two `ACK`s. -/
def Ended (machine : Machine) (server : Peer)
    (moment : Local Peer Disk) : Prop :=
  ∃ message content pieces response,
    Stands machine server message content pieces
      [response, Socket.ack, Socket.ack] moment

theorem Ended.withState
    {server : Peer} {moment : Local Peer Disk}
    (ended : Ended machine server moment)
    (state : Disk) :
    Ended machine server { moment with state := state } := by
  rcases ended with ⟨message, content, pieces, response, stands⟩
  exact ⟨message, content, pieces, response, stands.withState state⟩

variable [DecidableEq Peer] {server : Peer} {moment : Local Peer Disk}

/-! ## Entries -/

theorem destroyEntry_sends
    (sends : Sends machine server moment)
    (entry : RAIIFSEntry) :
    Ensures (fun _ => True) (Sends machine server)
      (fun _ later => ∃ state, later = { moment with state := state })
      (fun _ _ => True) (destroyEntry machine entry) moment := by
  rw [destroyEntry]
  split_ifs
  · exact (Ensures.ofProgram_keeps sends sends.withState _).weaken
      (fun _ _ _ _ kept => kept) (fun _ _ _ _ _ => trivial)
  · exact .pure sends ⟨moment.state, rfl⟩

theorem withEntry_sends
    {α : Type} {after : α → Local Peer Disk → Prop}
    {process : SenderProcess Peer α}
    (ensures : Ensures (fun _ => True) (Sends machine server) after
      (fun _ _ => True) process moment)
    (entry : RAIIFSEntry) :
    Ensures (fun _ => True) (Sends machine server) after (fun _ _ => True)
      (withEntry machine entry process) moment := by
  apply ensures.handle
  intro exception later _ sends _
  apply (destroyEntry_sends sends entry).bind
  intro _ last _ sends _
  exact .raise sends trivial

/-! ## The metadata -/

theorem getReceiveCode_sends
    {message content : Bytes}
    (stands : Stands machine server message content [] [] moment) :
    Ensures (fun _ => True) (Sends machine server)
      (fun _ later => ∃ response,
        later.state = moment.state ∧
          Stands machine server message content [] [response] later)
      (fun _ _ => True) (getReceiveCodeFromServer machine server)
      moment := by
  rw [getReceiveCodeFromServer]
  apply ((receive_ensures server
    (fun part _ => stands.sends_receives part)
    fun header part oversized _ _ =>
      stands.sends_refusal oversized part).weaken
        (fun _ _ _ _ received => received)
        (fun _ _ _ _ _ => trivial)).bind
  rintro response _ - sends ⟨fits, rfl⟩
  cases receiveCode machine response with
  | ok code => exact .pure sends ⟨response, rfl, stands.hears fits⟩
  | error error => exact .raise sends trivial

theorem sendFSEntryMetadata_sends
    (path : PathName) (fuel : Nat)
    (sent : moment.sent server = [])
    (received : moment.received server = []) :
    Ensures (fun _ => True) (Sends machine server)
      (fun result later => ∃ message content response,
        regularFile later.state.tree machine.workingDirectory
            result.1.path = some content ∧
          Stands machine server message content [] [response] later)
      (fun _ _ => True) (sendFSEntryMetadata machine server path fuel)
      moment := by
  have sends : Sends machine server moment := .silent sent
  have compresses : Ensures (fun _ => True) (Sends machine server)
      (fun _ later => ∃ state, later = { moment with state := state })
      (fun _ _ => True)
      (compressIfNecessary machine path fuel :
        SenderProcess Peer (RAIIFSEntry × Bool)) moment := by
    apply Ensures.getState_bind sends
    split_ifs
    · apply ((Ensures.ofProgram_keeps sends sends.withState _).weaken
        (fun _ _ _ _ kept => kept) (fun _ _ _ _ _ => trivial)).bind
      rintro _ _ - sends ⟨state, rfl⟩
      exact .pure sends ⟨state, rfl⟩
    · exact .pure sends ⟨moment.state, rfl⟩
  apply compresses.bind
  rintro ⟨entry, isCompressed⟩ _ - sends ⟨state, rfl⟩
  apply withEntry_sends
  apply Ensures.getState_bind sends
  apply Ensures.ofExcept_bind sends _ fun _ _ => trivial
  intro json created
  apply Ensures.ofExcept_bind sends _ fun _ _ => trivial
  intro message dumps
  rcases createSendMessage_ok created with ⟨content, -, isFile, -, -⟩
  have offers : OffersContent machine message content := by
    refine ⟨state.tree, entry.path, isCompressed, json, isFile, created, ?_⟩
    cases dumped : machine.library.dump json with
    | ok text =>
        rw [dumped] at dumps
        cases dumps
        rfl
    | error what =>
        rw [dumped] at dumps
        cases dumps
  apply ((send_ensures server message _).weaken
    (fun _ _ _ _ sent => sent) (fun _ _ _ _ _ => trivial)).bind
  · rintro _ _ - - rfl
    have stands : Stands machine server message content [] []
        (Local.sends server (frames (chunks message))
          { moment with state := state }) := by
      constructor
      · exact offers
      · exact .nil content
      · rw [Local.sent_sends_self, frames_nil, List.append_nil]
        show moment.sent server ++ _ = _
        rw [sent, List.nil_append]
      · exact List.forall_mem_nil _
      · exact received
    apply (getReceiveCode_sends stands).bind
    rintro code last - sends ⟨response, sameState, stands⟩
    refine .pure sends ⟨message, content, response, ?_, stands⟩
    rw [sameState]
    exact isFile
  · intro part isPart
    apply Sends.offers offers (.nil content)
    rw [Local.sent_sends_self, frames_nil, List.append_nil]
    show moment.sent server ++ part <+: _
    rw [sent]
    exact isPart

/-! ## The file -/

theorem sendPass_sends
    {message content rest : Bytes} {pieces heard : List Bytes} {call : Nat}
    (stands : Stands machine server message content pieces heard moment)
    (left : pieces.flatten ++ rest = content) :
    Ensures (fun _ => True) (Sends machine server)
      (Sum.elim
        (fun next later => ∃ pieces,
          Stands machine server message content pieces heard later ∧
            pieces.flatten ++ next.1 = content)
        fun _ later => ∃ pieces,
          Stands machine server message content pieces heard later)
      (fun _ _ => True) (sendPass machine server (rest, call))
      moment := by
  show Ensures _ _ _ _
    (if (bytesRead machine rest call).length > 0 then _ else _) _
  by_cases some : (bytesRead machine rest call).length > 0
  · rw [if_pos some]
    have filled : bytesRead machine rest call ≠ [] :=
      List.length_pos_iff.1 some
    have fits : (bytesRead machine rest call).length ≤ bufferSize := by
      rw [bytesRead, List.length_take]
      omega
    have split :
        bytesRead machine rest call ++
          rest.drop (bytesRead machine rest call).length = rest :=
      List.prefix_iff_eq_append.1 (List.take_prefix _ rest)
    have isPieces : PiecesOf content
        (pieces ++ [bytesRead machine rest call]) := by
      apply stands.isPieces.concat filled fits
      rw [← left, List.prefix_append_right_inj]
      exact List.take_prefix _ rest
    have sending (part : Bytes)
        (isPart : part <+: frame (bytesRead machine rest call)) :
        Sends machine server (moment.sends server part) := by
      apply Sends.offers stands.offers isPieces
      rw [Local.sent_sends_self, stands.sent, frames_append, frames_cons,
        frames_nil, List.append_nil, ← List.append_assoc]
      exact (List.prefix_append_right_inj _).2 isPart
    have cut := frames_chunks_of_fits filled fits
    apply ((send_ensures server _ fun part isPart =>
      sending part (cut ▸ isPart)).weaken
        (fun _ _ _ _ sent => sent) (fun _ _ _ _ _ => trivial)).bind
    rintro _ _ - sends rfl
    refine .pure sends ⟨pieces ++ [bytesRead machine rest call], ?_, ?_⟩
    · constructor
      · exact stands.offers
      · exact isPieces
      · rw [Local.sent_sends_self, stands.sent, cut, frames_append,
          frames_cons, frames_nil, List.append_nil, List.append_assoc]
      · exact stands.heardFits
      · exact stands.received
    · rw [List.flatten_append, List.flatten_singleton, List.append_assoc]
      exact (congrArg (pieces.flatten ++ ·) split).trans left
  · rw [if_neg some]
    exact .pure stands.sends ⟨pieces, stands⟩

theorem sendContent_sends
    {message content : Bytes} {heard : List Bytes} (fuel : Nat)
    (stands : Stands machine server message content [] heard moment) :
    Ensures (fun _ => True) (Sends machine server)
      (fun _ later => ∃ pieces,
        Stands machine server message content pieces heard later)
      (fun _ _ => True) (sendContent machine server fuel (content, 0))
      moment := by
  apply Ensures.loop
    (fun current later => ∃ pieces,
      Stands machine server message content pieces heard later ∧
        pieces.flatten ++ current.1 = content)
  · rintro fuel ⟨rest, call⟩ later - - ⟨pieces, stands, left⟩
    exact sendPass_sends stands left
  · exact stands.sends
  · exact ⟨[], stands, rfl⟩

theorem sendFSEntry_sends
    {message content response : Bytes} (entry : RAIIFSEntry) (fuel : Nat)
    (isFile : regularFile moment.state.tree machine.workingDirectory
      entry.path = some content)
    (stands :
      Stands machine server message content [] [response] moment) :
    Ensures (fun _ => True) (Sends machine server)
      (fun _ => Ended machine server) (fun _ _ => True)
      (sendFSEntry machine server entry fuel) moment := by
  have acknowledged : Ensures (fun _ => True) (Sends machine server)
      (fun _ later => later.state = moment.state ∧
        Stands machine server message content [] [response, Socket.ack] later)
      (fun _ _ => True) (receiveACK server : SenderProcess Peer Unit)
      moment := by
    apply (Socket.receiveACK_ensures server
      (fun part _ => stands.sends_receives part)
      fun header part oversized _ _ =>
        stands.sends_refusal oversized part).weaken
    · rintro _ _ - - rfl
      exact ⟨rfl, stands.hears (by decide)⟩
    · intro _ _ _ _ _
      trivial
  rw [sendFSEntry]
  apply Ensures.bind
  · apply withEntry_sends
    apply acknowledged.bind
    rintro _ later - sends ⟨sameState, stands⟩
    apply Ensures.getState_bind sends
    rw [sameState, isFile]
    apply (sendContent_sends fuel stands).bind
    rintro _ last - - ⟨pieces, stands⟩
    apply stands.receiveACK_ensures.weaken
    · intro _ final _ _ stands
      exact (⟨message, content, pieces, response, stands⟩ :
        Ended machine server final)
    · intro _ _ _ _ _
      trivial
  · intro _ later _ sends ended
    apply (destroyEntry_sends sends entry).weaken
    · rintro _ _ - - ⟨state, rfl⟩
      exact Ended.withState ended state
    · intro _ _ _ _ _
      trivial

/-- Whatever it hears, a sender sends what it has announced. -/
theorem runSendClient_sends
    (machine : Machine) (path : PathName) (fuel : Nat)
    (sent : moment.sent server = [])
    (received : moment.received server = []) :
    Ensures (fun _ => True) (Sends machine server)
      (fun _ => Ended machine server) (fun _ _ => True)
      (runSendClient machine server path fuel) moment := by
  have removes {later : Local Peer Disk}
      (sends : Sends machine server later) :
      Ensures (fun _ => True) (Sends machine server)
        (fun _ last => ∃ state, last = { later with state := state })
        (fun _ _ => True)
        (DropFileSendClient.destroy machine : SenderProcess Peer Unit)
        later :=
    (Ensures.ofProgram_keeps sends sends.withState _).weaken
      (fun _ _ _ _ kept => kept) (fun _ _ _ _ _ => trivial)
  have sends : Sends machine server moment := .silent sent
  have constructs : Ensures (fun _ => True) (Sends machine server)
      (fun _ later => ∃ state, later = { moment with state := state })
      (fun _ _ => True)
      (DropFileSendClient.construct machine : SenderProcess Peer Unit)
      moment := by
    rw [DropFileSendClient.construct]
    apply ((Ensures.ofProgram_keeps sends sends.withState _).weaken
      (fun _ _ _ _ kept => kept) (fun _ _ _ _ _ => trivial)).bind
    rintro _ _ - sends ⟨state, rfl⟩
    apply (Ensures.ofProgram_keeps sends sends.withState _).weaken
    · rintro _ _ - - ⟨last, rfl⟩
      exact ⟨last, rfl⟩
    · intro _ _ _ _ _
      trivial
  rw [runSendClient]
  apply constructs.bind
  rintro _ _ - - ⟨state, rfl⟩
  apply Ensures.bind
  · apply Ensures.handle
    · apply (@sendFSEntryMetadata_sends _ machine _ server
        { moment with state := state } path fuel sent received).bind
      rintro ⟨entry, code⟩ later - -
        ⟨message, content, response, isFile, stands⟩
      exact sendFSEntry_sends entry fuel isFile stands
    · intro exception later _ sends _
      apply (removes sends).bind
      intro _ last _ sends _
      exact .raise sends trivial
  · intro _ later _ sends ended
    apply (removes sends).weaken
    · rintro _ _ - - ⟨state, rfl⟩
      exact ended.withState state
    · intro _ _ _ _ _
      trivial

end DropFile.Client.SentContents
