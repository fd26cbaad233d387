import DropFile.Client.FirstMessages
import DropFile.Client.ReceivingPhases
import DropFile.Client.ServerResponses

/-!
# Received contents

A receiver gives its last confirmation only after the whole announced file has
come, and when it returns it has written nothing else.  Both are read off what
has come from the server, whatever became of the disk.
-/

namespace DropFile.Client.ReceivedContents

open DropFile.General.Processes.Process
open DropFile.General.PathNames
open DropFile.General.Files
open DropFile.Streams
open DropFile.FileSystem
open DropFile.Socket
open DropFile.JsonObjects
open DropFile.InitSessionMessage
open DropFile.Client.DropFileReceiveClient
open DropFile.Client.RunDropFileClient
open DropFile.Client.Announcements
open DropFile.Client.ReceivedFiles
open DropFile.Client.ReceivingPhases

variable {Peer : Type} {machine : Machine}

/-- The metadata have come, and at least as many bytes as they announce. -/
structure ArrivedWhole (machine : Machine) (server : Peer)
    (metadata : Bytes) (fileSize : Nat) (contents : List Bytes)
    (moment : Local Peer Receiving) : Prop where
  announced : ∃ json, machine.library.parse metadata = .ok json ∧
    machine.library.sizeAt json fileSizeKey = .ok fileSize
  fits : metadata.length ≤ bufferSize
  contentsFit : ∀ content ∈ contents, content.length ≤ bufferSize
  received : moment.received server = frame metadata ++ frames contents
  enough : fileSize ≤ contents.flatten.length

/-- A receiver asks first, and when it has confirmed all has come. -/
structure Confirms (machine : Machine) (server : Peer) (codeWords : Bytes)
    (moment : Local Peer Receiving) : Prop where
  requests : moment.sent server = [] ∨ ∃ message more,
    machine.library.dump (createReceiveMessage codeWords) = .ok message ∧
      moment.sent server <+: frames (chunks message) ++ more
  arrived : ∀ message,
    machine.library.dump (createReceiveMessage codeWords) = .ok message →
    acknowledgement message ++ frame ack <+: moment.sent server →
    moment.sent server = acknowledgement message ++ frame ack ∧
      ∃ metadata fileSize contents,
        ArrivedWhole machine server metadata fileSize contents moment

/-- The whole file was received, confirmed and written. -/
def Wrote (machine : Machine) (server : Peer) (codeWords : Bytes)
    (moment : Local Peer Receiving) : Prop :=
  ∃ message metadata fileSize contents,
    machine.library.dump (createReceiveMessage codeWords) = .ok message ∧
    ArrivedWhole machine server metadata fileSize contents moment ∧
    moment.sent server = acknowledgement message ++ frame ack ∧
    moment.state.written = contents.flatten.take fileSize

section Moments

variable {server : Peer} {codeWords message : Bytes} {fuel : Nat}
variable {moment : Local Peer Receiving} {disk : Disk}
variable {announcement : Announcement machine disk.tree}

/-- Neither depends on anything but the traffic and the written bytes. -/
theorem ArrivedWhole.withState
    {metadata : Bytes} {fileSize : Nat} {contents : List Bytes}
    (arrived : ArrivedWhole machine server metadata fileSize contents moment)
    (state : Receiving) :
    ArrivedWhole machine server metadata fileSize contents
      { moment with state := state } where
  announced := arrived.announced
  fits := arrived.fits
  contentsFit := arrived.contentsFit
  received := arrived.received
  enough := arrived.enough

theorem Confirms.withState
    (confirms : Confirms machine server codeWords moment)
    (state : Receiving) :
    Confirms machine server codeWords { moment with state := state } where
  requests := confirms.requests
  arrived message dumped confirmed := by
    rcases confirms.arrived message dumped confirmed with
      ⟨sent, metadata, fileSize, contents, arrived⟩
    exact ⟨sent, metadata, fileSize, contents, arrived.withState state⟩

theorem Wrote.withState
    (wrote : Wrote machine server codeWords moment)
    {state : Receiving}
    (sameFile : state.receivedFile = moment.state.receivedFile) :
    Wrote machine server codeWords { moment with state := state } := by
  rcases wrote with
    ⟨message, metadata, fileSize, contents, dumped, arrived, sent, written⟩
  refine ⟨message, metadata, fileSize, contents, dumped,
    arrived.withState state, sent, ?_⟩
  rw [← written, Receiving.written, Receiving.written]
  simp only [sameFile]

theorem arrivedWhole_of_arrived
    {contents : List Bytes}
    (fits : announcement.metadata.length ≤ bufferSize)
    (contentsFit : ∀ content ∈ contents, content.length ≤ bufferSize)
    (arrived : Arrived announcement server contents moment) :
    ArrivedWhole machine server announcement.metadata announcement.fileSize
      contents moment where
  announced := by
    have accepted := (ServerResponses.checkResponse_ok_iff
      announcement.metadata announcement.json).1 announcement.accepted
    exact ⟨announcement.json, accepted.1, announcement.fileSizeRead⟩
  fits := fits
  contentsFit := contentsFit
  received := arrived.received
  enough := arrived.enough

/-- Something else than the last confirmation follows the request. -/
theorem confirms_of_part
    {part : Bytes}
    (dumped : machine.library.dump (createReceiveMessage codeWords) =
      .ok message)
    (different : ¬ frame ack ++ frame ack <+: part)
    (sent : moment.sent server <+: frames (chunks message) ++ part) :
    Confirms machine server codeWords moment where
  requests := Or.inr ⟨message, part, dumped, sent⟩
  arrived other otherDumped confirmed := by
    cases dumped.symm.trans otherDumped
    have both := confirmed.trans sent
    rw [acknowledgement, List.append_assoc, List.prefix_append_right_inj]
      at both
    exact absurd both different

theorem confirms_of_arrived
    {metadata : Bytes} {fileSize : Nat} {contents : List Bytes}
    (dumped : machine.library.dump (createReceiveMessage codeWords) =
      .ok message)
    (sent : moment.sent server <+: acknowledgement message ++ frame ack)
    (arrived :
      ArrivedWhole machine server metadata fileSize contents moment) :
    Confirms machine server codeWords moment where
  requests := by
    rw [acknowledgement, List.append_assoc] at sent
    exact Or.inr ⟨message, _, dumped, sent⟩
  arrived other otherDumped confirmed := by
    cases dumped.symm.trans otherDumped
    refine ⟨?_, metadata, fileSize, contents, arrived⟩
    exact sent.eq_of_length_le confirmed.length_le

theorem confirms_of_phase
    (phase : Phase machine disk server codeWords fuel moment) :
    Confirms machine server codeWords moment := by
  cases phase with
  | silent untouched silent =>
      constructor
      · exact Or.inl silent
      · intro message dumped confirmed
        rw [silent, List.prefix_nil, List.append_eq_nil_iff] at confirmed
        exact absurd confirmed.2 (by decide)
  | requests dumped untouched sent =>
      apply confirms_of_part dumped _ (sent.trans (List.prefix_append _ []))
      decide
  | declines dumped untouched isText sent =>
      apply confirms_of_part dumped _ sent
      rcases isText with rfl | rfl
      · decide +kernel
      · decide +kernel
  | agrees dumped untouched sent =>
      apply confirms_of_part dumped _ sent
      decide
  | opens dumped fits received holds state sent =>
      apply @confirms_of_part _ _ _ _ _ _ (frame Socket.ack) dumped
        (by decide)
      rw [sent, acknowledgement]
  | fills dumped fits contentsFit received holds sent =>
      apply @confirms_of_part _ _ _ _ _ _ (frame Socket.ack) dumped
        (by decide)
      rw [sent, acknowledgement]
  | refuses dumped fits contentsFit received oversized holds sent =>
      rw [acknowledgement, List.append_assoc] at sent
      apply confirms_of_part dumped _ sent
      decide +kernel
  | finishes dumped fits contentsFit arrived holds confirmed sent =>
      exact confirms_of_arrived dumped sent
        (arrivedWhole_of_arrived fits contentsFit arrived)
  | unpacks dumped fits contentsFit verified isCompressed free possible
      unpacking reached sent =>
      apply confirms_of_arrived dumped _
        (arrivedWhole_of_arrived fits contentsFit verified.arrived)
      rw [sent]

end Moments

/-! ## Every run -/

section Running

variable [DecidableEq Peer] {server : Peer} {codeWords message : Bytes}
variable {moment : Local Peer Receiving} {disk : Disk}
variable {announcement : Announcement machine disk.tree}

theorem onDisk_confirms
    {α : Type}
    (confirms : Confirms machine server codeWords moment)
    (program : DiskProgram α) :
    Ensures (fun _ => True) (Confirms machine server codeWords)
      (fun _ later => ∃ disk, later = withDisk moment disk)
      (fun _ _ => True) (onDisk program) moment :=
  onDisk_ensures_always program confirms fun _ => confirms.withState _

/-- What becomes of an archive changes nothing of what was received. -/
theorem handleCompressedFile_wrote
    (confirms : Confirms machine server codeWords moment)
    (wrote : Wrote machine server codeWords moment)
    (isCompressed : Bool) (path : PathName) (fuel : Nat) :
    Ensures (fun _ => True) (Confirms machine server codeWords)
      (fun _ => Wrote machine server codeWords) (fun _ _ => True)
      (handleCompressedFile machine isCompressed path fuel) moment := by
  rw [handleCompressedFile]
  split_ifs
  · apply Ensures.modifyState_bind confirms
    apply (onDisk_confirms (confirms.withState _) _).bind
    rintro _ _ - confirms ⟨unpacked, rfl⟩
    apply (onDisk_confirms confirms _).weaken
    · rintro _ _ - - ⟨removed, rfl⟩
      exact wrote.withState rfl
    · intro _ _ _ _ _
      trivial
  · exact .pure confirms wrote

omit [DecidableEq Peer] in
theorem wrote_of_checked
    {contents : List Bytes} {fileHash : Bytes} {location : Location}
    (dumped : machine.library.dump (createReceiveMessage codeWords) =
      .ok message)
    (checked : Checked announcement server message contents fileHash
      location moment) :
    Wrote machine server codeWords moment := by
  refine ⟨message, _, _, contents, dumped,
    arrivedWhole_of_arrived checked.finished.fits
      checked.finished.contentsFit checked.finished.arrived,
    checked.finished.sent, ?_⟩
  rw [Receiving.written, checked.verified.receivedFile]
  rfl

theorem receiveConfirmed_wrote
    {metadata : Bytes} {json : Json} (fuel : Nat)
    (dumped : machine.library.dump (createReceiveMessage codeWords) =
      .ok message)
    (accepted : checkResponse machine disk.tree metadata = .ok json)
    (agreed : Agreed disk server message metadata moment) :
    Ensures (fun _ => True) (Confirms machine server codeWords)
      (fun _ => Wrote machine server codeWords) (fun _ _ => True)
      (receiveConfirmed machine server json fuel) moment := by
  have confirms : Confirms machine server codeWords moment :=
    confirms_of_phase (agreed.phase dumped : Phase machine disk server
      codeWords fuel moment)
  rw [receiveConfirmed]
  apply Ensures.ofExcept_bind confirms _ fun _ _ => trivial
  intro filename filenameRead
  apply Ensures.ofExcept_bind confirms _ fun _ _ => trivial
  intro isCompressed isCompressedRead
  apply Ensures.ofExcept_bind confirms _ fun _ _ => trivial
  intro fileSize fileSizeRead
  let announcement : Announcement machine disk.tree :=
    ⟨metadata, json, filename, fileSize, isCompressed, accepted,
      filenameRead, fileSizeRead, isCompressedRead⟩
  have receives := (@receiveFileImpl_ensures _ _ _ _ _ _ fuel _
    announcement _ dumped agreed).weakenAlways fun _ => confirms_of_phase
  apply (receives.weaken (fun _ _ _ _ finished => finished)
    fun _ _ _ _ _ => trivial).bind
  rintro _ later - confirms ⟨contents, finished⟩
  apply Ensures.ofExcept_bind confirms _ fun _ _ => trivial
  intro fileHash fileHashRead
  have validates := (@validateFileHash_ensures _ _ _ _ _ _ fuel _ _ _ _ _
    dumped finished fileHashRead).weakenAlways fun _ => confirms_of_phase
  apply (validates.weaken (fun _ _ _ _ checked => checked)
    fun _ _ _ _ _ => trivial).bind
  rintro _ last - confirms ⟨location, checked⟩
  exact handleCompressedFile_wrote confirms
    (wrote_of_checked dumped checked) _ _ _

theorem receiveFile_wrote
    (machine : Machine) (server : Peer) (confirmation : UInt8)
    (codeWords : Bytes) (fuel : Nat) (disk : Disk) :
    Ensures (fun _ => True) (Confirms machine server codeWords)
      (fun _ => Wrote machine server codeWords) (fun _ _ => True)
      (receiveFile machine server confirmation codeWords fuel)
      (starting disk) := by
  have silent : Confirms machine server codeWords
      (starting disk : Local Peer Receiving) :=
    confirms_of_phase (.silent rfl rfl : Phase machine disk server
      codeWords fuel _)
  rw [receiveFile]
  cases dumped : machine.library.dump
      (createReceiveMessage codeWords) with
  | error text => exact .raise silent trivial
  | ok message =>
      show Ensures _ _ _ _ (send server message >>= fun _ => _) _
      apply ((send_ensures server message _).weaken
        (fun _ _ _ _ sent => sent) (fun _ _ _ _ _ => trivial)).bind
      · rintro _ _ - - rfl
        have requested : Requested disk server message
            ((starting disk : Local Peer Receiving).sends server
              (frames (chunks message))) := by
          constructor
          · simp [Local.sends, starting]
          · rfl
        have responds := (@getServerResponse_ensures _ _ _ _ _ _ fuel _ _
          dumped requested).weakenAlways fun _ => confirms_of_phase
        apply (responds.weaken (fun _ _ _ _ response => response)
          fun _ _ _ _ _ => trivial).bind
        rintro json _ - - ⟨metadata, fits, accepted, rfl⟩
        have stillRequested : Requested disk server message
            (((starting disk : Local Peer Receiving).sends server
              (frames (chunks message))).receives server
                (frame metadata)) :=
          ⟨requested.sent, rfl⟩
        have agrees := (@getUserConfirmation_ensures _ _ _ _ _ _ fuel _ _
          dumped confirmation stillRequested).weakenAlways
            fun _ => confirms_of_phase
        apply (agrees.weaken (fun _ _ _ _ sent => sent)
          fun _ _ _ _ _ => trivial).bind
        rintro _ _ - - rfl
        apply receiveConfirmed_wrote fuel dumped accepted
        constructor
        · exact fits
        · simp [Local.sends, Local.receives, starting]
        · simp [Local.sends, Local.receives, starting, acknowledgement]
        · rfl
      · intro part isPart
        have phase : Phase machine disk server codeWords fuel
            ((starting disk : Local Peer Receiving).sends server part) := by
          apply Phase.requests dumped
          · rfl
          · show [] ++ only server part server <+: _
            rw [only_self]
            exact isPart
        exact confirms_of_phase phase

/-- Whatever the server sends, and whatever was on the disk before. -/
theorem runReceiveClient_wrote
    (machine : Machine) (server : Peer) (interactionStream : Bytes)
    (codeWords : Bytes) (fuel : Nat) {receiving : Receiving}
    (fresh : Fresh receiving) :
    Ensures (fun _ => True) (Confirms machine server codeWords)
      (fun _ => Wrote machine server codeWords) (fun _ _ => True)
      (runReceiveClient machine server interactionStream codeWords fuel)
      ⟨receiving, silence, silence⟩ := by
  have silent (disk : Disk) : Confirms machine server codeWords
      (starting disk : Local Peer Receiving) :=
    confirms_of_phase (.silent rfl rfl : Phase machine disk server
      codeWords fuel _)
  have isStart : (⟨receiving, silence, silence⟩ : Local Peer Receiving) =
      starting receiving.disk := by
    cases receiving
    cases fresh.receivedFile
    cases fresh.unpacking
    rfl
  have constructs : Ensures (fun _ => True)
      (Confirms machine server codeWords)
      (fun _ later => ∃ disk, later = starting disk) (fun _ _ => True)
      (DropFileReceiveClient.construct machine : ReceiverProcess Peer Unit)
      (starting receiving.disk) := by
    rw [DropFileReceiveClient.construct]
    apply (onDisk_confirms (silent _) _).bind
    rintro _ _ - - ⟨removed, rfl⟩
    apply (onDisk_confirms (silent removed) _).weaken
    · rintro _ _ - - ⟨created, rfl⟩
      exact ⟨created, rfl⟩
    · intro _ _ _ _ _
      trivial
  rw [isStart, runReceiveClient]
  apply constructs.bind
  rintro _ _ - - ⟨disk, rfl⟩
  apply Ensures.bind
  · apply (receiveFile_wrote machine server
      (extractConfirmation interactionStream) codeWords fuel disk).handle
    intro exception later _ confirms _
    apply (onDisk_confirms confirms _).bind
    intro _ last _ confirms _
    exact .raise confirms trivial
  · intro _ later _ confirms wrote
    apply (onDisk_confirms confirms _).weaken
    · rintro _ _ - - ⟨removed, rfl⟩
      exact wrote.withState rfl
    · intro _ _ _ _ _
      trivial

end Running

end DropFile.Client.ReceivedContents
