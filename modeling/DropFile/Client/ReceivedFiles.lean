import DropFile.ContentLoops
import DropFile.Client.Announcements
import DropFile.Client.RunDropFileClient
import DropFile.Client.ZstdRoundTrip

/-!
# Received files

What the receiver has done at every moment of `receiveFile`, whatever the
server sends, and what it has when it returns: the announced number of bytes
in a file, with the announced hash.
-/

namespace DropFile.Client.ReceivedFiles

open DropFile.General.FuelledProgram
open DropFile.General.Processes.Process
open DropFile.General.PathNames
open DropFile.General.Utf8
open DropFile.General.Files
open DropFile.General.Files.FileTree
open DropFile.Streams
open DropFile.FileSystem
open DropFile.Socket
open DropFile.JsonObjects
open DropFile.Utils
open DropFile.InitSessionMessage
open DropFile.SessionMessages
open DropFile.ContentLoops
open DropFile.Client.Announcements
open DropFile.Client.DropFileReceiveClient
open DropFile.Client.RunDropFileClient

variable {Peer : Type} {machine : Machine} {tree : FileTree}

/-! ## Every moment -/

/-- Enough of the announced file has come. -/
structure Arrived (announcement : Announcement machine tree)
    (server : Peer) (contents : List Bytes)
    (moment : Local Peer Receiving) : Prop where
  received : moment.received server =
    frame announcement.metadata ++ frames contents
  enough : announcement.fileSize ≤ contents.flatten.length

/-- The file consists of the announced bytes and has the announced hash. -/
structure Verified (announcement : Announcement machine tree)
    (server : Peer) (contents : List Bytes) (fileHash : Bytes)
    (location : Location) (moment : Local Peer Receiving) : Prop where
  arrived : Arrived announcement server contents moment
  length :
    (announcement.expected contents).length = announcement.fileSize
  resolved :
    tree.resolve machine.workingDirectory announcement.path = some location
  receivedFile : moment.state.receivedFile =
    some (location, announcement.expected contents)
  fileHashRead :
    machine.library.stringAt announcement.json fileHashKey = .ok fileHash
  hasHash : HasHash machine.digest (announcement.expected contents) fileHash

/-- What the client sends before its last confirmation. -/
def acknowledgement (message : Bytes) : Bytes :=
  frames (chunks message) ++ frame ack

variable (machine tree) in
/-- What holds at every moment of `receiveFile`. -/
structure InOrder (server : Peer) (codeWords : Bytes)
    (moment : Local Peer Receiving) : Prop where
  /-- Not a byte of the last confirmation is sent before all has come. -/
  confirmed : ∀ message,
    machine.library.dump (createReceiveMessage codeWords) = .ok message →
    acknowledgement message ++ (frame ack).take 1 <+: moment.sent server →
    ∃ (announcement : Announcement machine tree) (contents : List Bytes),
      Arrived announcement server contents moment
  /-- Until something is unpacked the received file stays as written. -/
  stored : moment.state.unpacking = none →
    ∀ location bytes, moment.state.receivedFile = some (location, bytes) →
      moment.state.disk.tree.node location = some (.file bytes)
  /-- Only a received archive with the right hash is unpacked. -/
  unpacked : ∀ path, moment.state.unpacking = some path →
    ∃ (announcement : Announcement machine tree) (contents : List Bytes)
      (fileHash : Bytes) (location : Location),
      Verified announcement server contents fileHash location moment ∧
        announcement.isCompressed = true ∧ path = announcement.path

section Phases

variable {server : Peer} {codeWords message : Bytes}
variable {moment : Local Peer Receiving}

theorem InOrder.of_notConfirmed
    (dumped : machine.library.dump (createReceiveMessage codeWords) =
      .ok message)
    (notConfirmed : ¬ acknowledgement message ++ (frame ack).take 1 <+:
      moment.sent server)
    (notUnpacking : moment.state.unpacking = none)
    (stored : ∀ location bytes,
      moment.state.receivedFile = some (location, bytes) →
      moment.state.disk.tree.node location = some (.file bytes)) :
    InOrder machine tree server codeWords moment where
  confirmed other otherDumped confirms := by
    cases dumped.symm.trans otherDumped
    exact absurd confirms notConfirmed
  stored _ := stored
  unpacked path unpacking := by
    rw [notUnpacking] at unpacking
    cases unpacking

/-- Nothing was received into a file yet. -/
structure Fresh (receiving : Receiving) : Prop where
  receivedFile : receiving.receivedFile = none
  unpacking : receiving.unpacking = none

theorem not_confirmed_of_short
    {sent : Bytes}
    (short : sent.length ≤ (acknowledgement message).length) :
    ¬ acknowledgement message ++ (frame ack).take 1 <+: sent := by
  intro confirms
  have longer := confirms.length_le
  have one : ((frame ack).take 1).length = 1 := by decide
  rw [List.length_append, one] at longer
  omega

/-- The text for a message that is too long does not look like an ACK. -/
theorem not_confirmed_of_refusal
    {part : Bytes}
    (isPart : part <+: frames (chunks refusal)) :
    ¬ acknowledgement message ++ (frame ack).take 1 <+:
      acknowledgement message ++ part := by
  rw [List.prefix_append_right_inj]
  intro confirms
  have both := confirms.trans isPart
  revert both
  decide +kernel

theorem InOrder.of_fresh
    {receiving : Receiving} {received sent : Traffic Peer}
    (dumped : machine.library.dump (createReceiveMessage codeWords) =
      .ok message)
    (fresh : Fresh receiving)
    (notConfirmed : ¬ acknowledgement message ++ (frame ack).take 1 <+:
      sent server) :
    InOrder machine tree server codeWords ⟨receiving, received, sent⟩ := by
  apply InOrder.of_notConfirmed dumped notConfirmed fresh.unpacking
  intro location bytes isReceived
  rw [fresh.receivedFile] at isReceived
  cases isReceived

theorem InOrder.of_arrived
    {announcement : Announcement machine tree} {contents : List Bytes}
    (arrived : Arrived announcement server contents moment)
    (notUnpacking : moment.state.unpacking = none)
    (stored : ∀ location bytes,
      moment.state.receivedFile = some (location, bytes) →
      moment.state.disk.tree.node location = some (.file bytes)) :
    InOrder machine tree server codeWords moment where
  confirmed _ _ _ := ⟨announcement, contents, arrived⟩
  stored _ := stored
  unpacked path unpacking := by
    rw [notUnpacking] at unpacking
    cases unpacking

/-! ## The phases -/

/-- The client has confirmed the metadata and nothing more. -/
structure Confirmed (tree : FileTree) (server : Peer)
    (message metadata : Bytes) (moment : Local Peer Receiving) :
    Prop where
  received : moment.received server = frame metadata
  sent : moment.sent server = acknowledgement message
  fresh : Fresh moment.state
  tree : moment.state.disk.tree = tree

/-- After the confirmation these contents have come and are stored. -/
structure Filling (announcement : Announcement machine tree)
    (server : Peer) (message : Bytes) (contents : List Bytes)
    (moment : Local Peer Receiving) : Prop where
  received : moment.received server =
    frame announcement.metadata ++ frames contents
  sent : moment.sent server = acknowledgement message
  unpacking : moment.state.unpacking = none
  stored : Stored machine tree announcement.path
    (announcement.expected contents) moment.state

/-- Whatever else was received, and whatever else but an ACK was sent. -/
theorem Filling.inOrder_of_notConfirmed
    {announcement : Announcement machine tree} {contents : List Bytes}
    {received sent : Traffic Peer}
    (filling : Filling announcement server message contents moment)
    (dumped : machine.library.dump (createReceiveMessage codeWords) =
      .ok message)
    (notConfirmed : ¬ acknowledgement message ++ (frame ack).take 1 <+:
      sent server) :
    InOrder machine tree server codeWords
      ⟨moment.state, received, sent⟩ :=
  .of_notConfirmed dumped notConfirmed filling.unpacking
    filling.stored.node

theorem Filling.notConfirmed
    {announcement : Announcement machine tree} {contents : List Bytes}
    (filling : Filling announcement server message contents moment) :
    ¬ acknowledgement message ++ (frame ack).take 1 <+:
      moment.sent server := by
  rw [filling.sent]
  exact not_confirmed_of_short le_rfl

theorem Filling.inOrder
    {announcement : Announcement machine tree} {contents : List Bytes}
    (filling : Filling announcement server message contents moment)
    (dumped : machine.library.dump (createReceiveMessage codeWords) =
      .ok message) :
    InOrder machine tree server codeWords moment :=
  filling.inOrder_of_notConfirmed dumped filling.notConfirmed

/-- The whole file has come, and nothing was unpacked yet. -/
structure Complete (announcement : Announcement machine tree)
    (server : Peer) (contents : List Bytes)
    (moment : Local Peer Receiving) : Prop where
  arrived : Arrived announcement server contents moment
  unpacking : moment.state.unpacking = none
  stored : Stored machine tree announcement.path
    (announcement.expected contents) moment.state

theorem Complete.inOrder
    {announcement : Announcement machine tree} {contents : List Bytes}
    (complete : Complete announcement server contents moment) :
    InOrder machine tree server codeWords moment :=
  .of_arrived complete.arrived complete.unpacking complete.stored.node

/-- Unpacking may change the disk in any way. -/
theorem InOrder.of_unpacking
    {announcement : Announcement machine tree} {contents : List Bytes}
    {fileHash : Bytes} {location : Location}
    (verified :
      Verified announcement server contents fileHash location moment)
    (isCompressed : announcement.isCompressed = true)
    (unpacking : moment.state.unpacking = some announcement.path) :
    InOrder machine tree server codeWords moment where
  confirmed _ _ _ := ⟨announcement, contents, verified.arrived⟩
  stored notUnpacking := by
    rw [unpacking] at notUnpacking
    cases notUnpacking
  unpacked path unpacks := by
    cases unpacking.symm.trans unpacks
    exact ⟨announcement, contents, fileHash, location, verified,
      isCompressed, rfl⟩

variable [DecidableEq Peer]

section Rules

variable {α : Type} {rely always : Local Peer Receiving → Prop}
variable {after : α → Local Peer Receiving → Prop}
variable {failing : Exception → Local Peer Receiving → Prop}

/-- The moment with another disk. -/
def withDisk (moment : Local Peer Receiving) (disk : Disk) :
    Local Peer Receiving :=
  { moment with state := { moment.state with disk } }

theorem onDisk_ensures
    {program : DiskProgram α}
    (holds : always moment)
    (ends :
      Program.Satisfies (fun start => start = moment.state.disk) program
        (fun value disk => always (withDisk moment disk) ∧
          after value (withDisk moment disk))
        (fun error disk => always (withDisk moment disk) ∧
          failing error (withDisk moment disk))) :
    Ensures rely always after failing (onDisk program) moment := by
  apply Ensures.ofProgram holds
  intro state start
  subst start
  rw [Program.focus]
  have satisfied := ends moment.state.disk rfl
  cases outcome : program moment.state.disk with
  | returned value later =>
      rw [outcome] at satisfied
      exact satisfied
  | threw error later =>
      rw [outcome] at satisfied
      exact satisfied
  | outOfFuel => trivial

/-- Whatever a program does to the disk. -/
theorem onDisk_ensures_always
    (program : DiskProgram α)
    (holds : always moment)
    (anyDisk : ∀ disk, always (withDisk moment disk)) :
    Ensures rely always
      (fun _ later => ∃ disk, later = withDisk moment disk)
      (fun _ _ => True) (onDisk program) moment := by
  apply onDisk_ensures holds
  intro state _
  cases program state with
  | returned value later => exact ⟨anyDisk later, later, rfl⟩
  | threw error later => exact ⟨anyDisk later, trivial⟩
  | outOfFuel => trivial

end Rules

variable {announcement : Announcement machine tree}

theorem openReceivedFile_ensures
    (dumped : machine.library.dump (createReceiveMessage codeWords) =
      .ok message)
    (confirmed : Confirmed tree server message announcement.metadata
      moment)
    (missing : fileExists moment.state.disk.tree machine.workingDirectory
      announcement.path = false) :
    Ensures (fun _ => True) (InOrder machine tree server codeWords)
      (fun _ => Filling announcement server message [])
      (fun _ _ => True) (openReceivedFile machine announcement.path)
      moment := by
  have notConfirmed : ¬ acknowledgement message ++ (frame ack).take 1 <+:
      moment.sent server := by
    rw [confirmed.sent]
    exact not_confirmed_of_short le_rfl
  have anyDisk : ∀ disk, InOrder machine tree server codeWords
      (withDisk moment disk) := by
    intro disk
    exact .of_fresh dumped
      ⟨confirmed.fresh.receivedFile, confirmed.fresh.unpacking⟩
      notConfirmed
  have holds : InOrder machine tree server codeWords moment :=
    .of_fresh dumped confirmed.fresh notConfirmed
  have noStatus : status moment.state.disk.tree machine.workingDirectory
      announcement.path = none := by
    simpa [fileExists] using missing
  have filling {location : Option Location} {disk : Disk}
      (stored : Stored machine tree announcement.path []
        { moment.state with
          disk, receivedFile := location.map fun location =>
            (location, []) }) :
      Filling announcement server message []
        ((withDisk moment disk).change fun receiving =>
          { receiving with
            receivedFile := location.map fun location =>
              (location, []) }) := by
    constructor
    · show moment.received server = _
      rw [confirmed.received, frames_nil, List.append_nil]
    · exact confirmed.sent
    · exact confirmed.fresh.unpacking
    · rw [announcement.expected_nil]
      exact stored
  have opens : Ensures (fun _ => True)
      (InOrder machine tree server codeWords)
      (fun opened later => ∃ disk, later = withDisk moment disk ∧
        Stored machine tree announcement.path []
          { moment.state with
            disk, receivedFile := opened.map fun location =>
              (location, []) })
      (fun _ _ => True)
      (onDisk (openForWriting machine.workingDirectory
        announcement.path) : ReceiverProcess Peer _) moment := by
    apply onDisk_ensures holds
    rintro disk rfl
    rcases openForWriting_cases machine.workingDirectory
        announcement.path moment.state.disk with
      notOpened | ⟨location, resolved, possible, opened⟩
    · rw [notOpened]
      refine ⟨anyDisk _, _, rfl, Or.inr ⟨rfl, ?_⟩⟩
      exact noStatus
    · rw [opened]
      refine ⟨anyDisk _, _, rfl, Or.inl ⟨location, ?_⟩⟩
      have isOnDisk := onDisk_openedAt resolved possible
      rwa [confirmed.tree] at isOnDisk
  apply opens.bind
  rintro opened later - - ⟨disk, rfl, stored⟩
  have filled := filling stored
  exact Ensures.modifyState (anyDisk disk) (filled.inOrder dumped) filled

theorem receiveContent_ensures
    (dumped : machine.library.dump (createReceiveMessage codeWords) =
      .ok message)
    (fuel : Nat)
    (filling : Filling announcement server message [] moment) :
    Ensures (fun _ => True) (InOrder machine tree server codeWords)
      (fun _ later => ∃ contents,
        Filling announcement server message contents later ∧
          announcement.fileSize ≤ contents.flatten.length)
      (fun _ _ => True)
      (receiveContent server announcement.fileSize fuel 0) moment := by
  rw [receiveContent_eq]
  apply contentLoop_ensures
    (Filling announcement server message)
    (machine.library.sizeAt_lt announcement.fileSizeRead)
  · -- some bytes of a frame
    intro contents moment part filling _
    exact filling.inOrder_of_notConfirmed dumped filling.notConfirmed
  · -- a frame that is too long
    intro contents moment header part filling _ _ isPart
    apply filling.inOrder_of_notConfirmed dumped
    rw [followedBy_apply, only_self]
    show ¬ _ <+: moment.sent server ++ part
    rw [filling.sent]
    exact not_confirmed_of_refusal isPart
  · intro contents moment error later _ _
    trivial
  · intro contents data moment filling _ unfinished
    have written := filling.stored.write
      (data.take (announcement.fileSize - contents.flatten.length))
    have extended : announcement.expected contents ++
          data.take (announcement.fileSize - contents.flatten.length) =
        announcement.expected (contents ++ [data]) := by
      rw [Announcement.expected, Announcement.expected,
        List.flatten_append, List.flatten_singleton, List.take_append]
    rw [extended] at written
    have filled : Filling announcement server message (contents ++ [data])
        ((moment.receives server (frame data)).change
          (Receiving.write (data.take
            (announcement.fileSize - contents.flatten.length)))) := by
      constructor
      · show moment.received server ++ only server (frame data) server = _
        rw [filling.received, only_self, frames_append, frames_cons,
          frames_nil, List.append_nil, List.append_assoc]
      · exact filling.sent
      · show (Receiving.write _ moment.state).unpacking = none
        rw [Receiving.write]
        split <;> exact filling.unpacking
      · exact written
    apply Ensures.modifyState _ (filled.inOrder dumped) filled
    exact filling.inOrder_of_notConfirmed dumped filling.notConfirmed
  · exact filling.inOrder dumped
  · exact filling

theorem receiveFileImpl_ensures
    (dumped : machine.library.dump (createReceiveMessage codeWords) =
      .ok message)
    (fuel : Nat)
    (confirmed : Confirmed tree server message announcement.metadata
      moment) :
    Ensures (fun _ => True) (InOrder machine tree server codeWords)
      (fun _ later => ∃ contents,
        Complete announcement server contents later)
      (fun _ _ => True)
      (receiveFileImpl machine server announcement.path
        announcement.fileSize fuel) moment := by
  have holds : InOrder machine tree server codeWords moment := by
    apply InOrder.of_fresh dumped confirmed.fresh
    rw [confirmed.sent]
    exact not_confirmed_of_short le_rfl
  rw [receiveFileImpl]
  apply Ensures.getState_bind holds
  by_cases present : fileExists moment.state.disk.tree
      machine.workingDirectory announcement.path = true
  · rw [if_pos present]
    exact .raise holds trivial
  · rw [if_neg present]
    apply (openReceivedFile_ensures dumped confirmed
      (Bool.eq_false_iff.2 present)).bind
    rintro _ later - - filling
    apply (receiveContent_ensures dumped fuel filling).bind
    rintro _ later - - ⟨contents, filling, enough⟩
    have complete {sent : Traffic Peer} :
        Complete announcement server contents
          ⟨later.state, later.received, sent⟩ := by
      constructor
      · exact ⟨filling.received, enough⟩
      · exact filling.unpacking
      · exact filling.stored
    apply (send_ensures server ack fun _ _ => complete.inOrder).weaken
    · rintro _ _ - - rfl
      exact ⟨contents, complete⟩
    · intro _ _ _ _ _
      trivial

theorem validateFileHash_ensures
    {contents : List Bytes} {fileHash : Bytes}
    (complete : Complete announcement server contents moment)
    (fileHashRead :
      machine.library.stringAt announcement.json fileHashKey =
        .ok fileHash) :
    Ensures (fun _ => True) (InOrder machine tree server codeWords)
      (fun _ later => later = moment ∧ ∃ location,
        Verified announcement server contents fileHash location moment)
      (fun _ _ => True)
      (validateFileHash machine announcement.path fileHash) moment := by
  have holds : InOrder machine tree server codeWords moment :=
    complete.inOrder
  rw [validateFileHash]
  apply Ensures.getState_bind holds
  apply Ensures.ofExcept_bind holds _ fun _ _ => trivial
  intro actual calculated
  by_cases different : actual ≠ fileHash
  · rw [if_pos different]
    exact .raise holds trivial
  · rw [if_neg different]
    rw [not_not] at different
    subst different
    rcases complete.stored.onDisk calculated with ⟨location, onDisk⟩
    refine .pure holds ⟨rfl, location, ?_⟩
    constructor
    · exact complete.arrived
    · exact List.length_take_of_le complete.arrived.enough
    · exact onDisk.resolved
    · exact onDisk.opened
    · exact fileHashRead
    · exact hasHash_of_calculateFileHash onDisk.status calculated

theorem handleCompressedFile_ensures
    {contents : List Bytes} {fileHash : Bytes} {location : Location}
    (fuel : Nat)
    (complete : Complete announcement server contents moment)
    (verified :
      Verified announcement server contents fileHash location moment) :
    Ensures (fun _ => True) (InOrder machine tree server codeWords)
      (fun _ later =>
        Verified announcement server contents fileHash location later ∧
          later.state.unpacking =
            if announcement.isCompressed then some announcement.path
            else none)
      (fun _ _ => True)
      (handleCompressedFile machine announcement.isCompressed
        announcement.path fuel) moment := by
  have holds : InOrder machine tree server codeWords moment :=
    complete.inOrder
  rw [handleCompressedFile]
  by_cases isCompressed : announcement.isCompressed = true
  · rw [if_pos isCompressed, if_pos isCompressed]
    have unpacked {disk : Disk} :
        Verified announcement server contents fileHash location
          (withDisk (moment.change fun receiving =>
            { receiving with unpacking := some announcement.path })
            disk) :=
      ⟨⟨verified.arrived.received, verified.arrived.enough⟩,
        verified.length, verified.resolved, verified.receivedFile,
        verified.fileHashRead, verified.hasHash⟩
    have inOrder {disk : Disk} : InOrder machine tree server codeWords
        (withDisk (moment.change fun receiving =>
          { receiving with unpacking := some announcement.path })
          disk) :=
      .of_unpacking unpacked isCompressed rfl
    apply Ensures.modifyState_bind holds
    apply (onDisk_ensures_always _ inOrder fun _ => inOrder).bind
    rintro _ _ - - ⟨disk, rfl⟩
    apply (onDisk_ensures_always _ (@inOrder disk)
      fun _ => inOrder).weaken
    · rintro _ _ - - ⟨later, rfl⟩
      exact ⟨unpacked, rfl⟩
    · intro _ _ _ _ _
      trivial
  · rw [if_neg isCompressed, if_neg isCompressed]
    exact .pure holds ⟨verified, complete.unpacking⟩

/-- What has come when `receiveFile` returns. -/
structure Received (announcement : Announcement machine tree)
    (server : Peer) (moment : Local Peer Receiving) : Prop where
  verified : ∃ contents fileHash location,
    Verified announcement server contents fileHash location moment
  unpacking : moment.state.unpacking =
    if announcement.isCompressed then some announcement.path else none

theorem receiveConfirmed_ensures
    (dumped : machine.library.dump (createReceiveMessage codeWords) =
      .ok message)
    (fuel : Nat) {metadata : Bytes} {json : Json}
    (accepted : checkResponse machine tree metadata = .ok json)
    (confirmed : Confirmed tree server message metadata moment) :
    Ensures (fun _ => True) (InOrder machine tree server codeWords)
      (fun _ later => ∃ announcement : Announcement machine tree,
        Received announcement server later)
      (fun _ _ => True) (receiveConfirmed machine server json fuel)
      moment := by
  have holds : InOrder machine tree server codeWords moment := by
    apply InOrder.of_fresh dumped confirmed.fresh
    rw [confirmed.sent]
    exact not_confirmed_of_short le_rfl
  rw [receiveConfirmed]
  apply Ensures.ofExcept_bind holds _ fun _ _ => trivial
  intro filename filenameRead
  apply Ensures.ofExcept_bind holds _ fun _ _ => trivial
  intro isCompressed isCompressedRead
  apply Ensures.ofExcept_bind holds _ fun _ _ => trivial
  intro fileSize fileSizeRead
  let announcement : Announcement machine tree :=
    ⟨metadata, json, filename, fileSize, isCompressed, accepted,
      filenameRead, fileSizeRead, isCompressedRead⟩
  apply (@receiveFileImpl_ensures _ _ _ _ _ _ _ _ announcement dumped fuel
    confirmed).bind
  rintro _ later - holds ⟨contents, complete⟩
  apply Ensures.ofExcept_bind holds _ fun _ _ => trivial
  intro fileHash fileHashRead
  apply (validateFileHash_ensures complete fileHashRead).bind
  rintro _ _ - - ⟨rfl, location, verified⟩
  apply (handleCompressedFile_ensures fuel complete verified).weaken
  · rintro _ last - - ⟨verified, unpacking⟩
    exact ⟨announcement, ⟨contents, fileHash, location, verified⟩,
      unpacking⟩
  · intro _ _ _ _ _
    trivial

theorem getUserConfirmation_ensures
    (dumped : machine.library.dump (createReceiveMessage codeWords) =
      .ok message)
    (confirmation : UInt8)
    (sent : moment.sent server = frames (chunks message))
    (fresh : Fresh moment.state) :
    Ensures (fun _ => True) (InOrder machine tree server codeWords)
      (fun _ later => confirmation = 121 ∧
        later = moment.sends server (frame ack))
      (fun _ _ => True) (getUserConfirmation server confirmation)
      moment := by
  have sending (text part : Bytes)
      (different : ¬ frame ack ++ (frame ack).take 1 <+:
        frames (chunks text))
      (isPart : part <+: frames (chunks text)) :
      InOrder machine tree server codeWords
        (moment.sends server part) := by
    apply InOrder.of_fresh dumped fresh
    rw [followedBy_apply, only_self, sent, acknowledgement,
      List.append_assoc, List.prefix_append_right_inj]
    intro confirms
    exact different (confirms.trans isPart)
  have nothing : InOrder machine tree server codeWords moment := by
    have holds := sending [] [] (by decide) List.nil_prefix
    rwa [Local.sends_nil] at holds
  rw [getUserConfirmation]
  split_ifs with answer
  · have aborts : ¬ frame ack ++ (frame ack).take 1 <+:
        frames (chunks (ascii "abort")) := by
      decide +kernel
    apply ((send_ensures server (ascii "abort") fun part =>
      sending _ part aborts).weaken (fun _ _ _ _ sent => sent)
        (fun _ _ _ _ _ => trivial)).bind
    rintro _ later - holds -
    exact .raise holds trivial
  · have confirms : ¬ frame ack ++ (frame ack).take 1 <+:
        frames (chunks ack) := by
      decide +kernel
    apply (send_ensures server ack fun part =>
      sending _ part confirms).weaken
    · rintro _ later - - rfl
      exact ⟨not_not.1 answer, rfl⟩
    · intro _ _ _ _ _
      trivial

theorem getServerResponse_ensures
    (dumped : machine.library.dump (createReceiveMessage codeWords) =
      .ok message)
    (sent : moment.sent server = frames (chunks message))
    (fresh : Fresh moment.state) :
    Ensures (fun _ => True)
      (InOrder machine moment.state.disk.tree server codeWords)
      (fun json later => ∃ metadata,
        checkResponse machine moment.state.disk.tree metadata = .ok json ∧
        later = moment.receives server (frame metadata))
      (fun _ _ => True) (getServerResponse machine server) moment := by
  have requested (part : Bytes) : InOrder machine
      moment.state.disk.tree server codeWords
        (moment.receives server part) := by
    apply InOrder.of_fresh dumped fresh
    apply not_confirmed_of_short
    rw [sent, acknowledgement]
    exact (List.prefix_append _ _).length_le
  have refused (header part : Bytes)
      (isPart : part <+: frames (chunks refusal)) :
      InOrder machine moment.state.disk.tree server codeWords
        ((moment.receives server header).sends server part) := by
    apply InOrder.of_fresh dumped fresh
    show ¬ _ <+: moment.sent server ++ only server part server
    rw [only_self, sent, acknowledgement, List.append_assoc,
      List.prefix_append_right_inj]
    have different : ¬ frame ack ++ (frame ack).take 1 <+:
        frames (chunks refusal) := by
      decide +kernel
    intro confirms
    exact different (confirms.trans isPart)
  rw [getServerResponse]
  apply ((receive_ensures server (fun part _ => requested part)
    fun header part _ _ isPart => refused header part isPart).weaken
      (fun _ _ _ _ arrived => arrived) (fun _ _ _ _ _ => trivial)).bind
  rintro metadata _ - holds ⟨-, rfl⟩
  apply Ensures.getState_bind holds
  cases response : checkResponse machine moment.state.disk.tree
      metadata with
  | ok json =>
      show Ensures _ _ _ _ (ofExcept (checkResponse machine
        moment.state.disk.tree metadata)) _
      rw [response]
      exact .pure holds ⟨metadata, response, rfl⟩
  | error error =>
      show Ensures _ _ _ _ (ofExcept (checkResponse machine
        moment.state.disk.tree metadata)) _
      rw [response]
      exact .raise holds trivial

end Phases

/-! ## Whole runs -/

variable [DecidableEq Peer]

/-- A client that was just created. -/
def starting (disk : Disk) : Local Peer Receiving :=
  ⟨⟨disk, none, none⟩, silence, silence⟩

theorem receiveFile_ensures
    (machine : Machine) (server : Peer) (confirmation : UInt8)
    (codeWords : Bytes) (fuel : Nat) (disk : Disk) :
    Ensures (fun _ => True) (InOrder machine disk.tree server codeWords)
      (fun _ later => confirmation = 121 ∧
        ∃ announcement : Announcement machine disk.tree,
          Received announcement server later)
      (fun _ _ => True)
      (receiveFile machine server confirmation codeWords fuel)
      (starting disk) := by
  rw [receiveFile]
  cases dumped : machine.library.dump
      (createReceiveMessage codeWords) with
  | error text =>
      apply Ensures.raise _ trivial
      constructor
      · intro message otherDumped
        cases dumped.symm.trans otherDumped
      · rintro - location bytes received
        cases received
      · rintro path unpacking
        cases unpacking
  | ok message =>
      have fresh : Fresh (starting disk : Local Peer _).state :=
        ⟨rfl, rfl⟩
      have requesting (part : Bytes)
          (isPart : part <+: frames (chunks message)) :
          InOrder machine disk.tree server codeWords
            ((starting disk : Local Peer _).sends server part) := by
        apply InOrder.of_fresh dumped fresh
        apply not_confirmed_of_short
        rw [followedBy_apply, only_self, acknowledgement]
        exact (isPart.trans (List.prefix_append _ _)).length_le
      show Ensures _ _ _ _ (send server message >>= fun _ => _) _
      apply ((send_ensures server message requesting).weaken
        (fun _ _ _ _ sent => sent) (fun _ _ _ _ _ => trivial)).bind
      rintro _ _ - - rfl
      have sent : ((starting disk : Local Peer Receiving).sends server
          (frames (chunks message))).sent server =
            frames (chunks message) := by
        simp [Local.sends, starting]
      apply (getServerResponse_ensures dumped sent fresh).bind
      rintro json _ - - ⟨metadata, accepted, rfl⟩
      have stillSent : (((starting disk : Local Peer Receiving).sends
          server (frames (chunks message))).receives server
            (frame metadata)).sent server = frames (chunks message) :=
        sent
      apply (getUserConfirmation_ensures dumped confirmation stillSent
        fresh).bind
      rintro _ _ - - ⟨answer, rfl⟩
      have confirmed : Confirmed disk.tree server message metadata
          ((((starting disk : Local Peer Receiving).sends server
            (frames (chunks message))).receives server
              (frame metadata)).sends server (frame ack)) := by
        constructor
        · simp [Local.sends, Local.receives, starting]
        · simp [Local.sends, Local.receives, starting, acknowledgement]
        · exact fresh
        · rfl
      apply (receiveConfirmed_ensures dumped fuel accepted
        confirmed).weaken
      · rintro _ _ - - received
        exact ⟨answer, received⟩
      · intro _ _ _ _ _
        trivial

/--
Whatever the server sends and wherever the connection is lost: the last
confirmation is sent only after the whole file has come, an archive is unpacked
only after its hash was compared, and when `receiveFile` returns the user has
agreed and the file is as it was announced.
-/
theorem receiveFile_receives
    (machine : Machine) (server : Peer) (confirmation : UInt8)
    (codeWords : Bytes) (fuel : Nat) (disk : Disk)
    {later : ReceiverProcess Peer Unit} {moment : Local Peer Receiving}
    (becomes : Becomes
      (receiveFile machine server confirmation codeWords fuel)
      (starting disk) later moment) :
    InOrder machine disk.tree server codeWords moment ∧
      (later = .done () →
        confirmation = 121 ∧
          ∃ announcement : Announcement machine disk.tree,
            Received announcement server moment) := by
  have ensures := (receiveFile_ensures machine server confirmation
    codeWords fuel disk).of_becomes becomes
  constructor
  · exact ensures.now trivial
  · rintro rfl
    exact (ensures trivial).2

/-- When `receiveFile` returns, the user has entered a `y` first. -/
theorem receiveFile_agreed
    (machine : Machine) (server : Peer) (interactionStream : Bytes)
    (codeWords : Bytes) (fuel : Nat) (disk : Disk)
    {moment : Local Peer Receiving}
    (becomes : Becomes
      (receiveFile machine server (extractConfirmation interactionStream)
        codeWords fuel)
      (starting disk) (.done ()) moment) :
    FirstEntered interactionStream 121 ∧
      ∃ announcement : Announcement machine disk.tree,
        Received announcement server moment := by
  have ensures := (receiveFile_ensures machine server
    (extractConfirmation interactionStream) codeWords fuel disk).of_becomes
      becomes
  rw [← extractConfirmation_eq_iff]
  exact (ensures trivial).2

/-! ## A run -/

/-- The SHA-256 digest of the three bytes of `abc`. -/
def digestOfAbc : Bytes :=
  [0xba, 0x78, 0x16, 0xbf, 0x8f, 0x01, 0xcf, 0xea, 0x41, 0x41, 0x40, 0xde,
    0x5d, 0xae, 0x22, 0x23, 0xb0, 0x03, 0x61, 0xa3, 0x96, 0x17, 0x7a, 0x9c,
    0xb4, 0x10, 0xff, 0x61, 0xf2, 0x00, 0x15, 0xad]

/-- A digest that is known for a single content. -/
def abcLibrary : DigestLibrary where
  Context := Bytes
  create := some []
  digestInit _ := some []
  digestUpdate mdctx buffer := some (mdctx ++ buffer)
  digestFinal mdctx := if mdctx = ascii "abc" then some digestOfAbc else none

/-- A machine with room for three bytes. -/
def smallMachine : Machine where
  zstd := ZstdRoundTrip.holdingBack Nat.one_pos Nat.one_pos
  library := FlatJson.flatLibrary
  digest := abcLibrary
  workingDirectory := []
  temporaryDirectory := ascii "/tmp"
  freeSpace _ := 3
  buffering := LiveUnpacking.unbuffered

theorem hasHash_abc :
    HasHash abcLibrary (ascii "abc")
      (binaryToHumanReadable digestOfAbc) := by
  intro tree workingDirectory path isFile
  have found := status_of_regularFile isFile
  have hashes : hashContent abcLibrary (ascii "abc") [] =
      .ok (binaryToHumanReadable digestOfAbc) := by
    decide +kernel
  rw [calculateFileHash, found]
  exact hashes

/-- The message for a file `f` with the content `abc`. -/
def abcMessage : Json :=
  sendMessage (ascii "f") 3 (binaryToHumanReadable digestOfAbc) false

def abcMetadata : Bytes :=
  (FlatJson.flatLibrary.dump abcMessage).toOption.getD []

theorem parse_abcMetadata :
    FlatJson.flatLibrary.parse abcMetadata = .ok abcMessage := by
  have dumped : FlatJson.flatLibrary.dump abcMessage = .ok abcMetadata := by
    decide +kernel
  have utf8 : abcMessage.Utf8 :=
    sendMessage_utf8 (by decide +kernel) (isUtf8_binaryToHumanReadable _) 3
      false
  rcases parse_dump_of_allPlain FlatJson.flatLibrary_contract ⟨_, rfl⟩
      (sendMessage_ordered _ _ _ _) utf8 (sendMessage_allPlain _ _ _ _) with
    ⟨text, otherDumped, parsed⟩
  cases dumped.symm.trans otherDumped
  exact parsed

theorem abcMessage_reads :
    Reads FlatJson.flatLibrary abcMessage (ascii "f") 3
      (binaryToHumanReadable digestOfAbc) false :=
  reads_of_isSendMessage _ (by decide) (isSendMessage_sendMessage _ _ _ _)

def abcAnnouncement : Announcement smallMachine FileTree.empty where
  metadata := abcMetadata
  json := abcMessage
  filename := ascii "f"
  fileSize := 3
  isCompressed := false
  accepted :=
    checkResponse_of_reads parse_abcMetadata abcMessage_reads
      (by decide +kernel) le_rfl
  filenameRead := abcMessage_reads.filename
  fileSizeRead := abcMessage_reads.fileSize
  isCompressedRead := abcMessage_reads.isCompressed

/-- The content `abc` arrives in two frames. -/
theorem exists_done :
    ∃ moment : Local Unit Receiving,
      Becomes (receiveFile smallMachine () 121 (ascii "a-b-1") 3)
        (starting ⟨FileTree.empty, []⟩) (.done ()) moment := by
  rcases create_createReceiveMessage FlatJson.flatLibrary_contract
      (by decide +kernel : IsUtf8 (ascii "a-b-1")) with
    ⟨message, dumped, -⟩
  have request := @receiveFile_plays Unit smallMachine _ () _ _ dumped 121 3
    ⟨⟨FileTree.empty, []⟩, none, none⟩
  have answer := @awaitResponse_plays Unit smallMachine _ () abcMetadata
    abcMessage ⟨⟨FileTree.empty, []⟩, none, none⟩ (by decide +kernel)
    abcAnnouncement.accepted 3
  have transfer := @receiveConfirmed_plays Unit smallMachine _ ()
    [ascii "f"] ⟨⟨FileTree.empty, []⟩, none, none⟩ 3
    [ascii "a", ascii "bc"] _ abcAnnouncement (by decide +kernel)
    (by decide +kernel) (by decide +kernel) (by decide) (by decide)
    (by decide) abcMessage_reads.fileHash (by decide) hasHash_abc rfl
  exact ⟨_, .of_plays ((request.trans answer).trans transfer) _ _⟩

theorem receiveFile_receives_abc :
    ∃ (moment : Local Unit Receiving)
      (announcement : Announcement smallMachine FileTree.empty),
      Received announcement () moment := by
  rcases exists_done with ⟨moment, becomes⟩
  rcases ((receiveFile_receives smallMachine () 121 (ascii "a-b-1") 3
      ⟨FileTree.empty, []⟩ becomes).2 rfl).2 with
    ⟨announcement, received⟩
  exact ⟨moment, announcement, received⟩

end DropFile.Client.ReceivedFiles
