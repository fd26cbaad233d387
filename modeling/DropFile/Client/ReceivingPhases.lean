import DropFile.Client.ReceivedFiles

/-!
# The phases of `receiveFile`

Where the receiver stands at every moment of `receiveFile`, whatever the server
sends: what came in, what was given out and what the disk has become.
-/

namespace DropFile.Client.ReceivingPhases

open DropFile.General.Processes.Process
open DropFile.General.PathNames
open DropFile.General.Files
open DropFile.General.Files.FileTree
open DropFile.Streams
open DropFile.FileSystem
open DropFile.Socket
open DropFile.JsonObjects
open DropFile.Utils
open DropFile.InitSessionMessage
open DropFile.ContentLoops
open DropFile.Client.LiveUnpacking
open DropFile.Client.DropFileReceiveClient
open DropFile.Client.Announcements
open DropFile.Client.ReceivedFiles

variable {Peer : Type} {machine : Machine} {disk : Disk}

/-! ## The received file -/

/-- The disk with the received file at a location. -/
def withFile (disk : Disk) (path : PathName) (location : Location)
    (bytes : Bytes) : Disk :=
  ⟨disk.tree.place location (.file bytes), disk.handed ++ [path]⟩

/-- The client while these bytes of the announced file have come. -/
inductive Holds (announcement : Announcement machine disk.tree)
    (bytes : Bytes) : Receiving → Prop where
  | opened {location : Location} :
      disk.tree.node location = none →
      disk.tree.resolve machine.workingDirectory announcement.path =
        some location →
      disk.tree.CanPlace location →
      Holds announcement bytes
        ⟨withFile disk announcement.path location bytes,
          some (location, bytes), none⟩
  | notOpened :
      status disk.tree machine.workingDirectory announcement.path = none →
      Holds announcement bytes
        ⟨⟨disk.tree, disk.handed ++ [announcement.path]⟩, none, none⟩

theorem Holds.write
    {announcement : Announcement machine disk.tree} {bytes : Bytes}
    {receiving : Receiving}
    (holds : Holds announcement bytes receiving)
    (more : Bytes) :
    Holds announcement (bytes ++ more) (receiving.write more) := by
  cases holds with
  | opened free resolved possible =>
      have written := @Holds.opened machine disk announcement
        (bytes ++ more) _ free resolved possible
      rw [withFile, ← place_place possible bytes] at written
      exact written
  | notOpened missing => exact .notOpened missing

/-- Nothing else is written, or nothing at all. -/
theorem Holds.written
    {announcement : Announcement machine disk.tree} {bytes : Bytes}
    {receiving : Receiving}
    (holds : Holds announcement bytes receiving) :
    receiving.written = bytes ∨ receiving.written = [] := by
  cases holds with
  | opened => exact Or.inl rfl
  | notOpened => exact Or.inr rfl

/-- Without a received file nothing on the disk has changed. -/
def Spotless (disk : Disk) (receiving : Receiving) : Prop :=
  receiving.receivedFile = none → receiving.disk.tree = disk.tree

theorem Holds.spotless
    {announcement : Announcement machine disk.tree} {bytes : Bytes}
    {receiving : Receiving}
    (holds : Holds announcement bytes receiving) :
    Spotless disk receiving := by
  intro notOpen
  cases holds with
  | opened => cases notOpen
  | notOpened => rfl

/-- What handling the archive makes of the disk. -/
inductive Unpacking (machine : Machine) (path : PathName) (fuel : Nat)
    (disk : Disk) : Disk → Prop where
  | starts : Unpacking machine path fuel disk disk
  | unpacks {later : Disk} :
      (unpackArchive machine.zstd machine.buffering machine.workingDirectory
        (currentPath machine.workingDirectory) path fuel
        disk).lastState = some later →
      Unpacking machine path fuel disk later
  | removes {between later : Disk} :
      unpackArchive machine.zstd machine.buffering machine.workingDirectory
          (currentPath machine.workingDirectory) path fuel disk =
        .returned () between →
      (remove machine.workingDirectory path between).lastState =
        some later →
      Unpacking machine path fuel disk later

/-! ## The phases -/

/-- A client that was created and has not touched its disk. -/
def untouched (disk : Disk) : Receiving :=
  ⟨disk, none, none⟩

theorem spotless_of_untouched
    {receiving : Receiving}
    (isUntouched : receiving = untouched disk) :
    Spotless disk receiving := by
  subst isUntouched
  intro _
  rfl

variable (machine disk) in
/-- Where the receiver can stand. -/
inductive Phase (server : Peer) (codeWords : Bytes) (fuel : Nat) :
    Local Peer Receiving → Prop where
  /-- Nothing was sent. -/
  | silent {moment : Local Peer Receiving} :
      moment.state = untouched disk →
      moment.sent server = [] →
      Phase server codeWords fuel moment
  /-- The request is on its way. -/
  | requests {moment : Local Peer Receiving} {message : Bytes} :
      machine.library.dump (createReceiveMessage codeWords) =
        .ok message →
      moment.state = untouched disk →
      moment.sent server <+: frames (chunks message) →
      Phase server codeWords fuel moment
  /-- The answer is too long, or the user does not want the file. -/
  | declines {moment : Local Peer Receiving} {message text : Bytes} :
      machine.library.dump (createReceiveMessage codeWords) =
        .ok message →
      moment.state = untouched disk →
      text = refusal ∨ text = ascii "abort" →
      moment.sent server <+:
        frames (chunks message) ++ frames (chunks text) →
      Phase server codeWords fuel moment
  /-- The confirmation is on its way. -/
  | agrees {moment : Local Peer Receiving} {message : Bytes} :
      machine.library.dump (createReceiveMessage codeWords) =
        .ok message →
      moment.state = untouched disk →
      moment.sent server <+: acknowledgement message →
      Phase server codeWords fuel moment
  /-- The file was just opened. -/
  | opens {moment : Local Peer Receiving} {message : Bytes}
      {holding : Receiving}
      {announcement : Announcement machine disk.tree} :
      machine.library.dump (createReceiveMessage codeWords) =
        .ok message →
      announcement.metadata.length ≤ bufferSize →
      moment.received server = frame announcement.metadata →
      Holds announcement [] holding →
      moment.state = { holding with receivedFile := none } →
      moment.sent server = acknowledgement message →
      Phase server codeWords fuel moment
  /-- These contents have come, and a part of what follows. -/
  | fills {moment : Local Peer Receiving} {message rest : Bytes}
      {announcement : Announcement machine disk.tree}
      {contents : List Bytes} :
      machine.library.dump (createReceiveMessage codeWords) =
        .ok message →
      announcement.metadata.length ≤ bufferSize →
      (∀ content ∈ contents, content.length ≤ bufferSize) →
      moment.received server =
        frame announcement.metadata ++ frames contents ++ rest →
      Holds announcement (announcement.expected contents) moment.state →
      moment.sent server = acknowledgement message →
      Phase server codeWords fuel moment
  /-- These contents have come, and a header that is refused. -/
  | refuses {moment : Local Peer Receiving} {message header : Bytes}
      {announcement : Announcement machine disk.tree}
      {contents : List Bytes} :
      machine.library.dump (createReceiveMessage codeWords) =
        .ok message →
      announcement.metadata.length ≤ bufferSize →
      (∀ content ∈ contents, content.length ≤ bufferSize) →
      moment.received server =
        frame announcement.metadata ++ frames contents ++ header →
      Oversized header →
      Holds announcement (announcement.expected contents) moment.state →
      moment.sent server <+:
        acknowledgement message ++ frames (chunks refusal) →
      Phase server codeWords fuel moment
  /-- All contents have come. -/
  | finishes {moment : Local Peer Receiving} {message : Bytes}
      {announcement : Announcement machine disk.tree}
      {contents : List Bytes} :
      machine.library.dump (createReceiveMessage codeWords) =
        .ok message →
      announcement.metadata.length ≤ bufferSize →
      (∀ content ∈ contents, content.length ≤ bufferSize) →
      Arrived announcement server contents moment →
      Holds announcement (announcement.expected contents) moment.state →
      acknowledgement message <+: moment.sent server →
      moment.sent server <+: acknowledgement message ++ frame ack →
      Phase server codeWords fuel moment
  /-- The archive is being handled. -/
  | unpacks {moment : Local Peer Receiving} {message fileHash : Bytes}
      {announcement : Announcement machine disk.tree}
      {contents : List Bytes} {location : Location} :
      machine.library.dump (createReceiveMessage codeWords) =
        .ok message →
      announcement.metadata.length ≤ bufferSize →
      (∀ content ∈ contents, content.length ≤ bufferSize) →
      Verified announcement server contents fileHash location moment →
      announcement.isCompressed = true →
      disk.tree.node location = none →
      disk.tree.CanPlace location →
      moment.state.unpacking = some announcement.path →
      Unpacking machine announcement.path fuel
        (withFile disk announcement.path location
          (announcement.expected contents)) moment.state.disk →
      moment.sent server = acknowledgement message ++ frame ack →
      Phase server codeWords fuel moment

section Ensuring

variable {server : Peer} {codeWords message : Bytes} {fuel : Nat}
variable {moment : Local Peer Receiving}
variable {announcement : Announcement machine disk.tree}

/-- The client has confirmed the metadata and nothing more. -/
structure Agreed (disk : Disk) (server : Peer)
    (message metadata : Bytes) (moment : Local Peer Receiving) :
    Prop where
  fits : metadata.length ≤ bufferSize
  received : moment.received server = frame metadata
  sent : moment.sent server = acknowledgement message
  state : moment.state = untouched disk

theorem Agreed.phase
    {metadata : Bytes}
    (agreed : Agreed disk server message metadata moment)
    (dumped : machine.library.dump (createReceiveMessage codeWords) =
      .ok message) :
    Phase machine disk server codeWords fuel moment := by
  apply Phase.agrees dumped agreed.state
  rw [agreed.sent]

/-- After the confirmation exactly these contents have come. -/
structure Fills (announcement : Announcement machine disk.tree)
    (server : Peer) (message : Bytes) (contents : List Bytes)
    (moment : Local Peer Receiving) : Prop where
  fits : announcement.metadata.length ≤ bufferSize
  contentsFit : ∀ content ∈ contents, content.length ≤ bufferSize
  received : moment.received server =
    frame announcement.metadata ++ frames contents
  holds : Holds announcement (announcement.expected contents) moment.state
  sent : moment.sent server = acknowledgement message

theorem Fills.phase_receives
    [DecidableEq Peer]
    {contents : List Bytes}
    (fills : Fills announcement server message contents moment)
    (dumped : machine.library.dump (createReceiveMessage codeWords) =
      .ok message)
    (part : Bytes) :
    Phase machine disk server codeWords fuel
      (moment.receives server part) := by
  have received : (moment.receives server part).received server =
      frame announcement.metadata ++ frames contents ++ part := by
    rw [Local.received_receives_self, fills.received]
  exact .fills dumped fills.fits fills.contentsFit received fills.holds
    fills.sent

theorem Fills.phase
    {contents : List Bytes}
    (fills : Fills announcement server message contents moment)
    (dumped : machine.library.dump (createReceiveMessage codeWords) =
      .ok message) :
    Phase machine disk server codeWords fuel moment := by
  have received : moment.received server =
      frame announcement.metadata ++ frames contents ++ [] := by
    rw [fills.received, List.append_nil]
  exact .fills dumped fills.fits fills.contentsFit received fills.holds
    fills.sent

/-- The whole file has come, and the confirmation was given. -/
structure Finished (announcement : Announcement machine disk.tree)
    (server : Peer) (message : Bytes) (contents : List Bytes)
    (moment : Local Peer Receiving) : Prop where
  fits : announcement.metadata.length ≤ bufferSize
  contentsFit : ∀ content ∈ contents, content.length ≤ bufferSize
  arrived : Arrived announcement server contents moment
  holds : Holds announcement (announcement.expected contents) moment.state
  sent : moment.sent server = acknowledgement message ++ frame ack

theorem Finished.phase
    {contents : List Bytes}
    (finished : Finished announcement server message contents moment)
    (dumped : machine.library.dump (createReceiveMessage codeWords) =
      .ok message) :
    Phase machine disk server codeWords fuel moment := by
  apply Phase.finishes dumped finished.fits finished.contentsFit
    finished.arrived finished.holds
  · rw [finished.sent]
    exact List.prefix_append _ _
  · rw [finished.sent]

variable [DecidableEq Peer]

theorem receiveContent_ensures
    (dumped : machine.library.dump (createReceiveMessage codeWords) =
      .ok message)
    (fills : Fills announcement server message [] moment) :
    Ensures (fun _ => True) (Phase machine disk server codeWords fuel)
      (fun _ later => ∃ contents,
        Fills announcement server message contents later ∧
          announcement.fileSize ≤ contents.flatten.length)
      (fun _ later => Spotless disk later.state)
      (receiveContent server announcement.fileSize fuel 0) moment := by
  rw [receiveContent_eq]
  apply contentLoop_ensures
    (Fills announcement server message)
    (machine.library.sizeAt_lt announcement.fileSizeRead)
  · intro contents moment part fills _
    exact fills.phase_receives dumped part
  · -- a frame that is too long
    intro contents moment header part fills oversized _ isPart
    have received :
        ((moment.receives server header).sends server part).received
          server =
            frame announcement.metadata ++ frames contents ++ header := by
      show moment.received server ++ only server header server = _
      rw [only_self, fills.received]
    apply Phase.refuses dumped fills.fits fills.contentsFit received
      oversized fills.holds
    show moment.sent server ++ only server part server <+: _
    rw [only_self, fills.sent]
    exact (List.prefix_append_right_inj _).2 isPart
  · intro contents moment error later fills notReceived
    rcases notReceived with
      ⟨-, part, rfl⟩ | ⟨header, part, -, -, -, rfl⟩
    · exact fills.holds.spotless
    · exact fills.holds.spotless
  · intro contents data moment fills accepted unfinished
    have extended : announcement.expected contents ++
          data.take (announcement.fileSize - contents.flatten.length) =
        announcement.expected (contents ++ [data]) := by
      rw [Announcement.expected, Announcement.expected,
        List.flatten_append, List.flatten_singleton, List.take_append]
    have filled : Fills announcement server message (contents ++ [data])
        ((moment.receives server (frame data)).change
          (Receiving.write (data.take
            (announcement.fileSize - contents.flatten.length)))) := by
      constructor
      · exact fills.fits
      · intro content member
        rcases List.mem_append.1 member with before | last
        · exact fills.contentsFit content before
        · cases List.mem_singleton.1 last
          exact accepted
      · show moment.received server ++ only server (frame data) server = _
        rw [fills.received, only_self, frames_append, frames_cons,
          frames_nil, List.append_nil, List.append_assoc]
      · rw [← extended]
        exact fills.holds.write _
      · exact fills.sent
    apply Ensures.modifyState _ (filled.phase dumped) filled
    exact fills.phase_receives dumped (frame data)
  · exact fills.phase dumped
  · exact fills

theorem openReceivedFile_ensures
    (dumped : machine.library.dump (createReceiveMessage codeWords) =
      .ok message)
    (agreed : Agreed disk server message announcement.metadata moment)
    (missing : fileExists disk.tree machine.workingDirectory
      announcement.path = false) :
    Ensures (fun _ => True) (Phase machine disk server codeWords fuel)
      (fun _ => Fills announcement server message [])
      (fun _ later => Spotless disk later.state)
      (openReceivedFile machine announcement.path) moment := by
  have noStatus : status disk.tree machine.workingDirectory
      announcement.path = none := by
    simpa [fileExists] using missing
  have sameDisk : moment.state.disk = disk := by
    rw [agreed.state, untouched]
  have fills {holding : Receiving}
      (holds : Holds announcement [] holding) :
      Fills announcement server message []
        ⟨holding, moment.received, moment.sent⟩ := by
    constructor
    · exact agreed.fits
    · intro content member
      cases member
    · show moment.received server = _
      rw [agreed.received, frames_nil, List.append_nil]
    · rw [announcement.expected_nil]
      exact holds
    · exact agreed.sent
  have opens : Ensures (fun _ => True)
      (Phase machine disk server codeWords fuel)
      (fun opened later => later.received = moment.received ∧
        later.sent = moment.sent ∧
        Holds announcement []
          { later.state with
            receivedFile := opened.map fun location => (location, []) })
      (fun _ later => Spotless disk later.state)
      (onDisk (openForWriting machine.workingDirectory
        announcement.path) : ReceiverProcess Peer _) moment := by
    have opening {opened : Option Location} {later : Disk}
        (holds : Holds announcement []
          { moment.state with
            disk := later
            receivedFile := opened.map fun location => (location, []) }) :
        Phase machine disk server codeWords fuel
          (withDisk moment later) := by
      have notHeld : (withDisk moment later).state =
          { moment.state with disk := later, receivedFile := none } := by
        show { moment.state with disk := later } = _
        rw [agreed.state, untouched]
      exact .opens dumped agreed.fits agreed.received holds notHeld
        agreed.sent
    apply onDisk_ensures (agreed.phase dumped)
    intro start isStart
    rw [sameDisk] at isStart
    subst isStart
    rcases openForWriting_cases machine.workingDirectory
        announcement.path start with
      notOpened | ⟨location, resolved, possible, opened⟩
    · rw [notOpened]
      have holds : Holds announcement []
          { moment.state with
            disk := ⟨start.tree, start.handed ++ [announcement.path]⟩
            receivedFile := (none : Option Location).map fun location =>
              (location, []) } := by
        rw [agreed.state]
        exact .notOpened noStatus
      exact ⟨opening holds, rfl, rfl, holds⟩
    · rw [opened]
      have free : start.tree.node location = none := by
        rw [status, resolved] at noStatus
        exact noStatus
      have holds : Holds announcement []
          { moment.state with
            disk := withFile start announcement.path location []
            receivedFile := (some location).map fun location =>
              (location, []) } := by
        rw [agreed.state]
        exact .opened free resolved possible
      exact ⟨opening holds, rfl, rfl, holds⟩
  apply opens.bind
  rintro opened ⟨state, received, sent⟩ - phase ⟨rfl, rfl, holds⟩
  exact Ensures.modifyState phase ((fills holds).phase dumped)
    (fills holds)

theorem receiveFileImpl_ensures
    (dumped : machine.library.dump (createReceiveMessage codeWords) =
      .ok message)
    (agreed : Agreed disk server message announcement.metadata moment) :
    Ensures (fun _ => True) (Phase machine disk server codeWords fuel)
      (fun _ later => ∃ contents,
        Finished announcement server message contents later)
      (fun _ later => Spotless disk later.state)
      (receiveFileImpl machine server announcement.path
        announcement.fileSize fuel) moment := by
  have phase : Phase machine disk server codeWords fuel moment :=
    agreed.phase dumped
  rw [receiveFileImpl]
  apply Ensures.getState_bind phase
  have sameDisk : moment.state.disk = disk := by
    rw [agreed.state, untouched]
  rw [sameDisk]
  by_cases present : fileExists disk.tree machine.workingDirectory
      announcement.path = true
  · rw [if_pos present]
    exact .raise phase (spotless_of_untouched agreed.state)
  · rw [if_neg present]
    apply (openReceivedFile_ensures dumped agreed
      (Bool.eq_false_iff.2 present)).bind
    rintro _ later - - fills
    apply (receiveContent_ensures dumped fills).bind
    rintro _ later - - ⟨contents, fills, enough⟩
    apply (send_ensures server ack _).weaken
    · rintro _ _ - - rfl
      refine ⟨contents, fills.fits, fills.contentsFit,
        ⟨fills.received, enough⟩, fills.holds, ?_⟩
      rw [Local.sent_sends_self, fills.sent]
      rfl
    · rintro _ _ - - ⟨-, part, -, rfl⟩
      exact fills.holds.spotless
    · intro part isPart
      have arrived : Arrived announcement server contents
          (later.sends server part) :=
        ⟨fills.received, enough⟩
      apply Phase.finishes dumped fills.fits fills.contentsFit arrived
        fills.holds
      · rw [Local.sent_sends_self, fills.sent]
        exact List.prefix_append _ _
      · rw [Local.sent_sends_self, fills.sent]
        exact (List.prefix_append_right_inj _).2 isPart

/-- The hash was compared, and the file is at this location. -/
structure Checked (announcement : Announcement machine disk.tree)
    (server : Peer) (message : Bytes) (contents : List Bytes)
    (fileHash : Bytes) (location : Location)
    (moment : Local Peer Receiving) : Prop where
  finished : Finished announcement server message contents moment
  verified :
    Verified announcement server contents fileHash location moment
  free : disk.tree.node location = none
  possible : disk.tree.CanPlace location
  state : moment.state =
    ⟨withFile disk announcement.path location
      (announcement.expected contents),
      some (location, announcement.expected contents), none⟩

theorem validateFileHash_ensures
    {contents : List Bytes} {fileHash : Bytes}
    (dumped : machine.library.dump (createReceiveMessage codeWords) =
      .ok message)
    (finished : Finished announcement server message contents moment)
    (fileHashRead :
      machine.library.stringAt announcement.json fileHashKey =
        .ok fileHash) :
    Ensures (fun _ => True) (Phase machine disk server codeWords fuel)
      (fun _ later => ∃ location,
        Checked announcement server message contents fileHash location
          later)
      (fun _ later => Spotless disk later.state)
      (validateFileHash machine announcement.path fileHash) moment := by
  have phase : Phase machine disk server codeWords fuel moment :=
    finished.phase dumped
  rw [validateFileHash]
  apply Ensures.getState_bind phase
  apply Ensures.ofExcept_bind phase _ fun _ _ => finished.holds.spotless
  intro actual calculated
  by_cases different : actual ≠ fileHash
  · rw [if_pos different]
    exact .raise phase finished.holds.spotless
  · rw [if_neg different]
    rw [not_not] at different
    subst different
    have holds := finished.holds
    generalize isState : moment.state = state at holds
    cases holds with
    | opened free resolved possible =>
        rename_i location
        have found : status moment.state.disk.tree
            machine.workingDirectory announcement.path =
              some (.file (announcement.expected contents)) := by
          rw [isState, status, withFile,
            resolve_of_directories _ (fun _ => directory_place
              possible.2.2.2) resolved]
          exact node_place_self possible _
        refine .pure phase ⟨location, finished, ?_, free, possible,
          isState⟩
        constructor
        · exact finished.arrived
        · exact List.length_take_of_le finished.arrived.enough
        · exact resolved
        · rw [isState]
        · exact fileHashRead
        · exact hasHash_of_calculateFileHash found calculated
    | notOpened missing =>
        rw [isState, calculateFileHash, missing] at calculated
        rcases ok_of_bind calculated with ⟨_, -, hashes⟩
        rcases ok_of_bind hashes with ⟨_, -, hashes⟩
        cases hashes

theorem handleCompressedFile_ensures
    {contents : List Bytes} {fileHash : Bytes} {location : Location}
    (dumped : machine.library.dump (createReceiveMessage codeWords) =
      .ok message)
    (checked : Checked announcement server message contents fileHash
      location moment) :
    Ensures (fun _ => True) (Phase machine disk server codeWords fuel)
      (fun _ _ => True) (fun _ later => Spotless disk later.state)
      (handleCompressedFile machine announcement.isCompressed
        announcement.path fuel) moment := by
  have phase : Phase machine disk server codeWords fuel moment :=
    checked.finished.phase dumped
  rw [handleCompressedFile]
  by_cases isCompressed : announcement.isCompressed = true
  · rw [if_pos isCompressed]
    let unpacking := moment.change fun receiving =>
      { receiving with unpacking := some announcement.path }
    have handling {now : Disk}
        (reached : Unpacking machine announcement.path fuel
          (withFile disk announcement.path location
            (announcement.expected contents)) now) :
        Phase machine disk server codeWords fuel
          (withDisk unpacking now) := by
      have verified : Verified announcement server contents fileHash
          location (withDisk unpacking now) :=
        ⟨⟨checked.verified.arrived.received,
            checked.verified.arrived.enough⟩,
          checked.verified.length, checked.verified.resolved,
          checked.verified.receivedFile, checked.verified.fileHashRead,
          checked.verified.hasHash⟩
      exact .unpacks dumped checked.finished.fits
        checked.finished.contentsFit verified isCompressed checked.free
        checked.possible rfl reached checked.finished.sent
    have spotless (now : Disk) :
        Spotless disk (withDisk unpacking now).state := by
      intro notOpen
      cases checked.verified.receivedFile.symm.trans notOpen
    have start : unpacking.state.disk =
        withFile disk announcement.path location
          (announcement.expected contents) := by
      show moment.state.disk = _
      rw [checked.state]
    have starting : Phase machine disk server codeWords fuel
        unpacking := by
      have phase := handling .starts
      rwa [← start] at phase
    apply Ensures.modifyState_bind phase
    have unpacks : Ensures (fun _ => True)
        (Phase machine disk server codeWords fuel)
        (fun _ later => ∃ between,
          unpackArchive machine.zstd machine.buffering
              machine.workingDirectory
              (currentPath machine.workingDirectory) announcement.path fuel
              (withFile disk announcement.path location
                (announcement.expected contents)) =
            .returned () between ∧
          later = withDisk unpacking between)
        (fun _ later => Spotless disk later.state)
        (onDisk (unpackArchive machine.zstd machine.buffering
          machine.workingDirectory (currentPath machine.workingDirectory)
          announcement.path fuel) : ReceiverProcess Peer Unit)
        unpacking := by
      apply onDisk_ensures starting
      rw [start]
      rintro _ rfl
      cases outcome : unpackArchive machine.zstd machine.buffering
          machine.workingDirectory (currentPath machine.workingDirectory)
          announcement.path fuel
          (withFile disk announcement.path location
            (announcement.expected contents)) with
      | returned value between =>
          have phase := handling (.unpacks (by rw [outcome]; rfl))
          exact ⟨phase, between, rfl, rfl⟩
      | threw error between =>
          have phase := handling (.unpacks (by rw [outcome]; rfl))
          exact ⟨phase, spotless _⟩
      | outOfFuel => trivial
    apply unpacks.bind
    rintro _ _ - phase ⟨between, unpacked, rfl⟩
    apply onDisk_ensures phase
    intro start isStart
    obtain rfl : start = between := isStart
    cases outcome : remove machine.workingDirectory announcement.path
        start with
    | returned value later =>
        exact ⟨handling (.removes unpacked (by rw [outcome]; rfl)), trivial⟩
    | threw error later =>
        exact ⟨handling (.removes unpacked (by rw [outcome]; rfl)),
          spotless _⟩
    | outOfFuel => trivial
  · rw [if_neg isCompressed]
    exact .pure phase trivial

theorem receiveConfirmed_ensures
    {metadata : Bytes} {json : Json}
    (dumped : machine.library.dump (createReceiveMessage codeWords) =
      .ok message)
    (accepted : checkResponse machine disk.tree metadata = .ok json)
    (agreed : Agreed disk server message metadata moment) :
    Ensures (fun _ => True) (Phase machine disk server codeWords fuel)
      (fun _ _ => True) (fun _ later => Spotless disk later.state)
      (receiveConfirmed machine server json fuel) moment := by
  have phase : Phase machine disk server codeWords fuel moment :=
    agreed.phase dumped
  have spotless := spotless_of_untouched agreed.state
  rw [receiveConfirmed]
  apply Ensures.ofExcept_bind phase _ fun _ _ => spotless
  intro filename filenameRead
  apply Ensures.ofExcept_bind phase _ fun _ _ => spotless
  intro isCompressed isCompressedRead
  apply Ensures.ofExcept_bind phase _ fun _ _ => spotless
  intro fileSize fileSizeRead
  let announcement : Announcement machine disk.tree :=
    ⟨metadata, json, filename, fileSize, isCompressed, accepted,
      filenameRead, fileSizeRead, isCompressedRead⟩
  apply (@receiveFileImpl_ensures _ _ _ _ _ _ fuel _ announcement _ dumped
    agreed).bind
  rintro _ later - phase ⟨contents, finished⟩
  apply Ensures.ofExcept_bind phase _ fun _ _ =>
    finished.holds.spotless
  intro fileHash fileHashRead
  apply (validateFileHash_ensures dumped finished fileHashRead).bind
  rintro _ last - - ⟨location, checked⟩
  exact handleCompressedFile_ensures dumped checked

/-- The client has sent its request. -/
structure Requested (disk : Disk) (server : Peer) (message : Bytes)
    (moment : Local Peer Receiving) : Prop where
  sent : moment.sent server = frames (chunks message)
  state : moment.state = untouched disk

theorem getServerResponse_ensures
    (dumped : machine.library.dump (createReceiveMessage codeWords) =
      .ok message)
    (requested : Requested disk server message moment) :
    Ensures (fun _ => True) (Phase machine disk server codeWords fuel)
      (fun json later => ∃ metadata,
        metadata.length ≤ bufferSize ∧
        checkResponse machine disk.tree metadata = .ok json ∧
        later = moment.receives server (frame metadata))
      (fun _ later => Spotless disk later.state)
      (getServerResponse machine server) moment := by
  have spotless := spotless_of_untouched requested.state
  rw [getServerResponse]
  apply Ensures.bind
  · apply (receive_ensures server _ _).weaken
      (fun _ _ _ _ received => received)
    · rintro error later - - (⟨-, part, rfl⟩ | ⟨header, part, -, -, -, rfl⟩)
      · exact spotless
      · exact spotless
    · intro part _
      apply Phase.requests dumped
      · exact requested.state
      · show moment.sent server <+: _
        rw [requested.sent]
    · intro header part _ _ isPart
      apply Phase.declines dumped
      · exact requested.state
      · exact Or.inl rfl
      · show moment.sent server ++ only server part server <+: _
        rw [only_self, requested.sent]
        exact (List.prefix_append_right_inj _).2 isPart
  · rintro metadata _ - phase ⟨fits, rfl⟩
    apply Ensures.getState_bind phase
    have sameDisk : moment.state.disk = disk := by
      rw [requested.state, untouched]
    show Ensures _ _ _ _ (ofExcept (checkResponse machine
      moment.state.disk.tree metadata)) _
    rw [sameDisk]
    cases response : checkResponse machine disk.tree metadata with
    | ok json => exact .pure phase ⟨metadata, fits, response, rfl⟩
    | error error => exact .raise phase spotless

theorem getUserConfirmation_ensures
    (dumped : machine.library.dump (createReceiveMessage codeWords) =
      .ok message)
    (confirmation : UInt8)
    (requested : Requested disk server message moment) :
    Ensures (fun _ => True) (Phase machine disk server codeWords fuel)
      (fun _ later => later = moment.sends server (frame ack))
      (fun _ later => Spotless disk later.state)
      (getUserConfirmation server confirmation) moment := by
  have spotless := spotless_of_untouched requested.state
  rw [getUserConfirmation]
  split_ifs with answer
  · apply ((send_ensures server (ascii "abort") _).weaken
      (fun _ _ _ _ sent => sent) _).bind
    · rintro _ later - phase rfl
      exact .raise phase spotless
    · intro part isPart
      apply Phase.declines dumped
      · exact requested.state
      · exact Or.inr rfl
      · show moment.sent server ++ only server part server <+: _
        rw [only_self, requested.sent]
        exact (List.prefix_append_right_inj _).2 isPart
    · rintro _ _ - - ⟨-, part, -, rfl⟩
      exact spotless
  · apply (send_ensures server ack _).weaken
    · rintro _ later - - rfl
      rfl
    · rintro _ _ - - ⟨-, part, -, rfl⟩
      exact spotless
    · intro part isPart
      apply Phase.agrees dumped
      · exact requested.state
      · show moment.sent server ++ only server part server <+: _
        rw [only_self, requested.sent]
        exact (List.prefix_append_right_inj _).2 isPart

end Ensuring

/-! ## Whole runs -/

variable [DecidableEq Peer]

theorem receiveFile_ensures
    (machine : Machine) (server : Peer) (confirmation : UInt8)
    (codeWords : Bytes) (fuel : Nat) (disk : Disk) :
    Ensures (fun _ => True) (Phase machine disk server codeWords fuel)
      (fun _ _ => True) (fun _ later => Spotless disk later.state)
      (receiveFile machine server confirmation codeWords fuel)
      (starting disk) := by
  rw [receiveFile]
  cases dumped : machine.library.dump
      (createReceiveMessage codeWords) with
  | error text => exact .raise (.silent rfl rfl) fun _ => rfl
  | ok message =>
      show Ensures _ _ _ _ (send server message >>= fun _ => _) _
      apply ((send_ensures server message _).weaken
        (fun _ _ _ _ sent => sent) _).bind
      · rintro _ _ - - rfl
        have requested : Requested disk server message
            ((starting disk : Local Peer Receiving).sends server
              (frames (chunks message))) := by
          constructor
          · simp [Local.sends, starting]
          · rfl
        apply (getServerResponse_ensures dumped requested).bind
        rintro json _ - - ⟨metadata, fits, accepted, rfl⟩
        have stillRequested : Requested disk server message
            (((starting disk : Local Peer Receiving).sends server
              (frames (chunks message))).receives server
                (frame metadata)) :=
          ⟨requested.sent, rfl⟩
        apply (getUserConfirmation_ensures dumped confirmation
          stillRequested).bind
        rintro _ _ - - rfl
        apply receiveConfirmed_ensures dumped accepted
        constructor
        · exact fits
        · simp [Local.sends, Local.receives, starting]
        · simp [Local.sends, Local.receives, starting, acknowledgement]
        · rfl
      · intro part isPart
        apply Phase.requests dumped
        · rfl
        · show [] ++ only server part server <+: _
          rw [only_self]
          exact isPart
      · rintro _ _ - - ⟨-, part, -, rfl⟩ _
        rfl

/-- Wherever the receiver gets to, it is in one of its phases. -/
theorem phase_of_becomes
    {server : Peer} {confirmation : UInt8} {codeWords : Bytes} {fuel : Nat}
    {later : ReceiverProcess Peer Unit} {moment : Local Peer Receiving}
    (becomes : Becomes
      (receiveFile machine server confirmation codeWords fuel)
      (starting disk) later moment) :
    Phase machine disk server codeWords fuel moment :=
  ((receiveFile_ensures machine server confirmation codeWords fuel
    disk).of_becomes becomes).now trivial

end DropFile.Client.ReceivingPhases
