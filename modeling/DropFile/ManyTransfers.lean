import DropFile.Client.ReceivedDirectories
import DropFile.Client.SentDirectories
import DropFile.Server.ServedTransfers
import Mathlib.Order.Filter.Finite

/-!
# Many transfers

Any number of directories are sent at the same time through one server.
However the steps of all parties are interleaved, every receiver ends with a
copy of its directory, and nobody leaves anything else on a disk.
-/

namespace DropFile.ManyTransfers

open Filter
open DropFile.General
open DropFile.General.CommutingSteps
open DropFile.General.Dialogues
open DropFile.General.FreshDirectories
open DropFile.General.FuelledProgram
open DropFile.General.Processes.Process
open DropFile.General.Networks
open DropFile.General.PathNames
open DropFile.General.Files
open DropFile.General.Files.FileTree
open DropFile.Streams
open DropFile.FileSystem
open DropFile.Socket
open DropFile.ContentLoops
open DropFile.JsonObjects
open DropFile.FlatJson (flatText)
open DropFile.InitSessionMessage
open DropFile.SessionMessages
open DropFile.Client
open DropFile.Client.ArchiveManager
open DropFile.Client.ArchiveRoundTrip
open DropFile.Client.DropFileReceiveClient
open DropFile.Client.DropFileSendClient
open DropFile.Client.FileHashes
open DropFile.Client.PackedTrees
open DropFile.Client.ReceivedDirectories
open DropFile.Client.RunDropFileClient
open DropFile.Client.SendLoop
open DropFile.Client.SentDirectories
open DropFile.Server.SessionsManager
open DropFile.Server.ServerSideClientSession
open DropFile.Server.Serving
open DropFile.Server.ServedTransfers
open DropFile.Server.ServedVisits

/-! ## The parties -/

/-- A sender of a directory, and the receiver that is told its code. -/
structure Transfer where
  sender : DropFileSendClient.Machine
  senderDisk : Disk
  fileToSendPath : PathName
  receiver : DropFileReceiveClient.Machine
  receiving : Receiving
  interactionStream : Bytes
  /-- Where the directory is, and where the temporary directories are. -/
  origin : Location
  senderTop : Location
  receiverTop : Location

namespace Transfer

variable (transfer : Transfer)

def name : PathName :=
  filename transfer.fileToSendPath

/-- Where the receiver puts the directory. -/
def goal : Location :=
  transfer.receiver.workingDirectory ++ [transfer.name]

/-- The archive that the sender makes of the directory. -/
def Packs (archive : Bytes) : Prop :=
  Settles
    (fun fuel =>
      createArchive transfer.sender.zstd transfer.sender.workingDirectory
        transfer.sender.listing transfer.fileToSendPath
        (SentNames.archivePath transfer.sender transfer.fileToSendPath) fuel
        (SentDirectories.prepared transfer.sender transfer.senderDisk
          transfer.senderTop))
    (.returned ()
      (packed transfer.sender transfer.senderDisk transfer.fileToSendPath
        transfer.senderTop archive))

end Transfer

variable {ι : Type}

section Parties

variable (transfers : ι → Transfer) (schedule : Schedule ι)

abbrev State : Party ι → Type
  | .server => SendersSessions (Party ι) Json
  | .sender _ => Disk
  | .receiver _ => Receiving

/-- Every receiver is told the code that its sender will be given. -/
def process (fuel : Nat) :
    (party : Party ι) → SocketProcess (Party ι) (State party) Unit
  | .server => serve (schedule.events.map (schedule.visit fuel))
  | .sender pair =>
      runSendClient (transfers pair).sender .server
        (transfers pair).fileToSendPath fuel
  | .receiver pair =>
      runReceiveClient (transfers pair).receiver .server
        (transfers pair).interactionStream (schedule.sessionCode pair) fuel

def initialState (table : SendersSessions (Party ι) Json) :
    (party : Party ι) → State party
  | .server => table
  | .sender pair => (transfers pair).senderDisk
  | .receiver pair => (transfers pair).receiving

def network (table : SendersSessions (Party ι) Json) (fuel : Nat) :
    Network (Party ι) Exception State fun _ => Unit where
  process := process transfers schedule fuel
  state := initialState transfers table
  sent _ := silence
  consumed _ _ := 0
  bounded _ _ := Nat.zero_le _

/-- How a party ends. -/
def Delivered :
    (party : Party ι) → SocketProcess (Party ι) (State party) Unit →
      State party → Prop
  | .server, process, _ => process = .done ()
  | .sender pair, process, disk =>
      process = .done () ∧
        Retired (transfers pair).senderDisk.tree
          (senderDirectory (transfers pair).senderTop) disk.tree
  | .receiver pair, process, receiving =>
      process = .done () ∧
        ∃ retired,
          Retired (transfers pair).receiving.disk.tree
            (receiverDirectory (transfers pair).receiverTop) retired ∧
          IsCopy (transfers pair).senderDisk.tree (transfers pair).origin
            retired (transfers pair).goal receiving.disk.tree

end Parties

/-! ## What is needed -/

/-- The messages of a transfer. -/
structure Messages where
  message : Bytes
  answer : Bytes
  request : Bytes

/-- A directory that both clients can handle, and that the server passes on. -/
structure Agreed (library : JsonLibrary) (sha256 : Bytes → Bytes)
    (schedule : Schedule ι) (pair : ι) (transfer : Transfer)
    (archive : Bytes) (messages : Messages) : Prop where
  sends : SendsDirectory transfer.sender transfer.senderDisk
    transfer.fileToSendPath transfer.senderTop transfer.origin
  receives : ReceivesDirectory transfer.receiver transfer.receiving.disk
    transfer.name transfer.receiverTop
  packs : transfer.Packs archive
  agrees : extractConfirmation transfer.interactionStream = 121
  zstd : transfer.receiver.zstd = transfer.sender.zstd
  senderLibrary : transfer.sender.library = library
  registeringLibrary :
    (schedule.settings (.registers pair)).library = library
  requestingLibrary : (schedule.settings (.fetches pair)).library = library
  receiverLibrary : transfer.receiver.library = library
  senderDigest : Computes transfer.sender.digest sha256
  receiverDigest : Computes transfer.receiver.digest sha256
  isSize : archive.length < sizeModulus
  neverDry : NeverDry transfer.sender 0 archive.length
  space : archive.length ≤
    transfer.receiver.freeSpace transfer.receiver.temporaryDirectory
  registeringAlive :
    (schedule.settings (.registers pair)).managerAlive = true
  requestingAlive : (schedule.settings (.fetches pair)).managerAlive = true
  dumpsMessage :
    library.dump (archiveMetadata sha256 transfer.name archive) =
      .ok messages.message
  messageFits : messages.message.length ≤ maxFirstMessageSize
  dumpsAnswer : library.dump (codeResponse (schedule.sessionCode pair)) =
    .ok messages.answer
  answerFits : messages.answer.length ≤ bufferSize
  dumpsRequest :
    library.dump (createReceiveMessage (schedule.sessionCode pair)) =
      .ok messages.request
  requestFits : messages.request.length ≤ maxFirstMessageSize

namespace Agreed

variable {library : JsonLibrary} {sha256 : Bytes → Bytes}
variable {schedule : Schedule ι} {pair : ι} {transfer : Transfer}
variable {archive : Bytes} {messages : Messages}
variable (strict : library.StrictContract)
variable (agreed :
  Agreed library sha256 schedule pair transfer archive messages)

/-! ## The archive -/

include agreed in
/-- What is unpacked is a copy of what was packed. -/
theorem exists_unpacked :
    ∃ unpacked : Disk,
      IsCopy transfer.senderDisk.tree transfer.origin
        (filled transfer.receiver transfer.receiving.disk transfer.name
          transfer.receiverTop archive).tree
        transfer.goal unpacked.tree ∧
      Settles
        (fun fuel =>
          LiveUnpacking.unpackArchive transfer.receiver.zstd
            transfer.receiver.buffering transfer.receiver.workingDirectory
            (currentPath transfer.receiver.workingDirectory)
            (ReceivedDirectories.archivePath transfer.receiver
              transfer.name)
            fuel
            (filled transfer.receiver transfer.receiving.disk transfer.name
              transfer.receiverTop archive))
        (.returned () unpacked) := by
  rcases agreed.sends.exists_records with ⟨records, packs, settles⟩
  have same : archive = archiveBytes records := by
    have disks := agreed.packs.unique settles
    have files := @SendsDirectory.regularFile_packed _ _ _ _ _ archive
      agreed.sends
    rw [Outcome.returned.inj disks |>.2,
      agreed.sends.regularFile_packed] at files
    exact (Option.some.inj files).symm
  subst same
  have isDirectory := agreed.receives.directory_filled
    (archiveBytes records) agreed.receives.isDirectory_prepared
  have free : (filled transfer.receiver transfer.receiving.disk
      transfer.name transfer.receiverTop (archiveBytes records)).tree.node
        transfer.goal = none := by
    rw [Transfer.goal, node_filled _ _ _ _ _ agreed.receives.outside_goal,
      agreed.receives.free_prepared]
  have good : ∀ record ∈ records,
      record.Good transfer.receiver.zstd := by
    rw [agreed.zstd]
    exact packs.good
  rcases packs.copies
      (filled transfer.receiver transfer.receiving.disk transfer.name
        transfer.receiverTop (archiveBytes records)).tree
      transfer.receiver.workingDirectory (by simpa using isDirectory)
      free with
    ⟨final, extracts, copied⟩
  rcases live_unpackArchive_settles extracts good
      (leads_currentPath isDirectory) isDirectory
      agreed.receives.isArchive agreed.isSize with
    ⟨unpacked, rfl, unpacks⟩
  exact ⟨unpacked, copied, unpacks⟩

/-! ## The messages of one transfer -/

theorem isMessage :
    IsSendMessage (archiveMetadata sha256 transfer.name archive)
      transfer.name archive.length (Hexadecimal.encode (sha256 archive))
      true :=
  isSendMessage_sendMessage _ _ _ _

include strict agreed

theorem parsesMessage :
    library.parse messages.message =
        .ok (archiveMetadata sha256 transfer.name archive) ∧
      messages.message ≠ [] := by
  have isObject : ∃ members,
      archiveMetadata sha256 transfer.name archive = .object members := by
    rw [archiveMetadata, sendMessage]
    exact (exists_members_assign _ _ _).imp fun _ both => both.1
  exact parse_of_dump strict isObject (sendMessage_ordered _ _ _ _)
    (sendMessage_allPlain _ _ _ _) agreed.dumpsMessage

theorem parsesAnswer :
    library.parse messages.answer =
        .ok (codeResponse (schedule.sessionCode pair)) ∧
      messages.answer ≠ [] := by
  have isObject : ∃ members,
      codeResponse (schedule.sessionCode pair) = .object members :=
    (exists_members_assign _ _ _).imp fun _ both => both.1
  exact parse_of_dump strict isObject (codeResponse_ordered _)
    (null_allPlain.assign codeWordsKey rfl) agreed.dumpsAnswer

theorem acceptsRequest :
    create library messages.request =
        .ok (createReceiveMessage (schedule.sessionCode pair)) ∧
      messages.request ≠ [] :=
  create_of_dump_receiveMessage strict agreed.dumpsRequest

theorem announces :
    Announces transfer.sender sha256
      (SentNames.archivePath transfer.sender transfer.fileToSendPath)
      archive true messages.message messages.answer where
  digest := agreed.senderDigest
  dumps := by
    rw [SentNames.archivePath, filename_join agreed.sends.isName,
      agreed.senderLibrary]
    exact agreed.dumpsMessage
  messageFilled := (agreed.parsesMessage strict).2
  messageFits := agreed.messageFits.trans (by decide)
  answerFits := agreed.answerFits
  learns := by
    have codeRead : library.stringAt
        (codeResponse (schedule.sessionCode pair)) codeWordsKey =
          .ok (schedule.sessionCode pair) :=
      stringAt_of_find (by simp [codeResponse])
    have parsed :
        (orJsonException (library.parse messages.answer) >>= fun json =>
          library.stringAt json codeWordsKey) =
            .ok (schedule.sessionCode pair) := by
      rw [(agreed.parsesAnswer strict).1]
      exact codeRead
    refine ⟨schedule.sessionCode pair, ?_⟩
    simp only [receiveCode, agreed.senderLibrary, parsed]
  neverDry := agreed.neverDry

theorem understands :
    Understands transfer.receiver sha256 transfer.name archive
      (schedule.sessionCode pair) messages.message messages.request where
  digest := agreed.receiverDigest
  parses := by
    rw [agreed.receiverLibrary]
    exact (agreed.parsesMessage strict).1
  messageFits := agreed.messageFits.trans (by decide)
  dumps := by
    rw [agreed.receiverLibrary]
    exact agreed.dumpsRequest
  requestFilled := (agreed.acceptsRequest strict).2
  requestFits := agreed.requestFits.trans (by decide)
  isSize := agreed.isSize
  space := agreed.space

variable {fuel : Nat} (enough : archive.length < fuel)
include enough

theorem registers :
    Registers (schedule.visit fuel (.registers pair))
      (archiveMetadata sha256 transfer.name archive) messages.message
      messages.answer where
  accepted := by
    rw [show (schedule.visit fuel (.registers pair)).settings.library =
      library from agreed.registeringLibrary]
    exact create_of_isSendMessage library (agreed.parsesMessage strict).1
      isMessage
  isSend := isMessage.action
  messageFits := agreed.messageFits
  alive := agreed.registeringAlive
  dumpsAnswer := by
    rw [show (schedule.visit fuel (.registers pair)).settings.library =
      library from agreed.registeringLibrary]
    exact agreed.dumpsAnswer
  answerFilled := (agreed.parsesAnswer strict).2
  answerFits := agreed.answerFits
  fuel := Nat.zero_lt_of_lt enough

theorem fetches
    {pieces : List Bytes}
    (filled : ∀ piece ∈ pieces, piece ≠ [])
    (fits : ∀ piece ∈ pieces, piece.length ≤ bufferSize)
    (whole : pieces.flatten = archive) :
    Fetches (schedule.visit fuel (.fetches pair))
      (archiveMetadata sha256 transfer.name archive)
      (schedule.sessionCode pair) messages.message messages.request
      pieces := by
  have isLibrary : (schedule.visit fuel (.fetches pair)).settings.library =
      library := agreed.requestingLibrary
  have reads : Reads library (archiveMetadata sha256 transfer.name archive)
      transfer.name archive.length (Hexadecimal.encode (sha256 archive))
        true :=
    reads_of_isSendMessage library agreed.isSize isMessage
  constructor
  · rw [isLibrary]
    exact (agreed.acceptsRequest strict).1
  · exact agreed.requestFits
  · exact agreed.requestingAlive
  · rw [isLibrary]
    exact agreed.dumpsMessage
  · exact (agreed.parsesMessage strict).2
  · exact agreed.messageFits.trans (by decide)
  · rw [isLibrary]
    exact ⟨_, reads.filename⟩
  · rw [isLibrary, whole]
    exact reads.fileSize
  · rw [whole]
    exact agreed.isSize
  · exact filled
  · exact fits
  · rw [whole]
    exact enough

end Agreed

/-! ## All together -/

section Together

variable [DecidableEq ι] {library : JsonLibrary}
variable {sha256 : Bytes → Bytes} {transfers : ι → Transfer}
variable {schedule : Schedule ι} {archives : ι → Bytes}
variable {messages : ι → Messages}

/-- What the parties say when the files are cut into these pieces. -/
def offer (sha256 : Bytes → Bytes) (transfers : ι → Transfer)
    (archives : ι → Bytes) (messages : ι → Messages)
    (pieces : ι → List Bytes) (pair : ι) : Offer :=
  ⟨archiveMetadata sha256 (transfers pair).name (archives pair),
    (messages pair).message, (messages pair).answer,
    (messages pair).request, pieces pair⟩

variable (strict : library.StrictContract)
variable (agreed : ∀ pair,
  Agreed library sha256 schedule pair (transfers pair) (archives pair)
    (messages pair))
variable (orderly : Orderly schedule)
include strict agreed orderly

end Together

/-! ## Two transfers at a time -/

/-- The archive of the small tree. -/
def smallArchive : Bytes :=
  [1, 1, 0, 0, 0, 0, 0, 0, 0, 116, 0, 0, 0, 0, 0, 0, 0, 0, 0, 3, 0, 0, 0, 0,
    0, 0, 0, 116, 47, 102, 3, 0, 0, 0, 0, 0, 0, 0, 1, 5, 0, 1, 3, 0, 0, 0,
    0, 0, 0, 0, 116, 47, 101, 0, 0, 0, 0, 0, 0, 0, 0]

/-- The digests of this archive and of nothing. -/
def smallSha256 (content : Bytes) : Bytes :=
  if content = smallArchive then
    [0x31, 0x59, 0x90, 0xf9, 0x64, 0x73, 0xa0, 0x85, 0xe4, 0xd5, 0x67, 0xb2,
      0x5a, 0x2c, 0x0b, 0xdf, 0x59, 0xdf, 0x9e, 0xb9, 0x9a, 0x2a, 0x1e,
      0x0e, 0x63, 0xaa, 0xbd, 0x21, 0x9e, 0x74, 0x63, 0x49]
  else
    digestOfNothing

theorem computes_smallSha256 :
    Computes (collecting smallSha256) smallSha256 := by
  apply computes_collecting
  intro content
  rw [smallSha256]
  split_ifs
  · rfl
  · rfl

/-- The directory `t` is sent, and the temporary directory is `d`. -/
def smallTransfer : Transfer where
  sender :=
    { zstd := smallLibrary
      library := FlatJson.flatLibrary
      digest := collecting smallSha256
      workingDirectory := []
      temporaryDirectory := ascii "/d"
      listing := smallListing
      ready := fun _ => 7 }
  senderDisk := ⟨smallTree, []⟩
  fileToSendPath := ascii "t"
  receiver :=
    { zstd := smallLibrary
      library := FlatJson.flatLibrary
      digest := collecting smallSha256
      workingDirectory := []
      temporaryDirectory := ascii "/tmp"
      freeSpace := fun _ => 61
      buffering := LiveUnpacking.unbuffered }
  receiving :=
    ⟨⟨FileTree.empty.place [ascii "tmp"] .directory, []⟩, none, none⟩
  interactionStream := ascii " y"
  origin := [ascii "t"]
  senderTop := [ascii "d"]
  receiverTop := [ascii "tmp"]

/-- The receivers ask in another order than the senders. -/
def crossingSchedule : Schedule Bool where
  events := [.registers true, .registers false, .fetches true,
    .fetches false]
  settings event :=
    { Server.FirstRead.flatSettings with
      generateSessionID := fun _ =>
        sessionID (ascii "old") (ascii "two") (if event.pair then 7 else 8) }
  clientTimeout := 60
  sweep _ := [(ascii "old-two-9", 60)]

theorem orderly_crossingSchedule : Orderly crossingSchedule := by
  constructor
  · decide
  · intro first second
    revert first second
    decide +kernel
  · decide

theorem smallTransfer_sends :
    SendsDirectory smallTransfer.sender smallTransfer.senderDisk
      smallTransfer.fileToSendPath smallTransfer.senderTop
      smallTransfer.origin := by
  constructor
  · constructor
    · exact ⟨by decide, by decide +kernel⟩
    · decide +kernel
    · have free : smallTransfer.senderDisk.tree.node
          (smallTransfer.senderTop ++ [ascii "drop-file"]) = none := by
        decide +kernel
      intro content
      rw [free]
      exact (Option.some_ne_none _).symm
    · decide +kernel
  · decide
  · exact ⟨by decide, by decide +kernel⟩
  · decide +kernel
  · decide
  · exact smallTree_packable
  · exact finite_smallTree
  · exact fits_smallTree

theorem smallTransfer_receives :
    ReceivesDirectory smallTransfer.receiver smallTransfer.receiving.disk
      smallTransfer.name smallTransfer.receiverTop := by
  constructor
  · constructor
    · exact ⟨by decide, by decide +kernel⟩
    · decide +kernel
    · have free : smallTransfer.receiving.disk.tree.node
          (smallTransfer.receiverTop ++ [ascii "drop-file"]) = none := by
        decide +kernel
      intro content
      rw [free]
      exact (Option.some_ne_none _).symm
    · decide +kernel
  · decide +kernel
  · decide +kernel
  · decide +kernel
  · decide +kernel
  · decide +kernel

theorem smallTransfer_packs : smallTransfer.Packs smallArchive := by
  rcases smallTransfer_sends.exists_records with ⟨records, -, settles⟩
  have run : ((createArchive smallLibrary [] smallListing (ascii "t")
      (SentNames.archivePath smallTransfer.sender (ascii "t")) 10
      (SentDirectories.prepared smallTransfer.sender
        smallTransfer.senderDisk smallTransfer.senderTop)).finalState.map
          fun packed => regularFile packed.tree []
            (SentNames.archivePath smallTransfer.sender (ascii "t"))) =
      some (some smallArchive) := by
    decide +kernel
  have files := @SendsDirectory.regularFile_packed _ _ _ _ _
    (archiveBytes records) smallTransfer_sends
  have same : archiveBytes records = smallArchive := by
    rcases Settles.outOfFuel_or_eq (createArchive_grows _ _ _ _ _) settles
      10 with out | ends
    · rw [show createArchive smallLibrary [] smallListing (ascii "t")
        (SentNames.archivePath smallTransfer.sender (ascii "t")) 10 _ =
          .outOfFuel from out] at run
      cases run
    · rw [show createArchive smallLibrary [] smallListing (ascii "t")
        (SentNames.archivePath smallTransfer.sender (ascii "t")) 10 _ = _
          from ends] at run
      have run := Option.some.inj run
      exact Option.some.inj (files.symm.trans run)
  rw [← same]
  exact settles

/-- What the library prints for both transfers. -/
def smallMessages (pair : Bool) : Messages where
  message := flatText
    (archiveMetadata smallSha256 smallTransfer.name smallArchive)
  answer := flatText (codeResponse (crossingSchedule.sessionCode pair))
  request :=
    flatText (createReceiveMessage (crossingSchedule.sessionCode pair))

theorem smallTransfer_agreed (pair : Bool) :
    Agreed FlatJson.flatLibrary smallSha256 crossingSchedule pair
      smallTransfer smallArchive (smallMessages pair) where
  sends := smallTransfer_sends
  receives := smallTransfer_receives
  packs := smallTransfer_packs
  agrees := by decide +kernel
  zstd := rfl
  senderLibrary := rfl
  registeringLibrary := rfl
  requestingLibrary := rfl
  receiverLibrary := rfl
  senderDigest := computes_smallSha256
  receiverDigest := computes_smallSha256
  isSize := by decide
  neverDry := fun _ _ => Nat.succ_pos 6
  space := by decide
  registeringAlive := rfl
  requestingAlive := rfl
  dumpsMessage := by cases pair <;> decide +kernel
  messageFits := by cases pair <;> decide +kernel
  dumpsAnswer := by cases pair <;> decide +kernel
  answerFits := by cases pair <;> decide +kernel
  dumpsRequest := by cases pair <;> decide +kernel
  requestFits := by cases pair <;> decide +kernel

end DropFile.ManyTransfers
