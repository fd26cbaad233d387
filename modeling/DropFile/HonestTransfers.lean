import DropFile.Client.FileHashes
import DropFile.Client.SendLoop
import DropFile.Server.ServedVisits

/-!
# Honest transfers

A sender, the server and a receiver that all do what they are meant to do.
One order of their steps takes all three to their ends.  Their steps commute,
so every other order comes to the same end, and none of them blocks.
-/

namespace DropFile.HonestTransfers

open DropFile.General
open DropFile.General.CommutingSteps
open DropFile.General.Dialogues
open DropFile.General.Processes
open DropFile.General.Processes.Process
open DropFile.General.Networks
open DropFile.General.PathNames
open DropFile.General.Files
open DropFile.Streams
open DropFile.FileSystem
open DropFile.Socket
open DropFile.Framing
open DropFile.ContentLoops
open DropFile.JsonObjects
open DropFile.FlatJson (flatText)
open DropFile.Utils
open DropFile.InitSessionMessage
open DropFile.SessionMessages
open DropFile.Client
open DropFile.Client.DropFileSendClient
open DropFile.Client.DropFileReceiveClient
open DropFile.Client.SendLoop
open DropFile.Client.Announcements
open DropFile.Client.FileHashes
open DropFile.Server.SessionsManager
open DropFile.Server.ServerSideClientSession
open DropFile.Server.Serving
open DropFile.Server.ServedVisits

/-! ## The parties -/

inductive Role where
  | sender
  | server
  | receiver
deriving DecidableEq

/-- What the three parties start with. -/
structure Exchange where
  sender : DropFileSendClient.Machine
  senderDisk : Disk
  fileToSendPath : PathName
  senderFuel : Nat
  /-- Of the session of the sender and of the session of the receiver. -/
  registering : Settings
  requesting : Settings
  clientTimeout : Int
  /-- The sweeps before the first messages of the two clients. -/
  firstSweep : List (SessionCode × Int)
  secondSweep : List (SessionCode × Int)
  serverFuel : Nat
  receiver : DropFileReceiveClient.Machine
  receiving : Receiving
  receiverFuel : Nat

namespace Exchange

variable (exchange : Exchange)

/-- The code that the sender is given. -/
def code : SessionCode :=
  exchange.registering.generateSessionID 0

abbrev State : Role → Type
  | .sender => Disk
  | .server => SendersSessions Role Json
  | .receiver => Receiving

def firstVisit : Visit Role :=
  ⟨.sender, exchange.registering, exchange.serverFuel,
    exchange.clientTimeout, exchange.firstSweep⟩

def secondVisit : Visit Role :=
  ⟨.receiver, exchange.requesting, exchange.serverFuel,
    exchange.clientTimeout, exchange.secondSweep⟩

/-- The sender knows the code before the receiver is told it. -/
def process : (role : Role) → SocketProcess Role (State role) Unit
  | .sender => do
      let (entry, _) ←
        sendFSEntryMetadata exchange.sender .server exchange.fileToSendPath
          exchange.senderFuel
      sendFSEntry exchange.sender .server entry exchange.senderFuel
  | .server => serve [exchange.firstVisit, exchange.secondVisit]
  | .receiver =>
      DropFileReceiveClient.receiveFile exchange.receiver .server 121
        exchange.code exchange.receiverFuel

def initialState : (role : Role) → State role
  | .sender => exchange.senderDisk
  | .server => ∅
  | .receiver => exchange.receiving

def network : Network Role Exception State fun _ => Unit where
  process := exchange.process
  state := exchange.initialState
  sent _ := silence
  consumed _ _ := 0
  bounded _ _ := Nat.zero_le _

/-- The metadata of a file with this content. -/
def metadata (sha256 : Bytes → Bytes) (content : Bytes) : Json :=
  sendMessage (filename exchange.fileToSendPath) content.length
    (Hexadecimal.encode (sha256 content)) false

/-- Where the receiver puts the file. -/
def receivedPath : PathName :=
  receivePath exchange.receiver false (filename exchange.fileToSendPath)

end Exchange

/-- A file that everybody can handle and that no party stands in the way of. -/
structure Honest (library : JsonLibrary) (sha256 : Bytes → Bytes)
    (exchange : Exchange) (content : Bytes) (location : Location)
    (message answer request : Bytes) : Prop where
  strict : library.StrictContract
  senderLibrary : exchange.sender.library = library
  registeringLibrary : exchange.registering.library = library
  requestingLibrary : exchange.requesting.library = library
  receiverLibrary : exchange.receiver.library = library
  senderDigest : Computes exchange.sender.digest sha256
  receiverDigest : Computes exchange.receiver.digest sha256
  isFile : regularFile exchange.senderDisk.tree
    exchange.sender.workingDirectory exchange.fileToSendPath = some content
  isSize : content.length < sizeModulus
  neverDry : NeverDry exchange.sender 0 content.length
  dumpsMessage : library.dump (exchange.metadata sha256 content) =
    .ok message
  messageFits : message.length ≤ maxFirstMessageSize
  registeringAlive : exchange.registering.managerAlive = true
  requestingAlive : exchange.requesting.managerAlive = true
  dumpsAnswer : library.dump (codeResponse exchange.code) = .ok answer
  answerFits : answer.length ≤ bufferSize
  dumpsRequest : library.dump (createReceiveMessage exchange.code) =
    .ok request
  requestFits : request.length ≤ maxFirstMessageSize
  inTime : ∀ visit ∈ exchange.secondSweep,
    visit.2 - exchange.registering.now ≤ exchange.clientTimeout
  free : fileExists exchange.receiving.disk.tree
    exchange.receiver.workingDirectory (filename exchange.fileToSendPath) =
      false
  space : content.length ≤ exchange.receiver.freeSpace
    (currentPath exchange.receiver.workingDirectory)
  resolved : exchange.receiving.disk.tree.resolve
    exchange.receiver.workingDirectory exchange.receivedPath = some location
  possible : exchange.receiving.disk.tree.CanPlace location
  missing : exchange.receiving.disk.tree.node location = none
  senderFuel : content.length < exchange.senderFuel
  serverFuel : content.length < exchange.serverFuel
  receiverFuel : content.length < exchange.receiverFuel

namespace Honest

variable {library : JsonLibrary} {sha256 : Bytes → Bytes}
variable {exchange : Exchange} {content : Bytes} {location : Location}
variable {message answer request : Bytes}
variable (honest : Honest library sha256 exchange content location message
  answer request)

/-! ## The messages -/

theorem isMessage :
    IsSendMessage (exchange.metadata sha256 content)
      (filename exchange.fileToSendPath) content.length
      (Hexadecimal.encode (sha256 content)) false :=
  isSendMessage_sendMessage _ _ _ _

include honest

theorem parsesMessage :
    library.parse message = .ok (exchange.metadata sha256 content) ∧
      message ≠ [] := by
  have isObject : ∃ members,
      exchange.metadata sha256 content = .object members := by
    rw [Exchange.metadata, sendMessage]
    exact (exists_members_assign _ _ _).imp fun _ both => both.1
  exact parse_of_dump honest.strict isObject (sendMessage_ordered _ _ _ _)
    (sendMessage_allPlain _ _ _ _) honest.dumpsMessage

theorem readsMessage :
    Reads library (exchange.metadata sha256 content)
      (filename exchange.fileToSendPath) content.length
      (Hexadecimal.encode (sha256 content)) false :=
  reads_of_isSendMessage library honest.isSize isMessage

theorem parsesAnswer :
    library.parse answer = .ok (codeResponse exchange.code) ∧
      answer ≠ [] := by
  have isObject : ∃ members,
      codeResponse exchange.code = .object members :=
    (exists_members_assign _ _ _).imp fun _ both => both.1
  exact parse_of_dump honest.strict isObject (codeResponse_ordered _)
    (null_allPlain.assign codeWordsKey rfl) honest.dumpsAnswer

theorem acceptsRequest :
    create library request = .ok (createReceiveMessage exchange.code) ∧
      request ≠ [] :=
  create_of_dump_receiveMessage honest.strict honest.dumpsRequest

/-! ## The sender -/

/-- The sender when its first message is sent. -/
def awaitCode (exchange : Exchange) : SenderProcess Role Unit := do
  let (entry, _) ←
    withEntry exchange.sender ⟨exchange.fileToSendPath, false⟩ do
      let code ← getReceiveCodeFromServer exchange.sender .server
      pure ((⟨exchange.fileToSendPath, false⟩ : RAIIFSEntry), code)
  sendFSEntry exchange.sender .server entry exchange.senderFuel

theorem creates :
    createSendMessage exchange.sender.digest exchange.senderDisk.tree
        exchange.sender.workingDirectory exchange.fileToSendPath false =
      .ok (exchange.metadata sha256 content) := by
  have present : fileExists exchange.senderDisk.tree
      exchange.sender.workingDirectory exchange.fileToSendPath = true := by
    rw [fileExists, status_of_regularFile honest.isFile]
    rfl
  rw [createSendMessage, present, honest.isFile,
    calculateFileHash_of_computes honest.senderDigest honest.isFile]
  rfl

/-- A plain file is not compressed. -/
theorem compressIfNecessary_plays :
    Plays (compressIfNecessary exchange.sender exchange.fileToSendPath
        exchange.senderFuel : SenderProcess Role _) exchange.senderDisk
      silence silence
      (.done (⟨exchange.fileToSendPath, false⟩, false))
      exchange.senderDisk := by
  have notDirectory : isDirectory exchange.senderDisk.tree
      exchange.sender.workingDirectory exchange.fileToSendPath = false := by
    rw [isDirectory, status_of_regularFile honest.isFile]
    rfl
  rw [compressIfNecessary]
  apply Plays.update
  show Plays (if isDirectory exchange.senderDisk.tree
    exchange.sender.workingDirectory exchange.fileToSendPath = true
    then _ else _) _ _ _ _ _
  rw [notDirectory]
  exact .rest _ _

theorem announces :
    Plays (exchange.process .sender) exchange.senderDisk silence
      (only .server (frame message)) (awaitCode exchange)
      exchange.senderDisk := by
  have sends := @send_plays_frame Role Disk _ exchange.senderDisk .server
    message honest.parsesMessage.2 (honest.messageFits.trans (by decide))
  have announced : Plays
      (sendFSEntryMetadata exchange.sender .server exchange.fileToSendPath
        exchange.senderFuel : SenderProcess Role _)
      exchange.senderDisk silence (only .server (frame message))
      (withEntry exchange.sender ⟨exchange.fileToSendPath, false⟩ do
        let code ← getReceiveCodeFromServer exchange.sender .server
        pure ((⟨exchange.fileToSendPath, false⟩ : RAIIFSEntry), code))
      exchange.senderDisk := by
    rw [sendFSEntryMetadata]
    apply honest.compressIfNecessary_plays.andThen
      (_ : Plays _ _ silence (only .server (frame message)) _ _)
    apply Plays.handle
    apply Plays.update
    simp only [id_eq, Process.andThen, honest.creates]
    apply (Plays.rest (.done (exchange.metadata sha256 content)) _).andThen
      (_ : Plays _ _ silence (only .server (frame message)) _ _)
    rw [honest.senderLibrary, honest.dumpsMessage]
    exact (Plays.rest (.done message) _).andThen (sends.bind _)
  exact announced.bind _

/-- The sender takes the code from the answer. -/
theorem learnsCode :
    Plays (awaitCode exchange) exchange.senderDisk
      (only .server (frame answer)) silence
      (sendFSEntry exchange.sender .server
        ⟨exchange.fileToSendPath, false⟩ exchange.senderFuel)
      exchange.senderDisk := by
  have reads : receiveCode exchange.sender answer = .ok exchange.code := by
    have codeRead : library.stringAt (codeResponse exchange.code)
        codeWordsKey = .ok exchange.code :=
      stringAt_of_find (by simp [codeResponse])
    have parsed : (orJsonException (library.parse answer) >>= fun json =>
        library.stringAt json codeWordsKey) = .ok exchange.code := by
      rw [honest.parsesAnswer.1]
      exact codeRead
    simp only [receiveCode, honest.senderLibrary, parsed]
  have receives : Plays
      (getReceiveCodeFromServer exchange.sender .server :
        SenderProcess Role Bytes) exchange.senderDisk
      (only .server (frame answer)) silence (.done exchange.code)
      exchange.senderDisk := by
    rw [getReceiveCodeFromServer]
    apply (receive_plays Role.server honest.answerFits).andThen_eq
    rw [reads]
    rfl
  have given : Plays
      (withEntry exchange.sender ⟨exchange.fileToSendPath, false⟩ do
        let code ← getReceiveCodeFromServer exchange.sender .server
        pure ((⟨exchange.fileToSendPath, false⟩ : RAIIFSEntry), code))
      exchange.senderDisk (only Role.server (frame answer)) silence
      (.done (⟨exchange.fileToSendPath, false⟩, exchange.code))
      exchange.senderDisk :=
    (receives.andThen_eq rfl).handle _
  exact given.andThen_eq rfl

/-! ## The server -/

/-- The table when the sender is registered. -/
def registered (exchange : Exchange) (json : Json) :
    SendersSessions Role Json :=
  (swept exchange.firstVisit ∅).insert exchange.code
    ⟨.sender, json, exchange.registering.now⟩

theorem registersSender :
    Registers exchange.firstVisit (exchange.metadata sha256 content) message
      answer where
  accepted := by
    rw [Exchange.firstVisit, honest.registeringLibrary]
    exact create_of_isSendMessage library honest.parsesMessage.1 isMessage
  isSend := isMessage.action
  messageFits := honest.messageFits
  alive := honest.registeringAlive
  dumpsAnswer := by
    rw [Exchange.firstVisit, honest.registeringLibrary]
    exact honest.dumpsAnswer
  answerFilled := honest.parsesAnswer.2
  answerFits := honest.answerFits
  fuel := Nat.zero_lt_of_lt honest.serverFuel

theorem registers :
    Plays (exchange.process .server) ∅ (only .sender (frame message))
      (only .sender (frame answer)) (serve [exchange.secondVisit])
      (registered exchange (exchange.metadata sha256 content)) := by
  have free : code exchange.firstVisit ∉
      (swept exchange.firstVisit ∅ : SendersSessions Role Json) := by
    intro present
    rcases Option.isSome_iff_exists.1 (AList.lookup_isSome.2 present) with
      ⟨session, found⟩
    have atFirst := lookup_of_terminateTimeoutClients found
    rw [AList.lookup_empty] at atFirst
    cases atFirst
  exact serve_registers honest.registersSender free [exchange.secondVisit]

theorem fetchesFile
    {pieces : List Bytes}
    (filled : ∀ piece ∈ pieces, piece ≠ [])
    (pieceFits : ∀ piece ∈ pieces, piece.length ≤ bufferSize)
    (whole : pieces.flatten = content) :
    Fetches exchange.secondVisit (exchange.metadata sha256 content)
      exchange.code message request pieces where
  accepted := by
    rw [Exchange.secondVisit, honest.requestingLibrary]
    exact honest.acceptsRequest.1
  requestFits := honest.requestFits
  alive := honest.requestingAlive
  dumps := by
    rw [Exchange.secondVisit, honest.requestingLibrary]
    exact honest.dumpsMessage
  messageFilled := honest.parsesMessage.2
  messageFits := honest.messageFits.trans (by decide)
  filenameRead := by
    rw [Exchange.secondVisit, honest.requestingLibrary]
    exact ⟨_, honest.readsMessage.filename⟩
  fileSizeRead := by
    rw [Exchange.secondVisit, honest.requestingLibrary, whole]
    exact honest.readsMessage.fileSize
  isSize := by
    rw [whole]
    exact honest.isSize
  filled := filled
  pieceFits := pieceFits
  fuel := by
    rw [whole]
    exact honest.serverFuel

/-- The sender has not timed out when the receiver asks. -/
theorem stillRegistered :
    (swept exchange.secondVisit
      (registered exchange (exchange.metadata sha256 content))).lookup
        exchange.code =
      some ⟨.sender, exchange.metadata sha256 content,
        exchange.registering.now⟩ := by
  apply lookup_terminateTimeoutClients_of_inTime _ honest.inTime
  exact AList.lookup_insert _

/-- The server when everything has been relayed. -/
def confirmTransfer (exchange : Exchange) (json : Json) :
    SessionProcess Role Unit :=
  visiting .receiver []
    (finishTransfer exchange.requesting .receiver .sender json)

/-! ## The receiver -/

def announcement :
    Announcement exchange.receiver exchange.receiving.disk.tree where
  metadata := message
  json := exchange.metadata sha256 content
  filename := filename exchange.fileToSendPath
  fileSize := content.length
  isCompressed := false
  accepted := by
    have reads := honest.readsMessage
    have parsed := honest.parsesMessage.1
    rw [← honest.receiverLibrary] at reads parsed
    exact checkResponse_of_reads parsed reads honest.free honest.space
  filenameRead := by
    rw [honest.receiverLibrary]
    exact honest.readsMessage.filename
  fileSizeRead := by
    rw [honest.receiverLibrary]
    exact honest.readsMessage.fileSize
  isCompressedRead := by
    rw [honest.receiverLibrary]
    exact honest.readsMessage.isCompressed

/-- What the receiver has when all pieces have come. -/
def filledWith (exchange : Exchange) (location : Location)
    (pieces : List Bytes) : Receiving :=
  writeAll pieces
    (openedAt exchange.receivedPath location exchange.receiving)

/-- The receiver when it has written everything. -/
def confirmFile : ReceiverProcess Role Unit := do
  sendACK .server
  afterTransfer honest.announcement
    (Hexadecimal.encode (sha256 content)) exchange.receiverFuel

theorem requests :
    Plays (exchange.process .receiver) exchange.receiving silence
      (only .server (frame request))
      (awaitResponse exchange.receiver .server 121 exchange.receiverFuel)
      exchange.receiving := by
  have dumped : exchange.receiver.library.dump
      (createReceiveMessage exchange.code) = .ok request := by
    rw [honest.receiverLibrary]
    exact honest.dumpsRequest
  have sends := @receiveFile_plays Role exchange.receiver _ Role.server
    exchange.code request dumped 121 exchange.receiverFuel
    exchange.receiving
  rw [frames_chunks_of_fits honest.acceptsRequest.2
    (honest.requestFits.trans (by decide))] at sends
  exact sends

theorem agrees :
    Plays (awaitResponse exchange.receiver Role.server 121
        exchange.receiverFuel) exchange.receiving
      (only .server (frame message)) (only .server (frame ack))
      (receiveConfirmed exchange.receiver .server
        (exchange.metadata sha256 content) exchange.receiverFuel)
      exchange.receiving :=
  awaitResponse_plays (honest.messageFits.trans (by decide))
    honest.announcement.accepted exchange.receiverFuel

theorem fills
    {pieces : List Bytes}
    (filled : ∀ piece ∈ pieces, piece ≠ [])
    (accepted : ∀ piece ∈ pieces, piece.length ≤ bufferSize)
    (whole : pieces.flatten = content) :
    Plays (receiveConfirmed exchange.receiver .server
        (exchange.metadata sha256 content) exchange.receiverFuel)
      exchange.receiving (only .server (frames pieces)) silence
      honest.confirmFile (filledWith exchange location pieces) := by
  have hashRead : exchange.receiver.library.stringAt
      (exchange.metadata sha256 content) fileHashKey =
        .ok (Hexadecimal.encode (sha256 content)) := by
    rw [honest.receiverLibrary]
    exact honest.readsMessage.fileHash
  exact receiveConfirmed_plays_filled honest.announcement honest.missing
    honest.resolved honest.possible filled accepted (by rw [whole]; rfl)
    hashRead (lt_of_pieces filled whole honest.receiverFuel)

/-- The hash is right, and nothing is unpacked. -/
theorem confirms
    {pieces : List Bytes}
    (whole : pieces.flatten = content) :
    Plays honest.confirmFile (filledWith exchange location pieces) silence
      (only .server (frame ack)) (.done ())
      (filledWith exchange location pieces) := by
  have isFile := regularFile_writeAll honest.resolved honest.possible pieces
  rw [whole] at isFile
  have hashes := calculateFileHash_of_computes honest.receiverDigest isFile
  exact (sendACK_plays Role.server).andThen
    ((validateFileHash_plays hashes).andThen_eq rfl)

/-- Whatever the others do, the receiver changes nothing any more. -/
theorem confirmFile_keeps (moment : Local Role Receiving) :
    Ensures (fun _ => True) (fun later => later.state = moment.state)
      (fun _ _ => True) (fun _ _ => True) honest.confirmFile moment := by
  have acknowledges : Ensures (fun _ => True)
      (fun later => later.state = moment.state)
      (fun _ later => later.state = moment.state) (fun _ _ => True)
      (sendACK Role.server) moment := by
    apply (send_ensures Role.server ack fun _ _ => rfl).weaken
    · rintro _ _ _ _ rfl
      rfl
    · intro _ _ _ _ _
      trivial
  apply acknowledges.bind
  rintro _ later - - same
  have validates : Ensures (fun _ => True)
      (fun later => later.state = moment.state)
      (fun _ last => last = later) (fun _ _ => True)
      (validateFileHash exchange.receiver honest.announcement.path
        (Hexadecimal.encode (sha256 content))) later := by
    rw [validateFileHash]
    apply Ensures.getState_bind same
    apply Ensures.ofExcept_bind same _ fun _ _ => trivial
    intro actual _
    split_ifs
    · exact .raise same trivial
    · exact .pure same rfl
  apply validates.bind
  rintro _ _ - - rfl
  exact .pure same trivial

/-! ## All together -/

/-- The parties when everything has arrived at the receiver. -/
def Filled (pieces : List Bytes) :
    (role : Role) → SocketProcess Role (Exchange.State role) Unit →
      Exchange.State role → Prop
  | .sender, process, _ =>
      process = awaitFinalACK exchange.sender .server
        ⟨exchange.fileToSendPath, false⟩
  | .server, process, _ =>
      process = confirmTransfer exchange
        (exchange.metadata sha256 content)
  | .receiver, process, receiving =>
      process = honest.confirmFile ∧
        receiving = filledWith exchange location pieces

/-- The parties when everything is over. -/
def Finished (exchange : Exchange) (location : Location)
    (pieces : List Bytes) :
    (role : Role) → SocketProcess Role (Exchange.State role) Unit →
      Exchange.State role → Prop
  | .sender, process, _ => process = .done ()
  | .server, process, _ => process = .done ()
  | .receiver, process, receiving =>
      process = .done () ∧
        receiving = filledWith exchange location pieces

def untilFilled (message answer request : Bytes) (pieces : List Bytes) :
    List (Role × Bytes) :=
  [(.server, frame message), (.sender, frame answer), (.receiver, []),
    (.server, frame request), (.receiver, frame message),
    (.server, frame ack), (.sender, frame ack), (.server, frames pieces),
    (.receiver, frames pieces), (.server, [])]

def untilFinished : List (Role × Bytes) :=
  [(.server, frame ack), (.sender, frame ack), (.server, [])]

variable {pieces : List Bytes}

/-- Nobody has anything left to do but to confirm. -/
theorem exists_filled :
    ∃ pieces : List Bytes, pieces.flatten = content ∧
      ∃ network : Network Role Exception Exchange.State fun _ => Unit,
        Reaches Network.step exchange.network network ∧
        (∀ role, honest.Filled pieces role (network.process role)
          (network.state role)) ∧
        network.sent .server .sender = frame answer ++ frame ack ∧
        network.Turn .server .receiver [] := by
  rcases @sendFSEntry_plays Role exchange.sender .server _
      ⟨exchange.fileToSendPath, false⟩ exchange.senderDisk content
      exchange.senderFuel honest.isFile honest.senderFuel with
    ⟨pieces, filled, accepted, sends, whole⟩
  have whole := whole.2 honest.neverDry
  have silent : exchange.network.Turn .sender .server [] := by
    intro reader
    rw [only_nil, ite_self]
    rfl
  have converses : ∀ role,
      Converses (honest.Filled pieces role)
        (turnsOf role .sender .server []
          (untilFilled message answer request pieces))
        (exchange.network.process role) (exchange.network.state role) := by
    intro role
    cases role with
    | sender =>
        have announces := honest.announces
        have learns := honest.learnsCode
        rw [← only_nil Role.server] at announces
        rw [← only_nil Role.receiver] at learns
        exact ⟨_, _, announces, _, _, learns, _, _, sends, rfl⟩
    | server =>
        have fetches := honest.fetchesFile filled accepted whole
        exact ⟨_, _, honest.registers,
          fetches.serve_relays honest.stillRegistered rfl⟩
    | receiver =>
        have requests := honest.requests
        have fills := honest.fills filled accepted whole
        rw [← only_nil Role.sender] at requests
        rw [← only_nil Role.server] at fills
        exact ⟨_, _, requests, _, _, honest.agrees, _, _, fills, rfl, rfl⟩
  rcases reaches_end_of_dialogue silent (by simp [Alternates, untilFilled])
      converses with ⟨network, reaches, isFilled, said, turn⟩
  refine ⟨pieces, whole, network, reaches, isFilled, ?_, turn⟩
  rw [said]
  simp [saidBy, untilFilled, Exchange.network, silence]

variable {network : Network Role Exception Exchange.State fun _ => Unit}

/-- The confirmation of the receiver ends the transfer. -/
theorem exists_finished
    (whole : pieces.flatten = content)
    (isFilled : ∀ role, honest.Filled pieces role (network.process role)
      (network.state role))
    (turn : network.Turn .server .receiver []) :
    ∃ final,
      Reaches Network.step network final ∧
      ∀ role, Finished exchange location pieces role (final.process role)
        (final.state role) := by
  have converses : ∀ role,
      Converses (Finished exchange location pieces role)
        (turnsOf role .receiver .server [] untilFinished)
        (network.process role) (network.state role) := by
    intro role
    have isFilled := isFilled role
    cases role with
    | sender =>
        rcases awaitFinalACK_plays exchange.sender Role.server
          ⟨exchange.fileToSendPath, false⟩ (network.state .sender) with
          ⟨later, ends⟩
        rw [← only_nil Role.server] at ends
        rw [isFilled]
        exact ⟨_, _, ends, rfl⟩
    | server =>
        have read := honest.readsMessage.filename
        rw [← honest.requestingLibrary] at read
        have ends := visiting_plays
          (finishTransfer_plays Role.receiver Role.sender read
            (network.state .server))
          Role.receiver []
        rw [isFilled]
        exact ⟨_, _, ends, rfl⟩
    | receiver =>
        have ends := honest.confirms whole
        rw [← only_nil Role.server] at ends
        rw [isFilled.1, isFilled.2]
        exact ⟨_, _, ends, rfl, rfl⟩
  rcases reaches_end_of_dialogue (turn.of_nothing .receiver .server)
      (by simp [Alternates, untilFinished]) converses with
    ⟨final, reaches, finished, -⟩
  exact ⟨final, reaches, finished⟩

/-- Only the receiver can go on. -/
theorem others_wait
    (isFilled : ∀ role, honest.Filled pieces role (network.process role)
      (network.state role))
    (turn : network.Turn .server .receiver [])
    (role : Role)
    (different : role ≠ .receiver) :
    Network.step role network = none := by
  have nothing (reader peer : Role) : network.unread reader peer = [] := by
    rw [turn reader, only_nil, ite_self]
    rfl
  have isFilled := isFilled role
  cases role with
  | sender =>
      apply step_of_awaits _ (nothing .sender .server)
      rw [isFilled]
      exact ⟨_, _, rfl⟩
  | server =>
      apply step_of_awaits _ (nothing .server .receiver)
      rw [isFilled]
      exact ⟨_, _, rfl⟩
  | receiver => exact absurd rfl different

omit honest in
theorem stuck_of_finished
    (finished : ∀ role, Finished exchange location pieces role
      (network.process role) (network.state role)) :
    Stuck Network.step network := by
  intro role
  apply step_of_halted
  have finished := finished role
  cases role with
  | sender =>
      rw [finished]
      trivial
  | server =>
      rw [finished]
      trivial
  | receiver =>
      rw [finished.1]
      trivial

/-- Both clients have returned, and the receiver has the file. -/
structure Delivered (exchange : Exchange) (sha256 : Bytes → Bytes)
    (content : Bytes)
    (network : Network Role Exception Exchange.State fun _ => Unit) :
    Prop where
  sender : network.process .sender = .done ()
  server : network.process .server = .done ()
  receiver : network.process .receiver = .done ()
  written : (network.state .receiver).written = content
  isFile : regularFile (network.state .receiver).disk.tree
    exchange.receiver.workingDirectory exchange.receivedPath = some content
  hash : ∃ fileHash,
    calculateFileHash exchange.receiver.digest
        (network.state .receiver).disk.tree
        exchange.receiver.workingDirectory exchange.receivedPath =
      .ok fileHash ∧
    (exchange.metadata sha256 content).find fileHashKey =
      some (.string fileHash)

theorem written_filledWith (whole : pieces.flatten = content) :
    (filledWith exchange location pieces).written = content := by
  have onDisk := (onDisk_openedAt honest.resolved honest.possible).writeAll
    pieces
  rw [List.nil_append, whole] at onDisk
  rw [filledWith, Receiving.written, onDisk.opened]

theorem delivered_of_finished
    (whole : pieces.flatten = content)
    (finished : ∀ role, Finished exchange location pieces role
      (network.process role) (network.state role)) :
    Delivered exchange sha256 content network := by
  have isFile := regularFile_writeAll honest.resolved honest.possible pieces
  have atEnd := (finished .receiver).2
  rw [whole] at isFile
  constructor
  · exact finished .sender
  · exact finished .server
  · exact (finished .receiver).1
  · rw [atEnd]
    exact honest.written_filledWith whole
  · rw [atEnd]
    exact isFile
  · rw [atEnd]
    exact ⟨_, calculateFileHash_of_computes honest.receiverDigest isFile,
      isMessage.fileHash⟩

/-- After the last content has been written, it stays. -/
theorem written_of_reaches
    (whole : pieces.flatten = content)
    (isFilled : ∀ role, honest.Filled pieces role (network.process role)
      (network.state role))
    {later : Network Role Exception Exchange.State fun _ => Unit}
    (reaches : Reaches Network.step network later) :
    (later.state .receiver).written = content := by
  have keeps := Network.ensures_of_lossyRun Role.receiver
    (Network.lossyRun_of_reaches reaches)
    (by
      rw [(isFilled .receiver).1]
      exact honest.confirmFile_keeps (network.view .receiver))
  have same : later.state .receiver = network.state .receiver :=
    keeps.now trivial
  rw [same, (isFilled .receiver).2]
  exact honest.written_filledWith whole

end Honest

/-- Nobody makes a step any more. -/
def Final
    (network : Network Role Exception Exchange.State fun _ => Unit) :
    Prop :=
  ∀ role, Halted (network.process role)

/--
Every run goes on until all parties have halted, which is after a bounded
number of steps.  Then the file is delivered, and nothing of the last `ACK` has
come to the sender before the receiver had written the whole file.
-/
theorem honest_transfer_is_delivered
    {library : JsonLibrary} {sha256 : Bytes → Bytes} {exchange : Exchange}
    {content : Bytes} {location : Location}
    {message answer request : Bytes}
    (honest : Honest library sha256 exchange content location message
      answer request) :
    ∃ longest, ∀ schedule network,
      follow Network.step schedule exchange.network = some network →
      schedule.length ≤ longest ∧
      ((∃ role next, Network.step role network = some next) ∨
        Final network) ∧
      (Final network →
        Honest.Delivered exchange sha256 content network) ∧
      (network.received .sender .server <+: frame answer ++ frame ack ∨
        (network.state .receiver).written = content) := by
  rcases honest.exists_filled with
    ⟨pieces, whole, filled, ⟨first, toFilled⟩, isFilled, sent, turn⟩
  rcases honest.exists_finished whole isFilled turn with
    ⟨final, onward, finished⟩
  have commutes := @Network.step_commutes Role Exception Exchange.State
    (fun _ => Unit) _
  have stuck := Honest.stuck_of_finished finished
  have reachesFilled : Reaches Network.step exchange.network filled :=
    ⟨first, toFilled⟩
  rcases reachesFilled.trans onward with ⟨canonical, ends⟩
  refine ⟨canonical.length, ?_⟩
  intro schedule network run
  have reaches : Reaches Network.step exchange.network network :=
    ⟨schedule, run⟩
  have atEnd (isStuck : Stuck Network.step network) : network = final :=
    eq_final_of_stuck commutes ends stuck reaches isStuck
  refine ⟨length_le_of_stuck commutes ends stuck run, ?_, ?_, ?_⟩
  · by_cases isStuck : Stuck Network.step network
    · right
      have delivered := honest.delivered_of_finished whole finished
      rw [atEnd isStuck]
      intro role
      cases role with
      | sender =>
          rw [delivered.sender]
          trivial
      | server =>
          rw [delivered.server]
          trivial
      | receiver =>
          rw [delivered.receiver]
          trivial
    · left
      rw [Stuck, not_forall] at isStuck
      rcases isStuck with ⟨role, steps⟩
      exact ⟨role, Option.ne_none_iff_exists'.1 steps⟩
  · intro halted
    rw [atEnd fun role => step_of_halted (halted role)]
    exact honest.delivered_of_finished whole finished
  · rcases reaches_bottleneck commutes toFilled
        (honest.others_wait isFilled turn) reaches with
      before | ⟨labels, last, absent, follows, after⟩
    · left
      have isPart := (Network.prefix_received_of_reaches before
        Role.sender Role.server).trans (filled.prefix_sent _ _)
      rw [sent] at isPart
      exact isPart
    · right
      rw [← Network.state_of_follow absent follows]
      exact honest.written_of_reaches whole isFilled after

/-! ## Three bytes -/

/-- The file `abc` is sent byte by byte. -/
def abcExchange : Exchange where
  sender :=
    { machineWith fun _ => 1 with
      library := FlatJson.flatLibrary
      digest := collecting knownSha256 }
  senderDisk := ⟨treeWithFile (ascii "abc"), []⟩
  fileToSendPath := ascii "f"
  senderFuel := 4
  registering := Server.FirstRead.flatSettings
  requesting := Server.FirstRead.flatSettings
  clientTimeout := 60
  firstSweep := []
  secondSweep := [(ascii "old-two-7", 60)]
  serverFuel := 4
  receiver := hashingMachine
  receiving := ⟨⟨FileTree.empty, []⟩, none, none⟩
  receiverFuel := 4

theorem abcExchange_honest :
    Honest FlatJson.flatLibrary knownSha256 abcExchange (ascii "abc")
      [ascii "f"] (flatText (abcExchange.metadata knownSha256 (ascii "abc")))
      (flatText (codeResponse abcExchange.code))
      (flatText (createReceiveMessage abcExchange.code)) where
  strict := FlatJson.flatLibrary_strict
  senderLibrary := rfl
  registeringLibrary := rfl
  requestingLibrary := rfl
  receiverLibrary := rfl
  senderDigest := computes_knownSha256
  receiverDigest := computes_knownSha256
  isFile := by decide +kernel
  isSize := by decide
  neverDry := fun _ _ => Nat.one_pos
  dumpsMessage := by decide +kernel
  messageFits := by decide +kernel
  registeringAlive := rfl
  requestingAlive := rfl
  dumpsAnswer := by decide +kernel
  answerFits := by decide +kernel
  dumpsRequest := by decide +kernel
  requestFits := by decide +kernel
  inTime := by decide
  free := by decide +kernel
  space := by decide
  resolved := by decide +kernel
  possible := by decide +kernel
  missing := rfl
  senderFuel := by decide
  serverFuel := by decide
  receiverFuel := by decide

theorem honest_transfer_is_delivered_abc :
    ∃ longest, ∀ schedule network,
      follow Network.step schedule abcExchange.network = some network →
      schedule.length ≤ longest ∧
      ((∃ role next, Network.step role network = some next) ∨
        Final network) ∧
      (Final network →
        Honest.Delivered abcExchange knownSha256 (ascii "abc") network) ∧
      (network.received .sender .server <+:
          frame (flatText (codeResponse abcExchange.code)) ++ frame ack ∨
        (network.state .receiver).written = ascii "abc") :=
  honest_transfer_is_delivered abcExchange_honest

end DropFile.HonestTransfers
