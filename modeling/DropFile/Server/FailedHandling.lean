import DropFile.Server.FirstRead

/-!
# The table after a failed handling

The table changes before the answer is sent: a sender is in it before it knows
its code, and is taken out before the receiver confirms.  No failure undoes
this.
-/

namespace DropFile.Server.FailedHandling

open DropFile.General.Processes.Process
open DropFile.General.Utf8
open DropFile.Streams
open DropFile.Socket
open DropFile.JsonObjects
open DropFile.InitSessionMessage
open DropFile.SessionMessages
open DropFile.Server.SessionsManager
open DropFile.Server.ServerSideClientSession
open DropFile.Server.FirstRead

variable {Peer : Type}

/-- What `handleFirstRead` does inside of its `try`. -/
def attempt (settings : Settings) (self : Peer) (fuel : Nat)
    (content : Bytes) : SessionProcess Peer Unit := do
  let json ← ofExcept (create settings.library content)
  let _ ← ofExcept (settings.library.stringAt json actionKey)
  registerSession settings self json fuel

theorem handleFirstRead_eq
    (settings : Settings) (self : Peer) (fuel : Nat) (content : Bytes) :
    handleFirstRead settings self fuel content =
      (attempt settings self fuel content).handle (catchFirstRead self) :=
  rfl

/-- The tables that a handling which fails can leave behind. -/
inductive LeftBehind (settings : Settings) (self : Peer) (content : Bytes)
    (table : SendersSessions Peer Json) :
    SendersSessions Peer Json → Prop where
  /-- The message is not accepted, and nothing has changed. -/
  | refused {error : Exception} :
      create settings.library content = .error error →
      LeftBehind settings self content table table
  /-- The sender stays under a code that it may not know. -/
  | registered {json : Json} (attempt : Nat)
      {later : SendersSessions Peer Json} :
      create settings.library content = .ok json →
      json.find actionKey = some (.string (ascii "send")) →
      tryRegister (settings.generateSessionID attempt) settings.now self
        json table = some later →
      LeftBehind settings self content table later
  /-- There is no sender with the code, and nothing has changed. -/
  | unknown {json : Json} {code : SessionCode} :
      create settings.library content = .ok json →
      IsReceiveMessage json code →
      table.lookup code = none →
      LeftBehind settings self content table table
  /-- The sender with the code is gone, whatever came after that. -/
  | handedOut {json : Json} {code : SessionCode}
      {session : TimedClientSession Peer Json} :
      create settings.library content = .ok json →
      IsReceiveMessage json code →
      table.lookup code = some session →
      LeftBehind settings self content table (table.erase code)

variable [DecidableEq Peer]
variable {settings : Settings} {self : Peer} {content : Bytes}
variable {table : SendersSessions Peer Json}

/-- A handling fails with an exception that is caught. -/
def FailsWith (settings : Settings) (self : Peer) (content : Bytes)
    (table : SendersSessions Peer Json) (error : Exception)
    (later : Local Peer (SendersSessions Peer Json)) : Prop :=
  Caught error.thrown ∧
    LeftBehind settings self content table later.state

/-- Where the table stays as it is, a failure leaves it as it is. -/
theorem fails_of_contained
    {process : SessionProcess Peer Unit}
    {later : SendersSessions Peer Json} {received sent : Traffic Peer}
    (contained : Contained (· = later) process ⟨later, received, sent⟩)
    (left : LeftBehind settings self content table later) :
    Ensures (fun _ => True) (fun _ => True) (fun _ _ => True)
      (FailsWith settings self content table) process
      ⟨later, received, sent⟩ := by
  refine Ensures.weakenAlways (Ensures.weaken contained
    (fun _ _ _ _ done => done) ?_) fun _ _ => trivial
  intro error moment _ same caught
  refine ⟨caught, ?_⟩
  rw [same]
  exact left

theorem request_fails
    {json : Json} {code : SessionCode}
    (contract : settings.library.Utf8Contract)
    (accepted : AllAccepted settings.library table)
    (created : create settings.library content = .ok json)
    (request : IsReceiveMessage json code)
    (fuel : Nat) (received sent : Traffic Peer) :
    Ensures (fun _ => True) (fun _ => True) (fun _ _ => True)
      (FailsWith settings self content table)
      (do
        let (sender, metadata) ← ofProgram (getSenderWithMetadata code)
        receiveFile settings self sender metadata fuel)
      ⟨table, received, sent⟩ := by
  have fetches : Ensures (fun _ => True) (fun _ => True)
      (fun fetched later => Accepted settings.library fetched.2 ∧
        later.state = table.erase code ∧
        LeftBehind settings self content table later.state)
      (FailsWith settings self content table)
      (ofProgram (getSenderWithMetadata code) :
        SessionProcess Peer (Peer × Json)) ⟨table, received, sent⟩ := by
    apply Ensures.ofProgram trivial
    intro start same
    rw [same]
    cases found : table.lookup code with
    | none =>
        rw [getSenderWithMetadata_of_unknown found]
        exact ⟨trivial, Or.inl rfl, .unknown created request found⟩
    | some session =>
        rw [getSenderWithMetadata_of_lookup found]
        exact ⟨trivial, accepted code session found, rfl,
          .handedOut created request found⟩
  refine fetches.bind ?_
  rintro ⟨sender, metadata⟩ ⟨later, received, sent⟩ - -
    ⟨isAccepted, rfl, left⟩
  have transfers : Contained (· = table.erase code)
      (receiveFile settings self sender metadata fuel)
      ⟨table.erase code, received, sent⟩ :=
    contained_receiveFile contract (by rfl) isAccepted self sender fuel
  exact fails_of_contained transfers left

theorem register_fails
    {json : Json}
    (contract : settings.library.Utf8Contract)
    (draws : DrawsCodes settings)
    (created : create settings.library content = .ok json)
    (isSend : json.find actionKey = some (.string (ascii "send")))
    (fuel : Nat) (received sent : Traffic Peer) :
    Ensures (fun _ => True) (fun _ => True) (fun _ _ => True)
      (FailsWith settings self content table)
      (do
        let code ← ofProgram (registerSender settings.generateSessionID
          settings.now self json fuel)
        let response ←
          ofExcept (orJsonException
            (settings.library.dump (codeResponse code)))
        send self response)
      ⟨table, received, sent⟩ := by
  have registers : Ensures (fun _ => True) (fun _ => True)
      (fun code later =>
        (∃ attempt, code = settings.generateSessionID attempt) ∧
        tryRegister code settings.now self json table = some later.state)
      (FailsWith settings self content table)
      (ofProgram (registerSender settings.generateSessionID settings.now
        self json fuel)) ⟨table, received, sent⟩ :=
    Ensures.ofProgram trivial ((registerSender_satisfies
      settings.generateSessionID settings.now self json fuel table).weaken
        (fun _ start => start) (fun _ _ both => ⟨trivial, both⟩)
        (fun _ _ => False.elim))
  refine registers.bind ?_
  rintro _ ⟨later, received, sent⟩ - - ⟨⟨drawn, rfl⟩, registered⟩
  rcases contract.dumps (codeResponse_utf8 (draws.isUtf8 drawn)) with
    ⟨response, dumped⟩
  have sends : Contained (· = later) (send self response)
      ⟨later, received, sent⟩ :=
    contained_send (by rfl) self response
  rw [dumped]
  exact fails_of_contained sends (.registered drawn created isSend
    registered)

theorem registerSession_fails
    {json : Json}
    (contract : settings.library.Utf8Contract)
    (draws : DrawsCodes settings)
    (accepted : AllAccepted settings.library table)
    (created : create settings.library content = .ok json)
    (fuel : Nat) (received sent : Traffic Peer) :
    Ensures (fun _ => True) (fun _ => True) (fun _ _ => True)
      (FailsWith settings self content table)
      (registerSession settings self json fuel)
      ⟨table, received, sent⟩ := by
  have different : ascii "receive" ≠ ascii "send" := by decide
  rw [registerSession]
  split_ifs
  · rcases (create_ok settings.library created).2 with
      ⟨filename, fileSize, fileHash, isCompressed, fits, members⟩ |
        ⟨code, request⟩
    · rw [index_of_find settings.library members.action]
      exact register_fails contract draws created members.action fuel
        received sent
    · rw [index_of_find settings.library request.action,
        stringAt_of_find request.codeWords]
      exact request_fails contract accepted created request fuel received
        sent
  · exact contained_safeDisconnect (fun _ => True) trivial self _

theorem attempt_fails
    (contract : settings.library.Utf8Contract)
    (draws : DrawsCodes settings)
    (accepted : AllAccepted settings.library table)
    (fuel : Nat) (received sent : Traffic Peer) :
    Ensures (fun _ => True) (fun _ => True) (fun _ _ => True)
      (FailsWith settings self content table)
      (attempt settings self fuel content) ⟨table, received, sent⟩ := by
  rw [attempt]
  cases created : create settings.library content with
  | error error =>
      refine Ensures.raise trivial ⟨Or.inl ?_, .refused created⟩
      rw [create_throwsOnly settings.library content error created]
      rfl
  | ok json =>
      rcases exists_action created with ⟨value, read⟩
      have registers := @registerSession_fails _ _ _ self _ _ _ contract
        draws accepted created fuel received sent
      show Ensures _ _ _ _ (do
        let _ ← ofExcept (settings.library.stringAt json actionKey)
        registerSession settings self json fuel) _
      rw [read]
      exact registers

/-- No handler touches the table. -/
theorem catchFirstRead_keeps
    {error : Exception}
    (caught : Caught error.thrown) (self : Peer)
    (table : SendersSessions Peer Json) (received sent : Traffic Peer) :
    Ensures (fun _ => True) (fun later => later.state = table)
      (fun _ _ => True) (fun _ _ => False) (catchFirstRead self error)
      ⟨table, received, sent⟩ := by
  rw [catchFirstRead]
  split_ifs with base system
  · exact contained_safeDisconnect (· = table) rfl self _
  · exact Ensures.pure rfl trivial
  · rcases caught with isBase | isSystem
    · exact absurd isBase base
    · exact absurd isSystem system

/--
A handling that fails leaves the table as it was, except that an accepted
sender stays registered and a sender that was asked for is gone; and what is
thrown is caught without touching the table again.
-/
theorem failed_leavesBehind
    (settings : Settings)
    (contract : settings.library.Utf8Contract)
    (draws : DrawsCodes settings)
    (table : SendersSessions Peer Json)
    (reachable : ReachableTable settings.library table)
    (self : Peer) (fuel : Nat) (content : Bytes) (error : Exception)
    (moment : Local Peer (SendersSessions Peer Json))
    (fails : Becomes (attempt settings self fuel content)
      ⟨table, silence, silence⟩ (.failed error) moment) :
    LeftBehind settings self content table moment.state ∧
      ∀ later last,
        Becomes (catchFirstRead self error) moment later last →
        last.state = moment.state ∧ ∀ other, later ≠ .failed other := by
  have ensures := @attempt_fails _ _ _ self content _ contract draws
    (reachable.allAccepted contract) fuel silence silence
  rcases (ensures.of_becomes fails) trivial with ⟨-, caught, left⟩
  refine ⟨left, ?_⟩
  intro later last becomes
  rcases moment with ⟨state, received, sent⟩
  have kept := (catchFirstRead_keeps caught self state received
    sent).of_becomes becomes
  refine ⟨kept.now trivial, ?_⟩
  rintro other rfl
  exact (kept trivial).2

/-! ## A receiver that refuses -/

section Playing

variable {json : Json} {fuel : Nat}

theorem receiveACK_refuses
    {state : SendersSessions Peer Json} (peer : Peer) {data : Bytes}
    (notAck : data ≠ Socket.ack)
    (fits : data.length ≤ bufferSize) :
    ∃ error, Plays (receiveACK peer) state (only peer (frame data)) silence
      (.failed error) state := by
  have refuses : ∃ error, (if data ≠ Socket.ack then
      raise (responseNotOk data)
      else pure () : SessionProcess Peer Unit) = .failed error :=
    ⟨_, if_pos notAck⟩
  rcases refuses with ⟨error, fails⟩
  exact ⟨error, (receiveToBuffer_plays peer fits).andThen_eq fails⟩

omit [DecidableEq Peer] in
theorem attempt_eq
    {action : String}
    (created : create settings.library content = .ok json)
    (found : json.find actionKey = some (.string (ascii action))) :
    attempt settings self fuel content =
      registerSession settings self json fuel := by
  rw [attempt, created]
  show (do
    let _ ← ofExcept (settings.library.stringAt json actionKey)
    registerSession settings self json fuel) = _
  rw [stringAt_of_find found]
  rfl

/-- A sender is registered and gets its code. -/
theorem attempt_registers
    {response : Bytes}
    (alive : settings.managerAlive = true)
    (created : create settings.library content = .ok json)
    (isSend : json.find actionKey = some (.string (ascii "send")))
    (free : settings.generateSessionID 0 ∉ table)
    (dumped : settings.library.dump
      (codeResponse (settings.generateSessionID 0)) = .ok response) :
    Plays (attempt settings self (fuel + 1) content) table silence
      (only self (frames (chunks response))) (.done ())
      (table.insert (settings.generateSessionID 0)
        ⟨self, json, settings.now⟩) := by
  rw [attempt_eq created isSend, registerSession, if_pos alive,
    index_of_find settings.library isSend]
  refine (Plays.ofProgram (registerSender_run settings.now self json fuel
    free)).andThen (?_ : Plays _ _ silence
      (only self (frames (chunks response))) _ _)
  rw [dumped]
  exact send_plays self response

/-- A receiver that answers anything but an ACK ends the handling. -/
theorem attempt_refused
    {code : SessionCode} {session : TimedClientSession Peer Json}
    {dumped reply : Bytes}
    (alive : settings.managerAlive = true)
    (created : create settings.library content = .ok json)
    (request : IsReceiveMessage json code)
    (found : table.lookup code = some session)
    (dumps : settings.library.dump session.sessionData = .ok dumped)
    (notAck : reply ≠ Socket.ack)
    (fits : reply.length ≤ bufferSize) :
    ∃ error, Plays (attempt settings self fuel content) table
      (only self (frame reply)) (only self (frames (chunks dumped)))
      (.failed error) (table.erase code) := by
  have different : ascii "receive" ≠ ascii "send" := by decide
  have refuses : ∃ error, Plays (receiveACK self) (table.erase code)
      (only self (frame reply)) silence (.failed error)
      (table.erase code) :=
    receiveACK_refuses self notAck fits
  rcases refuses with ⟨error, refuses⟩
  refine ⟨error, ?_⟩
  rw [attempt_eq created request.action, registerSession, if_pos alive,
    index_of_find settings.library request.action]
  show Plays (do
    let codeWords ←
      ofExcept (settings.library.stringAt json codeWordsKey)
    let (sender, sessionMetadata) ←
      ofProgram (getSenderWithMetadata codeWords)
    receiveFile settings self sender sessionMetadata fuel) _ _ _ _ _
  rw [stringAt_of_find request.codeWords]
  refine (Plays.ofProgram (getSenderWithMetadata_of_lookup
    found)).andThen (?_ : Plays _ _ (only self (frame reply))
      (only self (frames (chunks dumped))) _ _)
  show Plays (receiveFile settings self session.clientSession
    session.sessionData fuel) _ _ _ _ _
  rw [receiveFile, dumps]
  refine (send_plays self dumped).andThen
    (?_ : Plays _ _ (only self (frame reply)) silence _ _)
  exact refuses.bind _

end Playing

/--
Every handling that fails before anything has come from another client leaves
the table as it was.
-/
def LeavesTable (settings : Settings) (self : Peer) (content : Bytes)
    (table : SendersSessions Peer Json) : Prop :=
  ∀ fuel error moment,
    Becomes (attempt settings self fuel content) ⟨table, silence, silence⟩
      (.failed error) moment →
    (∀ peer, peer ≠ self → moment.received peer = []) →
    moment.state = table

/-- The metadata of a file `f`. -/
def metadata : Json :=
  sendMessage (ascii "f") 1 (ascii "00") false

def code : SessionCode :=
  sessionID (ascii "old") (ascii "two") 7

/-- A table in which one sender waits. -/
def waiting : SendersSessions Bool Json :=
  AList.insert code ⟨false, metadata, 0⟩ ∅

theorem waiting_reachable :
    ReachableTable flatSettings.library waiting := by
  rcases create_sendMessage FlatJson.flatLibrary_contract
      (show IsUtf8 (ascii "f") by decide +kernel)
      (show IsUtf8 (ascii "00") by decide +kernel) with
    ⟨text, -, created⟩
  rcases FlatJson.flatLibrary_contract.dumps
      (codeResponse_utf8 (flatSettings_draws.isUtf8 0)) with
    ⟨response, dumped⟩
  have registers := @attempt_registers _ _ flatSettings false text ∅
    metadata 0 response rfl created (isSendMessage_sendMessage ..).action
    (AList.notMem_empty _) dumped
  exact .handled false 1 text rfl flatSettings_draws .empty
    (.of_plays (registers.handle _) silence silence)

/-- The receiver answers `abort`. -/
theorem abort_becomes :
    ∃ content error moment,
      create flatSettings.library content =
        .ok (createReceiveMessage code) ∧
      Becomes (attempt flatSettings true 0 content)
        ⟨waiting, silence, silence⟩ (.failed error) moment ∧
      (∀ peer, peer ≠ true → moment.received peer = []) ∧
      moment.state = waiting.erase code := by
  rcases create_createReceiveMessage FlatJson.flatLibrary_contract
      (flatSettings_draws.isUtf8 0) with
    ⟨content, -, created⟩
  rcases create_sendMessage FlatJson.flatLibrary_contract
      (show IsUtf8 (ascii "f") by decide +kernel)
      (show IsUtf8 (ascii "00") by decide +kernel) with
    ⟨dumped, dumps, -⟩
  have found : waiting.lookup code = some ⟨false, metadata, 0⟩ :=
    AList.lookup_insert _
  have request : IsReceiveMessage (createReceiveMessage code) code :=
    ⟨(find_createReceiveMessage code).1,
      (find_createReceiveMessage code).2⟩
  rcases @attempt_refused _ _ flatSettings true content waiting _ 0 code _
      dumped (ascii "abort") rfl created request found dumps (by decide)
      (by decide) with
    ⟨error, refuses⟩
  refine ⟨content, error, _, created,
    .of_plays refuses silence silence, ?_, rfl⟩
  intro peer other
  rw [silence_followedBy]
  exact only_other other _

/-- The sender is gone although the receiver has refused. -/
theorem not_leavesTable_abort :
    ReachableTable flatSettings.library waiting ∧
      ∃ content,
        create flatSettings.library content =
          .ok (createReceiveMessage code) ∧
        ¬ LeavesTable flatSettings true content waiting := by
  rcases abort_becomes with
    ⟨content, error, moment, created, becomes, nothing, erased⟩
  refine ⟨waiting_reachable, content, created, ?_⟩
  intro leaves
  have same := leaves 0 error moment becomes nothing
  have present : code ∈ waiting := (AList.mem_insert _).2 (Or.inl rfl)
  rw [← same, erased, AList.mem_erase] at present
  exact present.1 rfl

theorem failed_leavesBehind_abort :
    ∃ content moment,
      create flatSettings.library content =
        .ok (createReceiveMessage code) ∧
      LeftBehind flatSettings true content waiting moment ∧
      moment = waiting.erase code := by
  rcases abort_becomes with
    ⟨content, error, moment, created, becomes, -, erased⟩
  exact ⟨content, moment.state, created,
    (failed_leavesBehind flatSettings FlatJson.flatLibrary_contract.1
      flatSettings_draws waiting waiting_reachable true 0 content error
      moment becomes).1, erased⟩

end DropFile.Server.FailedHandling
