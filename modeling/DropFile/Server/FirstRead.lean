import DropFile.General.Dialogues
import DropFile.SessionMessages
import DropFile.Server.ServerSideClientSession

/-!
# What leaves `handleFirstRead`

Whatever the clients send and wherever connections get lost, every exception is
caught: the metadata in the table were validated before they got there, and
the rest fails with exceptions of the program or of the connection.
-/

namespace DropFile.Server.FirstRead

open DropFile.General.Dialogues
open DropFile.General.Processes.Process
open DropFile.General.Utf8
open DropFile.Streams
open DropFile.Socket
open DropFile.JsonObjects
open DropFile.InitSessionMessage
open DropFile.SessionMessages
open DropFile.Server.SessionsManager
open DropFile.Server.ServerSideClientSession

variable {Peer : Type}

/-! ## The table -/

/-- Metadata that `create` has let into the table. -/
def Accepted (library : JsonLibrary) (json : Json) : Prop :=
  (∃ text, create library text = .ok json) ∧
    json.find actionKey = some (.string (ascii "send"))

def AllAccepted (library : JsonLibrary)
    (sendersSessions : SendersSessions Peer Json) : Prop :=
  ∀ code session, sendersSessions.lookup code = some session →
    Accepted library session.sessionData

variable {library : JsonLibrary} {table : SendersSessions Peer Json}

theorem allAccepted_empty :
    AllAccepted library (∅ : SendersSessions Peer Json) := by
  intro code session found
  cases found

theorem AllAccepted.erase
    (accepted : AllAccepted library table) (code : SessionCode) :
    AllAccepted library (table.erase code) :=
  fun other session found =>
    accepted other session (lookup_of_erase found).2

theorem AllAccepted.insert
    {code : SessionCode} {session : TimedClientSession Peer Json}
    (accepted : AllAccepted library table)
    (isAccepted : Accepted library session.sessionData) :
    AllAccepted library (table.insert code session) := by
  intro other found isFound
  by_cases same : other = code
  · subst same
    rw [AList.lookup_insert] at isFound
    cases isFound
    exact isAccepted
  · rw [AList.lookup_insert_ne same] at isFound
    exact accepted other found isFound

theorem AllAccepted.terminateTimeoutClients
    (accepted : AllAccepted library table)
    (clientTimeout : Int) (visits : List (SessionCode × Int)) :
    AllAccepted library
      (terminateTimeoutClients clientTimeout visits table) :=
  fun other session found =>
    accepted other session (lookup_of_terminateTimeoutClients found)

theorem allAccepted_of_tryRegister
    {code : SessionCode} {now : Int} {self : Peer} {json : Json}
    {later : SendersSessions Peer Json}
    (accepted : AllAccepted library table)
    (isAccepted : Accepted library json)
    (registers : tryRegister code now self json table = some later) :
    AllAccepted library later := by
  rw [tryRegister] at registers
  split_ifs at registers
  cases registers
  exact accepted.insert isAccepted

/-- The codes are made of words that are valid text. -/
def DrawsCodes (settings : Settings) : Prop :=
  ∀ attempt, ∃ adjective noun number,
    IsUtf8 adjective ∧ IsUtf8 noun ∧ number ≤ 100 ∧
    settings.generateSessionID attempt = sessionID adjective noun number

theorem isUtf8_number :
    ∀ number ≤ 100, IsUtf8 (ascii (toString number)) := by
  decide +kernel

theorem DrawsCodes.isUtf8
    {settings : Settings}
    (draws : DrawsCodes settings) (attempt : Nat) :
    IsUtf8 (settings.generateSessionID attempt) := by
  have dash : IsUtf8 (ascii "-") := by decide +kernel
  rcases draws attempt with
    ⟨adjective, noun, number, isAdjective, isNoun, small, drawn⟩
  rw [drawn]
  exact (((isAdjective.append dash).append isNoun).append dash).append
    (isUtf8_number number small)

/-! ## Handlers that keep the table -/

/-- The exceptions that `handleFirstRead` catches. -/
def Caught (thrown : ExceptionClass) : Prop :=
  thrown.isDropFileBase = true ∨ thrown = .systemError

variable [DecidableEq Peer]

/-- What is thrown is caught, and the table stays what it may be. -/
def Contained {α : Type} (allowed : SendersSessions Peer Json → Prop)
    (process : SessionProcess Peer α)
    (moment : Local Peer (SendersSessions Peer Json)) : Prop :=
  Ensures (fun _ => True) (fun later => allowed later.state)
    (fun _ _ => True) (fun error _ => Caught error.thrown) process moment

variable {α β : Type} {allowed : SendersSessions Peer Json → Prop}
variable {moment : Local Peer (SendersSessions Peer Json)}

theorem Contained.pure
    (holds : allowed moment.state) (value : α) :
    Contained allowed (pure value : SessionProcess Peer α) moment :=
  Ensures.pure holds trivial

theorem Contained.bind
    {process : SessionProcess Peer α}
    {next : α → SessionProcess Peer β}
    (first : Contained allowed process moment)
    (second : ∀ value later, allowed later.state →
      Contained allowed (next value) later) :
    Contained allowed (process >>= next) moment :=
  Ensures.bind first fun value later _ holds _ => second value later holds

theorem contained_send
    (holds : allowed moment.state) (peer : Peer) (data : Bytes) :
    Contained allowed (send peer data) moment :=
  (send_ensures peer data fun _ _ => holds).weaken
    (fun _ _ _ _ _ => trivial)
    (fun _ _ _ _ lost => Or.inr (congrArg Exception.thrown lost.1))

theorem caught_of_notReceived
    {peer : Peer} {error : Exception}
    {later : Local Peer (SendersSessions Peer Json)}
    (notReceived : NotReceived peer moment error later) :
    Caught error.thrown := by
  rcases notReceived with ⟨lost, -⟩ | ⟨header, part, socket, -⟩
  · exact Or.inr (congrArg Exception.thrown lost)
  · left
    rw [socket]
    rfl

theorem contained_receive
    (holds : allowed moment.state) (peer : Peer) :
    Contained allowed (receive peer) moment :=
  (receive_ensures peer (fun _ _ => holds)
    (fun _ _ _ _ _ => holds)).weaken (fun _ _ _ _ _ => trivial)
      (fun _ _ _ _ notReceived => caught_of_notReceived notReceived)

theorem contained_receiveACK
    (holds : allowed moment.state) (peer : Peer) :
    Contained allowed (receiveACK peer) moment := by
  refine (receiveACK_ensures peer (fun _ _ => holds)
    (fun _ _ _ _ _ => holds)).weaken (fun _ _ _ _ _ => trivial) ?_
  rintro error later - - (notReceived | ⟨response, socket, -⟩)
  · exact caught_of_notReceived notReceived
  · left
    rw [socket]
    rfl

theorem contained_relay
    (holds : allowed moment.state)
    (receiver sender : Peer) (expectedBytes fuel total : Nat) :
    Contained allowed (relay receiver sender expectedBytes fuel total)
      moment := by
  refine Ensures.loop (fun _ _ => True) ?_ fuel total holds trivial
  intro fuel current moment _ holds _
  have pass : Contained allowed
      (relayPass receiver sender expectedBytes current) moment := by
    rw [relayPass]
    split_ifs
    · exact (contained_receive holds sender).bind
        fun data later holds =>
          (contained_send holds receiver _).bind
            fun _ later holds => .pure holds _
    · exact .pure holds _
  refine pass.weaken ?_ (fun _ _ _ _ caught => caught)
  rintro (next | result) later - - - <;> trivial

theorem contained_receiveFile
    {settings : Settings} {metadata : Json}
    (contract : settings.library.Utf8Contract)
    (holds : allowed moment.state)
    (isAccepted : Accepted settings.library metadata)
    (receiver sender : Peer) (fuel : Nat) :
    Contained allowed
      (receiveFile settings receiver sender metadata fuel) moment := by
  rcases isAccepted with ⟨⟨text, created⟩, isSend⟩
  rcases create_ok settings.library created with ⟨parsed, message⟩
  rcases contract.dumps (contract.utf8_of_parse parsed) with
    ⟨dumped, isDumped⟩
  rcases message with
    ⟨filename, fileSize, fileHash, isCompressed, fits, members⟩ |
      ⟨code, request⟩
  · have reads := reads_of_isSendMessage settings.library fits members
    rw [receiveFile, isDumped, reads.filename, reads.fileSize]
    refine (contained_send holds receiver dumped).bind ?_
    intro _ later holds
    refine (contained_receiveACK holds receiver).bind ?_
    intro _ later holds
    refine (contained_send holds sender ack).bind ?_
    intro _ later holds
    refine (contained_relay holds receiver sender fileSize fuel 0).bind ?_
    intro _ later holds
    refine (contained_receiveACK holds receiver).bind ?_
    intro _ later holds
    refine (contained_send holds sender ack).bind ?_
    intro _ later holds
    exact .pure holds ()
  · cases request.action.symm.trans isSend

theorem contained_registerSender
    {settings : Settings} {json : Json}
    (accepted : AllAccepted library moment.state)
    (isAccepted : Accepted library json)
    (self : Peer) (fuel : Nat) :
    Ensures (fun _ => True) (fun later => AllAccepted library later.state)
      (fun code _ => ∃ attempt, code = settings.generateSessionID attempt)
      (fun error _ => Caught error.thrown)
      (ofProgram (registerSender settings.generateSessionID settings.now
        self json fuel)) moment := by
  apply Ensures.ofProgram accepted
  refine (registerSender_satisfies settings.generateSessionID settings.now
    self json fuel moment.state).weaken (fun _ start => start) ?_
    (fun _ _ => False.elim)
  rintro code later ⟨drawn, registers⟩
  exact ⟨allAccepted_of_tryRegister accepted isAccepted registers, drawn⟩

theorem contained_getSenderWithMetadata
    (accepted : AllAccepted library moment.state)
    (sessionCode : SessionCode) :
    Ensures (fun _ => True) (fun later => AllAccepted library later.state)
      (fun session _ => Accepted library session.2)
      (fun error _ => Caught error.thrown)
      (ofProgram (getSenderWithMetadata sessionCode) :
        SessionProcess Peer (Peer × Json)) moment := by
  apply Ensures.ofProgram accepted
  rintro _ rfl
  cases found : moment.state.lookup sessionCode with
  | none =>
      rw [getSenderWithMetadata_of_unknown found]
      exact ⟨accepted, Or.inl rfl⟩
  | some entry =>
      rw [getSenderWithMetadata_of_lookup found]
      exact ⟨accepted.erase sessionCode, accepted _ entry found⟩

theorem codeResponse_utf8
    {sessionCode : SessionCode}
    (codeUtf8 : IsUtf8 sessionCode) :
    (codeResponse sessionCode).Utf8 :=
  Json.Utf8.null.assign isUtf8_keys.2.2.2.2.2 (.string codeUtf8)

variable (allowed) in
theorem contained_safeDisconnect
    (holds : allowed moment.state)
    (peer : Peer) (text : Bytes)
    {failing : Exception → Local Peer (SendersSessions Peer Json) → Prop} :
    Ensures (fun _ => True) (fun later => allowed later.state)
      (fun _ _ => True) failing
      (safeDisconnect peer (some text) : SessionProcess Peer Unit)
      moment :=
  safeDisconnect_keeps peer text fun _ _ => holds

variable {settings : Settings}

theorem contained_registerSession
    {json : Json} {text : Bytes}
    (contract : settings.library.Utf8Contract)
    (draws : DrawsCodes settings)
    (accepted : AllAccepted settings.library moment.state)
    (created : create settings.library text = .ok json)
    (self : Peer) (fuel : Nat) :
    Contained (AllAccepted settings.library)
      (registerSession settings self json fuel) moment := by
  rw [registerSession]
  split_ifs
  · rcases (create_ok settings.library created).2 with
      ⟨filename, fileSize, fileHash, isCompressed, fits, members⟩ |
        ⟨code, request⟩
    · rw [index_of_find settings.library members.action]
      refine (contained_registerSender accepted
        ⟨⟨text, created⟩, members.action⟩ self fuel).bind ?_
      rintro _ later - accepted ⟨attempt, rfl⟩
      rcases contract.dumps (codeResponse_utf8 (draws.isUtf8 attempt))
        with ⟨response, dumped⟩
      rw [dumped]
      exact contained_send accepted self response
    · rw [index_of_find settings.library request.action,
        stringAt_of_find request.codeWords]
      refine (contained_getSenderWithMetadata accepted code).bind ?_
      rintro ⟨sender, metadata⟩ later - accepted isAccepted
      exact contained_receiveFile contract accepted isAccepted self sender
        fuel
  · exact contained_safeDisconnect (AllAccepted settings.library) accepted
      self _

/-- The action of a message that was accepted can be read. -/
theorem exists_action
    {library : JsonLibrary} {content : Bytes} {json : Json}
    (created : create library content = .ok json) :
    ∃ value, library.stringAt json actionKey = .ok value := by
  rcases (create_ok library created).2 with
    ⟨_, _, _, _, _, members⟩ | ⟨_, request⟩
  · exact ⟨_, stringAt_of_find members.action⟩
  · exact ⟨_, stringAt_of_find request.action⟩

/-- What one handler ensures whatever the clients do. -/
theorem handleFirstRead_ensures
    (contract : settings.library.Utf8Contract)
    (draws : DrawsCodes settings)
    (accepted : AllAccepted settings.library moment.state)
    (self : Peer) (fuel : Nat) (content : Bytes) :
    Ensures (fun _ => True)
      (fun later => AllAccepted settings.library later.state)
      (fun _ _ => True) (fun _ _ => False)
      (handleFirstRead settings self fuel content) moment := by
  have body : Contained (AllAccepted settings.library)
      (do
        let json ← ofExcept (create settings.library content)
        let _ ← ofExcept (settings.library.stringAt json actionKey)
        registerSession settings self json fuel) moment := by
    cases created : create settings.library content with
    | error error =>
        refine Ensures.raise accepted (Or.inl ?_)
        rw [create_throwsOnly settings.library content error created]
        rfl
    | ok json =>
        rcases exists_action created with ⟨value, read⟩
        show Contained (AllAccepted settings.library) (do
          let _ ← ofExcept (settings.library.stringAt json actionKey)
          registerSession settings self json fuel) moment
        rw [read]
        exact contained_registerSession contract draws accepted created
          self fuel
  refine body.handle ?_
  intro error later _ accepted caught
  rw [catchFirstRead]
  split_ifs with base system
  · exact contained_safeDisconnect (AllAccepted settings.library) accepted
      self _
  · exact Ensures.pure accepted trivial
  · rcases caught with isBase | isSystem
    · exact absurd isBase base
    · exact absurd isSystem system

/-! ## Every table -/

/--
The tables that a server can have, between its handlers and within them: they
change in sweeps and while first messages are handled.
-/
inductive ReachableTable (library : JsonLibrary) :
    SendersSessions Peer Json → Prop where
  | empty : ReachableTable library ∅
  | swept {table : SendersSessions Peer Json}
      (clientTimeout : Int) (visits : List (SessionCode × Int)) :
      ReachableTable library table →
      ReachableTable library
        (terminateTimeoutClients clientTimeout visits table)
  | handled {settings : Settings} {table : SendersSessions Peer Json}
      (self : Peer) (fuel : Nat) (content : Bytes)
      {later : SessionProcess Peer Unit}
      {moment : Local Peer (SendersSessions Peer Json)} :
      settings.library = library →
      DrawsCodes settings →
      ReachableTable library table →
      Becomes (handleFirstRead settings self fuel content)
        ⟨table, silence, silence⟩ later moment →
      ReachableTable library moment.state

theorem ReachableTable.allAccepted
    (contract : library.Utf8Contract)
    (reachable : ReachableTable library table) :
    AllAccepted library table := by
  induction reachable with
  | empty => exact allAccepted_empty
  | swept clientTimeout visits _ inductionHypothesis =>
      exact inductionHypothesis.terminateTimeoutClients clientTimeout visits
  | handled self fuel content sameLibrary draws _ becomes
      inductionHypothesis =>
      subst sameLibrary
      exact ((handleFirstRead_ensures contract draws inductionHypothesis
        self fuel content).of_becomes becomes).now trivial

/--
No exception leaves `handleFirstRead`, for any first message, any table and
any behaviour of the clients.
-/
theorem handleFirstRead_catches
    (settings : Settings)
    (contract : settings.library.Utf8Contract)
    (draws : DrawsCodes settings)
    (table : SendersSessions Peer Json)
    (reachable : ReachableTable settings.library table)
    (self : Peer) (fuel : Nat) (content : Bytes)
    (error : Exception)
    (moment : Local Peer (SendersSessions Peer Json)) :
    ¬ Becomes (handleFirstRead settings self fuel content)
      ⟨table, silence, silence⟩ (.failed error) moment := by
  intro becomes
  have accepted := reachable.allAccepted contract
  exact (((handleFirstRead_ensures contract draws accepted self fuel
    content).of_becomes becomes) trivial).2

/-- Settings with a single code. -/
def flatSettings : Settings where
  library := FlatJson.flatLibrary
  generateSessionID _ := sessionID (ascii "old") (ascii "two") 7
  now := 0
  managerAlive := true

theorem flatSettings_draws : DrawsCodes flatSettings := by
  intro attempt
  exact ⟨ascii "old", ascii "two", 7, by decide +kernel, by decide +kernel,
    by decide, rfl⟩

/-- The first message of a sender. -/
def offering : Bytes :=
  ascii "\x7b\"action\":\"send\",\"file_hash\":\"00\",\"file_size\":1,\"filename\":\"f\",\"is_compressed\":false\x7d"

/-- The first message of a receiver that has its code. -/
def requesting : Bytes :=
  ascii "\x7b\"action\":\"receive\",\"code_words_key\":\"old-two-7\"\x7d"

/-- A sender waits, and the receiver that asks for it answers `abort`. -/
theorem exists_aborted :
    ∃ (table : SendersSessions Bool Json) (later : SessionProcess Bool Unit)
      (moment : Local Bool (SendersSessions Bool Json)),
      ReachableTable flatSettings.library table ∧
      currentSessions table = 1 ∧
      Becomes (handleFirstRead flatSettings true 1 requesting)
        ⟨table, silence, silence⟩ later moment ∧
      moment.sent true = frame offering ++
        frame (responseNotOk (ascii "abort")).message := by
  have runs :
      ((takeTurn false false (handleFirstRead flatSettings false 1 offering)
        ∅ [] (frame (ascii "\x7b\"code_words_key\":\"old-two-7\"\x7d"))).bind
        fun waiting =>
          (takeTurn true true (handleFirstRead flatSettings true 1 requesting)
            waiting.2 (frame (ascii "abort"))
            (frame offering ++
              frame (responseNotOk (ascii "abort")).message)).map
            fun _ => currentSessions waiting.2) = some 1 := by
    decide +kernel
  rcases Option.bind_eq_some_iff.1 runs with
    ⟨⟨registering, table⟩, registers, aborts⟩
  rcases Option.map_eq_some_iff.1 aborts with
    ⟨⟨later, final⟩, refuses, one⟩
  refine ⟨table, later, _, ?_, one,
    .of_plays (plays_of_takeTurn refuses) silence silence, ?_⟩
  · exact .handled false 1 offering rfl flatSettings_draws .empty
      (.of_plays (plays_of_takeTurn registers) silence silence)
  · simp only [silence_followedBy, only_self]

/-- The transfer fails, and the exception is caught. -/
theorem handleFirstRead_catches_abort :
    ∃ (table : SendersSessions Bool Json) (later : SessionProcess Bool Unit)
      (moment : Local Bool (SendersSessions Bool Json)),
      Becomes (handleFirstRead flatSettings true 1 requesting)
        ⟨table, silence, silence⟩ later moment ∧
      moment.sent true = frame offering ++
        frame (responseNotOk (ascii "abort")).message ∧
      ∀ error last,
        ¬ Becomes (handleFirstRead flatSettings true 1 requesting)
          ⟨table, silence, silence⟩ (.failed error) last := by
  rcases exists_aborted with
    ⟨table, later, moment, reachable, -, becomes, sent⟩
  exact ⟨table, later, moment, becomes, sent, fun error last =>
    handleFirstRead_catches flatSettings FlatJson.flatLibrary_contract.1
      flatSettings_draws table reachable true 1 requesting error last⟩

end DropFile.Server.FirstRead
