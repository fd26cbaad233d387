import DropFile.Server.Transfers

/-!
# A server at work

The server handles the first messages of its clients one after another, in
whatever order they have come.  While a first message comes in, nothing else is
exchanged with its client, so its bytes count as read right before its handler
runs.  The sweeps of the other thread touch nothing but the table, which a
handler uses once, so a sweep during a handler counts as one before or after
it.

At every moment, and whatever the clients do, every client is one of the two
parties of a single transfer, or it was sent nothing but an answer of its own.
-/

namespace DropFile.Server.Serving

open DropFile.General.Processes.Process
open DropFile.Streams
open DropFile.Socket
open DropFile.JsonObjects
open DropFile.InitSessionMessage
open DropFile.SessionMessages
open DropFile.Server.SessionsManager
open DropFile.Server.ServerSideClientSession
open DropFile.Server.FirstRead
open DropFile.Server.Transfers

variable {Peer : Type}

/-! ## The server -/

/-- The handling of a client, after a sweep. -/
structure Visit (Peer : Type) where
  client : Peer
  settings : Settings
  fuel : Nat
  clientTimeout : Int
  sweep : List (SessionCode × Int)

/-- The handlers of a server, one after another. -/
def serve : List (Visit Peer) → SessionProcess Peer Unit
  | [] => pure ()
  | visit :: rest => do
      modifyState (terminateTimeoutClients visit.clientTimeout visit.sweep)
      start visit.settings visit.client visit.fuel
      serve rest

variable {library : JsonLibrary} {codes : SessionCode → Prop}

/--
The messages for a client that do not depend on other clients; `received` is
what has come from it.
-/
inductive OwnAnswer (library : JsonLibrary) (codes : SessionCode → Prop)
    (received : Bytes) : Bytes → Prop where
  | unavailable : OwnAnswer library codes received (ascii "Internal error")
  | tooLarge {messageSize : Nat} :
      messageSize < sizeModulus →
      OwnAnswer library codes received
        (tooLargeText messageSize maxFirstMessageSize)
  | refused {message : Bytes} {error : Exception} :
      create library message = .error error →
      message.length ≤ maxFirstMessageSize →
      frame message <+: received →
      OwnAnswer library codes received error.message
  | unknown :
      OwnAnswer library codes received
        (sessionsManagerException "Unknown session code.").message
  | registered {code : SessionCode} {answer : Bytes} :
      codes code →
      library.dump (codeResponse code) = .ok answer →
      OwnAnswer library codes received answer

/-! ## The invariant -/

def partiesOf (transfers : List (Transfer library codes Peer)) :
    List Peer :=
  transfers.flatMap Transfer.parties

theorem parties_subset
    {transfers : List (Transfer library codes Peer)}
    {transfer : Transfer library codes Peer}
    (isTransfer : transfer ∈ transfers)
    {peer : Peer}
    (isParty : peer ∈ transfer.parties) :
    peer ∈ partiesOf transfers :=
  List.mem_flatMap.2 ⟨transfer, isTransfer, isParty⟩

/-- Nobody is a party of two transfers. -/
theorem eq_of_common_party
    {transfers : List (Transfer library codes Peer)}
    (apart : (partiesOf transfers).Nodup)
    {first second : Transfer library codes Peer}
    (isFirst : first ∈ transfers)
    (isSecond : second ∈ transfers)
    {peer : Peer}
    (ofFirst : peer ∈ first.parties)
    (ofSecond : peer ∈ second.parties) :
    first = second := by
  induction transfers with
  | nil => cases isFirst
  | cons transfer rest inductionHypothesis =>
      have split : (transfer.parties ++ partiesOf rest).Nodup := apart
      rw [List.nodup_append] at split
      rcases List.mem_cons.1 isFirst with rfl | firstInRest
      · rcases List.mem_cons.1 isSecond with rfl | secondInRest
        · rfl
        · exact absurd rfl (split.2.2 peer ofFirst peer
            (parties_subset secondInRest ofSecond))
      · rcases List.mem_cons.1 isSecond with rfl | secondInRest
        · exact absurd rfl (split.2.2 peer ofSecond peer
            (parties_subset firstInRest ofFirst))
        · exact inductionHypothesis split.2.1 firstInRest secondInRest

/-- A registered sender has got a part of its answer. -/
structure Waits (registration : Registration library codes Peer)
    (code : SessionCode) (session : TimedClientSession Peer Json)
    (moment : Moment Peer) : Prop where
  client : session.clientSession = registration.client
  code : code = registration.code
  json : session.sessionData = registration.json
  received : moment.received registration.client =
    frame registration.message
  sent : moment.sent registration.client <+:
    frames (chunks registration.answer)

/-- What the server has done for the clients it has visited. -/
structure Consistent (visited : List Peer)
    (transfers : List (Transfer library codes Peer))
    (moment : Moment Peer) : Prop where
  untouched : ∀ peer, peer ∉ visited →
    moment.received peer = [] ∧ moment.sent peer = []
  /-- Nobody has a part in two transfers. -/
  apart : (partiesOf transfers).Nodup
  proceeds : ∀ transfer ∈ transfers, Proceeds transfer moment
  waiting : ∀ code session, moment.state.lookup code = some session →
    session.clientSession ∉ partiesOf transfers ∧
      ∃ registration : Registration library codes Peer,
        Waits registration code session moment
  distinct : ∀ code other session otherSession,
    moment.state.lookup code = some session →
    moment.state.lookup other = some otherSession →
    session.clientSession = otherSession.clientSession → code = other
  others : ∀ peer, peer ∉ partiesOf transfers →
    ∃ answer, OwnAnswer library codes (moment.received peer) answer ∧
      moment.sent peer <+: frames (chunks answer)

variable (library codes) in
def Safe (visited : List Peer) (moment : Moment Peer) : Prop :=
  ∃ transfers : List (Transfer library codes Peer),
    Consistent visited transfers moment

variable {visited : List Peer} {moment later : Moment Peer}
variable {transfers : List (Transfer library codes Peer)}

theorem consistent_start :
    Consistent [] ([] : List (Transfer library codes Peer))
      ⟨∅, silence, silence⟩ where
  untouched _ _ := ⟨rfl, rfl⟩
  apart := List.nodup_nil
  proceeds _ impossible := by cases impossible
  waiting _ _ found := by cases found
  distinct _ _ _ _ found := by cases found
  others _ _ := ⟨_, .unavailable, List.nil_prefix⟩

theorem Consistent.more
    (consistent : Consistent visited transfers moment) (peer : Peer) :
    Consistent (peer :: visited) transfers moment :=
  { consistent with
    untouched := fun other notVisited =>
      consistent.untouched other fun isVisited =>
        notVisited (List.mem_cons_of_mem _ isVisited) }

theorem frame_ne_nil (content : Bytes) : frame content ≠ [] := by
  intro empty
  have lengths := congrArg List.length empty
  rw [frame, List.length_append, sizeBytes_length] at lengths
  simp at lengths

/-- A client from which nothing has come has no part in anything. -/
structure Fresh (client : Peer)
    (transfers : List (Transfer library codes Peer))
    (moment : Moment Peer) : Prop where
  noParty : client ∉ partiesOf transfers
  notWaiting : ∀ code session, moment.state.lookup code = some session →
    session.clientSession ≠ client

theorem Consistent.fresh
    {self : Peer}
    (consistent : Consistent visited transfers moment)
    (notVisited : self ∉ visited) :
    Fresh self transfers moment := by
  have silent := (consistent.untouched self notVisited).1
  constructor
  · intro isParty
    rcases List.mem_flatMap.1 isParty with
      ⟨transfer, isTransfer, isParty⟩
    have proceeds := consistent.proceeds transfer isTransfer
    rcases List.mem_pair.1 isParty with rfl | rfl
    · have announced := proceeds.announced
      rw [silent, List.prefix_nil] at announced
      exact frame_ne_nil _ announced
    · have requested := proceeds.requested
      rw [silent, List.prefix_nil] at requested
      exact frame_ne_nil _ requested
  · rintro code session found rfl
    rcases (consistent.waiting code session found).2 with
      ⟨registration, waits⟩
    have received := waits.received
    rw [← waits.client, silent] at received
    exact frame_ne_nil _ received.symm

/-! ## What happens to others -/

theorem Waits.congr
    {registration : Registration library codes Peer} {code : SessionCode}
    {session : TimedClientSession Peer Json}
    (waits : Waits registration code session moment)
    (same : SameAt registration.client moment later) :
    Waits registration code session later :=
  { waits with
    received := same.1.trans waits.received
    sent := same.2.symm ▸ waits.sent }

theorem Consistent.untouched_elsewhere
    {self : Peer}
    (consistent : Consistent visited transfers moment)
    (isVisited : self ∈ visited)
    (elsewhere : ∀ peer, peer ≠ self → SameAt peer moment later) :
    ∀ peer, peer ∉ visited →
      later.received peer = [] ∧ later.sent peer = [] := by
  intro peer notVisited
  have different : peer ≠ self := by
    rintro rfl
    exact notVisited isVisited
  rw [(elsewhere peer different).1, (elsewhere peer different).2]
  exact consistent.untouched peer notVisited

/-- The transfers do not involve the client that is visited. -/
theorem Consistent.proceeds_elsewhere
    {self : Peer}
    (consistent : Consistent visited transfers moment)
    (fresh : Fresh self transfers moment)
    (elsewhere : ∀ peer, peer ≠ self → SameAt peer moment later) :
    ∀ transfer ∈ transfers, Proceeds transfer later := by
  intro transfer isTransfer
  have different {peer : Peer} (isParty : peer ∈ transfer.parties) :
      peer ≠ self := by
    rintro rfl
    exact fresh.noParty (parties_subset isTransfer isParty)
  apply (consistent.proceeds transfer isTransfer).congr
  · exact elsewhere _ (different (List.mem_cons_self ..))
  · exact elsewhere _ (different (List.mem_cons_of_mem _
      (List.mem_singleton_self _)))

/-- The client that is visited has got an answer of its own. -/
theorem Consistent.of_own
    {self : Peer}
    (consistent : Consistent visited transfers moment)
    (isVisited : self ∈ visited)
    (fresh : Fresh self transfers moment)
    (sameState : later.state = moment.state)
    (elsewhere : ∀ peer, peer ≠ self → SameAt peer moment later)
    (own : ∃ answer,
      OwnAnswer library codes (later.received self) answer ∧
      later.sent self <+: frames (chunks answer)) :
    Consistent visited transfers later where
  untouched := consistent.untouched_elsewhere isVisited elsewhere
  apart := consistent.apart
  proceeds := consistent.proceeds_elsewhere fresh elsewhere
  waiting code session found := by
    rw [sameState] at found
    rcases consistent.waiting code session found with
      ⟨noParty, registration, waits⟩
    refine ⟨noParty, registration, waits.congr (elsewhere _ ?_)⟩
    rw [← waits.client]
    exact fresh.notWaiting code session found
  distinct code other session otherSession found otherFound same := by
    rw [sameState] at found otherFound
    exact consistent.distinct code other session otherSession found
      otherFound same
  others peer noParty := by
    by_cases same : peer = self
    · subst same
      exact own
    · rw [(elsewhere peer same).1, (elsewhere peer same).2]
      exact consistent.others peer noParty

/-- A sweep only makes the table smaller. -/
theorem Consistent.of_fewer
    (consistent : Consistent visited transfers moment)
    (sameTraffic : ∀ peer, SameAt peer moment later)
    (fewer : ∀ code session, later.state.lookup code = some session →
      moment.state.lookup code = some session) :
    Consistent visited transfers later where
  untouched peer notVisited := by
    rw [(sameTraffic peer).1, (sameTraffic peer).2]
    exact consistent.untouched peer notVisited
  apart := consistent.apart
  proceeds transfer isTransfer :=
    (consistent.proceeds transfer isTransfer).congr (sameTraffic _)
      (sameTraffic _)
  waiting code session found := by
    rcases consistent.waiting code session (fewer code session found) with
      ⟨noParty, registration, waits⟩
    exact ⟨noParty, registration, waits.congr (sameTraffic _)⟩
  distinct code other session otherSession found otherFound same :=
    consistent.distinct code other session otherSession
      (fewer code session found) (fewer other otherSession otherFound) same
  others peer noParty := by
    rw [(sameTraffic peer).1, (sameTraffic peer).2]
    exact consistent.others peer noParty

/-- The client that is visited has been registered. -/
theorem Consistent.of_registration
    {registration : Registration library codes Peer}
    {session : TimedClientSession Peer Json}
    (consistent : Consistent visited transfers moment)
    (isVisited : registration.client ∈ visited)
    (fresh : Fresh registration.client transfers moment)
    (laterState :
      later.state = moment.state.insert registration.code session)
    (elsewhere : ∀ peer, peer ≠ registration.client →
      SameAt peer moment later)
    (waits : Waits registration registration.code session later) :
    Consistent visited transfers later where
  untouched := consistent.untouched_elsewhere isVisited elsewhere
  apart := consistent.apart
  proceeds := consistent.proceeds_elsewhere fresh elsewhere
  waiting code found isFound := by
    rw [laterState] at isFound
    by_cases same : code = registration.code
    · subst same
      rw [AList.lookup_insert] at isFound
      cases isFound
      constructor
      · rw [waits.client]
        exact fresh.noParty
      · exact ⟨registration, waits⟩
    · rw [AList.lookup_insert_ne same] at isFound
      rcases consistent.waiting code found isFound with
        ⟨noParty, other, waiting⟩
      refine ⟨noParty, other, waiting.congr (elsewhere _ ?_)⟩
      rw [← waiting.client]
      exact fresh.notWaiting code found isFound
  distinct code other found otherFound isFound otherIsFound sameClient := by
    rw [laterState] at isFound otherIsFound
    by_cases same : code = registration.code
    · by_cases otherSame : other = registration.code
      · rw [same, otherSame]
      · rw [AList.lookup_insert_ne otherSame] at otherIsFound
        rw [same, AList.lookup_insert] at isFound
        cases isFound
        exact absurd (sameClient.symm.trans waits.client)
          (fresh.notWaiting other otherFound otherIsFound)
    · rw [AList.lookup_insert_ne same] at isFound
      by_cases otherSame : other = registration.code
      · rw [otherSame, AList.lookup_insert] at otherIsFound
        cases otherIsFound
        exact absurd (sameClient.trans waits.client)
          (fresh.notWaiting code found isFound)
      · rw [AList.lookup_insert_ne otherSame] at otherIsFound
        exact consistent.distinct code other found otherFound isFound
          otherIsFound sameClient
  others peer noParty := by
    by_cases same : peer = registration.client
    · subst same
      exact ⟨registration.answer,
        .registered registration.drawn registration.answered, waits.sent⟩
    · rw [(elsewhere peer same).1, (elsewhere peer same).2]
      exact consistent.others peer noParty

/-- The client that is visited has asked for the file of a sender. -/
theorem Consistent.of_request
    {transfer : Transfer library codes Peer}
    {session : TimedClientSession Peer Json}
    (consistent : Consistent visited transfers moment)
    (isVisited : transfer.receiver ∈ visited)
    (fresh : Fresh transfer.receiver transfers moment)
    (found : moment.state.lookup transfer.sender.code = some session)
    (waits : Waits transfer.sender transfer.sender.code session moment)
    (laterState :
      later.state = moment.state.erase transfer.sender.code)
    (sameTraffic : ∀ peer, SameAt peer moment later)
    (proceeds : Proceeds transfer later) :
    Consistent visited (transfer :: transfers) later where
  untouched peer notVisited := by
    rw [(sameTraffic peer).1, (sameTraffic peer).2]
    exact consistent.untouched peer notVisited
  apart := by
    have noParty := (consistent.waiting _ session found).1
    rw [waits.client] at noParty
    show (transfer.sender.client :: transfer.receiver ::
      partiesOf transfers).Nodup
    rw [List.nodup_cons, List.nodup_cons]
    refine ⟨?_, fresh.noParty, consistent.apart⟩
    intro isParty
    rcases List.mem_cons.1 isParty with same | isParty
    · exact transfer.apart same
    · exact noParty isParty
  proceeds other isTransfer := by
    rcases List.mem_cons.1 isTransfer with rfl | isTransfer
    · exact proceeds
    · exact (consistent.proceeds other isTransfer).congr (sameTraffic _)
        (sameTraffic _)
  waiting code other isFound := by
    rw [laterState] at isFound
    rcases lookup_of_erase isFound with ⟨different, wasFound⟩
    rcases consistent.waiting code other wasFound with
      ⟨noParty, registration, waiting⟩
    refine ⟨?_, registration, waiting.congr (sameTraffic _)⟩
    intro isParty
    rcases List.mem_append.1 isParty with isParty | isParty
    · rcases List.mem_pair.1 isParty with same | same
      · apply different
        apply consistent.distinct code _ other session wasFound found
        rw [same, waits.client]
      · exact fresh.notWaiting code other wasFound same
    · exact noParty isParty
  distinct code other first second isFound otherIsFound sameClient := by
    rw [laterState] at isFound otherIsFound
    exact consistent.distinct code other first second
      (lookup_of_erase isFound).2 (lookup_of_erase otherIsFound).2
      sameClient
  others peer noParty := by
    rw [(sameTraffic peer).1, (sameTraffic peer).2]
    apply consistent.others peer
    intro isParty
    exact noParty (List.mem_append_right _ isParty)

/-- While the visit of a receiver lasts. -/
theorem Consistent.of_within
    {transfer : Transfer library codes Peer}
    (consistent : Consistent visited (transfer :: transfers) moment)
    (within : Within transfer moment later) :
    Consistent visited (transfer :: transfers) later := by
  rcases within.position with ⟨got, fetched, gave, told, position⟩
  have apart := List.nodup_append.1 consistent.apart
  have elsewhere {peer : Peer} (other : peer ∉ transfer.parties) :
      SameAt peer moment later :=
    position.elsewhere peer other
  have notParty {peer : Peer}
      (other : peer ∉ partiesOf (transfer :: transfers)) :
      peer ∉ transfer.parties :=
    fun isParty => other (List.mem_append_left _ isParty)
  constructor
  · intro peer notVisited
    have noParty := (consistent.fresh notVisited).noParty
    rw [(elsewhere (notParty noParty)).1, (elsewhere (notParty noParty)).2]
    exact consistent.untouched peer notVisited
  · exact consistent.apart
  · intro other isTransfer
    rcases List.mem_cons.1 isTransfer with rfl | isOther
    · exact within.proceeds
    · have different {peer : Peer} (isParty : peer ∈ other.parties) :
          peer ∉ transfer.parties :=
        fun alsoParty => apart.2.2 peer alsoParty peer
          (parties_subset isOther isParty) rfl
      apply (consistent.proceeds other isTransfer).congr
      · exact elsewhere (different (List.mem_cons_self ..))
      · exact elsewhere (different (List.mem_cons_of_mem _
          (List.mem_singleton_self _)))
  · intro code session found
    rw [position.state] at found
    rcases consistent.waiting code session found with
      ⟨noParty, registration, waits⟩
    refine ⟨noParty, registration, waits.congr (elsewhere (notParty ?_))⟩
    rw [← waits.client]
    exact noParty
  · intro code other first second found otherFound
    rw [position.state] at found otherFound
    exact consistent.distinct code other first second found otherFound
  · intro peer noParty
    rw [(elsewhere (notParty noParty)).1, (elsewhere (notParty noParty)).2]
    exact consistent.others peer noParty

/-! ## One visit -/

section Visits

variable [DecidableEq Peer]
variable {self : Peer} {content : Bytes} {settings : Settings}

/-- The first message of a client has come, and it got no answer yet. -/
structure Met (visited : List Peer)
    (transfers : List (Transfer library codes Peer))
    (client : Peer) (content : Bytes) (moment : Moment Peer) : Prop where
  consistent : Consistent visited transfers moment
  isVisited : client ∈ visited
  fresh : Fresh client transfers moment
  received : moment.received client = frame content
  silent : moment.sent client = []
  fits : content.length ≤ maxFirstMessageSize

/-- If the exception is caught, its text can be sent to the client. -/
def Repliable (library : JsonLibrary) (codes : SessionCode → Prop)
    (visited : List Peer) (client : Peer) (error : Exception)
    (moment : Moment Peer) : Prop :=
  error.thrown.isDropFileBase = true →
    ∀ part, part <+: frames (chunks error.message) →
      Safe library codes visited (moment.sends client part)

theorem Met.safe_sends
    {answer part : Bytes}
    (met : Met visited transfers self content moment)
    (own : OwnAnswer library codes (frame content) answer)
    (isPart : part <+: frames (chunks answer)) :
    Safe library codes visited (moment.sends self part) := by
  refine ⟨transfers, met.consistent.of_own met.isVisited met.fresh rfl ?_
    ⟨answer, ?_, ?_⟩⟩
  · intro peer different
    exact ⟨rfl, Local.sent_sends_other different part moment⟩
  · rw [← met.received] at own
    exact own
  · rw [Local.sent_sends_self, met.silent]
    exact isPart

omit [DecidableEq Peer] in
theorem Met.safe
    (met : Met visited transfers self content moment) :
    Safe library codes visited moment :=
  ⟨transfers, met.consistent⟩

theorem repliable_of_systemError
    {error : Exception}
    (isSystemError : error = systemError) :
    Repliable library codes visited self error moment := by
  intro isBase
  rw [isSystemError] at isBase
  cases isBase

/-- The visit of a sender. -/
theorem register_safe
    {json : Json}
    (sameLibrary : settings.library = library)
    (contract : library.Utf8Contract)
    (draws : DrawsCodes settings)
    (inCodes : ∀ attempt, codes (settings.generateSessionID attempt))
    (met : Met visited transfers self content moment)
    (created : create library content = .ok json)
    (isSend : json.find actionKey = some (.string (ascii "send")))
    (fuel : Nat) :
    Ensures (fun _ => True) (Safe library codes visited) (fun _ _ => True)
      (Repliable library codes visited self)
      (do
        let sessionCode ←
          ofProgram (registerSender settings.generateSessionID settings.now
            self json fuel)
        let response ←
          ofExcept (orJsonException
            (settings.library.dump (codeResponse sessionCode)))
        send self response : SessionProcess Peer Unit) moment := by
  subst sameLibrary
  have dumps := contract.dumps
    (contract.utf8_of_parse (create_ok settings.library created).1)
  rcases dumps with ⟨metadata, dumped⟩
  -- the table after the registration, and a part of the answer
  have registered {attempt : Nat} {answer part : Bytes}
      {later : SendersSessions Peer Json}
      (registers : tryRegister (settings.generateSessionID attempt)
        settings.now self json moment.state = some later)
      (answered : settings.library.dump (codeResponse
        (settings.generateSessionID attempt)) = .ok answer)
      (isPart : part <+: frames (chunks answer)) :
      Safe settings.library codes visited
        (Local.sends self part { moment with state := later }) := by
    let registration : Registration settings.library codes Peer :=
      { client := self
        code := settings.generateSessionID attempt
        message := content
        json := json
        metadata := metadata
        answer := answer
        drawn := inCodes attempt
        fits := met.fits
        created := created
        isSend := isSend
        dumped := dumped
        answered := answered }
    rw [tryRegister] at registers
    split_ifs at registers
    cases registers
    have waits : Waits registration registration.code
        ⟨self, json, settings.now⟩
        (Local.sends self part { moment with
          state := moment.state.insert registration.code
            ⟨self, json, settings.now⟩ }) := by
      constructor
      · rfl
      · rfl
      · rfl
      · exact met.received
      · rw [Local.sent_sends_self]
        show moment.sent self ++ part <+: frames (chunks answer)
        rw [met.silent]
        exact isPart
    exact ⟨transfers, met.consistent.of_registration met.isVisited
      met.fresh rfl
      (fun peer different =>
        ⟨rfl, Local.sent_sends_other different part _⟩) waits⟩
  have registration : Ensures (fun _ => True)
      (Safe settings.library codes visited)
      (fun code later => ∃ attempt table,
        code = settings.generateSessionID attempt ∧
        later = { moment with state := table } ∧
        tryRegister code settings.now self json moment.state = some table)
      (Repliable settings.library codes visited self)
      (ofProgram (registerSender settings.generateSessionID settings.now
        self json fuel)) moment := by
    apply Ensures.ofProgram met.safe
    apply (registerSender_satisfies settings.generateSessionID settings.now
      self json fuel moment.state).weaken (fun _ start => start) _
      (fun _ _ => False.elim)
    rintro code table ⟨⟨attempt, rfl⟩, registers⟩
    rcases contract.dumps (codeResponse_utf8 (draws.isUtf8 attempt)) with
      ⟨answer, answered⟩
    have safe := registered registers answered List.nil_prefix
    rw [Local.sends_nil] at safe
    exact ⟨safe, attempt, table, rfl, rfl, registers⟩
  apply registration.bind
  rintro _ _ - - ⟨attempt, table, rfl, rfl, registers⟩
  rcases contract.dumps (codeResponse_utf8 (draws.isUtf8 attempt)) with
    ⟨answer, answered⟩
  rw [answered]
  show Ensures _ _ _ _ (send self answer) _
  apply (send_ensures self answer _).weaken
  · intro _ _ _ _ _
    trivial
  · rintro error later - - ⟨lost, -⟩
    exact repliable_of_systemError lost
  · intro part isPart
    exact registered registers answered isPart

/-- The visit of a receiver. -/
theorem request_safe
    {json : Json} {code : SessionCode}
    (sameLibrary : settings.library = library)
    (met : Met visited transfers self content moment)
    (created : create library content = .ok json)
    (request : IsReceiveMessage json code)
    (fuel : Nat) :
    Ensures (fun _ => True) (Safe library codes visited) (fun _ _ => True)
      (Repliable library codes visited self)
      (do
        let (sender, sessionMetadata) ←
          ofProgram (getSenderWithMetadata code)
        receiveFile settings self sender sessionMetadata fuel :
          SessionProcess Peer Unit) moment := by
  cases found : moment.state.lookup code with
  | none =>
      have unknown : Ensures (fun _ => True)
          (Safe library codes visited) (fun _ _ => False)
          (Repliable library codes visited self)
          (ofProgram (getSenderWithMetadata code) :
            SessionProcess Peer (Peer × Json)) moment := by
        apply Ensures.ofProgram met.safe
        rintro _ rfl
        rw [getSenderWithMetadata_of_unknown found]
        exact ⟨met.safe, fun _ part isPart =>
          met.safe_sends .unknown isPart⟩
      exact unknown.bind fun _ _ _ _ => False.elim
  | some session =>
      rcases (met.consistent.waiting code session found).2 with
        ⟨registration, waits⟩
      cases waits.code
      let transfer : Transfer library codes Peer :=
        { sender := registration
          receiver := self
          request := content
          fits := met.fits
          requested := ⟨json, created, request⟩
          apart := by
            rw [← waits.client]
            exact met.fresh.notWaiting _ session found }
      let begun : Moment Peer :=
        { moment with state := moment.state.erase registration.code }
      have position : At transfer begun [] [] [] [] begun := by
        constructor
        · rfl
        · intro peer _
          exact ⟨rfl, rfl⟩
        · rw [List.append_nil]
          exact met.received
        · rw [List.append_nil]
          exact waits.received
        · exact met.silent
        · refine ⟨moment.sent registration.client, waits.sent, ?_⟩
          rw [List.append_nil]
      have within : Within transfer begun begun :=
        position.offered ⟨[], .nothing, List.nil_prefix⟩
      have consistent : Consistent visited (transfer :: transfers) begun :=
        met.consistent.of_request met.isVisited met.fresh found waits rfl
          (fun _ => ⟨rfl, rfl⟩) within.proceeds
      have extracted : Ensures (fun _ => True) (Safe library codes visited)
          (fun result later => result = (registration.client,
            registration.json) ∧ later = begun)
          (Repliable library codes visited self)
          (ofProgram (getSenderWithMetadata registration.code) :
            SessionProcess Peer (Peer × Json)) moment := by
        apply Ensures.ofProgram met.safe
        rintro _ rfl
        rw [getSenderWithMetadata_of_lookup found, waits.client, waits.json]
        exact ⟨⟨_, consistent⟩, rfl, rfl⟩
      apply extracted.bind
      rintro _ _ - - ⟨rfl, rfl⟩
      apply ((receiveFile_within sameLibrary fuel position).weakenAlways
        fun later within => ?_).weaken
      · intro _ _ _ _ _
        trivial
      · intro error later _ _ answerable isBase part isPart
        exact ⟨_, consistent.of_within (answerable isBase part isPart)⟩
      · exact ⟨_, consistent.of_within within⟩

theorem registerSession_safe
    {json : Json}
    (sameLibrary : settings.library = library)
    (contract : library.Utf8Contract)
    (draws : DrawsCodes settings)
    (inCodes : ∀ attempt, codes (settings.generateSessionID attempt))
    (met : Met visited transfers self content moment)
    (created : create library content = .ok json)
    (fuel : Nat) :
    Ensures (fun _ => True) (Safe library codes visited) (fun _ _ => True)
      (Repliable library codes visited self)
      (registerSession settings self json fuel) moment := by
  rw [registerSession]
  split_ifs
  · rcases (create_ok library created).2 with
      ⟨filename, fileSize, fileHash, isCompressed, fits, members⟩ |
        ⟨code, request⟩
    · rw [index_of_find settings.library members.action]
      exact register_safe sameLibrary contract draws inCodes met created
        members.action fuel
    · rw [index_of_find settings.library request.action,
        stringAt_of_find request.codeWords]
      exact request_safe sameLibrary met created request fuel
  · apply safeDisconnect_keeps
    intro part isPart
    exact met.safe_sends .unavailable isPart

theorem handleFirstRead_safe
    (sameLibrary : settings.library = library)
    (contract : library.Utf8Contract)
    (draws : DrawsCodes settings)
    (inCodes : ∀ attempt, codes (settings.generateSessionID attempt))
    (met : Met visited transfers self content moment)
    (fuel : Nat) :
    Ensures (fun _ => True) (Safe library codes visited) (fun _ _ => True)
      (fun _ _ => True) (handleFirstRead settings self fuel content)
      moment := by
  have body : Ensures (fun _ => True) (Safe library codes visited)
      (fun _ _ => True) (Repliable library codes visited self)
      (do
        let json ← ofExcept (create settings.library content)
        let _ ← ofExcept (settings.library.stringAt json actionKey)
        registerSession settings self json fuel) moment := by
    apply Ensures.ofExcept_bind met.safe
    · intro json created
      rw [sameLibrary] at created
      apply Ensures.ofExcept_bind met.safe
      · intro _ _
        exact registerSession_safe sameLibrary contract draws inCodes met
          created fuel
      · intro error missing
        rcases exists_action created with ⟨_, read⟩
        rw [sameLibrary, read] at missing
        cases missing
    · intro error fails isBase part isPart
      rw [sameLibrary] at fails
      exact met.safe_sends (.refused fails met.fits List.prefix_rfl) isPart
  apply body.handle
  intro error later _ safe repliable
  rw [catchFirstRead]
  split_ifs with isBase
  · apply safeDisconnect_keeps
    exact repliable isBase
  · exact .pure safe trivial
  · exact .raise safe trivial

/-- A client from which nothing has come yet. -/
theorem start_safe
    (sameLibrary : settings.library = library)
    (contract : library.Utf8Contract)
    (draws : DrawsCodes settings)
    (inCodes : ∀ attempt, codes (settings.generateSessionID attempt))
    (safe : Safe library codes visited moment)
    (notVisited : self ∉ visited)
    (fuel : Nat) :
    Ensures (fun _ => True) (Safe library codes (self :: visited))
      (fun _ _ => True) (fun _ _ => True) (start settings self fuel)
      moment := by
  rcases safe with ⟨transfers, consistent⟩
  have fresh := consistent.fresh notVisited
  have silent := consistent.untouched self notVisited
  have isVisited : self ∈ self :: visited := List.mem_cons_self ..
  have hears {answer : Bytes} (bytes part : Bytes)
      (own : OwnAnswer library codes bytes answer)
      (isPart : part <+: frames (chunks answer)) :
      Consistent (self :: visited) transfers
        ((moment.receives self bytes).sends self part) := by
    apply @Consistent.of_own _ _ _ _ _ _ _ self (consistent.more self)
      isVisited fresh
    · rfl
    · intro peer different
      exact ⟨Local.received_receives_other different bytes moment,
        Local.sent_sends_other different part _⟩
    · refine ⟨answer, ?_, ?_⟩
      · show OwnAnswer library codes
          ((moment.receives self bytes).received self) answer
        rw [Local.received_receives_self, silent.1]
        exact own
      · rw [Local.sent_sends_self]
        show moment.sent self ++ part <+: frames (chunks answer)
        rw [silent.2]
        exact isPart
  have arrives (bytes : Bytes) : Consistent (self :: visited) transfers
      (moment.receives self bytes) := by
    have quiet := hears bytes [] .unavailable List.nil_prefix
    rwa [Local.sends_nil] at quiet
  apply asyncReadMessage_ensures self (by decide)
  · intro part
    exact ⟨transfers, arrives part⟩
  · intro header part length isPart
    exact ⟨transfers, hears header part (.tooLarge (sizeOfBytes_lt length))
      isPart⟩
  · intro message fits
    apply handleFirstRead_safe sameLibrary contract draws inCodes
    constructor
    · exact arrives (frame message)
    · exact isVisited
    · exact ⟨fresh.noParty, fresh.notWaiting⟩
    · rw [Local.received_receives_self, silent.1]
      rfl
    · exact silent.2
    · exact fits

end Visits

/-! ## Every run -/

/-- What a server does, whatever its clients do. -/
theorem serve_safe
    [DecidableEq Peer]
    (contract : library.Utf8Contract)
    (visits : List (Visit Peer))
    (sameLibrary : ∀ visit ∈ visits, visit.settings.library = library)
    (draws : ∀ visit ∈ visits, DrawsCodes visit.settings)
    (inCodes : ∀ visit ∈ visits, ∀ attempt,
      codes (visit.settings.generateSessionID attempt))
    (apart : (visits.map Visit.client).Nodup)
    (notVisited : ∀ visit ∈ visits, visit.client ∉ visited)
    (safe : Safe library codes visited moment) :
    Ensures (fun _ => True) (fun later => ∃ everybody,
        Safe library codes everybody later) (fun _ _ => True)
      (fun _ _ => True) (serve visits) moment := by
  induction visits generalizing visited moment with
  | nil => exact .pure ⟨visited, safe⟩ trivial
  | cons visit rest inductionHypothesis =>
      rw [List.map_cons, List.nodup_cons] at apart
      rw [serve]
      apply Ensures.modifyState_bind ⟨visited, safe⟩
      have swept : Safe library codes visited (moment.change
          (terminateTimeoutClients visit.clientTimeout visit.sweep)) := by
        rcases safe with ⟨transfers, consistent⟩
        refine ⟨transfers, consistent.of_fewer (fun _ => ⟨rfl, rfl⟩) ?_⟩
        intro code session found
        exact lookup_of_terminateTimeoutClients found
      have isVisit : visit ∈ visit :: rest := List.mem_cons_self ..
      have first := (start_safe (sameLibrary visit isVisit) contract
        (draws visit isVisit) (inCodes visit isVisit) swept
        (notVisited visit isVisit) visit.fuel).weaken
          (fun _ _ _ later _ => later) (fun _ _ _ _ failed => failed)
      have isRest {other : Visit Peer} (member : other ∈ rest) :
          other ∈ visit :: rest :=
        List.mem_cons_of_mem _ member
      apply (first.weakenAlways fun later safe =>
        ⟨visit.client :: visited, safe⟩).bind
      intro _ later _ _ safe
      apply inductionHypothesis
      · exact fun other member => sameLibrary other (isRest member)
      · exact fun other member => draws other (isRest member)
      · exact fun other member => inCodes other (isRest member)
      · exact apart.2
      · intro other member isVisited
        rcases List.mem_cons.1 isVisited with same | wasVisited
        · exact apart.1 (List.mem_map.2 ⟨other, member, same⟩)
        · exact notVisited other (isRest member) wasVisited
      · exact safe

end DropFile.Server.Serving
