import DropFile.General.Dialogues
import DropFile.General.Interference
import DropFile.Server.EventLoopSafety

/-!
# The thread that sweeps

`connections_controller` sweeps in a thread of its own, so a sweep can come
between any two steps of the event loop, also while a handler sends or waits.
Every handler takes the mutex once, before it sends anything, and afterwards it
does not look at the table.  So a server of two threads does what the event
loop does with more sweeps between its events, and what is safe there is safe
here.
-/

namespace DropFile.Server.ControllerThread

open DropFile.General.FuelledProgram
open DropFile.General.Processes.Process
open DropFile.General.Dialogues
open DropFile.General.Interference
open DropFile.Streams
open DropFile.Socket
open DropFile.JsonObjects
open DropFile.Server.SessionsManager
open DropFile.Server.ServerSideClientSession
open DropFile.Server.FirstRead
open DropFile.Server.Transfers
open DropFile.Server.Serving
open DropFile.Server.EventLoop

variable {Peer : Type}

/-! ## What does not look at the table -/

section Sockets

variable {σ : Type}

theorem write_quiet (peer : Peer) (bytes : Bytes) :
    Quiet (write peer bytes : SocketProcess Peer σ Unit) := by
  induction bytes with
  | nil => trivial
  | cons byte rest inductionHypothesis => exact ⟨inductionHypothesis, trivial⟩

theorem asyncRead_quiet (peer : Peer) (count : Nat) :
    Quiet (asyncRead peer count : SocketProcess Peer σ (Option Bytes)) := by
  induction count with
  | zero => trivial
  | succ count inductionHypothesis =>
      exact ⟨fun byte => inductionHypothesis.bind fun _ => trivial, trivial⟩

theorem read_quiet (peer : Peer) (count : Nat) :
    Quiet (read peer count : SocketProcess Peer σ Bytes) := by
  apply (asyncRead_quiet peer count).bind
  rintro (_ | bytes)
  · trivial
  · trivial

theorem send_quiet (peer : Peer) (data : Bytes) :
    Quiet (send peer data : SocketProcess Peer σ Unit) := by
  rw [send]
  induction chunks data with
  | nil => trivial
  | cons chunk rest inductionHypothesis =>
      exact (write_quiet peer (frame chunk)).bind fun _ => inductionHypothesis

theorem safeDisconnect_quiet (peer : Peer) (message : Option Bytes) :
    Quiet (safeDisconnect peer message : SocketProcess Peer σ Unit) := by
  apply Quiet.handle
  · cases message with
    | none => trivial
    | some text => exact send_quiet peer text
  · intro _
    trivial

theorem receive_quiet (peer : Peer) :
    Quiet (receive peer : SocketProcess Peer σ Bytes) := by
  have getsLength : Quiet
      (getMessageLength peer : SocketProcess Peer σ Nat) := by
    apply (read_quiet peer 8).bind
    intro header
    dsimp only
    split_ifs
    · exact (safeDisconnect_quiet peer _).bind fun _ => trivial
    · trivial
  exact getsLength.bind fun messageLength => read_quiet peer messageLength

theorem receiveACK_quiet (peer : Peer) :
    Quiet (receiveACK peer : SocketProcess Peer σ Unit) := by
  have receives : Quiet
      (receiveToBuffer peer : SocketProcess Peer σ Bytes) :=
    receive_quiet peer
  apply receives.bind
  intro response
  split_ifs
  · trivial
  · trivial

end Sockets

theorem relay_quiet (receiver sender : Peer)
    (expectedBytes fuel totalReceivedBytes : Nat) :
    Quiet (relay receiver sender expectedBytes fuel totalReceivedBytes) := by
  apply Quiet.loop
  intro _ totalReceivedBytes
  rw [relayPass]
  split_ifs
  · apply (receive_quiet sender).bind
    intro data
    exact (send_quiet receiver _).bind fun _ => trivial
  · trivial

theorem receiveFile_quiet
    (settings : Settings) (receiver sender : Peer) (metadata : Json)
    (fuel : Nat) :
    Quiet (receiveFile settings receiver sender metadata fuel) := by
  rw [receiveFile]
  apply (Quiet.ofExcept _).bind
  intro text
  apply (send_quiet receiver text).bind
  intro _
  apply (receiveACK_quiet receiver).bind
  intro _
  apply (send_quiet sender _).bind
  intro _
  apply (Quiet.ofExcept _).bind
  intro _
  apply (Quiet.ofExcept _).bind
  intro expectedBytes
  apply (relay_quiet receiver sender expectedBytes fuel 0).bind
  intro _
  apply (receiveACK_quiet receiver).bind
  intro _
  apply (send_quiet sender _).bind
  intro _
  exact (Quiet.ofExcept _).bind fun _ => trivial

/-! ## The handlers -/

theorem registerSession_atomic
    (settings : Settings) (self : Peer) (json : Json) (fuel : Nat) :
    Atomic (registerSession settings self json fuel) := by
  rw [registerSession]
  split_ifs
  · apply Atomic.ofExcept_bind
    intro action
    split_ifs
    · apply (Atomic.ofProgram _).bind
      intro sessionCode
      apply (Quiet.ofExcept _).bind
      intro response
      exact send_quiet self response
    · apply Atomic.ofExcept_bind
      intro codeWords
      apply (Atomic.ofProgram _).bind
      rintro ⟨sender, metadata⟩
      exact receiveFile_quiet settings self sender metadata fuel
  · exact .quiet (safeDisconnect_quiet self _)

theorem handleFirstRead_atomic
    (settings : Settings) (self : Peer) (fuel : Nat) (content : Bytes) :
    Atomic (handleFirstRead settings self fuel content) := by
  apply Atomic.handle
  · apply Atomic.ofExcept_bind
    intro json
    apply Atomic.ofExcept_bind
    intro _
    exact registerSession_atomic settings self json fuel
  · intro error
    rw [catchFirstRead]
    split_ifs
    · exact safeDisconnect_quiet self _
    · trivial
    · trivial

theorem completeRead_atomic (reading : Reading Peer) :
    Atomic (completeRead reading) := by
  rcases reading with ⟨⟨client, settings, fuel⟩, _ | messageSize, dataBuffer⟩
  · rw [completeRead]
    dsimp only
    split_ifs
    · -- Lean does not have to compute the text.
      generalize tooLargeText _ _ = text
      have refuses : Quiet (safeDisconnect client (some text) :
          SessionProcess Peer Unit) :=
        safeDisconnect_quiet client _
      exact .quiet (refuses.bind fun _ => .pure none)
    · exact .quiet (.pure _)
  · rw [completeRead]
    exact (handleFirstRead_atomic settings client fuel dataBuffer).bind
      fun _ => .pure none

variable [DecidableEq Peer]

theorem handleEvent_atomic
    (clientTimeout : Int) (readings : Readings Peer) (event : Event Peer) :
    Atomic (handleEvent clientTimeout readings event) := by
  cases event with
  | accepts connection => exact .quiet trivial
  | acceptFails => exact .quiet trivial
  | arrives client =>
      rw [handleEvent]
      cases readings client with
      | none => exact .quiet trivial
      | some reading =>
          dsimp only
          split_ifs
          · apply Atomic.quiet
            apply Quiet.bind
            · apply (asyncRead_quiet _ 1).bind
              rintro (_ | bytes)
              · trivial
              · trivial
            · intro next
              trivial
          · exact .quiet trivial
  | completes client =>
      rw [handleEvent]
      cases readings client with
      | none => exact .quiet trivial
      | some reading =>
          dsimp only
          split_ifs
          · exact .quiet trivial
          · exact (completeRead_atomic reading).bind fun _ => trivial
  | sweeps sweep => exact .update _ fun _ => trivial

/-- The sweeps, which are events of the loop as well. -/
def sweeping (clientTimeout : Int) :
    Changes (handleEvent clientTimeout : Readings Peer → Event Peer → _) where
  Change := List (SessionCode × Int)
  apply visits := terminateTimeoutClients clientTimeout visits
  event := .sweeps
  none := []
  followedBy earlier later := earlier ++ later
  apply_none _ := rfl
  apply_followedBy _ _ _ := List.foldl_append
  handles _ _ := rfl

theorem run_eq (clientTimeout : Int) (events : List (Event Peer))
    (readings : Readings Peer) :
    run clientTimeout events readings =
      runAll (handleEvent clientTimeout) events readings := by
  induction events generalizing readings with
  | nil => rfl
  | cons event rest inductionHypothesis =>
      rw [run, runAll]
      congr 1
      funext next
      exact inductionHypothesis next

/-! ## Two threads -/

/-- Sweeps of the thread `connections_controller`. -/
def Sweeps (clientTimeout : Int)
    (before after : SendersSessions Peer Json) : Prop :=
  ∃ visits, after = terminateTimeoutClients clientTimeout visits before

def IsSweep (event : Event Peer) : Prop :=
  ∃ visits, event = .sweeps visits

/--
What the server does while another thread sweeps at any time, the event loop
does with more sweeps between its events; only a last sweep can be missing.
-/
theorem controller_thread_refines
    (clientTimeout : Int) (events : List (Event Peer))
    (later : SessionProcess Peer Unit) (last : Moment Peer)
    (disturbed : Disturbed (Sweeps clientTimeout)
      (run clientTimeout events fun _ => none) nothingYet later last) :
    ∃ others mirror visits, Interspersed IsSweep events others ∧
      Becomes (run clientTimeout others fun _ => none) nothingYet later
        mirror ∧
      last = mirror.change (terminateTimeoutClients clientTimeout visits) := by
  rw [run_eq] at disturbed
  rcases exists_serialized (sweeping clientTimeout)
    (handleEvent_atomic clientTimeout) disturbed with
    ⟨others, mirror, visits, interspersed, becomes, rfl⟩
  rw [← run_eq] at becomes
  exact ⟨others, mirror, visits, interspersed, becomes, rfl⟩

/-! ## What is safe -/

omit [DecidableEq Peer] in
/-- More sweeps do not bring more clients. -/
theorem connections_of_interspersed
    {events others : List (Event Peer)}
    (interspersed : Interspersed IsSweep events others) :
    connections others = connections events := by
  induction interspersed with
  | nil => rfl
  | keep event _ inductionHypothesis =>
      exact congrArg (event.connections ++ ·) inductionHypothesis
  | insert isSweep _ inductionHypothesis =>
      rcases isSweep with ⟨visits, rfl⟩
      exact inductionHypothesis

omit [DecidableEq Peer] in
theorem safe_of_swept
    {library : JsonLibrary} {codes : SessionCode → Prop}
    {everybody : List Peer} {moment : Moment Peer}
    (safe : Safe library codes everybody moment)
    (clientTimeout : Int) (visits : List (SessionCode × Int)) :
    Safe library codes everybody
      (moment.change (terminateTimeoutClients clientTimeout visits)) := by
  rcases safe with ⟨transfers, consistent⟩
  refine ⟨transfers, consistent.of_fewer (fun _ => ⟨rfl, rfl⟩) ?_⟩
  exact fun _ _ found => lookup_of_terminateTimeoutClients found

section Safety

variable {library : JsonLibrary} {codes : SessionCode → Prop}
variable {clientTimeout : Int} {events : List (Event Peer)}
variable {later : SessionProcess Peer Unit} {last : Moment Peer}
variable (disturbed : Disturbed (Sweeps clientTimeout)
  (run clientTimeout events fun _ => none) nothingYet later last)
include disturbed

/-- The event loop with the same clients, before the last sweep. -/
theorem exists_mirror :
    ∃ others mirror visits, connections others = connections events ∧
      Becomes (run clientTimeout others fun _ => none) nothingYet later
        mirror ∧
      last = mirror.change (terminateTimeoutClients clientTimeout visits) := by
  rw [run_eq] at disturbed
  rcases exists_serialized (sweeping clientTimeout)
    (handleEvent_atomic clientTimeout) disturbed with
    ⟨others, mirror, visits, interspersed, becomes, rfl⟩
  rw [← run_eq] at becomes
  exact ⟨others, mirror, visits, connections_of_interspersed interspersed,
    becomes, rfl⟩

variable (contract : library.Utf8Contract)
variable (sound : ∀ connection ∈ connections events, Sound library connection)
include contract sound

theorem safe_of_disturbed
    (once : ((connections events).map Connection.client).Nodup)
    (inCodes : ∀ connection ∈ connections events, ∀ attempt,
      codes (connection.settings.generateSessionID attempt)) :
    ∃ everybody, Safe library codes everybody last := by
  rcases exists_mirror disturbed with
    ⟨others, mirror, visits, same, becomes, rfl⟩
  rw [← same] at once sound inCodes
  rcases ((run_safe contract clientTimeout others once sound
    inCodes).of_becomes becomes).now trivial with ⟨everybody, safe⟩
  exact ⟨everybody, safe_of_swept safe clientTimeout visits⟩

theorem survives_of_disturbed :
    AllAccepted library last.state ∧ ∀ error, later ≠ .failed error := by
  rcases exists_mirror disturbed with
    ⟨others, mirror, visits, same, becomes, rfl⟩
  rw [← same] at sound
  have start : AllAccepted library (nothingYet : Moment Peer).state :=
    allAccepted_empty
  have survives := (run_survives contract clientTimeout start
    (fun _ _ impossible => by cases impossible) sound).of_becomes becomes
  refine ⟨(survives.now trivial).terminateTimeoutClients _ visits, ?_⟩
  rintro error rfl
  exact (survives trivial).2

end Safety

/--
With two threads as with one: what every client gets is accounted for by its
own first message or by one transfer, the table holds accepted metadata only,
and no exception gets out.
-/
theorem two_threads_are_safe
    {library : JsonLibrary} {codes : SessionCode → Prop}
    (contract : library.Utf8Contract)
    (clientTimeout : Int) (events : List (Event Peer))
    (once : ((connections events).map Connection.client).Nodup)
    (sound : ∀ connection ∈ connections events, Sound library connection)
    (inCodes : ∀ connection ∈ connections events, ∀ attempt,
      codes (connection.settings.generateSessionID attempt))
    (later : SessionProcess Peer Unit) (last : Moment Peer)
    (disturbed : Disturbed (Sweeps clientTimeout)
      (run clientTimeout events fun _ => none) nothingYet later last) :
    (∃ everybody, Safe library codes everybody last) ∧
      AllAccepted library last.state ∧ ∀ error, later ≠ .failed error :=
  ⟨safe_of_disturbed disturbed contract sound once inCodes,
    survives_of_disturbed disturbed contract sound⟩

/-! ## A sender that registers among sweeps -/

section Registering

variable {Session Metadata : Type}
variable {clientTimeout : Int} {table : SendersSessions Session Metadata}

/-- What is left after a sweep was in time whenever it was visited. -/
theorem inTime_of_stays
    {visits : List (SessionCode × Int)} {code : SessionCode}
    {session : TimedClientSession Session Metadata}
    (stays : (terminateTimeoutClients clientTimeout visits table).lookup
      code = some session) :
    ∀ visit ∈ visits, visit.1 = code →
      visit.2 - session.timePoint ≤ clientTimeout := by
  induction visits generalizing table with
  | nil => simp
  | cons first rest inductionHypothesis =>
      rw [List.forall_mem_cons]
      refine ⟨?_, inductionHypothesis stays⟩
      rintro rfl
      have kept : (examine clientTimeout table first).lookup first.1 =
          some session :=
        lookup_of_terminateTimeoutClients stays
      rw [examine] at kept
      cases found : table.lookup first.1 with
      | none =>
          rw [found] at kept
          cases found.symm.trans kept
      | some oldest =>
          rw [found] at kept
          dsimp only at kept
          split_ifs at kept with overdue
          · exact absurd rfl (lookup_of_erase kept).1
          · rw [found] at kept
            cases kept
            exact Int.not_lt.1 overdue

/-- One pass of `registerSender`, with a sweep of the other thread before it. -/
def registerPass (clientTimeout : Int)
    (sweeps : Nat → List (SessionCode × Int))
    (generateSessionID : Nat → SessionCode) (now : Int) (sender : Session)
    (json : Metadata) (attempt : Nat) :
    Program Exception (SendersSessions Session Metadata)
      (Nat ⊕ SessionCode) := do
  Program.modifyState
    (terminateTimeoutClients clientTimeout (sweeps attempt))
  let sendersSessions ← Program.getState
  let sessionId := generateSessionID attempt
  match tryRegister sessionId now sender json sendersSessions with
  | none => pure (.inl (attempt + 1))
  | some later => do
      Program.modifyState fun _ => later
      pure (.inr sessionId)

/-- `registerSender`, with sweeps of the other thread between its passes. -/
def registerAmongSweeps (clientTimeout : Int)
    (sweeps : Nat → List (SessionCode × Int))
    (generateSessionID : Nat → SessionCode) (now : Int) (sender : Session)
    (json : Metadata) (fuel : Nat) :
    Program Exception (SendersSessions Session Metadata) SessionCode :=
  Program.loop
    (fun _ =>
      registerPass clientTimeout sweeps generateSessionID now sender json)
    fuel 0

section Passes

variable {sweeps : Nat → List (SessionCode × Int)}
variable {generateSessionID : Nat → SessionCode} {now : Int}
variable {sender : Session} {json : Metadata} {attempt : Nat}
variable {swept : SendersSessions Session Metadata}
variable (same : terminateTimeoutClients clientTimeout (sweeps attempt) table =
  swept)
include same

theorem registerPass_of_taken
    (taken : generateSessionID attempt ∈ swept) :
    registerPass clientTimeout sweeps generateSessionID now sender json
        attempt table = .returned (.inl (attempt + 1)) swept := by
  subst same
  rw [registerPass, Program.bind_returned (Program.modifyState_run _ _),
    Program.bind_returned (Program.getState_run _), tryRegister, if_pos taken]
  rfl

theorem registerPass_of_free
    (free : generateSessionID attempt ∉ swept) :
    registerPass clientTimeout sweeps generateSessionID now sender json
        attempt table =
      .returned (.inr (generateSessionID attempt))
        (swept.insert (generateSessionID attempt) ⟨sender, json, now⟩) := by
  subst same
  rw [registerPass, Program.bind_returned (Program.modifyState_run _ _),
    Program.bind_returned (Program.getState_run _), tryRegister, if_neg free]
  rfl

end Passes

/-- All visits of the sweeps before this pass. -/
def visitsBefore (sweeps : Nat → List (SessionCode × Int))
    (attempt : Nat) : List (SessionCode × Int) :=
  (List.range attempt).flatMap sweeps

theorem terminate_visitsBefore_succ
    (sweeps : Nat → List (SessionCode × Int)) (attempt : Nat) :
    terminateTimeoutClients clientTimeout (visitsBefore sweeps (attempt + 1))
        table =
      terminateTimeoutClients clientTimeout (sweeps attempt)
        (terminateTimeoutClients clientTimeout (visitsBefore sweeps attempt)
          table) := by
  rw [visitsBefore, List.range_succ, List.flatMap_append,
    List.flatMap_singleton]
  exact List.foldl_append

/-- Nobody is left when a sweep has come too late for everybody. -/
theorem notMem_of_expired
    {visits : List (SessionCode × Int)}
    (expired : ∀ code session, table.lookup code = some session →
      ∃ time, (code, time) ∈ visits ∧
        clientTimeout < time - session.timePoint)
    (earlier : List (SessionCode × Int)) (code : SessionCode) :
    code ∉ terminateTimeoutClients clientTimeout visits
      (terminateTimeoutClients clientTimeout earlier table) := by
  intro isLeft
  rcases Option.isSome_iff_exists.1 (AList.lookup_isSome.2 isLeft) with
    ⟨session, found⟩
  have wasThere := lookup_of_terminateTimeoutClients
    (lookup_of_terminateTimeoutClients found)
  rcases expired code session wasThere with ⟨time, isVisit, late⟩
  have inTime := inTime_of_stays found (code, time) isVisit rfl
  exact absurd late (Int.not_lt.2 inTime)

/-- The table that a pass finds, after its sweep and those before it. -/
def sweptBefore (clientTimeout : Int)
    (sweeps : Nat → List (SessionCode × Int)) (attempt : Nat)
    (table : SendersSessions Session Metadata) :
    SendersSessions Session Metadata :=
  terminateTimeoutClients clientTimeout (visitsBefore sweeps (attempt + 1))
    table

/--
Also when all codes are in use, a sender gets a code if the sweeps go on until
all that wait are too old.  It is the first code that is free after the sweeps
before its pass, and the sender is registered in what these sweeps have left,
as it would have been without interference.
-/
theorem registration_ends_among_sweeps
    (sweeps : Nat → List (SessionCode × Int)) {final : Nat}
    (expired : ∀ code session, table.lookup code = some session →
      ∃ time, (code, time) ∈ sweeps final ∧
        clientTimeout < time - session.timePoint)
    (generateSessionID : Nat → SessionCode) (now : Int) (sender : Session)
    (json : Metadata) :
    ∃ attempt later,
      Settles
        (fun fuel => registerAmongSweeps clientTimeout sweeps
          generateSessionID now sender json fuel table)
        (.returned (generateSessionID attempt) later) ∧
      attempt ≤ final ∧
      (∀ earlier < attempt, generateSessionID earlier ∈
        sweptBefore clientTimeout sweeps earlier table) ∧
      registerSender (fun next => generateSessionID (attempt + next)) now
          sender json 1 (sweptBefore clientTimeout sweeps attempt table) =
        .returned (generateSessionID attempt) later := by
  have ends : ∃ code later,
      Settles
        (fun fuel => registerAmongSweeps clientTimeout sweeps
          generateSessionID now sender json fuel table)
        (.returned code later) ∧
      ∃ attempt, code = generateSessionID attempt ∧
        attempt ≤ final ∧
        (∀ earlier < attempt, generateSessionID earlier ∈
          sweptBefore clientTimeout sweeps earlier table) ∧
        registerSender (fun next => generateSessionID (attempt + next)) now
            sender json 1 (sweptBefore clientTimeout sweeps attempt table) =
          .returned code later := by
    unfold registerAmongSweeps
    apply Settles.loop_of_variant Nat.lt_wfRel.wf
      (fun current _ => final - current)
      (fun current state => current ≤ final ∧
        (∀ earlier < current, generateSessionID earlier ∈
          sweptBefore clientTimeout sweeps earlier table) ∧
        state = terminateTimeoutClients clientTimeout
          (visitsBefore sweeps current) table)
    · rintro current _ ⟨inTime, inUse, rfl⟩
      have swept := @terminate_visitsBefore_succ _ _ clientTimeout table
        sweeps current
      rcases Classical.em (generateSessionID current ∈
        sweptBefore clientTimeout sweeps current table) with taken | free
      · right
        have different : current ≠ final := by
          rintro rfl
          rw [sweptBefore, swept] at taken
          exact notMem_of_expired expired _ _ taken
        refine ⟨current + 1, _, ?_, ⟨?_, ?_, rfl⟩, ?_⟩
        · apply Settles.of_eq
          intro fuel
          exact registerPass_of_taken swept.symm taken
        · omega
        · intro earlier isEarlier
          rcases Nat.lt_succ_iff_lt_or_eq.1 isEarlier with before | rfl
          · exact inUse earlier before
          · exact taken
        · show final - (current + 1) < final - current
          omega
      · left
        refine ⟨generateSessionID current, _, ?_, current, rfl, inTime,
          inUse, registerSender_run now sender json 0 free⟩
        apply Settles.of_eq
        intro fuel
        exact registerPass_of_free swept.symm free
    · refine ⟨Nat.zero_le _, ?_, rfl⟩
      intro earlier impossible
      cases impossible
  rcases ends with
    ⟨_, later, settles, attempt, rfl, inTime, inUse, registers⟩
  exact ⟨attempt, later, settles, inTime, inUse, registers⟩

/-- The only code is in use, and the third sweep comes too late for it. -/
def fullTable : SendersSessions Unit Unit :=
  (∅ : SendersSessions Unit Unit).insert (ascii "old-two-0") ⟨(), (), 0⟩

def lateSweeps (attempt : Nat) : List (SessionCode × Int) :=
  if attempt = 2 then [(ascii "old-two-0", 90)] else []

theorem fullTable_expires :
    ∀ code session, fullTable.lookup code = some session →
      ∃ time, (code, time) ∈ lateSweeps 2 ∧ 60 < time - session.timePoint := by
  intro code session found
  have isKey : code ∈ fullTable :=
    AList.lookup_isSome.1 (by rw [found]; rfl)
  rcases (AList.mem_insert _).1 isKey with rfl | impossible
  · rw [fullTable, AList.lookup_insert] at found
    cases found
    exact ⟨90, List.mem_singleton_self _, by decide⟩
  · cases impossible

theorem registration_ends_among_sweeps_fullTable :
    ∃ attempt later,
      Settles
        (fun fuel => registerAmongSweeps 60 lateSweeps
          (fun _ => ascii "old-two-0") 91 () () fuel fullTable)
        (.returned (ascii "old-two-0") later) ∧
      attempt ≤ 2 ∧
      (∀ earlier < attempt, ascii "old-two-0" ∈
        sweptBefore 60 lateSweeps earlier fullTable) ∧
      registerSender (fun _ => ascii "old-two-0") 91 () () 1
          (sweptBefore 60 lateSweeps attempt fullTable) =
        .returned (ascii "old-two-0") later :=
  registration_ends_among_sweeps lateSweeps fullTable_expires
    (fun _ => ascii "old-two-0") 91 () ()

end Registering

/-! ## A sweep while a code is on its way -/

/-- A sender comes, and its first message byte by byte. -/
def oneOffer : List (Event Bool) :=
  .accepts ⟨false, flatSettings, 3⟩ :: (List.replicate 8 (.arrives false) ++
    .completes false :: List.replicate offering.length (.arrives false) ++
    [.completes false])

theorem oneOffer_sound :
    ∀ connection ∈ connections oneOffer,
      Sound FlatJson.flatLibrary connection := by
  have alone : connections oneOffer = [⟨false, flatSettings, 3⟩] := by
    rfl
  rw [alone]
  simp only [List.forall_mem_singleton]
  exact ⟨rfl, flatSettings_draws⟩

/-- The sweep that removes the sender. -/
def lateSweep (table : SendersSessions Bool Json) :
    SendersSessions Bool Json :=
  terminateTimeoutClients 60 [(ascii "old-two-7", 90)] table

/--
The sender waits in the table and has not got its code yet when it is swept.
It gets the code nevertheless.
-/
theorem exists_swept :
    ∃ (middle later : SessionProcess Bool Unit) (waiting last : Moment Bool),
      Disturbed (Sweeps 60) (run 60 oneOffer fun _ => none) nothingYet
        middle waiting ∧
      currentSessions waiting.state = 1 ∧
      Disturbed (Sweeps 60) (run 60 oneOffer fun _ => none) nothingYet
        later last ∧
      currentSessions last.state = 0 ∧
      last.sent false =
        frame (ascii "\x7b\"code_words_key\":\"old-two-7\"\x7d") := by
  have runs :
      ((takeTurn false false (run 60 oneOffer fun _ => none) ∅
        (frame offering) []).bind fun waiting =>
          (takeTurn false false waiting.1 (lateSweep waiting.2) []
            (frame (ascii "\x7b\"code_words_key\":\"old-two-7\"\x7d"))).map
            fun reached =>
              (currentSessions waiting.2, currentSessions reached.2)) =
        some (1, 0) := by
    decide +kernel
  rcases Option.bind_eq_some_iff.1 runs with
    ⟨⟨middle, table⟩, registers, answers⟩
  rcases Option.map_eq_some_iff.1 answers with
    ⟨⟨later, final⟩, sends, counts⟩
  rcases Prod.mk.inj counts with ⟨one, zero⟩
  have waits := Disturbed.becomes
    (.here : Disturbed (Sweeps 60) (run 60 oneOffer fun _ => none) nothingYet
      _ _)
    (.of_plays (plays_of_takeTurn registers) silence silence)
  have swept := waits.changed ⟨[(ascii "old-two-7", 90)], rfl⟩
  refine ⟨middle, later, _, _, waits, one,
    swept.becomes (.of_plays (plays_of_takeTurn sends) _ _), zero, ?_⟩
  simp only [silence_followedBy, followedBy_apply, only_self,
    List.nil_append]

theorem controller_thread_refines_swept :
    ∃ (later : SessionProcess Bool Unit) (last : Moment Bool),
      last.sent false =
        frame (ascii "\x7b\"code_words_key\":\"old-two-7\"\x7d") ∧
      currentSessions last.state = 0 ∧
      ∃ others mirror visits, Interspersed IsSweep oneOffer others ∧
        Becomes (run 60 others fun _ => none) nothingYet later mirror ∧
        last = mirror.change (terminateTimeoutClients 60 visits) := by
  rcases exists_swept with ⟨-, later, -, last, -, -, disturbed, zero, sent⟩
  exact ⟨later, last, sent, zero,
    controller_thread_refines 60 oneOffer later last disturbed⟩

theorem two_threads_are_safe_swept :
    ∃ (later : SessionProcess Bool Unit) (last : Moment Bool),
      last.sent false =
        frame (ascii "\x7b\"code_words_key\":\"old-two-7\"\x7d") ∧
      currentSessions last.state = 0 ∧
      (∃ everybody, Safe FlatJson.flatLibrary (fun _ => True) everybody
        last) ∧
      AllAccepted FlatJson.flatLibrary last.state ∧
      ∀ error, later ≠ .failed error := by
  rcases exists_swept with ⟨-, later, -, last, -, -, disturbed, zero, sent⟩
  exact ⟨later, last, sent, zero,
    two_threads_are_safe FlatJson.flatLibrary_contract.1 60 oneOffer
      (by decide) oneOffer_sound (fun _ _ _ => trivial) later last
      disturbed⟩

end DropFile.Server.ControllerThread
