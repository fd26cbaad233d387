import DropFile.Server.EventLoopRefinement

/-!
# What holds of every run of the event loop

No exception of a session gets out of the loop, so no client can end the
server.  The safety of the server that visits one client after another is the
safety of the event loop: a mirror is consistent, and so is a moment that
differs from it by a sweep and by parts of first messages.
-/

namespace DropFile.Server.EventLoop

open DropFile.General.Processes.Process
open DropFile.General.ProcessRuns
open DropFile.Streams
open DropFile.Socket
open DropFile.JsonObjects
open DropFile.Server.SessionsManager
open DropFile.Server.ServerSideClientSession
open DropFile.Server.FirstRead
open DropFile.Server.Transfers
open DropFile.Server.Serving

variable {Peer : Type} [DecidableEq Peer]

/-! ## Survival -/

section Survival

variable {library : JsonLibrary} {moment : Moment Peer}

/-- What a session needs to catch whatever is thrown. -/
structure Sound (library : JsonLibrary) (connection : Connection Peer) :
    Prop where
  library : connection.settings.library = library
  draws : DrawsCodes connection.settings

/-- A part of the server that does not fail, whatever its clients do. -/
def Survives {α : Type} (library : JsonLibrary)
    (after : α → Prop) (process : SessionProcess Peer α)
    (moment : Moment Peer) : Prop :=
  Ensures (fun _ => True) (fun later => AllAccepted library later.state)
    (fun value _ => after value) (fun _ _ => False) process moment

variable {α β : Type} {middle : α → Prop} {after : β → Prop}

theorem Survives.pure
    {value : β}
    (accepted : AllAccepted library moment.state)
    (post : after value) :
    Survives library after (pure value : SessionProcess Peer β) moment :=
  Ensures.pure accepted post

theorem Survives.bind
    {process : SessionProcess Peer α} {next : α → SessionProcess Peer β}
    (first : Survives library middle process moment)
    (second : ∀ value later, AllAccepted library later.state →
      middle value → Survives library after (next value) later) :
    Survives library after (process >>= next) moment :=
  Ensures.bind first fun value later _ => second value later

theorem arrive_survives
    {reading : Reading Peer}
    (accepted : AllAccepted library moment.state)
    (sound : Sound library reading.connection) :
    Survives library
      (fun next => ∀ other, next = some other →
        Sound library other.connection)
      (arrive reading) moment := by
  rw [arrive]
  have reads : Survives library (fun _ => True)
      (asyncRead reading.connection.client 1) moment :=
    (asyncRead_ensures reading.connection.client 1
      fun _ _ => accepted).weaken (fun _ _ _ _ _ => trivial)
        (fun _ _ _ _ => False.elim)
  apply reads.bind
  rintro (_ | bytes) later holds -
  · refine .pure holds ?_
    rintro _ ⟨⟩
  · refine .pure holds ?_
    rintro _ ⟨⟩
    exact sound

theorem completeRead_survives
    {reading : Reading Peer}
    (contract : library.Utf8Contract)
    (accepted : AllAccepted library moment.state)
    (sound : Sound library reading.connection) :
    Survives library
      (fun next => ∀ other, next = some other →
        Sound library other.connection)
      (completeRead reading) moment := by
  rcases reading with ⟨⟨client, settings, fuel⟩, _ | messageSize, dataBuffer⟩
  · rw [completeRead]
    dsimp only
    split_ifs
    · -- Lean does not have to compute the text.
      generalize tooLargeText _ _ = text
      have refuses : Survives library (fun _ => True)
          (safeDisconnect client (some text)) moment :=
        contained_safeDisconnect (AllAccepted library) accepted client text
      apply refuses.bind
      intro _ _ holds _
      refine .pure holds ?_
      rintro _ ⟨⟩
    · refine .pure accepted ?_
      rintro _ ⟨⟩
      exact sound
  · rw [completeRead]
    dsimp only
    rcases sound with ⟨rfl, draws⟩
    have handles : Survives settings.library (fun _ => True)
        (handleFirstRead settings client fuel dataBuffer) moment :=
      handleFirstRead_ensures contract draws accepted client fuel dataBuffer
    apply handles.bind
    intro _ _ holds _
    refine .pure holds ?_
    rintro _ ⟨⟩

/-- All pending reads belong to sessions that catch what is thrown. -/
def AllSound (library : JsonLibrary) (readings : Readings Peer) : Prop :=
  ∀ peer reading, readings peer = some reading →
    Sound library reading.connection

theorem AllSound.update
    {readings : Readings Peer} {next : Option (Reading Peer)}
    (sound : AllSound library readings)
    (peer : Peer)
    (isSound : ∀ other, next = some other →
      Sound library other.connection) :
    AllSound library (Function.update readings peer next) := by
  intro other reading isPending
  by_cases same : other = peer
  · subst same
    rw [Function.update_self] at isPending
    exact isSound reading isPending
  · rw [Function.update_of_ne same] at isPending
    exact sound other reading isPending

theorem handleEvent_survives
    {readings : Readings Peer} {event : Event Peer}
    (contract : library.Utf8Contract)
    (clientTimeout : Int)
    (accepted : AllAccepted library moment.state)
    (sound : AllSound library readings)
    (soundEvent : ∀ connection ∈ event.connections,
      Sound library connection) :
    Survives library (AllSound library)
      (handleEvent clientTimeout readings event) moment := by
  cases event with
  | accepts connection =>
      refine .pure accepted ?_
      rw [acceptNewConnection]
      split_ifs
      · exact sound
      · apply sound.update
        rintro _ ⟨⟩
        exact soundEvent connection (List.mem_singleton_self _)
  | acceptFails => exact .pure accepted sound
  | arrives client =>
      rw [handleEvent]
      cases isPending : readings client with
      | none => exact .pure accepted sound
      | some reading =>
          dsimp only
          split_ifs
          · apply (arrive_survives accepted
              (sound client reading isPending)).bind
            intro next _ holds isSound
            exact .pure holds (sound.update client isSound)
          · exact .pure accepted sound
  | completes client =>
      rw [handleEvent]
      cases isPending : readings client with
      | none => exact .pure accepted sound
      | some reading =>
          dsimp only
          split_ifs
          · exact .pure accepted sound
          · apply (completeRead_survives contract accepted
              (sound client reading isPending)).bind
            intro next _ holds isSound
            exact .pure holds (sound.update client isSound)
  | sweeps sweep =>
      exact Ensures.modifyState_bind accepted (Ensures.pure
        (accepted.terminateTimeoutClients clientTimeout sweep) sound)

theorem run_survives
    {readings : Readings Peer} {events : List (Event Peer)}
    (contract : library.Utf8Contract)
    (clientTimeout : Int)
    (accepted : AllAccepted library moment.state)
    (sound : AllSound library readings)
    (soundEvents : ∀ connection ∈ connections events,
      Sound library connection) :
    Survives library (fun _ => True) (run clientTimeout events readings)
      moment := by
  induction events generalizing readings moment with
  | nil => exact .pure accepted trivial
  | cons event rest inductionHypothesis =>
      rw [connections, List.flatMap_cons] at soundEvents
      apply (handleEvent_survives contract clientTimeout accepted sound
        fun connection isNew => soundEvents connection
          (List.mem_append_left _ isNew)).bind
      intro next later holds isSound
      exact inductionHypothesis holds isSound fun connection isLater =>
        soundEvents connection (List.mem_append_right _ isLater)

/--
Whatever connects, arrives, completes or gets lost, in any order: no exception
gets out of the event loop, and the table holds accepted messages only.
-/
theorem event_loop_survives
    (library : JsonLibrary) (contract : library.Utf8Contract)
    (clientTimeout : Int) (events : List (Event Peer))
    (sound : ∀ connection ∈ connections events, Sound library connection)
    (later : SessionProcess Peer Unit) (last : Moment Peer)
    (becomes : Becomes (run clientTimeout events fun _ => none) nothingYet
      later last) :
    AllAccepted library last.state ∧ ∀ error, later ≠ .failed error := by
  have start : AllAccepted library (nothingYet : Moment Peer).state :=
    allAccepted_empty
  have survives := (run_survives contract clientTimeout start
    (fun _ _ impossible => by cases impossible) sound).of_becomes becomes
  refine ⟨survives.now trivial, ?_⟩
  rintro error rfl
  exact (survives trivial).2

theorem slowHeader_sound :
    ∀ connection ∈ connections slowHeader,
      Sound FlatJson.flatLibrary connection := by
  intro connection isAccepted
  rcases List.mem_pair.1 isAccepted with rfl | rfl
  · exact ⟨rfl, flatSettings_draws⟩
  · exact ⟨rfl, flatSettings_draws⟩

theorem event_loop_survives_slowHeader :
    AllAccepted FlatJson.flatLibrary
        (((nothingYet : Moment Bool).receives true [200]).change
          (terminateTimeoutClients 60 [(ascii "old-two-7", 90)])).state ∧
      ∀ error, (.done () : SessionProcess Bool Unit) ≠ .failed error :=
  event_loop_survives FlatJson.flatLibrary FlatJson.flatLibrary_contract.1
    60 slowHeader slowHeader_sound _ _ slowHeader_becomes

end Survival

/-! ## Consistent moments -/

section Safety

variable {library : JsonLibrary} {codes : SessionCode → Prop}
variable {visited everybody : List Peer}
variable {transfers : List (Transfer library codes Peer)}
variable {moment mirror : Moment Peer} {heard : Traffic Peer}

omit [DecidableEq Peer] in
/-- Bytes of clients that are not visited yet do not disturb the others. -/
theorem Consistent.of_heard
    (consistent : Consistent visited transfers mirror)
    (more : ∀ peer ∈ visited, peer ∈ everybody)
    (sameState : moment.state = mirror.state)
    (sameSent : moment.sent = mirror.sent)
    (received : moment.received = mirror.received.followedBy heard)
    (untouched : ∀ peer, heard peer ≠ [] → peer ∈ everybody ∧
      mirror.received peer = [] ∧ mirror.sent peer = []) :
    Consistent everybody transfers moment := by
  have same {peer : Peer} {bytes : Bytes}
      (announced : frame bytes <+: mirror.received peer) :
      SameAt peer mirror moment := by
    have unheard : heard peer = [] := by
      by_contra isHeard
      rw [(untouched peer isHeard).2.1, List.prefix_nil] at announced
      exact frame_ne_nil bytes announced
    exact ⟨by simp [received, unheard], by rw [sameSent]⟩
  constructor
  · intro peer notThere
    have unheard : heard peer = [] := by
      by_contra isHeard
      exact notThere (untouched peer isHeard).1
    have before := consistent.untouched peer
      fun isVisited => notThere (more peer isVisited)
    rw [received, followedBy_apply, unheard, sameSent]
    exact ⟨by rw [before.1, List.append_nil], before.2⟩
  · exact consistent.apart
  · intro transfer isTransfer
    have proceeds := consistent.proceeds transfer isTransfer
    exact proceeds.congr (same proceeds.announced)
      (same proceeds.requested)
  · intro code session found
    rw [sameState] at found
    rcases consistent.waiting code session found with
      ⟨noParty, registration, waits⟩
    have announced : frame registration.message <+:
        mirror.received registration.client := by
      rw [waits.received]
    exact ⟨noParty, registration, waits.congr (same announced)⟩
  · intro code other session otherSession found otherFound
    rw [sameState] at found otherFound
    exact consistent.distinct code other session otherSession found
      otherFound
  · intro peer noParty
    by_cases isHeard : heard peer = []
    · rw [received, followedBy_apply, isHeard, List.append_nil, sameSent]
      exact consistent.others peer noParty
    · rw [sameSent, (untouched peer isHeard).2.2]
      exact ⟨_, .unavailable, List.nil_prefix⟩

/-- What the mirror shows is true of the loop. -/
theorem safe_of_mirrored
    {α : Type} {clientTimeout : Int} {accepted : List (Connection Peer)}
    {process : SessionProcess Peer α}
    (contract : library.Utf8Contract)
    (sound : ∀ connection ∈ accepted, Sound library connection)
    (inCodes : ∀ connection ∈ accepted, ∀ attempt,
      codes (connection.settings.generateSessionID attempt))
    (mirrored : Mirrored clientTimeout accepted process moment) :
    ∃ everybody, Safe library codes everybody moment := by
  rcases mirrored with
    ⟨visits, sweep, heard, later, mirror, runs, mirrors, -⟩
  have ofVisit {visited : Visit Peer} (isVisit : visited ∈ visits) :
      Sound library ⟨visited.client, visited.settings, visited.fuel⟩ ∧
        ∀ attempt, codes (visited.settings.generateSessionID attempt) := by
    rcases mirrors.served visited isVisit with
      ⟨connection, isAccepted, _, rfl⟩
    exact ⟨sound connection isAccepted, inCodes connection isAccepted⟩
  have start : Safe library codes [] (nothingYet : Moment Peer) :=
    ⟨[], consistent_start⟩
  have served := serve_safe contract visits
    (fun _ isVisit => (ofVisit isVisit).1.library)
    (fun _ isVisit => (ofVisit isVisit).1.draws)
    (fun _ isVisit => (ofVisit isVisit).2) mirrors.once
    (fun _ _ => List.not_mem_nil) start
  rcases (served.of_becomes runs).now trivial with
    ⟨visited, transfers, consistent⟩
  have swept : Consistent visited transfers
      (mirror.change (terminateTimeoutClients clientTimeout sweep)) :=
    consistent.of_fewer (fun _ => ⟨rfl, rfl⟩)
      fun code session found => lookup_of_terminateTimeoutClients found
  have nothing := (untouched_of_serve runs).2
  refine ⟨visited ++ accepted.map Connection.client, transfers,
    Consistent.of_heard swept (fun _ => List.mem_append_left _)
      mirrors.state mirrors.sent mirrors.received ?_⟩
  intro peer isHeard
  rcases mirrors.unvisited peer isHeard with
    ⟨⟨connection, isAccepted, rfl⟩, unvisited⟩
  exact ⟨List.mem_append_right _ (List.mem_map_of_mem isAccepted),
    nothing _ unvisited⟩

/-- What the server does, whatever its clients do and in any order. -/
theorem run_safe
    (contract : library.Utf8Contract)
    (clientTimeout : Int) (events : List (Event Peer))
    (once : ((connections events).map Connection.client).Nodup)
    (sound : ∀ connection ∈ connections events, Sound library connection)
    (inCodes : ∀ connection ∈ connections events, ∀ attempt,
      codes (connection.settings.generateSessionID attempt)) :
    Ensures (fun _ => True)
      (fun later => ∃ everybody, Safe library codes everybody later)
      (fun _ _ => True) (fun _ _ => True)
      (run clientTimeout events fun _ => none) nothingYet := by
  apply ensures_of_forall_becomes
  intro later last becomes
  exact safe_of_mirrored contract sound inCodes
    (run_mirrored atRest_start once becomes)

end Safety

end DropFile.Server.EventLoop
