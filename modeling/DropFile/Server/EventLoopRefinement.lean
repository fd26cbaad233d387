import DropFile.Server.EventLoopRuns
import DropFile.Server.FirstRead

/-!
# The event loop refines the server that visits one client after another

The mirror of a moment of the event loop is a moment of `serve`.  Both have
sent the same, and both have the same table, but for a sweep that no session
has seen yet.  The loop has received more than the mirror: the parts of first
messages that are not complete, which belong to clients that the mirror has not
visited.
-/

namespace DropFile.Server.EventLoop

open DropFile.General.Processes.Process
open DropFile.General.ProcessRuns
open DropFile.General.Stages (becomes_bind)
open DropFile.Streams
open DropFile.Socket
open DropFile.Server.SessionsManager
open DropFile.Server.ServerSideClientSession
open DropFile.Server.Transfers
open DropFile.Server.Serving

variable {Peer : Type}

/-! ## Mirrors -/

/-- The visit that stands for a connection. -/
def visitOf (clientTimeout : Int) (sweep : List (SessionCode × Int))
    (connection : Connection Peer) : Visit Peer :=
  ⟨connection.client, connection.settings, connection.fuel, clientTimeout,
    sweep⟩

/-- The connections that an event brings. -/
def Event.connections : Event Peer → List (Connection Peer)
  | .accepts connection => [connection]
  | _ => []

def connections (events : List (Event Peer)) : List (Connection Peer) :=
  events.flatMap Event.connections

/-- The parts of first messages that are not complete. -/
def heardOf (readings : Readings Peer) : Traffic Peer :=
  fun peer => ((readings peer).map Reading.heard).getD []

section Mirroring

variable (clientTimeout : Int) (accepted : List (Connection Peer))

/-- A moment of the event loop and one of `serve`. -/
structure Mirrors (visits : List (Visit Peer))
    (sweep : List (SessionCode × Int)) (heard : Traffic Peer)
    (moment mirror : Moment Peer) : Prop where
  served : ∀ visited ∈ visits, ∃ connection ∈ accepted,
    ∃ swept, visited = visitOf clientTimeout swept connection
  once : (visits.map Visit.client).Nodup
  state : moment.state =
    terminateTimeoutClients clientTimeout sweep mirror.state
  sent : moment.sent = mirror.sent
  received : moment.received = mirror.received.followedBy heard
  unvisited : ∀ peer, heard peer ≠ [] →
    (∃ connection ∈ accepted, connection.client = peer) ∧
      ¬ Visited visits peer

/-- The one process has ended like the other, if it has ended. -/
def EndsLike {α : Type} (process : SessionProcess Peer α)
    (later : SessionProcess Peer Unit) : Prop :=
  (∀ value, process = .done value → later = .done ()) ∧
    ∀ error, process = .failed error → later = .failed error

variable [DecidableEq Peer]

/-- Some run of `serve` mirrors what the event loop has come to. -/
def Mirrored {α : Type} (process : SessionProcess Peer α)
    (moment : Moment Peer) : Prop :=
  ∃ visits sweep heard later mirror,
    Becomes (serve visits) nothingYet later mirror ∧
      Mirrors clientTimeout accepted visits sweep heard moment mirror ∧
      EndsLike process later

/-- A read that is pending. -/
structure Pending (visits : List (Visit Peer)) (peer : Peer)
    (reading : Reading Peer) : Prop where
  accepted : reading.connection ∈ accepted
  client : reading.connection.client = peer
  unvisited : ¬ Visited visits peer
  bounded : reading.dataBuffer.length ≤ reading.size
  small : ∀ size, reading.messageSize = some size →
    size ≤ maxFirstMessageSize

/-- Between two events the mirror has finished its visits. -/
def AtRest (readings : Readings Peer) (moment : Moment Peer) : Prop :=
  ∃ visits sweep mirror,
    Becomes (serve visits) nothingYet (.done ()) mirror ∧
      Mirrors clientTimeout accepted visits sweep (heardOf readings) moment
        mirror ∧
      ∀ peer reading, readings peer = some reading →
        Pending accepted visits peer reading

end Mirroring

theorem Mirrors.more
    {clientTimeout : Int} {accepted : List (Connection Peer)}
    {visits : List (Visit Peer)} {sweep : List (SessionCode × Int)}
    {heard : Traffic Peer} {moment mirror : Moment Peer}
    (mirrors : Mirrors clientTimeout accepted visits sweep heard moment
      mirror)
    (others : List (Connection Peer)) :
    Mirrors clientTimeout (accepted ++ others) visits sweep heard moment
      mirror where
  served visited isVisited := by
    rcases mirrors.served visited isVisited with ⟨connection, member, swept⟩
    exact ⟨connection, List.mem_append_left _ member, swept⟩
  once := mirrors.once
  state := mirrors.state
  sent := mirrors.sent
  received := mirrors.received
  unvisited peer isHeard := by
    rcases mirrors.unvisited peer isHeard with
      ⟨⟨connection, member, isClient⟩, unvisited⟩
    exact ⟨⟨connection, List.mem_append_left _ member, isClient⟩, unvisited⟩

section Steps

variable [DecidableEq Peer]
variable {clientTimeout : Int} {accepted others : List (Connection Peer)}
variable {visits : List (Visit Peer)} {sweep : List (SessionCode × Int)}
variable {heard : Traffic Peer} {readings : Readings Peer}
variable {moment mirror last : Moment Peer}

omit [DecidableEq Peer] in
theorem Pending.more
    {peer : Peer} {reading : Reading Peer}
    (pending : Pending accepted visits peer reading)
    (others : List (Connection Peer)) :
    Pending (accepted ++ others) visits peer reading :=
  { pending with accepted := List.mem_append_left _ pending.accepted }

theorem AtRest.more
    (atRest : AtRest clientTimeout accepted readings moment)
    (others : List (Connection Peer)) :
    AtRest clientTimeout (accepted ++ others) readings moment := by
  rcases atRest with ⟨visits, sweep, mirror, runs, mirrors, pending⟩
  exact ⟨visits, sweep, mirror, runs, mirrors.more others,
    fun peer reading isPending => (pending peer reading isPending).more _⟩

theorem Mirrored.more
    {α : Type} {process : SessionProcess Peer α}
    (mirrored : Mirrored clientTimeout accepted process moment)
    (others : List (Connection Peer)) :
    Mirrored clientTimeout (accepted ++ others) process moment := by
  rcases mirrored with
    ⟨visits, sweep, heard, later, mirror, runs, mirrors, ends⟩
  exact ⟨visits, sweep, heard, later, mirror, runs, mirrors.more others,
    ends⟩

/-- At rest nothing is in progress, whether or not the loop has ended. -/
theorem AtRest.mirrored
    {α : Type} {process : SessionProcess Peer α}
    (atRest : AtRest clientTimeout accepted readings moment)
    (noFailure : ∀ error, process ≠ .failed error) :
    Mirrored clientTimeout accepted process moment := by
  rcases atRest with ⟨visits, sweep, mirror, runs, mirrors, -⟩
  exact ⟨visits, sweep, heardOf readings, .done (), mirror, runs, mirrors,
    fun _ _ => rfl, fun error failed => absurd failed (noFailure error)⟩

theorem atRest_start :
    AtRest clientTimeout [] (fun _ : Peer => none) nothingYet := by
  refine ⟨[], [], nothingYet, .here, ?_, fun _ _ impossible => ?_⟩
  · refine ⟨?_, List.nodup_nil, rfl, rfl, rfl, ?_⟩
    · intro _ member
      cases member
    · intro _ isHeard
      exact absurd rfl isHeard
  · cases impossible

/-! ## Pending reads -/

omit [DecidableEq Peer] in
theorem heardOf_of_some
    {peer : Peer} {reading : Reading Peer}
    (isPending : readings peer = some reading) :
    heardOf readings peer = reading.heard := by
  simp [heardOf, isPending]

theorem heardOf_update
    (peer : Peer) (next : Option (Reading Peer)) :
    heardOf (Function.update readings peer next) =
      Function.update (heardOf readings) peer
        ((next.map Reading.heard).getD []) := by
  ext1 other
  by_cases same : other = peer
  · subst same
    simp [heardOf]
  · simp [heardOf, same]

omit [DecidableEq Peer] in
/-- The clients of the visits are clients that were accepted. -/
theorem Mirrors.accepted_of_visited
    {peer : Peer}
    (mirrors : Mirrors clientTimeout accepted visits sweep heard moment
      mirror)
    (visited : Visited visits peer) :
    ∃ connection ∈ accepted, connection.client = peer := by
  rcases visited with ⟨visited, member, rfl⟩
  rcases mirrors.served visited member with ⟨connection, isAccepted, _, rfl⟩
  exact ⟨connection, isAccepted, rfl⟩

omit [DecidableEq Peer] in
theorem visited_concat
    {peer : Peer} {next : Visit Peer} :
    Visited (visits ++ [next]) peer ↔
      Visited visits peer ∨ next.client = peer := by
  simp [Visited, or_and_right, exists_or]

/-! ## A session that has its first message -/

/--
The mirror makes one more visit and follows the session from there.  What the
other clients have sent is not touched by it.
-/
theorem session_follows
    {connection : Connection Peer} {session later : SessionProcess Peer Unit}
    (runs : Becomes (serve visits) nothingYet (.done ()) mirror)
    (mirrors : Mirrors clientTimeout accepted visits sweep heard moment
      mirror)
    (isAccepted : connection ∈ accepted)
    (unvisited : ¬ Visited visits connection.client)
    (reads : Becomes (visit (visitOf clientTimeout sweep connection)) mirror
      session
      ((sweptBy (visitOf clientTimeout sweep connection) mirror).receives
        connection.client (heard connection.client)))
    (becomes : Becomes session moment later last) :
    ∃ next,
      Becomes (serve (visits ++ [visitOf clientTimeout sweep connection]))
        nothingYet later next ∧
      Mirrors clientTimeout accepted
        (visits ++ [visitOf clientTimeout sweep connection]) []
        (Function.update heard connection.client []) last next := by
  have onceMore : Becomes
      (serve (visits ++ [visitOf clientTimeout sweep connection]))
      nothingYet session
      ((sweptBy (visitOf clientTimeout sweep connection) mirror).receives
        connection.client (heard connection.client)) := by
    rw [serve_concat]
    exact (becomes_bind runs _).trans reads
  have confined := (serve_confined
    (visits ++ [visitOf clientTimeout sweep connection])
    (fun visited member => ⟨visited, member, rfl⟩)).of_becomes
      (knowsOnly_empty (Visited _)) onceMore
  -- The session has the same table in the loop and in the mirror.
  have sameState : moment.state =
      ((sweptBy (visitOf clientTimeout sweep connection) mirror).receives
        connection.client (heard connection.client)).state :=
    mirrors.state
  have others := (confined.2.1.of_becomes (sameState ▸ confined.1)
    becomes).2.2
  rcases becomes_after becomes with
    ⟨inputs, outputs, received, sent, elsewhere⟩
  refine ⟨_, onceMore.trans (sameState ▸ elsewhere _ _), ?_⟩
  constructor
  · intro visited member
    rw [List.mem_append, List.mem_singleton] at member
    rcases member with before | rfl
    · exact mirrors.served visited before
    · exact ⟨connection, isAccepted, sweep, rfl⟩
  · rw [List.map_append, List.nodup_append]
    refine ⟨mirrors.once, List.nodup_singleton _, ?_⟩
    rintro peer isVisited other isNext rfl
    rw [List.map_singleton, List.mem_singleton] at isNext
    rw [List.mem_map] at isVisited
    subst isNext
    exact unvisited isVisited
  · rfl
  · show last.sent = mirror.sent.followedBy outputs
    rw [sent, mirrors.sent]
  · show last.received =
      ((mirror.received.followedBy
        (only connection.client (heard connection.client))).followedBy
          inputs).followedBy _
    ext1 peer
    by_cases isClient : peer = connection.client
    · subst isClient
      simp [received, mirrors.received]
    · have silent : heard peer = [] ∨ inputs peer = [] := by
        by_contra both
        rw [not_or] at both
        have outside : ¬ Visited
            (visits ++ [visitOf clientTimeout sweep connection]) peer := by
          rw [visited_concat, not_or]
          exact ⟨(mirrors.unvisited peer both.1).2, Ne.symm isClient⟩
        have same := (others peer outside).1
        exact both.2 (by simpa [received] using same)
      rcases silent with noneHeard | noneRead
      · simp [received, mirrors.received, isClient,
          only_other isClient, noneHeard]
      · simp [received, mirrors.received, isClient,
          only_other isClient, noneRead]
  · intro peer isHeard
    by_cases isClient : peer = connection.client
    · subst isClient
      simp at isHeard
    · rw [Function.update_of_ne isClient] at isHeard
      rcases mirrors.unvisited peer isHeard with ⟨wasAccepted, before⟩
      refine ⟨wasAccepted, ?_⟩
      rw [visited_concat, not_or]
      exact ⟨before, Ne.symm isClient⟩

omit [DecidableEq Peer] in
theorem EndsLike.bind
    {α β : Type} {process : SessionProcess Peer α}
    {next : α → SessionProcess Peer β} {later : SessionProcess Peer Unit}
    (ends : EndsLike process later)
    (goesOn : ∀ value, process = .done value →
      ∀ error, next value ≠ .failed error) :
    EndsLike (process >>= next) later := by
  constructor
  · intro value isDone
    cases process with
    | done first => exact ends.1 first rfl
    | failed error => cases isDone
    | outOfFuel => cases isDone
    | update change rest => cases isDone
    | put peer byte rest lost => cases isDone
    | get peer rest lost => cases isDone
  · intro error isFailed
    cases process with
    | done first => exact absurd isFailed (goesOn first rfl error)
    | failed other =>
        cases isFailed
        exact ends.2 error rfl
    | outOfFuel => cases isFailed
    | update change rest => cases isFailed
    | put peer byte rest lost => cases isFailed
    | get peer rest lost => cases isFailed

/-- What a session that has read its first message does is mirrored. -/
theorem AtRest.session
    {peer : Peer} {reading : Reading Peer}
    {session later : SessionProcess Peer Unit}
    (atRest : AtRest clientTimeout accepted readings moment)
    (isPending : readings peer = some reading)
    (reads : ∀ sweep mirror,
      Becomes (visit (visitOf clientTimeout sweep reading.connection)) mirror
        session
        ((sweptBy (visitOf clientTimeout sweep reading.connection)
          mirror).receives reading.connection.client reading.heard))
    (becomes : Becomes session moment later last) :
    Mirrored clientTimeout accepted later last ∧
      (later = .done () →
        AtRest clientTimeout accepted (Function.update readings peer none)
          last) := by
  rcases atRest with ⟨visits, sweep, mirror, runs, mirrors, pending⟩
  have ofPeer := pending peer reading isPending
  have isHeard : heardOf readings reading.connection.client =
      reading.heard := by
    rw [ofPeer.client]
    exact heardOf_of_some isPending
  have unvisited : ¬ Visited visits reading.connection.client := by
    rw [ofPeer.client]
    exact ofPeer.unvisited
  rcases session_follows runs mirrors ofPeer.accepted unvisited
    (isHeard ▸ reads sweep mirror) becomes with ⟨next, onward, mirrored⟩
  refine ⟨⟨_, _, _, _, next, onward, mirrored, ?_⟩, ?_⟩
  · exact ⟨fun _ isDone => isDone, fun _ isFailed => isFailed⟩
  · rintro rfl
    refine ⟨_, [], next, onward, ?_, ?_⟩
    · rw [heardOf_update, ← ofPeer.client]
      exact mirrored
    · intro other otherReading isOther
      by_cases same : other = peer
      · subst same
        rw [Function.update_self] at isOther
        cases isOther
      · rw [Function.update_of_ne same] at isOther
        have before := pending other otherReading isOther
        refine { before with unvisited := ?_ }
        rw [visited_concat, not_or]
        refine ⟨before.unvisited, ?_⟩
        show reading.connection.client ≠ other
        rw [ofPeer.client]
        exact Ne.symm same

/-! ## Events -/

variable (clientTimeout accepted) in
/-- What an event has come to is mirrored, and after it the loop rests. -/
def Follows (later : SessionProcess Peer (Readings Peer))
    (last : Moment Peer) : Prop :=
  Mirrored clientTimeout accepted later last ∧
    ∀ next, later = .done next → AtRest clientTimeout accepted next last

theorem AtRest.follows_done
    {later : SessionProcess Peer (Readings Peer)}
    (atRest : AtRest clientTimeout accepted readings last)
    (isDone : later = .done readings) :
    Follows clientTimeout accepted later last := by
  subst isDone
  constructor
  · apply atRest.mirrored
    rintro _ ⟨⟩
  · rintro _ ⟨⟩
    exact atRest

theorem AtRest.follows_session
    {peer : Peer} {reading : Reading Peer}
    {session : SessionProcess Peer Unit}
    {later : SessionProcess Peer (Readings Peer)}
    (atRest : AtRest clientTimeout accepted readings moment)
    (isPending : readings peer = some reading)
    (reads : ∀ sweep mirror,
      Becomes (visit (visitOf clientTimeout sweep reading.connection)) mirror
        session
        ((sweptBy (visitOf clientTimeout sweep reading.connection)
          mirror).receives reading.connection.client reading.heard))
    (becomes : Becomes
      (session >>= fun _ => .done (Function.update readings peer none))
      moment later last) :
    Follows clientTimeout accepted later last := by
  rcases becomes_of_bind becomes with
    ⟨rest, rfl, first⟩ | ⟨⟨⟩, between, first, second⟩
  · rcases atRest.session isPending reads first with ⟨mirrored, finishes⟩
    constructor
    · rcases mirrored with
        ⟨visits, sweep, heard, later, mirror, runs, mirrors, ends⟩
      exact ⟨visits, sweep, heard, later, mirror, runs, mirrors,
        ends.bind fun _ _ _ isFailed => nomatch isFailed⟩
    · intro next isDone
      cases rest with
      | done value =>
          cases isDone
          exact finishes rfl
      | failed error => cases isDone
      | outOfFuel => cases isDone
      | update change rest => cases isDone
      | put peer byte rest lost => cases isDone
      | get peer rest lost => cases isDone
  · rcases becomes_of_done second with ⟨isDone, rfl⟩
    exact ((atRest.session isPending reads first).2 rfl).follows_done isDone

/-- A read that goes on, with these bytes more. -/
theorem AtRest.goes_on
    {peer : Peer} {reading next : Reading Peer} {bytes : Bytes}
    (atRest : AtRest clientTimeout accepted readings moment)
    (isPending : readings peer = some reading)
    (sameConnection : next.connection = reading.connection)
    (hears : next.heard = reading.heard ++ bytes)
    (bounded : next.dataBuffer.length ≤ next.size)
    (small : ∀ size, next.messageSize = some size →
      size ≤ maxFirstMessageSize) :
    AtRest clientTimeout accepted (Function.update readings peer (some next))
      (moment.receives peer bytes) := by
  rcases atRest with ⟨visits, sweep, mirror, runs, mirrors, pending⟩
  have ofPeer := pending peer reading isPending
  refine ⟨visits, sweep, mirror, runs, ?_, ?_⟩
  · refine ⟨mirrors.served, mirrors.once, mirrors.state, ?_, ?_, ?_⟩
    · exact mirrors.sent
    · show moment.received.followedBy (only peer bytes) = _
      rw [heardOf_update, mirrors.received]
      ext1 other
      by_cases same : other = peer
      · subst same
        simp [heardOf_of_some isPending, hears]
      · simp [same, only_other same]
    · intro other isHeard
      rw [heardOf_update] at isHeard
      by_cases same : other = peer
      · subst same
        exact ⟨⟨_, ofPeer.accepted, ofPeer.client⟩, ofPeer.unvisited⟩
      · rw [Function.update_of_ne same] at isHeard
        exact mirrors.unvisited other isHeard
  · intro other otherReading isOther
    by_cases same : other = peer
    · subst same
      rw [Function.update_self] at isOther
      cases isOther
      exact ⟨sameConnection ▸ ofPeer.accepted,
        sameConnection ▸ ofPeer.client, ofPeer.unvisited, bounded, small⟩
    · rw [Function.update_of_ne same] at isOther
      exact pending other otherReading isOther

/-- A pending read gets one more byte, or it loses the connection. -/
theorem arrive_follows
    {peer : Peer} {reading : Reading Peer}
    {later : SessionProcess Peer (Readings Peer)}
    (atRest : AtRest clientTimeout accepted readings moment)
    (isPending : readings peer = some reading)
    (short : reading.dataBuffer.length < reading.size)
    (becomes : Becomes
      (arrive reading >>= fun next =>
        .done (Function.update readings peer next)) moment later last) :
    Follows clientTimeout accepted later last := by
  have ofPeer : ∃ visits, Pending accepted visits peer reading := by
    rcases atRest with ⟨visits, _, _, _, _, pending⟩
    exact ⟨visits, pending peer reading isPending⟩
  rcases ofPeer with ⟨_, ofPeer⟩
  rcases becomes_of_get becomes with ⟨rfl, rfl⟩ | ⟨byte, onward⟩ | onward
  · refine ⟨atRest.mirrored fun _ isFailed => ?_, ?_⟩
    · cases isFailed
    · intro _ isDone
      cases isDone
  · rcases becomes_of_done onward with ⟨isDone, rfl⟩
    rw [ofPeer.client]
    refine AtRest.follows_done ?_ isDone
    refine atRest.goes_on isPending rfl ?_ ?_ ofPeer.small
    · rcases reading with ⟨connection, _ | messageSize, dataBuffer⟩
      · rfl
      · exact (List.append_assoc ..).symm
    · rw [List.length_append]
      exact short
  · rcases becomes_of_done onward with ⟨isDone, rfl⟩
    have lost : ∀ sweep mirror, Becomes
        (visit (visitOf clientTimeout sweep reading.connection)) mirror
        (.done ())
        ((sweptBy (visitOf clientTimeout sweep reading.connection)
          mirror).receives reading.connection.client reading.heard) :=
      fun sweep mirror => visit_loses ofPeer.small short
    exact ((atRest.session isPending lost .here).2 rfl).follows_done isDone

/-- The handler of a read that has all its bytes. -/
theorem completeRead_follows
    {peer : Peer} {reading : Reading Peer}
    {later : SessionProcess Peer (Readings Peer)}
    (atRest : AtRest clientTimeout accepted readings moment)
    (isPending : readings peer = some reading)
    (complete : ¬ reading.dataBuffer.length < reading.size)
    (becomes : Becomes
      (completeRead reading >>= fun next =>
        .done (Function.update readings peer next)) moment later last) :
    Follows clientTimeout accepted later last := by
  have ofPeer : ∃ visits, Pending accepted visits peer reading := by
    rcases atRest with ⟨visits, _, _, _, _, pending⟩
    exact ⟨visits, pending peer reading isPending⟩
  rcases ofPeer with ⟨_, ofPeer⟩
  have whole : reading.dataBuffer.length = reading.size :=
    Nat.le_antisymm ofPeer.bounded (Nat.not_lt.1 complete)
  rcases reading with ⟨connection, _ | messageSize, dataBuffer⟩
  · have isHeader : sizeBytes (sizeOfBytes dataBuffer) = dataBuffer :=
      sizeBytes_sizeOfBytes whole
    rw [completeRead] at becomes
    dsimp only at becomes
    split_ifs at becomes with tooLarge
    · rw [bind_assoc] at becomes
      refine atRest.follows_session isPending (fun sweep mirror => ?_)
        becomes
      have refuses : Becomes (visit (visitOf clientTimeout sweep connection))
          mirror _ _ :=
        visit_refuses tooLarge (sizeOfBytes_lt whole)
      rwa [isHeader] at refuses
    · have goesOn : AtRest clientTimeout accepted
          (Function.update readings peer
            (some ⟨connection, some (sizeOfBytes dataBuffer), []⟩))
          (moment.receives peer []) := by
        refine atRest.goes_on isPending rfl ?_ (Nat.zero_le _) ?_
        · simp [Reading.heard, isHeader]
        · rintro _ ⟨⟩
          exact Nat.not_lt.1 tooLarge
      rw [Local.receives_nil] at goesOn
      rcases becomes_of_done becomes with ⟨isDone, rfl⟩
      exact goesOn.follows_done isDone
  · rw [completeRead] at becomes
    dsimp only at becomes
    rw [bind_assoc] at becomes
    refine atRest.follows_session isPending (fun sweep mirror => ?_) becomes
    have fits : dataBuffer.length ≤ maxFirstMessageSize := by
      rw [whole]
      exact ofPeer.small messageSize rfl
    have hears : Becomes (visit (visitOf clientTimeout sweep connection))
        mirror _ _ :=
      visit_hears fits
    rw [frame, whole] at hears
    exact hears

/-- A new connection waits for a header. -/
theorem AtRest.accepts
    {connection : Connection Peer}
    (atRest : AtRest clientTimeout accepted readings moment)
    (fresh : ∀ other ∈ accepted, other.client ≠ connection.client) :
    AtRest clientTimeout (accepted ++ [connection])
      (acceptNewConnection connection readings) moment := by
  rcases atRest with ⟨visits, sweep, mirror, runs, mirrors, pending⟩
  have unheard : heardOf readings connection.client = [] := by
    by_contra isHeard
    rcases (mirrors.unvisited _ isHeard).1 with ⟨other, isAccepted, same⟩
    exact fresh other isAccepted same
  rw [acceptNewConnection, if_neg (Nat.not_lt.2 firstMessage_allowed)]
  refine ⟨visits, sweep, mirror, runs, ?_, ?_⟩
  · have sameHeard : heardOf (Function.update readings connection.client
        (some ⟨connection, none, []⟩)) = heardOf readings := by
      rw [heardOf_update]
      exact Function.update_eq_self_iff.2 unheard.symm
    rw [sameHeard]
    exact mirrors.more _
  · intro other reading isOther
    by_cases same : other = connection.client
    · subst same
      rw [Function.update_self] at isOther
      cases isOther
      refine ⟨by simp, rfl, ?_, Nat.zero_le _, by simp⟩
      intro visited
      rcases mirrors.accepted_of_visited visited with
        ⟨other, isAccepted, same⟩
      exact fresh other isAccepted same
    · rw [Function.update_of_ne same] at isOther
      exact (pending other reading isOther).more _

/-- A sweep waits for the next session. -/
theorem AtRest.sweeps
    (atRest : AtRest clientTimeout accepted readings moment)
    (more : List (SessionCode × Int)) :
    AtRest clientTimeout accepted readings
      (moment.change (terminateTimeoutClients clientTimeout more)) := by
  rcases atRest with ⟨visits, sweep, mirror, runs, mirrors, pending⟩
  refine ⟨visits, sweep ++ more, mirror, runs, ?_, pending⟩
  refine { mirrors with state := ?_ }
  show terminateTimeoutClients clientTimeout more moment.state = _
  rw [mirrors.state, terminateTimeoutClients, terminateTimeoutClients,
    terminateTimeoutClients, List.foldl_append]

/-- One event, completed or not. -/
theorem handleEvent_follows
    {event : Event Peer} {later : SessionProcess Peer (Readings Peer)}
    (atRest : AtRest clientTimeout accepted readings moment)
    (once : ((accepted ++ event.connections).map Connection.client).Nodup)
    (becomes : Becomes (handleEvent clientTimeout readings event) moment
      later last) :
    Follows clientTimeout (accepted ++ event.connections) later last := by
  cases event with
  | accepts connection =>
      rcases becomes_of_done becomes with ⟨isDone, rfl⟩
      refine AtRest.follows_done (atRest.accepts ?_) isDone
      intro other isAccepted same
      rw [List.map_append, List.nodup_append] at once
      exact once.2.2 _ (List.mem_map_of_mem isAccepted) _
        (List.mem_singleton_self _) same
  | acceptFails =>
      rcases becomes_of_done becomes with ⟨isDone, rfl⟩
      exact (atRest.more _).follows_done isDone
  | arrives client =>
      have stillAtRest := atRest.more (Event.arrives client).connections
      cases isPending : readings client with
      | none =>
          rw [handleEvent, isPending] at becomes
          rcases becomes_of_done becomes with ⟨isDone, rfl⟩
          exact stillAtRest.follows_done isDone
      | some reading =>
          rw [handleEvent, isPending] at becomes
          dsimp only at becomes
          split_ifs at becomes with short
          · exact arrive_follows stillAtRest isPending short becomes
          · rcases becomes_of_done becomes with ⟨isDone, rfl⟩
            exact stillAtRest.follows_done isDone
  | completes client =>
      have stillAtRest := atRest.more (Event.completes client).connections
      cases isPending : readings client with
      | none =>
          rw [handleEvent, isPending] at becomes
          rcases becomes_of_done becomes with ⟨isDone, rfl⟩
          exact stillAtRest.follows_done isDone
      | some reading =>
          rw [handleEvent, isPending] at becomes
          dsimp only at becomes
          split_ifs at becomes with short
          · rcases becomes_of_done becomes with ⟨isDone, rfl⟩
            exact stillAtRest.follows_done isDone
          · exact completeRead_follows stillAtRest isPending short becomes
  | sweeps sweep =>
      have stillAtRest := atRest.more (Event.sweeps sweep).connections
      rcases becomes_of_update becomes with ⟨rfl, rfl⟩ | onward
      · refine ⟨stillAtRest.mirrored fun _ isFailed => ?_, ?_⟩
        · cases isFailed
        · intro _ isDone
          cases isDone
      · rcases becomes_of_done onward with ⟨isDone, rfl⟩
        exact (stillAtRest.sweeps sweep).follows_done isDone

/-- All events after some point of the loop. -/
theorem run_mirrored
    {events : List (Event Peer)} {later : SessionProcess Peer Unit}
    (atRest : AtRest clientTimeout accepted readings moment)
    (once : ((accepted ++ connections events).map Connection.client).Nodup)
    (becomes : Becomes (run clientTimeout events readings) moment later
      last) :
    Mirrored clientTimeout (accepted ++ connections events) later last := by
  induction events generalizing accepted readings moment with
  | nil =>
      rcases becomes_of_done becomes with ⟨rfl, rfl⟩
      refine AtRest.mirrored (atRest.more _) ?_
      rintro _ ⟨⟩
  | cons event rest inductionHypothesis =>
      have split : accepted ++ connections (event :: rest) =
          accepted ++ event.connections ++ connections rest := by
        simp [connections]
      rw [split] at once ⊢
      have onceNow :
          ((accepted ++ event.connections).map Connection.client).Nodup := by
        rw [List.map_append] at once
        exact once.of_append_left
      -- The loop is still at this event, or it has gone on.
      rcases becomes_of_bind becomes with
        ⟨handling, rfl, first⟩ | ⟨next, between, first, second⟩
      · rcases handleEvent_follows atRest onceNow first with
          ⟨mirrored, rests⟩
        by_cases isDone : ∃ next, handling = .done next
        · rcases isDone with ⟨next, rfl⟩
          exact inductionHypothesis (rests next rfl) once .here
        · rcases mirrored.more (connections rest) with
            ⟨visits, sweep, heard, later, mirror, runs, mirrors, ends⟩
          refine ⟨visits, sweep, heard, later, mirror, runs, mirrors, ?_⟩
          exact ends.bind fun value same => absurd ⟨value, same⟩ isDone
      · have rests := (handleEvent_follows atRest onceNow first).2 next rfl
        exact inductionHypothesis rests once second

/--
Whatever the event loop has come to, with any connections and any order of
completions, a server that serves one client after another could have come to
as well.
-/
theorem run_refines_serve
    (clientTimeout : Int) (events : List (Event Peer))
    (once : ((connections events).map Connection.client).Nodup)
    (later : SessionProcess Peer Unit) (last : Moment Peer)
    (becomes : Becomes (run clientTimeout events fun _ => none) nothingYet
      later last) :
    Mirrored clientTimeout (connections events) later last := by
  have atRest : AtRest clientTimeout [] (fun _ : Peer => none) nothingYet :=
    atRest_start
  exact run_mirrored atRest once becomes

end Steps

/-- A header comes in slowly, and meanwhile another client goes away. -/
def slowHeader : List (Event Bool) :=
  [.accepts ⟨true, FirstRead.flatSettings, 3⟩,
    .accepts ⟨false, FirstRead.flatSettings, 3⟩, .arrives true,
    .arrives false, .sweeps [(ascii "old-two-7", 90)]]

theorem slowHeader_becomes :
    Becomes (run 60 slowHeader fun _ => none) nothingYet (.done ())
      (((nothingYet : Moment Bool).receives true [200]).change
        (terminateTimeoutClients 60 [(ascii "old-two-7", 90)])) := by
  have arrives := Becomes.moves
    (.here : Becomes (run 60 slowHeader fun _ => none) nothingYet _ _)
    (.get true _ _ 200 ∅)
  have lost := arrives.loses (.get false _ _)
  have swept := lost.moves (.update _ _ _)
  rwa [followedBy_silence, followedBy_silence, followedBy_silence] at swept

theorem run_refines_serve_slowHeader :
    Mirrored 60 (connections slowHeader)
      (.done () : SessionProcess Bool Unit)
      (((nothingYet : Moment Bool).receives true [200]).change
        (terminateTimeoutClients 60 [(ascii "old-two-7", 90)])) :=
  run_refines_serve 60 slowHeader (by decide) _ _ slowHeader_becomes

end DropFile.Server.EventLoop
