import DropFile.Server.ServedVisits

/-!
# Served transfers

What the server says, turn by turn, to clients that do what they are meant to
do, when it handles their first messages in the order of a schedule.
-/

namespace DropFile.Server.ServedTransfers

open DropFile.General.Dialogues
open DropFile.General.Processes.Process
open DropFile.Streams
open DropFile.Socket
open DropFile.JsonObjects
open DropFile.Server.SessionsManager
open DropFile.Server.ServerSideClientSession
open DropFile.Server.Serving
open DropFile.Server.ServedVisits

/-! ## Schedules -/

/-- The server and the two clients of every transfer. -/
inductive Party (ι : Type) where
  | server
  | sender (pair : ι)
  | receiver (pair : ι)
deriving DecidableEq

/-- What the server handles. -/
inductive Event (ι : Type) where
  | registers (pair : ι)
  | fetches (pair : ι)
deriving DecidableEq

namespace Event

variable {ι : Type}

def pair : Event ι → ι
  | registers pair => pair
  | fetches pair => pair

def client : Event ι → Party ι
  | registers pair => .sender pair
  | fetches pair => .receiver pair

end Event

/-- The order in which the server handles its clients. -/
structure Schedule (ι : Type) where
  events : List (Event ι)
  settings : Event ι → Settings
  clientTimeout : Int
  sweep : Event ι → List (SessionCode × Int)

/-- What the clients of a transfer and the server say. -/
structure Offer where
  json : Json
  message : Bytes
  answer : Bytes
  request : Bytes
  pieces : List Bytes

section Schedules

variable {ι : Type}

namespace Schedule

variable (schedule : Schedule ι) (fuel : Nat)

def visit (event : Event ι) : Visit (Party ι) :=
  ⟨event.client, schedule.settings event, fuel, schedule.clientTimeout,
    schedule.sweep event⟩

/-- The code that a sender is given. -/
def sessionCode (pair : ι) : SessionCode :=
  (schedule.settings (.registers pair)).generateSessionID 0

/-- The session of a sender in the table. -/
def session (offer : ι → Offer) (pair : ι) :
    TimedClientSession (Party ι) Json :=
  ⟨.sender pair, (offer pair).json,
    (schedule.settings (.registers pair)).now⟩

end Schedule

variable [DecidableEq ι]

/-- The events of one transfer. -/
def eventsOf (pair : ι) (events : List (Event ι)) : List (Event ι) :=
  events.filter fun event => event.pair = pair

theorem eventsOf_cons
    (pair : ι) (event : Event ι) (rest : List (Event ι)) :
    eventsOf pair (event :: rest) =
      if event.pair = pair then event :: eventsOf pair rest
      else eventsOf pair rest := by
  simp [eventsOf, List.filter_cons]

theorem eventsOf_cons_own
    {pair : ι} {event : Event ι}
    (own : event.pair = pair)
    (rest : List (Event ι)) :
    eventsOf pair (event :: rest) = event :: eventsOf pair rest := by
  rw [eventsOf_cons, if_pos own]

/--
Every receiver asks once, after its sender was registered and in time, and no
two senders are given the same code.
-/
structure Orderly (schedule : Schedule ι) : Prop where
  once : ∀ pair,
    eventsOf pair schedule.events = [.registers pair, .fetches pair]
  distinct : Function.Injective schedule.sessionCode
  inTime : ∀ event ∈ schedule.events, ∀ visit ∈ schedule.sweep event,
    ∀ pair, visit.2 - (schedule.settings (.registers pair)).now ≤
      schedule.clientTimeout

/-- A schedule is a list, so only so many can take part in it. -/
theorem Orderly.finite
    {schedule : Schedule ι}
    (orderly : Orderly schedule) :
    Finite ι := by
  have present (pair : ι) : Event.registers pair ∈ schedule.events := by
    have member : Event.registers pair ∈ eventsOf pair schedule.events := by
      rw [orderly.once]
      exact List.mem_cons_self
    exact (List.mem_filter.1 member).1
  apply Finite.of_injective fun pair =>
    (⟨.registers pair, present pair⟩ : {event // event ∈ schedule.events})
  intro first second same
  exact Event.registers.inj (Subtype.mk.inj same)

/-- The server can handle every event of the schedule. -/
structure Served (schedule : Schedule ι) (offer : ι → Offer) (fuel : Nat) :
    Prop extends Orderly schedule where
  registers : ∀ pair,
    Registers (schedule.visit fuel (.registers pair)) (offer pair).json
      (offer pair).message (offer pair).answer
  fetches : ∀ pair,
    Fetches (schedule.visit fuel (.fetches pair)) (offer pair).json
      (schedule.sessionCode pair) (offer pair).message (offer pair).request
      (offer pair).pieces

/-! ## The dialogue of a schedule -/

/-- The dialogue about one event; in the end the server goes on. -/
def block (offer : ι → Offer) : Event ι → List (Party ι × Bytes)
  | .registers pair =>
      [(.sender pair, []), (.server, frame (offer pair).message),
        (.sender pair, frame (offer pair).answer), (.server, [])]
  | .fetches pair =>
      [(.receiver pair, []), (.server, frame (offer pair).request),
        (.receiver pair, frame (offer pair).message), (.server, frame ack),
        (.sender pair, frame ack), (.server, frames (offer pair).pieces),
        (.receiver pair, frames (offer pair).pieces), (.server, frame ack),
        (.sender pair, frame ack), (.server, [])]

/-- The turns of a sender in the block of one of its events. -/
def senderTurns (offer : ι → Offer) : Event ι → List (TurnTaken (Party ι))
  | .registers pair =>
      [⟨.server, [], .server, frame (offer pair).message⟩,
        ⟨.server, frame (offer pair).answer, .server, []⟩]
  | .fetches pair =>
      [⟨.server, frame ack, .server, frames (offer pair).pieces⟩,
        ⟨.server, frame ack, .server, []⟩]

/-- The turns of a receiver in the block of one of its events. -/
def receiverTurns (offer : ι → Offer) :
    Event ι → List (TurnTaken (Party ι))
  | .registers _ => []
  | .fetches pair =>
      [⟨.server, [], .server, frame (offer pair).request⟩,
        ⟨.server, frame (offer pair).message, .server, frame ack⟩,
        ⟨.server, frames (offer pair).pieces, .server, frame ack⟩]

variable {offer : ι → Offer}

omit [DecidableEq ι] in
theorem alternates_blocks (events : List (Event ι)) :
    Alternates .server (events.flatMap (block offer)) := by
  induction events with
  | nil => trivial
  | cons event rest inductionHypothesis =>
      rw [List.flatMap_cons]
      cases event with
      | registers pair => simpa [block, Alternates] using inductionHypothesis
      | fetches pair => simpa [block, Alternates] using inductionHypothesis

/-- A client takes part in the blocks of its own events. -/
theorem turnsOf_blocks
    {who : Party ι} {pair : ι} {turns : Event ι → List (TurnTaken (Party ι))}
    (own : ∀ event peer rest,
      turnsOf who .server peer [] (block offer event ++ rest) =
        (if event.pair = pair then turns event else []) ++
          turnsOf who .server (.sender event.pair) [] rest)
    (peer : Party ι) (events : List (Event ι)) :
    turnsOf who .server peer [] (events.flatMap (block offer)) =
      (eventsOf pair events).flatMap turns := by
  induction events generalizing peer with
  | nil => rfl
  | cons event rest inductionHypothesis =>
      rw [List.flatMap_cons, own, inductionHypothesis, eventsOf_cons]
      split_ifs
      · rw [List.flatMap_cons]
      · rfl

theorem turnsOf_sender
    (pair : ι) (peer : Party ι) (events : List (Event ι)) :
    turnsOf (.sender pair) .server peer [] (events.flatMap (block offer)) =
      (eventsOf pair events).flatMap (senderTurns offer) := by
  apply turnsOf_blocks
  intro event peer rest
  cases event with
  | registers other =>
      by_cases same : other = pair
      · simp [block, turnsOf, senderTurns, Event.pair, same]
      · simp [block, turnsOf, Event.pair, same]
  | fetches other =>
      by_cases same : other = pair
      · simp [block, turnsOf, senderTurns, Event.pair, same]
      · simp [block, turnsOf, Event.pair, same]

theorem turnsOf_receiver
    (pair : ι) (peer : Party ι) (events : List (Event ι)) :
    turnsOf (.receiver pair) .server peer []
        (events.flatMap (block offer)) =
      (eventsOf pair events).flatMap (receiverTurns offer) := by
  apply turnsOf_blocks
  intro event peer rest
  cases event with
  | registers other =>
      have nothing : receiverTurns offer (.registers other) = [] := rfl
      simp [block, turnsOf, nothing, Event.pair]
  | fetches other =>
      by_cases same : other = pair
      · simp [block, turnsOf, receiverTurns, Event.pair, same]
      · simp [block, turnsOf, Event.pair, same]

/-! ## The server follows the schedule -/

/-- What the table has to be for the events that are left. -/
inductive Ready (schedule : Schedule ι) (offer : ι → Offer)
    (table : SendersSessions (Party ι) Json) (events : List (Event ι))
    (pair : ι) : Prop where
  | both :
      eventsOf pair events = [.registers pair, .fetches pair] →
      schedule.sessionCode pair ∉ table →
      Ready schedule offer table events pair
  | registered :
      eventsOf pair events = [.fetches pair] →
      table.lookup (schedule.sessionCode pair) =
        some (schedule.session offer pair) →
      Ready schedule offer table events pair
  | finished :
      eventsOf pair events = [] →
      Ready schedule offer table events pair

variable {schedule : Schedule ι} {fuel : Nat}
variable {table : SendersSessions (Party ι) Json}
variable {events : List (Event ι)}

/-- A sweep finds nothing of the schedule that is too old. -/
theorem Ready.swept
    {event : Event ι} {pair : ι}
    (ready : Ready schedule offer table events pair)
    (served : Served schedule offer fuel)
    (isScheduled : event ∈ schedule.events) :
    Ready schedule offer (swept (schedule.visit fuel event) table) events
      pair := by
  cases ready with
  | both left free =>
      apply Ready.both left
      intro present
      rcases Option.isSome_iff_exists.1 (AList.lookup_isSome.2 present) with
        ⟨session, found⟩
      have before := lookup_of_terminateTimeoutClients found
      rw [AList.lookup_eq_none.2 free] at before
      cases before
  | registered left found =>
      apply Ready.registered left
      apply lookup_terminateTimeoutClients_of_inTime found
      intro visit member
      exact served.inTime event isScheduled visit member pair
  | finished left => exact Ready.finished left

/-- The other transfers do not notice that a sender is registered. -/
theorem Ready.insert
    {pair other : ι} {session : TimedClientSession (Party ι) Json}
    (ready : Ready schedule offer table events other)
    (served : Served schedule offer fuel)
    (different : other ≠ pair) :
    Ready schedule offer
      (table.insert (schedule.sessionCode pair) session) events other := by
  have codes : schedule.sessionCode other ≠ schedule.sessionCode pair :=
    fun same => different (served.distinct same)
  cases ready with
  | both left free =>
      apply Ready.both left
      rw [AList.mem_insert]
      exact not_or.2 ⟨codes, free⟩
  | registered left found =>
      apply Ready.registered left
      rw [AList.lookup_insert_ne codes, found]
  | finished left => exact Ready.finished left

theorem Ready.erase
    {pair other : ι}
    (ready : Ready schedule offer table events other)
    (served : Served schedule offer fuel)
    (different : other ≠ pair) :
    Ready schedule offer (table.erase (schedule.sessionCode pair)) events
      other := by
  have codes : schedule.sessionCode other ≠ schedule.sessionCode pair :=
    fun same => different (served.distinct same)
  cases ready with
  | both left free =>
      apply Ready.both left
      rw [AList.mem_erase]
      exact fun present => free present.2
  | registered left found =>
      apply Ready.registered left
      rw [AList.lookup_erase_ne codes, found]
  | finished left => exact Ready.finished left

/-- The events of the others are the same without the first one. -/
theorem Ready.tail
    {event : Event ι} {pair : ι}
    (ready : Ready schedule offer table (event :: events) pair)
    (different : event.pair ≠ pair) :
    Ready schedule offer table events pair := by
  have same : eventsOf pair (event :: events) = eventsOf pair events := by
    rw [eventsOf_cons, if_neg different]
  cases ready with
  | both left free => exact .both (same ▸ left) free
  | registered left found => exact .registered (same ▸ left) found
  | finished left => exact .finished (same ▸ left)

theorem Ready.of_registers
    {pair : ι}
    (ready : Ready schedule offer table (.registers pair :: events) pair) :
    eventsOf pair events = [.fetches pair] ∧
      schedule.sessionCode pair ∉ table := by
  have own : (Event.registers pair).pair = pair := rfl
  cases ready with
  | both left free =>
      rw [eventsOf_cons_own own] at left
      exact ⟨(List.cons.inj left).2, free⟩
  | registered left found =>
      rw [eventsOf_cons_own own] at left
      cases (List.cons.inj left).1
  | finished left =>
      rw [eventsOf_cons_own own] at left
      cases left

theorem Ready.of_fetches
    {pair : ι}
    (ready : Ready schedule offer table (.fetches pair :: events) pair) :
    eventsOf pair events = [] ∧
      table.lookup (schedule.sessionCode pair) =
        some (schedule.session offer pair) := by
  have own : (Event.fetches pair).pair = pair := rfl
  cases ready with
  | both left free =>
      rw [eventsOf_cons_own own] at left
      cases (List.cons.inj left).1
  | registered left found =>
      rw [eventsOf_cons_own own] at left
      exact ⟨(List.cons.inj left).2, found⟩
  | finished left =>
      rw [eventsOf_cons_own own] at left
      cases left

/-- The dialogue of the server, by induction on the events that are left. -/
theorem serve_schedule
    (served : Served schedule offer fuel)
    (scheduled : ∀ event ∈ events, event ∈ schedule.events)
    (ready : ∀ pair, Ready schedule offer table events pair)
    (peer : Party ι) :
    Converses (fun process _ => process = .done ())
      (turnsOf .server .server peer [] (events.flatMap (block offer)))
      (serve (events.map (schedule.visit fuel))) table := by
  induction events generalizing table peer with
  | nil => rfl
  | cons event rest inductionHypothesis =>
      rw [List.forall_mem_cons] at scheduled
      have swept := fun pair => (ready pair).swept served scheduled.1
      have starts (client : Party ι) : Plays
          (serve ((event :: rest).map (schedule.visit fuel))) table
          (only peer []) (only client [])
          (serve ((event :: rest).map (schedule.visit fuel))) table := by
        rw [only_nil, only_nil]
        exact .rest _ _
      cases event with
      | registers pair =>
          have left := (swept pair).of_registers
          have registers := serve_registers (served.registers pair)
            left.2 (rest.map (schedule.visit fuel))
          have following : ∀ other, Ready schedule offer
              ((ServedVisits.swept
                (schedule.visit fuel (.registers pair)) table).insert
                  (schedule.sessionCode pair)
                  (schedule.session offer pair)) rest other := by
            intro other
            by_cases same : other = pair
            · subst same
              exact Ready.registered left.1 (AList.lookup_insert _)
            · exact ((swept other).tail (Ne.symm same)).insert served same
          have continues := inductionHypothesis scheduled.2 following
            (.sender pair)
          exact ⟨_, _, starts (.sender pair), _, _, registers, continues⟩
      | fetches pair =>
          have left := (swept pair).of_fetches
          have following : ∀ other, Ready schedule offer
              ((ServedVisits.swept
                (schedule.visit fuel (.fetches pair)) table).erase
                  (schedule.sessionCode pair)) rest other := by
            intro other
            by_cases same : other = pair
            · subst same
              exact Ready.finished left.1
            · exact ((swept other).tail (Ne.symm same)).erase served same
          have continues := inductionHypothesis scheduled.2 following
            (.sender pair)
          exact ⟨_, _, starts (.receiver pair),
            (served.fetches pair).serve_converses left.2 continues⟩

/-- At the start nobody of the schedule is registered. -/
theorem ready_of_free
    (served : Served schedule offer fuel)
    (free : ∀ pair, schedule.sessionCode pair ∉ table)
    (pair : ι) :
    Ready schedule offer table schedule.events pair :=
  .both (served.once pair) (free pair)

end Schedules

end DropFile.Server.ServedTransfers
