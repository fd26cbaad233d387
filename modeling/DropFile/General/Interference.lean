import DropFile.General.Networks
import DropFile.General.ProcessRuns
import DropFile.General.Stages

/-!
# Interference

A process handles one event after another, and between any two of its steps
something else can change its state.  A handler is atomic when it looks at its
state at most once, before anything else.  If all handlers are atomic and every
change is an event as well, then nothing comes of the interference that does
not come of more events: the changes can be put between the handlers, and what
is left of them comes last.

In a network one party can be such a process; the others do not notice.
-/

namespace DropFile.General.Interference

open DropFile.General.FuelledProgram
open DropFile.General.Processes
open DropFile.General.Processes.Process
open DropFile.General.Networks
open DropFile.General.Networks.Network
open DropFile.General.ProcessRuns
open DropFile.General.Stages

variable {Peer ε σ α β : Type}

/-! ## Atomic processes -/

/-- The process does not look at its state. -/
def Quiet : Process Peer ε σ α → Prop
  | .done _ => True
  | .failed _ => True
  | .outOfFuel => True
  | .update _ _ => False
  | .put _ _ next lost => Quiet next ∧ Quiet lost
  | .get _ next lost => (∀ byte, Quiet (next byte)) ∧ Quiet lost

namespace Quiet

theorem pure (value : α) :
    Quiet (pure value : Process Peer ε σ α) :=
  trivial

theorem bind
    {process : Process Peer ε σ α} {next : α → Process Peer ε σ β}
    (first : Quiet process)
    (second : ∀ value, Quiet (next value)) :
    Quiet (process >>= next) := by
  induction process with
  | done value => exact second value
  | failed error => trivial
  | outOfFuel => trivial
  | update change rest => exact first.elim
  | put peer byte rest lost restHypothesis lostHypothesis =>
      exact ⟨restHypothesis first.1, lostHypothesis first.2⟩
  | get peer rest lost restHypothesis lostHypothesis =>
      exact ⟨fun byte => restHypothesis byte (first.1 byte),
        lostHypothesis first.2⟩

theorem handle
    {process : Process Peer ε σ α} {catcher : ε → Process Peer ε σ α}
    (quiet : Quiet process)
    (catches : ∀ error, Quiet (catcher error)) :
    Quiet (process.handle catcher) := by
  induction process with
  | done value => trivial
  | failed error => exact catches error
  | outOfFuel => trivial
  | update change rest => exact quiet.elim
  | put peer byte rest lost restHypothesis lostHypothesis =>
      exact ⟨restHypothesis quiet.1, lostHypothesis quiet.2⟩
  | get peer rest lost restHypothesis lostHypothesis =>
      exact ⟨fun byte => restHypothesis byte (quiet.1 byte),
        lostHypothesis quiet.2⟩

theorem loop
    {body : Nat → β → Process Peer ε σ (β ⊕ α)}
    (pass : ∀ fuel current, Quiet (body fuel current))
    (fuel : Nat) (current : β) :
    Quiet (Process.loop body fuel current) := by
  induction fuel generalizing current with
  | zero => trivial
  | succ fuel inductionHypothesis =>
      apply (pass fuel current).bind
      rintro (next | result)
      · exact inductionHypothesis next
      · trivial

theorem ofExcept (result : Except ε α) :
    Quiet (Process.ofExcept result : Process Peer ε σ α) := by
  cases result with
  | ok value => trivial
  | error error => trivial

end Quiet

/-- The process looks at its state at most once, before anything else. -/
inductive Atomic : Process Peer ε σ α → Prop where
  | quiet {process : Process Peer ε σ α} : Quiet process → Atomic process
  | update (change : σ → σ) {next : σ → Process Peer ε σ α} :
      (∀ state, Quiet (next state)) → Atomic (.update change next)

namespace Atomic

theorem ofProgram (program : Program ε σ α) :
    Atomic (Process.ofProgram program : Process Peer ε σ α) := by
  apply Atomic.update
  intro state
  cases program state with
  | returned value later => trivial
  | threw error later => trivial
  | outOfFuel => trivial

theorem bind
    {process : Process Peer ε σ α} {next : α → Process Peer ε σ β}
    (first : Atomic process)
    (second : ∀ value, Quiet (next value)) :
    Atomic (process >>= next) := by
  cases first with
  | quiet quiet => exact .quiet (quiet.bind second)
  | update change rest =>
      exact .update change fun state => (rest state).bind second

theorem handle
    {process : Process Peer ε σ α} {catcher : ε → Process Peer ε σ α}
    (atomic : Atomic process)
    (catches : ∀ error, Quiet (catcher error)) :
    Atomic (process.handle catcher) := by
  cases atomic with
  | quiet quiet => exact .quiet (quiet.handle catches)
  | update change rest =>
      exact .update change fun state => (rest state).handle catches

/-- What is known before the process looks at its state. -/
theorem ofExcept_bind
    {result : Except ε α} {next : α → Process Peer ε σ β}
    (succeeds : ∀ value, Atomic (next value)) :
    Atomic (Process.ofExcept result >>= next) := by
  cases result with
  | ok value => exact succeeds value
  | error error => exact .quiet trivial

end Atomic

/-! ## Steps among which the state changes -/

section Disturbing

variable [DecidableEq Peer]

/-- One step in any environment. -/
inductive Steps : Process Peer ε σ α → Local Peer σ →
    Process Peer ε σ α → Local Peer σ → Prop where
  | moves {process later : Process Peer ε σ α} {moment : Local Peer σ}
      {final : σ} {inputs outputs : Traffic Peer} :
      Moves process moment.state later final inputs outputs →
      Steps process moment later
        ⟨final, moment.received.followedBy inputs,
          moment.sent.followedBy outputs⟩
  | loses {process later : Process Peer ε σ α} (moment : Local Peer σ) :
      Loses process later → Steps process moment later moment

theorem Steps.becomes
    {process middle later : Process Peer ε σ α}
    {moment between last : Local Peer σ}
    (becomes : Becomes process moment middle between)
    (steps : Steps middle between later last) :
    Becomes process moment later last := by
  cases steps with
  | moves moves => exact becomes.moves moves
  | loses _ loses => exact becomes.loses loses

/-- What a process can become if its state changes at any time as well. -/
inductive Disturbed (changes : σ → σ → Prop) (process : Process Peer ε σ α)
    (moment : Local Peer σ) :
    Process Peer ε σ α → Local Peer σ → Prop where
  | here : Disturbed changes process moment process moment
  | steps {middle later : Process Peer ε σ α} {between last : Local Peer σ} :
      Disturbed changes process moment middle between →
      Steps middle between later last →
      Disturbed changes process moment later last
  | changed {later : Process Peer ε σ α} {last : Local Peer σ} {state : σ} :
      Disturbed changes process moment later last →
      changes last.state state →
      Disturbed changes process moment later { last with state }

theorem Disturbed.becomes
    {changes : σ → σ → Prop} {process middle later : Process Peer ε σ α}
    {moment between last : Local Peer σ}
    (disturbed : Disturbed changes process moment middle between)
    (becomes : Becomes middle between later last) :
    Disturbed changes process moment later last := by
  induction becomes with
  | here => exact disturbed
  | moves _ moves inductionHypothesis =>
      exact inductionHypothesis.steps (.moves moves)
  | loses _ loses inductionHypothesis =>
      exact inductionHypothesis.steps (.loses _ loses)

/-- The steps of a process that does not look at its state. -/
theorem Quiet.steps_bind
    {process : Process Peer ε σ α} {next : α → Process Peer ε σ β}
    {later : Process Peer ε σ β} {moment last : Local Peer σ}
    (quiet : Quiet process)
    (steps : Steps (process >>= next) moment later last) :
    (∃ value, process = .done value ∧
      Steps (next value) moment later last) ∨
    (∃ rest, Quiet rest ∧ later = rest >>= next ∧
      last.state = moment.state ∧
      ∀ state, Steps process { moment with state } rest
        { last with state }) := by
  cases process with
  | done value => exact .inl ⟨value, rfl, steps⟩
  | failed error =>
      cases steps with
      | moves moves => cases moves
      | loses _ loses => cases loses
  | outOfFuel =>
      cases steps with
      | moves moves => cases moves
      | loses _ loses => cases loses
  | update change rest => exact quiet.elim
  | put peer byte rest lost =>
      right
      cases steps with
      | moves moves =>
          cases moves
          exact ⟨rest, quiet.1, rfl, rfl, fun state =>
            .moves (.put peer byte rest lost state)⟩
      | loses _ loses =>
          cases loses
          exact ⟨lost, quiet.2, rfl, rfl, fun state =>
            .loses _ (.put peer byte rest lost)⟩
  | get peer rest lost =>
      right
      cases steps with
      | moves moves =>
          cases moves with
          | get _ _ _ byte =>
              exact ⟨rest byte, quiet.1 byte, rfl, rfl, fun state =>
                .moves (.get peer rest lost byte state)⟩
      | loses _ loses =>
          cases loses
          exact ⟨lost, quiet.2, rfl, rfl, fun state =>
            .loses _ (.get peer rest lost)⟩

end Disturbing

/-! ## Handlers and more events -/

section Events

variable {Event ρ : Type}

section Handling

variable (handler : ρ → Event → Process Peer ε σ ρ)

/-- Handle one event after another. -/
def handleAll : List Event → ρ → Process Peer ε σ ρ
  | [], current => pure current
  | event :: rest, current => handler current event >>= handleAll rest

/-- Handle one event after another, and forget what was kept for them. -/
def runAll : List Event → ρ → Process Peer ε σ Unit
  | [], _ => pure ()
  | event :: rest, current => handler current event >>= runAll rest

theorem handleAll_append (before after : List Event) (current : ρ) :
    handleAll handler (before ++ after) current =
      handleAll handler before current >>= handleAll handler after := by
  induction before generalizing current with
  | nil => rfl
  | cons event rest inductionHypothesis =>
      rw [List.cons_append, handleAll, handleAll, Process.bind_assoc]
      congr 1
      funext next
      exact inductionHypothesis next

theorem runAll_append (before after : List Event) (current : ρ) :
    runAll handler (before ++ after) current =
      handleAll handler before current >>= runAll handler after := by
  induction before generalizing current with
  | nil => rfl
  | cons event rest inductionHypothesis =>
      rw [List.cons_append, runAll, handleAll, Process.bind_assoc]
      congr 1
      funext next
      exact inductionHypothesis next

/-- Changes of the state that are events of the process as well. -/
structure Changes where
  Change : Type
  apply : Change → σ → σ
  event : Change → Event
  none : Change
  followedBy : Change → Change → Change
  apply_none : ∀ state, apply none state = state
  apply_followedBy : ∀ first second state,
    apply (followedBy first second) state = apply second (apply first state)
  handles : ∀ change current,
    handler current (event change) =
      modifyState (apply change) >>= fun _ => pure current

end Handling

/-- The later events are the earlier ones and extra events among them. -/
inductive Interspersed (extra : Event → Prop) :
    List Event → List Event → Prop where
  | nil : Interspersed extra [] []
  | keep (event : Event) {events others : List Event} :
      Interspersed extra events others →
      Interspersed extra (event :: events) (event :: others)
  | insert {event : Event} {events others : List Event} :
      extra event → Interspersed extra events others →
      Interspersed extra events (event :: others)

namespace Interspersed

variable {extra : Event → Prop}

theorem refl (events : List Event) : Interspersed extra events events := by
  induction events with
  | nil => exact .nil
  | cons event rest inductionHypothesis => exact .keep event inductionHypothesis

theorem insert_between
    {events before after : List Event} {event : Event}
    (interspersed : Interspersed extra events (before ++ after))
    (isExtra : extra event) :
    Interspersed extra events (before ++ event :: after) := by
  induction before generalizing events with
  | nil => exact .insert isExtra interspersed
  | cons first rest inductionHypothesis =>
      cases interspersed with
      | keep _ interspersed =>
          exact .keep first (inductionHypothesis interspersed)
      | insert isFirst interspersed =>
          exact .insert isFirst (inductionHypothesis interspersed)

end Interspersed

section Serializing

variable [DecidableEq Peer]
variable {handler : ρ → Event → Process Peer ε σ ρ}
variable (changes : Changes handler)

def Changes.Applied (before after : σ) : Prop :=
  ∃ change, after = changes.apply change before

def Changes.IsEvent (event : Event) : Prop :=
  ∃ change, event = changes.event change

omit [DecidableEq Peer] in
theorem Changes.change_none (moment : Local Peer σ) :
    moment.change (changes.apply changes.none) = moment := by
  rw [Local.change, changes.apply_none]

/--
A process that has handled some of the events, with changes among them, and a
change that comes after all that it has done.
-/
inductive Serialized (events : List Event) (current : ρ)
    (moment : Local Peer σ) :
    Process Peer ε σ Unit → Local Peer σ → Prop where
  | intro {before after : List Event} {rest : Process Peer ε σ ρ}
      {mirror : Local Peer σ} (change : changes.Change) :
      Interspersed changes.IsEvent events (before ++ after) →
      Quiet rest →
      Becomes (handleAll handler before current) moment rest mirror →
      Serialized events current moment (rest >>= runAll handler after)
        (mirror.change (changes.apply change))

variable {events before after : List Event} {current value : ρ}
variable {moment mirror between last : Local Peer σ}
variable {middle later : Process Peer ε σ Unit}

/-- The change that is left is handled before the next event. -/
theorem Changes.becomes_event
    (change : changes.Change) (event : Event)
    (becomes : Becomes (handleAll handler before current) moment
      (.done value) mirror) :
    Becomes
      (handleAll handler (before ++ [changes.event change, event]) current)
      moment (handler value event)
      (mirror.change (changes.apply change)) := by
  have handles : handleAll handler [changes.event change, event] value =
      .update (changes.apply change) fun _ => handler value event := by
    rw [handleAll, changes.handles]
    show Process.update _ (fun _ => handler value event >>= pure) = _
    rw [bind_pure]
  have reaches := becomes_bind becomes
    (handleAll handler [changes.event change, event])
  change Becomes _ _ (handleAll handler [changes.event change, event] value)
    mirror at reaches
  rw [handles, ← handleAll_append] at reaches
  simpa [Local.change] using
    reaches.moves (.update (changes.apply change) _ mirror.state)

/-- A step of what is left of a handler. -/
theorem Serialized.within
    {rest next : Process Peer ε σ ρ} (change : changes.Change)
    (interspersed : Interspersed changes.IsEvent events (before ++ after))
    (quiet : Quiet next)
    (becomes : Becomes (handleAll handler before current) moment rest mirror)
    (sameState : last.state = changes.apply change mirror.state)
    (steps : Steps rest mirror next { last with state := mirror.state }) :
    Serialized changes events current moment (next >>= runAll handler after)
      last := by
  have reached : last = Local.change (changes.apply change)
      { last with state := mirror.state } := by
    rw [Local.change, ← sameState]
  rw [reached]
  exact .intro change interspersed quiet (steps.becomes becomes)

/-- A step from where a handler has ended. -/
theorem Serialized.behind
    (atomic : ∀ current event, Atomic (handler current event))
    (change : changes.Change)
    (interspersed : Interspersed changes.IsEvent events (before ++ after))
    (becomes : Becomes (handleAll handler before current) moment
      (.done value) mirror)
    (steps : Steps (runAll handler after value)
      (mirror.change (changes.apply change)) later last) :
    Serialized changes events current moment later last := by
  induction after generalizing before value change mirror with
  | nil =>
      cases steps with
      | moves moves => cases moves
      | loses _ loses => cases loses
  | cons event rest inductionHypothesis =>
      have reaches := changes.becomes_event change event becomes
      have isEvent : changes.IsEvent (changes.event change) := ⟨change, rfl⟩
      have more : Interspersed changes.IsEvent events
          (before ++ [changes.event change, event] ++ rest) := by
        rw [List.append_assoc]
        exact interspersed.insert_between isEvent
      rw [runAll] at steps
      generalize handled : handler value event = handling at reaches steps
      have isAtomic : Atomic handling := handled ▸ atomic value event
      cases isAtomic with
      | quiet quiet =>
          rcases quiet.steps_bind steps with
            ⟨next, rfl, steps⟩ | ⟨next, isQuiet, rfl, sameState, steps⟩
          · apply inductionHypothesis changes.none more reaches
            rwa [changes.change_none]
          · apply Serialized.within changes changes.none more isQuiet reaches
            · rw [changes.apply_none]
              exact sameState
            · exact steps _
      | update alter quiet =>
          cases steps with
          | moves moves =>
              cases moves
              have moved := reaches.moves (.update alter _ _)
              have serialized := Serialized.intro changes.none more (quiet _)
                moved
              rwa [changes.change_none] at serialized
          | loses _ loses => cases loses

theorem Serialized.steps
    (atomic : ∀ current event, Atomic (handler current event))
    (serialized : Serialized changes events current moment middle between)
    (steps : Steps middle between later last) :
    Serialized changes events current moment later last := by
  cases serialized with
  | intro change interspersed quiet becomes =>
      rcases quiet.steps_bind steps with
        ⟨value, rfl, steps⟩ | ⟨next, isQuiet, rfl, sameState, steps⟩
      · exact .behind changes atomic change interspersed becomes steps
      · exact .within changes change interspersed isQuiet becomes sameState
          (steps _)

/--
What a process becomes among changes of its state it becomes among more events
as well, up to a last change.
-/
theorem exists_serialized
    (atomic : ∀ current event, Atomic (handler current event))
    (disturbed : Disturbed changes.Applied
      (runAll handler events current) moment later last) :
    ∃ others mirror change, Interspersed changes.IsEvent events others ∧
      Becomes (runAll handler others current) moment later mirror ∧
      last = mirror.change (changes.apply change) := by
  have serialized :
      Serialized changes events current moment later last := by
    induction disturbed with
    | here =>
        have start : Serialized changes events current moment
            (pure current >>= runAll handler events)
            (moment.change (changes.apply changes.none)) := by
          have same : Interspersed changes.IsEvent events ([] ++ events) :=
            .refl events
          exact .intro changes.none same (.pure current) .here
        rwa [changes.change_none] at start
    | steps _ steps inductionHypothesis =>
        exact inductionHypothesis.steps changes atomic steps
    | changed _ changed inductionHypothesis =>
        rcases changed with ⟨second, rfl⟩
        cases inductionHypothesis with
        | intro first interspersed quiet becomes =>
            have both := @Serialized.intro _ _ _ _ _ _ _ changes _ _ _ _ _ _
              _ (changes.followedBy first second) interspersed quiet becomes
            rw [Local.change, changes.apply_followedBy] at both
            exact both
  cases serialized with
  | intro change interspersed quiet becomes =>
      refine ⟨_, _, change, interspersed, ?_, rfl⟩
      rw [runAll_append]
      exact becomes_bind becomes _

end Serializing

end Events

/-! ## One party of a network -/

section Parties

variable {Party : Type} [DecidableEq Party] {τ ω : Party → Type}
variable {network next start : Network Party ε τ ω} {party other : Party}

/-- What a step of the network is for one of the parties. -/
theorem steps_of_lossyStep
    {acting : Party} (party : Party)
    (taken : LossyStep acting network next) :
    (next.process party = network.process party ∧
      next.view party = network.view party) ∨
    Steps (network.process party) (network.view party)
      (next.process party) (next.view party) := by
  by_cases same : party = acting
  · subst same
    right
    rcases taken with
      ⟨later, final, inputs, outputs, available, moves, rfl⟩ |
        ⟨later, loses, rfl⟩
    · rw [advance_process_self, advance_view_self]
      exact .moves moves
    · rw [advance_process_self, advance_view_self, followedBy_silence,
        followedBy_silence]
      exact .loses _ loses
  · left
    rcases taken with
      ⟨later, final, inputs, outputs, available, moves, rfl⟩ |
        ⟨later, loses, rfl⟩
    · exact ⟨advance_process_other same, advance_view_other same⟩
    · exact ⟨advance_process_other same, advance_view_other same⟩

/-- The state of a party is another one. -/
def alter (network : Network Party ε τ ω) (party : Party)
    (state : τ party) : Network Party ε τ ω :=
  { network with state := Function.update network.state party state }

theorem view_alter_self (state : τ party) :
    (alter network party state).view party =
      { network.view party with state } := by
  simp only [view, alter, Function.update_self]
  rfl

theorem state_alter_other (state : τ party) (different : other ≠ party) :
    (alter network party state).state other = network.state other :=
  Function.update_of_ne different ..

theorem view_alter_other (state : τ party) (different : other ≠ party) :
    (alter network party state).view other = network.view other := by
  simp only [view, alter, Function.update_of_ne different]
  rfl

/-- A lossy run in which the state of a party can change at any time. -/
inductive DisturbedRun (party : Party) (changes : τ party → τ party → Prop)
    (start : Network Party ε τ ω) : Network Party ε τ ω → Prop where
  | here : DisturbedRun party changes start start
  | step {network next : Network Party ε τ ω} {acting : Party} :
      DisturbedRun party changes start network →
      LossyStep acting network next →
      DisturbedRun party changes start next
  | changed {network : Network Party ε τ ω} {state : τ party} :
      DisturbedRun party changes start network →
      changes (network.state party) state →
      DisturbedRun party changes start (alter network party state)

namespace DisturbedRun

variable {changes : τ party → τ party → Prop}

theorem of_lossyRun
    (run : LossyRun start network) :
    DisturbedRun party changes start network := by
  induction run with
  | refl => exact .here
  | tail _ taken inductionHypothesis =>
      rcases taken with ⟨acting, taken⟩
      exact inductionHypothesis.step taken

theorem disturbed
    (run : DisturbedRun party changes start network) :
    Disturbed changes (start.process party) (start.view party)
      (network.process party) (network.view party) := by
  induction run with
  | here => exact .here
  | step _ taken inductionHypothesis =>
      rcases steps_of_lossyStep party taken with
        ⟨sameProcess, sameView⟩ | steps
      · rwa [sameProcess, sameView]
      · exact inductionHypothesis.steps steps
  | changed _ changed inductionHypothesis =>
      rw [view_alter_self]
      exact inductionHypothesis.changed changed

/-- For the other parties it is a run like any other. -/
theorem becomes
    (run : DisturbedRun party changes start network)
    (different : other ≠ party) :
    Becomes (start.process other) (start.view other)
      (network.process other) (network.view other) := by
  induction run with
  | here => exact .here
  | step _ taken inductionHypothesis =>
      rcases steps_of_lossyStep other taken with
        ⟨sameProcess, sameView⟩ | steps
      · rwa [sameProcess, sameView]
      · exact steps.becomes inductionHypothesis
  | changed _ _ inductionHypothesis =>
      rwa [view_alter_other _ different]

end DisturbedRun

end Parties

end DropFile.General.Interference
