import DropFile.General.Processes
import Mathlib.Logic.Relation

/-!
# Processes in stages, and what they share

A long process is cut into stages.  The part of a stage tells the next one, and
the rest of the process is the part and the rest of what it told, so a run from
stage to stage is a run of the process.

Members that take turns on something they share keep what each of them relies
on, if every turn keeps it for the member whose turn it is and spares it for
the others.
-/

namespace DropFile.General.Stages

open DropFile.General.FuelledProgram
open DropFile.General.Processes
open DropFile.General.Processes.Process

universe u

variable {Peer ε σ α β : Type}

/-! ## Attempts -/

/-- How the process ended, as a value. -/
def attempt (process : Process Peer ε σ α) :
    Process Peer ε σ (Except ε α) :=
  (process >>= fun value => pure (.ok value)).handle fun error =>
    pure (.error error)

/-- Go on after an attempt. -/
def resume (catcher : ε → Process Peer ε σ β)
    (next : α → Process Peer ε σ β) :
    Except ε α → Process Peer ε σ β
  | .ok value => next value
  | .error error => catcher error

/-- A handled sequence is an attempt at its first part. -/
theorem handle_bind
    (process : Process Peer ε σ α)
    (next : α → Process Peer ε σ β)
    (catcher : ε → Process Peer ε σ β) :
    (process >>= next).handle catcher =
      attempt process >>=
        resume catcher fun value => (next value).handle catcher := by
  induction process with
  | done value => rfl
  | failed error => rfl
  | outOfFuel => rfl
  | update change rest inductionHypothesis =>
      exact congrArg (update change) (funext inductionHypothesis)
  | put peer byte rest lost restHypothesis lostHypothesis =>
      exact congrArg₂ (put peer byte) restHypothesis lostHypothesis
  | get peer rest lost restHypothesis lostHypothesis =>
      exact congrArg₂ (get peer) (funext restHypothesis) lostHypothesis

theorem handle_eq_attempt
    (process : Process Peer ε σ α)
    (catcher : ε → Process Peer ε σ α) :
    process.handle catcher = attempt process >>= resume catcher pure := by
  induction process with
  | done value => rfl
  | failed error =>
      show catcher error = resume catcher pure (.error error)
      rfl
  | outOfFuel => rfl
  | update change rest inductionHypothesis =>
      exact congrArg (update change) (funext inductionHypothesis)
  | put peer byte rest lost restHypothesis lostHypothesis =>
      exact congrArg₂ (put peer byte) restHypothesis lostHypothesis
  | get peer rest lost restHypothesis lostHypothesis =>
      exact congrArg₂ (get peer) (funext restHypothesis) lostHypothesis

/-- A sequence is an attempt at its first part. -/
theorem bind_eq_attempt
    (process : Process Peer ε σ α)
    (next : α → Process Peer ε σ β) :
    process >>= next = attempt process >>= resume raise next := by
  induction process with
  | done value => rfl
  | failed error => rfl
  | outOfFuel => rfl
  | update change rest inductionHypothesis =>
      exact congrArg (update change) (funext inductionHypothesis)
  | put peer byte rest lost restHypothesis lostHypothesis =>
      exact congrArg₂ (put peer byte) restHypothesis lostHypothesis
  | get peer rest lost restHypothesis lostHypothesis =>
      exact congrArg₂ (get peer) (funext restHypothesis) lostHypothesis

/-- An attempt does not fail, so only what follows is handled. -/
theorem handle_attempt_bind
    (process : Process Peer ε σ α)
    (next : Except ε α → Process Peer ε σ β)
    (catcher : ε → Process Peer ε σ β) :
    (attempt process >>= next).handle catcher =
      attempt process >>= fun result => (next result).handle catcher := by
  induction process with
  | done value => rfl
  | failed error => rfl
  | outOfFuel => rfl
  | update change rest inductionHypothesis =>
      exact congrArg (update change) (funext inductionHypothesis)
  | put peer byte rest lost restHypothesis lostHypothesis =>
      exact congrArg₂ (put peer byte) restHypothesis lostHypothesis
  | get peer rest lost restHypothesis lostHypothesis =>
      exact congrArg₂ (get peer) (funext restHypothesis) lostHypothesis

/-- What follows is compared for a value and for an error. -/
theorem bind_result_congr
    (process : Process Peer ε σ (Except ε α))
    {first second : Except ε α → Process Peer ε σ β}
    (sameOnValue : ∀ value, first (.ok value) = second (.ok value))
    (sameOnError : ∀ error, first (.error error) = second (.error error)) :
    process >>= first = process >>= second := by
  apply congrArg (process >>= ·)
  funext result
  cases result with
  | ok value => exact sameOnValue value
  | error error => exact sameOnError error

/-! ## What is left of the state -/

section Leaving

variable [DecidableEq Peer]

/--
In every environment, what the process leaves of its state when it is done and
when it fails.
-/
def Leaves (state : σ) (process : Process Peer ε σ α)
    (after : α → σ → Prop) (failing : ε → σ → Prop) : Prop :=
  ∀ received sent,
    Ensures (fun _ => True) (fun _ => True)
      (fun value later => after value later.state)
      (fun error later => failing error later.state)
      process ⟨state, received, sent⟩

namespace Leaves

variable {state : σ} {process : Process Peer ε σ α}
variable {after : α → σ → Prop} {failing : ε → σ → Prop}

theorem of_becomes
    (leaves : Leaves state process after failing)
    {value : α} {moment : Local Peer σ} {received sent : Traffic Peer}
    (becomes : Becomes process ⟨state, received, sent⟩ (.done value)
      moment) :
    after value moment.state :=
  (((leaves received sent).of_becomes becomes) trivial).2

theorem pure
    {value : α}
    (post : after value state) :
    Leaves state (Pure.pure value : Process Peer ε σ α) after failing :=
  fun _ _ => .pure trivial post

theorem raise
    {error : ε}
    (post : failing error state) :
    Leaves state (Process.raise error : Process Peer ε σ α) after failing :=
  fun _ _ => .raise trivial post

theorem weaken
    {weakAfter : α → σ → Prop} {weakFailing : ε → σ → Prop}
    (leaves : Leaves state process after failing)
    (afterWeaker : ∀ value later, after value later →
      weakAfter value later)
    (failingWeaker : ∀ error later, failing error later →
      weakFailing error later) :
    Leaves state process weakAfter weakFailing :=
  fun received sent => (leaves received sent).weaken
    (fun value later _ _ => afterWeaker value later.state)
    (fun error later _ _ => failingWeaker error later.state)

/-- What is left after a failure does not matter. -/
theorem regardless
    (leaves : Leaves state process after failing) :
    Leaves state process after fun _ _ => True :=
  leaves.weaken (fun _ _ reached => reached) fun _ _ _ => trivial

theorem bind
    {middle : α → σ → Prop} {after : β → σ → Prop}
    {next : α → Process Peer ε σ β}
    (first : Leaves state process middle failing)
    (second : ∀ value later, middle value later →
      Leaves later (next value) after failing) :
    Leaves state (process >>= next) after failing :=
  fun received sent => (first received sent).bind
    fun value later _ _ reached =>
      second value later.state reached later.received later.sent

theorem attempt
    {ending : Except ε α → σ → Prop} {never : ε → σ → Prop}
    (leaves : Leaves state process (fun value => ending (.ok value))
      fun error => ending (.error error)) :
    Leaves state (attempt process) ending never :=
  fun received sent =>
    ((leaves received sent).bind fun _ _ _ _ reached =>
      .pure trivial reached).handle fun _ _ _ _ reached =>
        .pure trivial reached

/-- An attempt, and what is made of its result. -/
theorem attempt_resume
    {after : β → σ → Prop} {never : ε → σ → Prop}
    {onError : ε → β} {onValue : α → β}
    (leaves : Leaves state process (fun value => after (onValue value))
      fun error => after (onError error)) :
    Leaves state
      (Stages.attempt process >>=
        resume (fun error => Pure.pure (onError error))
          fun value => Pure.pure (onValue value))
      after never := by
  let onward : Except ε α → Process Peer ε σ β :=
    resume (fun error => Pure.pure (onError error))
      fun value => Pure.pure (onValue value)
  have attempts : Leaves state (Stages.attempt process)
      (fun result later => Leaves later (onward result) after never)
      never := by
    apply Leaves.attempt
    apply leaves.weaken
    · exact fun _ _ reached => .pure reached
    · exact fun _ _ reached => .pure reached
  exact attempts.bind fun _ _ continues => continues

theorem getState_bind
    {after : β → σ → Prop} {next : σ → Process Peer ε σ β}
    (continues : Leaves state (next state) after failing) :
    Leaves state (Process.getState >>= next) after failing :=
  fun received sent => .getState_bind trivial (continues received sent)

theorem modifyState_bind
    {change : σ → σ} {after : β → σ → Prop}
    {next : Unit → Process Peer ε σ β}
    (continues : Leaves (change state) (next ()) after failing) :
    Leaves state (Process.modifyState change >>= next) after failing :=
  fun received sent => .modifyState_bind trivial (continues received sent)

theorem modifyState
    {change : σ → σ} {after : Unit → σ → Prop}
    (post : after () (change state)) :
    Leaves state (Process.modifyState change : Process Peer ε σ Unit) after
      failing :=
  fun _ _ => .modifyState trivial trivial post

theorem ofExcept
    (result : Except ε α)
    (succeeds : ∀ value, result = .ok value → after value state)
    (fails : ∀ error, result = .error error → failing error state) :
    Leaves state (Process.ofExcept result : Process Peer ε σ α) after
      failing := by
  cases result with
  | ok value => exact .pure (succeeds value rfl)
  | error error => exact .raise (fails error rfl)

theorem ofProgram
    {program : Program ε σ α}
    (ends : Program.Satisfies (fun start => start = state) program after
      failing) :
    Leaves state (Process.ofProgram program : Process Peer ε σ α) after
      failing := by
  intro received sent
  apply Ensures.ofProgram trivial
  apply ends.weaken (fun _ same => same)
  · exact fun _ _ reached => ⟨trivial, reached⟩
  · exact fun _ _ reached => ⟨trivial, reached⟩

end Leaves

/-- A process that leaves its state alone. -/
def LeavesAlone (process : Process Peer ε σ α) : Prop :=
  ∀ state, Leaves state process (fun _ later => later = state)
    (fun _ later => later = state)

namespace LeavesAlone

variable {process : Process Peer ε σ α}

theorem pure (value : α) :
    LeavesAlone (Pure.pure value : Process Peer ε σ α) :=
  fun _ => .pure rfl

theorem raise (error : ε) :
    LeavesAlone (Process.raise error : Process Peer ε σ α) :=
  fun _ => .raise rfl

theorem ofExcept (result : Except ε α) :
    LeavesAlone (Process.ofExcept result : Process Peer ε σ α) :=
  fun _ => .ofExcept result (fun _ _ => rfl) (fun _ _ => rfl)

theorem bind
    {next : α → Process Peer ε σ β}
    (first : LeavesAlone process)
    (second : ∀ value, LeavesAlone (next value)) :
    LeavesAlone (process >>= next) := by
  intro state
  apply (first state).bind
  rintro value later rfl
  exact second value later

theorem loop
    {body : Nat → β → Process Peer ε σ (β ⊕ α)}
    (pass : ∀ fuel current, LeavesAlone (body fuel current))
    (fuel : Nat) (current : β) :
    LeavesAlone (Process.loop body fuel current) := by
  induction fuel generalizing current with
  | zero => exact fun _ _ _ _ => trivial
  | succ fuel inductionHypothesis =>
      apply (pass fuel current).bind
      rintro (next | result)
      · exact inductionHypothesis next
      · exact .pure result

/-- An attempt at what leaves the state alone. -/
theorem attempt_resume
    {state : σ} {onError : ε → β} {onValue : α → β}
    {after : β → σ → Prop} {never : ε → σ → Prop}
    (alone : LeavesAlone process)
    (onValues : ∀ value, after (onValue value) state)
    (onErrors : ∀ error, after (onError error) state) :
    Leaves state
      (attempt process >>=
        resume (fun error => Pure.pure (onError error))
          fun value => Pure.pure (onValue value))
      after never := by
  apply Leaves.attempt_resume
  apply (alone state).weaken
  · rintro value later rfl
    exact onValues value
  · rintro error later rfl
    exact onErrors error

end LeavesAlone

end Leaving

/-! ## Alone -/

/-- Run a process that asks for no peer, as long as it does not fail. -/
def runAlone : Process Peer ε σ α → σ → Option (α × σ)
  | done value, state => some (value, state)
  | update change rest, state => runAlone (rest state) (change state)
  | _, _ => none

/-- What runs alone does so in every environment. -/
theorem plays_of_runAlone
    [DecidableEq Peer]
    {process : Process Peer ε σ α} {state final : σ} {value : α}
    (runs : runAlone process state = some (value, final)) :
    Plays process state silence silence (.done value) final := by
  induction process generalizing state with
  | done result =>
      cases runs
      exact .rest _ _
  | update change rest inductionHypothesis =>
      exact .update (inductionHypothesis state runs)
  | failed error => cases runs
  | outOfFuel => cases runs
  | put peer byte rest lost => cases runs
  | get peer rest lost => cases runs

/-! ## Stages -/

/-- A process cut into parts that end with the next stage. -/
structure Staged (Peer ε σ α Stage : Type) where
  part : Stage → Process Peer ε σ Stage
  rest : Stage → Process Peer ε σ α
  rest_eq : ∀ stage, rest stage = part stage >>= rest

section Runs

variable {process later : Process Peer ε σ α}

theorem moves_bind
    {state final : σ} {inputs outputs : Traffic Peer}
    [DecidableEq Peer]
    (moves : Moves process state later final inputs outputs)
    (next : α → Process Peer ε σ β) :
    Moves (process >>= next) state (later >>= next) final inputs
      outputs := by
  cases moves with
  | update change rest state => exact .update change _ state
  | put peer byte rest lost state => exact .put peer byte _ _ state
  | get peer rest lost byte state => exact .get peer _ _ byte state

theorem loses_bind
    (loses : Loses process later)
    (next : α → Process Peer ε σ β) :
    Loses (process >>= next) (later >>= next) := by
  cases loses with
  | put peer byte rest lost => exact .put peer byte _ _
  | get peer rest lost => exact .get peer _ _

theorem becomes_bind
    [DecidableEq Peer]
    {moment last : Local Peer σ}
    (becomes : Becomes process moment later last)
    (next : α → Process Peer ε σ β) :
    Becomes (process >>= next) moment (later >>= next) last := by
  induction becomes with
  | here => exact .here
  | moves _ moves inductionHypothesis =>
      exact inductionHypothesis.moves (moves_bind moves next)
  | loses _ loses inductionHypothesis =>
      exact inductionHypothesis.loses (loses_bind loses next)

/-- A part that is done leads the process to the stage that it told. -/
theorem Staged.becomes_rest
    {Stage : Type} [DecidableEq Peer]
    (staged : Staged Peer ε σ α Stage)
    {stage next : Stage} {moment last : Local Peer σ}
    (becomes : Becomes (staged.part stage) moment (.done next) last) :
    Becomes (staged.rest stage) moment (staged.rest next) last := by
  rw [staged.rest_eq stage]
  exact becomes_bind becomes staged.rest

/-- What every part keeps, on a way that leads to the end. -/
theorem Staged.leaves
    {Stage : Type} [DecidableEq Peer]
    {after : α → σ → Prop} {failing : ε → σ → Prop}
    (staged : Staged Peer ε σ α Stage)
    (rank : Stage → Nat) (holds : Stage → σ → Prop)
    (keeps : ∀ stage state, holds stage state →
      Leaves state (staged.rest stage) after failing ∨
        Leaves state (staged.part stage)
          (fun next later => holds next later ∧ rank next < rank stage)
          failing)
    (stage : Stage) (state : σ)
    (now : holds stage state) :
    Leaves state (staged.rest stage) after failing := by
  induction steps : rank stage using Nat.strong_induction_on
    generalizing stage state with
  | h _ inductionHypothesis =>
      subst steps
      rcases keeps stage state now with ends | goesOn
      · exact ends
      · rw [staged.rest_eq stage]
        apply goesOn.bind
        rintro next later ⟨isNext, fewer⟩
        exact inductionHypothesis (rank next) fewer next later isNext rfl

end Runs

/-! ## Taking turns -/

/-- What is shared, and its members. -/
structure World (Name Shared : Type) (Member : Type u) where
  shared : Shared
  member : Name → Member

section Turns

variable {Name Shared : Type} {Member : Type u} [DecidableEq Name]
variable (step : Shared → Member → Shared → Member → Prop)
variable (allowed : World Name Shared Member → Name → Prop)

/-- One member takes an allowed step, and the others stay as they are. -/
inductive Turn : World Name Shared Member → World Name Shared Member → Prop
    where
  | take {world : World Name Shared Member} (name : Name)
      {shared : Shared} {member : Member} :
      allowed world name →
      step world.shared (world.member name) shared member →
      Turn world ⟨shared, Function.update world.member name member⟩

variable {step allowed} {holds : Shared → Member → Prop}

theorem holds_of_turn
    {world later : World Name Shared Member}
    (own : ∀ world name shared member,
      (∀ each, holds world.shared (world.member each)) →
      allowed world name →
      step world.shared (world.member name) shared member →
      holds shared member)
    (others : ∀ world name shared member other,
      (∀ each, holds world.shared (world.member each)) →
      allowed world name →
      step world.shared (world.member name) shared member →
      other ≠ name →
      holds shared (world.member other))
    (start : ∀ each, holds world.shared (world.member each))
    (turn : Turn step allowed world later) :
    ∀ each, holds later.shared (later.member each) := by
  rcases turn with ⟨name, isAllowed, taken⟩
  intro each
  dsimp only
  by_cases same : each = name
  · subst same
    rw [Function.update_self]
    exact own world each _ _ start isAllowed taken
  · rw [Function.update_of_ne same]
    exact others world name _ _ each start isAllowed taken same

/-- What every member keeps for itself and for the others holds in every run. -/
theorem holds_of_run
    {world later : World Name Shared Member}
    (own : ∀ world name shared member,
      (∀ each, holds world.shared (world.member each)) →
      allowed world name →
      step world.shared (world.member name) shared member →
      holds shared member)
    (others : ∀ world name shared member other,
      (∀ each, holds world.shared (world.member each)) →
      allowed world name →
      step world.shared (world.member name) shared member →
      other ≠ name →
      holds shared (world.member other))
    (start : ∀ each, holds world.shared (world.member each))
    (run : Relation.ReflTransGen (Turn step allowed) world later) :
    ∀ each, holds later.shared (later.member each) := by
  induction run with
  | refl => exact start
  | tail _ turn inductionHypothesis =>
      exact holds_of_turn own others inductionHypothesis turn

end Turns

end DropFile.General.Stages
