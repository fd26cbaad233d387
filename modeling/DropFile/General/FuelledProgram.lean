import Mathlib.Order.Filter.AtTopBot.Basic

/-!
# Stateful programs with exceptions and unbounded loops

A program reads and changes a state and then returns a value, throws an
error, or has not finished within the fuel it was given.  Only loops use
fuel, one unit for each pass, so a program without loops never runs out.

Two kinds of statement are made about programs.  `Satisfies` is a partial
correctness triple with a second postcondition for the throwing exits; it
holds for every amount of fuel.  `Settles` is total: with enough fuel the
program ends, always in the same outcome.
-/

namespace DropFile.General.FuelledProgram

open Filter

/-- How a run of a program ends. -/
inductive Outcome (ε σ α : Type) where
  | returned (value : α) (state : σ)
  | threw (error : ε) (state : σ)
  | outOfFuel
deriving DecidableEq, Repr

/-- The state that a run returns with. -/
def Outcome.finalState {ε σ α : Type} : Outcome ε σ α → Option σ
  | .returned _ state => some state
  | _ => none

/-- The state that is left, also behind an error. -/
def Outcome.lastState {ε σ α : Type} : Outcome ε σ α → Option σ
  | .returned _ state => some state
  | .threw _ state => some state
  | .outOfFuel => none

/-- The error that a run throws, and the state that it leaves. -/
def Outcome.thrown {ε σ α : Type} : Outcome ε σ α → Option (ε × σ)
  | .threw error state => some (error, state)
  | _ => none

theorem Outcome.eq_threw {ε σ α : Type}
    {outcome : Outcome ε σ α} {error : ε} {state : σ}
    (thrown : outcome.thrown = some (error, state)) :
    outcome = .threw error state := by
  cases outcome with
  | returned value later => cases thrown
  | threw other later =>
      cases thrown
      rfl
  | outOfFuel => cases thrown

theorem Outcome.eq_returned {ε σ : Type}
    {outcome : Outcome ε σ Unit} {state : σ}
    (final : outcome.finalState = some state) :
    outcome = .returned () state := by
  cases outcome with
  | returned value later =>
      cases final
      rfl
  | threw error later => cases final
  | outOfFuel => cases final

/-- A program over the state `σ` with errors `ε` and results `α`. -/
def Program (ε σ α : Type) := σ → Outcome ε σ α

namespace Program

variable {ε σ α β γ : Type}

/-- Return a value and leave the state alone. -/
def ret (value : α) : Program ε σ α :=
  fun state => .returned value state

/-- Run one program and, if it returns, the next one on its result. -/
def andThen
    (first : Program ε σ α)
    (next : α → Program ε σ β) :
    Program ε σ β :=
  fun state =>
    match first state with
    | .returned value later => next value later
    | .threw error later => .threw error later
    | .outOfFuel => .outOfFuel

instance : Monad (Program ε σ) where
  pure := ret
  bind := andThen

/-- Leave the program with an error. -/
def raise (error : ε) : Program ε σ α :=
  fun state => .threw error state

/-- The current state. -/
def getState : Program ε σ σ :=
  fun state => .returned state state

/-- Replace the state. -/
def modifyState (change : σ → σ) : Program ε σ Unit :=
  fun state => .returned () (change state)

/-- Use a function that computes a result together with the next state. -/
def step (run : σ → α × σ) : Program ε σ α :=
  fun state => .returned (run state).1 (run state).2

/-- Do something for every element of a list, in order. -/
def forEach (action : β → Program ε σ Unit) : List β → Program ε σ Unit
  | [] => pure ()
  | first :: rest => do
      action first
      forEach action rest

/-- Run a program on a part of the state. -/
def focus {τ : Type} (get : σ → τ) (set : τ → σ → σ)
    (program : Program ε τ α) : Program ε σ α :=
  fun state =>
    match program (get state) with
    | .returned value part => .returned value (set part state)
    | .threw error part => .threw error (set part state)
    | .outOfFuel => .outOfFuel

/-- Run a program on a local variable and return its new value as well. -/
def onLocal {τ : Type} (program : Program ε τ α) (start : τ) :
    Program ε σ (α × τ) :=
  fun state =>
    match program start with
    | .returned value later => .returned (value, later) state
    | .threw error _ => .threw error state
    | .outOfFuel => .outOfFuel

@[simp]
theorem pure_run (value : α) (state : σ) :
    (pure value : Program ε σ α) state = .returned value state :=
  rfl

@[simp]
theorem raise_run (error : ε) (state : σ) :
    (raise error : Program ε σ α) state = .threw error state :=
  rfl

@[simp]
theorem getState_run (state : σ) :
    (getState : Program ε σ σ) state = .returned state state :=
  rfl

@[simp]
theorem modifyState_run (change : σ → σ) (state : σ) :
    (modifyState change : Program ε σ Unit) state =
      .returned () (change state) :=
  rfl

@[simp]
theorem step_run (run : σ → α × σ) (state : σ) :
    (step run : Program ε σ α) state =
      .returned (run state).1 (run state).2 :=
  rfl

theorem bind_run
    (first : Program ε σ α)
    (next : α → Program ε σ β)
    (state : σ) :
    (first >>= next) state =
      match first state with
      | .returned value later => next value later
      | .threw error later => .threw error later
      | .outOfFuel => .outOfFuel :=
  rfl

@[simp]
theorem pure_bind_run
    (value : α)
    (next : α → Program ε σ β)
    (state : σ) :
    (pure value >>= next) state = next value state :=
  rfl

theorem bind_returned
    {first : Program ε σ α}
    {next : α → Program ε σ β}
    {state later : σ}
    {value : α}
    (ends : first state = .returned value later) :
    (first >>= next) state = next value later := by
  rw [bind_run, ends]

theorem bind_threw
    {first : Program ε σ α}
    {next : α → Program ε σ β}
    {state later : σ}
    {error : ε}
    (ends : first state = .threw error later) :
    (first >>= next) state = .threw error later := by
  rw [bind_run, ends]

/-- A sequence returns only if both of its parts do. -/
theorem bind_eq_returned
    {first : Program ε σ α}
    {next : α → Program ε σ β}
    {state final : σ}
    {result : β}
    (ends : (first >>= next) state = .returned result final) :
    ∃ value later,
      first state = .returned value later ∧
        next value later = .returned result final := by
  rw [bind_run] at ends
  cases firstEnds : first state with
  | returned value later =>
      rw [firstEnds] at ends
      exact ⟨value, later, rfl, ends⟩
  | threw error later =>
      rw [firstEnds] at ends
      cases ends
  | outOfFuel =>
      rw [firstEnds] at ends
      cases ends

/-- Sequences agree if their first parts do and the rest does behind them. -/
theorem bind_congr
    {first otherFirst : Program ε σ α}
    {next otherNext : α → Program ε σ β}
    {state : σ}
    (sameFirst : first state = otherFirst state)
    (sameNext : ∀ value later, otherFirst state = .returned value later →
      next value later = otherNext value later) :
    (first >>= next) state = (otherFirst >>= otherNext) state := by
  rw [bind_run, bind_run, sameFirst]
  cases ends : otherFirst state with
  | returned value later => exact sameNext value later ends
  | threw error later => rfl
  | outOfFuel => rfl

theorem focus_returned {τ : Type}
    {get : σ → τ} {set : τ → σ → σ} {program : Program ε τ α}
    {state : σ} {part : τ} {value : α}
    (ends : program (get state) = .returned value part) :
    focus get set program state = .returned value (set part state) := by
  rw [focus, ends]

theorem focus_threw {τ : Type}
    {get : σ → τ} {set : τ → σ → σ} {program : Program ε τ α}
    {state : σ} {part : τ} {error : ε}
    (ends : program (get state) = .threw error part) :
    focus get set program state = .threw error (set part state) := by
  rw [focus, ends]

theorem onLocal_returned {τ : Type}
    {program : Program ε τ α} {start later : τ} {value : α}
    (ends : program start = .returned value later)
    (state : σ) :
    (onLocal program start : Program ε σ (α × τ)) state =
      .returned (value, later) state := by
  rw [onLocal, ends]

theorem onLocal_eq_returned {τ : Type}
    {program : Program ε τ α} {start later : τ} {value : α}
    {state between : σ}
    (ends : (onLocal program start : Program ε σ (α × τ)) state =
      .returned (value, later) between) :
    program start = .returned value later ∧ between = state := by
  rw [onLocal] at ends
  cases outcome : program start with
  | returned other last =>
      rw [outcome] at ends
      cases ends
      exact ⟨rfl, rfl⟩
  | threw error last =>
      rw [outcome] at ends
      cases ends
  | outOfFuel =>
      rw [outcome] at ends
      cases ends

/-! ## Loops -/

/--
Repeat `body` until it leaves with a result.  A pass hands its own fuel to the
body, so that a body may contain further loops.
-/
def loop (body : Nat → β → Program ε σ (β ⊕ α)) : Nat → β → Program ε σ α
  | 0, _ => fun _ => .outOfFuel
  | fuel + 1, current => do
      match ← body fuel current with
      | .inl next => loop body fuel next
      | .inr result => pure result

theorem loop_succ
    (body : Nat → β → Program ε σ (β ⊕ α))
    (fuel : Nat) (current : β) (state : σ) :
    loop body (fuel + 1) current state =
      match body fuel current state with
      | .returned (.inl next) later => loop body fuel next later
      | .returned (.inr result) later => .returned result later
      | .threw error later => .threw error later
      | .outOfFuel => .outOfFuel := by
  change (body fuel current >>= _) state = _
  rw [bind_run]
  rcases body fuel current state with ⟨next | result, later⟩ | _ | _ <;> rfl

/-! ## More fuel -/

/-- Where the left program has not run out of fuel, the right one agrees. -/
def Approximates (left right : Program ε σ α) : Prop :=
  ∀ state, left state = .outOfFuel ∨ right state = left state

theorem Approximates.refl (program : Program ε σ α) :
    Approximates program program :=
  fun _ => Or.inr rfl

theorem Approximates.bind
    {left right : Program ε σ α}
    {leftNext rightNext : α → Program ε σ β}
    (first : Approximates left right)
    (next : ∀ value, Approximates (leftNext value) (rightNext value)) :
    Approximates (left >>= leftNext) (right >>= rightNext) := by
  intro state
  rw [bind_run, bind_run]
  rcases first state with out | same
  · exact Or.inl (by rw [out])
  · rw [same]
    cases left state with
    | returned value later => exact next value later
    | threw error later => exact Or.inr rfl
    | outOfFuel => exact Or.inl rfl

theorem Approximates.loop
    {body : Nat → β → Program ε σ (β ⊕ α)}
    (pass : ∀ fuel more current, fuel ≤ more →
      Approximates (body fuel current) (body more current))
    {fuel more : Nat}
    (ordered : fuel ≤ more)
    (current : β) :
    Approximates (loop body fuel current) (loop body more current) := by
  induction fuel generalizing more current with
  | zero => exact fun _ => Or.inl rfl
  | succ fuel inductionHypothesis =>
      obtain ⟨more, rfl⟩ : ∃ previous, more = previous + 1 :=
        ⟨more - 1, by omega⟩
      have shorter : fuel ≤ more := Nat.le_of_succ_le_succ ordered
      refine Approximates.bind (pass fuel more current shorter) ?_
      rintro (next | result)
      · exact inductionHypothesis shorter next
      · exact Approximates.refl _

theorem Approximates.forEach
    {left right : β → Program ε σ Unit}
    (action : ∀ element, Approximates (left element) (right element))
    (elements : List β) :
    Approximates (forEach left elements) (forEach right elements) := by
  induction elements with
  | nil => exact Approximates.refl _
  | cons first rest inductionHypothesis =>
      exact Approximates.bind (action first) fun _ => inductionHypothesis

theorem Approximates.focus {τ : Type}
    {get : σ → τ} {set : τ → σ → σ} {left right : Program ε τ α}
    (approximates : Approximates left right) :
    Approximates (focus get set left) (focus get set right) := by
  intro state
  rcases approximates (get state) with out | same
  · exact Or.inl (by simp only [Program.focus, out])
  · exact Or.inr (by simp only [Program.focus, same])

/-- With more fuel a run that has ended ends in the same way. -/
def Grows (run : Nat → Program ε σ α) : Prop :=
  ∀ fuel more, fuel ≤ more → Approximates (run fuel) (run more)

/-! ## Partial correctness -/

/--
From every state in `before`, the program ends in `after` when it returns and
in `failing` when it throws.
-/
def Satisfies
    (before : σ → Prop)
    (program : Program ε σ α)
    (after : α → σ → Prop)
    (failing : ε → σ → Prop) : Prop :=
  ∀ state, before state →
    match program state with
    | .returned value later => after value later
    | .threw error later => failing error later
    | .outOfFuel => True

theorem Satisfies.returned
    {before : σ → Prop}
    {program : Program ε σ α}
    {after : α → σ → Prop}
    {failing : ε → σ → Prop}
    (holds : Satisfies before program after failing)
    {state later : σ} {value : α}
    (start : before state)
    (ends : program state = .returned value later) :
    after value later := by
  have result := holds state start
  rwa [ends] at result

theorem Satisfies.threw
    {before : σ → Prop}
    {program : Program ε σ α}
    {after : α → σ → Prop}
    {failing : ε → σ → Prop}
    (holds : Satisfies before program after failing)
    {state later : σ} {error : ε}
    (start : before state)
    (ends : program state = .threw error later) :
    failing error later := by
  have result := holds state start
  rwa [ends] at result

/-- What holds behind both ways out holds of the state that is left. -/
theorem Satisfies.left
    {before after : σ → Prop}
    {program : Program ε σ α}
    (holds : Satisfies before program (fun _ => after) (fun _ => after))
    {state later : σ}
    (start : before state)
    (ends : (program state).lastState = some later) :
    after later := by
  have result := holds state start
  cases outcome : program state with
  | returned value last =>
      rw [outcome] at result ends
      cases ends
      exact result
  | threw error last =>
      rw [outcome] at result ends
      cases ends
      exact result
  | outOfFuel =>
      rw [outcome] at ends
      cases ends

/-- How a program ends is how it ends. -/
theorem Satisfies.outcome (program : Program ε σ α) (state : σ) :
    Satisfies (fun start => start = state) program
      (fun value later => program state = .returned value later)
      (fun error later => program state = .threw error later) := by
  rintro start rfl
  cases ends : program start with
  | returned value later => rfl
  | threw error later => rfl
  | outOfFuel => trivial

theorem Satisfies.pure
    {before : σ → Prop}
    {failing : ε → σ → Prop}
    {after : α → σ → Prop}
    (value : α)
    (holds : ∀ state, before state → after value state) :
    Satisfies before (pure value : Program ε σ α) after failing :=
  fun state start => holds state start

theorem Satisfies.raise
    {before : σ → Prop}
    {failing : ε → σ → Prop}
    {after : α → σ → Prop}
    (error : ε)
    (holds : ∀ state, before state → failing error state) :
    Satisfies before (raise error : Program ε σ α) after failing :=
  fun state start => holds state start

theorem Satisfies.bind
    {before : σ → Prop}
    {first : Program ε σ α}
    {middle : α → σ → Prop}
    {next : α → Program ε σ β}
    {after : β → σ → Prop}
    {failing : ε → σ → Prop}
    (firstHolds : Satisfies before first middle failing)
    (nextHolds : ∀ value,
      Satisfies (middle value) (next value) after failing) :
    Satisfies before (first >>= next) after failing := by
  intro state start
  have firstEnds := firstHolds state start
  rw [bind_run]
  cases ends : first state with
  | returned value later =>
      rw [ends] at firstEnds
      exact nextHolds value later firstEnds
  | threw error later =>
      rw [ends] at firstEnds
      exact firstEnds
  | outOfFuel => trivial

/--
The invariant rule: each pass that goes round again keeps the invariant, and
each exit establishes its postcondition.
-/
theorem Satisfies.loop
    {body : Nat → β → Program ε σ (β ⊕ α)}
    {after : α → σ → Prop}
    {failing : ε → σ → Prop}
    (invariant : β → σ → Prop)
    (pass : ∀ fuel current,
      Satisfies (invariant current) (body fuel current)
        (Sum.elim invariant after) failing)
    (fuel : Nat) (current : β) :
    Satisfies (invariant current) (loop body fuel current)
      after failing := by
  induction fuel generalizing current with
  | zero =>
      intro state _
      exact trivial
  | succ fuel inductionHypothesis =>
      intro state start
      have passEnds := pass fuel current state start
      rw [loop_succ]
      rcases ends : body fuel current state with
        ⟨next | result, later⟩ | ⟨error, later⟩ | _
      · rw [ends] at passEnds
        exact inductionHypothesis next later passEnds
      · rw [ends] at passEnds
        exact passEnds
      · rw [ends] at passEnds
        exact passEnds
      · trivial

theorem Satisfies.weaken
    {before start : σ → Prop}
    {program : Program ε σ α}
    {strong after : α → σ → Prop}
    {strongFailing failing : ε → σ → Prop}
    (holds : Satisfies before program strong strongFailing)
    (starts : ∀ state, start state → before state)
    (returns : ∀ value state, strong value state → after value state)
    (fails : ∀ error state, strongFailing error state →
      failing error state) :
    Satisfies start program after failing := by
  intro state begins
  have ends := holds state (starts state begins)
  cases outcome : program state with
  | returned value later =>
      rw [outcome] at ends
      exact returns value later ends
  | threw error later =>
      rw [outcome] at ends
      exact fails error later ends
  | outOfFuel => trivial

/-- Two actions that agree where an invariant holds, which one of them keeps. -/
theorem forEach_congr
    {invariant : σ → Prop}
    {action other : β → Program ε σ Unit}
    {elements : List β}
    (same : ∀ element ∈ elements, ∀ state, invariant state →
      action element state = other element state)
    (keeps : ∀ element ∈ elements,
      Satisfies invariant (other element) (fun _ => invariant)
        (fun _ _ => True))
    {state : σ}
    (start : invariant state) :
    forEach action elements state = forEach other elements state := by
  induction elements generalizing state with
  | nil => rfl
  | cons first rest inductionHypothesis =>
      rw [List.forall_mem_cons] at same keeps
      apply bind_congr (same.1 state start)
      intro _ later ends
      exact inductionHypothesis same.2 keeps.2
        (keeps.1.returned start ends)

/-- A part of the state that the program never changes. -/
def Keeps {τ : Type} (view : σ → τ) (program : Program ε σ α) : Prop :=
  ∀ seen, Satisfies (fun state => view state = seen) program
    (fun _ state => view state = seen) (fun _ state => view state = seen)

section Keeps

variable {τ : Type} {view : σ → τ}

theorem Keeps.returned
    {program : Program ε σ α}
    (keeps : Keeps view program)
    {state later : σ} {value : α}
    (ends : program state = .returned value later) :
    view later = view state :=
  (keeps (view state)).returned rfl ends

theorem Keeps.pure (value : α) :
    Keeps view (pure value : Program ε σ α) :=
  fun _ => Satisfies.pure value fun _ same => same

theorem Keeps.raise (error : ε) :
    Keeps view (raise error : Program ε σ α) :=
  fun _ => Satisfies.raise error fun _ same => same

theorem Keeps.getState :
    Keeps view (getState : Program ε σ σ) :=
  fun _ _ start => start

theorem Keeps.bind
    {first : Program ε σ α}
    {next : α → Program ε σ β}
    (firstKeeps : Keeps view first)
    (nextKeeps : ∀ value, Keeps view (next value)) :
    Keeps view (first >>= next) :=
  fun seen => Satisfies.bind (firstKeeps seen) fun value =>
    nextKeeps value seen

theorem Keeps.focus {ρ : Type}
    {get : σ → ρ} {set : ρ → σ → σ}
    (same : ∀ part state, view (set part state) = view state)
    (program : Program ε ρ α) :
    Keeps view (focus get set program) := by
  rintro _ state rfl
  rw [Program.focus]
  cases program (get state) with
  | returned value part => exact same part state
  | threw error part => exact same part state
  | outOfFuel => trivial

theorem Keeps.forEach
    {action : β → Program ε σ Unit} {elements : List β}
    (each : ∀ element ∈ elements, Keeps view (action element)) :
    Keeps view (forEach action elements) := by
  induction elements with
  | nil => exact Keeps.pure ()
  | cons first rest inductionHypothesis =>
      rw [List.forall_mem_cons] at each
      exact each.1.bind fun _ => inductionHypothesis each.2

end Keeps

/-! ## Simulation -/

/--
Two programs over different states end in the same way, with equal results,
and keep their states related.
-/
def Simulates {τ : Type}
    (before : σ → τ → Prop)
    (left : Program ε σ α)
    (right : Program ε τ α)
    (after : α → σ → τ → Prop) : Prop :=
  ∀ leftState rightState, before leftState rightState →
    match left leftState, right rightState with
    | .returned leftValue leftLater, .returned rightValue rightLater =>
        leftValue = rightValue ∧ after leftValue leftLater rightLater
    | .threw leftError _, .threw rightError _ => leftError = rightError
    | .outOfFuel, .outOfFuel => True
    | _, _ => False

theorem Simulates.returned {τ : Type}
    {before : σ → τ → Prop}
    {left : Program ε σ α}
    {right : Program ε τ α}
    {after : α → σ → τ → Prop}
    (simulates : Simulates before left right after)
    {leftState : σ} {rightState rightLater : τ} {value : α}
    (start : before leftState rightState)
    (ends : right rightState = .returned value rightLater) :
    ∃ leftLater,
      left leftState = .returned value leftLater ∧
        after value leftLater rightLater := by
  have related := simulates leftState rightState start
  rw [ends] at related
  cases leftEnds : left leftState with
  | returned leftValue leftLater =>
      rw [leftEnds] at related
      obtain ⟨rfl, holds⟩ := related
      exact ⟨leftLater, rfl, holds⟩
  | threw error later =>
      rw [leftEnds] at related
      exact related.elim
  | outOfFuel =>
      rw [leftEnds] at related
      exact related.elim

theorem Simulates.weaken {τ : Type}
    {before : σ → τ → Prop}
    {left : Program ε σ α}
    {right : Program ε τ α}
    {strong weak : α → σ → τ → Prop}
    (simulates : Simulates before left right strong)
    (weaker : ∀ value leftLater rightLater,
      strong value leftLater rightLater → weak value leftLater rightLater) :
    Simulates before left right weak := by
  intro leftState rightState start
  have ends := simulates leftState rightState start
  cases leftEnds : left leftState <;>
    cases rightEnds : right rightState <;>
    simp only [leftEnds, rightEnds] at ends ⊢
  · exact ⟨ends.1, weaker _ _ _ ends.2⟩
  · exact ends

theorem Simulates.pure {τ : Type}
    {before : σ → τ → Prop}
    {after : α → σ → τ → Prop}
    (value : α)
    (holds : ∀ leftState rightState,
      before leftState rightState → after value leftState rightState) :
    Simulates before (pure value : Program ε σ α)
      (pure value : Program ε τ α) after :=
  fun leftState rightState start =>
    ⟨rfl, holds leftState rightState start⟩

theorem Simulates.raise {τ : Type}
    {before : σ → τ → Prop}
    {after : α → σ → τ → Prop}
    (error : ε) :
    Simulates before (raise error : Program ε σ α)
      (raise error : Program ε τ α) after :=
  fun _ _ _ => rfl

theorem Simulates.bind {τ : Type}
    {before : σ → τ → Prop}
    {left : Program ε σ α}
    {right : Program ε τ α}
    {middle : α → σ → τ → Prop}
    {leftNext : α → Program ε σ β}
    {rightNext : α → Program ε τ β}
    {after : β → σ → τ → Prop}
    (first : Simulates before left right middle)
    (next : ∀ value,
      Simulates (middle value) (leftNext value) (rightNext value) after) :
    Simulates before (left >>= leftNext) (right >>= rightNext) after := by
  intro leftState rightState start
  have firstEnds := first leftState rightState start
  rw [bind_run, bind_run]
  cases leftEnds : left leftState <;>
    cases rightEnds : right rightState <;>
    simp only [leftEnds, rightEnds] at firstEnds ⊢
  · obtain ⟨rfl, related⟩ := firstEnds
    exact next _ _ _ related
  · exact firstEnds

/-- Loops simulate each other when their passes do. -/
theorem Simulates.loop {τ : Type}
    {left : Nat → β → Program ε σ (β ⊕ α)}
    {right : Nat → β → Program ε τ (β ⊕ α)}
    {after : α → σ → τ → Prop}
    (invariant : β → σ → τ → Prop)
    (pass : ∀ fuel current,
      Simulates (invariant current) (left fuel current)
        (right fuel current) (Sum.elim invariant after))
    (fuel : Nat) (current : β) :
    Simulates (invariant current) (loop left fuel current)
      (loop right fuel current) after := by
  induction fuel generalizing current with
  | zero =>
      intro _ _ _
      exact trivial
  | succ fuel inductionHypothesis =>
      refine Simulates.bind (pass fuel current) ?_
      rintro (next | result)
      · exact inductionHypothesis next
      · exact Simulates.pure result fun _ _ holds => holds

end Program

/-! ## Settling -/

/-- With enough fuel the run always ends in `result`. -/
def Settles {ρ : Type} (run : Nat → ρ) (result : ρ) : Prop :=
  ∀ᶠ fuel in atTop, run fuel = result

namespace Settles

variable {ε σ α β ρ : Type}

theorem of_eq
    {run : Nat → ρ} {result : ρ}
    (ends : ∀ fuel, run fuel = result) :
    Settles run result :=
  Eventually.of_forall ends

/-- A run settles in at most one result. -/
theorem unique
    {run : Nat → ρ} {first second : ρ}
    (firstSettles : Settles run first)
    (secondSettles : Settles run second) :
    first = second := by
  obtain ⟨fuel, firstEq, secondEq⟩ :=
    (firstSettles.and secondSettles).exists
  exact firstEq.symm.trans secondEq

/-- A growing run that has ended once has settled. -/
theorem of_run
    {run : Nat → Program ε σ α} {fuel : Nat} {state : σ}
    {outcome : Outcome ε σ α}
    (grows : Program.Grows run)
    (ends : run fuel state = outcome)
    (ended : outcome ≠ .outOfFuel) :
    Settles (fun fuel => run fuel state) outcome := by
  refine eventually_atTop.2 ⟨fuel, fun more ordered => ?_⟩
  rcases grows fuel more ordered state with out | same
  · exact absurd (ends.symm.trans out) ended
  · exact same.trans ends

/-- No fuel gives anything else than what the run settles on. -/
theorem outOfFuel_or_eq
    {run : Nat → Program ε σ α} {state : σ} {outcome : Outcome ε σ α}
    (grows : Program.Grows run)
    (settles : Settles (fun fuel => run fuel state) outcome)
    (fuel : Nat) :
    run fuel state = .outOfFuel ∨ run fuel state = outcome := by
  by_cases ended : run fuel state = .outOfFuel
  · exact Or.inl ended
  · exact Or.inr ((of_run grows rfl ended).unique settles)

theorem bind
    {first : Nat → Program ε σ α}
    {next : Nat → α → Program ε σ β}
    {state later : σ} {value : α} {outcome : Outcome ε σ β}
    (firstSettles :
      Settles (fun fuel => first fuel state) (.returned value later))
    (nextSettles :
      Settles (fun fuel => next fuel value later) outcome) :
    Settles (fun fuel => (first fuel >>= next fuel) state) outcome := by
  filter_upwards [firstSettles, nextSettles] with fuel firstEnds nextEnds
  rw [Program.bind_returned firstEnds, nextEnds]

theorem bind_threw
    {first : Nat → Program ε σ α}
    {next : Nat → α → Program ε σ β}
    {state later : σ} {error : ε}
    (firstSettles :
      Settles (fun fuel => first fuel state) (.threw error later)) :
    Settles (fun fuel => (first fuel >>= next fuel) state)
      (.threw error later) := by
  filter_upwards [firstSettles] with fuel firstEnds
  rw [Program.bind_threw firstEnds]

/-- One unit of fuel less does not matter. -/
theorem of_succ
    {run : Nat → ρ} {result : ρ}
    (settles : Settles (fun fuel => run (fuel + 1)) result) :
    Settles run result := by
  obtain ⟨bound, holds⟩ := eventually_atTop.1 settles
  refine eventually_atTop.2 ⟨bound + 1, ?_⟩
  intro fuel large
  obtain ⟨previous, rfl⟩ : ∃ previous, fuel = previous + 1 :=
    ⟨fuel - 1, by omega⟩
  exact holds previous (by omega)

/-- A pass that goes round again is followed by the rest of the loop. -/
theorem loop_again
    {body : Nat → β → Program ε σ (β ⊕ α)}
    {current next : β} {state later : σ} {outcome : Outcome ε σ α}
    (pass : Settles (fun fuel => body fuel current state)
      (.returned (.inl next) later))
    (rest : Settles (fun fuel => Program.loop body fuel next later)
      outcome) :
    Settles (fun fuel => Program.loop body fuel current state)
      outcome := by
  apply of_succ
  filter_upwards [pass, rest] with fuel passEnds restEnds
  rw [Program.loop_succ, passEnds]
  exact restEnds

/-- A pass that leaves ends the loop. -/
theorem loop_leave
    {body : Nat → β → Program ε σ (β ⊕ α)}
    {current : β} {state later : σ} {result : α}
    (pass : Settles (fun fuel => body fuel current state)
      (.returned (.inr result) later)) :
    Settles (fun fuel => Program.loop body fuel current state)
      (.returned result later) := by
  apply of_succ
  filter_upwards [pass] with fuel passEnds
  rw [Program.loop_succ, passEnds]

/-- A pass that throws ends the loop. -/
theorem loop_threw
    {body : Nat → β → Program ε σ (β ⊕ α)}
    {current : β} {state later : σ} {error : ε}
    (pass : Settles (fun fuel => body fuel current state)
      (.threw error later)) :
    Settles (fun fuel => Program.loop body fuel current state)
      (.threw error later) := by
  apply of_succ
  filter_upwards [pass] with fuel passEnds
  rw [Program.loop_succ, passEnds]

/--
The variant rule: from every position that satisfies the invariant a pass
either leaves in a good outcome, or reaches a position that satisfies it again
and is smaller in a well-founded order.
-/
theorem loop_of_variant
    {body : Nat → β → Program ε σ (β ⊕ α)}
    {μ : Type} {smaller : μ → μ → Prop}
    (wellFounded : WellFounded smaller)
    (measure : β → σ → μ)
    (invariant : β → σ → Prop)
    (good : α → σ → Prop)
    (pass : ∀ current state, invariant current state →
      (∃ result later,
        Settles (fun fuel => body fuel current state)
          (.returned (.inr result) later) ∧ good result later) ∨
      (∃ next later,
        Settles (fun fuel => body fuel current state)
          (.returned (.inl next) later) ∧ invariant next later ∧
            smaller (measure next later) (measure current state)))
    (current : β) (state : σ)
    (start : invariant current state) :
    ∃ result later,
      Settles (fun fuel => Program.loop body fuel current state)
        (.returned result later) ∧ good result later := by
  induction position : measure current state
    using wellFounded.induction generalizing current state with
  | _ value inductionHypothesis =>
    subst position
    rcases pass current state start with
      ⟨result, later, leaves, holds⟩ |
        ⟨next, later, again, kept, less⟩
    · exact ⟨result, later, loop_leave leaves, holds⟩
    · obtain ⟨result, final, rest, holds⟩ :=
        inductionHypothesis _ less next later kept rfl
      exact ⟨result, final, loop_again again rest, holds⟩

end Settles

/-- With enough fuel the run throws, or it returns in a good state. -/
def Ends {ε σ α : Type} (run : Nat → Outcome ε σ α)
    (good : α → σ → Prop) : Prop :=
  (∃ error later, Settles run (.threw error later)) ∨
    ∃ value later, Settles run (.returned value later) ∧ good value later

namespace Ends

variable {ε σ α β : Type}

theorem of_returned
    {run : Nat → Outcome ε σ α} {good : α → σ → Prop}
    {value : α} {later : σ}
    (settles : Settles run (.returned value later))
    (holds : good value later) :
    Ends run good :=
  Or.inr ⟨value, later, settles, holds⟩

theorem of_succ
    {run : Nat → Outcome ε σ α} {good : α → σ → Prop}
    (ends : Ends (fun fuel => run (fuel + 1)) good) :
    Ends run good := by
  rcases ends with ⟨error, later, threw⟩ | ⟨value, later, returns, holds⟩
  · exact Or.inl ⟨error, later, Settles.of_succ threw⟩
  · exact Or.inr ⟨value, later, Settles.of_succ returns, holds⟩

theorem bind
    {first : Nat → Program ε σ α}
    {next : Nat → α → Program ε σ β}
    {state : σ} {middle : α → σ → Prop} {good : β → σ → Prop}
    (firstEnds : Ends (fun fuel => first fuel state) middle)
    (nextEnds : ∀ value later, middle value later →
      Ends (fun fuel => next fuel value later) good) :
    Ends (fun fuel => (first fuel >>= next fuel) state) good := by
  rcases firstEnds with ⟨error, later, threw⟩ | ⟨value, later, returns, holds⟩
  · exact Or.inl ⟨error, later, Settles.bind_threw threw⟩
  · rcases nextEnds value later holds with
      ⟨error, final, threw⟩ | ⟨result, final, rest, good⟩
    · exact Or.inl ⟨error, final, Settles.bind returns threw⟩
    · exact Or.inr ⟨result, final, Settles.bind returns rest, good⟩

/-- What a run that ends returns is good. -/
theorem good_of_returned
    {run : Nat → Outcome ε σ α} {good : α → σ → Prop}
    {value : α} {later : σ}
    (ends : Ends run good)
    (settles : Settles run (.returned value later)) :
    good value later := by
  rcases ends with ⟨error, final, threw⟩ | ⟨result, final, returns, holds⟩
  · cases threw.unique settles
  · cases returns.unique settles
    exact holds

end Ends

/-! ## Termination -/

theorem Outcome.returned_ne {ε σ α : Type} (value : α) (later : σ) :
    (.returned value later : Outcome ε σ α) ≠ .outOfFuel := by
  intro impossible
  cases impossible

theorem Outcome.threw_ne {ε σ α : Type} (error : ε) (later : σ) :
    (.threw error later : Outcome ε σ α) ≠ .outOfFuel := by
  intro impossible
  cases impossible

namespace Program

variable {ε σ α β : Type}

/-- The program needs no fuel. -/
def Total (program : Program ε σ α) : Prop :=
  ∀ state, program state ≠ .outOfFuel

theorem Total.pure (value : α) :
    Total (pure value : Program ε σ α) :=
  fun state => Outcome.returned_ne value state

theorem Total.raise (error : ε) :
    Total (raise error : Program ε σ α) :=
  fun state => Outcome.threw_ne error state

theorem Total.step (run : σ → α × σ) :
    Total (step run : Program ε σ α) :=
  fun state => Outcome.returned_ne (run state).1 (run state).2

theorem Total.bind
    {first : Program ε σ α} {next : α → Program ε σ β}
    (firstTotal : Total first)
    (nextTotal : ∀ value, Total (next value)) :
    Total (first >>= next) := by
  intro state
  rw [bind_run]
  cases ends : first state with
  | returned value later => exact nextTotal value later
  | threw error later => exact Outcome.threw_ne error later
  | outOfFuel => exact absurd ends (firstTotal state)

theorem Total.onLocal {τ : Type}
    {program : Program ε τ α}
    (total : Total program)
    (start : τ) :
    Total (onLocal program start : Program ε σ (α × τ)) := by
  intro state
  rw [Program.onLocal]
  cases ends : program start with
  | returned value later => exact Outcome.returned_ne _ state
  | threw error later => exact Outcome.threw_ne error state
  | outOfFuel => exact absurd ends (total start)

end Program

/-- With enough fuel the run returns or throws, always in the same way. -/
def Terminates {ε σ α : Type} (run : Nat → Outcome ε σ α) : Prop :=
  ∃ outcome, outcome ≠ .outOfFuel ∧ Settles run outcome

namespace Terminates

variable {ε σ α β : Type}

theorem of_returned
    {run : Nat → Outcome ε σ α} {value : α} {later : σ}
    (settles : Settles run (.returned value later)) :
    Terminates run :=
  ⟨.returned value later, Outcome.returned_ne value later, settles⟩

theorem of_threw
    {run : Nat → Outcome ε σ α} {error : ε} {later : σ}
    (settles : Settles run (.threw error later)) :
    Terminates run :=
  ⟨.threw error later, Outcome.threw_ne error later, settles⟩

theorem of_total
    {program : Program ε σ α}
    (total : Program.Total program)
    (state : σ) :
    Terminates fun _ => program state :=
  ⟨program state, total state, Settles.of_eq fun _ => rfl⟩

/-- What is made of the outcome of a run that terminates. -/
theorem bind
    {first : Nat → Program ε σ α}
    {next : Nat → α → Program ε σ β}
    {state : σ}
    (firstEnds : Terminates fun fuel => first fuel state)
    (nextEnds : ∀ fuel value later,
      first fuel state = .returned value later →
      Terminates fun fuel => next fuel value later) :
    Terminates fun fuel => (first fuel >>= next fuel) state := by
  rcases firstEnds with ⟨outcome, ended, settles⟩
  cases outcome with
  | returned value later =>
      rcases settles.exists with ⟨fuel, returns⟩
      rcases nextEnds fuel value later returns with
        ⟨last, lastEnded, lastSettles⟩
      exact ⟨last, lastEnded, Settles.bind settles lastSettles⟩
  | threw error later => exact of_threw (Settles.bind_threw settles)
  | outOfFuel => exact absurd rfl ended

theorem focus {τ : Type}
    {get : σ → τ} {set : τ → σ → σ} {program : Nat → Program ε τ α}
    {state : σ}
    (ends : Terminates fun fuel => program fuel (get state)) :
    Terminates fun fuel => Program.focus get set (program fuel) state := by
  rcases ends with ⟨outcome, ended, settles⟩
  cases outcome with
  | returned value part =>
      exact of_returned
        (settles.mono fun _ returns => Program.focus_returned returns)
  | threw error part =>
      exact of_threw
        (settles.mono fun _ throws => Program.focus_threw throws)
  | outOfFuel => exact absurd rfl ended

theorem forEach
    {action : Nat → β → Program ε σ Unit} {elements : List β}
    (each : ∀ element ∈ elements, ∀ state,
      Terminates fun fuel => action fuel element state)
    (state : σ) :
    Terminates fun fuel => Program.forEach (action fuel) elements state := by
  induction elements generalizing state with
  | nil => exact of_total (.pure ()) state
  | cons first rest inductionHypothesis =>
      rw [List.forall_mem_cons] at each
      apply (each.1 state).bind
      intro _ _ later _
      exact inductionHypothesis each.2 later

/--
The variant rule: every pass terminates, and one that goes round again keeps
the invariant and comes to a position that is smaller in a well-founded order.
-/
theorem loop_of_variant
    {body : Nat → β → Program ε σ (β ⊕ α)}
    {μ : Type} {smaller : μ → μ → Prop}
    (wellFounded : WellFounded smaller)
    (measure : β → σ → μ)
    (invariant : β → σ → Prop)
    (passEnds : ∀ current state, invariant current state →
      Terminates fun fuel => body fuel current state)
    (passKeeps : ∀ fuel current state next later,
      invariant current state →
      body fuel current state = .returned (.inl next) later →
      invariant next later ∧
        smaller (measure next later) (measure current state))
    (current : β) (state : σ)
    (start : invariant current state) :
    Terminates fun fuel => Program.loop body fuel current state := by
  induction position : measure current state
    using wellFounded.induction generalizing current state with
  | _ value inductionHypothesis =>
    subst position
    rcases passEnds current state start with ⟨outcome, ended, settles⟩
    rcases outcome with ⟨next | result, later⟩ | ⟨error, later⟩ | _
    · rcases settles.exists with ⟨fuel, goesRound⟩
      rcases passKeeps fuel current state next later start goesRound with
        ⟨kept, less⟩
      rcases inductionHypothesis _ less next later kept rfl with
        ⟨last, lastEnded, lastSettles⟩
      exact ⟨last, lastEnded, Settles.loop_again settles lastSettles⟩
    · exact of_returned (Settles.loop_leave settles)
    · exact of_threw (Settles.loop_threw settles)
    · exact absurd rfl ended

end Terminates

/-! ## The positions of a loop -/

section Positions

variable {ε σ α β : Type}

/-- The positions that a loop comes to, with the passes it made before. -/
inductive PassReached (body : Nat → β → Program ε σ (β ⊕ α)) :
    (fuel : Nat) → β → σ → (passes left : Nat) → β → σ → Prop where
  | first (fuel : Nat) (current : β) (state : σ) :
      PassReached body fuel current state 0 fuel current state
  | next {fuel passes left : Nat} {current next last : β}
      {state between final : σ} :
      body fuel current state = .returned (.inl next) between →
      PassReached body fuel next between passes left last final →
      PassReached body (fuel + 1) current state (passes + 1) left last final

/-- The positions of a loop, one after the other. -/
def Program.passes (body : Nat → β → Program ε σ (β ⊕ α)) :
    (fuel : Nat) → β → σ → List (β × σ)
  | 0, _, _ => []
  | fuel + 1, current, state =>
      (current, state) ::
        match body fuel current state with
        | .returned (.inl next) between => passes body fuel next between
        | _ => []

theorem PassReached.mem_passes
    {body : Nat → β → Program ε σ (β ⊕ α)}
    {fuel passes left : Nat} {current last : β} {state final : σ}
    (reached : PassReached body fuel current state passes (left + 1) last
      final) :
    (last, final) ∈ Program.passes body fuel current state := by
  generalize isLeft : left + 1 = more at reached
  induction reached with
  | first =>
      subst isLeft
      exact List.mem_cons_self
  | next goesRound _ inductionHypothesis =>
      apply List.mem_cons_of_mem
      simp only [goesRound]
      exact inductionHypothesis isLeft

theorem PassReached.invariant_from
    {body : Nat → β → Program ε σ (β ⊕ α)}
    (invariant : Nat → β → σ → Prop)
    (passKeeps : ∀ fuel passes current state next later,
      invariant passes current state →
      body fuel current state = .returned (.inl next) later →
      invariant (passes + 1) next later)
    {fuel passes left : Nat} {current last : β} {state final : σ}
    (reached : PassReached body fuel current state passes left last final)
    {before : Nat}
    (start : invariant before current state) :
    invariant (before + passes) last final := by
  induction reached generalizing before with
  | first => exact start
  | @next fuel passes left current next last state between final goesRound
      _ inductionHypothesis =>
      have kept := passKeeps fuel before current state next between start
        goesRound
      have later := inductionHypothesis kept
      rwa [Nat.add_assoc, Nat.add_comm 1 passes] at later

/-- What every pass keeps holds wherever the loop comes to. -/
theorem PassReached.invariant
    {body : Nat → β → Program ε σ (β ⊕ α)}
    (invariant : Nat → β → σ → Prop)
    (passKeeps : ∀ fuel passes current state next later,
      invariant passes current state →
      body fuel current state = .returned (.inl next) later →
      invariant (passes + 1) next later)
    {fuel passes left : Nat} {current last : β} {state final : σ}
    (reached : PassReached body fuel current state passes left last final)
    (start : invariant 0 current state) :
    invariant passes last final := by
  have holds := reached.invariant_from invariant passKeeps start
  rwa [Nat.zero_add] at holds

/-- A loop that returns has come to the pass that leaves it. -/
theorem exists_reached_of_returned
    {body : Nat → β → Program ε σ (β ⊕ α)}
    {fuel : Nat} {current : β} {state later : σ} {result : α}
    (returns : Program.loop body fuel current state =
      .returned result later) :
    ∃ passes left last final,
      PassReached body fuel current state passes (left + 1) last final ∧
      body left last final = .returned (.inr result) later := by
  induction fuel generalizing current state with
  | zero => cases returns
  | succ fuel inductionHypothesis =>
      rw [Program.loop_succ] at returns
      rcases pass : body fuel current state with
        ⟨next | value, between⟩ | ⟨error, between⟩ | _
      · rw [pass] at returns
        rcases inductionHypothesis returns with
          ⟨passes, left, last, final, reached, leaves⟩
        exact ⟨passes + 1, left, last, final, .next pass reached, leaves⟩
      · rw [pass] at returns
        cases returns
        exact ⟨0, fuel, current, state, .first _ _ _, pass⟩
      · rw [pass] at returns
        cases returns
      · rw [pass] at returns
        cases returns

/-- Loops whose passes agree wherever one of them comes to are the same. -/
theorem Program.loop_congr_of_reached
    {body other : Nat → β → Program ε σ (β ⊕ α)}
    {fuel : Nat} {current : β} {state : σ}
    (same : ∀ passes left last final,
      PassReached other fuel current state passes (left + 1) last final →
      body left last final = other left last final) :
    Program.loop body fuel current state =
      Program.loop other fuel current state := by
  induction fuel generalizing current state with
  | zero => rfl
  | succ fuel inductionHypothesis =>
      rw [Program.loop_succ, Program.loop_succ,
        same 0 fuel current state (.first _ _ _)]
      rcases pass : other fuel current state with
        ⟨next | result, between⟩ | _ | _
      · apply inductionHypothesis
        intro passes left last final reached
        exact same (passes + 1) left last final (.next pass reached)
      · rfl
      · rfl
      · rfl

/--
The invariant rule for a single start: a pass is only asked to keep the
invariant at the positions that the loop comes to.
-/
theorem Program.Satisfies.loop_of_reached
    {body : Nat → β → Program ε σ (β ⊕ α)}
    {after : α → σ → Prop} {failing : ε → σ → Prop}
    (invariant : β → σ → Prop)
    {fuel : Nat} {current : β} {state : σ}
    (start : invariant current state)
    (pass : ∀ passes left last final,
      PassReached body fuel current state passes (left + 1) last final →
      invariant last final →
      Program.Satisfies (fun before => before = final) (body left last)
        (Sum.elim invariant after) failing) :
    Program.Satisfies (fun before => before = state)
      (Program.loop body fuel current) after failing := by
  intro _ same
  rw [same]
  clear same
  induction fuel generalizing current state with
  | zero => trivial
  | succ fuel inductionHypothesis =>
      have passEnds := pass 0 fuel current state (.first _ _ _) start state
        rfl
      rw [Program.loop_succ]
      rcases ends : body fuel current state with
        ⟨next | result, later⟩ | ⟨error, later⟩ | _
      · rw [ends] at passEnds
        apply inductionHypothesis passEnds
        intro passes left last final reached
        exact pass (passes + 1) left last final (.next ends reached)
      · rw [ends] at passEnds
        exact passEnds
      · rw [ends] at passEnds
        exact passEnds
      · trivial

end Positions

end DropFile.General.FuelledProgram
