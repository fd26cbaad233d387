import DropFile.General.FuelledProgram

/-!
# Recursion as a list of tasks

A recursive program is taken apart into tasks.  Performing a task is a short
program that tells which tasks come next, in front of those that are still
waiting.  A program is worked off by some tasks if they end like the program,
however much of its recursion the tasks have spread out.
-/

namespace DropFile.General.Worklists

open DropFile.General.FuelledProgram

variable {Task ε σ β : Type} (perform : Task → Program ε σ (List Task))

/-- How working off a list of tasks ends, and the state that it leaves. -/
inductive Works : List Task → σ → Except ε Unit → σ → Prop where
  | nothing (state : σ) : Works [] state (.ok ()) state
  | goesOn {task : Task} {tasks more : List Task} {state between final : σ}
      {ending : Except ε Unit} :
      perform task state = .returned more between →
      Works (more ++ tasks) between ending final →
      Works (task :: tasks) state ending final
  | fails {task : Task} {error : ε} {state final : σ}
      (tasks : List Task) :
      perform task state = .threw error final →
      Works (task :: tasks) state (.error error) final

variable {perform} {tasks others : List Task} {state between final : σ}

/-- Tasks that are worked off make room for those behind them. -/
theorem Works.append
    {ending : Except ε Unit}
    (first : Works perform tasks state (.ok ()) between)
    (second : Works perform others between ending final) :
    Works perform (tasks ++ others) state ending final := by
  generalize isOk : (.ok () : Except ε Unit) = result at first
  induction first with
  | nothing => exact second
  | goesOn performs _ inductionHypothesis =>
      have behind := inductionHypothesis second isOk
      rw [List.append_assoc] at behind
      exact .goesOn performs behind
  | fails => cases isOk

/-- A task that fails does not let those behind it begin. -/
theorem Works.append_failed
    {error : ε}
    (fails : Works perform tasks state (.error error) final)
    (others : List Task) :
    Works perform (tasks ++ others) state (.error error) final := by
  generalize isError : (.error error : Except ε Unit) = result at fails
  induction fails with
  | nothing => cases isError
  | goesOn performs _ inductionHypothesis =>
      have behind := inductionHypothesis isError
      rw [List.append_assoc] at behind
      exact .goesOn performs behind
  | fails tasks throws => exact .fails _ throws

/-- The outcome of a program that ends in this way. -/
def endedAs (ending : Except ε Unit) (later : σ) : Outcome ε σ Unit :=
  match ending with
  | .ok _ => .returned () later
  | .error error => .threw error later

variable (perform) in
/-- The tasks end like the program wherever it ends. -/
structure WorksOff (program : Program ε σ Unit) (tasks : List Task) :
    Prop where
  returns : ∀ {state later : σ}, program state = .returned () later →
    Works perform tasks state (.ok ()) later
  throws : ∀ {state later : σ} {error : ε},
    program state = .threw error later →
    Works perform tasks state (.error error) later

namespace WorksOff

theorem pure : WorksOff perform (Pure.pure () : Program ε σ Unit) [] where
  returns := by
    intro state later returned
    cases returned
    exact .nothing state
  throws := by
    intro state later error threw
    cases threw

theorem andThen
    {program next : Program ε σ Unit}
    (first : WorksOff perform program tasks)
    (second : WorksOff perform next others) :
    WorksOff perform (program >>= fun _ => next) (tasks ++ others) where
  returns := by
    intro state later returned
    rcases Program.bind_eq_returned returned with
      ⟨_, between, firstReturned, secondReturned⟩
    exact (first.returns firstReturned).append
      (second.returns secondReturned)
  throws := by
    intro state later error threw
    rw [Program.bind_run] at threw
    cases outcome : program state with
    | returned value between =>
        rw [outcome] at threw
        exact (first.returns outcome).append (second.throws threw)
    | threw other between =>
        rw [outcome] at threw
        cases threw
        exact (first.throws outcome).append_failed others
    | outOfFuel =>
        rw [outcome] at threw
        cases threw

theorem forEach
    {action : β → Program ε σ Unit} {task : β → Task}
    (each : ∀ item, WorksOff perform (action item) [task item])
    (items : List β) :
    WorksOff perform (Program.forEach action items) (items.map task) := by
  induction items with
  | nil => exact .pure
  | cons first rest inductionHypothesis =>
      exact (each first).andThen inductionHypothesis

variable (perform) in
/--
What a program does from some state on: it runs out of fuel, or it fails with
the task, or the tasks that come next work off the rest of it.
-/
inductive Unfolds (program : Program ε σ Unit) (task : Task) (state : σ) :
    Prop where
  | outOfFuel : program state = .outOfFuel → Unfolds program task state
  | fails {error : ε} {later : σ} :
      perform task state = .threw error later →
      program state = .threw error later →
      Unfolds program task state
  | goesOn {more : List Task} {between : σ} (rest : Program ε σ Unit) :
      perform task state = .returned more between →
      program state = rest between →
      WorksOff perform rest more →
      Unfolds program task state

theorem task
    {program : Program ε σ Unit} {task : Task}
    (unfolds : ∀ state, Unfolds perform program task state) :
    WorksOff perform program [task] where
  returns := by
    intro state later returned
    cases unfolds state with
    | outOfFuel runsOut => cases runsOut.symm.trans returned
    | fails _ throws => cases throws.symm.trans returned
    | goesOn rest performs continues works =>
        have rests := works.returns (continues.symm.trans returned)
        apply Works.goesOn performs
        rwa [List.append_nil]
  throws := by
    intro state later error threw
    cases unfolds state with
    | outOfFuel runsOut => cases runsOut.symm.trans threw
    | fails performs throws =>
        cases throws.symm.trans threw
        exact .fails _ performs
    | goesOn rest performs continues works =>
        have rests := works.throws (continues.symm.trans threw)
        apply Works.goesOn performs
        rwa [List.append_nil]

theorem works
    {program : Program ε σ Unit} {ending : Except ε Unit}
    (worksOff : WorksOff perform program tasks)
    (ends : program state = endedAs ending final) :
    Works perform tasks state ending final := by
  cases ending with
  | ok value => exact worksOff.returns ends
  | error error => exact worksOff.throws ends

/-- A task that looks at the state and leaves the choice to other tasks. -/
theorem choose
    {chosen : σ → Prop} [DecidablePred chosen] {task : Task}
    {program next : Program ε σ Unit}
    (performs : ∀ state,
      perform task state =
        .returned (if chosen state then tasks else others) state)
    (whenChosen : WorksOff perform program tasks)
    (otherwise : WorksOff perform next others) :
    WorksOff perform
      (Program.getState >>= fun state =>
        if chosen state then program else next)
      [task] := by
  apply WorksOff.task
  intro state
  have performed := performs state
  by_cases isChosen : chosen state
  · rw [if_pos isChosen] at performed
    refine .goesOn program performed ?_ whenChosen
    rw [Program.bind_returned (Program.getState_run state),
      if_pos isChosen]
  · rw [if_neg isChosen] at performed
    refine .goesOn next performed ?_ otherwise
    rw [Program.bind_returned (Program.getState_run state),
      if_neg isChosen]

end WorksOff

end DropFile.General.Worklists
