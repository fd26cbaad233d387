import Mathlib.Data.List.Count
import Mathlib.Data.List.Perm.Subperm

/-!
# Commuting deterministic steps

Every label has at most one step from a state, and steps of different labels
commute.  Then the order of the steps does not matter: two runs can be
completed to a common state with the steps that the other one has more, and a
single run into a stuck state decides what every run can do.
-/

namespace DropFile.General.CommutingSteps

variable {Label State : Type} {step : Label → State → Option State}

/-- Steps of different labels can be taken in either order. -/
def Commutes (step : Label → State → Option State) : Prop :=
  ∀ {first second : Label} {start left right : State},
    first ≠ second →
    step first start = some left →
    step second start = some right →
    ∃ final, step second left = some final ∧
      step first right = some final

/-- Take the steps of the given labels, in order. -/
def follow (step : Label → State → Option State) :
    List Label → State → Option State
  | [], state => some state
  | label :: rest, state => (step label state).bind (follow step rest)

/-- No label has a step. -/
def Stuck (step : Label → State → Option State) (state : State) : Prop :=
  ∀ label, step label state = none

def Reaches (step : Label → State → Option State)
    (start final : State) : Prop :=
  ∃ labels, follow step labels start = some final

theorem follow_cons_of_step
    {label : Label} {start next : State}
    (taken : step label start = some next)
    (rest : List Label) :
    follow step (label :: rest) start = follow step rest next := by
  rw [follow, taken, Option.bind_some]

theorem follow_append
    (left right : List Label) (start : State) :
    follow step (left ++ right) start =
      (follow step left start).bind (follow step right) := by
  induction left generalizing start with
  | nil => rfl
  | cons label rest inductionHypothesis =>
      rw [List.cons_append, follow, follow, Option.bind_assoc]
      exact congrArg _ (funext inductionHypothesis)

theorem Reaches.refl (state : State) : Reaches step state state :=
  ⟨[], rfl⟩

theorem Reaches.trans
    {start middle final : State}
    (first : Reaches step start middle)
    (second : Reaches step middle final) :
    Reaches step start final := by
  obtain ⟨left, leftFollows⟩ := first
  obtain ⟨right, rightFollows⟩ := second
  exact ⟨left ++ right, by rw [follow_append, leftFollows]; exact rightFollows⟩

theorem Reaches.single
    {label : Label} {start next : State}
    (taken : step label start = some next) :
    Reaches step start next :=
  ⟨[label], by rw [follow_cons_of_step taken]; rfl⟩

/-- What every step preserves holds after a run. -/
theorem Reaches.preserves
    {property : State → Prop}
    (preserved : ∀ label state next, step label state = some next →
      property state → property next)
    {start final : State}
    (reaches : Reaches step start final)
    (holds : property start) :
    property final := by
  obtain ⟨labels, follows⟩ := reaches
  induction labels generalizing start with
  | nil =>
      cases follows
      exact holds
  | cons label rest inductionHypothesis =>
      obtain ⟨next, taken, follows⟩ := Option.bind_eq_some_iff.1 follows
      exact inductionHypothesis (preserved label start next taken holds)
        follows

/-- Nothing follows a stuck state. -/
theorem follow_of_stuck
    {state final : State} {labels : List Label}
    (stuck : Stuck step state)
    (follows : follow step labels state = some final) :
    labels = [] ∧ final = state := by
  cases labels with
  | nil =>
      cases follows
      exact ⟨rfl, rfl⟩
  | cons label rest =>
      rw [follow, stuck label] at follows
      cases follows

section Confluence

variable (commutes : Commutes step)

include commutes

/-- A step that a run does not contain can be taken after it. -/
theorem follow_past_step
    {label : Label} {labels : List Label} {start next final : State}
    (absent : label ∉ labels)
    (taken : step label start = some next)
    (follows : follow step labels start = some final) :
    ∃ last, step label final = some last ∧
      follow step labels next = some last := by
  induction labels generalizing start next with
  | nil =>
      cases follows
      exact ⟨next, taken, rfl⟩
  | cons other rest inductionHypothesis =>
      obtain ⟨middle, otherTaken, follows⟩ :=
        Option.bind_eq_some_iff.1 follows
      have different : label ≠ other := fun same =>
        absent (same ▸ List.mem_cons_self)
      obtain ⟨corner, afterLabel, afterOther⟩ :=
        commutes different taken otherTaken
      obtain ⟨last, lastTaken, restFollows⟩ := inductionHypothesis
        (fun member => absent (List.mem_cons_of_mem _ member))
        afterOther follows
      exact ⟨last, lastTaken,
        (follow_cons_of_step afterLabel rest).trans restFollows⟩

variable [DecidableEq Label]

/-- A step that a run contains can be taken first. -/
theorem follow_erase_step
    {label : Label} {labels : List Label} {start next final : State}
    (present : label ∈ labels)
    (taken : step label start = some next)
    (follows : follow step labels start = some final) :
    follow step (labels.erase label) next = some final := by
  induction labels generalizing start next with
  | nil => cases present
  | cons other rest inductionHypothesis =>
      obtain ⟨middle, otherTaken, follows⟩ :=
        Option.bind_eq_some_iff.1 follows
      by_cases same : other = label
      · subst same
        cases otherTaken.symm.trans taken
        rwa [List.erase_cons_head]
      · obtain ⟨corner, afterLabel, afterOther⟩ :=
          commutes (Ne.symm same) taken otherTaken
        have inRest : label ∈ rest :=
          (List.mem_cons.1 present).resolve_left (Ne.symm same)
        rw [List.erase_cons_tail (by simpa using same),
          follow_cons_of_step afterLabel]
        exact inductionHypothesis inRest afterOther follows

/-- Two runs meet again after the steps that each has less than the other. -/
theorem follow_join
    {left right : List Label} {start leftFinal rightFinal : State}
    (leftFollows : follow step left start = some leftFinal)
    (rightFollows : follow step right start = some rightFinal) :
    ∃ last,
      follow step (right.diff left) leftFinal = some last ∧
      follow step (left.diff right) rightFinal = some last := by
  induction left generalizing right start rightFinal with
  | nil =>
      cases leftFollows
      refine ⟨rightFinal, by simpa using rightFollows, ?_⟩
      rw [List.nil_diff]
      rfl
  | cons label rest inductionHypothesis =>
      obtain ⟨next, taken, leftFollows⟩ :=
        Option.bind_eq_some_iff.1 leftFollows
      by_cases present : label ∈ right
      · obtain ⟨last, leftRest, rightRest⟩ := inductionHypothesis leftFollows
          (follow_erase_step commutes present taken rightFollows)
        rw [List.diff_cons, List.cons_diff_of_mem present]
        exact ⟨last, leftRest, rightRest⟩
      · obtain ⟨corner, labelTaken, rightShifted⟩ :=
          follow_past_step commutes present taken rightFollows
        obtain ⟨last, leftRest, rightRest⟩ :=
          inductionHypothesis leftFollows rightShifted
        rw [List.diff_cons, List.erase_of_not_mem present,
          List.cons_diff_of_not_mem present]
        exact ⟨last, leftRest,
          (follow_cons_of_step labelTaken _).trans rightRest⟩

variable {start final : State} {canonical : List Label}
variable (ends : follow step canonical start = some final)

include ends

/-- If one run gets stuck, every run can be continued to the same state. -/
theorem reaches_final
    (stuck : Stuck step final)
    {state : State}
    (reaches : Reaches step start state) :
    Reaches step state final := by
  obtain ⟨labels, follows⟩ := reaches
  obtain ⟨last, fromFinal, fromState⟩ := follow_join commutes ends follows
  obtain ⟨-, rfl⟩ := follow_of_stuck stuck fromFinal
  exact ⟨_, fromState⟩

/-- If one run gets stuck, no run takes more steps. -/
theorem length_le_of_stuck
    (stuck : Stuck step final)
    {labels : List Label} {state : State}
    (follows : follow step labels start = some state) :
    labels.length ≤ canonical.length := by
  obtain ⟨last, fromFinal, -⟩ := follow_join commutes ends follows
  obtain ⟨nothing, -⟩ := follow_of_stuck stuck fromFinal
  have counts : ∀ label, labels.count label ≤ canonical.count label := by
    intro label
    have counted := List.count_diff label labels canonical
    rw [nothing, List.count_nil] at counted
    omega
  exact (List.subperm_iff_count.2 counts).length_le

/-- If one run gets stuck, that is where every stuck run ends. -/
theorem eq_final_of_stuck
    (stuck : Stuck step final)
    {state : State}
    (reaches : Reaches step start state)
    (stateStuck : Stuck step state) :
    state = final := by
  obtain ⟨labels, follows⟩ := reaches_final commutes ends stuck reaches
  exact (follow_of_stuck stateStuck follows).2.symm

/--
A run passes through a state in which a single label has a step, or it is
still on the way there: then it can be continued to that state; otherwise it
meets a run from there without another step of that label.
-/
theorem reaches_bottleneck
    {label : Label}
    (others : ∀ other, other ≠ label → step other final = none)
    {state : State}
    (reaches : Reaches step start state) :
    Reaches step state final ∨
      ∃ labels last, label ∉ labels ∧
        follow step labels state = some last ∧
        Reaches step final last := by
  obtain ⟨labels, follows⟩ := reaches
  obtain ⟨last, fromFinal, fromState⟩ := follow_join commutes ends follows
  cases more : labels.diff canonical with
  | nil =>
      rw [more] at fromFinal
      cases fromFinal
      exact Or.inl ⟨_, fromState⟩
  | cons first rest =>
      right
      refine ⟨canonical.diff labels, last, ?_, fromState, _, fromFinal⟩
      have isLabel : first = label := by
        by_contra different
        rw [more, follow, others first different] at fromFinal
        cases fromFinal
      have surplus : 0 < (labels.diff canonical).count label := by
        rw [more, isLabel, List.count_cons_self]
        omega
      rw [List.count_diff] at surplus
      intro member
      have deficit := List.count_pos_iff.2 member
      rw [List.count_diff] at deficit
      omega

end Confluence

end DropFile.General.CommutingSteps
