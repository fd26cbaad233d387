import DropFile.Client.DropFileSendClient
import Mathlib.Data.List.Nodup

/-!
# `RAIIFSEntry`

The entries of a program in the order in which it constructs, moves, assigns
and destroys them.  What moving leaves in the path that it took is not
specified, and so it is a parameter.  A removal is recorded as the argument of
`remove_all`, and the paths of entries are taken as neither nested nor aliases
of each other.
-/

namespace DropFile.Client.RAIIFSEntry

open DropFile.General.PathNames
open DropFile.Streams
open DropFile.Client.DropFileSendClient (RAIIFSEntry)

/-- What is done to entries; they are named by numbers. -/
inductive Operation where
  | construct (entry : Nat) (path : PathName) (shouldRemove : Bool)
  | moveConstruct (entry other : Nat)
  | moveAssign (entry other : Nat)
  | destroy (entry : Nat)

/-- The entries that are alive, and the arguments of `remove_all` so far. -/
structure Program where
  entries : Nat → Option RAIIFSEntry
  removed : List PathName

namespace Program

def start : Program :=
  ⟨fun _ => none, []⟩

/--
The bodies of both move operations: the members of `other` are taken over,
and then its flag is cleared.  In an assignment of an entry to itself the
second of these writes is the last one.
-/
def take (moved : PathName → PathName) (entry other : Nat)
    (source : RAIIFSEntry) (program : Program) : Program :=
  let taken :=
    Function.update program.entries entry
      (some ⟨source.path, source.shouldRemove⟩)
  { program with
    entries := Function.update taken other (some ⟨moved source.path, false⟩) }

/-- One operation, unless it is about an entry that is not there. -/
def step (moved : PathName → PathName) (program : Program) :
    Operation → Option Program
  | .construct entry path shouldRemove =>
      match program.entries entry with
      | some _ => none
      | none =>
          some { program with
            entries := Function.update program.entries entry
              (some ⟨path, shouldRemove⟩) }
  | .moveConstruct entry other =>
      match program.entries entry, program.entries other with
      | none, some source => some (program.take moved entry other source)
      | _, _ => none
  | .moveAssign entry other =>
      match program.entries entry, program.entries other with
      | some _, some source => some (program.take moved entry other source)
      | _, _ => none
  | .destroy entry =>
      match program.entries entry with
      | none => none
      | some dead =>
          some
            { entries := Function.update program.entries entry none
              removed :=
                if dead.shouldRemove then program.removed ++ [dead.path]
                else program.removed }

def run (moved : PathName → PathName) :
    List Operation → Program → Option Program
  | [], program => some program
  | operation :: rest, program =>
      (program.step moved operation).bind (run moved rest)

/-- The entry is alive and will remove the path. -/
def Owns (program : Program) (entry : Nat) (path : PathName) : Prop :=
  program.entries entry = some ⟨path, true⟩

end Program

/-- The paths that constructors were called with. -/
def named (operations : List Operation) : List PathName :=
  operations.filterMap fun
    | .construct _ path _ => some path
    | _ => none

/-- The paths that were handed over with `should_remove = true`. -/
def handedOver (operations : List Operation) : List PathName :=
  operations.filterMap fun
    | .construct _ path true => some path
    | _ => none

/-- What the type is for, over a whole program. -/
structure RemovesOnce (moved : PathName → PathName)
    (operations : List Operation) (final : Program) : Prop where
  /-- Nothing that was handed over is leaked or removed a second time. -/
  once : ∀ path ∈ handedOver operations, final.removed.count path = 1
  /-- Nothing else is removed. -/
  others : ∀ path, path ∉ handedOver operations → path ∉ final.removed
  /-- Nothing is removed while an entry owns it. -/
  ownersGone : ∀ earlier later program,
    operations = earlier ++ later →
      Program.start.run moved earlier = some program →
        ∀ path ∈ program.removed, ∀ entry, ¬ program.Owns entry path

/-- No assignment is made to an entry that still owns a path. -/
def SparesOwners (moved : PathName → PathName)
    (operations : List Operation) : Prop :=
  ∀ earlier entry other later program path,
    operations = earlier ++ .moveAssign entry other :: later →
      Program.start.run moved earlier = some program →
        ¬ program.Owns entry path

/-! ## Single operations -/

namespace Program

variable {moved : PathName → PathName} {program later : Program}

theorem run_append
    (first second : List Operation) (program : Program) :
    program.run moved (first ++ second) =
      (program.run moved first).bind (run moved second) := by
  induction first generalizing program with
  | nil => rfl
  | cons operation rest inductionHypothesis =>
      show (program.step moved operation).bind _ =
        ((program.step moved operation).bind _).bind _
      rw [Option.bind_assoc]
      apply congrArg
      funext between
      exact inductionHypothesis between

/-- What an operation can do. -/
theorem step_cases
    {operation : Operation}
    (steps : program.step moved operation = some later) :
    (∃ entry path shouldRemove,
      operation = .construct entry path shouldRemove ∧
        program.entries entry = none ∧
        later = { program with
          entries := Function.update program.entries entry
            (some ⟨path, shouldRemove⟩) }) ∨
    (∃ entry other source,
      ((operation = .moveConstruct entry other ∧
          program.entries entry = none) ∨
        operation = .moveAssign entry other) ∧
        program.entries other = some source ∧
        later = program.take moved entry other source) ∨
    (∃ entry dead,
      operation = .destroy entry ∧ program.entries entry = some dead ∧
        later =
          { entries := Function.update program.entries entry none
            removed :=
              if dead.shouldRemove then program.removed ++ [dead.path]
              else program.removed }) := by
  cases operation with
  | construct entry path shouldRemove =>
      left
      rw [step] at steps
      split at steps
      · cases steps
      · rename_i absent
        exact ⟨entry, path, shouldRemove, rfl, absent,
          (Option.some.inj steps).symm⟩
  | moveConstruct entry other =>
      right
      left
      rw [step] at steps
      split at steps
      · rename_i source absent isSource
        exact ⟨entry, other, source, Or.inl ⟨rfl, absent⟩, isSource,
          (Option.some.inj steps).symm⟩
      · cases steps
  | moveAssign entry other =>
      right
      left
      rw [step] at steps
      split at steps
      · rename_i target source _ isSource
        exact ⟨entry, other, source, Or.inr rfl, isSource,
          (Option.some.inj steps).symm⟩
      · cases steps
  | destroy entry =>
      right
      right
      rw [step] at steps
      split at steps
      · cases steps
      · rename_i dead alive
        exact ⟨entry, dead, rfl, alive, (Option.some.inj steps).symm⟩

theorem owns_update_some
    {entry owner : Nat} {path named : PathName} {shouldRemove : Bool}
    {removed : List PathName} :
    Owns
        { entries := Function.update program.entries entry
            (some ⟨named, shouldRemove⟩)
          removed := removed } owner path ↔
      (owner = entry ∧ named = path ∧ shouldRemove = true) ∨
        (owner ≠ entry ∧ program.Owns owner path) := by
  by_cases same : owner = entry
  · subst same
    simp [Owns]
  · simp [Owns, same]

theorem owns_update_none
    {entry owner : Nat} {path : PathName} {removed : List PathName} :
    Owns
        { entries := Function.update program.entries entry none
          removed := removed } owner path ↔
      owner ≠ entry ∧ program.Owns owner path := by
  by_cases same : owner = entry
  · subst same
    simp [Owns]
  · simp [Owns, same]

/-- Moving leaves one owner, which is not the one before. -/
theorem owns_take
    {entry other owner : Nat} {source : RAIIFSEntry} {path : PathName}
    (isSource : program.entries other = some source) :
    (program.take moved entry other source).Owns owner path ↔
      owner ≠ other ∧
        ((owner = entry ∧ program.Owns other path) ∨
          (owner ≠ entry ∧ program.Owns owner path)) := by
  by_cases isOther : owner = other
  · subst isOther
    simp [Owns, take]
  · by_cases isEntry : owner = entry
    · subst isEntry
      cases source
      simp [Owns, take, isOther, isSource]
    · simp [Owns, take, isOther, isEntry]

/-- What every operation keeps holds after all of them. -/
theorem run_keeps
    (holds : List Operation → Program → Prop)
    {all past operations : List Operation}
    (keeps : ∀ past operation program later,
      past ++ [operation] <+: all →
      holds past program →
      program.step moved operation = some later →
      holds (past ++ [operation]) later)
    (begins : holds past program)
    (whole : past ++ operations <+: all)
    (runs : program.run moved operations = some later) :
    holds (past ++ operations) later := by
  induction operations generalizing past program with
  | nil =>
      cases runs
      rw [List.append_nil]
      exact begins
  | cons operation rest inductionHypothesis =>
      rw [List.append_cons] at whole ⊢
      rcases Option.bind_eq_some_iff.1 runs with ⟨between, steps, runsOn⟩
      have isEarlier : past ++ [operation] <+: all :=
        (List.prefix_append _ rest).trans whole
      have now := keeps past operation program between isEarlier begins steps
      exact inductionHypothesis now whole runsOn

end Program

/-! ## Whole programs -/

variable {moved : PathName → PathName} {program later : Program}
variable {past operations : List Operation}

@[simp]
theorem named_append (first second : List Operation) :
    named (first ++ second) = named first ++ named second :=
  List.filterMap_append

/-- No path is named twice before. -/
theorem named_nodup_earlier
    {earlier : List Operation}
    (isEarlier : earlier <+: operations)
    (distinct : (named operations).Nodup) :
    (named earlier).Nodup := by
  rcases isEarlier with ⟨rest, rfl⟩
  rw [named_append] at distinct
  exact (List.nodup_append.1 distinct).1

@[simp]
theorem handedOver_append (first second : List Operation) :
    handedOver (first ++ second) = handedOver first ++ handedOver second :=
  List.filterMap_append

theorem handedOver_subset_named
    {path : PathName}
    (handed : path ∈ handedOver operations) :
    path ∈ named operations := by
  rcases List.mem_filterMap.1 handed with ⟨operation, member, isPath⟩
  apply List.mem_filterMap.2
  refine ⟨operation, member, ?_⟩
  cases operation with
  | construct entry named shouldRemove =>
      cases shouldRemove with
      | true => exact isPath
      | false => cases isPath
  | moveConstruct entry other => cases isPath
  | moveAssign entry other => cases isPath
  | destroy entry => cases isPath

/-- Who owns what, and what was removed, after some operations. -/
structure Accounted (past : List Operation) (program : Program) : Prop where
  oneOwner : ∀ first second path,
    program.Owns first path → program.Owns second path → first = second
  owned : ∀ entry path, program.Owns entry path → path ∈ handedOver past
  removed : ∀ path ∈ program.removed, path ∈ handedOver past
  ownersGone : ∀ path ∈ program.removed, ∀ entry,
    ¬ program.Owns entry path
  removedOnce : program.removed.Nodup

theorem Accounted.start : Accounted [] .start := by
  constructor
  · intro first second path owns
    cases owns
  · intro entry path owns
    cases owns
  · intro path member
    cases member
  · intro path member
    cases member
  · exact List.nodup_nil

theorem Accounted.construct
    {entry : Nat} {path : PathName} {shouldRemove : Bool}
    (accounted : Accounted past program)
    (fresh : path ∉ named past) :
    Accounted (past ++ [.construct entry path shouldRemove])
      { program with
        entries := Function.update program.entries entry
          (some ⟨path, shouldRemove⟩) } := by
  have notHanded : path ∉ handedOver past :=
    fun handed => fresh (handedOver_subset_named handed)
  constructor
  · intro first second other ownsFirst ownsSecond
    rcases Program.owns_update_some.1 ownsFirst with
      ⟨rfl, rfl, -⟩ | ⟨-, ownedFirst⟩
    · rcases Program.owns_update_some.1 ownsSecond with
        ⟨rfl, -, -⟩ | ⟨-, ownedSecond⟩
      · rfl
      · exact absurd (accounted.owned _ _ ownedSecond) notHanded
    · rcases Program.owns_update_some.1 ownsSecond with
        ⟨rfl, rfl, -⟩ | ⟨-, ownedSecond⟩
      · exact absurd (accounted.owned _ _ ownedFirst) notHanded
      · exact accounted.oneOwner _ _ _ ownedFirst ownedSecond
  · intro owner other owns
    rw [handedOver_append, List.mem_append]
    rcases Program.owns_update_some.1 owns with
      ⟨-, rfl, rfl⟩ | ⟨-, owned⟩
    · exact Or.inr List.mem_cons_self
    · exact Or.inl (accounted.owned _ _ owned)
  · intro other member
    rw [handedOver_append, List.mem_append]
    exact Or.inl (accounted.removed other member)
  · intro other member owner owns
    rcases Program.owns_update_some.1 owns with
      ⟨-, rfl, -⟩ | ⟨-, owned⟩
    · exact notHanded (accounted.removed path member)
    · exact accounted.ownersGone other member owner owned
  · exact accounted.removedOnce

/-- Both move operations pass a path on to a single owner. -/
theorem Accounted.take
    {operation : Operation} {entry other : Nat} {source : RAIIFSEntry}
    (accounted : Accounted past program)
    (nothingHanded : handedOver [operation] = [])
    (isSource : program.entries other = some source) :
    Accounted (past ++ [operation])
      (program.take moved entry other source) := by
  have origin (owner : Nat) (path : PathName)
      (owns : (program.take moved entry other source).Owns owner path) :
      ∃ before, program.Owns before path := by
    rcases (Program.owns_take isSource).1 owns with
      ⟨-, ⟨-, owned⟩ | ⟨-, owned⟩⟩
    · exact ⟨other, owned⟩
    · exact ⟨owner, owned⟩
  have handed : handedOver (past ++ [operation]) = handedOver past := by
    rw [handedOver_append, nothingHanded, List.append_nil]
  constructor
  · intro first second path ownsFirst ownsSecond
    rcases (Program.owns_take isSource).1 ownsFirst with
      ⟨firstNot, ⟨rfl, ownedFirst⟩ | ⟨-, ownedFirst⟩⟩
    · rcases (Program.owns_take isSource).1 ownsSecond with
        ⟨secondNot, ⟨rfl, -⟩ | ⟨-, ownedSecond⟩⟩
      · rfl
      · exact absurd (accounted.oneOwner _ _ _ ownedSecond ownedFirst)
          secondNot
    · rcases (Program.owns_take isSource).1 ownsSecond with
        ⟨secondNot, ⟨rfl, ownedSecond⟩ | ⟨-, ownedSecond⟩⟩
      · exact absurd (accounted.oneOwner _ _ _ ownedFirst ownedSecond)
          firstNot
      · exact accounted.oneOwner _ _ _ ownedFirst ownedSecond
  · intro owner path owns
    rcases origin owner path owns with ⟨before, owned⟩
    rw [handed]
    exact accounted.owned _ _ owned
  · intro path member
    rw [handed]
    exact accounted.removed path member
  · intro path member owner owns
    rcases origin owner path owns with ⟨before, owned⟩
    exact accounted.ownersGone path member before owned
  · exact accounted.removedOnce

theorem Accounted.destroy
    {entry : Nat} {dead : RAIIFSEntry}
    (accounted : Accounted past program)
    (alive : program.entries entry = some dead) :
    Accounted (past ++ [.destroy entry])
      { entries := Function.update program.entries entry none
        removed :=
          if dead.shouldRemove then program.removed ++ [dead.path]
          else program.removed } := by
  have handed : handedOver (past ++ [.destroy entry]) = handedOver past := by
    rw [handedOver_append]
    exact List.append_nil _
  have ownedBefore (owner : Nat) (path : PathName)
      (owns : Program.Owns
        { entries := Function.update program.entries entry none
          removed :=
            if dead.shouldRemove then program.removed ++ [dead.path]
            else program.removed } owner path) :
      owner ≠ entry ∧ program.Owns owner path :=
    Program.owns_update_none.1 owns
  have ownsDead (removes : dead.shouldRemove = true) :
      program.Owns entry dead.path := by
    show program.entries entry = _
    rw [alive, ← removes]
  constructor
  · intro first second path ownsFirst ownsSecond
    exact accounted.oneOwner _ _ _ (ownedBefore _ _ ownsFirst).2
      (ownedBefore _ _ ownsSecond).2
  · intro owner path owns
    rw [handed]
    exact accounted.owned _ _ (ownedBefore _ _ owns).2
  · intro path member
    rw [handed]
    split at member
    · rename_i removes
      rcases List.mem_append.1 member with before | now
      · exact accounted.removed path before
      · rw [List.mem_singleton.1 now]
        exact accounted.owned _ _ (ownsDead removes)
    · exact accounted.removed path member
  · intro path member owner owns
    rcases ownedBefore owner path owns with ⟨notDead, owned⟩
    split at member
    · rename_i removes
      rcases List.mem_append.1 member with before | now
      · exact accounted.ownersGone path before owner owned
      · rw [List.mem_singleton.1 now] at owned
        exact notDead
          (accounted.oneOwner _ _ _ owned (ownsDead removes))
    · exact accounted.ownersGone path member owner owned
  · split
    · rename_i removes
      apply List.nodup_append.2
      refine ⟨accounted.removedOnce, List.nodup_singleton _, ?_⟩
      intro path before other now same
      rw [same, List.mem_singleton.1 now] at before
      exact accounted.ownersGone _ before _ (ownsDead removes)
    · exact accounted.removedOnce

theorem Accounted.step
    {operation : Operation}
    (accounted : Accounted past program)
    (distinct : (named (past ++ [operation])).Nodup)
    (steps : program.step moved operation = some later) :
    Accounted (past ++ [operation]) later := by
  rcases Program.step_cases steps with
    ⟨entry, path, shouldRemove, rfl, -, rfl⟩ |
    ⟨entry, other, source, isMove, isSource, rfl⟩ |
    ⟨entry, dead, rfl, alive, rfl⟩
  · apply accounted.construct
    intro member
    rw [named_append] at distinct
    exact List.disjoint_of_nodup_append distinct member
      List.mem_cons_self
  · apply accounted.take _ isSource
    rcases isMove with ⟨rfl, -⟩ | rfl
    · rfl
    · rfl
  · exact accounted.destroy alive

theorem Accounted.run
    (accounted : Accounted past program)
    (distinct : (named (past ++ operations)).Nodup)
    (runs : program.run moved operations = some later) :
    Accounted (past ++ operations) later := by
  apply Program.run_keeps Accounted _ accounted List.prefix_rfl runs
  intro past operation program later isEarlier accounted steps
  exact accounted.step (named_nodup_earlier isEarlier distinct) steps

/-! ## Leaks -/

/-- The path is neither owned nor removed any more. -/
structure Leaked (path : PathName) (past : List Operation)
    (program : Program) : Prop where
  handed : path ∈ handedOver past
  notRemoved : path ∉ program.removed
  notOwned : ∀ entry, ¬ program.Owns entry path

theorem Leaked.step
    {path : PathName} {operation : Operation}
    (leaked : Leaked path past program)
    (distinct : (named (past ++ [operation])).Nodup)
    (steps : program.step moved operation = some later) :
    Leaked path (past ++ [operation]) later := by
  have handed : path ∈ handedOver (past ++ [operation]) := by
    rw [handedOver_append]
    exact List.mem_append_left _ leaked.handed
  rcases Program.step_cases steps with
    ⟨entry, named, shouldRemove, rfl, -, rfl⟩ |
    ⟨entry, other, source, -, isSource, rfl⟩ |
    ⟨entry, dead, rfl, alive, rfl⟩
  · refine ⟨handed, leaked.notRemoved, ?_⟩
    intro owner owns
    rcases Program.owns_update_some.1 owns with
      ⟨-, rfl, -⟩ | ⟨-, owned⟩
    · rw [named_append] at distinct
      exact List.disjoint_of_nodup_append distinct
        (handedOver_subset_named leaked.handed) List.mem_cons_self
    · exact leaked.notOwned owner owned
  · refine ⟨handed, leaked.notRemoved, ?_⟩
    intro owner owns
    rcases (Program.owns_take isSource).1 owns with
      ⟨-, ⟨-, owned⟩ | ⟨-, owned⟩⟩
    · exact leaked.notOwned other owned
    · exact leaked.notOwned owner owned
  · refine ⟨handed, ?_, ?_⟩
    · intro member
      split at member
      · rename_i removes
        rcases List.mem_append.1 member with before | now
        · exact leaked.notRemoved before
        · apply leaked.notOwned entry
          show program.entries entry = _
          rw [alive, ← removes, List.mem_singleton.1 now]
      · exact leaked.notRemoved member
    · intro owner owns
      exact leaked.notOwned owner (Program.owns_update_none.1 owns).2

theorem Leaked.run
    {path : PathName}
    (leaked : Leaked path past program)
    (distinct : (named (past ++ operations)).Nodup)
    (runs : program.run moved operations = some later) :
    Leaked path (past ++ operations) later := by
  apply Program.run_keeps (Leaked path) _ leaked List.prefix_rfl runs
  intro past operation program later isEarlier leaked steps
  exact leaked.step (named_nodup_earlier isEarlier distinct) steps

/-- An assignment to an owner leaks what it owned. -/
theorem Leaked.of_moveAssign
    {path : PathName} {entry other : Nat}
    (accounted : Accounted past program)
    (owns : program.Owns entry path)
    (steps : program.step moved (.moveAssign entry other) = some later) :
    Leaked path (past ++ [.moveAssign entry other]) later := by
  rcases Program.step_cases steps with
    ⟨_, _, _, isConstruct, -⟩ |
    ⟨target, origin, source, isMove, isSource, rfl⟩ |
    ⟨_, _, isDestroy, -⟩
  · cases isConstruct
  · rcases isMove with ⟨isConstruct, -⟩ | isAssign
    · cases isConstruct
    · cases isAssign
      refine ⟨?_, ?_, ?_⟩
      · rw [handedOver_append]
        exact List.mem_append_left _ (accounted.owned _ _ owns)
      · exact fun removed => accounted.ownersGone path removed entry owns
      · intro owner ownsLater
        rcases (Program.owns_take isSource).1 ownsLater with
          ⟨notSource, ⟨rfl, owned⟩ | ⟨notTarget, owned⟩⟩
        · exact notSource (accounted.oneOwner _ _ _ owns owned)
        · exact notTarget (accounted.oneOwner _ _ _ owned owns)
  · cases isDestroy

/-- Everything that was handed over is owned or removed. -/
def NothingLeaked (past : List Operation) (program : Program) : Prop :=
  ∀ path ∈ handedOver past,
    path ∈ program.removed ∨ ∃ entry, program.Owns entry path

theorem NothingLeaked.step
    {operation : Operation}
    (kept : NothingLeaked past program)
    (spared : ∀ entry other path, operation = .moveAssign entry other →
      ¬ program.Owns entry path)
    (steps : program.step moved operation = some later) :
    NothingLeaked (past ++ [operation]) later := by
  intro path handed
  rw [handedOver_append, List.mem_append] at handed
  rcases Program.step_cases steps with
    ⟨entry, named, shouldRemove, rfl, absent, rfl⟩ |
    ⟨entry, other, source, isMove, isSource, rfl⟩ |
    ⟨entry, dead, rfl, alive, rfl⟩
  · rcases handed with before | now
    · rcases kept path before with removed | ⟨owner, owns⟩
      · exact Or.inl removed
      · right
        refine ⟨owner, Program.owns_update_some.2 (Or.inr ⟨?_, owns⟩)⟩
        rintro rfl
        rw [Program.Owns, absent] at owns
        cases owns
    · right
      cases shouldRemove with
      | true =>
          rw [List.mem_singleton.1 now]
          exact ⟨entry, Program.owns_update_some.2 (Or.inl ⟨rfl, rfl, rfl⟩)⟩
      | false => cases now
  · have before : path ∈ handedOver past := by
      rcases handed with before | now
      · exact before
      · rcases isMove with ⟨rfl, -⟩ | rfl
        · cases now
        · cases now
    have notTarget : ¬ program.Owns entry path := by
      rcases isMove with ⟨-, absent⟩ | isAssign
      · rw [Program.Owns, absent]
        exact fun owns => by cases owns
      · exact spared entry other path isAssign
    rcases kept path before with removed | ⟨owner, owns⟩
    · exact Or.inl removed
    · right
      have notEntry : owner ≠ entry := by
        rintro rfl
        exact notTarget owns
      by_cases isOther : owner = other
      · subst isOther
        exact ⟨entry, (Program.owns_take isSource).2
          ⟨notEntry.symm, Or.inl ⟨rfl, owns⟩⟩⟩
      · exact ⟨owner, (Program.owns_take isSource).2
          ⟨isOther, Or.inr ⟨notEntry, owns⟩⟩⟩
  · have before : path ∈ handedOver past := by
      rcases handed with before | now
      · exact before
      · cases now
    rcases kept path before with removed | ⟨owner, owns⟩
    · left
      show path ∈ ite _ _ _
      split
      · exact List.mem_append_left _ removed
      · exact removed
    · by_cases isDead : owner = entry
      · left
        subst isDead
        rw [Program.Owns, alive] at owns
        cases owns
        exact List.mem_append_right _ List.mem_cons_self
      · exact Or.inr ⟨owner, Program.owns_update_none.2 ⟨isDead, owns⟩⟩

theorem NothingLeaked.run
    {all : List Operation}
    (kept : NothingLeaked past program)
    (reached : Program.start.run moved past = some program)
    (spares : SparesOwners moved all)
    (whole : past ++ operations <+: all)
    (runs : program.run moved operations = some later) :
    NothingLeaked (past ++ operations) later := by
  have ends := Program.run_keeps
    (fun past program =>
      NothingLeaked past program ∧
        Program.start.run moved past = some program)
    (by
      rintro past operation program later ⟨rest, isAll⟩ ⟨kept, reached⟩
        steps
      constructor
      · apply kept.step _ steps
        rintro entry other path rfl
        rw [List.append_assoc] at isAll
        exact spares past entry other rest program path isAll.symm reached
      · rw [Program.run_append, reached]
        show (program.step moved operation).bind _ = _
        rw [steps]
        rfl)
    ⟨kept, reached⟩ whole runs
  exact ends.1

/--
For every program that names no path twice and ends with all of its entries
destroyed: each path that was handed over with `should_remove = true` is
removed exactly once, when no entry owns it any more, and no other path is
removed, if and only if no move assignment is made to an entry that still owns
a path.  Such an assignment leaks the path, also when it is from the entry
itself.
-/
theorem removesOnce_iff_sparesOwners
    {moved : PathName → PathName} {operations : List Operation}
    {final : Program}
    (runs : Program.start.run moved operations = some final)
    (distinct : (named operations).Nodup)
    (allDestroyed : ∀ entry, final.entries entry = none) :
    RemovesOnce moved operations final ↔ SparesOwners moved operations := by
  have accountedAt (earlier : List Operation) (program : Program)
      (isEarlier : earlier <+: operations)
      (reached : Program.start.run moved earlier = some program) :
      Accounted earlier program := by
    exact Accounted.start.run (named_nodup_earlier isEarlier distinct)
      reached
  constructor
  · intro removesOnce earlier entry other rest program path isAll reached
      owns
    have isEarlier : earlier <+: operations := ⟨_, isAll.symm⟩
    have accounted := accountedAt earlier program isEarlier reached
    rw [isAll, Program.run_append, reached] at runs
    have runsRest :
        (program.step moved (.moveAssign entry other)).bind
          (Program.run moved rest) = some final :=
      runs
    rcases Option.bind_eq_some_iff.1 runsRest with
      ⟨between, steps, runsOn⟩
    have leaked := Leaked.of_moveAssign accounted owns steps
    rw [isAll, List.append_cons] at distinct
    have leakedLater := leaked.run distinct runsOn
    rw [← List.append_cons, ← isAll] at leakedLater
    have once := removesOnce.once path leakedLater.handed
    rw [List.count_eq_zero.2 leakedLater.notRemoved] at once
    cases once
  · intro spares
    have accounted := accountedAt operations final List.prefix_rfl runs
    have kept : NothingLeaked [] Program.start := by
      intro path member
      cases member
    have nothingLeaked := kept.run rfl spares List.prefix_rfl runs
    constructor
    · intro path handed
      rcases nothingLeaked path handed with removed | ⟨entry, owns⟩
      · exact List.count_eq_one_of_mem accounted.removedOnce removed
      · rw [Program.Owns, allDestroyed entry] at owns
        cases owns
    · intro path notHanded removed
      exact notHanded (accounted.removed path removed)
    · intro earlier rest program isAll reached
      exact (accountedAt earlier program ⟨rest, isAll.symm⟩
        reached).ownersGone

/-! ## The send client -/

/-- `SparesOwners` from some point of a program on. -/
def SparesFrom (moved : PathName → PathName) (operations : List Operation)
    (program : Program) : Prop :=
  ∀ earlier entry other rest between path,
    operations = earlier ++ .moveAssign entry other :: rest →
      program.run moved earlier = some between →
        ¬ between.Owns entry path

theorem SparesFrom.nil : SparesFrom moved [] program := by
  intro earlier entry other rest between path isAll
  exact absurd isAll.symm (List.append_ne_nil_of_right_ne_nil _
    (List.cons_ne_nil _ _))

theorem SparesFrom.cons
    {operation : Operation} {next : Program}
    (first : ∀ entry other path, operation = .moveAssign entry other →
      ¬ program.Owns entry path)
    (steps : program.step moved operation = some next)
    (others : SparesFrom moved operations next) :
    SparesFrom moved (operation :: operations) program := by
  intro earlier entry other rest between path isAll reached
  cases earlier with
  | nil =>
      cases isAll
      cases reached
      exact first entry other path rfl
  | cons operation earlier =>
      cases isAll
      rcases Option.bind_eq_some_iff.1 reached with ⟨_, stepped, runsOn⟩
      rw [steps] at stepped
      cases stepped
      exact others earlier entry other rest between path rfl runsOn

/-- An operation that is no assignment. -/
theorem SparesFrom.other
    {operation : Operation} {next : Program}
    (noAssignment : ∀ entry other, operation ≠ .moveAssign entry other)
    (steps : program.step moved operation = some next)
    (others : SparesFrom moved operations next) :
    SparesFrom moved (operation :: operations) program :=
  .cons (fun entry other _ isAssign =>
    absurd isAssign (noAssignment entry other)) steps others

/--
What happens when a directory is sent: `dir_entry` (0) is assigned the new
entry (1) in `compressIfNecessary`; the entry is moved into the pair (2) that
`sendFSEntryMetadata` binds, into its result (3) and into the parameter of
`sendFSEntry` (4).
-/
def sendsDirectory (path newPath : PathName) : List Operation :=
  [.construct 0 path false, .construct 1 newPath true, .moveAssign 0 1,
    .destroy 1, .moveConstruct 2 0, .destroy 0, .moveConstruct 3 2,
    .destroy 2, .moveConstruct 4 3, .destroy 4, .destroy 3]

theorem sparesOwners_sendsDirectory (path newPath : PathName) :
    SparesOwners moved (sendsDirectory path newPath) := by
  have spares : SparesFrom moved (sendsDirectory path newPath) .start := by
    apply SparesFrom.other (by simp) rfl
    apply SparesFrom.other (by simp) rfl
    apply SparesFrom.cons _ rfl
    · apply SparesFrom.other (by simp) rfl
      apply SparesFrom.other (by simp) rfl
      apply SparesFrom.other (by simp) rfl
      apply SparesFrom.other (by simp) rfl
      apply SparesFrom.other (by simp) rfl
      apply SparesFrom.other (by simp) rfl
      apply SparesFrom.other (by simp) rfl
      apply SparesFrom.other (by simp) rfl
      exact .nil
    · rintro entry other owned isAssign owns
      cases isAssign
      cases owns
  intro earlier entry other rest program path isAll reached
  exact spares earlier entry other rest program path isAll reached

/-- The archive is removed and the directory itself is not. -/
theorem removesOnce_sendsDirectory :
    ∃ final,
      Program.start.run (fun _ => [])
          (sendsDirectory (ascii "music") (ascii "tmp/music")) =
        some final ∧
      RemovesOnce (fun _ => [])
        (sendsDirectory (ascii "music") (ascii "tmp/music")) final := by
  refine ⟨_, rfl, (removesOnce_iff_sparesOwners rfl (by decide) ?_).2
    (sparesOwners_sendsDirectory _ _)⟩
  intro entry
  simp only [Program.take, Program.start, Function.update_apply]
  split_ifs <;> rfl

/-- An entry that still owns a path is assigned another one. -/
def overwrites : List Operation :=
  [.construct 0 (ascii "a") true, .construct 1 (ascii "b") true,
    .moveAssign 0 1, .destroy 1, .destroy 0]

theorem overwrites_removed :
    ∃ final,
      Program.start.run (fun _ => []) overwrites = some final ∧
        (∀ entry, final.entries entry = none) ∧
        final.removed = [ascii "b"] := by
  refine ⟨_, rfl, ?_, rfl⟩
  intro entry
  simp only [Program.take, Program.start, Function.update_apply]
  split_ifs <;> rfl

/-- The path that the entry owned first is never removed. -/
theorem not_removesOnce :
    ¬ ∀ (moved : PathName → PathName) (operations : List Operation)
        (final : Program),
      Program.start.run moved operations = some final →
        (named operations).Nodup →
          (∀ entry, final.entries entry = none) →
            RemovesOnce moved operations final := by
  intro always
  rcases overwrites_removed with ⟨final, runs, allDestroyed, removed⟩
  have removes := always _ overwrites final runs (by decide) allDestroyed
  have once := removes.once (ascii "a") (by decide)
  rw [removed] at once
  exact absurd once (by decide)

end DropFile.Client.RAIIFSEntry
