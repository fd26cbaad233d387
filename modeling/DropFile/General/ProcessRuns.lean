import DropFile.General.Processes

/-!
# Runs of processes

How the run of a composed process splits, and which part of its surroundings a
process can touch.  A process that is confined to some peers and to some states
leaves the traffic with everybody else alone, and a run of it does not depend
on what was exchanged before.
-/

namespace DropFile.General.ProcessRuns

open DropFile.General.FuelledProgram
open DropFile.General.Processes
open DropFile.General.Processes.Process

variable {Peer ε σ α β : Type}

/-! ## Confined processes -/

/--
The process exchanges bytes with these peers only, and it does not leave these
states.
-/
def Confined (peers : Peer → Prop) (states : σ → Prop) :
    Process Peer ε σ α → Prop
  | .done _ => True
  | .failed _ => True
  | .outOfFuel => True
  | .update change next =>
      ∀ state, states state →
        states (change state) ∧ Confined peers states (next state)
  | .put peer _ next lost =>
      peers peer ∧ Confined peers states next ∧ Confined peers states lost
  | .get peer next lost =>
      peers peer ∧ (∀ byte, Confined peers states (next byte)) ∧
        Confined peers states lost

namespace Confined

variable {peers : Peer → Prop} {states : σ → Prop}

theorem bind
    {process : Process Peer ε σ α} {next : α → Process Peer ε σ β}
    (first : Confined peers states process)
    (second : ∀ value, Confined peers states (next value)) :
    Confined peers states (process >>= next) := by
  induction process with
  | done value => exact second value
  | failed error => trivial
  | outOfFuel => trivial
  | update change rest inductionHypothesis =>
      intro state isState
      exact ⟨(first state isState).1,
        inductionHypothesis state (first state isState).2⟩
  | put peer byte rest lost restHypothesis lostHypothesis =>
      exact ⟨first.1, restHypothesis first.2.1, lostHypothesis first.2.2⟩
  | get peer rest lost restHypothesis lostHypothesis =>
      exact ⟨first.1, fun byte => restHypothesis byte (first.2.1 byte),
        lostHypothesis first.2.2⟩

theorem handle
    {process : Process Peer ε σ α} {catcher : ε → Process Peer ε σ α}
    (confined : Confined peers states process)
    (catches : ∀ error, Confined peers states (catcher error)) :
    Confined peers states (process.handle catcher) := by
  induction process with
  | done value => trivial
  | failed error => exact catches error
  | outOfFuel => trivial
  | update change rest inductionHypothesis =>
      intro state isState
      exact ⟨(confined state isState).1,
        inductionHypothesis state (confined state isState).2⟩
  | put peer byte rest lost restHypothesis lostHypothesis =>
      exact ⟨confined.1, restHypothesis confined.2.1,
        lostHypothesis confined.2.2⟩
  | get peer rest lost restHypothesis lostHypothesis =>
      exact ⟨confined.1,
        fun byte => restHypothesis byte (confined.2.1 byte),
        lostHypothesis confined.2.2⟩

theorem loop
    {body : Nat → β → Process Peer ε σ (β ⊕ α)}
    (pass : ∀ fuel current, Confined peers states (body fuel current))
    (fuel : Nat) (current : β) :
    Confined peers states (Process.loop body fuel current) := by
  induction fuel generalizing current with
  | zero => trivial
  | succ fuel inductionHypothesis =>
      apply (pass fuel current).bind
      rintro (next | result)
      · exact inductionHypothesis next
      · trivial

theorem ofExcept_bind
    {result : Except ε α} {next : α → Process Peer ε σ β}
    (succeeds : ∀ value, result = .ok value →
      Confined peers states (next value)) :
    Confined peers states (Process.ofExcept result >>= next) := by
  cases result with
  | ok value => exact succeeds value rfl
  | error error => trivial

/-- A program whose results are known for all of the states. -/
theorem ofProgram_bind
    {program : Program ε σ α} {next : α → Process Peer ε σ β}
    (returns : ∀ state value later, states state →
      program state = .returned value later →
      states later ∧ Confined peers states (next value))
    (throws : ∀ state error later, states state →
      program state = .threw error later → states later) :
    Confined peers states (Process.ofProgram program >>= next) := by
  intro state isState
  cases outcome : program state with
  | returned value later =>
      simp only [outcome]
      exact returns state value later isState outcome
  | threw error later =>
      simp only [outcome]
      exact ⟨throws state error later isState outcome, trivial⟩
  | outOfFuel =>
      simp only [outcome]
      exact ⟨isState, trivial⟩

end Confined

section Becoming

variable [DecidableEq Peer]
variable {process later : Process Peer ε σ α}
variable {moment last : Local Peer σ}

/-- One step keeps a process confined and leaves the others alone. -/
theorem Confined.of_moves
    {peers : Peer → Prop} {states : σ → Prop} {state final : σ}
    {inputs outputs : Traffic Peer}
    (confined : Confined peers states process)
    (isState : states state)
    (moves : Moves process state later final inputs outputs) :
    states final ∧ Confined peers states later ∧
      ∀ peer, ¬ peers peer → inputs peer = [] ∧ outputs peer = [] := by
  cases moves with
  | update change next =>
      exact ⟨(confined state isState).1, (confined state isState).2,
        fun _ _ => ⟨rfl, rfl⟩⟩
  | put peer byte next lost =>
      refine ⟨isState, confined.2.1, ?_⟩
      intro other outside
      have different : other ≠ peer := by
        rintro rfl
        exact outside confined.1
      exact ⟨rfl, only_other different _⟩
  | get peer next lost byte =>
      refine ⟨isState, confined.2.1 byte, ?_⟩
      intro other outside
      have different : other ≠ peer := by
        rintro rfl
        exact outside confined.1
      exact ⟨only_other different _, rfl⟩

/-- The traffic with a peer is the same at two moments. -/
def SameTraffic (peer : Peer) (moment last : Local Peer σ) : Prop :=
  last.received peer = moment.received peer ∧
    last.sent peer = moment.sent peer

/-- A confined process leaves the others alone. -/
theorem Confined.of_becomes
    {peers : Peer → Prop} {states : σ → Prop}
    (confined : Confined peers states process)
    (isState : states moment.state)
    (becomes : Becomes process moment later last) :
    states last.state ∧ Confined peers states later ∧
      ∀ peer, ¬ peers peer → SameTraffic peer moment last := by
  induction becomes with
  | here => exact ⟨isState, confined, fun _ _ => ⟨rfl, rfl⟩⟩
  | moves _ moves inductionHypothesis =>
      rcases inductionHypothesis with ⟨isBetween, still, same⟩
      rcases still.of_moves isBetween moves with
        ⟨isLast, stillConfined, nothing⟩
      refine ⟨isLast, stillConfined, ?_⟩
      intro peer outside
      have silent := nothing peer outside
      constructor
      · simp [silent.1, (same peer outside).1]
      · simp [silent.2, (same peer outside).2]
  | loses _ loses inductionHypothesis =>
      rcases inductionHypothesis with ⟨isBetween, still, same⟩
      refine ⟨isBetween, ?_, same⟩
      cases loses with
      | put => exact still.2.2
      | get => exact still.2.2

/-! ## First steps -/

theorem becomes_of_done
    {value : α}
    (becomes : Becomes (done value) moment later last) :
    later = done value ∧ last = moment := by
  induction becomes with
  | here => exact ⟨rfl, rfl⟩
  | moves _ moves inductionHypothesis =>
      rw [inductionHypothesis.1] at moves
      cases moves
  | loses _ loses inductionHypothesis =>
      rw [inductionHypothesis.1] at loses
      cases loses

theorem becomes_of_update
    {change : σ → σ} {next : σ → Process Peer ε σ α}
    (becomes : Becomes (update change next) moment later last) :
    (later = update change next ∧ last = moment) ∨
      Becomes (next moment.state) (moment.change change) later last := by
  induction becomes with
  | here => exact Or.inl ⟨rfl, rfl⟩
  | moves _ moves inductionHypothesis =>
      rcases inductionHypothesis with ⟨rfl, rfl⟩ | onward
      · cases moves
        right
        rw [followedBy_silence, followedBy_silence]
        exact .here
      · exact Or.inr (onward.moves moves)
  | loses _ loses inductionHypothesis =>
      rcases inductionHypothesis with ⟨rfl, rfl⟩ | onward
      · cases loses
      · exact Or.inr (onward.loses loses)

/-- Waiting for a byte ends with the byte or without the connection. -/
theorem becomes_of_get
    {peer : Peer} {next : UInt8 → Process Peer ε σ α}
    {lost : Process Peer ε σ α}
    (becomes : Becomes (get peer next lost) moment later last) :
    (later = get peer next lost ∧ last = moment) ∨
      (∃ byte,
        Becomes (next byte) (moment.receives peer [byte]) later last) ∨
      Becomes lost moment later last := by
  induction becomes with
  | here => exact Or.inl ⟨rfl, rfl⟩
  | moves _ moves inductionHypothesis =>
      rcases inductionHypothesis with ⟨rfl, rfl⟩ | ⟨byte, onward⟩ | onward
      · cases moves with
        | get _ _ _ byte =>
            refine Or.inr (Or.inl ⟨byte, ?_⟩)
            rw [followedBy_silence]
            exact .here
      · exact Or.inr (Or.inl ⟨byte, onward.moves moves⟩)
      · exact Or.inr (Or.inr (onward.moves moves))
  | loses _ loses inductionHypothesis =>
      rcases inductionHypothesis with ⟨rfl, rfl⟩ | ⟨byte, onward⟩ | onward
      · cases loses
        exact Or.inr (Or.inr .here)
      · exact Or.inr (Or.inl ⟨byte, onward.loses loses⟩)
      · exact Or.inr (Or.inr (onward.loses loses))

/-! ## Composed processes -/

omit [DecidableEq Peer] in
theorem bind_pure (process : Process Peer ε σ α) :
    process >>= Pure.pure = process := by
  induction process with
  | done value => rfl
  | failed error => rfl
  | outOfFuel => rfl
  | update change rest inductionHypothesis =>
      exact congrArg (update change) (funext inductionHypothesis)
  | put peer byte rest lost restHypothesis lostHypothesis =>
      exact congrArg₂ (put peer byte) restHypothesis lostHypothesis
  | get peer rest lost restHypothesis lostHypothesis =>
      exact congrArg₂ (get peer) (funext restHypothesis) lostHypothesis

/-- A process is still at its first part, or it has gone on. -/
theorem becomes_of_bind
    {next : α → Process Peer ε σ β} {later : Process Peer ε σ β}
    (becomes : Becomes (process >>= next) moment later last) :
    (∃ rest, later = rest >>= next ∧ Becomes process moment rest last) ∨
      ∃ value between, Becomes process moment (.done value) between ∧
        Becomes (next value) between later last := by
  induction becomes with
  | here => exact Or.inl ⟨process, rfl, .here⟩
  | moves _ moves inductionHypothesis =>
      rcases inductionHypothesis with
        ⟨rest, rfl, first⟩ | ⟨value, between, first, second⟩
      · cases rest with
        | done value =>
            exact Or.inr ⟨value, _, first, .moves .here moves⟩
        | failed error => cases moves
        | outOfFuel => cases moves
        | update change rest =>
            cases moves
            exact Or.inl ⟨_, rfl, first.moves (.update change rest _)⟩
        | put peer byte rest lost =>
            cases moves
            exact Or.inl ⟨_, rfl, first.moves (.put peer byte rest lost _)⟩
        | get peer rest lost =>
            cases moves with
            | get _ _ _ byte =>
                exact Or.inl ⟨_, rfl,
                  first.moves (.get peer rest lost byte _)⟩
      · exact Or.inr ⟨value, between, first, second.moves moves⟩
  | loses _ loses inductionHypothesis =>
      rcases inductionHypothesis with
        ⟨rest, rfl, first⟩ | ⟨value, between, first, second⟩
      · cases rest with
        | done value => exact Or.inr ⟨value, _, first, .loses .here loses⟩
        | failed error => cases loses
        | outOfFuel => cases loses
        | update change rest => cases loses
        | put peer byte rest lost =>
            cases loses
            exact Or.inl ⟨_, rfl, first.loses (.put peer byte rest lost)⟩
        | get peer rest lost =>
            cases loses
            exact Or.inl ⟨_, rfl, first.loses (.get peer rest lost)⟩
      · exact Or.inr ⟨value, between, first, second.loses loses⟩

/-- What was exchanged before does not matter to a process. -/
theorem becomes_after
    {state : σ} {received sent : Traffic Peer}
    (becomes : Becomes process ⟨state, received, sent⟩ later last) :
    ∃ inputs outputs,
      last.received = received.followedBy inputs ∧
      last.sent = sent.followedBy outputs ∧
      ∀ otherReceived otherSent,
        Becomes process ⟨state, otherReceived, otherSent⟩ later
          ⟨last.state, otherReceived.followedBy inputs,
            otherSent.followedBy outputs⟩ := by
  induction becomes with
  | here =>
      refine ⟨silence, silence, (followedBy_silence _).symm,
        (followedBy_silence _).symm, ?_⟩
      intro otherReceived otherSent
      rw [followedBy_silence, followedBy_silence]
      exact .here
  | @moves _ _ _ _ newInputs newOutputs _ moves inductionHypothesis =>
      rcases inductionHypothesis with
        ⟨inputs, outputs, received, sent, elsewhere⟩
      refine ⟨inputs.followedBy newInputs, outputs.followedBy newOutputs,
        ?_, ?_, ?_⟩
      · rw [received, followedBy_assoc]
      · rw [sent, followedBy_assoc]
      · intro otherReceived otherSent
        rw [← followedBy_assoc, ← followedBy_assoc]
        exact (elsewhere otherReceived otherSent).moves moves
  | loses _ loses inductionHypothesis =>
      rcases inductionHypothesis with
        ⟨inputs, outputs, received, sent, elsewhere⟩
      exact ⟨inputs, outputs, received, sent,
        fun otherReceived otherSent =>
          (elsewhere otherReceived otherSent).loses loses⟩

/-- What holds wherever a process gets to is ensured by it. -/
theorem ensures_of_forall_becomes
    {always : Local Peer σ → Prop}
    (holds : ∀ later last, Becomes process moment later last →
      always last) :
    Ensures (fun _ => True) always (fun _ _ => True) (fun _ _ => True)
      process moment := by
  have now := holds process moment .here
  induction process generalizing moment with
  | done value => exact fun _ => ⟨now, trivial⟩
  | failed error => exact fun _ => ⟨now, trivial⟩
  | outOfFuel => exact fun _ => now
  | update change next inductionHypothesis =>
      intro _
      have first := Becomes.moves (.here : Becomes _ moment _ _)
        (.update change next moment.state)
      rw [followedBy_silence, followedBy_silence] at first
      have onward : ∀ later last,
          Becomes (next moment.state) (moment.change change) later last →
            always last :=
        fun later last becomes => holds later last (first.trans becomes)
      exact ⟨now, inductionHypothesis _ onward (onward _ _ .here)⟩
  | put peer byte next lost nextHypothesis lostHypothesis =>
      intro _
      have first := Becomes.moves (.here : Becomes _ moment _ _)
        (.put peer byte next lost moment.state)
      rw [followedBy_silence] at first
      have onward : ∀ later last,
          Becomes next (moment.sends peer [byte]) later last →
            always last :=
        fun later last becomes => holds later last (first.trans becomes)
      have without : ∀ later last, Becomes lost moment later last →
          always last :=
        fun later last becomes => holds later last
          ((Becomes.loses .here (.put peer byte next lost)).trans becomes)
      exact ⟨now, nextHypothesis onward (onward _ _ .here),
        lostHypothesis without now⟩
  | get peer next lost nextHypothesis lostHypothesis =>
      intro _
      have without : ∀ later last, Becomes lost moment later last →
          always last :=
        fun later last becomes => holds later last
          ((Becomes.loses .here (.get peer next lost)).trans becomes)
      refine ⟨now, ?_, lostHypothesis without now⟩
      intro byte
      have first := Becomes.moves (.here : Becomes _ moment _ _)
        (.get peer next lost byte moment.state)
      rw [followedBy_silence] at first
      have onward : ∀ later last,
          Becomes (next byte) (moment.receives peer [byte]) later last →
            always last :=
        fun later last becomes => holds later last (first.trans becomes)
      exact nextHypothesis byte onward (onward _ _ .here)

end Becoming

end DropFile.General.ProcessRuns
