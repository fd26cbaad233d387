import DropFile.General.FuelledProgram
import Mathlib.Logic.Function.Basic

/-!
# Communicating processes

A process exchanges bytes with its peers, one at a time, and changes a state
of its own.  It is the tree of everything it may do next: an exchange names
the peer, and also says how the process goes on when the connection is lost.
Loops use fuel, so that a process is always a finite tree.

`Plays` follows a process while its peers deliver what it asks for.  `Ensures`
is about every environment: whatever bytes come in and wherever a connection
is lost, an assertion about the state and the bytes exchanged so far holds at
every moment, and the exits establish their postconditions.
-/

namespace DropFile.General.Processes

open DropFile.General.FuelledProgram

inductive Process (Peer ε σ α : Type) where
  | done (value : α)
  | failed (error : ε)
  | outOfFuel
  | update (change : σ → σ) (next : σ → Process Peer ε σ α)
  | put (peer : Peer) (byte : UInt8) (next lost : Process Peer ε σ α)
  | get (peer : Peer) (next : UInt8 → Process Peer ε σ α)
      (lost : Process Peer ε σ α)

namespace Process

variable {Peer ε σ α β γ : Type}

/-- Run one process and, if it returns, the next one on its result. -/
def andThen (next : α → Process Peer ε σ β) :
    Process Peer ε σ α → Process Peer ε σ β
  | done value => next value
  | failed error => failed error
  | outOfFuel => outOfFuel
  | update change rest => update change fun state => andThen next (rest state)
  | put peer byte rest lost =>
      put peer byte (andThen next rest) (andThen next lost)
  | get peer rest lost =>
      get peer (fun byte => andThen next (rest byte)) (andThen next lost)

instance : Monad (Process Peer ε σ) where
  pure := done
  bind process next := andThen next process

/-- Go on with `catcher` when the process fails. -/
def handle (catcher : ε → Process Peer ε σ α) :
    Process Peer ε σ α → Process Peer ε σ α
  | done value => done value
  | failed error => catcher error
  | outOfFuel => outOfFuel
  | update change rest =>
      update change fun state => handle catcher (rest state)
  | put peer byte rest lost =>
      put peer byte (handle catcher rest) (handle catcher lost)
  | get peer rest lost =>
      get peer (fun byte => handle catcher (rest byte))
        (handle catcher lost)

/-- Fail with an error. -/
def raise (error : ε) : Process Peer ε σ α :=
  failed error

/-- Return the value or fail with the error. -/
def ofExcept : Except ε α → Process Peer ε σ α
  | .ok value => done value
  | .error error => failed error

/-- The current state. -/
def getState : Process Peer ε σ σ :=
  update id done

/-- Replace the state. -/
def modifyState (change : σ → σ) : Process Peer ε σ Unit :=
  update change fun _ => done ()

/-- Run a program on the state in one step. -/
def ofProgram (program : Program ε σ α) : Process Peer ε σ α :=
  update
    (fun state =>
      match program state with
      | .returned _ later => later
      | .threw _ later => later
      | .outOfFuel => state)
    (fun state =>
      match program state with
      | .returned value _ => done value
      | .threw error _ => failed error
      | .outOfFuel => outOfFuel)

/-- Repeat `body` until it leaves with a result, as `Program.loop` does. -/
def loop (body : Nat → β → Process Peer ε σ (β ⊕ α)) :
    Nat → β → Process Peer ε σ α
  | 0, _ => outOfFuel
  | fuel + 1, current => do
      match ← body fuel current with
      | .inl next => loop body fuel next
      | .inr result => pure result

theorem bind_assoc
    (process : Process Peer ε σ α)
    (first : α → Process Peer ε σ β)
    (second : β → Process Peer ε σ γ) :
    (process >>= first >>= second) =
      process >>= fun value => first value >>= second := by
  induction process with
  | done value => rfl
  | failed error => rfl
  | outOfFuel => rfl
  | update change rest inductionHypothesis =>
      exact congrArg (update change) (funext inductionHypothesis)
  | put peer byte rest lost restHypothesis lostHypothesis =>
      exact congrArg₂ (put peer byte) restHypothesis lostHypothesis
  | get peer rest lost restHypothesis lostHypothesis =>
      exact congrArg₂ (get peer) (funext restHypothesis) lostHypothesis

/-! ## Playing along -/

/-- Bytes for every peer. -/
abbrev Traffic (Peer : Type) := Peer → List UInt8

/-- Nothing for any peer. -/
def silence : Traffic Peer :=
  fun _ => []

/-- Traffic after other traffic. -/
def Traffic.followedBy (first second : Traffic Peer) : Traffic Peer :=
  fun peer => first peer ++ second peer

@[simp]
theorem silence_apply (peer : Peer) :
    (silence : Traffic Peer) peer = [] :=
  rfl

@[simp]
theorem followedBy_apply (first second : Traffic Peer) (peer : Peer) :
    first.followedBy second peer = first peer ++ second peer :=
  rfl

@[simp]
theorem silence_followedBy (traffic : Traffic Peer) :
    silence.followedBy traffic = traffic :=
  rfl

@[simp]
theorem followedBy_silence (traffic : Traffic Peer) :
    traffic.followedBy silence = traffic :=
  funext fun peer => List.append_nil (traffic peer)

theorem followedBy_assoc (first second third : Traffic Peer) :
    (first.followedBy second).followedBy third =
      first.followedBy (second.followedBy third) :=
  funext fun peer =>
    List.append_assoc (first peer) (second peer) (third peer)

section Playing

variable [DecidableEq Peer]

/-- Some bytes for a single peer. -/
def only (peer : Peer) (bytes : List UInt8) : Traffic Peer :=
  fun other => if other = peer then bytes else []

@[simp]
theorem only_self (peer : Peer) (bytes : List UInt8) :
    only peer bytes peer = bytes :=
  if_pos rfl

theorem only_other
    {peer other : Peer} (different : other ≠ peer) (bytes : List UInt8) :
    only peer bytes other = [] :=
  if_neg different

@[simp]
theorem only_nil (peer : Peer) : only peer [] = silence :=
  funext fun _ => ite_self _

@[simp]
theorem only_followedBy_only
    (peer : Peer) (first second : List UInt8) :
    (only peer first).followedBy (only peer second) =
      only peer (first ++ second) := by
  funext other
  by_cases same : other = peer
  · simp [same]
  · simp [only_other same]

/--
With these inputs available and no connection lost, the process goes on as the
later one and has given out these outputs.
-/
inductive Plays :
    Process Peer ε σ α → σ → Traffic Peer → Traffic Peer →
      Process Peer ε σ α → σ → Prop where
  | rest (process : Process Peer ε σ α) (state : σ) :
      Plays process state silence silence process state
  | update {change : σ → σ} {next : σ → Process Peer ε σ α}
      {state final : σ} {inputs outputs : Traffic Peer}
      {later : Process Peer ε σ α} :
      Plays (next state) (change state) inputs outputs later final →
      Plays (.update change next) state inputs outputs later final
  | put {peer : Peer} {byte : UInt8} {next lost : Process Peer ε σ α}
      {state final : σ} {inputs outputs : Traffic Peer}
      {later : Process Peer ε σ α} :
      Plays next state inputs outputs later final →
      Plays (.put peer byte next lost) state inputs
        ((only peer [byte]).followedBy outputs) later final
  | get {peer : Peer} {next : UInt8 → Process Peer ε σ α}
      {lost : Process Peer ε σ α} {byte : UInt8}
      {state final : σ} {inputs outputs : Traffic Peer}
      {later : Process Peer ε σ α} :
      Plays (next byte) state inputs outputs later final →
      Plays (.get peer next lost) state
        ((only peer [byte]).followedBy inputs) outputs later final

/-- The process makes no more moves. -/
def Halted : Process Peer ε σ α → Prop
  | done _ => True
  | failed _ => True
  | outOfFuel => True
  | _ => False

namespace Plays

variable {process middle later : Process Peer ε σ α}
variable {state between final : σ}
variable {inputs outputs moreInputs moreOutputs : Traffic Peer}

theorem trans
    (first : Plays process state inputs outputs middle between)
    (second :
      Plays middle between moreInputs moreOutputs later final) :
    Plays process state (inputs.followedBy moreInputs)
      (outputs.followedBy moreOutputs) later final := by
  induction first with
  | rest => exact second
  | update _ inductionHypothesis =>
      exact .update (inductionHypothesis second)
  | put _ inductionHypothesis =>
      rw [followedBy_assoc]
      exact .put (inductionHypothesis second)
  | get _ inductionHypothesis =>
      rw [followedBy_assoc]
      exact .get (inductionHypothesis second)

/-- A process plays in front of what follows it. -/
theorem bind
    (plays : Plays process state inputs outputs later final)
    (next : α → Process Peer ε σ β) :
    Plays (process >>= next) state inputs outputs (later >>= next)
      final := by
  induction plays with
  | rest => exact .rest _ _
  | update _ inductionHypothesis => exact .update inductionHypothesis
  | put _ inductionHypothesis => exact .put inductionHypothesis
  | get _ inductionHypothesis => exact .get inductionHypothesis

theorem handle
    (plays : Plays process state inputs outputs later final)
    (catcher : ε → Process Peer ε σ α) :
    Plays (process.handle catcher) state inputs outputs
      (later.handle catcher) final := by
  induction plays with
  | rest => exact .rest _ _
  | update _ inductionHypothesis => exact .update inductionHypothesis
  | put _ inductionHypothesis => exact .put inductionHypothesis
  | get _ inductionHypothesis => exact .get inductionHypothesis

/-- A process that is done hands over to the next one. -/
theorem andThen
    {value : α} {next : α → Process Peer ε σ β}
    {last : Process Peer ε σ β}
    {allInputs allOutputs : Traffic Peer}
    (first : Plays process state inputs outputs (.done value) between)
    (second :
      Plays (next value) between moreInputs moreOutputs last final)
    (inputsEq : inputs.followedBy moreInputs = allInputs := by simp)
    (outputsEq : outputs.followedBy moreOutputs = allOutputs := by simp) :
    Plays (process >>= next) state allInputs allOutputs last final := by
  subst inputsEq outputsEq
  exact (first.bind next).trans second

/-- What follows needs nothing more from the peers. -/
theorem andThen_eq
    {value : α} {next : α → Process Peer ε σ β}
    {last : Process Peer ε σ β}
    (first : Plays process state inputs outputs (.done value) final)
    (nextEq : next value = last) :
    Plays (process >>= next) state inputs outputs last final := by
  subst nextEq
  exact first.bind next

theorem loop_again
    {body : Nat → β → Process Peer ε σ (β ⊕ α)} {fuel : Nat}
    {current next : β} {last : Process Peer ε σ α}
    {allInputs allOutputs : Traffic Peer}
    (pass : Plays (body fuel current) state inputs outputs
      (.done (.inl next)) between)
    (again : Plays (Process.loop body fuel next) between moreInputs
      moreOutputs last final)
    (inputsEq : inputs.followedBy moreInputs = allInputs := by simp)
    (outputsEq : outputs.followedBy moreOutputs = allOutputs := by simp) :
    Plays (Process.loop body (fuel + 1) current) state allInputs allOutputs
      last final :=
  pass.andThen again inputsEq outputsEq

theorem loop_leave
    {body : Nat → β → Process Peer ε σ (β ⊕ α)} {fuel : Nat}
    {current : β} {result : α}
    (pass : Plays (body fuel current) state inputs outputs
      (.done (.inr result)) final) :
    Plays (Process.loop body (fuel + 1) current) state inputs outputs
      (.done result) final :=
  pass.andThen (.rest (.done result) final)

/-- A program that returns plays in one step. -/
theorem ofProgram
    {program : Program ε σ α} {value : α}
    (ends : program state = .returned value final) :
    Plays (Process.ofProgram program : Process Peer ε σ α) state silence
      silence (.done value) final := by
  refine .update ?_
  rw [ends]
  exact .rest _ _

/-- A program that throws plays in one step. -/
theorem ofProgram_threw
    {program : Program ε σ α} {error : ε}
    (ends : program state = .threw error final) :
    Plays (Process.ofProgram program : Process Peer ε σ α) state silence
      silence (.failed error) final := by
  apply Plays.update
  rw [ends]
  exact .rest _ _

/-- With the same streams of inputs a process always halts in the same way. -/
theorem deterministic_of_halted
    (stream : Traffic Peer) {otherLater : Process Peer ε σ α}
    {otherInputs otherOutputs : Traffic Peer} {otherFinal : σ}
    (halted : Halted later)
    (otherHalted : Halted otherLater)
    (first : Plays process state inputs outputs later final)
    (second : Plays process state otherInputs otherOutputs otherLater
      otherFinal)
    (available : ∀ peer, inputs peer <+: stream peer)
    (otherAvailable : ∀ peer, otherInputs peer <+: stream peer) :
    otherInputs = inputs ∧ otherOutputs = outputs ∧ otherLater = later ∧
      otherFinal = final := by
  induction first generalizing stream otherInputs otherOutputs with
  | rest =>
      cases second with
      | rest => exact ⟨rfl, rfl, rfl, rfl⟩
      | update => cases halted
      | put => cases halted
      | get => cases halted
  | update _ inductionHypothesis =>
      cases second with
      | rest => cases otherHalted
      | update second =>
          exact inductionHypothesis stream halted second available
            otherAvailable
  | put _ inductionHypothesis =>
      cases second with
      | rest => cases otherHalted
      | put second =>
          obtain ⟨rfl, rfl, rfl, rfl⟩ :=
            inductionHypothesis stream halted second available
              otherAvailable
          exact ⟨rfl, rfl, rfl, rfl⟩
  | @get peer next lost byte state final inputs outputs later _
      inductionHypothesis =>
      cases second with
      | rest => cases otherHalted
      | @get _ _ _ otherByte _ _ otherInputs _ _ second =>
          obtain ⟨rest, split⟩ := available peer
          obtain ⟨otherRest, otherSplit⟩ := otherAvailable peer
          have same : byte = otherByte := by
            have heads := split.trans otherSplit.symm
            simpa using congrArg List.head? heads
          subst same
          have fewer : ∀ other,
              inputs other <+:
                (stream other).drop (only peer [byte] other).length := by
            intro other
            obtain ⟨rest, split⟩ := available other
            rw [← split, followedBy_apply, List.append_assoc,
              List.drop_left]
            exact List.prefix_append _ _
          have otherFewer : ∀ other,
              otherInputs other <+:
                (stream other).drop (only peer [byte] other).length := by
            intro other
            obtain ⟨rest, split⟩ := otherAvailable other
            rw [← split, followedBy_apply, List.append_assoc,
              List.drop_left]
            exact List.prefix_append _ _
          obtain ⟨rfl, rfl, rfl, rfl⟩ := inductionHypothesis
            (fun other =>
              (stream other).drop (only peer [byte] other).length)
            halted second fewer otherFewer
          exact ⟨rfl, rfl, rfl, rfl⟩

theorem deterministic
    (stream : Traffic Peer) {value otherValue : α}
    {otherInputs otherOutputs : Traffic Peer} {otherFinal : σ}
    (first : Plays process state inputs outputs (.done value) final)
    (second : Plays process state otherInputs otherOutputs
      (.done otherValue) otherFinal)
    (available : ∀ peer, inputs peer <+: stream peer)
    (otherAvailable : ∀ peer, otherInputs peer <+: stream peer) :
    otherInputs = inputs ∧ otherOutputs = outputs ∧ otherValue = value ∧
      otherFinal = final := by
  have halted (result : α) :
      Halted (.done result : Process Peer ε σ α) := trivial
  obtain ⟨sameInputs, sameOutputs, sameValue, sameFinal⟩ :=
    first.deterministic_of_halted stream (halted value)
      (halted otherValue) second available otherAvailable
  cases sameValue
  exact ⟨sameInputs, sameOutputs, rfl, sameFinal⟩

end Plays

/--
The positions that a loop can come to while its peers deliver what it asks
for.
-/
inductive PassReached (body : Nat → β → Process Peer ε σ (β ⊕ α)) :
    Nat → β → σ → β → σ → Prop where
  | first (fuel : Nat) (current : β) (state : σ) :
      PassReached body fuel current state current state
  | next {fuel : Nat} {current next last : β} {state between final : σ}
      {inputs outputs : Traffic Peer} :
      Plays (body fuel current) state inputs outputs (.done (.inl next))
        between →
      PassReached body fuel next between last final →
      PassReached body (fuel + 1) current state last final

end Playing

/-! ## Single moves -/

section Moving

variable [DecidableEq Peer]

/-- One move of a process whose connections are all there. -/
inductive Moves :
    Process Peer ε σ α → σ → Process Peer ε σ α → σ →
      Traffic Peer → Traffic Peer → Prop where
  | update (change : σ → σ) (next : σ → Process Peer ε σ α) (state : σ) :
      Moves (.update change next) state (next state) (change state)
        silence silence
  | put (peer : Peer) (byte : UInt8) (next lost : Process Peer ε σ α)
      (state : σ) :
      Moves (.put peer byte next lost) state next state silence
        (only peer [byte])
  | get (peer : Peer) (next : UInt8 → Process Peer ε σ α)
      (lost : Process Peer ε σ α) (byte : UInt8) (state : σ) :
      Moves (.get peer next lost) state (next byte) state
        (only peer [byte]) silence

/-- The process finds a connection lost and goes on as the later one. -/
inductive Loses : Process Peer ε σ α → Process Peer ε σ α → Prop where
  | put (peer : Peer) (byte : UInt8) (next lost : Process Peer ε σ α) :
      Loses (.put peer byte next lost) lost
  | get (peer : Peer) (next : UInt8 → Process Peer ε σ α)
      (lost : Process Peer ε σ α) :
      Loses (.get peer next lost) lost

end Moving

/-! ## Every environment -/

/-- The state of a process with all bytes it received and sent. -/
structure Local (Peer σ : Type) where
  state : σ
  received : Traffic Peer
  sent : Traffic Peer

section Environments

variable [DecidableEq Peer]

namespace Local

def change (change : σ → σ) (moment : Local Peer σ) : Local Peer σ :=
  { moment with state := change moment.state }

def sends (peer : Peer) (bytes : List UInt8) (moment : Local Peer σ) :
    Local Peer σ :=
  { moment with sent := moment.sent.followedBy (only peer bytes) }

def receives (peer : Peer) (bytes : List UInt8)
    (moment : Local Peer σ) : Local Peer σ :=
  { moment with
    received := moment.received.followedBy (only peer bytes) }

@[simp]
theorem sends_nil (peer : Peer) (moment : Local Peer σ) :
    moment.sends peer [] = moment := by
  simp [sends]

@[simp]
theorem receives_nil (peer : Peer) (moment : Local Peer σ) :
    moment.receives peer [] = moment := by
  simp [receives]

@[simp]
theorem sent_sends_self
    (peer : Peer) (bytes : List UInt8) (moment : Local Peer σ) :
    (moment.sends peer bytes).sent peer = moment.sent peer ++ bytes := by
  simp [sends]

theorem sent_sends_other
    {peer other : Peer} (different : other ≠ peer) (bytes : List UInt8)
    (moment : Local Peer σ) :
    (moment.sends peer bytes).sent other = moment.sent other := by
  simp [sends, only_other different]

@[simp]
theorem received_receives_self
    (peer : Peer) (bytes : List UInt8) (moment : Local Peer σ) :
    (moment.receives peer bytes).received peer =
      moment.received peer ++ bytes := by
  simp [receives]

theorem received_receives_other
    {peer other : Peer} (different : other ≠ peer) (bytes : List UInt8)
    (moment : Local Peer σ) :
    (moment.receives peer bytes).received other =
      moment.received other := by
  simp [receives, only_other different]

theorem sends_sends
    (peer : Peer) (first second : List UInt8) (moment : Local Peer σ) :
    (moment.sends peer first).sends peer second =
      moment.sends peer (first ++ second) := by
  simp [sends, followedBy_assoc]

theorem receives_receives
    (peer : Peer) (first second : List UInt8) (moment : Local Peer σ) :
    (moment.receives peer first).receives peer second =
      moment.receives peer (first ++ second) := by
  simp [receives, followedBy_assoc]

end Local

/--
What a process can become while its peers do anything and connections get lost
at any moment.
-/
inductive Becomes (process : Process Peer ε σ α) (moment : Local Peer σ) :
    Process Peer ε σ α → Local Peer σ → Prop where
  | here : Becomes process moment process moment
  | moves {later last : Process Peer ε σ α} {between : Local Peer σ}
      {final : σ} {inputs outputs : Traffic Peer} :
      Becomes process moment later between →
      Moves later between.state last final inputs outputs →
      Becomes process moment last
        ⟨final, between.received.followedBy inputs,
          between.sent.followedBy outputs⟩
  | loses {later last : Process Peer ε σ α} {between : Local Peer σ} :
      Becomes process moment later between →
      Loses later last →
      Becomes process moment last between

theorem Becomes.trans
    {process middle later : Process Peer ε σ α}
    {moment between last : Local Peer σ}
    (first : Becomes process moment middle between)
    (second : Becomes middle between later last) :
    Becomes process moment later last := by
  induction second with
  | here => exact first
  | moves _ moves inductionHypothesis => exact inductionHypothesis.moves moves
  | loses _ loses inductionHypothesis => exact inductionHypothesis.loses loses

/-- Peers that play along are one environment. -/
theorem Becomes.of_plays
    {process later : Process Peer ε σ α} {state final : σ}
    {inputs outputs : Traffic Peer}
    (plays : Plays process state inputs outputs later final)
    (received sent : Traffic Peer) :
    Becomes process ⟨state, received, sent⟩ later
      ⟨final, received.followedBy inputs, sent.followedBy outputs⟩ := by
  induction plays generalizing received sent with
  | rest process state =>
      rw [followedBy_silence, followedBy_silence]
      exact .here
  | @update change next state _ _ _ _ _ inductionHypothesis =>
      have first : Becomes _ ⟨state, received, sent⟩ _ _ :=
        .moves .here (.update change next state)
      rw [followedBy_silence, followedBy_silence] at first
      exact first.trans (inductionHypothesis received sent)
  | @put peer byte next lost state _ _ _ _ _ inductionHypothesis =>
      have first : Becomes _ ⟨state, received, sent⟩ _ _ :=
        .moves .here (.put peer byte next lost state)
      rw [followedBy_silence] at first
      rw [← followedBy_assoc]
      exact first.trans (inductionHypothesis received _)
  | @get peer next lost byte state _ _ _ _ _ inductionHypothesis =>
      have first : Becomes _ ⟨state, received, sent⟩ _ _ :=
        .moves .here (.get peer next lost byte state)
      rw [followedBy_silence] at first
      rw [← followedBy_assoc]
      exact first.trans (inductionHypothesis _ sent)

/--
In every environment, as long as `rely` holds at every moment, so does
`always`, and then `after` holds when the process is done and `failing` when it
fails.
-/
def Ensures (rely always : Local Peer σ → Prop)
    (after : α → Local Peer σ → Prop)
    (failing : ε → Local Peer σ → Prop) :
    Process Peer ε σ α → Local Peer σ → Prop
  | done value, moment => rely moment → always moment ∧ after value moment
  | failed error, moment =>
      rely moment → always moment ∧ failing error moment
  | outOfFuel, moment => rely moment → always moment
  | update change next, moment =>
      rely moment → always moment ∧
        Ensures rely always after failing (next moment.state)
          (moment.change change)
  | put peer byte next lost, moment =>
      rely moment → always moment ∧
        Ensures rely always after failing next
          (moment.sends peer [byte]) ∧
        Ensures rely always after failing lost moment
  | get peer next lost, moment =>
      rely moment → always moment ∧
        (∀ byte,
          Ensures rely always after failing (next byte)
            (moment.receives peer [byte])) ∧
        Ensures rely always after failing lost moment

namespace Ensures

variable {rely always : Local Peer σ → Prop}
variable {after : α → Local Peer σ → Prop}
variable {failing : ε → Local Peer σ → Prop}
variable {process : Process Peer ε σ α} {moment : Local Peer σ}

theorem now
    (ensures : Ensures rely always after failing process moment)
    (relies : rely moment) :
    always moment := by
  cases process with
  | done value => exact (ensures relies).1
  | failed error => exact (ensures relies).1
  | outOfFuel => exact ensures relies
  | update change next => exact (ensures relies).1
  | put peer byte next lost => exact (ensures relies).1
  | get peer next lost => exact (ensures relies).1

theorem of_moves
    {later : Process Peer ε σ α} {final : σ}
    {inputs outputs : Traffic Peer}
    (ensures : Ensures rely always after failing process moment)
    (relies : rely moment)
    (moves : Moves process moment.state later final inputs outputs) :
    Ensures rely always after failing later
      ⟨final, moment.received.followedBy inputs,
        moment.sent.followedBy outputs⟩ := by
  obtain ⟨state, received, sent⟩ := moment
  cases moves with
  | update change next =>
      simpa [Local.change] using (ensures relies).2
  | put peer byte next lost =>
      simpa [Local.sends] using (ensures relies).2.1
  | get peer next lost byte =>
      simpa [Local.receives] using (ensures relies).2.1 byte

theorem of_loses
    {later : Process Peer ε σ α}
    (ensures : Ensures rely always after failing process moment)
    (relies : rely moment)
    (loses : Loses process later) :
    Ensures rely always after failing later moment := by
  cases loses with
  | put peer byte next lost => exact (ensures relies).2.2
  | get peer next lost => exact (ensures relies).2.2

/-- What a process ensures it still ensures after it has played. -/
theorem of_plays
    {later : Process Peer ε σ α} {final : σ}
    {inputs outputs : Traffic Peer}
    (ensures : Ensures (fun _ => True) always after failing process moment)
    (plays : Plays process moment.state inputs outputs later final) :
    Ensures (fun _ => True) always after failing later
      ⟨final, moment.received.followedBy inputs,
        moment.sent.followedBy outputs⟩ := by
  generalize start : moment.state = state at plays
  induction plays generalizing moment with
  | rest =>
      subst start
      simpa using ensures
  | @update change next _ _ _ _ _ _ inductionHypothesis =>
      subst start
      have moved := ensures.of_moves trivial (.update change next _)
      simpa [followedBy_assoc] using inductionHypothesis moved rfl
  | @put peer byte next lost _ _ _ _ _ _ inductionHypothesis =>
      subst start
      have moved := ensures.of_moves trivial (.put peer byte next lost _)
      simpa [followedBy_assoc] using inductionHypothesis moved rfl
  | @get peer next lost byte _ _ _ _ _ _ inductionHypothesis =>
      subst start
      have moved := ensures.of_moves trivial (.get peer next lost byte _)
      simpa [followedBy_assoc] using inductionHypothesis moved rfl

/-- What a process ensures holds wherever it gets to. -/
theorem of_becomes
    {later : Process Peer ε σ α} {laterMoment : Local Peer σ}
    (ensures : Ensures (fun _ => True) always after failing process moment)
    (becomes : Becomes process moment later laterMoment) :
    Ensures (fun _ => True) always after failing later laterMoment := by
  induction becomes with
  | here => exact ensures
  | moves _ moves inductionHypothesis =>
      exact inductionHypothesis.of_moves trivial moves
  | loses _ loses inductionHypothesis =>
      exact inductionHypothesis.of_loses trivial loses

/-- It is enough to show something at moments that satisfy `rely`. -/
theorem of_rely
    (ensures : rely moment →
      Ensures rely always after failing process moment) :
    Ensures rely always after failing process moment := by
  cases process with
  | done value => exact fun relies => ensures relies relies
  | failed error => exact fun relies => ensures relies relies
  | outOfFuel => exact fun relies => ensures relies relies
  | update change next => exact fun relies => ensures relies relies
  | put peer byte next lost => exact fun relies => ensures relies relies
  | get peer next lost => exact fun relies => ensures relies relies

theorem weaken
    {weakAfter : α → Local Peer σ → Prop}
    {weakFailing : ε → Local Peer σ → Prop}
    (ensures : Ensures rely always after failing process moment)
    (afterWeaker : ∀ value moment, rely moment → always moment →
      after value moment → weakAfter value moment)
    (failingWeaker : ∀ error moment, rely moment → always moment →
      failing error moment → weakFailing error moment) :
    Ensures rely always weakAfter weakFailing process moment := by
  induction process generalizing moment with
  | done value =>
      intro relies
      exact ⟨(ensures relies).1,
        afterWeaker _ _ relies (ensures relies).1 (ensures relies).2⟩
  | failed error =>
      intro relies
      exact ⟨(ensures relies).1,
        failingWeaker _ _ relies (ensures relies).1 (ensures relies).2⟩
  | outOfFuel => exact ensures
  | update change next inductionHypothesis =>
      intro relies
      exact ⟨(ensures relies).1, inductionHypothesis _ (ensures relies).2⟩
  | put peer byte next lost nextHypothesis lostHypothesis =>
      intro relies
      exact ⟨(ensures relies).1, nextHypothesis (ensures relies).2.1,
        lostHypothesis (ensures relies).2.2⟩
  | get peer next lost nextHypothesis lostHypothesis =>
      intro relies
      exact ⟨(ensures relies).1,
        fun byte => nextHypothesis byte ((ensures relies).2.1 byte),
        lostHypothesis (ensures relies).2.2⟩

theorem weakenAlways
    {weakAlways : Local Peer σ → Prop}
    (ensures : Ensures rely always after failing process moment)
    (weaker : ∀ moment, always moment → weakAlways moment) :
    Ensures rely weakAlways after failing process moment := by
  induction process generalizing moment with
  | done value =>
      intro relies
      exact ⟨weaker _ (ensures relies).1, (ensures relies).2⟩
  | failed error =>
      intro relies
      exact ⟨weaker _ (ensures relies).1, (ensures relies).2⟩
  | outOfFuel => exact fun relies => weaker _ (ensures relies)
  | update change next inductionHypothesis =>
      intro relies
      exact ⟨weaker _ (ensures relies).1,
        inductionHypothesis _ (ensures relies).2⟩
  | put peer byte next lost nextHypothesis lostHypothesis =>
      intro relies
      exact ⟨weaker _ (ensures relies).1,
        nextHypothesis (ensures relies).2.1,
        lostHypothesis (ensures relies).2.2⟩
  | get peer next lost nextHypothesis lostHypothesis =>
      intro relies
      exact ⟨weaker _ (ensures relies).1,
        fun byte => nextHypothesis byte ((ensures relies).2.1 byte),
        lostHypothesis (ensures relies).2.2⟩

theorem bind
    {middle : α → Local Peer σ → Prop}
    {after : β → Local Peer σ → Prop}
    {next : α → Process Peer ε σ β}
    (first : Ensures rely always middle failing process moment)
    (second : ∀ value later, rely later → always later →
      middle value later →
      Ensures rely always after failing (next value) later) :
    Ensures rely always after failing (process >>= next) moment := by
  induction process generalizing moment with
  | done value =>
      exact of_rely fun relies =>
        second value moment relies (first relies).1 (first relies).2
  | failed error => exact first
  | outOfFuel => exact first
  | update change rest inductionHypothesis =>
      intro relies
      exact ⟨(first relies).1, inductionHypothesis _ (first relies).2⟩
  | put peer byte rest lost restHypothesis lostHypothesis =>
      intro relies
      exact ⟨(first relies).1, restHypothesis (first relies).2.1,
        lostHypothesis (first relies).2.2⟩
  | get peer rest lost restHypothesis lostHypothesis =>
      intro relies
      exact ⟨(first relies).1,
        fun byte => restHypothesis byte ((first relies).2.1 byte),
        lostHypothesis (first relies).2.2⟩

theorem handle
    {caught : ε → Local Peer σ → Prop}
    {catcher : ε → Process Peer ε σ α}
    (ensures : Ensures rely always after caught process moment)
    (catches : ∀ error later, rely later → always later →
      caught error later →
      Ensures rely always after failing (catcher error) later) :
    Ensures rely always after failing (process.handle catcher)
      moment := by
  induction process generalizing moment with
  | done value => exact ensures
  | failed error =>
      exact of_rely fun relies =>
        catches error moment relies (ensures relies).1 (ensures relies).2
  | outOfFuel => exact ensures
  | update change rest inductionHypothesis =>
      intro relies
      exact ⟨(ensures relies).1, inductionHypothesis _ (ensures relies).2⟩
  | put peer byte rest lost restHypothesis lostHypothesis =>
      intro relies
      exact ⟨(ensures relies).1, restHypothesis (ensures relies).2.1,
        lostHypothesis (ensures relies).2.2⟩
  | get peer rest lost restHypothesis lostHypothesis =>
      intro relies
      exact ⟨(ensures relies).1,
        fun byte => restHypothesis byte ((ensures relies).2.1 byte),
        lostHypothesis (ensures relies).2.2⟩

/-- The invariant rule for loops. -/
theorem loop
    {body : Nat → β → Process Peer ε σ (β ⊕ α)}
    (invariant : β → Local Peer σ → Prop)
    (pass : ∀ fuel current moment, rely moment → always moment →
      invariant current moment →
      Ensures rely always (Sum.elim invariant after) failing
        (body fuel current) moment)
    (fuel : Nat) (current : β)
    (holds : always moment) (start : invariant current moment) :
    Ensures rely always after failing (Process.loop body fuel current)
      moment := by
  induction fuel generalizing current moment with
  | zero => exact fun _ => holds
  | succ fuel inductionHypothesis =>
      refine of_rely fun relies =>
        (pass fuel current moment relies holds start).bind ?_
      rintro (next | result) later laterRelies laterHolds kept
      · exact inductionHypothesis next laterHolds kept
      · exact fun _ => ⟨laterHolds, kept⟩

theorem pure
    {value : α}
    (holds : always moment) (post : after value moment) :
    Ensures rely always after failing
      (pure value : Process Peer ε σ α) moment :=
  fun _ => ⟨holds, post⟩

theorem raise
    {error : ε}
    (holds : always moment) (post : failing error moment) :
    Ensures rely always after failing
      (Process.raise error : Process Peer ε σ α) moment :=
  fun _ => ⟨holds, post⟩

/-- A result that is there at once, and what follows. -/
theorem ofExcept_bind
    {after : β → Local Peer σ → Prop}
    {result : Except ε α} {next : α → Process Peer ε σ β}
    (holds : always moment)
    (succeeds : ∀ value, result = .ok value →
      Ensures rely always after failing (next value) moment)
    (fails : ∀ error, result = .error error → failing error moment) :
    Ensures rely always after failing (Process.ofExcept result >>= next)
      moment := by
  cases result with
  | ok value => exact succeeds value rfl
  | error error => exact .raise holds (fails error rfl)

theorem getState_bind
    {after : β → Local Peer σ → Prop} {next : σ → Process Peer ε σ β}
    (holds : always moment)
    (continues :
      Ensures rely always after failing (next moment.state) moment) :
    Ensures rely always after failing (Process.getState >>= next)
      moment :=
  fun _ => ⟨holds, continues⟩

theorem modifyState_bind
    {change : σ → σ} {after : β → Local Peer σ → Prop}
    {next : Unit → Process Peer ε σ β}
    (holds : always moment)
    (continues : Ensures rely always after failing (next ())
      (moment.change change)) :
    Ensures rely always after failing (Process.modifyState change >>= next)
      moment :=
  fun _ => ⟨holds, continues⟩

theorem modifyState
    {change : σ → σ} {after : Unit → Local Peer σ → Prop}
    (holds : always moment)
    (changed : always (moment.change change))
    (post : after () (moment.change change)) :
    Ensures rely always after failing
      (Process.modifyState change : Process Peer ε σ Unit) moment :=
  fun _ => ⟨holds, fun _ => ⟨changed, post⟩⟩

/-- A program that is run in one step. -/
theorem ofProgram
    {program : Program ε σ α}
    (holds : always moment)
    (ends :
      Program.Satisfies (fun start => start = moment.state) program
        (fun value later =>
          always { moment with state := later } ∧
            after value { moment with state := later })
        (fun error later =>
          always { moment with state := later } ∧
            failing error { moment with state := later })) :
    Ensures rely always after failing
      (Process.ofProgram program : Process Peer ε σ α) moment := by
  intro _
  refine ⟨holds, ?_⟩
  cases outcome : program moment.state with
  | returned value later =>
      simp only [Local.change, outcome]
      exact fun _ => ends.returned rfl outcome
  | threw error later =>
      simp only [Local.change, outcome]
      exact fun _ => ends.threw rfl outcome
  | outOfFuel =>
      simp only [Local.change, outcome]
      exact fun _ => holds

/-- A program changes nothing but the state. -/
theorem ofProgram_keeps
    (holds : always moment)
    (anyState : ∀ state, always { moment with state := state })
    (program : Program ε σ α) :
    Ensures rely always
      (fun _ later => ∃ state, later = { moment with state := state })
      (fun _ later => ∃ state, later = { moment with state := state })
      (Process.ofProgram program : Process Peer ε σ α) moment := by
  apply ofProgram holds
  intro start _
  cases program start with
  | returned value later => exact ⟨anyState later, later, rfl⟩
  | threw error later => exact ⟨anyState later, later, rfl⟩
  | outOfFuel => trivial

/-- What every move keeps, every process keeps. -/
theorem of_closed
    (closed : ∀ moment, always moment →
      (∀ change, always (moment.change change)) ∧
      (∀ peer byte, always (moment.sends peer [byte])) ∧
      ∀ peer byte, always (moment.receives peer [byte]))
    (process : Process Peer ε σ α)
    (holds : always moment) :
    Ensures rely always (fun _ _ => True) (fun _ _ => True) process
      moment := by
  induction process generalizing moment with
  | done value => exact fun _ => ⟨holds, trivial⟩
  | failed error => exact fun _ => ⟨holds, trivial⟩
  | outOfFuel => exact fun _ => holds
  | update change next inductionHypothesis =>
      intro _
      exact ⟨holds, inductionHypothesis _ ((closed moment holds).1 change)⟩
  | put peer byte next lost nextHypothesis lostHypothesis =>
      intro _
      exact ⟨holds, nextHypothesis ((closed moment holds).2.1 peer byte),
        lostHypothesis holds⟩
  | get peer next lost nextHypothesis lostHypothesis =>
      intro _
      exact ⟨holds,
        fun byte =>
          nextHypothesis byte ((closed moment holds).2.2 peer byte),
        lostHypothesis holds⟩

end Ensures

end Environments

end Process

end DropFile.General.Processes
