import DropFile.General.Networks

/-!
# Dialogues

Parties of a network that talk in turns: whoever has the turn reads all that is
on its way, answers to one party, and hands the turn to it.  When every party
can take its turns on its own, the network can hold the whole dialogue.
-/

namespace DropFile.General.Dialogues

open DropFile.General.CommutingSteps
open DropFile.General.Processes
open DropFile.General.Processes.Process
open DropFile.General.Networks

/-- What is read from a peer, and what is then sent to whom. -/
structure TurnTaken (Party : Type) where
  peer : Party
  bytes : List UInt8
  next : Party
  answer : List UInt8

section Converses

variable {Party ε σ α : Type} [DecidableEq Party]

/-- The process can take these turns and then satisfies `ends`. -/
def Converses (ends : Process Party ε σ α → σ → Prop) :
    List (TurnTaken Party) → Process Party ε σ α → σ → Prop
  | [], process, state => ends process state
  | turn :: rest, process, state =>
      ∃ later between,
        Plays process state (only turn.peer turn.bytes)
          (only turn.next turn.answer) later between ∧
        Converses ends rest later between

/--
Let the process go on while it reads these bytes of the peer and sends the
answer, byte by byte.
-/
def takeTurn (peer next : Party) :
    Process Party ε σ α → σ → List UInt8 → List UInt8 →
      Option (Process Party ε σ α × σ)
  | .update change rest, state, bytes, answer =>
      takeTurn peer next (rest state) (change state) bytes answer
  | .put reader byte rest _, state, bytes, expected :: answer =>
      if reader = next ∧ byte = expected then
        takeTurn peer next rest state bytes answer
      else
        none
  | .get sender rest _, state, byte :: bytes, answer =>
      if sender = peer then
        takeTurn peer next (rest byte) state bytes answer
      else
        none
  | process, state, [], [] => some (process, state)
  | _, _, _, _ => none

theorem plays_of_takeTurn
    {peer next : Party} {process later : Process Party ε σ α}
    {state final : σ} {bytes answer : List UInt8}
    (taken : takeTurn peer next process state bytes answer =
      some (later, final)) :
    Plays process state (only peer bytes) (only next answer) later
      final := by
  fun_induction takeTurn peer next process state bytes answer with
  | case1 bytes answer state change rest inductionHypothesis =>
      exact .update (inductionHypothesis taken)
  | case2 reader byte rest lost state bytes expected answer same
      inductionHypothesis =>
      rcases same with ⟨rfl, rfl⟩
      have whole : Plays (.put reader byte rest lost) state (only peer bytes)
          ((only reader [byte]).followedBy (only reader answer)) later
            final :=
        .put (inductionHypothesis taken)
      rw [only_followedBy_only] at whole
      exact whole
  | case3 => cases taken
  | case4 rest lost state byte bytes answer inductionHypothesis =>
      have whole : Plays (.get peer rest lost) state
          ((only peer [byte]).followedBy (only peer bytes))
            (only next answer) later final :=
        .get (inductionHypothesis taken)
      rw [only_followedBy_only] at whole
      exact whole
  | case5 => cases taken
  | case6 process state =>
      cases taken
      rw [only_nil, only_nil]
      exact .rest _ _
  | case7 => cases taken

/-- Turns that can be taken one after another. -/
def takeTurns :
    List (TurnTaken Party) → Process Party ε σ α → σ →
      Option (Process Party ε σ α × σ)
  | [], process, state => some (process, state)
  | turn :: rest, process, state =>
      (takeTurn turn.peer turn.next process state turn.bytes
        turn.answer).bind fun reached => takeTurns rest reached.1 reached.2

theorem converses_of_takeTurns
    {turns : List (TurnTaken Party)} {process later : Process Party ε σ α}
    {state final : σ} {ends : Process Party ε σ α → σ → Prop}
    (taken : takeTurns turns process state = some (later, final))
    (ended : ends later final) :
    Converses ends turns process state := by
  induction turns generalizing process state with
  | nil =>
      cases taken
      exact ended
  | cons turn rest inductionHypothesis =>
      rw [takeTurns, Option.bind_eq_some_iff] at taken
      rcases taken with ⟨⟨middle, between⟩, first, others⟩
      exact ⟨middle, between, plays_of_takeTurn first,
        inductionHypothesis others⟩

/-- The process can go on only when something arrives from the peer. -/
def Awaits (process : Process Party ε σ α) (peer : Party) : Prop :=
  ∃ next lost, process = .get peer next lost

end Converses

variable {Party ε : Type} {σ α : Party → Type} [DecidableEq Party]

/-- A party that waits for what is not on its way cannot go on. -/
theorem step_of_awaits
    {network : Network Party ε σ α} {party peer : Party}
    (awaits : Awaits (network.process party) peer)
    (nothing : network.unread party peer = []) :
    Network.step party network = none := by
  rcases awaits with ⟨next, lost, process⟩
  simp only [Network.step, process]
  split
  · rfl
  · next byte rest arrived =>
      rw [nothing] at arrived
      cases arrived

theorem step_of_halted
    {network : Network Party ε σ α} {party : Party}
    (halted : Halted (network.process party)) :
    Network.step party network = none := by
  rw [Network.step]
  cases process : network.process party with
  | done value => rfl
  | failed error => rfl
  | outOfFuel => rfl
  | update change next =>
      rw [process] at halted
      cases halted
  | put peer byte next lost =>
      rw [process] at halted
      cases halted
  | get peer next lost =>
      rw [process] at halted
      cases halted

/--
The turns of one party in a dialogue, which starts with the turn of `party`
and goes on with the messages to the given parties.
-/
def turnsOf (who : Party) : (party peer : Party) → List UInt8 →
    List (Party × List UInt8) → List (TurnTaken Party)
  | _, _, _, [] => []
  | party, peer, bytes, (next, answer) :: rest =>
      if party = who then
        ⟨peer, bytes, next, answer⟩ :: turnsOf who next party answer rest
      else
        turnsOf who next party answer rest

/-- Nobody answers to itself. -/
def Alternates : Party → List (Party × List UInt8) → Prop
  | _, [] => True
  | party, (next, _) :: rest => next ≠ party ∧ Alternates next rest

instance decidableAlternates :
    (party : Party) → (messages : List (Party × List UInt8)) →
      Decidable (Alternates party messages)
  | _, [] => .isTrue trivial
  | party, (next, _) :: rest =>
      @instDecidableAnd (next ≠ party) (Alternates next rest) _
        (decidableAlternates next rest)

/-- Whose turn it is after a dialogue, and what is then on its way. -/
def turnAfter : (party peer : Party) → List UInt8 →
    List (Party × List UInt8) → Party × Party × List UInt8
  | party, peer, bytes, [] => (party, peer, bytes)
  | party, _, _, (next, answer) :: rest => turnAfter next party answer rest

/-- What a party says to another one in a dialogue. -/
def saidBy (who other : Party) :
    Party → List (Party × List UInt8) → List UInt8
  | _, [] => []
  | party, (next, answer) :: rest =>
      (if party = who ∧ next = other then answer else []) ++
        saidBy who other next rest

/-- A network whose parties can all take their turns holds the dialogue. -/
theorem reaches_end_of_dialogue
    {network : Network Party ε σ α} {party peer : Party}
    {bytes : List UInt8} {messages : List (Party × List UInt8)}
    {ends : ∀ who, Process Party ε (σ who) (α who) → σ who → Prop}
    (turn : network.Turn party peer bytes)
    (alternates : Alternates party messages)
    (converses : ∀ who,
      Converses (ends who) (turnsOf who party peer bytes messages)
        (network.process who) (network.state who)) :
    ∃ final,
      Reaches Network.step network final ∧
      (∀ who, ends who (final.process who) (final.state who)) ∧
      (∀ who other, final.sent who other =
        network.sent who other ++ saidBy who other party messages) ∧
      final.Turn (turnAfter party peer bytes messages).1
        (turnAfter party peer bytes messages).2.1
        (turnAfter party peer bytes messages).2.2 := by
  induction messages generalizing network party peer bytes with
  | nil =>
      refine ⟨network, Reaches.refl network, converses, ?_, turn⟩
      intro who other
      rw [saidBy, List.append_nil]
  | cons message rest inductionHypothesis =>
      obtain ⟨next, answer⟩ := message
      obtain ⟨different, alternates⟩ := alternates
      have own := converses party
      rw [turnsOf, if_pos rfl] at own
      obtain ⟨later, between, plays, further⟩ := own
      obtain ⟨following, reaches, process, state, sent, nextTurn⟩ :=
        Network.reaches_next_turn turn rfl rfl plays different
      have others : ∀ who,
          Converses (ends who) (turnsOf who next party answer rest)
            (following.process who) (following.state who) := by
        intro who
        rw [process, state]
        by_cases same : who = party
        · subst same
          rwa [Function.update_self, Function.update_self]
        · have elsewhere := converses who
          rw [turnsOf, if_neg (Ne.symm same)] at elsewhere
          rwa [Function.update_of_ne same, Function.update_of_ne same]
      obtain ⟨final, continues, ended, said, lastTurn⟩ :=
        inductionHypothesis nextTurn alternates others
      refine ⟨final, reaches.trans continues, ended, ?_, lastTurn⟩
      intro who other
      rw [said, sent, saidBy, ← List.append_assoc]
      congr 1
      by_cases same : who = party
      · subst same
        rw [Function.update_self, followedBy_apply]
        by_cases reads : next = other
        · subst reads
          rw [only_self, if_pos ⟨rfl, rfl⟩]
        · rw [only_other (Ne.symm reads), if_neg fun both => reads both.2]
      · rw [Function.update_of_ne same,
          if_neg fun both => same both.1.symm, List.append_nil]

/--
When a dialogue takes all parties to halts, then every order of their steps
does: it can go on until all have halted, and they halt as in the dialogue.
-/
theorem every_run_ends
    {network : Network Party ε σ α} {party peer : Party}
    {bytes : List UInt8} {messages : List (Party × List UInt8)}
    {ends : ∀ who, Process Party ε (σ who) (α who) → σ who → Prop}
    (turn : network.Turn party peer bytes)
    (alternates : Alternates party messages)
    (converses : ∀ who,
      Converses (ends who) (turnsOf who party peer bytes messages)
        (network.process who) (network.state who))
    (halts : ∀ who process state, ends who process state →
      Halted process) :
    ∃ longest, ∀ schedule later,
      follow Network.step schedule network = some later →
      schedule.length ≤ longest ∧
      ((∃ who next, Network.step who later = some next) ∨
        ∀ who, Halted (later.process who)) ∧
      ((∀ who, Halted (later.process who)) →
        ∀ who, ends who (later.process who) (later.state who)) := by
  rcases reaches_end_of_dialogue turn alternates converses with
    ⟨final, ⟨canonical, follows⟩, ended, -, -⟩
  have stuck : Stuck Network.step final := fun who =>
    step_of_halted (halts who _ _ (ended who))
  have commutes := @Network.step_commutes Party ε σ α _
  refine ⟨canonical.length, ?_⟩
  intro schedule later run
  have atEnd (isStuck : Stuck Network.step later) : later = final :=
    eq_final_of_stuck commutes follows stuck ⟨schedule, run⟩ isStuck
  refine ⟨length_le_of_stuck commutes follows stuck run, ?_, ?_⟩
  · by_cases isStuck : Stuck Network.step later
    · right
      intro who
      rw [atEnd isStuck]
      exact halts who _ _ (ended who)
    · left
      rw [Stuck, not_forall] at isStuck
      rcases isStuck with ⟨who, steps⟩
      exact ⟨who, Option.ne_none_iff_exists'.1 steps⟩
  · intro halted
    rw [atEnd fun who => step_of_halted (halted who)]
    exact ended

end DropFile.General.Dialogues
