import DropFile.General.CommutingSteps
import DropFile.General.Processes
import Mathlib.Logic.Relation

/-!
# Networks of processes

Parties run their processes over reliable first-in first-out byte channels, one
from every party to every other.  A step is a single exchange or a change of
one party's state, so the steps of different parties commute.  In a network
that may lose connections, an exchange can also fail at any moment.

The channels keep everything that was sent, together with how much of it the
receiver has read.
-/

namespace DropFile.General.Networks

open DropFile.General.Processes
open DropFile.General.Processes.Process
open DropFile.General.CommutingSteps

variable {Party ε : Type} {σ α : Party → Type}

@[ext]
structure Network (Party ε : Type) (σ α : Party → Type) where
  process : ∀ party, Process Party ε (σ party) (α party)
  state : ∀ party, σ party
  /-- What a party has sent to its peers. -/
  sent : Party → Traffic Party
  /-- How many bytes a party has read from its peers. -/
  consumed : Party → Party → Nat
  bounded : ∀ party peer,
    consumed party peer ≤ (sent peer party).length

namespace Network

/-- What a party has read from a peer. -/
def received (network : Network Party ε σ α) (party : Party) :
    Traffic Party :=
  fun peer =>
    (network.sent peer party).take (network.consumed party peer)

/-- What is on its way from a peer. -/
def unread (network : Network Party ε σ α) (party : Party) :
    Traffic Party :=
  fun peer =>
    (network.sent peer party).drop (network.consumed party peer)

theorem prefix_sent
    (network : Network Party ε σ α) (party peer : Party) :
    network.received party peer <+: network.sent peer party :=
  List.take_prefix _ _

/-- The part of the network that one party sees. -/
def view (network : Network Party ε σ α) (party : Party) :
    Local Party (σ party) :=
  ⟨network.state party, network.received party, network.sent party⟩

theorem silence_prefix
    (network : Network Party ε σ α) (party peer : Party) :
    silence peer <+: network.unread party peer :=
  List.nil_prefix

variable [DecidableEq Party]

/--
The network after a party has gone on to a later process, read the inputs and
sent the outputs.
-/
def advance (network : Network Party ε σ α) (party : Party)
    (later : Process Party ε (σ party) (α party)) (final : σ party)
    (inputs outputs : Traffic Party)
    (available : ∀ peer, inputs peer <+: network.unread party peer) :
    Network Party ε σ α where
  process := Function.update network.process party later
  state := Function.update network.state party final
  sent := Function.update network.sent party
    ((network.sent party).followedBy outputs)
  consumed := Function.update network.consumed party fun peer =>
    network.consumed party peer + (inputs peer).length
  bounded reader peer := by
    have longer :
        (network.sent peer reader).length ≤
          (Function.update network.sent party
            ((network.sent party).followedBy outputs) peer
              reader).length := by
      by_cases same : peer = party
      · subst same
        simp
      · rw [Function.update_of_ne same]
    by_cases same : reader = party
    · subst same
      have short := (available peer).length_le
      have within := network.bounded reader peer
      rw [unread, List.length_drop] at short
      rw [Function.update_self]
      omega
    · rw [Function.update_of_ne same]
      exact (network.bounded reader peer).trans longer

@[simp]
theorem advance_process_self
    (network : Network Party ε σ α) (party : Party)
    (later : Process Party ε (σ party) (α party)) (final : σ party)
    (inputs outputs : Traffic Party)
    (available : ∀ peer, inputs peer <+: network.unread party peer) :
    (network.advance party later final inputs outputs
      available).process party = later :=
  Function.update_self ..

@[simp]
theorem advance_state_self
    (network : Network Party ε σ α) (party : Party)
    (later : Process Party ε (σ party) (α party)) (final : σ party)
    (inputs outputs : Traffic Party)
    (available : ∀ peer, inputs peer <+: network.unread party peer) :
    (network.advance party later final inputs outputs
      available).state party = final :=
  Function.update_self ..

section Advance

variable {network : Network Party ε σ α} {party other : Party}
variable {later : Process Party ε (σ party) (α party)} {final : σ party}
variable {inputs outputs : Traffic Party}
variable {available : ∀ peer, inputs peer <+: network.unread party peer}

theorem advance_process_other (different : other ≠ party) :
    (network.advance party later final inputs outputs
      available).process other = network.process other :=
  Function.update_of_ne different ..

theorem advance_state_other (different : other ≠ party) :
    (network.advance party later final inputs outputs
      available).state other = network.state other :=
  Function.update_of_ne different ..

/-- What a party has sent later. -/
theorem advance_sent_self :
    (network.advance party later final inputs outputs
      available).sent party = (network.sent party).followedBy outputs :=
  Function.update_self ..

theorem advance_sent_other (different : other ≠ party) :
    (network.advance party later final inputs outputs
      available).sent other = network.sent other :=
  Function.update_of_ne different ..

theorem advance_sent (reader peer : Party) :
    (network.advance party later final inputs outputs
      available).sent peer reader =
        network.sent peer reader ++
          if peer = party then outputs reader else [] := by
  by_cases same : peer = party
  · subst same
    rw [advance_sent_self, if_pos rfl]
    rfl
  · rw [advance_sent_other same, if_neg same, List.append_nil]

theorem advance_consumed_self (peer : Party) :
    (network.advance party later final inputs outputs
      available).consumed party peer =
        network.consumed party peer + (inputs peer).length := by
  simp only [advance, Function.update_self]

theorem advance_consumed_other (different : other ≠ party) :
    (network.advance party later final inputs outputs
      available).consumed other = network.consumed other :=
  Function.update_of_ne different ..

variable (later final outputs available) in
/-- A party that reads has that much less to read. -/
theorem advance_unread_self (peer : Party) :
    inputs peer ++
        (network.advance party later final inputs outputs
          available).unread party peer =
      network.unread party peer ++
        if peer = party then outputs party else [] := by
  obtain ⟨rest, split⟩ := available peer
  rw [unread, advance_consumed_self, advance_sent, ← List.drop_drop,
    List.drop_append_of_le_length (network.bounded party peer)]
  change inputs peer ++ (network.unread party peer ++ _).drop _ = _
  rw [← split, List.append_assoc, List.drop_left]

theorem advance_unread_other {peer : Party} (different : other ≠ party) :
    (network.advance party later final inputs outputs
        available).unread other peer =
      network.unread other peer ++
        if peer = party then outputs other else [] := by
  rw [unread, advance_consumed_other different, advance_sent,
    List.drop_append_of_le_length (network.bounded other peer)]
  rfl

theorem advance_received_self (peer : Party) :
    (network.advance party later final inputs outputs
        available).received party peer =
      network.received party peer ++ inputs peer := by
  obtain ⟨rest, split⟩ := available peer
  have whole :
      network.sent peer party =
        network.received party peer ++ (inputs peer ++ rest) := by
    rw [split]
    exact (List.take_append_drop _ _).symm
  have readLength :
      (network.received party peer).length =
        network.consumed party peer :=
    List.length_take_of_le (network.bounded party peer)
  rw [received, advance_consumed_self, advance_sent, whole,
    ← List.append_assoc, List.append_assoc _ rest, ← readLength,
    ← List.length_append, List.take_left]

theorem advance_received_other
    {peer : Party} (different : other ≠ party) :
    (network.advance party later final inputs outputs
        available).received other peer =
      network.received other peer := by
  rw [received, advance_consumed_other different, advance_sent,
    List.take_append_of_le_length (network.bounded other peer)]
  rfl

theorem advance_view_self :
    (network.advance party later final inputs outputs
        available).view party =
      ⟨final, (network.received party).followedBy inputs,
        (network.sent party).followedBy outputs⟩ := by
  have received : (network.advance party later final inputs outputs
      available).received party =
        (network.received party).followedBy inputs :=
    funext advance_received_self
  rw [view, advance_state_self, received, advance_sent_self]

theorem advance_view_other (different : other ≠ party) :
    (network.advance party later final inputs outputs
        available).view other = network.view other := by
  have received : (network.advance party later final inputs outputs
      available).received other = network.received other :=
    funext fun _ => advance_received_other different
  rw [view, advance_state_other different, received,
    advance_sent_other different]
  rfl

/-- Going on twice. -/
theorem advance_advance
    {middle : Process Party ε (σ party) (α party)} {between : σ party}
    {moreInputs moreOutputs : Traffic Party}
    (first : ∀ peer, inputs peer <+: network.unread party peer)
    (second : ∀ peer, moreInputs peer <+:
      (network.advance party middle between inputs outputs
        first).unread party peer)
    (both : ∀ peer, inputs.followedBy moreInputs peer <+:
      network.unread party peer) :
    (network.advance party middle between inputs outputs first).advance
        party later final moreInputs moreOutputs second =
      network.advance party later final (inputs.followedBy moreInputs)
        (outputs.followedBy moreOutputs) both := by
  ext other : 2
  · simp only [advance, Function.update_idem]
  · simp only [advance, Function.update_idem]
  · simp only [advance, Function.update_idem, Function.update_self,
      followedBy_assoc]
  · simp only [advance, Function.update_idem, Function.update_self,
      followedBy_apply, List.length_append, Nat.add_assoc]

end Advance

/-! ## Reliable channels -/

/-- The step of one party, if it can go on. -/
def step (party : Party) (network : Network Party ε σ α) :
    Option (Network Party ε σ α) :=
  match network.process party with
  | .done _ => none
  | .failed _ => none
  | .outOfFuel => none
  | .update change next =>
      some (network.advance party (next (network.state party))
        (change (network.state party)) silence silence
        (network.silence_prefix party))
  | .put peer byte next _ =>
      some (network.advance party next (network.state party) silence
        (only peer [byte]) (network.silence_prefix party))
  | .get peer next _ =>
      match arrived : network.unread party peer with
      | [] => none
      | byte :: rest =>
          some (network.advance party (next byte) (network.state party)
            (only peer [byte]) silence fun other => by
              by_cases same : other = peer
              · subst same
                rw [only_self, arrived]
                exact ⟨rest, rfl⟩
              · rw [only_other same]
                exact List.nil_prefix)

/-- A move of one party for which everything has arrived is its step. -/
theorem step_of_moves
    {network : Network Party ε σ α} {party : Party}
    {later : Process Party ε (σ party) (α party)} {final : σ party}
    {inputs outputs : Traffic Party}
    (moves : Moves (network.process party) (network.state party) later
      final inputs outputs)
    (available : ∀ peer, inputs peer <+: network.unread party peer) :
    step party network =
      some (network.advance party later final inputs outputs
        available) := by
  generalize process : network.process party = current at moves
  generalize state : network.state party = start at moves
  cases moves with
  | update change next =>
      simp only [step, process, state]
  | put peer byte next lost =>
      simp only [step, process, state]
  | get peer next lost byte =>
      have arrived := available peer
      rw [only_self] at arrived
      simp only [step, process]
      split
      · next nothing =>
          rw [nothing] at arrived
          simp at arrived
      · next first rest some =>
          rw [some, List.cons_prefix_cons] at arrived
          obtain ⟨rfl, -⟩ := arrived
          simp only [state]

/-- What a step is. -/
theorem moves_of_step
    {network next : Network Party ε σ α} {party : Party}
    (taken : step party network = some next) :
    ∃ later final inputs outputs,
      ∃ available : ∀ peer, inputs peer <+: network.unread party peer,
        Moves (network.process party) (network.state party) later final
          inputs outputs ∧
        next = network.advance party later final inputs outputs
          available := by
  unfold step at taken
  split at taken
  · cases taken
  · cases taken
  · cases taken
  · next change rest process =>
      cases taken
      rw [process]
      exact ⟨_, _, _, _, _, .update change rest _, rfl⟩
  · next peer byte rest lost process =>
      cases taken
      rw [process]
      exact ⟨_, _, _, _, _, .put peer byte rest lost _, rfl⟩
  · next peer rest lost process =>
      split at taken
      · cases taken
      · next byte others arrived =>
          cases taken
          rw [process]
          exact ⟨_, _, _, _, _, .get peer rest lost byte _, rfl⟩

/-- Steps of different parties commute. -/
theorem step_commutes :
    Commutes (step : Party → Network Party ε σ α → Option _) := by
  intro first second start left right different toLeft toRight
  obtain ⟨later, final, inputs, outputs, available, moves, rfl⟩ :=
    moves_of_step toLeft
  obtain ⟨otherLater, otherFinal, otherInputs, otherOutputs,
    otherAvailable, otherMoves, rfl⟩ := moves_of_step toRight
  have stillAvailable : ∀ peer, otherInputs peer <+:
      (start.advance first later final inputs outputs
        available).unread second peer := by
    intro peer
    rw [advance_unread_other different.symm]
    exact (otherAvailable peer).trans (List.prefix_append _ _)
  have alsoAvailable : ∀ peer, inputs peer <+:
      (start.advance second otherLater otherFinal otherInputs otherOutputs
        otherAvailable).unread first peer := by
    intro peer
    rw [advance_unread_other different]
    exact (available peer).trans (List.prefix_append _ _)
  refine ⟨_, step_of_moves (by
      rwa [advance_process_other different.symm,
        advance_state_other different.symm]) stillAvailable, ?_⟩
  rw [step_of_moves (by
      rwa [advance_process_other different,
        advance_state_other different]) alsoAvailable]
  refine congrArg some (Network.ext ?_ ?_ ?_ ?_)
  · exact Function.update_comm different.symm _ _ _
  · exact Function.update_comm different.symm _ _ _
  · simp only [advance, Function.update_of_ne different,
      Function.update_of_ne different.symm]
    exact Function.update_comm different.symm _ _ _
  · simp only [advance, Function.update_of_ne different,
      Function.update_of_ne different.symm]
    exact Function.update_comm different.symm _ _ _

theorem advance_rest
    (network : Network Party ε σ α) (party : Party)
    (available : ∀ peer, silence peer <+: network.unread party peer) :
    network.advance party (network.process party) (network.state party)
      silence silence available = network := by
  ext other : 2 <;> simp [advance]

/-- Nothing that was read is forgotten. -/
theorem prefix_received_of_reaches
    {network later : Network Party ε σ α}
    (reaches : Reaches step network later)
    (party peer : Party) :
    network.received party peer <+: later.received party peer := by
  have grows : ∀ (acting : Party) (before after : Network Party ε σ α),
      step acting before = some after →
      network.received party peer <+: before.received party peer →
      network.received party peer <+: after.received party peer := by
    intro acting before after taken isPrefix
    rcases moves_of_step taken with
      ⟨_, _, inputs, _, available, -, rfl⟩
    by_cases same : party = acting
    · subst same
      rw [advance_received_self]
      exact isPrefix.trans (List.prefix_append _ _)
    · rw [advance_received_other same]
      exact isPrefix
  exact reaches.preserves grows List.prefix_rfl

/-- The steps of the others leave the state of a party as it is. -/
theorem state_of_follow
    {party : Party} {schedule : List Party}
    {network later : Network Party ε σ α}
    (absent : party ∉ schedule)
    (follows : follow step schedule network = some later) :
    later.state party = network.state party := by
  induction schedule generalizing network with
  | nil =>
      cases follows
      rfl
  | cons acting rest inductionHypothesis =>
      rw [List.mem_cons, not_or] at absent
      rcases Option.bind_eq_some_iff.1 follows with ⟨next, taken, follows⟩
      rcases moves_of_step taken with ⟨_, _, _, _, available, -, rfl⟩
      rw [inductionHypothesis absent.2 follows, advance_state_other absent.1]

/-- A move and what the party can do after it. -/
theorem reaches_of_moves
    {network : Network Party ε σ α} {party : Party}
    {middle later : Process Party ε (σ party) (α party)}
    {between final : σ party}
    {inputs outputs moreInputs moreOutputs : Traffic Party}
    (moves : Moves (network.process party) (network.state party) middle
      between inputs outputs)
    (both : ∀ peer, inputs.followedBy moreInputs peer <+:
      network.unread party peer)
    (rest : ∀ first second, Reaches step
      (network.advance party middle between inputs outputs first)
      ((network.advance party middle between inputs outputs first).advance
        party later final moreInputs moreOutputs second)) :
    Reaches step network
      (network.advance party later final (inputs.followedBy moreInputs)
        (outputs.followedBy moreOutputs) both) := by
  have first : ∀ peer, inputs peer <+: network.unread party peer :=
    fun peer => (List.prefix_append _ _).trans (both peer)
  have second : ∀ peer, moreInputs peer <+:
      (network.advance party middle between inputs outputs
        first).unread party peer := by
    intro peer
    have longer :=
      (both peer).trans (List.prefix_append _
        (if peer = party then outputs party else []))
    have left := advance_unread_self middle between outputs first peer
    rw [← left, followedBy_apply, List.prefix_append_right_inj] at longer
    exact longer
  rw [← advance_advance first second both]
  exact (Reaches.single (step_of_moves moves first)).trans
    (rest first second)

/-- What a party plays with what has arrived, the network can do. -/
theorem reaches_of_plays
    {network : Network Party ε σ α} {party : Party}
    {later : Process Party ε (σ party) (α party)} {final : σ party}
    {inputs outputs : Traffic Party}
    (plays : Plays (network.process party) (network.state party) inputs
      outputs later final)
    (available : ∀ peer, inputs peer <+: network.unread party peer) :
    Reaches step network
      (network.advance party later final inputs outputs available) := by
  generalize process : network.process party = current at plays
  generalize state : network.state party = start at plays
  induction plays generalizing network with
  | rest =>
      subst process state
      rw [advance_rest]
      exact Reaches.refl network
  | @update change next start final inputs outputs later _
      inductionHypothesis =>
      have moves : Moves (network.process party) (network.state party)
          (next start) (change start) silence silence := by
        rw [process, state]
        exact .update change next start
      exact reaches_of_moves moves available fun first second =>
        inductionHypothesis second (by simp) (by simp)
  | @put peer byte next lost start final inputs outputs later _
      inductionHypothesis =>
      have moves : Moves (network.process party) (network.state party)
          next start silence (only peer [byte]) := by
        rw [process, state]
        exact .put peer byte next lost start
      exact reaches_of_moves moves available fun first second =>
        inductionHypothesis second (by simp) (by simp)
  | @get peer next lost byte start final inputs outputs later _
      inductionHypothesis =>
      have moves : Moves (network.process party) (network.state party)
          (next byte) start (only peer [byte]) silence := by
        rw [process, state]
        exact .get peer next lost byte start
      exact reaches_of_moves moves available fun first second =>
        inductionHypothesis second (by simp) (by simp)

/--
A single channel holds bytes: those that the peer has sent to the party,
whose turn it is.
-/
def Turn (network : Network Party ε σ α) (party peer : Party)
    (bytes : List UInt8) : Prop :=
  ∀ reader,
    network.unread reader = if reader = party then only peer bytes else silence

/-- A party that reads all there is hands the turn to another one. -/
theorem reaches_next_turn
    {network : Network Party ε σ α} {party peer : Party}
    {bytes : List UInt8}
    (turn : network.Turn party peer bytes)
    {process later : Process Party ε (σ party) (α party)}
    {state final : σ party}
    (current : network.process party = process)
    (start : network.state party = state)
    {next : Party} {answer : List UInt8}
    (plays : Plays process state (only peer bytes) (only next answer)
      later final)
    (different : next ≠ party) :
    ∃ following,
      Reaches step network following ∧
      following.process = Function.update network.process party later ∧
      following.state = Function.update network.state party final ∧
      following.sent = Function.update network.sent party
        ((network.sent party).followedBy (only next answer)) ∧
      following.Turn next party answer := by
  subst current start
  have available : ∀ other, only peer bytes other <+:
      network.unread party other := by
    intro other
    have whole : network.unread party other = only peer bytes other := by
      rw [turn party, if_pos rfl]
    exact whole ▸ List.prefix_rfl
  refine ⟨_, reaches_of_plays plays available, rfl, rfl, rfl, ?_⟩
  intro reader
  funext other
  by_cases self : reader = party
  · subst self
    have left := advance_unread_self later final (only next answer)
      available other
    rw [turn reader, if_pos rfl, only_other different.symm, ite_self,
      List.append_cancel_left_eq] at left
    rw [left, if_neg different.symm]
    rfl
  · rw [advance_unread_other self, turn reader, if_neg self]
    by_cases reads : reader = next
    · subst reads
      rw [only_self, if_pos rfl]
      rfl
    · rw [only_other reads, ite_self, if_neg reads]
      rfl

/-- When nothing is on its way, the turn can be anybody's. -/
theorem Turn.of_nothing
    {network : Network Party ε σ α} {party peer : Party}
    (turn : network.Turn party peer [])
    (otherParty otherPeer : Party) :
    network.Turn otherParty otherPeer [] := by
  intro reader
  rw [turn reader, only_nil, only_nil, ite_self, ite_self]

/-! ## Connections that get lost -/

/-- A step of one party that may find a connection lost. -/
def LossyStep (party : Party) (network next : Network Party ε σ α) :
    Prop :=
  (∃ later final inputs outputs,
    ∃ available : ∀ peer, inputs peer <+: network.unread party peer,
      Moves (network.process party) (network.state party) later final
        inputs outputs ∧
      next = network.advance party later final inputs outputs available) ∨
  ∃ later, Loses (network.process party) later ∧
    next = network.advance party later (network.state party) silence
      silence (network.silence_prefix party)

/-- What a network can come to when connections may get lost. -/
def LossyRun (start : Network Party ε σ α) :
    Network Party ε σ α → Prop :=
  Relation.ReflTransGen
    (fun network next => ∃ party, LossyStep party network next) start

/-- Every step of any party leaves what a process ensures in place. -/
theorem ensures_of_lossyStep
    (party : Party) {acting : Party} {network next : Network Party ε σ α}
    {rely always : Local Party (σ party) → Prop}
    {after : α party → Local Party (σ party) → Prop}
    {failing : ε → Local Party (σ party) → Prop}
    (taken : LossyStep acting network next)
    (relies : rely (network.view party))
    (ensures : Ensures rely always after failing (network.process party)
      (network.view party)) :
    Ensures rely always after failing (next.process party)
      (next.view party) := by
  by_cases same : party = acting
  · subst same
    rcases taken with
      ⟨later, final, inputs, outputs, available, moves, rfl⟩ |
        ⟨later, loses, rfl⟩
    · rw [advance_process_self, advance_view_self]
      exact ensures.of_moves relies moves
    · rw [advance_process_self, advance_view_self, followedBy_silence,
        followedBy_silence]
      exact ensures.of_loses relies loses
  · rcases taken with
      ⟨later, final, inputs, outputs, available, moves, rfl⟩ |
        ⟨later, loses, rfl⟩
    · rwa [advance_process_other same, advance_view_other same]
    · rwa [advance_process_other same, advance_view_other same]

/-- Every run leaves in place what a process ensures against all peers. -/
theorem ensures_of_lossyRun
    (party : Party) {start network : Network Party ε σ α}
    {always : Local Party (σ party) → Prop}
    {after : α party → Local Party (σ party) → Prop}
    {failing : ε → Local Party (σ party) → Prop}
    (run : LossyRun start network)
    (ensures : Ensures (fun _ => True) always after failing
      (start.process party) (start.view party)) :
    Ensures (fun _ => True) always after failing (network.process party)
      (network.view party) := by
  induction run with
  | refl => exact ensures
  | tail _ taken inductionHypothesis =>
      rcases taken with ⟨acting, taken⟩
      exact ensures_of_lossyStep party taken trivial inductionHypothesis

/-- A reliable step is one that may be taken when connections get lost. -/
theorem LossyStep.of_step
    {party : Party} {network next : Network Party ε σ α}
    (taken : step party network = some next) :
    LossyStep party network next :=
  Or.inl (moves_of_step taken)

theorem lossyRun_of_reaches
    {start final : Network Party ε σ α}
    (reaches : Reaches step start final) :
    LossyRun start final := by
  have keeps : ∀ (party : Party) (network next : Network Party ε σ α),
      step party network = some next →
      LossyRun start network → LossyRun start next := by
    intro party network next taken run
    exact run.tail ⟨party, .of_step taken⟩
  exact reaches.preserves keeps .refl

end Network

end DropFile.General.Networks
