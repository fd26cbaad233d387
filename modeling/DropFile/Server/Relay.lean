import DropFile.ContentLoops

/-!
# The relay loop

Whatever frames a sender cuts its bytes into, the receiver gets exactly the
announced number of them, in frames that it accepts, and the server reads no
frame that it does not need.
-/

namespace DropFile.Server.Relay

open DropFile.General.Processes.Process
open DropFile.Streams
open DropFile.Socket
open DropFile.JsonObjects
open DropFile.ContentLoops
open DropFile.Server.SessionsManager
open DropFile.Server.ServerSideClientSession

variable {Peer : Type} [DecidableEq Peer]
variable {receiver sender : Peer} {expectedBytes : Nat}
variable {state : SendersSessions Peer Json}

/-! ## One pass -/

/-- The frames in which a frame of the sender is passed on. -/
def passedOn (leftToTransfer : Nat) (data : Bytes) : List Bytes :=
  chunks (data.take (min leftToTransfer data.length))

theorem relayPass_plays
    {totalReceivedBytes : Nat} {data : Bytes}
    (expectedFits : expectedBytes < sizeModulus)
    (unfinished : totalReceivedBytes < expectedBytes)
    (accepted : data.length ≤ bufferSize) :
    Plays (relayPass receiver sender expectedBytes totalReceivedBytes)
      state (only sender (frame data))
      (only receiver
        (frames (passedOn (expectedBytes - totalReceivedBytes) data)))
      (.done (.inl (totalReceivedBytes +
        min (expectedBytes - totalReceivedBytes) data.length)))
      state :=
  contentPass_plays sender expectedFits unfinished accepted
    (send_plays receiver _)

/-- What is passed on of a frame is at most one frame. -/
theorem passedOn_eq
    (leftToTransfer : Nat) {data : Bytes}
    (accepted : data.length ≤ bufferSize) :
    passedOn leftToTransfer data = [] ∧
        data.take (min leftToTransfer data.length) = [] ∨
      passedOn leftToTransfer data =
        [data.take (min leftToTransfer data.length)] ∧
        1 ≤ (data.take (min leftToTransfer data.length)).length ∧
        (data.take (min leftToTransfer data.length)).length ≤
          bufferSize := by
  have fits :
      (data.take (min leftToTransfer data.length)).length ≤ bufferSize :=
    (List.length_take_le' _ _).trans accepted
  by_cases nothing : data.take (min leftToTransfer data.length) = []
  · left
    exact ⟨by rw [passedOn, nothing, chunks_nil], nothing⟩
  · right
    exact ⟨chunks_of_le nothing fits, List.length_pos_iff.2 nothing, fits⟩

/-! ## The loop -/

/-- What the loop does from some total on. -/
structure Relays (receiver sender : Peer)
    (expectedBytes fuel totalReceivedBytes : Nat)
    (state : SendersSessions Peer Json)
    (senderFrames used emitted : List Bytes) : Prop where
  consumed : used <+: senderFrames
  plays :
    Plays (relay receiver sender expectedBytes fuel totalReceivedBytes)
      state (only sender (frames used)) (only receiver (frames emitted))
      (.done ()) state
  content :
    emitted.flatten =
      senderFrames.flatten.take (expectedBytes - totalReceivedBytes)
  accepted : ∀ data ∈ emitted, 1 ≤ data.length ∧ data.length ≤ bufferSize
  needed : ∀ before last, used = before ++ [last] →
    totalReceivedBytes + before.flatten.length < expectedBytes

theorem relays_of_finished
    (fuel : Nat) (senderFrames : List Bytes) :
    Relays receiver sender expectedBytes (fuel + 1) expectedBytes state
      senderFrames [] [] where
  consumed := List.nil_prefix
  plays := by
    rw [frames_nil, only_nil, only_nil]
    exact .loop_leave contentPass_leaves
  content := by rw [Nat.sub_self, List.take_zero, List.flatten_nil]
  accepted data member := by cases member
  needed before last split := by simp at split

theorem Relays.cons
    {fuel totalReceivedBytes : Nat} {data : Bytes}
    {senderFrames used emitted : List Bytes}
    (expectedFits : expectedBytes < sizeModulus)
    (unfinished : totalReceivedBytes < expectedBytes)
    (dataAccepted : data.length ≤ bufferSize)
    (rest : Relays receiver sender expectedBytes fuel
      (totalReceivedBytes +
        min (expectedBytes - totalReceivedBytes) data.length)
      state senderFrames used emitted) :
    Relays receiver sender expectedBytes (fuel + 1) totalReceivedBytes state
      (data :: senderFrames) (data :: used)
      (passedOn (expectedBytes - totalReceivedBytes) data ++ emitted) where
  consumed := List.cons_prefix_cons.2 ⟨rfl, rest.consumed⟩
  plays := by
    refine .loop_again
      (relayPass_plays expectedFits unfinished dataAccepted) rest.plays ?_
      ?_
    · rw [only_followedBy_only, frames_cons]
    · rw [only_followedBy_only, frames_append]
  content := by
    have whole :
        (passedOn (expectedBytes - totalReceivedBytes) data).flatten =
          data.take (expectedBytes - totalReceivedBytes) := by
      rw [List.take_eq_take_min]
      rcases passedOn_eq (expectedBytes - totalReceivedBytes)
        dataAccepted with ⟨nothing, empty⟩ | ⟨single, -⟩
      · rw [nothing, empty, List.flatten_nil]
      · rw [single, List.flatten_singleton]
    rw [List.flatten_append, whole, rest.content, List.flatten_cons,
      List.take_append]
    congr 2
    omega
  accepted piece member := by
    rcases List.mem_append.1 member with first | later
    · rcases passedOn_eq (expectedBytes - totalReceivedBytes)
        dataAccepted with ⟨nothing, -⟩ | ⟨single, fits⟩
      · rw [nothing] at first
        cases first
      · rw [single, List.mem_singleton] at first
        rwa [first]
    · exact rest.accepted piece later
  needed before last split := by
    cases before with
    | nil => simpa using unfinished
    | cons first before =>
        rw [List.cons_append, List.cons.injEq] at split
        obtain ⟨rfl, split⟩ := split
        have more := rest.needed before last split
        rw [List.flatten_cons, List.length_append]
        omega

/-- With enough bytes of the sender the loop comes to its end. -/
theorem exists_relays
    (receiver sender : Peer) (state : SendersSessions Peer Json)
    {senderFrames : List Bytes} {fuel totalReceivedBytes : Nat}
    (expectedFits : expectedBytes < sizeModulus)
    (senderAccepted : ∀ data ∈ senderFrames, data.length ≤ bufferSize)
    (started : totalReceivedBytes ≤ expectedBytes)
    (enough : expectedBytes ≤
      totalReceivedBytes + senderFrames.flatten.length)
    (fuelEnough : senderFrames.length < fuel) :
    ∃ used emitted, Relays receiver sender expectedBytes fuel
      totalReceivedBytes state senderFrames used emitted := by
  induction senderFrames generalizing fuel totalReceivedBytes with
  | nil =>
      obtain ⟨fuel, rfl⟩ : ∃ previous, fuel = previous + 1 :=
        ⟨fuel - 1, by omega⟩
      obtain rfl : totalReceivedBytes = expectedBytes := by
        rw [List.flatten_nil, List.length_nil] at enough
        omega
      exact ⟨[], [], relays_of_finished fuel []⟩
  | cons data rest inductionHypothesis =>
      obtain ⟨fuel, rfl⟩ : ∃ previous, fuel = previous + 1 :=
        ⟨fuel - 1, by omega⟩
      rcases Nat.lt_or_eq_of_le started with unfinished | rfl
      · rw [List.flatten_cons, List.length_append] at enough
        obtain ⟨used, emitted, relays⟩ := @inductionHypothesis fuel
          (totalReceivedBytes +
            min (expectedBytes - totalReceivedBytes) data.length)
          (fun piece member =>
            senderAccepted piece (List.mem_cons_of_mem _ member))
          (by omega) (by omega)
          (Nat.lt_of_succ_lt_succ fuelEnough)
        exact ⟨_, _, relays.cons expectedFits unfinished
          (senderAccepted data List.mem_cons_self)⟩
      · exact ⟨[], [], relays_of_finished fuel _⟩

/-! ## The counter -/

/-- Whatever the clients do, a pass does not count beyond the end. -/
theorem relayPass_ensures
    (moment : Local Peer (SendersSessions Peer Json))
    {totalReceivedBytes : Nat}
    (expectedFits : expectedBytes < sizeModulus)
    (started : totalReceivedBytes ≤ expectedBytes) :
    Ensures (fun _ => True) (fun _ => True)
      (fun exit _ => ∀ next, exit = .inl next → next ≤ expectedBytes)
      (fun _ _ => True)
      (relayPass receiver sender expectedBytes totalReceivedBytes)
      moment := by
  rw [relayPass]
  by_cases unfinished : totalReceivedBytes < expectedBytes
  · rw [if_pos unfinished, sizeSub_of_le started]
    refine ((receive_ensures sender (fun _ _ => trivial)
      (fun _ _ _ _ _ => trivial)).weaken
        (fun _ _ _ _ read => read) (fun _ _ _ _ _ => trivial)).bind ?_
    rintro data - - - -
    refine ((send_ensures receiver _ (fun _ _ => trivial)).weaken
      (fun _ _ _ _ sent => sent) (fun _ _ _ _ _ => trivial)).bind ?_
    rintro - - - - -
    refine .pure trivial ?_
    rintro next same
    obtain rfl := Sum.inl.inj same
    rw [sizeAdd_of_lt (by omega)]
    omega
  · rw [if_neg unfinished]
    exact .pure trivial nofun

theorem le_of_passReached
    {fuel totalReceivedBytes last : Nat}
    {final : SendersSessions Peer Json}
    (expectedFits : expectedBytes < sizeModulus)
    (reached :
      PassReached (fun _ => relayPass receiver sender expectedBytes) fuel
        totalReceivedBytes state last final)
    (started : totalReceivedBytes ≤ expectedBytes) :
    last ≤ expectedBytes := by
  induction reached with
  | first => exact started
  | @next _ current next _ state between _ _ _ plays _
      inductionHypothesis =>
      have ensured :=
        (relayPass_ensures ⟨state, silence, silence⟩ expectedFits
          started).of_plays plays
      exact inductionHypothesis ((ensured trivial).2 next rfl)

/-! ## The transfer -/

theorem frames_prefix
    {used senderFrames : List Bytes}
    (consumed : used <+: senderFrames) :
    frames used <+: frames senderFrames := by
  obtain ⟨rest, rfl⟩ := consumed
  rw [frames_append]
  exact List.prefix_append _ _

/--
The loop reads only the frames of the sender that it needs and passes on
exactly the announced bytes in frames that the receiver accepts; this is the
only way in which it can end, and its subtraction never wraps around.
-/
theorem relay_transfers
    (receiver sender : Peer) (expectedBytes fuel : Nat)
    (state : SendersSessions Peer Json) (senderFrames : List Bytes)
    (expectedFits : expectedBytes < sizeModulus)
    (senderAccepted : ∀ data ∈ senderFrames, data.length ≤ bufferSize)
    (enough : expectedBytes ≤ senderFrames.flatten.length)
    (fuelEnough : senderFrames.length < fuel) :
    (∃ used emitted,
      Relays receiver sender expectedBytes fuel 0 state senderFrames used
        emitted ∧
      ∀ inputs outputs final,
        (∀ peer, inputs peer <+:
          only sender (frames senderFrames) peer) →
        Plays (relay receiver sender expectedBytes fuel 0) state inputs
          outputs (.done ()) final →
        inputs = only sender (frames used) ∧
          outputs = only receiver (frames emitted)) ∧
    ∀ totalReceivedBytes final,
      PassReached (fun _ => relayPass receiver sender expectedBytes) fuel 0
        state totalReceivedBytes final →
      totalReceivedBytes ≤ expectedBytes := by
  refine ⟨?_, fun _ _ reached =>
    le_of_passReached expectedFits reached (Nat.zero_le _)⟩
  obtain ⟨used, emitted, relays⟩ := exists_relays receiver sender state
    expectedFits senderAccepted (Nat.zero_le _) (by omega) fuelEnough
  refine ⟨used, emitted, relays, ?_⟩
  intro inputs outputs final available plays
  have needed : ∀ peer, only sender (frames used) peer <+:
      only sender (frames senderFrames) peer := by
    intro peer
    by_cases same : peer = sender
    · subst same
      rw [only_self, only_self]
      exact frames_prefix relays.consumed
    · rw [only_other same]
      exact List.nil_prefix
  obtain ⟨sameInputs, sameOutputs, -, -⟩ :=
    relays.plays.deterministic _ plays needed available
  exact ⟨sameInputs, sameOutputs⟩

/-- A sender whose second frame overshoots, and who sends one more. -/
theorem relay_transfers_overshooting :
    ∃ used emitted,
      Relays true false 3 4 0 ∅ [[1, 2], [3, 4], [5]] used emitted := by
  obtain ⟨⟨used, emitted, relays, -⟩, -⟩ :=
    relay_transfers true false 3 4 ∅ [[1, 2], [3, 4], [5]] (by decide)
      (by decide) (by decide) (by decide)
  exact ⟨used, emitted, relays⟩

end DropFile.Server.Relay
