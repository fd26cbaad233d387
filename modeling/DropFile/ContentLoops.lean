import DropFile.Client.DropFileReceiveClient
import DropFile.Framing
import DropFile.Server.ServerSideClientSession

/-!
# The two content loops

The server relays and the receiver writes what a peer sends, until the
announced number of bytes has come.  The two loops differ only in what they do
with the bytes, so they are treated as one.  A frame may be empty, and an empty
frame does not bring a loop any closer to its end.
-/

namespace DropFile.ContentLoops

open DropFile.General.Processes
open DropFile.General.Processes.Process
open DropFile.General.Files
open DropFile.Streams
open DropFile.Socket
open DropFile.Framing
open DropFile.JsonObjects
open DropFile.Server.SessionsManager
open DropFile.Server.ServerSideClientSession
open DropFile.Client.DropFileReceiveClient

variable {Peer σ : Type}

/-- One pass; `handOn` gets what is still expected of the next frame. -/
def contentPass (peer : Peer) (handOn : Bytes → SocketProcess Peer σ Unit)
    (expectedBytes totalBytes : Nat) :
    SocketProcess Peer σ (Nat ⊕ Unit) := do
  if totalBytes < expectedBytes then
    let data ← receive peer
    let leftToTransfer := sizeSub expectedBytes totalBytes
    let size := min leftToTransfer data.length
    handOn (data.take size)
    pure (.inl (sizeAdd totalBytes size))
  else
    pure (.inr ())

def contentLoop (peer : Peer) (handOn : Bytes → SocketProcess Peer σ Unit)
    (expectedBytes fuel : Nat) : Nat → SocketProcess Peer σ Unit :=
  Process.loop (fun _ => contentPass peer handOn expectedBytes) fuel

theorem relay_eq (receiver sender : Peer) (expectedBytes fuel : Nat) :
    relay receiver sender expectedBytes fuel =
      contentLoop sender (send receiver) expectedBytes fuel :=
  rfl

theorem receiveContent_eq (server : Peer) (expectedBytes fuel : Nat) :
    receiveContent server expectedBytes fuel =
      contentLoop server
        (fun bytes => modifyState (Receiving.write bytes)) expectedBytes
        fuel :=
  rfl

/-! ## Frames that are there -/

/-- Each piece brings at least one byte. -/
theorem length_le_flatten
    {pieces : List Bytes}
    (filled : ∀ piece ∈ pieces, piece ≠ []) :
    pieces.length ≤ pieces.flatten.length := by
  induction pieces with
  | nil => exact Nat.le_refl 0
  | cons piece rest inductionHypothesis =>
      rw [List.forall_mem_cons] at filled
      have positive := List.length_pos_iff.2 filled.1
      have others := inductionHypothesis filled.2
      rw [List.length_cons, List.flatten_cons, List.length_append]
      omega

theorem lt_of_pieces
    {content : Bytes} {pieces : List Bytes} {fuel : Nat}
    (filled : ∀ piece ∈ pieces, piece ≠ [])
    (whole : pieces.flatten = content)
    (enough : content.length < fuel) :
    pieces.length < fuel :=
  Nat.lt_of_le_of_lt (whole ▸ length_le_flatten filled) enough

/-- What is given out for several contents. -/
def allOutputs (outputs : Bytes → Traffic Peer) :
    List Bytes → Traffic Peer
  | [] => silence
  | content :: rest => (outputs content).followedBy (allOutputs outputs rest)

theorem allOutputs_silence (contents : List Bytes) :
    allOutputs (fun _ => (silence : Traffic Peer)) contents = silence := by
  induction contents with
  | nil => rfl
  | cons content rest inductionHypothesis =>
      rw [allOutputs, inductionHypothesis, silence_followedBy]

section Playing

variable [DecidableEq Peer]
variable {peer : Peer} {handOn : Bytes → SocketProcess Peer σ Unit}
variable {expectedBytes : Nat}

variable (peer) in
theorem contentPass_plays
    {totalBytes : Nat} {data : Bytes} {state later : σ}
    {outputs : Traffic Peer}
    (expectedFits : expectedBytes < sizeModulus)
    (unfinished : totalBytes < expectedBytes)
    (accepted : data.length ≤ bufferSize)
    (hands : Plays
      (handOn (data.take (min (expectedBytes - totalBytes) data.length)))
      state silence outputs (.done ()) later) :
    Plays (contentPass peer handOn expectedBytes totalBytes) state
      (only peer (frame data)) outputs
      (.done (.inl
        (totalBytes + min (expectedBytes - totalBytes) data.length)))
      later := by
  have left : sizeSub expectedBytes totalBytes =
      expectedBytes - totalBytes :=
    sizeSub_of_le (Nat.le_of_lt unfinished)
  have total : sizeAdd totalBytes
      (min (expectedBytes - totalBytes) data.length) =
        totalBytes + min (expectedBytes - totalBytes) data.length :=
    sizeAdd_of_lt (by omega)
  rw [contentPass, if_pos unfinished]
  refine (receive_plays peer accepted).andThen
    (?_ : Plays _ _ silence outputs _ _)
  rw [left]
  apply hands.andThen_eq
  rw [total]
  rfl

theorem contentPass_leaves {state : σ} :
    Plays (contentPass peer handOn expectedBytes expectedBytes) state
      silence silence (.done (.inr ())) state := by
  rw [contentPass, if_neg (Nat.lt_irrefl expectedBytes)]
  exact .rest _ _

theorem allOutputs_frame (receiver : Peer) (contents : List Bytes) :
    allOutputs (fun content => only receiver (frame content)) contents =
      only receiver (frames contents) := by
  induction contents with
  | nil => rw [allOutputs, frames_nil, only_nil]
  | cons content rest inductionHypothesis =>
      rw [allOutputs, inductionHypothesis, only_followedBy_only,
        frames_cons]

variable (peer) in
/-- Frames that bring exactly what is expected are all handed on. -/
theorem contentLoop_plays
    {outputs : Bytes → Traffic Peer} {change : Bytes → σ → σ}
    (hands : ∀ content, content ≠ [] → content.length ≤ bufferSize →
      ∀ state, Plays (handOn content) state silence (outputs content)
        (.done ()) (change content state))
    (expectedFits : expectedBytes < sizeModulus)
    {contents : List Bytes} {fuel totalBytes : Nat} (state : σ)
    (nonempty : ∀ content ∈ contents, content ≠ [])
    (accepted : ∀ content ∈ contents, content.length ≤ bufferSize)
    (whole : totalBytes + contents.flatten.length = expectedBytes)
    (fuelEnough : contents.length < fuel) :
    Plays (contentLoop peer handOn expectedBytes fuel totalBytes) state
      (only peer (frames contents)) (allOutputs outputs contents) (.done ())
      (contents.foldl (fun state content => change content state)
        state) := by
  induction contents generalizing state totalBytes fuel with
  | nil =>
      cases fuel with
      | zero => exact absurd fuelEnough (Nat.lt_irrefl 0)
      | succ fuel =>
          subst whole
          rw [frames_nil, only_nil]
          exact .loop_leave contentPass_leaves
  | cons content rest inductionHypothesis =>
      cases fuel with
      | zero => cases fuelEnough
      | succ fuel =>
          rw [List.forall_mem_cons] at nonempty accepted
          rw [List.flatten_cons, List.length_append] at whole
          have positive := List.length_pos_iff.2 nonempty.1
          have size : min (expectedBytes - totalBytes) content.length =
              content.length := by
            omega
          have handed := hands content nonempty.1 accepted.1 state
          have pass := contentPass_plays peer expectedFits
            (by omega : totalBytes < expectedBytes) accepted.1
            (by rw [size, List.take_length]; exact handed)
          rw [size] at pass
          have again := inductionHypothesis (change content state)
            nonempty.2 accepted.2
            (by omega : totalBytes + content.length + rest.flatten.length =
              expectedBytes)
            (Nat.lt_of_succ_lt_succ fuelEnough)
          exact .loop_again pass again
            (by rw [only_followedBy_only, frames_cons]) rfl

/-- What the loop does with frames that bring enough. -/
structure Halts (peer : Peer) (handOn : Bytes → SocketProcess Peer σ Unit)
    (expectedBytes fuel totalBytes : Nat) (state : σ)
    (contents used : List Bytes) (outputs : Traffic Peer)
    (last : SocketProcess Peer σ Unit) (final : σ) : Prop where
  consumed : used <+: contents
  plays : Plays (contentLoop peer handOn expectedBytes fuel totalBytes)
    state (only peer (frames used)) outputs last final
  ended : last = .done () ∨ last = .outOfFuel
  complete : last = .done () →
    expectedBytes ≤ totalBytes + used.flatten.length
  finishes : contents.length < fuel → last = .done ()

theorem Halts.halted
    {fuel totalBytes : Nat} {state final : σ} {contents used : List Bytes}
    {outputs : Traffic Peer} {last : SocketProcess Peer σ Unit}
    (halts : Halts peer handOn expectedBytes fuel totalBytes state contents
      used outputs last final) :
    Halted last := by
  rcases halts.ended with rfl | rfl <;> trivial

variable (peer) in
/-- Whatever the fuel is, the loop halts on frames that bring enough. -/
theorem exists_halts
    (hands : ∀ bytes state, ∃ outputs later,
      Plays (handOn bytes) state silence outputs (.done ()) later)
    (expectedFits : expectedBytes < sizeModulus)
    {contents : List Bytes} {totalBytes : Nat} (fuel : Nat) (state : σ)
    (accepted : ∀ content ∈ contents, content.length ≤ bufferSize)
    (started : totalBytes ≤ expectedBytes)
    (enough : expectedBytes ≤ totalBytes + contents.flatten.length) :
    ∃ used outputs last final,
      Halts peer handOn expectedBytes fuel totalBytes state contents used
        outputs last final := by
  induction fuel generalizing contents totalBytes state with
  | zero =>
      refine ⟨[], silence, .outOfFuel, state, List.nil_prefix, ?_,
        Or.inr rfl, ?_, ?_⟩
      · rw [frames_nil, only_nil]
        exact .rest _ _
      · intro impossible
        cases impossible
      · intro impossible
        exact absurd impossible (Nat.not_lt_zero _)
  | succ fuel inductionHypothesis =>
      rcases Nat.lt_or_eq_of_le started with unfinished | rfl
      · cases contents with
        | nil => exact absurd enough (Nat.not_le.2 unfinished)
        | cons data rest =>
            rw [List.forall_mem_cons] at accepted
            rw [List.flatten_cons, List.length_append] at enough
            rcases hands
                (data.take (min (expectedBytes - totalBytes) data.length))
                state with ⟨handed, between, handing⟩
            have pass := contentPass_plays peer expectedFits unfinished
              accepted.1 handing
            rcases @inductionHypothesis rest
                (totalBytes + min (expectedBytes - totalBytes) data.length)
                between accepted.2 (by omega) (by omega) with
              ⟨used, outputs, last, final, halts⟩
            refine ⟨data :: used, handed.followedBy outputs, last, final,
              List.cons_prefix_cons.2 ⟨rfl, halts.consumed⟩, ?_,
              halts.ended, ?_, ?_⟩
            · exact .loop_again pass halts.plays
                (by rw [only_followedBy_only, frames_cons]) rfl
            · intro done
              have reached := halts.complete done
              rw [List.flatten_cons, List.length_append]
              omega
            · intro fuelEnough
              exact halts.finishes (Nat.lt_of_succ_lt_succ fuelEnough)
      · refine ⟨[], silence, .done (), state, List.nil_prefix, ?_,
          Or.inl rfl, ?_, ?_⟩
        · rw [frames_nil, only_nil]
          exact .loop_leave contentPass_leaves
        · intro _
          exact Nat.le_add_right _ _
        · intro _
          rfl

/-! ## Whatever the peer sends -/

/--
The rule for the loops: `kept` tells where the process stands when these
contents have come, and every content is handed on as far as it is expected.
-/
theorem contentLoop_ensures
    {rely always : Local Peer σ → Prop}
    {failing : Exception → Local Peer σ → Prop}
    (kept : List Bytes → Local Peer σ → Prop)
    (expectedFits : expectedBytes < sizeModulus)
    (arriving : ∀ contents moment part, kept contents moment →
      rely (moment.receives peer part) →
      always (moment.receives peer part))
    (refusing : ∀ contents moment header part, kept contents moment →
      Oversized header → rely (moment.receives peer header) →
      part <+: frames (chunks refusal) →
      always ((moment.receives peer header).sends peer part))
    (notReceived : ∀ contents moment error later, kept contents moment →
      NotReceived peer moment error later → failing error later)
    (hands : ∀ contents data moment, kept contents moment →
      data.length ≤ bufferSize →
      contents.flatten.length < expectedBytes →
      Ensures rely always (fun _ later => kept (contents ++ [data]) later)
        failing
        (handOn (data.take (expectedBytes - contents.flatten.length)))
        (moment.receives peer (frame data)))
    (fuel : Nat) {moment : Local Peer σ}
    (holds : always moment) (start : kept [] moment) :
    Ensures rely always
      (fun _ later => ∃ contents, kept contents later ∧
        expectedBytes ≤ contents.flatten.length)
      failing (contentLoop peer handOn expectedBytes fuel 0) moment := by
  refine Ensures.loop
    (fun total moment => ∃ contents, kept contents moment ∧
      total = min expectedBytes contents.flatten.length) ?_ fuel 0 holds
    ⟨[], start, by simp⟩
  rintro fuel _ moment - holds ⟨contents, isKept, rfl⟩
  rw [contentPass]
  by_cases unfinished : contents.flatten.length < expectedBytes
  · have total : min expectedBytes contents.flatten.length =
        contents.flatten.length :=
      Nat.min_eq_right (Nat.le_of_lt unfinished)
    rw [total, if_pos unfinished, sizeSub_of_le (Nat.le_of_lt unfinished)]
    refine ((receive_ensures peer
      (fun part => arriving contents moment part isKept)
      (fun header part => refusing contents moment header part
        isKept)).weaken (fun _ _ _ _ received => received)
        (fun error later _ _ => notReceived contents moment error later
          isKept)).bind ?_
    rintro data later - - ⟨accepted, rfl⟩
    dsimp only
    rw [← List.take_eq_take_min]
    refine (hands contents data moment isKept accepted unfinished).bind ?_
    intro _ later _ holds isKept
    refine .pure holds ⟨contents ++ [data], isKept, ?_⟩
    rw [List.flatten_append, List.flatten_singleton, List.length_append,
      sizeAdd_of_lt (by omega)]
    omega
  · have total : min expectedBytes contents.flatten.length =
        expectedBytes :=
      Nat.min_eq_left (Nat.not_lt.1 unfinished)
    rw [total, if_neg (Nat.lt_irrefl _)]
    exact .pure holds ⟨contents, isKept, Nat.not_lt.1 unfinished⟩

/-! ## Streams of frames -/

/-- The first frames of a stream. -/
def firstFrames (stream : Nat → Bytes) (count : Nat) : List Bytes :=
  (List.range count).map stream

theorem prefix_firstFrames
    {stream : Nat → Bytes} {count : Nat} {used : List Bytes}
    (isPrefix : used <+: firstFrames stream count) :
    used = firstFrames stream used.length := by
  have shorter := isPrefix.length_le
  rw [firstFrames, List.length_map, List.length_range] at shorter
  have taken := List.prefix_iff_eq_take.1 isPrefix
  rw [firstFrames, ← List.map_take, List.take_range,
    Nat.min_eq_left shorter] at taken
  exact taken

/-- Finitely many frames hold at least the expected bytes. -/
def BringsEnough (stream : Nat → Bytes) (expectedBytes : Nat) : Prop :=
  ∃ count, expectedBytes ≤ (firstFrames stream count).flatten.length

/-- The loop ends, normally or not, after finitely many of the frames. -/
def Exits (loop : Nat → SocketProcess Peer σ Unit) (peer : Peer)
    (state : σ) (stream : Nat → Bytes) : Prop :=
  ∃ fuel count outputs last final,
    Plays (loop fuel) state
      (only peer (frames (firstFrames stream count))) outputs last final ∧
    (last = .done () ∨ ∃ error, last = .failed error)

theorem contentLoop_exits_iff
    (hands : ∀ bytes state, ∃ outputs later,
      Plays (handOn bytes) state silence outputs (.done ()) later)
    (state : σ) {stream : Nat → Bytes}
    (expectedFits : expectedBytes < sizeModulus)
    (accepted : ∀ index, (stream index).length ≤ bufferSize) :
    Exits (fun fuel => contentLoop peer handOn expectedBytes fuel 0) peer
        state stream ↔
      BringsEnough stream expectedBytes := by
  have firstAccepted (count : Nat) :
      ∀ content ∈ firstFrames stream count,
        content.length ≤ bufferSize := by
    intro content member
    rcases List.mem_map.1 member with ⟨index, -, rfl⟩
    exact accepted index
  constructor
  · rintro ⟨fuel, count, outputs, last, final, plays, ended⟩
    refine ⟨count, ?_⟩
    -- frames that do bring enough show how the loop can end
    have moreAccepted : ∀ content ∈ firstFrames stream count ++
        List.replicate expectedBytes [0],
        content.length ≤ bufferSize := by
      intro content member
      rcases List.mem_append.1 member with first | filler
      · exact firstAccepted count content first
      · rw [List.eq_of_mem_replicate filler]
        exact bufferSize_pos
    have moreEnough : expectedBytes ≤ 0 + (firstFrames stream count ++
        List.replicate expectedBytes [0]).flatten.length := by
      simp
    rcases exists_halts peer hands expectedFits fuel state moreAccepted
        (Nat.zero_le _) moreEnough with
      ⟨used, _, other, _, halts⟩
    have halted : Halted last := by
      rcases ended with rfl | ⟨error, rfl⟩ <;> trivial
    rcases halts.plays.deterministic_of_halted _ halts.halted halted plays
        (fun other => only_frames_prefix peer other halts.consumed)
        (fun other => only_frames_prefix peer other
          (List.prefix_append _ _)) with
      ⟨sameInputs, -, rfl, -⟩
    have usedAccepted : ∀ content ∈ used, content.length ≤ bufferSize := by
      intro content member
      exact moreAccepted content (halts.consumed.subset member)
    have sameBytes := congrFun sameInputs peer
    rw [only_self, only_self] at sameBytes
    have same := frames_inj (firstAccepted count) usedAccepted sameBytes
    have done : last = .done () := by
      rcases ended with done | ⟨error, failed⟩
      · exact done
      · rcases halts.ended with done | out
        · exact done
        · cases failed.symm.trans out
    have complete := halts.complete done
    rwa [Nat.zero_add, ← same] at complete
  · rintro ⟨count, enough⟩
    rcases exists_halts peer hands expectedFits (count + 1) state
        (firstAccepted count) (Nat.zero_le _) (by omega) with
      ⟨used, outputs, last, final, halts⟩
    refine ⟨count + 1, used.length, outputs, last, final, ?_,
      Or.inl (halts.finishes ?_)⟩
    · rw [← prefix_firstFrames halts.consumed]
      exact halts.plays
    · simp [firstFrames]

theorem send_hands (receiver : Peer) (bytes : Bytes) (state : σ) :
    ∃ outputs later, Plays (send receiver bytes) state silence outputs
      (.done ()) later :=
  ⟨_, _, send_plays receiver bytes⟩

theorem write_hands (bytes : Bytes) (receiving : Receiving) :
    ∃ outputs later,
      Plays
        (modifyState (Receiving.write bytes) : ReceiverProcess Peer Unit)
        receiving silence outputs (.done ()) later :=
  ⟨_, _, .update (.rest _ _)⟩

/-! ## Progress -/

/-- The loop has read this many frames of the stream and got to this total. -/
inductive Stands (pass : Nat → SocketProcess Peer σ (Nat ⊕ Unit))
    (peer : Peer) (state : σ) (stream : Nat → Bytes) :
    Nat → Nat → σ → Prop where
  | start : Stands pass peer state stream 0 0 state
  | next {count totalBytes next : Nat} {between later : σ}
      {outputs : Traffic Peer} :
      Stands pass peer state stream count totalBytes between →
      Plays (pass totalBytes) between (only peer (frame (stream count)))
        outputs (.done (.inl next)) later →
      Stands pass peer state stream (count + 1) next later

/-- Every frame with which the loop goes on brings it closer to its end. -/
def Advances (pass : Nat → SocketProcess Peer σ (Nat ⊕ Unit))
    (peer : Peer) (state : σ) (stream : Nat → Bytes) : Prop :=
  ∀ count totalBytes next between later outputs,
    Stands pass peer state stream count totalBytes between →
    Plays (pass totalBytes) between (only peer (frame (stream count)))
      outputs (.done (.inl next)) later →
    totalBytes < next

/-- No frame is empty as long as bytes are expected. -/
def NoneEmptyEarly (stream : Nat → Bytes) (expectedBytes : Nat) : Prop :=
  ∀ count, (firstFrames stream count).flatten.length < expectedBytes →
    stream count ≠ []

theorem length_firstFrames_succ (stream : Nat → Bytes) (count : Nat) :
    (firstFrames stream (count + 1)).flatten.length =
      (firstFrames stream count).flatten.length + (stream count).length := by
  simp [firstFrames, List.range_succ]

theorem NoneEmptyEarly.bringsEnough
    {stream : Nat → Bytes}
    (noneEmpty : NoneEmptyEarly stream expectedBytes) :
    BringsEnough stream expectedBytes := by
  have grows (count : Nat) :
      min count expectedBytes ≤
        (firstFrames stream count).flatten.length := by
    induction count with
    | zero => exact (Nat.min_le_left _ _).trans (Nat.zero_le _)
    | succ count inductionHypothesis =>
        rw [length_firstFrames_succ]
        by_cases early :
            (firstFrames stream count).flatten.length < expectedBytes
        · have positive := List.length_pos_iff.2 (noneEmpty count early)
          omega
        · omega
  refine ⟨expectedBytes, ?_⟩
  have enough := grows expectedBytes
  rwa [Nat.min_self] at enough

/-- A pass that goes on has added what was still expected of its frame. -/
theorem contentPass_next
    (hands : ∀ bytes state, ∃ outputs later,
      Plays (handOn bytes) state silence outputs (.done ()) later)
    {totalBytes next : Nat} {data : Bytes} {state later : σ}
    {outputs : Traffic Peer}
    (expectedFits : expectedBytes < sizeModulus)
    (started : totalBytes ≤ expectedBytes)
    (accepted : data.length ≤ bufferSize)
    (passes : Plays (contentPass peer handOn expectedBytes totalBytes) state
      (only peer (frame data)) outputs (.done (.inl next)) later) :
    totalBytes < expectedBytes ∧
      next = totalBytes + min (expectedBytes - totalBytes) data.length := by
  rcases Nat.lt_or_eq_of_le started with unfinished | rfl
  · rcases hands (data.take (min (expectedBytes - totalBytes) data.length))
        state with ⟨handed, between, handing⟩
    have pass := contentPass_plays peer expectedFits unfinished accepted
      handing
    rcases passes.deterministic (only peer (frame data)) pass
        (fun _ => List.prefix_rfl) (fun _ => List.prefix_rfl) with
      ⟨-, -, same, -⟩
    exact ⟨unfinished, (Sum.inl.inj same).symm⟩
  · rcases passes.deterministic (only peer (frame data)) contentPass_leaves
        (fun _ => List.prefix_rfl) (fun _ => List.nil_prefix) with
      ⟨-, -, same, -⟩
    cases same

/-- Where the loop stands, it has what its frames brought. -/
theorem Stands.total
    (hands : ∀ bytes state, ∃ outputs later,
      Plays (handOn bytes) state silence outputs (.done ()) later)
    {stream : Nat → Bytes} {count totalBytes : Nat} {state between : σ}
    (expectedFits : expectedBytes < sizeModulus)
    (accepted : ∀ index, (stream index).length ≤ bufferSize)
    (stands : Stands (contentPass peer handOn expectedBytes) peer state
      stream count totalBytes between) :
    totalBytes =
      min expectedBytes (firstFrames stream count).flatten.length := by
  induction stands with
  | start => exact (Nat.min_eq_right (Nat.zero_le _)).symm
  | @next count totalBytes _ _ _ _ _ passes inductionHypothesis =>
      have passed := contentPass_next hands expectedFits
        (inductionHypothesis ▸ Nat.min_le_left _ _) (accepted count) passes
      rw [length_firstFrames_succ, passed.2]
      omega

variable (peer) in
/-- As long as bytes are expected the loop gets to the next frame. -/
theorem exists_stands
    (hands : ∀ bytes state, ∃ outputs later,
      Plays (handOn bytes) state silence outputs (.done ()) later)
    {stream : Nat → Bytes} (state : σ)
    (expectedFits : expectedBytes < sizeModulus)
    (accepted : ∀ index, (stream index).length ≤ bufferSize)
    {count : Nat}
    (early : (firstFrames stream count).flatten.length < expectedBytes) :
    ∃ between, Stands (contentPass peer handOn expectedBytes) peer state
      stream count (firstFrames stream count).flatten.length between := by
  induction count with
  | zero => exact ⟨state, .start⟩
  | succ count inductionHypothesis =>
      rw [length_firstFrames_succ] at early ⊢
      have before :
          (firstFrames stream count).flatten.length < expectedBytes := by
        omega
      rcases inductionHypothesis before with ⟨between, stands⟩
      rcases hands ((stream count).take
          (min (expectedBytes - (firstFrames stream count).flatten.length)
            (stream count).length)) between with
        ⟨handed, later, handing⟩
      have pass := contentPass_plays peer expectedFits before
        (accepted count) handing
      have whole :
          min (expectedBytes - (firstFrames stream count).flatten.length)
            (stream count).length = (stream count).length := by
        omega
      rw [whole] at pass
      exact ⟨later, stands.next pass⟩

theorem contentPass_advances_iff
    (hands : ∀ bytes state, ∃ outputs later,
      Plays (handOn bytes) state silence outputs (.done ()) later)
    (state : σ) {stream : Nat → Bytes}
    (expectedFits : expectedBytes < sizeModulus)
    (accepted : ∀ index, (stream index).length ≤ bufferSize) :
    Advances (contentPass peer handOn expectedBytes) peer state stream ↔
      NoneEmptyEarly stream expectedBytes := by
  constructor
  · intro advances count early isEmpty
    rcases exists_stands peer hands state expectedFits accepted early with
      ⟨between, stands⟩
    rcases hands ((stream count).take
        (min (expectedBytes - (firstFrames stream count).flatten.length)
          (stream count).length)) between with
      ⟨handed, later, handing⟩
    have pass := contentPass_plays peer expectedFits early (accepted count)
      handing
    have closer := advances _ _ _ _ _ _ stands pass
    rw [isEmpty, List.length_nil, Nat.min_zero] at closer
    exact absurd closer (Nat.lt_irrefl _)
  · intro noneEmpty count totalBytes next between later outputs stands
      passes
    have total := stands.total hands expectedFits accepted
    have passed := contentPass_next hands expectedFits
      (total ▸ Nat.min_le_left _ _) (accepted count) passes
    have positive := List.length_pos_iff.2 (noneEmpty count (by omega))
    omega

theorem contentLoop_meets_iff
    (hands : ∀ bytes state, ∃ outputs later,
      Plays (handOn bytes) state silence outputs (.done ()) later)
    (state : σ) {stream : Nat → Bytes}
    (expectedFits : expectedBytes < sizeModulus)
    (accepted : ∀ index, (stream index).length ≤ bufferSize) :
    Exits (fun fuel => contentLoop peer handOn expectedBytes fuel 0) peer
          state stream ∧
        Advances (contentPass peer handOn expectedBytes) peer state stream ↔
      NoneEmptyEarly stream expectedBytes := by
  rw [contentLoop_exits_iff hands state expectedFits accepted,
    contentPass_advances_iff hands state expectedFits accepted]
  exact and_iff_right_of_imp NoneEmptyEarly.bringsEnough

/--
On an endless stream of accepted frames each of the loops exits, with progress
on every frame, exactly when it gets no empty frame before its end.
-/
theorem contentLoops_exit_iff
    (receiver sender server : Peer)
    (sessions : SendersSessions Peer Json) (receiving : Receiving)
    (expectedBytes : Nat) (stream : Nat → Bytes)
    (expectedFits : expectedBytes < sizeModulus)
    (accepted : ∀ index, (stream index).length ≤ bufferSize) :
    (Exits (fun fuel => relay receiver sender expectedBytes fuel 0) sender
          sessions stream ∧
        Advances (relayPass receiver sender expectedBytes) sender sessions
          stream ↔
      NoneEmptyEarly stream expectedBytes) ∧
    (Exits (fun fuel => receiveContent server expectedBytes fuel 0) server
          receiving stream ∧
        Advances (receivePass server expectedBytes) server receiving
          stream ↔
      NoneEmptyEarly stream expectedBytes) := by
  constructor
  · exact contentLoop_meets_iff (send_hands receiver) sessions expectedFits
      accepted
  · exact contentLoop_meets_iff write_hands receiving expectedFits accepted

end Playing

/-- Three bytes are expected and come one at a time. -/
theorem contentLoops_exit_iff_single_bytes :
    Exits (fun fuel => relay true false 3 fuel 0) false ∅ (fun _ => [7]) ∧
      Advances (relayPass true false 3) false ∅ (fun _ => [7]) :=
  (contentLoops_exit_iff true false false ∅ ⟨⟨FileTree.empty, []⟩, none, none⟩
    3 (fun _ => [7]) (by decide) (fun _ => by decide)).1.2
      fun _ _ => List.cons_ne_nil _ _

/-- On empty frames neither loop exits. -/
theorem not_exits_emptyFrames :
    ¬ Exits (fun fuel => relay true false 1 fuel 0) false ∅
        (fun _ => []) ∧
      ¬ Exits (fun fuel => receiveContent false 1 fuel 0) false
        ⟨⟨FileTree.empty, []⟩, none, none⟩ (fun _ => []) := by
  have little : ¬ BringsEnough (fun _ => []) 1 := by
    rintro ⟨count, enough⟩
    have empty : (firstFrames (fun _ => []) count).flatten = [] := by
      simp [firstFrames]
    rw [empty] at enough
    exact absurd enough (by decide)
  have accepted (index : Nat) : ([] : Bytes).length ≤ bufferSize :=
    Nat.zero_le _
  constructor
  · intro exits
    exact little ((contentLoop_exits_iff (send_hands true) ∅ (by decide)
      accepted).1 exits)
  · intro exits
    exact little ((contentLoop_exits_iff write_hands _ (by decide)
      accepted).1 exits)

end DropFile.ContentLoops
