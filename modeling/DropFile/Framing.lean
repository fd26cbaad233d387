import DropFile.Socket

/-!
# Frames on the wire

What `send` writes for a sequence of messages, and what the three functions
that receive a frame make of it, in any mixture.
-/

namespace DropFile.Framing

open DropFile.General.Processes.Process
open DropFile.Streams
open DropFile.Socket

variable {Peer σ : Type}

/-! ## Sequences of calls -/

/-- `send` for one message after another. -/
def sendAll (peer : Peer) : List Bytes → SocketProcess Peer σ Unit
  | [] => pure ()
  | message :: rest => do
      send peer message
      sendAll peer rest

/-- The functions that receive a frame. -/
inductive Reader where
  | receive
  | receiveToBuffer
  | asyncReadMessage

/-- One call, whose frame is given to the handler. -/
def Reader.read (peer : Peer)
    (messageHandler : Bytes → SocketProcess Peer σ Unit) :
    Reader → SocketProcess Peer σ Unit
  | .receive => do
      let message ← Socket.receive peer
      messageHandler message
  | .receiveToBuffer => do
      let message ← Socket.receiveToBuffer peer
      messageHandler message
  | .asyncReadMessage =>
      Socket.asyncReadMessage peer bufferSize messageHandler

/-- One call after another; the state collects what they return. -/
def readAll (peer : Peer) :
    List Reader → SocketProcess Peer (List Bytes) Unit
  | [] => pure ()
  | reader :: readers =>
      reader.read peer fun message => do
        modifyState fun messages => messages ++ [message]
        readAll peer readers

/-! ## The chunks of a message -/

/-- The number of frames that a message needs. -/
def frameCount (length : Nat) : Nat :=
  (length + bufferSize - 1) / bufferSize

/-- How `send` cuts a message. -/
structure CutsInto (message : Bytes) (contents : List Bytes) : Prop where
  whole : contents.flatten = message
  accepted : ∀ content ∈ contents,
    1 ≤ content.length ∧ content.length ≤ bufferSize
  count : contents.length = frameCount message.length
  boundaries : message ≠ [] → message.length ≤ bufferSize →
    contents = [message]

theorem frameCount_of_full
    {length : Nat}
    (full : bufferSize ≤ length) :
    frameCount length = frameCount (length - bufferSize) + 1 := by
  have shifted :
      length + bufferSize - 1 =
        length - bufferSize + bufferSize - 1 + bufferSize := by
    have := bufferSize_pos
    omega
  rw [frameCount, shifted, Nat.add_div_right _ bufferSize_pos]
  rfl

theorem frameCount_of_rest
    {length : Nat}
    (positive : 0 < length)
    (small : length < bufferSize) :
    frameCount length = 1 := by
  apply Nat.div_eq_of_lt_le <;> omega

/-- Every pass of the loop of `send` takes bytes from the message. -/
theorem chunksFrom_spec
    {passes : Nat} {data : Bytes}
    (enough : data.length ≤ passes) :
    (chunksFrom passes data).flatten = data ∧
      (∀ chunk ∈ chunksFrom passes data,
        1 ≤ chunk.length ∧ chunk.length ≤ bufferSize) ∧
      (chunksFrom passes data).length = frameCount data.length := by
  have positive := bufferSize_pos
  induction passes generalizing data with
  | zero =>
      have empty : data = [] :=
        List.eq_nil_of_length_eq_zero (Nat.le_zero.1 enough)
      subst empty
      exact ⟨rfl, by simp [chunksFrom], rfl⟩
  | succ passes inductionHypothesis =>
      rw [chunksFrom]
      by_cases full : data.length ≥ bufferSize
      · rw [if_pos full]
        have fewer : (data.drop bufferSize).length ≤ passes := by
          rw [List.length_drop]
          omega
        rcases inductionHypothesis fewer with ⟨whole, accepted, count⟩
        refine ⟨?_, ?_, ?_⟩
        · rw [List.flatten_cons, whole, List.take_append_drop]
        · intro chunk member
          rcases List.mem_cons.1 member with rfl | later
          · rw [List.length_take_of_le full]
            exact ⟨positive, Nat.le_refl _⟩
          · exact accepted chunk later
        · rw [List.length_cons, count, List.length_drop,
            frameCount_of_full full]
      · rw [if_neg full]
        have small : data.length < bufferSize := Nat.not_le.1 full
        by_cases nonempty : data.length > 0
        · rw [if_pos nonempty]
          refine ⟨List.flatten_singleton, ?_,
            (frameCount_of_rest nonempty small).symm⟩
          intro chunk member
          rw [List.mem_singleton] at member
          subst member
          exact ⟨nonempty, Nat.le_of_lt small⟩
        · rw [if_neg nonempty]
          have empty : data = [] :=
            List.eq_nil_of_length_eq_zero (Nat.not_lt.1 nonempty |>.antisymm
              (Nat.zero_le _))
          subst empty
          exact ⟨rfl, by simp, rfl⟩

theorem cutsInto_chunks (message : Bytes) :
    CutsInto message (chunks message) := by
  have enough : message.length ≤ message.length := Nat.le_refl _
  rcases chunksFrom_spec enough with ⟨whole, accepted, count⟩
  exact ⟨whole, accepted, count, chunks_of_le⟩

theorem cutsInto_map_chunks (messages : List Bytes) :
    List.Forall₂ CutsInto messages (messages.map chunks) := by
  induction messages with
  | nil => exact .nil
  | cons message rest inductionHypothesis =>
      exact .cons (cutsInto_chunks message) inductionHypothesis

/-! ## Frames and their contents -/

theorem frame_inj_of_lt
    {first second firstRest secondRest : Bytes}
    (firstCounts : first.length < sizeModulus)
    (secondCounts : second.length < sizeModulus)
    (same : frame first ++ firstRest = frame second ++ secondRest) :
    first = second ∧ firstRest = secondRest := by
  rw [frame, frame, List.append_assoc, List.append_assoc] at same
  have headerLength : (sizeBytes first.length).length =
      (sizeBytes second.length).length := by
    rw [sizeBytes_length, sizeBytes_length]
  rcases List.append_inj same headerLength with ⟨headers, bodies⟩
  have lengths := congrArg sizeOfBytes headers
  rw [sizeOfBytes_sizeBytes firstCounts, sizeOfBytes_sizeBytes secondCounts]
    at lengths
  exact List.append_inj bodies lengths

theorem frame_inj
    {first second firstRest secondRest : Bytes}
    (firstAccepted : first.length ≤ bufferSize)
    (secondAccepted : second.length ≤ bufferSize)
    (same : frame first ++ firstRest = frame second ++ secondRest) :
    first = second ∧ firstRest = secondRest := by
  have small := bufferSize_lt_sizeModulus
  exact frame_inj_of_lt (Nat.lt_of_le_of_lt firstAccepted small)
    (Nat.lt_of_le_of_lt secondAccepted small) same

/-- A frame that is the beginning of another one is all of it. -/
theorem eq_of_prefix_frame
    {first second rest : Bytes}
    (firstAccepted : first.length ≤ bufferSize)
    (secondAccepted : second.length ≤ bufferSize)
    (isPrefix : frame first ++ rest <+: frame second) :
    first = second ∧ rest = [] := by
  rcases isPrefix with ⟨more, same⟩
  rw [List.append_assoc] at same
  have both := frame_inj firstAccepted secondAccepted
    (same.trans (List.append_nil _).symm)
  exact ⟨both.1, (List.append_eq_nil_iff.1 both.2).1⟩

/-- The first chunk is as long as a chunk can be. -/
theorem chunks_of_ne_nil
    {message : Bytes}
    (nonempty : message ≠ []) :
    ∃ rest, chunks message = message.take bufferSize :: rest := by
  have positive := List.length_pos_iff.2 nonempty
  rw [chunks]
  cases length : message.length with
  | zero =>
      rw [length] at positive
      exact absurd positive (Nat.lt_irrefl 0)
  | succ passes =>
      rw [chunksFrom]
      split_ifs with full
      · exact ⟨_, rfl⟩
      · rw [List.take_of_length_le (Nat.le_of_not_ge full)]
        exact ⟨[], rfl⟩

/-- A message that is not too long goes into a single frame. -/
theorem frames_chunks_of_fits
    {message : Bytes}
    (nonempty : message ≠ [])
    (fits : message.length ≤ bufferSize) :
    frames (chunks message) = frame message := by
  rw [chunks_of_le nonempty fits, frames_cons, frames_nil, List.append_nil]

/-- A small first frame is the whole message. -/
theorem eq_of_prefix_chunks
    {first message more : Bytes}
    (small : first.length < bufferSize)
    (nonempty : message ≠ [])
    (isPrefix : frame first <+: frames (chunks message) ++ more) :
    message = first := by
  rcases chunks_of_ne_nil nonempty with ⟨rest, cut⟩
  rcases isPrefix with ⟨after, same⟩
  rw [cut, frames_cons, List.append_assoc] at same
  have taken : (message.take bufferSize).length ≤ bufferSize :=
    List.length_take_le _ _
  have head := (frame_inj (Nat.le_of_lt small) taken same).1
  rw [head, List.length_take] at small
  have whole : message.length ≤ bufferSize := by
    omega
  rw [head, List.take_of_length_le whole]

/-- A stream of accepted frames determines their contents. -/
theorem frames_inj
    {first second : List Bytes}
    (firstAccepted : ∀ content ∈ first, content.length ≤ bufferSize)
    (secondAccepted : ∀ content ∈ second, content.length ≤ bufferSize)
    (same : frames first = frames second) :
    first = second := by
  induction first generalizing second with
  | nil =>
      cases second with
      | nil => rfl
      | cons content rest =>
          have lengths := congrArg List.length same.symm
          simp [frame] at lengths
  | cons content rest inductionHypothesis =>
      cases second with
      | nil =>
          have lengths := congrArg List.length same
          simp [frame] at lengths
      | cons other otherRest =>
          rw [frames_cons, frames_cons] at same
          rw [List.forall_mem_cons] at firstAccepted secondAccepted
          rcases frame_inj firstAccepted.1 secondAccepted.1 same with
            ⟨rfl, sameRest⟩
          rw [inductionHypothesis firstAccepted.2 secondAccepted.2 sameRest]

/-- Accepted frames at the beginning of others are the first of these. -/
theorem exists_append_of_prefix_frames
    {first second : List Bytes} {rest : Bytes}
    (firstAccepted : ∀ content ∈ first, content.length ≤ bufferSize)
    (secondAccepted : ∀ content ∈ second, content.length ≤ bufferSize)
    (isPrefix : frames first ++ rest <+: frames second) :
    ∃ others, second = first ++ others ∧ rest <+: frames others := by
  induction first generalizing second with
  | nil => exact ⟨second, rfl, isPrefix⟩
  | cons content contents inductionHypothesis =>
      rcases isPrefix with ⟨more, same⟩
      rw [frames_cons, List.append_assoc, List.append_assoc] at same
      cases second with
      | nil =>
          have lengths := congrArg List.length same
          simp [frame] at lengths
      | cons other others =>
          rw [frames_cons] at same
          rw [List.forall_mem_cons] at firstAccepted secondAccepted
          rcases frame_inj firstAccepted.1 secondAccepted.1 same with
            ⟨rfl, sameRest⟩
          rw [← List.append_assoc] at sameRest
          rcases inductionHypothesis firstAccepted.2 secondAccepted.2
              ⟨more, sameRest⟩ with ⟨last, rfl, isRest⟩
          exact ⟨last, rfl, isRest⟩

/-- A stream that is short enough can have been cut in one way only. -/
theorem exists_append_of_short
    {first second : List Bytes} {rest : Bytes}
    (short : (frames second).length < sizeModulus)
    (isPrefix : frames first ++ rest <+: frames second) :
    ∃ others, second = first ++ others ∧ rest <+: frames others := by
  induction first generalizing second with
  | nil => exact ⟨second, rfl, isPrefix⟩
  | cons content contents inductionHypothesis =>
      have shorter := isPrefix.length_le
      rcases isPrefix with ⟨more, same⟩
      rw [frames_cons, List.append_assoc, List.append_assoc] at same
      cases second with
      | nil =>
          have lengths := congrArg List.length same
          simp [frame] at lengths
      | cons other others =>
          rw [frames_cons] at same
          simp only [frames_cons, frame, List.length_append] at shorter short
          rcases frame_inj_of_lt (by omega) (by omega) same with
            ⟨rfl, sameRest⟩
          rw [← List.append_assoc] at sameRest
          rcases inductionHypothesis (by omega) ⟨more, sameRest⟩ with
            ⟨last, rfl, isRest⟩
          exact ⟨last, rfl, isRest⟩

/-! ## Sending and reading -/

section Playing

variable [DecidableEq Peer]

/-- The first frames of a stream are a prefix of the stream. -/
theorem only_frames_prefix
    {used contents : List Bytes}
    (peer other : Peer)
    (isPrefix : used <+: contents) :
    only peer (frames used) other <+: only peer (frames contents) other := by
  rcases isPrefix with ⟨rest, rfl⟩
  by_cases same : other = peer
  · subst same
    rw [only_self, only_self, frames_append]
    exact List.prefix_append _ _
  · rw [only_other same]
    exact List.nil_prefix

theorem sendAll_plays
    (peer : Peer) (state : σ) (messages : List Bytes) :
    Plays (sendAll peer messages) state silence
      (only peer (frames (messages.map chunks).flatten)) (.done ())
      state := by
  induction messages with
  | nil =>
      show Plays _ state silence (only peer []) _ state
      rw [only_nil]
      exact .rest _ _
  | cons message rest inductionHypothesis =>
      rw [List.map_cons, List.flatten_cons, frames_append]
      exact (send_plays peer message).andThen inductionHypothesis

/-- The three functions return the same bytes for the same frame. -/
theorem Reader.read_plays
    (peer : Peer) {state final : σ} {data : Bytes} {rest : Bytes}
    (reader : Reader)
    (messageHandler : Bytes → SocketProcess Peer σ Unit)
    (accepted : data.length ≤ bufferSize)
    (handled : Plays (messageHandler data) state (only peer rest) silence
      (.done ()) final) :
    Plays (reader.read peer messageHandler) state
      (only peer (frame data ++ rest)) silence (.done ()) final := by
  cases reader with
  | receive =>
      exact (receive_plays peer accepted).andThen handled
  | receiveToBuffer =>
      exact (receiveToBuffer_plays peer accepted).andThen handled
  | asyncReadMessage =>
      have plays := (asyncReadMessage_plays peer messageHandler
        (Nat.le_refl bufferSize) accepted).trans handled
      rwa [only_followedBy_only, silence_followedBy] at plays

theorem readAll_plays
    (peer : Peer) {readers : List Reader} {contents : List Bytes}
    (messages : List Bytes)
    (accepted : ∀ content ∈ contents, content.length ≤ bufferSize)
    (sameLength : readers.length = contents.length) :
    Plays (readAll peer readers) messages (only peer (frames contents))
      silence (.done ()) (messages ++ contents) := by
  induction contents generalizing readers messages with
  | nil =>
      have none : readers = [] := List.eq_nil_of_length_eq_zero sameLength
      subst none
      rw [frames_nil, only_nil, List.append_nil]
      exact .rest _ _
  | cons content contents inductionHypothesis =>
      rcases List.exists_cons_of_length_eq_add_one sameLength with
        ⟨reader, readers, rfl⟩
      apply reader.read_plays peer _
        (accepted content List.mem_cons_self)
      apply Plays.update
      have later := inductionHypothesis (messages ++ [content])
        (fun other member => accepted other (List.mem_cons_of_mem _ member))
        (Nat.succ.inj sameLength)
      rwa [List.append_assoc] at later

/--
Whatever the messages are, the stream that `send` writes for them is taken
apart by as many calls of the three readers as it has frames, in any mixture,
and there is no other way in which these calls can end on it.
-/
theorem readAll_sendAll
    (peer : Peer) (state : σ) (messages : List Bytes)
    (readers : List Reader)
    (enough : readers.length =
      (messages.map fun message => frameCount message.length).sum) :
    ∃ contents : List (List Bytes),
      List.Forall₂ CutsInto messages contents ∧
      contents.flatten.flatten = messages.flatten ∧
      Plays (sendAll peer messages) state silence
        (only peer (frames contents.flatten)) (.done ()) state ∧
      Plays (readAll peer readers) [] (only peer (frames contents.flatten))
        silence (.done ()) contents.flatten ∧
      ∀ inputs outputs final,
        (∀ other, inputs other <+:
          only peer (frames contents.flatten) other) →
        Plays (readAll peer readers) [] inputs outputs (.done ()) final →
        inputs = only peer (frames contents.flatten) ∧
          final = contents.flatten := by
  have accepted : ∀ content ∈ (messages.map chunks).flatten,
      content.length ≤ bufferSize := by
    intro content member
    rcases List.mem_flatten.1 member with ⟨contents, isChunks, inChunks⟩
    rcases List.mem_map.1 isChunks with ⟨message, -, rfl⟩
    exact ((cutsInto_chunks message).accepted content inChunks).2
  have count : readers.length = (messages.map chunks).flatten.length := by
    rw [enough, List.length_flatten, List.map_map]
    apply congrArg
    apply List.map_congr_left
    intro message _
    exact (cutsInto_chunks message).count.symm
  have whole : (messages.map chunks).flatten.flatten = messages.flatten := by
    rw [List.flatten_flatten, List.map_map]
    apply congrArg
    apply List.map_id''
    intro message
    exact (cutsInto_chunks message).whole
  have reads := readAll_plays peer [] accepted count
  rw [List.nil_append] at reads
  refine ⟨messages.map chunks, cutsInto_map_chunks messages, whole,
    sendAll_plays peer state messages, reads, ?_⟩
  intro inputs outputs final available plays
  rcases reads.deterministic _ plays (fun _ => List.prefix_rfl) available
    with ⟨sameInputs, -, -, sameFinal⟩
  exact ⟨sameInputs, sameFinal⟩

/-- Two short messages, the first read at once and the second by callbacks. -/
theorem readAll_sendAll_two :
    ∃ contents : List (List Bytes),
      List.Forall₂ CutsInto [[1, 2], [3]] contents ∧
      Plays (readAll () [.receive, .asyncReadMessage]) []
        (only () (frames contents.flatten)) silence (.done ())
        contents.flatten := by
  rcases readAll_sendAll () () [[1, 2], [3]] [.receive, .asyncReadMessage]
    (by decide) with ⟨contents, cut, -, -, reads, -⟩
  exact ⟨contents, cut, reads⟩

end Playing

end DropFile.Framing
