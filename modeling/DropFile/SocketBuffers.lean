import DropFile.Socket

/-!
# `SocketBase` and its memory

The same functions once more, with the memory that they read into: the buffer
that `receiveToBuffer` and the asynchronous readers share, and the strings
that `receive` allocates.  Whatever the peer announces, no read leaves the
buffer, and whoever asked for a message gets all of it or nothing.
-/

namespace DropFile.SocketBuffers

open DropFile.General.Processes.Process
open DropFile.Streams
open DropFile.Socket (SocketProcess bufferSize systemError socketException
  frame frames chunks tooLong tooLargeText LostSending)

variable {Peer : Type}

/-! ## The memory -/

/-- The functions that receive a message. -/
inductive Call where
  | receive
  | receiveToBuffer
  | asyncReadMessage (maxMsgSize : Nat)
deriving DecidableEq

/-- What became of a call. -/
structure CallRecord where
  call : Call
  /-- The messages that were returned or given to the handler. -/
  delivered : List Bytes
  /-- How disconnecting ended, if the call did that. -/
  disconnected : Option (Except Exception Unit)
  thrown : Option Exception

def CallRecord.begun (call : Call) : CallRecord :=
  ⟨call, [], none, none⟩

def CallRecord.deliver (message : Bytes) (record : CallRecord) : CallRecord :=
  { record with delivered := record.delivered ++ [message] }

def CallRecord.disconnect (result : Except Exception Unit)
    (record : CallRecord) : CallRecord :=
  { record with disconnected := some result }

def CallRecord.throw (error : Exception) (record : CallRecord) :
    CallRecord :=
  { record with thrown := some error }

structure SocketBase where
  dataBuffer : Bytes
  /-- The length of the longest read into the buffer so far. -/
  written : Nat
  /-- The lengths of the strings that `receive` has allocated. -/
  allocations : List Nat
  /-- The calls so far, the latest one first. -/
  calls : List CallRecord

namespace SocketBase

/-- The constructor: the buffer is full of zeros. -/
def create : SocketBase :=
  ⟨List.replicate bufferSize 0, 0, [], []⟩

/-- A byte that is read into the buffer. -/
def store (index : Nat) (byte : UInt8) (socket : SocketBase) : SocketBase :=
  { socket with
    dataBuffer := socket.dataBuffer.set index byte
    written := max socket.written (index + 1) }

/-- `message.resize(message_length)` for the string of `receive`. -/
def allocate (length : Nat) (socket : SocketBase) : SocketBase :=
  { socket with allocations := length :: socket.allocations }

def beginCall (call : Call) (socket : SocketBase) : SocketBase :=
  { socket with calls := .begun call :: socket.calls }

/-- Note something about the latest call. -/
def note (change : CallRecord → CallRecord) (socket : SocketBase) :
    SocketBase :=
  { socket with calls := socket.calls.modifyHead change }

end SocketBase

/-! ## Receiving -/

/-- `async_read` into the buffer; the result says that all bytes arrived. -/
def asyncReadToBuffer (peer : Peer) (index : Nat) :
    (count : Nat) → SocketProcess Peer SocketBase Bool
  | 0 => pure true
  | count + 1 =>
      .get peer
        (fun byte => do
          modifyState (·.store index byte)
          asyncReadToBuffer peer (index + 1) count)
        (.done false)

/-- `safeDisconnect`, noting whether it got to the shutdown. -/
def safeDisconnect (peer : Peer) (disconnectMsg : Bytes) :
    SocketProcess Peer SocketBase Unit :=
  (do
    Socket.send peer disconnectMsg
    modifyState (SocketBase.note (·.disconnect (.ok ())))).handle fun error =>
      modifyState (SocketBase.note (·.disconnect (.error error)))

/-- `SocketBase::getMessageLength`. -/
def getMessageLength (peer : Peer) : SocketProcess Peer SocketBase Nat := do
  let header ← Socket.read peer 8
  let messageLength := sizeOfBytes header
  if messageLength > bufferSize then
    safeDisconnect peer Socket.refusal
    raise (tooLong messageLength)
  else
    pure messageLength

/-- `SocketBase::receive`. -/
def receive (peer : Peer) : SocketProcess Peer SocketBase Bytes := do
  let messageLength ← getMessageLength peer
  modifyState (·.allocate messageLength)
  Socket.read peer messageLength

/-- `SocketBase::receiveToBuffer`. -/
def receiveToBuffer (peer : Peer) : SocketProcess Peer SocketBase Bytes := do
  let messageLength ← getMessageLength peer
  if ← asyncReadToBuffer peer 0 messageLength then
    let socket ← getState
    pure (socket.dataBuffer.take messageLength)
  else
    raise systemError

/-- `SocketBase::asyncReadMessageImpl`. -/
def asyncReadMessageImpl (peer : Peer)
    (messageHandler : Bytes → SocketProcess Peer SocketBase Unit)
    (messageSize : Nat) : SocketProcess Peer SocketBase Unit := do
  if ← asyncReadToBuffer peer 0 messageSize then
    let socket ← getState
    messageHandler (socket.dataBuffer.take messageSize)
  else
    pure ()

/-- `SocketBase::asyncReadHeader`; the header is read into the buffer. -/
def asyncReadHeader (peer : Peer) (maxMsgSize : Nat)
    (messageHandler : Bytes → SocketProcess Peer SocketBase Unit) :
    SocketProcess Peer SocketBase Unit := do
  if ← asyncReadToBuffer peer 0 8 then
    let socket ← getState
    let messageSize := sizeOfBytes (socket.dataBuffer.take 8)
    if messageSize > maxMsgSize then
      safeDisconnect peer (tooLargeText messageSize maxMsgSize)
    else
      asyncReadMessageImpl peer messageHandler messageSize
  else
    pure ()

/-- The exception for a requested maximum that the buffer cannot hold. -/
def notSchedulable (maxMsgSize : Nat) : Exception :=
  socketException
    s!"Tried to schedule receiving message with max size of {maxMsgSize} bytes, where buffer size is {bufferSize}."

/-- `SocketBase::asyncReadMessage`. -/
def asyncReadMessage (peer : Peer) (maxMsgSize : Nat)
    (messageHandler : Bytes → SocketProcess Peer SocketBase Unit) :
    SocketProcess Peer SocketBase Unit :=
  if maxMsgSize > bufferSize then
    raise (notSchedulable maxMsgSize)
  else
    asyncReadHeader peer maxMsgSize messageHandler

/-! ## Sequences of calls -/

/-- A message is returned or given to the handler. -/
def deliver (message : Bytes) : SocketProcess Peer SocketBase Unit :=
  modifyState (SocketBase.note (·.deliver message))

def Call.perform (peer : Peer) : Call → SocketProcess Peer SocketBase Unit
  | .receive => do
      let message ← SocketBuffers.receive peer
      deliver message
  | .receiveToBuffer => do
      let message ← SocketBuffers.receiveToBuffer peer
      deliver message
  | .asyncReadMessage maxMsgSize =>
      SocketBuffers.asyncReadMessage peer maxMsgSize deliver

/-- One call after another, whether they succeed or not. -/
def runCalls (peer : Peer) : List Call → SocketProcess Peer SocketBase Unit
  | [] => pure ()
  | call :: rest => do
      modifyState (·.beginCall call)
      (call.perform peer).handle fun error =>
        modifyState (SocketBase.note (·.throw error))
      runCalls peer rest

/-- The longest message that a call accepts. -/
def Call.limit : Call → Nat
  | .receive => bufferSize
  | .receiveToBuffer => bufferSize
  | .asyncReadMessage maxMsgSize => maxMsgSize

/-- What the peer is told when it announces a longer message. -/
def Call.refusalText (messageSize : Nat) : Call → Bytes
  | .receive => Socket.refusal
  | .receiveToBuffer => Socket.refusal
  | .asyncReadMessage maxMsgSize => tooLargeText messageSize maxMsgSize

/-- The blocking readers throw, the asynchronous one returns. -/
def Call.throws (error : Exception) : Call → Option Exception
  | .receive => some error
  | .receiveToBuffer => some error
  | .asyncReadMessage _ => none

/-! ## What a call may do -/

/-- The bytes that a call received from the peer and sent to it. -/
structure Exchange where
  received : Bytes
  sent : Bytes

/-- No byte of a body is read after a header that announces too much. -/
def Within (limit : Nat) (received : Bytes) : Prop :=
  received.length ≤ 8 ∨
    sizeOfBytes (received.take 8) ≤ limit ∧
      received.length ≤ 8 + sizeOfBytes (received.take 8)

/-- Less than a frame that is accepted. -/
def Unfinished (limit : Nat) (received : Bytes) : Prop :=
  received.length < 8 ∨
    sizeOfBytes (received.take 8) ≤ limit ∧
      received.length < 8 + sizeOfBytes (received.take 8)

/-- What holds of a call at every moment. -/
structure Lawful (record : CallRecord) (exchange : Exchange) : Prop where
  within : Within record.call.limit exchange.received
  delivered : record.delivered = [] ∨
    ∃ message, record.delivered = [message] ∧
      message.length ≤ record.call.limit ∧
      exchange.received = frame message

/-- The text is sent before the shutdown, or the connection is lost. -/
inductive Disconnects (text : Bytes) :
    Except Exception Unit → Bytes → Prop where
  | shutdown : Disconnects text (.ok ()) (frames (chunks text))
  | lost {sent : Bytes} :
      sent <+: frames (chunks text) →
      Disconnects text (.error systemError) sent

/-- The ways in which a call can end. -/
inductive Ended : CallRecord → Exchange → Prop where
  | delivered {call : Call} {message : Bytes} :
      message.length ≤ call.limit →
      Ended ⟨call, [message], none, none⟩ ⟨frame message, []⟩
  | refused {call : Call} {header sent : Bytes}
      {result : Except Exception Unit} :
      header.length = 8 →
      call.limit < sizeOfBytes header →
      Disconnects (call.refusalText (sizeOfBytes header)) result sent →
      Ended ⟨call, [], some result, call.throws (tooLong (sizeOfBytes header))⟩
        ⟨header, sent⟩
  | lost {call : Call} {received : Bytes} :
      Unfinished call.limit received →
      Ended ⟨call, [], none, call.throws systemError⟩ ⟨received, []⟩
  | notScheduled {maxMsgSize : Nat} :
      bufferSize < maxMsgSize →
      Ended ⟨.asyncReadMessage maxMsgSize, [], none,
          some (notSchedulable maxMsgSize)⟩ ⟨[], []⟩

/-- Nothing was written outside of the buffer or allocated beyond its size. -/
structure SocketBase.Sound (socket : SocketBase) : Prop where
  bufferLength : socket.dataBuffer.length = bufferSize
  written : socket.written ≤ bufferSize
  allocated : ∀ length ∈ socket.allocations, length ≤ bufferSize

/-! ## Headers and bodies -/

theorem within_of_short
    {limit : Nat} {received : Bytes}
    (short : received.length ≤ 8) :
    Within limit received :=
  Or.inl short

/-- After an accepted header there is room for the body. -/
theorem within_body
    {limit : Nat} {header part : Bytes}
    (headerLength : header.length = 8)
    (accepted : sizeOfBytes header ≤ limit)
    (fits : part.length ≤ sizeOfBytes header) :
    Within limit (header ++ part) := by
  have head : (header ++ part).take 8 = header := by
    rw [← headerLength, List.take_left]
  right
  rw [head, List.length_append, headerLength]
  exact ⟨accepted, Nat.add_le_add_left fits 8⟩

theorem unfinished_body
    {limit : Nat} {header part : Bytes}
    (headerLength : header.length = 8)
    (accepted : sizeOfBytes header ≤ limit)
    (fewer : part.length < sizeOfBytes header) :
    Unfinished limit (header ++ part) := by
  have head : (header ++ part).take 8 = header := by
    rw [← headerLength, List.take_left]
  right
  rw [head, List.length_append, headerLength]
  exact ⟨accepted, Nat.add_lt_add_left fewer 8⟩

theorem within_of_unfinished
    {limit : Nat} {received : Bytes}
    (unfinished : Unfinished limit received) :
    Within limit received := by
  rcases unfinished with short | ⟨accepted, fewer⟩
  · exact within_of_short (Nat.le_of_lt short)
  · exact Or.inr ⟨accepted, Nat.le_of_lt fewer⟩

theorem frame_of_header
    {header body : Bytes}
    (headerLength : header.length = 8)
    (bodyLength : body.length = sizeOfBytes header) :
    header ++ body = frame body := by
  rw [frame, bodyLength, sizeBytes_sizeOfBytes headerLength]

theorem within_frame
    {call : Call} {message : Bytes}
    (accepted : message.length ≤ call.limit)
    (bounded : call.limit ≤ bufferSize) :
    Within call.limit (frame message) := by
  have inHeader : sizeOfBytes (sizeBytes message.length) = message.length :=
    sizeOfBytes_sizeBytes (Nat.lt_of_le_of_lt (accepted.trans bounded)
      Socket.bufferSize_lt_sizeModulus)
  apply within_body (sizeBytes_length _)
  · rw [inHeader]
    exact accepted
  · rw [inHeader]

/-! ## The memory keeps its bounds -/

namespace SocketBase

theorem Sound.create : SocketBase.create.Sound := by
  constructor
  · exact List.length_replicate
  · exact Nat.zero_le _
  · intro length member
    exact absurd member List.not_mem_nil

theorem Sound.store
    {socket : SocketBase} {index : Nat}
    (sound : socket.Sound)
    (room : index < bufferSize) (byte : UInt8) :
    (socket.store index byte).Sound := by
  constructor
  · exact List.length_set.trans sound.bufferLength
  · exact Nat.max_le.2 ⟨sound.written, room⟩
  · exact sound.allocated

theorem Sound.allocate
    {socket : SocketBase} {length : Nat}
    (sound : socket.Sound)
    (small : length ≤ bufferSize) :
    (socket.allocate length).Sound := by
  constructor
  · exact sound.bufferLength
  · exact sound.written
  · exact List.forall_mem_cons.2 ⟨small, sound.allocated⟩

theorem Sound.beginCall
    {socket : SocketBase}
    (sound : socket.Sound) (call : Call) :
    (socket.beginCall call).Sound :=
  ⟨sound.bufferLength, sound.written, sound.allocated⟩

theorem Sound.note
    {socket : SocketBase}
    (sound : socket.Sound) (change : CallRecord → CallRecord) :
    (socket.note change).Sound :=
  ⟨sound.bufferLength, sound.written, sound.allocated⟩

/-- What is stored one byte after another can be read back. -/
theorem take_store
    {socket : SocketBase} {index : Nat} {stored : Bytes}
    (sound : socket.Sound)
    (room : index < bufferSize) (byte : UInt8)
    (isStored : socket.dataBuffer.take index = stored) :
    (socket.store index byte).dataBuffer.take (index + 1) =
      stored ++ [byte] := by
  have inside : index < (socket.dataBuffer.set index byte).length := by
    rw [List.length_set, sound.bufferLength]
    exact room
  show (socket.dataBuffer.set index byte).take (index + 1) = _
  rw [List.take_succ_eq_append_getElem inside, List.getElem_set_self,
    List.take_set_of_le (Nat.le_refl index), isStored]

end SocketBase

/-! ## One call -/

section Calls

variable {peer : Peer} {before moment : Local Peer SocketBase}
variable {call : Call} {record : CallRecord} {received sent : Bytes}

/-- How far the latest call has come. -/
structure Progress (peer : Peer) (before : Local Peer SocketBase)
    (call : Call) (record : CallRecord) (exchange : Exchange)
    (moment : Local Peer SocketBase) : Prop where
  sound : moment.state.Sound
  ofCall : record.call = call
  calls : moment.state.calls = record :: before.state.calls
  received : moment.received peer =
    before.received peer ++ exchange.received
  sent : moment.sent peer = before.sent peer ++ exchange.sent

theorem Progress.note
    {exchange : Exchange}
    (progress : Progress peer before call record exchange moment)
    (change : CallRecord → CallRecord)
    (sameCall : (change record).call = record.call) :
    Progress peer before call (change record) exchange
      (moment.change (SocketBase.note change)) := by
  constructor
  · exact progress.sound.note change
  · exact sameCall.trans progress.ofCall
  · show moment.state.calls.modifyHead change = _
    rw [progress.calls, List.modifyHead_cons]
  · exact progress.received
  · exact progress.sent

/-- A step that is only about the memory. -/
theorem Progress.change
    {exchange : Exchange} {change : SocketBase → SocketBase}
    (progress : Progress peer before call record exchange moment)
    (sound : (change moment.state).Sound)
    (sameCalls : (change moment.state).calls = moment.state.calls) :
    Progress peer before call record exchange (moment.change change) := by
  constructor
  · exact sound
  · exact progress.ofCall
  · exact sameCalls.trans progress.calls
  · exact progress.received
  · exact progress.sent

/-- What holds at every moment of a call. -/
def During (peer : Peer) (before : Local Peer SocketBase) (call : Call)
    (moment : Local Peer SocketBase) : Prop :=
  ∃ record exchange,
    Progress peer before call record exchange moment ∧ Lawful record exchange

/-- What holds when a call has ended. -/
def After (peer : Peer) (before : Local Peer SocketBase) (call : Call)
    (moment : Local Peer SocketBase) : Prop :=
  ∃ record exchange,
    Progress peer before call record exchange moment ∧
      Lawful record exchange ∧ Ended record exchange

/-- What holds when a call fails. -/
def Failing (peer : Peer) (before : Local Peer SocketBase) (call : Call)
    (error : Exception) (moment : Local Peer SocketBase) : Prop :=
  ∃ record exchange,
    Progress peer before call record exchange moment ∧
      Lawful record exchange ∧ Ended (record.throw error) exchange

theorem Lawful.disconnect
    (lawful : Lawful record ⟨received, sent⟩)
    (result : Except Exception Unit) (later : Bytes) :
    Lawful (record.disconnect result) ⟨received, later⟩ :=
  ⟨lawful.within, lawful.delivered⟩

theorem lawful_begun
    (within : Within call.limit received) :
    Lawful (.begun call) ⟨received, sent⟩ :=
  ⟨within, Or.inl rfl⟩

/-- A call whose peer announced too much. -/
theorem ended_refused
    {result : Except Exception Unit}
    (headerLength : received.length = 8)
    (tooLarge : call.limit < sizeOfBytes received)
    (disconnects : Disconnects (call.refusalText (sizeOfBytes received))
      result sent) :
    Ended
      { (CallRecord.begun call).disconnect result with
        thrown := call.throws (tooLong (sizeOfBytes received)) }
      ⟨received, sent⟩ :=
  .refused headerLength tooLarge disconnects

/-- The blocking readers. -/
def Call.Blocking (call : Call) : Prop :=
  call.limit = bufferSize ∧ (∀ size, call.refusalText size = Socket.refusal) ∧
    ∀ error, call.throws error = some error

theorem blocking_receive : Call.receive.Blocking :=
  ⟨rfl, fun _ => rfl, fun _ => rfl⟩

theorem blocking_receiveToBuffer : Call.receiveToBuffer.Blocking :=
  ⟨rfl, fun _ => rfl, fun _ => rfl⟩

/-- A blocking reader that loses the connection throws. -/
theorem failing_of_lost
    (progress : Progress peer before call (.begun call) ⟨received, []⟩ moment)
    (blocking : call.Blocking)
    (unfinished : Unfinished bufferSize received) :
    Failing peer before call systemError moment := by
  rcases blocking with ⟨limit, -, throws⟩
  rw [← limit] at unfinished
  have ended : Ended ⟨call, [], none, call.throws systemError⟩
      ⟨received, []⟩ :=
    .lost unfinished
  rw [throws] at ended
  exact ⟨_, _, progress, lawful_begun (within_of_unfinished unfinished),
    ended⟩

/-- An asynchronous reader that loses the connection returns. -/
theorem after_of_lost
    {maxMsgSize : Nat}
    (progress : Progress peer before (.asyncReadMessage maxMsgSize)
      (.begun (.asyncReadMessage maxMsgSize))
      ⟨received, []⟩ moment)
    (unfinished : Unfinished maxMsgSize received) :
    After peer before (.asyncReadMessage maxMsgSize) moment :=
  ⟨_, _, progress, lawful_begun (within_of_unfinished unfinished),
    .lost unfinished⟩

variable [DecidableEq Peer]

theorem Progress.receives
    (progress : Progress peer before call record ⟨received, sent⟩ moment)
    (bytes : Bytes) :
    Progress peer before call record ⟨received ++ bytes, sent⟩
      (moment.receives peer bytes) := by
  constructor
  · exact progress.sound
  · exact progress.ofCall
  · exact progress.calls
  · rw [Local.received_receives_self, progress.received, List.append_assoc]
  · exact progress.sent

theorem Progress.sends
    (progress : Progress peer before call record ⟨received, sent⟩ moment)
    (bytes : Bytes) :
    Progress peer before call record ⟨received, sent ++ bytes⟩
      (moment.sends peer bytes) := by
  constructor
  · exact progress.sound
  · exact progress.ofCall
  · exact progress.calls
  · exact progress.received
  · rw [Local.sent_sends_self, progress.sent, List.append_assoc]

theorem asyncReadToBuffer_ensures
    {index count : Nat} {stored : Bytes}
    (progress : Progress peer before call record ⟨received, sent⟩ moment)
    (isStored : moment.state.dataBuffer.take index = stored)
    (room : index + count ≤ bufferSize)
    (lawful : ∀ part, part.length ≤ count →
      Lawful record ⟨received ++ part, sent⟩) :
    Ensures (fun _ => True) (During peer before call)
      (fun arrived later => ∃ part,
        Progress peer before call record ⟨received ++ part, sent⟩ later ∧
          ((arrived = true ∧ part.length = count ∧
              later.state.dataBuffer.take (index + count) =
                stored ++ part) ∨
            (arrived = false ∧ part.length < count)))
      (fun _ _ => False) (asyncReadToBuffer peer index count) moment := by
  have now : During peer before call moment := by
    have nothing := lawful [] (Nat.zero_le count)
    rw [List.append_nil] at nothing
    exact ⟨record, _, progress, nothing⟩
  have unread := progress.receives []
  rw [Local.receives_nil] at unread
  induction count generalizing index received stored moment with
  | zero =>
      apply Ensures.pure now
      refine ⟨[], unread, Or.inl ⟨rfl, rfl, ?_⟩⟩
      rw [List.append_nil]
      exact isStored
  | succ count inductionHypothesis =>
      intro _
      refine ⟨now, ?_, fun _ =>
        ⟨now, [], unread, Or.inr ⟨rfl, Nat.succ_pos count⟩⟩⟩
      intro byte
      have inside : index < bufferSize := by
        omega
      have arrived := progress.receives [byte]
      have kept := arrived.change
        (arrived.sound.store inside byte) rfl
      have rest : ∀ part, part.length ≤ count →
          Lawful record ⟨received ++ [byte] ++ part, sent⟩ := by
        intro part short
        rw [List.append_assoc]
        exact lawful _ (Nat.succ_le_succ short)
      have nowKept : Lawful record ⟨received ++ [byte], sent⟩ := by
        have none := rest [] (Nat.zero_le count)
        rwa [List.append_nil] at none
      have unreadKept := kept.receives []
      rw [Local.receives_nil] at unreadKept
      apply Ensures.modifyState_bind ⟨record, _, arrived, nowKept⟩
      apply (inductionHypothesis kept
        (SocketBase.take_store progress.sound inside byte isStored)
        (by omega) rest ⟨record, _, kept, nowKept⟩ unreadKept).weaken
      · rintro result later - - ⟨part, later, ended⟩
        rw [List.append_assoc] at later
        refine ⟨byte :: part, later, ?_⟩
        rcases ended with ⟨isTrue, length, taken⟩ | ⟨isFalse, fewer⟩
        · left
          refine ⟨isTrue, congrArg (· + 1) length, ?_⟩
          rw [List.append_assoc, Nat.add_assoc, Nat.add_comm 1] at taken
          exact taken
        · exact Or.inr ⟨isFalse, Nat.succ_lt_succ fewer⟩
      · exact fun _ _ _ _ => False.elim

/-- However far the text gets, the call then knows about it. -/
theorem safeDisconnect_ensures
    {text : Bytes} {failing : Exception → Local Peer SocketBase → Prop}
    (progress : Progress peer before call record ⟨received, []⟩ moment)
    (lawful : Lawful record ⟨received, []⟩) :
    Ensures (fun _ => True) (During peer before call)
      (fun _ later => ∃ result sent,
        Disconnects text result sent ∧
          Progress peer before call (record.disconnect result)
            ⟨received, sent⟩ later)
      failing (safeDisconnect peer text) moment := by
  have sending (part : Bytes) :
      During peer before call (moment.sends peer part) :=
    ⟨record, _, progress.sends part, lawful.within, lawful.delivered⟩
  have noted (failing : Exception → Local Peer SocketBase → Prop)
      (result : Except Exception Unit) (part : Bytes)
      (disconnects : Disconnects text result part) :
      Ensures (fun _ => True) (During peer before call)
        (fun _ later => ∃ result sent,
          Disconnects text result sent ∧
            Progress peer before call (record.disconnect result)
              ⟨received, sent⟩ later)
        failing
        (modifyState (SocketBase.note (·.disconnect result)))
        (moment.sends peer part) := by
    have later := (progress.sends part).note (·.disconnect result) rfl
    apply Ensures.modifyState (sending part)
    · exact ⟨_, _, later, lawful.disconnect result _⟩
    · exact ⟨result, part, disconnects, later⟩
  apply Ensures.handle
  · apply (Socket.send_ensures peer text fun part _ => sending part).bind
    rintro - later - - rfl
    exact noted _ (.ok ()) _ .shutdown
  · rintro error later - - ⟨rfl, part, isPrefix, rfl⟩
    exact noted _ (.error systemError) part (.lost isPrefix)

theorem getMessageLength_ensures
    (blocking : call.Blocking)
    (progress : Progress peer before call (.begun call) ⟨[], []⟩ moment) :
    Ensures (fun _ => True) (During peer before call)
      (fun messageLength later => ∃ header,
        header.length = 8 ∧ sizeOfBytes header = messageLength ∧
          messageLength ≤ bufferSize ∧
          Progress peer before call (.begun call) ⟨header, []⟩ later)
      (Failing peer before call) (getMessageLength peer) moment := by
  have arriving (part : Bytes) (short : part.length ≤ 8)
      (_ : True) : During peer before call (moment.receives peer part) :=
    ⟨_, _, progress.receives part, lawful_begun (within_of_short short)⟩
  apply ((Socket.read_ensures_within peer 8 arriving).weaken
    (fun _ _ _ _ read => read) ?_).bind
  · rintro header later - holds ⟨headerLength, rfl⟩
    have headerRead := progress.receives header
    rw [List.nil_append] at headerRead
    have lawful : Lawful (.begun call) ⟨header, []⟩ :=
      lawful_begun (within_of_short (Nat.le_of_eq headerLength))
    dsimp only
    by_cases tooLarge : sizeOfBytes header > bufferSize
    · rw [if_pos tooLarge]
      apply (safeDisconnect_ensures headerRead lawful).bind
      rintro - later - laterHolds ⟨result, sent, disconnects, told⟩
      apply Ensures.raise laterHolds
      rcases blocking with ⟨limit, text, throws⟩
      rw [← text (sizeOfBytes header)] at disconnects
      have ended := ended_refused headerLength (limit ▸ tooLarge)
        disconnects
      rw [throws] at ended
      exact ⟨_, _, told, lawful.disconnect result sent, ended⟩
    · rw [if_neg tooLarge]
      exact .pure holds
        ⟨header, headerLength, rfl, Nat.not_lt.1 tooLarge, headerRead⟩
  · rintro error later - - ⟨rfl, part, fewer, rfl⟩
    exact failing_of_lost (progress.receives part) blocking (Or.inl fewer)

/-- A message that has arrived is delivered. -/
theorem deliver_ensures
    (call : Call) {message : Bytes}
    {failing : Exception → Local Peer SocketBase → Prop}
    (accepted : message.length ≤ call.limit)
    (bounded : call.limit ≤ bufferSize)
    (progress : Progress peer before call (.begun call) ⟨frame message, []⟩
      moment) :
    Ensures (fun _ => True) (During peer before call)
      (fun _ later => After peer before call later) failing (deliver message)
      moment := by
  have within := within_frame accepted bounded
  have lawful : Lawful ((CallRecord.begun call).deliver message)
      ⟨frame message, []⟩ :=
    ⟨within, Or.inr ⟨message, rfl, accepted, rfl⟩⟩
  have delivered := progress.note (·.deliver message) rfl
  apply Ensures.modifyState
  · exact ⟨_, _, progress, lawful_begun within⟩
  · exact ⟨_, _, delivered, lawful⟩
  · exact ⟨_, _, delivered, lawful, .delivered accepted⟩

theorem receive_ensures
    (progress : Progress peer before .receive (.begun .receive) ⟨[], []⟩
      moment) :
    Ensures (fun _ => True) (During peer before .receive)
      (fun message later => message.length ≤ bufferSize ∧
        Progress peer before .receive (.begun .receive) ⟨frame message, []⟩
          later)
      (Failing peer before .receive) (receive peer) moment := by
  apply (getMessageLength_ensures blocking_receive progress).bind
  rintro messageLength later - holds
    ⟨header, headerLength, rfl, fits, headerRead⟩
  apply Ensures.modifyState_bind holds
  have allocated := headerRead.change (headerRead.sound.allocate fits) rfl
  have arriving (part : Bytes) (short : part.length ≤ sizeOfBytes header)
      (_ : True) :
      During peer before .receive
        ((later.change (·.allocate (sizeOfBytes header))).receives peer
          part) :=
    ⟨_, _, allocated.receives part,
      lawful_begun (within_body headerLength fits short)⟩
  apply (Socket.read_ensures_within peer _ arriving).weaken
  · rintro message last - - ⟨messageLength, rfl⟩
    have arrived := allocated.receives message
    rw [frame_of_header headerLength messageLength] at arrived
    exact ⟨messageLength.trans_le fits, arrived⟩
  · rintro error last - - ⟨rfl, part, fewer, rfl⟩
    exact failing_of_lost (allocated.receives part) blocking_receive
      (unfinished_body headerLength fits fewer)

/-- The body is read over what the buffer held before. -/
theorem readBody_ensures
    (call : Call) {header : Bytes}
    (headerLength : header.length = 8)
    (accepted : sizeOfBytes header ≤ call.limit)
    (bounded : call.limit ≤ bufferSize)
    (progress : Progress peer before call (.begun call) ⟨header, []⟩ moment) :
    Ensures (fun _ => True) (During peer before call)
      (fun arrived later =>
        (arrived = true ∧ ∃ message, message.length ≤ call.limit ∧
          later.state.dataBuffer.take (sizeOfBytes header) = message ∧
          Progress peer before call (.begun call) ⟨frame message, []⟩ later) ∨
        (arrived = false ∧ ∃ received, Unfinished call.limit received ∧
          Progress peer before call (.begun call) ⟨received, []⟩ later))
      (fun _ _ => False) (asyncReadToBuffer peer 0 (sizeOfBytes header))
      moment := by
  have lawful (part : Bytes) (short : part.length ≤ sizeOfBytes header) :
      Lawful (.begun call) ⟨header ++ part, []⟩ :=
    lawful_begun (within_body headerLength accepted short)
  have room : 0 + sizeOfBytes header ≤ bufferSize := by
    rw [Nat.zero_add]
    exact accepted.trans bounded
  apply (asyncReadToBuffer_ensures progress List.take_zero room
    lawful).weaken
  · rintro arrived later - - ⟨part, read, ended⟩
    rcases ended with ⟨isTrue, length, taken⟩ | ⟨isFalse, fewer⟩
    · left
      rw [Nat.zero_add, List.nil_append] at taken
      rw [frame_of_header headerLength length] at read
      exact ⟨isTrue, part, length.trans_le accepted, taken, read⟩
    · right
      exact ⟨isFalse, _, unfinished_body headerLength accepted fewer, read⟩
  · exact fun _ _ _ _ => False.elim

theorem receiveToBuffer_ensures
    (progress : Progress peer before .receiveToBuffer
      (.begun .receiveToBuffer) ⟨[], []⟩ moment) :
    Ensures (fun _ => True) (During peer before .receiveToBuffer)
      (fun message later => message.length ≤ bufferSize ∧
        Progress peer before .receiveToBuffer (.begun .receiveToBuffer)
          ⟨frame message, []⟩ later)
      (Failing peer before .receiveToBuffer) (receiveToBuffer peer) moment := by
  apply (getMessageLength_ensures blocking_receiveToBuffer progress).bind
  rintro messageLength later - holds
    ⟨header, headerLength, rfl, fits, headerRead⟩
  have read := readBody_ensures .receiveToBuffer headerLength fits
    (Nat.le_refl _) headerRead
  apply (read.weaken
    (fun _ _ _ _ ended => ended) (fun _ _ _ _ => False.elim)).bind
  rintro arrived last - lastHolds (⟨rfl, message, small, taken, read⟩ |
    ⟨rfl, received, unfinished, read⟩)
  · rw [if_pos rfl]
    apply Ensures.getState_bind lastHolds
    rw [taken]
    exact .pure lastHolds ⟨small, read⟩
  · rw [if_neg Bool.false_ne_true]
    exact .raise lastHolds
      (failing_of_lost read blocking_receiveToBuffer unfinished)

theorem asyncReadMessageImpl_ensures
    {maxMsgSize : Nat} {header : Bytes}
    (headerLength : header.length = 8)
    (accepted : sizeOfBytes header ≤ maxMsgSize)
    (bounded : maxMsgSize ≤ bufferSize)
    (progress : Progress peer before (.asyncReadMessage maxMsgSize)
      (.begun (.asyncReadMessage maxMsgSize))
      ⟨header, []⟩ moment) :
    Ensures (fun _ => True) (During peer before (.asyncReadMessage maxMsgSize))
      (fun _ later => After peer before (.asyncReadMessage maxMsgSize) later)
      (Failing peer before (.asyncReadMessage maxMsgSize))
      (asyncReadMessageImpl peer deliver (sizeOfBytes header)) moment := by
  have read := readBody_ensures (.asyncReadMessage maxMsgSize) headerLength
    accepted bounded progress
  apply (read.weaken
    (fun _ _ _ _ ended => ended) (fun _ _ _ _ => False.elim)).bind
  rintro arrived last - lastHolds (⟨rfl, message, small, taken, read⟩ |
    ⟨rfl, received, unfinished, read⟩)
  · rw [if_pos rfl]
    apply Ensures.getState_bind lastHolds
    rw [taken]
    exact deliver_ensures _ small bounded read
  · rw [if_neg Bool.false_ne_true]
    exact .pure lastHolds (after_of_lost read unfinished)

theorem asyncReadHeader_ensures
    {maxMsgSize : Nat}
    (bounded : maxMsgSize ≤ bufferSize)
    (progress : Progress peer before (.asyncReadMessage maxMsgSize)
      (.begun (.asyncReadMessage maxMsgSize))
      ⟨[], []⟩ moment) :
    Ensures (fun _ => True) (During peer before (.asyncReadMessage maxMsgSize))
      (fun _ later => After peer before (.asyncReadMessage maxMsgSize) later)
      (Failing peer before (.asyncReadMessage maxMsgSize))
      (asyncReadHeader peer maxMsgSize deliver) moment := by
  have lawful (part : Bytes) (short : part.length ≤ 8) :
      Lawful (.begun (.asyncReadMessage maxMsgSize)) ⟨[] ++ part, []⟩ :=
    lawful_begun (within_of_short short)
  have room : 0 + 8 ≤ bufferSize := by
    decide
  apply ((asyncReadToBuffer_ensures progress List.take_zero room
    lawful).weaken (fun _ _ _ _ ended => ended)
      (fun _ _ _ _ => False.elim)).bind
  rintro arrived later - holds ⟨header, read, ended⟩
  rw [List.nil_append] at read
  rcases ended with ⟨rfl, headerLength, taken⟩ | ⟨rfl, fewer⟩
  · rw [if_pos rfl]
    apply Ensures.getState_bind holds
    rw [Nat.zero_add, List.nil_append] at taken
    dsimp only
    rw [taken]
    by_cases tooLarge : sizeOfBytes header > maxMsgSize
    · rw [if_pos tooLarge]
      have short := lawful header (Nat.le_of_eq headerLength)
      rw [List.nil_append] at short
      -- The text is only a name here, or Lean starts to evaluate it.
      generalize isText : tooLargeText (sizeOfBytes header) maxMsgSize = text
      apply (safeDisconnect_ensures read short).weaken
      · rintro - last - - ⟨result, sent, disconnects, told⟩
        subst isText
        have ended := @ended_refused (.asyncReadMessage maxMsgSize) _ _ _
          headerLength tooLarge disconnects
        rw [Call.throws] at ended
        exact ⟨_, _, told, short.disconnect result sent, ended⟩
      · exact fun _ _ _ _ failed => failed
    · rw [if_neg tooLarge]
      exact asyncReadMessageImpl_ensures headerLength
        (Nat.not_lt.1 tooLarge) bounded read
  · rw [if_neg Bool.false_ne_true]
    exact .pure holds (after_of_lost read (Or.inl fewer))

theorem asyncReadMessage_ensures
    {maxMsgSize : Nat}
    (progress : Progress peer before (.asyncReadMessage maxMsgSize)
      (.begun (.asyncReadMessage maxMsgSize))
      ⟨[], []⟩ moment) :
    Ensures (fun _ => True) (During peer before (.asyncReadMessage maxMsgSize))
      (fun _ later => After peer before (.asyncReadMessage maxMsgSize) later)
      (Failing peer before (.asyncReadMessage maxMsgSize))
      (asyncReadMessage peer maxMsgSize deliver) moment := by
  rw [asyncReadMessage]
  have lawful : Lawful (.begun (.asyncReadMessage maxMsgSize)) ⟨[], []⟩ :=
    lawful_begun (within_of_short (Nat.zero_le 8))
  split_ifs with tooLarge
  · apply Ensures.raise
    · exact ⟨_, _, progress, lawful⟩
    · exact ⟨_, _, progress, lawful, .notScheduled tooLarge⟩
  · exact asyncReadHeader_ensures (Nat.not_lt.1 tooLarge) progress

theorem perform_ensures
    (progress : Progress peer before call (.begun call) ⟨[], []⟩ moment) :
    Ensures (fun _ => True) (During peer before call)
      (fun _ later => After peer before call later) (Failing peer before call)
      (call.perform peer) moment := by
  cases call with
  | receive =>
      apply (receive_ensures progress).bind
      rintro message later - - ⟨small, read⟩
      exact deliver_ensures .receive small (Nat.le_refl _) read
  | receiveToBuffer =>
      apply (receiveToBuffer_ensures progress).bind
      rintro message later - - ⟨small, read⟩
      exact deliver_ensures .receiveToBuffer small (Nat.le_refl _) read
  | asyncReadMessage maxMsgSize =>
      exact asyncReadMessage_ensures progress

end Calls

/-! ## With a peer that plays along -/

section Playing

variable [DecidableEq Peer] (peer : Peer) {socket : SocketBase}

/-- The state after a step that leaves the records of the calls alone. -/
structure Kept (socket later : SocketBase) : Prop where
  sound : later.Sound
  calls : later.calls = socket.calls

theorem asyncReadToBuffer_plays
    {index : Nat} {stored : Bytes} (bytes : Bytes)
    (sound : socket.Sound)
    (isStored : socket.dataBuffer.take index = stored)
    (room : index + bytes.length ≤ bufferSize) :
    ∃ later, Kept socket later ∧
      later.dataBuffer.take (index + bytes.length) = stored ++ bytes ∧
      Plays (asyncReadToBuffer peer index bytes.length) socket
        (only peer bytes) silence (.done true) later := by
  induction bytes generalizing index stored socket with
  | nil =>
      refine ⟨socket, ⟨sound, rfl⟩, ?_, ?_⟩
      · rw [List.append_nil]
        exact isStored
      · rw [only_nil]
        exact .rest _ _
  | cons byte rest inductionHypothesis =>
      rw [List.length_cons] at room
      have inside : index < bufferSize := by
        omega
      have roomLeft : index + 1 + rest.length ≤ bufferSize := by
        omega
      rcases inductionHypothesis (sound.store inside byte)
        (SocketBase.take_store sound inside byte isStored) roomLeft with
        ⟨later, kept, taken, plays⟩
      refine ⟨later, ⟨kept.sound, kept.calls⟩, ?_, ?_⟩
      · rw [List.append_assoc, Nat.add_assoc, Nat.add_comm 1] at taken
        exact taken
      · have first : Plays (asyncReadToBuffer peer index (byte :: rest).length)
            socket ((only peer [byte]).followedBy (only peer rest)) silence
            (.done true) later :=
          .get (.update plays)
        rwa [only_followedBy_only] at first

/-- What arrives in the buffer is taken out of it again. -/
theorem fromBuffer_plays
    {α : Type} {count : Nat} {bytes more : Bytes}
    {next : Bytes → SocketProcess Peer SocketBase α}
    {lost last : SocketProcess Peer SocketBase α}
    {later final : SocketBase}
    (arrives : Plays (asyncReadToBuffer peer 0 count) socket
      (only peer bytes) silence (.done true) later)
    (taken : later.dataBuffer.take count = bytes)
    (continues : Plays (next bytes) later (only peer more) silence last
      final) :
    Plays
      (do
        if ← asyncReadToBuffer peer 0 count then
          let socket ← getState
          next (socket.dataBuffer.take count)
        else
          lost)
      socket (only peer (bytes ++ more)) silence last final := by
  have taking : Plays
      (do
        let socket ← getState
        next (socket.dataBuffer.take count))
      later (only peer more) silence last final := by
    apply Plays.update
    show Plays (next (later.dataBuffer.take count)) later _ _ _ _
    rw [taken]
    exact continues
  exact arrives.andThen taking (only_followedBy_only ..)

theorem getMessageLength_plays
    (socket : SocketBase) {message : Bytes}
    (fits : message.length ≤ bufferSize) :
    Plays (getMessageLength peer) socket
      (only peer (sizeBytes message.length)) silence
      (.done message.length) socket := by
  have headerRead :
      Plays (Socket.read peer (sizeBytes message.length).length) socket
        (only peer (sizeBytes message.length)) silence
        (.done (sizeBytes message.length)) socket :=
    Socket.read_plays peer (sizeBytes message.length)
  rw [sizeBytes_length] at headerRead
  have inHeader :
      sizeOfBytes (sizeBytes message.length) = message.length :=
    sizeOfBytes_sizeBytes
      (Nat.lt_of_le_of_lt fits Socket.bufferSize_lt_sizeModulus)
  apply headerRead.andThen_eq
  rw [inHeader, if_neg (Nat.not_lt.2 fits)]
  rfl

/-- The state after a message was delivered. -/
structure Delivered (message : Bytes) (socket later : SocketBase) :
    Prop where
  sound : later.Sound
  calls : later.calls = socket.calls.modifyHead (·.deliver message)

theorem deliver_plays
    (Peer : Type) [DecidableEq Peer] (message : Bytes) {later : SocketBase}
    (kept : Kept socket later) :
    ∃ final, Delivered message socket final ∧
      Plays (deliver message : SocketProcess Peer SocketBase Unit) later
        silence silence (.done ()) final := by
  refine ⟨later.note (·.deliver message), ⟨kept.sound.note _, ?_⟩,
    .update (.rest _ _)⟩
  show later.calls.modifyHead _ = _
  rw [kept.calls]

theorem receive_plays
    {message : Bytes}
    (sound : socket.Sound)
    (fits : message.length ≤ bufferSize) :
    ∃ final, Delivered message socket final ∧
      Plays (Call.receive.perform peer) socket (only peer (frame message))
        silence (.done ()) final := by
  have kept : Kept socket (socket.allocate message.length) :=
    ⟨sound.allocate fits, rfl⟩
  rcases deliver_plays Peer message kept with ⟨final, delivered, delivers⟩
  have body : Plays
      (do
        modifyState (·.allocate message.length)
        Socket.read peer message.length)
      socket (only peer message) silence (.done message)
      (socket.allocate message.length) :=
    .update (Socket.read_plays peer message)
  have received : Plays (receive peer) socket (only peer (frame message))
      silence (.done message) (socket.allocate message.length) :=
    (getMessageLength_plays peer socket fits).andThen body
      (only_followedBy_only ..)
  exact ⟨final, delivered, received.andThen delivers⟩

theorem receiveToBuffer_plays
    {message : Bytes}
    (sound : socket.Sound)
    (fits : message.length ≤ bufferSize) :
    ∃ final, Delivered message socket final ∧
      Plays (Call.receiveToBuffer.perform peer) socket
        (only peer (frame message)) silence (.done ()) final := by
  have room : 0 + message.length ≤ bufferSize := by
    rw [Nat.zero_add]
    exact fits
  rcases asyncReadToBuffer_plays peer message sound List.take_zero room with
    ⟨later, kept, taken, plays⟩
  rw [Nat.zero_add, List.nil_append] at taken
  rcases deliver_plays Peer message kept with ⟨final, delivered, delivers⟩
  have returns :
      Plays (pure message : SocketProcess Peer SocketBase Bytes) later
        (only peer []) silence (.done message) later := by
    rw [only_nil]
    exact .rest _ _
  have body := @fromBuffer_plays _ _ peer _ _ _ _ [] pure
    (raise systemError) _ _ _ plays taken returns
  rw [List.append_nil] at body
  have received : Plays (receiveToBuffer peer) socket
      (only peer (frame message)) silence (.done message) later :=
    (getMessageLength_plays peer socket fits).andThen body
      (only_followedBy_only ..)
  exact ⟨final, delivered, received.andThen delivers⟩

theorem asyncReadMessage_plays
    {maxMsgSize : Nat} {message : Bytes}
    (sound : socket.Sound)
    (allowed : maxMsgSize ≤ bufferSize)
    (fits : message.length ≤ maxMsgSize) :
    ∃ final, Delivered message socket final ∧
      Plays ((Call.asyncReadMessage maxMsgSize).perform peer) socket
        (only peer (frame message)) silence (.done ()) final := by
  have inHeader :
      sizeOfBytes (sizeBytes message.length) = message.length :=
    sizeOfBytes_sizeBytes (Nat.lt_of_le_of_lt (fits.trans allowed)
      Socket.bufferSize_lt_sizeModulus)
  have headerRoom : 0 + (sizeBytes message.length).length ≤ bufferSize := by
    rw [sizeBytes_length]
    decide
  rcases asyncReadToBuffer_plays peer (sizeBytes message.length)
    sound List.take_zero headerRoom with
    ⟨header, headerKept, headerTaken, headerPlays⟩
  rw [sizeBytes_length] at headerPlays headerTaken
  rw [Nat.zero_add, List.nil_append] at headerTaken
  have room : 0 + message.length ≤ bufferSize := by
    rw [Nat.zero_add]
    exact fits.trans allowed
  rcases asyncReadToBuffer_plays peer message headerKept.sound List.take_zero
    room with ⟨later, kept, taken, plays⟩
  rw [Nat.zero_add, List.nil_append] at taken
  have keptAll : Kept socket later :=
    ⟨kept.sound, kept.calls.trans headerKept.calls⟩
  rcases deliver_plays Peer message keptAll with ⟨final, delivered, delivers⟩
  have nothingMore : Plays (deliver message) later (only peer []) silence
      (.done ()) final := by
    rw [only_nil]
    exact delivers
  have body : Plays (asyncReadMessageImpl peer deliver message.length)
      header (only peer (message ++ [])) silence (.done ()) final :=
    fromBuffer_plays peer plays taken nothingMore
  rw [List.append_nil] at body
  refine ⟨final, delivered, ?_⟩
  rw [Call.perform, asyncReadMessage, if_neg (Nat.not_lt.2 allowed)]
  apply @fromBuffer_plays _ _ peer _ _ _ _ _
    (fun header =>
      if sizeOfBytes header > maxMsgSize then
        safeDisconnect peer (tooLargeText (sizeOfBytes header) maxMsgSize)
      else
        asyncReadMessageImpl peer deliver (sizeOfBytes header))
    (pure ()) _ _ _ headerPlays headerTaken
  rw [inHeader, if_neg (Nat.not_lt.2 fits)]
  exact body

/-- A message within the limit is delivered. -/
theorem perform_plays
    {call : Call} {message : Bytes}
    (sound : socket.Sound)
    (allowed : call.limit ≤ bufferSize)
    (fits : message.length ≤ call.limit) :
    ∃ final, Delivered message socket final ∧
      Plays (call.perform peer) socket (only peer (frame message)) silence
        (.done ()) final := by
  cases call with
  | receive => exact receive_plays peer sound fits
  | receiveToBuffer => exact receiveToBuffer_plays peer sound fits
  | asyncReadMessage maxMsgSize =>
      exact asyncReadMessage_plays peer sound allowed fits

/-- A call with the message that answers it. -/
structure Answer where
  call : Call
  message : Bytes
  allowed : call.limit ≤ bufferSize
  fits : message.length ≤ call.limit

/-- A peer that keeps to the limits gets all of its messages delivered. -/
theorem runCalls_plays
    {answers : List Answer}
    (sound : socket.Sound) :
    ∃ final, final.Sound ∧
      final.calls =
        (answers.map fun answer =>
          (CallRecord.begun answer.call).deliver answer.message).reverse ++
          socket.calls ∧
      Plays (runCalls peer (answers.map (·.call))) socket
        (only peer (frames (answers.map (·.message)))) silence (.done ())
        final := by
  induction answers generalizing socket with
  | nil =>
      refine ⟨socket, sound, rfl, ?_⟩
      show Plays _ socket (only peer []) _ _ socket
      rw [only_nil]
      exact .rest _ _
  | cons answer answers inductionHypothesis =>
      rcases perform_plays peer (sound.beginCall answer.call) answer.allowed
        answer.fits with ⟨later, delivered, plays⟩
      rcases inductionHypothesis delivered.sound with
        ⟨final, finalSound, calls, rest⟩
      refine ⟨final, finalSound, ?_, ?_⟩
      · rw [calls, delivered.calls, List.map_cons, List.reverse_cons,
          List.append_assoc]
        rfl
      · apply Plays.update
        have first := plays.handle fun error =>
          modifyState (SocketBase.note (·.throw error))
        exact first.andThen rest (only_followedBy_only ..)

end Playing

/-! ## All calls -/

section Sequences

variable {peer : Peer} {before moment : Local Peer SocketBase}
variable {call : Call} {record : CallRecord}

/-- The bytes of all exchanges, which have the latest one first. -/
structure Accounts (peer : Peer) (exchanges : List Exchange)
    (moment : Local Peer SocketBase) : Prop where
  received : moment.received peer =
    (exchanges.reverse.map (·.received)).flatten
  sent : moment.sent peer = (exchanges.reverse.map (·.sent)).flatten

/-- What holds at every moment: only the latest call may not have ended. -/
structure Orderly (peer : Peer) (calls : List Call)
    (moment : Local Peer SocketBase) : Prop where
  sound : moment.state.Sound
  made : moment.state.calls.reverse.map (·.call) <+: calls
  exchanges : ∃ exchanges, Accounts peer exchanges moment ∧
    List.Forall₂ Lawful moment.state.calls exchanges ∧
    List.Forall₂ Ended moment.state.calls.tail exchanges.tail

/-- What holds when all calls have ended. -/
structure Settled (peer : Peer) (calls : List Call)
    (moment : Local Peer SocketBase) : Prop where
  sound : moment.state.Sound
  made : moment.state.calls.reverse.map (·.call) = calls
  exchanges : ∃ exchanges, Accounts peer exchanges moment ∧
    List.Forall₂ Lawful moment.state.calls exchanges ∧
    List.Forall₂ Ended moment.state.calls exchanges

theorem Accounts.snoc
    {exchange : Exchange} {exchanges : List Exchange}
    (accounts : Accounts peer exchanges before)
    (progress : Progress peer before call record exchange moment) :
    Accounts peer (exchange :: exchanges) moment := by
  constructor
  · rw [progress.received, accounts.received, List.reverse_cons,
      List.map_append, List.flatten_append]
    simp
  · rw [progress.sent, accounts.sent, List.reverse_cons, List.map_append,
      List.flatten_append]
    simp

theorem made_of_progress
    {exchange : Exchange} {calls : List Call}
    (made : before.state.calls.reverse.map (·.call) = calls)
    (progress : Progress peer before call record exchange moment) :
    moment.state.calls.reverse.map (·.call) = calls ++ [call] := by
  rw [progress.calls, List.reverse_cons, List.map_append, made]
  simp [progress.ofCall]

theorem Settled.start
    (peer : Peer) :
    Settled peer [] ⟨SocketBase.create, silence, silence⟩ := by
  constructor
  · exact .create
  · rfl
  · exact ⟨[], ⟨rfl, rfl⟩, .nil, .nil⟩

theorem Settled.of_after
    {calls : List Call}
    (settled : Settled peer calls before)
    (after : After peer before call moment) :
    Settled peer (calls ++ [call]) moment := by
  rcases settled.exchanges with ⟨exchanges, accounts, lawful, ended⟩
  rcases after with ⟨record, exchange, progress, isLawful, hasEnded⟩
  constructor
  · exact progress.sound
  · exact made_of_progress settled.made progress
  · refine ⟨exchange :: exchanges, accounts.snoc progress, ?_, ?_⟩
    · rw [progress.calls]
      exact .cons isLawful lawful
    · rw [progress.calls]
      exact .cons hasEnded ended

theorem Orderly.of_during
    {calls rest : List Call}
    (settled : Settled peer calls before)
    (during : During peer before call moment) :
    Orderly peer (calls ++ call :: rest) moment := by
  rcases settled.exchanges with ⟨exchanges, accounts, lawful, ended⟩
  rcases during with ⟨record, exchange, progress, isLawful⟩
  constructor
  · exact progress.sound
  · rw [made_of_progress settled.made progress]
    exact ⟨rest, (List.append_cons ..).symm⟩
  · refine ⟨exchange :: exchanges, accounts.snoc progress, ?_, ?_⟩
    · rw [progress.calls]
      exact .cons isLawful lawful
    · rw [progress.calls]
      exact ended

theorem Orderly.of_settled
    {calls : List Call}
    (settled : Settled peer calls moment) (rest : List Call) :
    Orderly peer (calls ++ rest) moment := by
  rcases settled.exchanges with ⟨exchanges, accounts, lawful, ended⟩
  constructor
  · exact settled.sound
  · rw [settled.made]
    exact List.prefix_append _ _
  · refine ⟨exchanges, accounts, lawful, ?_⟩
    generalize moment.state.calls = records at ended
    cases ended with
    | nil => exact .nil
    | cons _ earlier => exact earlier

variable [DecidableEq Peer]

/-- A call leaves everything settled, whether it returns or throws. -/
theorem handled_ensures
    {calls rest : List Call}
    (settled : Settled peer calls before)
    (progress : Progress peer before call (.begun call) ⟨[], []⟩ moment) :
    Ensures (fun _ => True) (Orderly peer (calls ++ call :: rest))
      (fun _ later => Settled peer (calls ++ [call]) later)
      (fun _ _ => False)
      ((call.perform peer).handle fun error =>
        modifyState (SocketBase.note (·.throw error))) moment := by
  have orderly (later : Local Peer SocketBase)
      (during : During peer before call later) :
      Orderly peer (calls ++ call :: rest) later :=
    .of_during settled during
  apply Ensures.handle
  · apply ((perform_ensures progress).weakenAlways orderly).weaken
    · exact fun _ _ _ _ after => settled.of_after after
    · exact fun _ _ _ _ failed => failed
  · rintro error later - holds
      ⟨record, exchange, failed, isLawful, hasEnded⟩
    have noted := failed.note (·.throw error) rfl
    have after : After peer before call
        (later.change (SocketBase.note (·.throw error))) :=
      ⟨_, _, noted, ⟨isLawful.within, isLawful.delivered⟩, hasEnded⟩
    have settledAfter := settled.of_after after
    apply Ensures.modifyState holds
    · have all := Orderly.of_settled settledAfter rest
      rwa [List.append_assoc] at all
    · exact settledAfter

theorem runCalls_ensures
    {calls rest : List Call}
    (settled : Settled peer calls moment) :
    Ensures (fun _ => True) (Orderly peer (calls ++ rest))
      (fun _ later => Settled peer (calls ++ rest) later)
      (fun _ _ => False) (runCalls peer rest) moment := by
  induction rest generalizing calls moment with
  | nil =>
      have orderly := Orderly.of_settled settled []
      rw [List.append_nil] at orderly ⊢
      exact .pure orderly settled
  | cons call rest inductionHypothesis =>
      apply Ensures.modifyState_bind (.of_settled settled _)
      have begun : Progress peer moment call (.begun call) ⟨[], []⟩
          (moment.change (·.beginCall call)) := by
        constructor
        · exact settled.sound.beginCall call
        · rfl
        · rfl
        · exact (List.append_nil _).symm
        · exact (List.append_nil _).symm
      apply (handled_ensures settled begun).bind
      rintro - later - - settledLater
      have others := @inductionHypothesis later _ settledLater
      rwa [List.append_assoc] at others

/--
Whatever the peer sends and in whatever order the calls come: every read stays
inside the buffer, every string that is allocated is no longer than it, and
every call that has ended either delivered exactly the bytes that were
announced, of which there were no more than it allowed, or nothing.  A header
above the limit is the last thing that the call reads: it disconnects from the
peer, and the blocking readers throw.
-/
theorem runCalls_bounded
    {calls : List Call} {later : SocketProcess Peer SocketBase Unit}
    (becomes : Becomes (runCalls peer calls)
      ⟨SocketBase.create, silence, silence⟩ later moment) :
    Orderly peer calls moment ∧
      (later = .done () → Settled peer calls moment) ∧
      ∀ error, later ≠ .failed error := by
  have ensures := (@runCalls_ensures _ peer _ _ [] calls
    (.start peer)).of_becomes becomes
  rw [List.nil_append] at ensures
  refine ⟨ensures.now trivial, ?_, ?_⟩
  · rintro rfl
    exact (ensures trivial).2
  · rintro error rfl
    exact (ensures trivial).2

/-- A callback and a blocking call that share the buffer. -/
theorem runCalls_bounded_two :
    ∃ moment : Local Unit SocketBase,
      moment.received () = frames [[1, 2], [3]] ∧
      Settled () [.asyncReadMessage 2, .receiveToBuffer] moment := by
  rcases @runCalls_plays Unit _ () _
    [⟨.asyncReadMessage 2, [1, 2], by decide, by decide⟩,
      ⟨.receiveToBuffer, [3], by decide, by decide⟩] .create with
    ⟨final, -, -, plays⟩
  have becomes := Becomes.of_plays plays silence silence
  have bounded := runCalls_bounded becomes
  exact ⟨_, rfl, bounded.2.1 rfl⟩

end Sequences

end DropFile.SocketBuffers
