import DropFile.General.Processes
import DropFile.Streams

/-!
# `SocketBase`

Messages are cut into frames, each of which is preceded by a header with its
length.  A read or a write on a lost connection throws; the exception is the
same for every way to lose it, the end of the peer's stream included, which is
what is left of `shutdown`.
-/

namespace DropFile.Socket

open DropFile.General.Processes
open DropFile.General.Processes.Process
open DropFile.Streams

abbrev SocketProcess (Peer σ α : Type) := Process Peer Exception σ α

def bufferSize : Nat := 1024 * 1024 * 1

/-- `SocketBase::ACK`. -/
def ack : Bytes := ascii "ACK"

def socketException (what : String) : Exception :=
  ⟨.socket, ascii what⟩

/-- The `boost::system::system_error` of a read or a write. -/
def systemError : Exception :=
  ⟨.systemError, ascii "connection lost"⟩

variable {Peer σ α : Type}

/-! ## Reading and writing bytes -/

/-- `boost::asio::write`. -/
def write (peer : Peer) : Bytes → SocketProcess Peer σ Unit
  | [] => pure ()
  | byte :: rest => .put peer byte (write peer rest) (.failed systemError)

/-- `boost::asio::async_read` of exactly `count` bytes. -/
def asyncRead (peer : Peer) :
    (count : Nat) → SocketProcess Peer σ (Option Bytes)
  | 0 => pure (some [])
  | count + 1 =>
      .get peer
        (fun byte => do
          let rest ← asyncRead peer count
          pure (rest.map (byte :: ·)))
        (.done none)

/-- `boost::asio::read` of exactly `count` bytes. -/
def read (peer : Peer) (count : Nat) : SocketProcess Peer σ Bytes := do
  match ← asyncRead peer count with
  | some bytes => pure bytes
  | none => raise systemError

/-! ## Sending -/

/-- The header and the content of one frame. -/
def frame (data : Bytes) : Bytes :=
  sizeBytes data.length ++ data

/-- Several frames after one another. -/
def frames (contents : List Bytes) : Bytes :=
  (contents.map frame).flatten

/-- `SocketBase::sendChunk`. -/
def sendChunk (peer : Peer) (data : Bytes) : SocketProcess Peer σ Unit :=
  write peer (frame data)

/--
The chunks that the loop of `send` makes, in at most `passes` passes, and the
rest after it, if there is any.
-/
def chunksFrom : (passes : Nat) → Bytes → List Bytes
  | 0, _ => []
  | passes + 1, data =>
      if data.length ≥ bufferSize then
        data.take bufferSize :: chunksFrom passes (data.drop bufferSize)
      else if data.length > 0 then
        [data]
      else
        []

/-- The chunks of a message; every pass of the loop takes bytes from it. -/
def chunks (data : Bytes) : List Bytes :=
  chunksFrom data.length data

def sendChunks (peer : Peer) : List Bytes → SocketProcess Peer σ Unit
  | [] => pure ()
  | chunk :: rest => do
      sendChunk peer chunk
      sendChunks peer rest

/-- `SocketBase::send`. -/
def send (peer : Peer) (data : Bytes) : SocketProcess Peer σ Unit :=
  sendChunks peer (chunks data)

/-- `SocketBase::sendACK`. -/
def sendACK (peer : Peer) : SocketProcess Peer σ Unit :=
  send peer ack

/-- `SocketBase::disconnect`. -/
def disconnect (peer : Peer) (disconnectMsg : Option Bytes) :
    SocketProcess Peer σ Unit :=
  match disconnectMsg with
  | some message => send peer message
  | none => pure ()

/-- `SocketBase::safeDisconnect`. -/
def safeDisconnect (peer : Peer) (disconnectMsg : Option Bytes) :
    SocketProcess Peer σ Unit :=
  (disconnect peer disconnectMsg).handle fun _ => pure ()

/-! ## Receiving -/

/-- What `getMessageLength` answers to a header that is too large. -/
def refusal : Bytes :=
  ascii "Cannot receive message of this size."

/-- The exception for a header that is too large. -/
def tooLong (messageLength : Nat) : Exception :=
  socketException
    s!"Somebody is trying to send {messageLength} bytes in single message, which is more than allowed ({bufferSize})"

/-- `SocketBase::getMessageLength`. -/
def getMessageLength (peer : Peer) : SocketProcess Peer σ Nat := do
  let header ← read peer 8
  let messageLength := sizeOfBytes header
  if messageLength > bufferSize then
    safeDisconnect peer (some refusal)
    raise (tooLong messageLength)
  else
    pure messageLength

/-- `SocketBase::receive`. -/
def receive (peer : Peer) : SocketProcess Peer σ Bytes := do
  let messageLength ← getMessageLength peer
  read peer messageLength

/-- `SocketBase::receiveToBuffer`, with what the buffer then holds. -/
def receiveToBuffer (peer : Peer) : SocketProcess Peer σ Bytes := do
  let messageLength ← getMessageLength peer
  read peer messageLength

/-- The exception for a response that is not an ACK. -/
def responseNotOk (response : Bytes) : Exception :=
  let additionalMessage :=
    if response.length < 100 then response
    else ascii "Too large to print."
  ⟨.socket,
    ascii s!"Response not ok. Response size: {response.length}. " ++
      additionalMessage⟩

/-- `SocketBase::receiveACK`. -/
def receiveACK (peer : Peer) : SocketProcess Peer σ Unit := do
  let response ← receiveToBuffer peer
  if response ≠ ack then
    raise (responseNotOk response)
  else
    pure ()

/-- `SocketBase::asyncReadMessageImpl`. -/
def asyncReadMessageImpl (peer : Peer)
    (messageHandler : Bytes → SocketProcess Peer σ Unit)
    (messageSize : Nat) : SocketProcess Peer σ Unit := do
  match ← asyncRead peer messageSize with
  | some message => messageHandler message
  | none => pure ()

/-- What `asyncReadHeader` answers to a header that is too large. -/
def tooLargeText (messageSize maxMsgSize : Nat) : Bytes :=
  ascii
    s!"Tried to send {messageSize} bytes, which is more than allowed ({maxMsgSize})."

/-- `SocketBase::asyncReadHeader`. -/
def asyncReadHeader (peer : Peer) (maxMsgSize : Nat)
    (messageHandler : Bytes → SocketProcess Peer σ Unit) :
    SocketProcess Peer σ Unit := do
  match ← asyncRead peer 8 with
  | none => pure ()
  | some header =>
      let messageSize := sizeOfBytes header
      if messageSize > maxMsgSize then
        safeDisconnect peer (some (tooLargeText messageSize maxMsgSize))
      else
        asyncReadMessageImpl peer messageHandler messageSize

/-- `SocketBase::asyncReadMessage`. -/
def asyncReadMessage (peer : Peer) (maxMsgSize : Nat)
    (messageHandler : Bytes → SocketProcess Peer σ Unit) :
    SocketProcess Peer σ Unit :=
  if maxMsgSize > bufferSize then
    raise (socketException
      s!"Tried to schedule receiving message with max size of {maxMsgSize} bytes, where buffer size is {bufferSize}.")
  else
    asyncReadHeader peer maxMsgSize messageHandler

/-! ## Chunks and frames -/

theorem bufferSize_lt_sizeModulus : bufferSize < sizeModulus := by
  decide

theorem bufferSize_pos : 0 < bufferSize := by
  decide

@[simp]
theorem frames_nil : frames [] = [] :=
  rfl

@[simp]
theorem frames_cons (content : Bytes) (contents : List Bytes) :
    frames (content :: contents) = frame content ++ frames contents :=
  rfl

@[simp]
theorem frames_append (first second : List Bytes) :
    frames (first ++ second) = frames first ++ frames second := by
  simp [frames]

@[simp]
theorem chunks_nil : chunks [] = [] :=
  rfl

/-- A message below the size of the buffer is sent as it is. -/
theorem chunks_of_lt
    {data : Bytes}
    (nonempty : data ≠ [])
    (small : data.length < bufferSize) :
    chunks data = [data] := by
  have positive := List.length_pos_iff.2 nonempty
  obtain ⟨passes, length⟩ : ∃ passes, data.length = passes + 1 :=
    ⟨data.length - 1, by omega⟩
  rw [chunks, length, chunksFrom, if_neg (by omega), if_pos positive]

/-- A message that just fills the buffer is a single chunk. -/
theorem chunks_of_le
    {data : Bytes}
    (nonempty : data ≠ [])
    (fits : data.length ≤ bufferSize) :
    chunks data = [data] := by
  rcases Nat.lt_or_eq_of_le fits with small | full
  · exact chunks_of_lt nonempty small
  · have positive := List.length_pos_iff.2 nonempty
    obtain ⟨passes, length⟩ : ∃ passes, data.length = passes + 1 :=
      ⟨data.length - 1, by omega⟩
    have rest : data.drop bufferSize = [] := by
      rw [← full, List.drop_length]
    have all : data.take bufferSize = data := by
      rw [← full, List.take_length]
    rw [chunks, length, chunksFrom, if_pos (by omega), rest, all]
    cases passes <;> rfl

/-! ## With peers that play along -/

section Playing

variable [DecidableEq Peer] {state : σ}

theorem write_plays (peer : Peer) (bytes : Bytes) :
    Plays (write peer bytes) state silence (only peer bytes) (.done ())
      state := by
  induction bytes with
  | nil =>
      rw [only_nil]
      exact .rest _ _
  | cons byte rest inductionHypothesis =>
      have plays :
          Plays (write peer (byte :: rest)) state silence
            ((only peer [byte]).followedBy (only peer rest)) (.done ())
            state :=
        .put inductionHypothesis
      rwa [only_followedBy_only] at plays

theorem asyncRead_plays (peer : Peer) (bytes : Bytes) :
    Plays (asyncRead peer bytes.length) state (only peer bytes) silence
      (.done (some bytes)) state := by
  induction bytes with
  | nil =>
      rw [only_nil]
      exact .rest _ _
  | cons byte rest inductionHypothesis =>
      have plays :
          Plays (asyncRead peer (byte :: rest).length) state
            ((only peer [byte]).followedBy (only peer rest)) silence
            (.done (some (byte :: rest))) state :=
        .get (inductionHypothesis.bind fun rest =>
          pure (rest.map (byte :: ·)))
      rwa [only_followedBy_only] at plays

theorem read_plays (peer : Peer) (bytes : Bytes) :
    Plays (read peer bytes.length) state (only peer bytes) silence
      (.done bytes) state :=
  (asyncRead_plays peer bytes).bind _

theorem sendChunks_plays (peer : Peer) (contents : List Bytes) :
    Plays (sendChunks peer contents) state silence
      (only peer (frames contents)) (.done ()) state := by
  induction contents with
  | nil =>
      rw [frames_nil, only_nil]
      exact .rest _ _
  | cons chunk rest inductionHypothesis =>
      exact (write_plays peer (frame chunk)).andThen inductionHypothesis

theorem send_plays (peer : Peer) (data : Bytes) :
    Plays (send peer data) state silence
      (only peer (frames (chunks data))) (.done ()) state :=
  sendChunks_plays peer (chunks data)

/-- A message that fits is sent as a single frame. -/
theorem send_plays_frame
    (peer : Peer) {data : Bytes}
    (nonempty : data ≠ [])
    (fits : data.length ≤ bufferSize) :
    Plays (send peer data) state silence (only peer (frame data))
      (.done ()) state := by
  have plays :
      Plays (send peer data) state silence
        (only peer (frames (chunks data))) (.done ()) state :=
    send_plays peer data
  rwa [chunks_of_le nonempty fits, frames_cons, frames_nil,
    List.append_nil] at plays

theorem sendACK_plays (peer : Peer) :
    Plays (sendACK peer) state silence (only peer (frame ack)) (.done ())
      state :=
  send_plays_frame peer (by decide) (by decide)

theorem getMessageLength_plays
    (peer : Peer) {data : Bytes}
    (fits : data.length ≤ bufferSize) :
    Plays (getMessageLength peer) state
      (only peer (sizeBytes data.length)) silence (.done data.length)
      state := by
  have headerRead :
      Plays (read peer (sizeBytes data.length).length) state
        (only peer (sizeBytes data.length)) silence
        (.done (sizeBytes data.length)) state :=
    read_plays peer (sizeBytes data.length)
  rw [sizeBytes_length] at headerRead
  have inHeader :
      sizeOfBytes (sizeBytes data.length) = data.length :=
    sizeOfBytes_sizeBytes
      (Nat.lt_of_le_of_lt fits bufferSize_lt_sizeModulus)
  refine headerRead.andThen_eq ?_
  rw [inHeader, if_neg (Nat.not_lt.2 fits)]
  rfl

theorem receive_plays
    (peer : Peer) {data : Bytes}
    (fits : data.length ≤ bufferSize) :
    Plays (receive peer) state (only peer (frame data)) silence
      (.done data) state :=
  (getMessageLength_plays peer fits).andThen (read_plays peer data)
    (only_followedBy_only ..)

theorem receiveToBuffer_plays
    (peer : Peer) {data : Bytes}
    (fits : data.length ≤ bufferSize) :
    Plays (receiveToBuffer peer) state (only peer (frame data)) silence
      (.done data) state :=
  receive_plays peer fits

theorem receiveACK_plays (peer : Peer) :
    Plays (receiveACK peer) state (only peer (frame ack)) silence
      (.done ()) state := by
  have fits : ack.length ≤ bufferSize := by decide
  refine (receiveToBuffer_plays peer fits).andThen_eq ?_
  rw [if_neg (by simp)]
  rfl

theorem asyncReadMessage_plays
    (peer : Peer) {maxMsgSize : Nat} {data : Bytes}
    (messageHandler : Bytes → SocketProcess Peer σ Unit)
    (allowed : maxMsgSize ≤ bufferSize)
    (fits : data.length ≤ maxMsgSize) :
    Plays (asyncReadMessage peer maxMsgSize messageHandler) state
      (only peer (frame data)) silence (messageHandler data) state := by
  have headerRead :
      Plays (asyncRead peer (sizeBytes data.length).length) state
        (only peer (sizeBytes data.length)) silence
        (.done (some (sizeBytes data.length))) state :=
    asyncRead_plays peer (sizeBytes data.length)
  rw [sizeBytes_length] at headerRead
  have inHeader :
      sizeOfBytes (sizeBytes data.length) = data.length :=
    sizeOfBytes_sizeBytes (Nat.lt_of_le_of_lt (fits.trans allowed)
      bufferSize_lt_sizeModulus)
  have messageRead :
      Plays (asyncReadMessageImpl peer messageHandler data.length) state
        (only peer data) silence (messageHandler data) state :=
    (asyncRead_plays peer data).bind _
  rw [asyncReadMessage, if_neg (Nat.not_lt.2 allowed)]
  refine headerRead.andThen (?_ : Plays _ _ (only peer data) silence _ _)
    (only_followedBy_only ..)
  dsimp only
  rw [inHeader, if_neg (Nat.not_lt.2 fits)]
  exact messageRead

/-- A header that announces too much is answered at once. -/
theorem asyncReadMessage_plays_refusal
    (peer : Peer) {maxMsgSize messageSize : Nat}
    (messageHandler : Bytes → SocketProcess Peer σ Unit)
    (allowed : maxMsgSize ≤ bufferSize)
    (tooLarge : maxMsgSize < messageSize)
    (fits : messageSize < sizeModulus) :
    Plays (asyncReadMessage peer maxMsgSize messageHandler) state
      (only peer (sizeBytes messageSize)) silence
      (safeDisconnect peer (some (tooLargeText messageSize maxMsgSize)))
      state := by
  have headerRead :
      Plays (asyncRead peer (sizeBytes messageSize).length) state
        (only peer (sizeBytes messageSize)) silence
        (.done (some (sizeBytes messageSize))) state :=
    asyncRead_plays peer (sizeBytes messageSize)
  rw [sizeBytes_length] at headerRead
  rw [asyncReadMessage, if_neg (Nat.not_lt.2 allowed)]
  apply headerRead.andThen_eq
  dsimp only
  rw [sizeOfBytes_sizeBytes fits, if_pos tooLarge]

end Playing

/-! ## With any peers -/

section Environments

variable [DecidableEq Peer]
variable {rely always : Local Peer σ → Prop} {moment : Local Peer σ}

/-- The exception of a lost connection after some bytes were sent. -/
def LostSending (peer : Peer) (bytes : Bytes) (moment : Local Peer σ)
    (error : Exception) (later : Local Peer σ) : Prop :=
  error = systemError ∧
    ∃ part, part <+: bytes ∧ later = moment.sends peer part

/-- The exception of a lost connection after some bytes have arrived. -/
def LostReceiving (peer : Peer) (moment : Local Peer σ)
    (error : Exception) (later : Local Peer σ) : Prop :=
  error = systemError ∧ ∃ part, later = moment.receives peer part

theorem write_ensures
    (peer : Peer) (bytes : Bytes)
    (sending : ∀ part, part <+: bytes → always (moment.sends peer part)) :
    Ensures rely always (fun _ later => later = moment.sends peer bytes)
      (LostSending peer bytes moment) (write peer bytes) moment := by
  induction bytes generalizing moment with
  | nil =>
      have holds := sending [] List.nil_prefix
      rw [Local.sends_nil] at holds
      exact .pure holds (Local.sends_nil ..).symm
  | cons byte rest inductionHypothesis =>
      have holds := sending [] List.nil_prefix
      rw [Local.sends_nil] at holds
      have after : ∀ part, part <+: rest →
          always ((moment.sends peer [byte]).sends peer part) := by
        intro part isPrefix
        rw [Local.sends_sends]
        exact sending _ (List.cons_prefix_cons.2 ⟨rfl, isPrefix⟩)
      intro _
      refine ⟨holds, (inductionHypothesis after).weaken ?_ ?_,
        fun _ => ⟨holds, rfl, [], List.nil_prefix,
          (Local.sends_nil ..).symm⟩⟩
      · rintro - later - - rfl
        exact Local.sends_sends ..
      · rintro error later - - ⟨rfl, part, isPrefix, rfl⟩
        exact ⟨rfl, byte :: part, List.cons_prefix_cons.2 ⟨rfl, isPrefix⟩,
          Local.sends_sends ..⟩

theorem asyncRead_ensures_within
    (peer : Peer) (count : Nat)
    (arriving : ∀ part, part.length ≤ count →
      rely (moment.receives peer part) →
      always (moment.receives peer part)) :
    Ensures rely always
      (fun result later => ∃ part, later = moment.receives peer part ∧
        (∀ bytes ∈ result, part = bytes ∧ bytes.length = count) ∧
        (result = none → part.length < count))
      (fun _ _ => False) (asyncRead peer count) moment := by
  induction count generalizing moment with
  | zero =>
      refine .of_rely fun relies => .pure ?_
        ⟨[], (Local.receives_nil ..).symm, by simp, by simp⟩
      simpa using arriving [] (Nat.zero_le _) (by simpa using relies)
  | succ count inductionHypothesis =>
      have after : ∀ byte part, part.length ≤ count →
          rely ((moment.receives peer [byte]).receives peer part) →
          always ((moment.receives peer [byte]).receives peer part) := by
        intro byte part short
        rw [Local.receives_receives]
        exact arriving _ (Nat.succ_le_succ short)
      intro relies
      have holds : always moment := by
        simpa using arriving [] (Nat.zero_le _) (by simpa using relies)
      refine ⟨holds, fun byte =>
          (inductionHypothesis (after byte)).bind ?_,
        fun _ => ⟨holds, [], (Local.receives_nil ..).symm, by simp,
          fun _ => Nat.succ_pos count⟩⟩
      rintro result later - laterHolds ⟨part, rfl, same, fewer⟩
      refine .pure laterHolds
        ⟨byte :: part, Local.receives_receives .., ?_, ?_⟩
      · intro bytes member
        rcases Option.mem_map.1 member with ⟨rest, isRest, rfl⟩
        rcases same rest isRest with ⟨rfl, length⟩
        exact ⟨rfl, congrArg (· + 1) length⟩
      · intro lost
        exact Nat.succ_lt_succ (fewer (Option.map_eq_none_iff.1 lost))

theorem asyncRead_ensures
    (peer : Peer) (count : Nat)
    (arriving : ∀ part, rely (moment.receives peer part) →
      always (moment.receives peer part)) :
    Ensures rely always
      (fun result later => ∃ part, later = moment.receives peer part ∧
        ∀ bytes ∈ result, part = bytes ∧ bytes.length = count)
      (fun _ _ => False) (asyncRead peer count) moment := by
  apply (asyncRead_ensures_within peer count
    fun part _ => arriving part).weaken
  · rintro result later - - ⟨part, isLater, same, -⟩
    exact ⟨part, isLater, same⟩
  · exact fun _ _ _ _ impossible => impossible

theorem read_ensures_within
    (peer : Peer) (count : Nat)
    (arriving : ∀ part, part.length ≤ count →
      rely (moment.receives peer part) →
      always (moment.receives peer part)) :
    Ensures rely always
      (fun bytes later =>
        bytes.length = count ∧ later = moment.receives peer bytes)
      (fun error later => error = systemError ∧
        ∃ part, part.length < count ∧ later = moment.receives peer part)
      (read peer count) moment := by
  apply ((asyncRead_ensures_within peer count arriving).weaken
    (fun _ _ _ _ read => read) (fun _ _ _ _ => False.elim)).bind
  rintro (_ | bytes) later - holds ⟨part, rfl, same, fewer⟩
  · exact .raise holds ⟨rfl, part, fewer rfl, rfl⟩
  · rcases same bytes rfl with ⟨rfl, length⟩
    exact .pure holds ⟨length, rfl⟩

theorem read_ensures
    (peer : Peer) (count : Nat)
    (arriving : ∀ part, rely (moment.receives peer part) →
      always (moment.receives peer part)) :
    Ensures rely always
      (fun bytes later =>
        bytes.length = count ∧ later = moment.receives peer bytes)
      (LostReceiving peer moment) (read peer count) moment := by
  apply (read_ensures_within peer count fun part _ => arriving part).weaken
  · exact fun _ _ _ _ read => read
  · rintro error later - - ⟨isLost, part, -, isLater⟩
    exact ⟨isLost, part, isLater⟩

theorem sendChunks_ensures
    (peer : Peer) (contents : List Bytes)
    (sending : ∀ part, part <+: frames contents →
      always (moment.sends peer part)) :
    Ensures rely always
      (fun _ later => later = moment.sends peer (frames contents))
      (LostSending peer (frames contents) moment)
      (sendChunks peer contents) moment := by
  induction contents generalizing moment with
  | nil =>
      have holds := sending [] List.nil_prefix
      rw [Local.sends_nil] at holds
      exact .pure holds (Local.sends_nil ..).symm
  | cons chunk rest inductionHypothesis =>
      have whole : frames (chunk :: rest) = frame chunk ++ frames rest :=
        rfl
      refine ((write_ensures peer (frame chunk) ?_).weaken
        (fun _ _ _ _ sent => sent) ?_).bind ?_
      · exact fun part isPrefix =>
          sending part (isPrefix.trans (List.prefix_append _ _))
      · rintro error later - - ⟨rfl, part, isPrefix, rfl⟩
        exact ⟨rfl, part, isPrefix.trans (List.prefix_append _ _), rfl⟩
      · rintro - later - - rfl
        refine (inductionHypothesis ?_).weaken ?_ ?_
        · intro part isPrefix
          rw [Local.sends_sends]
          exact sending _ ((List.prefix_append_right_inj _).2 isPrefix)
        · rintro - later - - rfl
          exact Local.sends_sends ..
        · rintro error later - - ⟨rfl, part, isPrefix, rfl⟩
          exact ⟨rfl, frame chunk ++ part,
            (List.prefix_append_right_inj _).2 isPrefix,
            Local.sends_sends ..⟩

theorem send_ensures
    (peer : Peer) (data : Bytes)
    (sending : ∀ part, part <+: frames (chunks data) →
      always (moment.sends peer part)) :
    Ensures rely always
      (fun _ later => later = moment.sends peer (frames (chunks data)))
      (LostSending peer (frames (chunks data)) moment) (send peer data)
      moment :=
  sendChunks_ensures peer (chunks data) sending

/-- However far the text gets, no exception leaves. -/
theorem safeDisconnect_ensures
    {failing : Exception → Local Peer σ → Prop}
    (peer : Peer) (text : Bytes)
    (sending : ∀ part, part <+: frames (chunks text) →
      always (moment.sends peer part)) :
    Ensures rely always
      (fun _ later => ∃ part, part <+: frames (chunks text) ∧
        later = moment.sends peer part)
      failing (safeDisconnect peer (some text)) moment := by
  refine ((send_ensures peer text sending).weaken ?_
    (fun _ _ _ _ lost => lost)).handle ?_
  · rintro - later - - rfl
    exact ⟨_, List.prefix_rfl, rfl⟩
  · rintro error later - holds ⟨-, part, isPrefix, rfl⟩
    exact .pure holds ⟨part, isPrefix, rfl⟩

theorem safeDisconnect_keeps
    {failing : Exception → Local Peer σ → Prop}
    (peer : Peer) (text : Bytes)
    (sending : ∀ part, part <+: frames (chunks text) →
      always (moment.sends peer part)) :
    Ensures rely always (fun _ _ => True) failing
      (safeDisconnect peer (some text)) moment :=
  (safeDisconnect_ensures peer text sending).weaken
    (fun _ _ _ _ _ => trivial) (fun _ _ _ _ failed => failed)

/-- A header that announces more than the buffer can hold. -/
def Oversized (header : Bytes) : Prop :=
  header.length = 8 ∧ bufferSize < sizeOfBytes header

/-- The peer is told that its message is too long, as far as that works. -/
def Refused (peer : Peer) (moment : Local Peer σ)
    (error : Exception) (later : Local Peer σ) : Prop :=
  ∃ header part, error = tooLong (sizeOfBytes header) ∧
    Oversized header ∧ part <+: frames (chunks refusal) ∧
    later = (moment.receives peer header).sends peer part

/-- How receiving a message can fail. -/
def NotReceived (peer : Peer) (moment : Local Peer σ)
    (error : Exception) (later : Local Peer σ) : Prop :=
  LostReceiving peer moment error later ∨
    Refused peer moment error later

theorem receive_ensures
    (peer : Peer)
    (arriving : ∀ part, rely (moment.receives peer part) →
      always (moment.receives peer part))
    (refusing : ∀ header part, Oversized header →
      rely (moment.receives peer header) →
      part <+: frames (chunks refusal) →
      always ((moment.receives peer header).sends peer part)) :
    Ensures rely always
      (fun data later => data.length ≤ bufferSize ∧
        later = moment.receives peer (frame data))
      (NotReceived peer moment) (receive peer) moment := by
  have lengthRead :
      Ensures rely always
        (fun messageLength later => messageLength ≤ bufferSize ∧
          later = moment.receives peer (sizeBytes messageLength))
        (NotReceived peer moment) (getMessageLength peer) moment := by
    refine ((read_ensures peer 8 arriving).weaken
      (fun _ _ _ _ read => read)
      (fun _ _ _ _ => Or.inl)).bind ?_
    rintro header later relies holds ⟨length, rfl⟩
    dsimp only
    by_cases tooLong : sizeOfBytes header > bufferSize
    · rw [if_pos tooLong]
      refine (safeDisconnect_ensures peer refusal
        fun part isPrefix =>
          refusing header part ⟨length, tooLong⟩ relies isPrefix).bind ?_
      rintro - later - laterHolds ⟨part, isPrefix, rfl⟩
      exact .raise laterHolds (Or.inr ⟨header, part, rfl,
        ⟨length, tooLong⟩, isPrefix, rfl⟩)
    · rw [if_neg tooLong]
      refine .pure holds ⟨Nat.not_lt.1 tooLong, ?_⟩
      rw [sizeBytes_sizeOfBytes length]
  refine lengthRead.bind ?_
  rintro messageLength later - - ⟨fits, rfl⟩
  refine (read_ensures peer messageLength ?_).weaken ?_ ?_
  · intro part
    rw [Local.receives_receives]
    exact arriving _
  · rintro data later - - ⟨rfl, rfl⟩
    exact ⟨fits, Local.receives_receives ..⟩
  · rintro error later - - ⟨rfl, part, rfl⟩
    exact Or.inl ⟨rfl, _, Local.receives_receives ..⟩

theorem receiveACK_ensures
    (peer : Peer)
    (arriving : ∀ part, rely (moment.receives peer part) →
      always (moment.receives peer part))
    (refusing : ∀ header part, Oversized header →
      rely (moment.receives peer header) →
      part <+: frames (chunks refusal) →
      always ((moment.receives peer header).sends peer part)) :
    Ensures rely always
      (fun _ later => later = moment.receives peer (frame ack))
      (fun error later => NotReceived peer moment error later ∨
        ∃ response, error = responseNotOk response ∧ response ≠ ack ∧
          response.length ≤ bufferSize ∧
          later = moment.receives peer (frame response))
      (receiveACK peer) moment := by
  refine ((receive_ensures peer arriving refusing).weaken
    (fun _ _ _ _ read => read) (fun _ _ _ _ => Or.inl)).bind ?_
  rintro response later - holds ⟨fits, rfl⟩
  by_cases isAck : response = ack
  · rw [if_neg (not_not.2 isAck), isAck]
    rw [isAck] at holds
    exact .pure holds rfl
  · rw [if_pos isAck]
    exact .raise holds (Or.inr ⟨response, rfl, isAck, fits, rfl⟩)

theorem asyncReadMessage_ensures
    (peer : Peer) {maxMsgSize : Nat}
    {messageHandler : Bytes → SocketProcess Peer σ Unit}
    {failing : Exception → Local Peer σ → Prop}
    (allowed : maxMsgSize ≤ bufferSize)
    (arriving : ∀ part, always (moment.receives peer part))
    (refusing : ∀ header part, header.length = 8 →
      part <+: frames (chunks
        (tooLargeText (sizeOfBytes header) maxMsgSize)) →
      always ((moment.receives peer header).sends peer part))
    (handled : ∀ message, message.length ≤ maxMsgSize →
      Ensures rely always (fun _ _ => True) failing
        (messageHandler message)
        (moment.receives peer (frame message))) :
    Ensures rely always (fun _ _ => True) failing
      (asyncReadMessage peer maxMsgSize messageHandler) moment := by
  rw [asyncReadMessage, if_neg (Nat.not_lt.2 allowed)]
  have always_arriving (part : Bytes)
      (_ : rely (moment.receives peer part)) :
      always (moment.receives peer part) :=
    arriving part
  refine ((asyncRead_ensures peer 8 always_arriving).weaken
    (fun _ _ _ _ read => read) (fun _ _ _ _ => False.elim)).bind ?_
  rintro (_ | header) later - holds ⟨part, rfl, same⟩
  · exact .pure holds trivial
  · obtain ⟨rfl, length⟩ := same header rfl
    dsimp only
    by_cases tooLarge : sizeOfBytes part > maxMsgSize
    · rw [if_pos tooLarge]
      refine @safeDisconnect_keeps _ _ _ _ _ _ failing peer _ ?_
      intro text isText
      exact refusing part text length isText
    · rw [if_neg tooLarge]
      apply ((asyncRead_ensures peer (sizeOfBytes part) _).weaken
        (fun _ _ _ _ read => read) (fun _ _ _ _ => False.elim)).bind
      · rintro (_ | message) later - laterHolds ⟨bytes, rfl, same⟩
        · exact .pure laterHolds trivial
        · obtain ⟨rfl, size⟩ := same message rfl
          have whole : part ++ bytes = frame bytes := by
            rw [frame, size, sizeBytes_sizeOfBytes length]
          rw [Local.receives_receives, whole]
          apply handled
          rw [size]
          exact Nat.not_lt.1 tooLarge
      · intro bytes _
        rw [Local.receives_receives]
        exact arriving _

end Environments

end DropFile.Socket
