import DropFile.General.ProcessRuns
import DropFile.Server.Serving

/-!
# The event loop

`DropFileServer::run` completes asynchronous operations on a single thread: a
connection is accepted, some bytes of a first message have arrived, or all that
a read waits for.  While the first message of a client comes in, other clients
are accepted, read and served.  Which operation completes next, and when the
other thread sweeps the table, is a parameter; a sweep during a handler counts
as one before or after it.  The TLS handshake is left out, as it is in
`ServerSideClientSession::start`, and so is the log.
-/

namespace DropFile.Server.EventLoop

open DropFile.General.Processes.Process
open DropFile.General.ProcessRuns
open DropFile.Streams
open DropFile.Socket
open DropFile.JsonObjects
open DropFile.Server.SessionsManager
open DropFile.Server.ServerSideClientSession

variable {Peer : Type}

/-! ## Events -/

/-- A new connection, with what its session depends on. -/
structure Connection (Peer : Type) where
  client : Peer
  settings : Settings
  fuel : Nat

/-- The pending `async_read` of a session. -/
structure Reading (Peer : Type) where
  connection : Connection Peer
  /-- What the header has said, when the message itself is read. -/
  messageSize : Option Nat
  /-- The bytes that are in `data_buffer`. -/
  dataBuffer : Bytes

namespace Reading

/-- What `transfer_exactly` waits for. -/
def size (reading : Reading Peer) : Nat :=
  match reading.messageSize with
  | none => 8
  | some messageSize => messageSize

/-- All bytes that the client has sent. -/
def heard (reading : Reading Peer) : Bytes :=
  match reading.messageSize with
  | none => reading.dataBuffer
  | some messageSize => sizeBytes messageSize ++ reading.dataBuffer

end Reading

abbrev Readings (Peer : Type) := Peer → Option (Reading Peer)

/-- What the loop goes on with. -/
inductive Event (Peer : Type) where
  | accepts (connection : Connection Peer)
  /-- The completion has an error, or the session cannot be started. -/
  | acceptFails
  | arrives (client : Peer)
  | completes (client : Peer)
  | sweeps (sweep : List (SessionCode × Int))

section Loop

variable [DecidableEq Peer]

/-- The handler of `acceptNewConnection`, which starts the session. -/
def acceptNewConnection (connection : Connection Peer)
    (readings : Readings Peer) : Readings Peer :=
  if maxFirstMessageSize > bufferSize then
    readings
  else
    Function.update readings connection.client (some ⟨connection, none, []⟩)

/-- Some bytes have arrived, or the connection is lost. -/
def arrive (reading : Reading Peer) :
    SessionProcess Peer (Option (Reading Peer)) := do
  match ← asyncRead reading.connection.client 1 with
  | some bytes =>
      pure (some { reading with dataBuffer := reading.dataBuffer ++ bytes })
  | none => pure none

/-- The handlers of `asyncReadHeader` and `asyncReadMessageImpl`. -/
def completeRead (reading : Reading Peer) :
    SessionProcess Peer (Option (Reading Peer)) := do
  let connection := reading.connection
  match reading.messageSize with
  | none =>
      let messageSize := sizeOfBytes reading.dataBuffer
      if messageSize > maxFirstMessageSize then
        safeDisconnect connection.client
          (some (tooLargeText messageSize maxFirstMessageSize))
        pure none
      else
        pure (some ⟨connection, some messageSize, []⟩)
  | some _ =>
      handleFirstRead connection.settings connection.client connection.fuel
        reading.dataBuffer
      pure none

variable (clientTimeout : Int)

/-- One event; a read that is not pending cannot complete. -/
def handleEvent (readings : Readings Peer) :
    Event Peer → SessionProcess Peer (Readings Peer)
  | .accepts connection => pure (acceptNewConnection connection readings)
  | .acceptFails => pure readings
  | .arrives client =>
      match readings client with
      | none => pure readings
      | some reading =>
          if reading.dataBuffer.length < reading.size then do
            let next ← arrive reading
            pure (Function.update readings client next)
          else
            pure readings
  | .completes client =>
      match readings client with
      | none => pure readings
      | some reading =>
          if reading.dataBuffer.length < reading.size then
            pure readings
          else do
            let next ← completeRead reading
            pure (Function.update readings client next)
  | .sweeps sweep => do
      modifyState (terminateTimeoutClients clientTimeout sweep)
      pure readings

/-- `io_context.run()`, for these events. -/
def run : List (Event Peer) → Readings Peer → SessionProcess Peer Unit
  | [], _ => pure ()
  | event :: rest, readings => do
      let next ← handleEvent clientTimeout readings event
      run rest next

end Loop

/-! ## Whom a session can reach -/

/-- The table knows no other clients. -/
def KnowsOnly (peers : Peer → Prop) (table : SendersSessions Peer Json) :
    Prop :=
  ∀ code session, table.lookup code = some session →
    peers session.clientSession

section Reaching

variable {σ : Type} {peers : Peer → Prop} {states : σ → Prop}
variable {peer : Peer}

theorem write_confined
    (isPeer : peers peer) (bytes : Bytes) :
    Confined peers states (write peer bytes : SocketProcess Peer σ Unit) := by
  induction bytes with
  | nil => trivial
  | cons byte rest inductionHypothesis =>
      exact ⟨isPeer, inductionHypothesis, trivial⟩

theorem asyncRead_confined
    (isPeer : peers peer) (count : Nat) :
    Confined peers states
      (asyncRead peer count : SocketProcess Peer σ (Option Bytes)) := by
  induction count with
  | zero => trivial
  | succ count inductionHypothesis =>
      exact ⟨isPeer, fun byte => inductionHypothesis.bind fun _ => trivial,
        trivial⟩

theorem read_confined
    (isPeer : peers peer) (count : Nat) :
    Confined peers states (read peer count : SocketProcess Peer σ Bytes) := by
  apply (asyncRead_confined isPeer count).bind
  rintro (_ | bytes)
  · trivial
  · trivial

theorem send_confined
    (isPeer : peers peer) (data : Bytes) :
    Confined peers states (send peer data : SocketProcess Peer σ Unit) := by
  rw [send]
  induction chunks data with
  | nil => trivial
  | cons chunk rest inductionHypothesis =>
      exact (write_confined isPeer (frame chunk)).bind
        fun _ => inductionHypothesis

theorem safeDisconnect_confined
    (isPeer : peers peer) (message : Option Bytes) :
    Confined peers states
      (safeDisconnect peer message : SocketProcess Peer σ Unit) := by
  apply Confined.handle
  · cases message with
    | none => trivial
    | some text => exact send_confined isPeer text
  · intro _
    trivial

theorem receive_confined
    (isPeer : peers peer) :
    Confined peers states (receive peer : SocketProcess Peer σ Bytes) := by
  have getsLength : Confined peers states
      (getMessageLength peer : SocketProcess Peer σ Nat) := by
    apply (read_confined isPeer 8).bind
    intro header
    dsimp only
    split_ifs
    · exact (safeDisconnect_confined isPeer _).bind fun _ => trivial
    · trivial
  exact getsLength.bind fun messageLength =>
    read_confined isPeer messageLength

theorem receiveACK_confined
    (isPeer : peers peer) :
    Confined peers states (receiveACK peer : SocketProcess Peer σ Unit) := by
  have receives : Confined peers states
      (receiveToBuffer peer : SocketProcess Peer σ Bytes) :=
    receive_confined isPeer
  apply receives.bind
  intro response
  split_ifs
  · trivial
  · trivial

variable {states : SendersSessions Peer Json → Prop}
variable {self sender : Peer}

theorem receiveFile_confined
    (settings : Settings) (metadata : Json) (fuel : Nat)
    (isSelf : peers self) (isSender : peers sender) :
    Confined peers states
      (receiveFile settings self sender metadata fuel) := by
  rw [receiveFile]
  apply Confined.ofExcept_bind
  intro text _
  apply (send_confined isSelf text).bind
  intro _
  apply (receiveACK_confined isSelf).bind
  intro _
  apply (send_confined isSender _).bind
  intro _
  apply Confined.ofExcept_bind
  intro _ _
  apply Confined.ofExcept_bind
  intro expectedBytes _
  have relays : Confined peers states
      (relay self sender expectedBytes fuel 0) := by
    apply Confined.loop
    intro _ totalReceivedBytes
    rw [relayPass]
    split_ifs
    · apply (receive_confined isSender).bind
      intro data
      exact (send_confined isSelf _).bind fun _ => trivial
    · trivial
  apply relays.bind
  intro _
  apply (receiveACK_confined isSelf).bind
  intro _
  apply (send_confined isSender _).bind
  intro _
  exact Confined.ofExcept_bind fun _ _ => trivial

theorem registerSession_confined
    (settings : Settings) (json : Json) (fuel : Nat)
    (isSelf : peers self) :
    Confined peers (KnowsOnly peers)
      (registerSession settings self json fuel) := by
  rw [registerSession]
  split_ifs
  · apply Confined.ofExcept_bind
    intro action _
    split_ifs
    · apply Confined.ofProgram_bind
      · intro table code later known returned
        have registered := ((registerSender_satisfies
          settings.generateSessionID settings.now self json fuel
          table).returned rfl returned).2
        rw [tryRegister] at registered
        split_ifs at registered
        cases registered
        constructor
        · intro other session found
          by_cases same : other = code
          · subst same
            rw [AList.lookup_insert] at found
            cases found
            exact isSelf
          · rw [AList.lookup_insert_ne same] at found
            exact known other session found
        · apply Confined.ofExcept_bind
          intro response _
          exact send_confined isSelf response
      · intro table error later _ threw
        have impossible := registerSender_satisfies
          settings.generateSessionID settings.now self json fuel table table
          rfl
        rw [threw] at impossible
        exact impossible.elim
    · apply Confined.ofExcept_bind
      intro code _
      apply Confined.ofProgram_bind
      · intro table value later known returned
        cases found : table.lookup code with
        | none =>
            rw [getSenderWithMetadata_of_unknown found] at returned
            cases returned
        | some session =>
            rw [getSenderWithMetadata_of_lookup found] at returned
            cases returned
            constructor
            · intro other left isLeft
              exact known other left (lookup_of_erase isLeft).2
            · exact receiveFile_confined settings _ fuel isSelf
                (known code session found)
      · intro table error later known threw
        cases found : table.lookup code with
        | none =>
            rw [getSenderWithMetadata_of_unknown found] at threw
            cases threw
            exact known
        | some session =>
            rw [getSenderWithMetadata_of_lookup found] at threw
            cases threw
  · exact safeDisconnect_confined isSelf _

/-- A session talks to its client and to a client that the table knows. -/
theorem handleFirstRead_confined
    (settings : Settings) (fuel : Nat) (content : Bytes)
    (isSelf : peers self) :
    Confined peers (KnowsOnly peers)
      (handleFirstRead settings self fuel content) := by
  apply Confined.handle
  · apply Confined.ofExcept_bind
    intro json _
    apply Confined.ofExcept_bind
    intro _ _
    exact registerSession_confined settings json fuel isSelf
  · intro error
    rw [catchFirstRead]
    split_ifs
    · exact safeDisconnect_confined isSelf _
    · trivial
    · trivial

end Reaching

end DropFile.Server.EventLoop
