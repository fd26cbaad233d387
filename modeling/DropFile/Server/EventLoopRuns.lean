import DropFile.General.Stages
import DropFile.Server.EventLoop

/-!
# Runs of the event loop

Whatever the event loop has come to, a server that handles its clients one
after another could have come to as well.  It visits the clients in the order
in which their first messages are complete, and what a client has sent of an
incomplete message it has not read yet.
-/

namespace DropFile.Server.EventLoop

open DropFile.General.Processes.Process
open DropFile.General.ProcessRuns
open DropFile.General.Stages (becomes_bind)
open DropFile.Streams
open DropFile.Socket
open DropFile.JsonObjects
open DropFile.Server.SessionsManager
open DropFile.Server.ServerSideClientSession
open DropFile.Server.Transfers
open DropFile.Server.Serving

variable {Peer : Type}

/-! ## One more visit -/

/-- The handling of one client by `serve`. -/
def visit (visited : Visit Peer) : SessionProcess Peer Unit := do
  modifyState
    (terminateTimeoutClients visited.clientTimeout visited.sweep)
  start visited.settings visited.client visited.fuel

theorem serve_concat (visits : List (Visit Peer)) (last : Visit Peer) :
    serve (visits ++ [last]) = serve visits >>= fun _ => visit last := by
  induction visits with
  | nil =>
      show (modifyState _ >>= fun _ => start _ _ _ >>= pure) = visit last
      rw [visit, bind_pure]
  | cons first rest inductionHypothesis =>
      rw [List.cons_append, serve, serve, inductionHypothesis,
        bind_assoc]
      simp only [bind_assoc]

/-- Clients that are visited and no others. -/
def Visited (visits : List (Visit Peer)) (peer : Peer) : Prop :=
  ∃ visited ∈ visits, visited.client = peer

theorem start_confined
    {peers : Peer → Prop} {self : Peer}
    (settings : Settings) (fuel : Nat)
    (isSelf : peers self) :
    Confined peers (KnowsOnly peers) (start settings self fuel) := by
  rw [start, asyncReadMessage]
  split_ifs
  · trivial
  · apply (asyncRead_confined isSelf 8).bind
    rintro (_ | header)
    · trivial
    · dsimp only
      split_ifs
      · exact safeDisconnect_confined isSelf _
      · apply (asyncRead_confined isSelf _).bind
        rintro (_ | content)
        · trivial
        · exact handleFirstRead_confined settings fuel content isSelf

theorem KnowsOnly.swept
    {peers : Peer → Prop} {table : SendersSessions Peer Json}
    (known : KnowsOnly peers table)
    (clientTimeout : Int) (sweep : List (SessionCode × Int)) :
    KnowsOnly peers (terminateTimeoutClients clientTimeout sweep table) := by
  intro code session found
  exact known code session (lookup_of_terminateTimeoutClients found)

theorem serve_confined
    {peers : Peer → Prop} (visits : List (Visit Peer))
    (isPeer : ∀ visited ∈ visits, peers visited.client) :
    Confined peers (KnowsOnly peers) (serve visits) := by
  induction visits with
  | nil => trivial
  | cons first rest inductionHypothesis =>
      rw [List.forall_mem_cons] at isPeer
      intro table known
      refine ⟨known.swept _ _, ?_⟩
      apply (start_confined first.settings first.fuel isPeer.1).bind
      intro _
      exact inductionHypothesis isPeer.2

section Runs

variable [DecidableEq Peer]

/-- Before the server has done anything. -/
def nothingYet : Moment Peer :=
  ⟨∅, silence, silence⟩

omit [DecidableEq Peer] in
theorem knowsOnly_empty (peers : Peer → Prop) :
    KnowsOnly peers (∅ : SendersSessions Peer Json) := by
  intro code session found
  rw [AList.lookup_empty] at found
  cases found

/-- Who is not visited is not known, and nothing was exchanged with it. -/
theorem untouched_of_serve
    {visits : List (Visit Peer)} {later : SessionProcess Peer Unit}
    {moment : Moment Peer}
    (becomes : Becomes (serve visits) nothingYet later moment) :
    KnowsOnly (Visited visits) moment.state ∧
      ∀ peer, ¬ Visited visits peer →
        moment.received peer = [] ∧ moment.sent peer = [] := by
  have confined : Confined (Visited visits) (KnowsOnly (Visited visits))
      (serve visits) :=
    serve_confined visits fun visited member => ⟨visited, member, rfl⟩
  have runs := confined.of_becomes (knowsOnly_empty _) becomes
  exact ⟨runs.1, runs.2.2⟩

/-! ## Reading a first message -/

/-- The connection is lost after a part of the bytes. -/
theorem asyncRead_loses
    {σ : Type} {peer : Peer} {part : Bytes} {count : Nat}
    {moment : Local Peer σ}
    (short : part.length < count) :
    Becomes (asyncRead peer count : SocketProcess Peer σ (Option Bytes))
      moment (.done none) (moment.receives peer part) := by
  induction part generalizing count moment with
  | nil =>
      cases count with
      | zero => cases short
      | succ count =>
          rw [Local.receives_nil]
          exact .loses .here (.get _ _ _)
  | cons byte rest inductionHypothesis =>
      cases count with
      | zero => cases short
      | succ count =>
          have first : Becomes
              (asyncRead peer (count + 1) :
                SocketProcess Peer σ (Option Bytes)) moment
              (asyncRead peer count >>= fun rest =>
                pure (rest.map (byte :: ·)))
              (moment.receives peer [byte]) := by
            have moves := Becomes.moves
              (.here : Becomes (asyncRead peer (count + 1)) moment _ _)
              (.get peer _ _ byte moment.state)
            rwa [followedBy_silence] at moves
          have onward :
              Becomes
                (asyncRead peer count >>= fun rest =>
                  (pure (rest.map (byte :: ·)) :
                    SocketProcess Peer σ (Option Bytes)))
                (moment.receives peer [byte]) (.done none)
                ((moment.receives peer [byte]).receives peer rest) :=
            becomes_bind
              (inductionHypothesis (Nat.lt_of_succ_lt_succ short)) _
          rw [Local.receives_receives] at onward
          exact first.trans onward

variable {visited : Visit Peer} {moment : Moment Peer}

/-- The moment when a visit has done its sweep. -/
def sweptBy (visited : Visit Peer) (moment : Moment Peer) : Moment Peer :=
  moment.change
    (terminateTimeoutClients visited.clientTimeout visited.sweep)

theorem visit_starts :
    Becomes (visit visited) moment
      (start visited.settings visited.client visited.fuel)
      (sweptBy visited moment) := by
  have moves := Becomes.moves
    (.here : Becomes (visit visited) moment _ _)
    (.update _ _ moment.state)
  rwa [followedBy_silence, followedBy_silence] at moves

/-- The buffer has room for a first message. -/
theorem firstMessage_allowed : maxFirstMessageSize ≤ bufferSize := by
  decide

theorem visit_hears
    {content : Bytes}
    (fits : content.length ≤ maxFirstMessageSize) :
    Becomes (visit visited) moment
      (handleFirstRead visited.settings visited.client visited.fuel content)
      ((sweptBy visited moment).receives visited.client
        (frame content)) := by
  have plays :
      Plays (start visited.settings visited.client visited.fuel)
        (sweptBy visited moment).state
        (only visited.client (frame content)) silence
        (handleFirstRead visited.settings visited.client visited.fuel
          content)
        (sweptBy visited moment).state :=
    asyncReadMessage_plays visited.client _ firstMessage_allowed fits
  have reads := Becomes.of_plays plays (sweptBy visited moment).received
    (sweptBy visited moment).sent
  rw [followedBy_silence] at reads
  exact visit_starts.trans reads

theorem visit_refuses
    {messageSize : Nat}
    (tooLarge : maxFirstMessageSize < messageSize)
    (fits : messageSize < sizeModulus) :
    Becomes (visit visited) moment
      (safeDisconnect visited.client
        (some (tooLargeText messageSize maxFirstMessageSize)))
      ((sweptBy visited moment).receives visited.client
        (sizeBytes messageSize)) := by
  have plays :
      Plays (start visited.settings visited.client visited.fuel)
        (sweptBy visited moment).state
        (only visited.client (sizeBytes messageSize)) silence
        (safeDisconnect visited.client
          (some (tooLargeText messageSize maxFirstMessageSize)))
        (sweptBy visited moment).state :=
    asyncReadMessage_plays_refusal visited.client _ firstMessage_allowed
      tooLarge fits
  have reads := Becomes.of_plays plays (sweptBy visited moment).received
    (sweptBy visited moment).sent
  rw [followedBy_silence] at reads
  exact visit_starts.trans reads

theorem asyncReadHeader_plays
    {σ : Type} {state : σ} {messageSize : Nat}
    (peer : Peer) (messageHandler : Bytes → SocketProcess Peer σ Unit)
    (fits : messageSize ≤ maxFirstMessageSize) :
    Plays (asyncReadHeader peer maxFirstMessageSize messageHandler) state
      (only peer (sizeBytes messageSize)) silence
      (asyncReadMessageImpl peer messageHandler messageSize) state := by
  have headerRead :
      Plays (asyncRead peer (sizeBytes messageSize).length) state
        (only peer (sizeBytes messageSize)) silence
        (.done (some (sizeBytes messageSize))) state :=
    asyncRead_plays peer (sizeBytes messageSize)
  have isSize : sizeOfBytes (sizeBytes messageSize) = messageSize :=
    sizeOfBytes_sizeBytes (Nat.lt_of_le_of_lt
      (fits.trans firstMessage_allowed) bufferSize_lt_sizeModulus)
  rw [sizeBytes_length] at headerRead
  apply headerRead.andThen_eq
  dsimp only
  rw [isSize, if_neg (Nat.not_lt.2 fits)]

/-- The connection is lost before the first message is complete. -/
theorem visit_loses
    {reading : Reading Peer}
    (small : ∀ size, reading.messageSize = some size →
      size ≤ maxFirstMessageSize)
    (short : reading.dataBuffer.length < reading.size) :
    Becomes (visit visited) moment (.done ())
      ((sweptBy visited moment).receives visited.client reading.heard) := by
  refine visit_starts.trans ?_
  rw [start, asyncReadMessage, if_neg (Nat.not_lt.2 firstMessage_allowed),
    asyncReadHeader]
  rcases reading with ⟨connection, _ | messageSize, dataBuffer⟩
  · exact becomes_bind (asyncRead_loses short) _
  · have fits : messageSize ≤ maxFirstMessageSize :=
      small messageSize rfl
    have plays :
        Plays
          (asyncReadHeader visited.client maxFirstMessageSize
            (handleFirstRead visited.settings visited.client visited.fuel))
          (sweptBy visited moment).state
          (only visited.client (sizeBytes messageSize)) silence
          (asyncReadMessageImpl visited.client
            (handleFirstRead visited.settings visited.client visited.fuel)
            messageSize)
          (sweptBy visited moment).state :=
      asyncReadHeader_plays visited.client _ fits
    have header := Becomes.of_plays plays (sweptBy visited moment).received
      (sweptBy visited moment).sent
    rw [followedBy_silence] at header
    refine header.trans ?_
    rw [Reading.heard, ← Local.receives_receives, asyncReadMessageImpl]
    exact becomes_bind (asyncRead_loses short) _

end Runs

end DropFile.Server.EventLoop
