import DropFile.Client.DropFileReceiveClient
import DropFile.Client.DropFileSendClient

/-!
# `runDropFileClient`

The two branches of the client program.  A client object is destroyed when its
branch is left, also by an exception.
-/

namespace DropFile.Client.RunDropFileClient

open DropFile.General.Processes
open DropFile.General.Processes.Process
open DropFile.General.PathNames
open DropFile.Streams
open DropFile.Socket
open DropFile.Client.DropFileReceiveClient
open DropFile.Client.DropFileSendClient

variable {Peer : Type}

/-- How a client ends. -/
abbrev Ending := Except Exception Unit

/-- What goes on while a client object is alive, and its destructor. -/
def alive {σ : Type} (destroy process : SocketProcess Peer σ Unit) :
    SocketProcess Peer σ Unit := do
  Process.handle
    (fun exception => do
      destroy
      raise exception)
    process
  destroy

theorem alive_plays
    [DecidableEq Peer] {σ : Type} {state final : σ}
    {inputs outputs : Traffic Peer}
    (destroy : SocketProcess Peer σ Unit)
    {process later : SocketProcess Peer σ Unit}
    (plays : Plays process state inputs outputs later final) :
    Plays (alive destroy process) state inputs outputs (alive destroy later)
      final :=
  (plays.handle _).bind _

/-- `runDropFileClient` with `Action::send`. -/
def runSendClient (machine : DropFileSendClient.Machine) (server : Peer)
    (fileToSendPath : PathName) (fuel : Nat) : SenderProcess Peer Unit := do
  DropFileSendClient.construct machine
  alive (DropFileSendClient.destroy machine) do
    let (entry, _) ← sendFSEntryMetadata machine server fileToSendPath fuel
    sendFSEntry machine server entry fuel

/-- The blanks that `operator>>` skips. -/
def isBlank (byte : UInt8) : Bool :=
  byte = 32 || (9 ≤ byte && byte ≤ 13)

/-- `interaction_stream >> confirmation`, which is null before it. -/
def extractConfirmation (interactionStream : Bytes) : UInt8 :=
  (interactionStream.dropWhile isBlank).headD 0

/-- The first character of the input that is not blank. -/
def FirstEntered (interactionStream : Bytes) (entered : UInt8) : Prop :=
  ∃ blanks rest, interactionStream = blanks ++ entered :: rest ∧
    (∀ byte ∈ blanks, isBlank byte = true) ∧ isBlank entered = false

/-- What the user has answered; there may be nothing but blanks. -/
def Answered (interactionStream : Bytes) (answer : UInt8) : Prop :=
  FirstEntered interactionStream answer ∨
    answer = 0 ∧ ∀ byte ∈ interactionStream, isBlank byte = true

theorem answered_extractConfirmation (interactionStream : Bytes) :
    Answered interactionStream (extractConfirmation interactionStream) := by
  have split := List.takeWhile_append_dropWhile (p := isBlank)
    (l := interactionStream)
  have areBlank : ∀ byte ∈ interactionStream.takeWhile isBlank,
      isBlank byte = true := by
    intro byte member
    exact List.mem_takeWhile_imp member
  rw [extractConfirmation]
  cases dropped : interactionStream.dropWhile isBlank with
  | nil =>
      right
      rw [dropped, List.append_nil] at split
      rw [split] at areBlank
      exact ⟨rfl, areBlank⟩
  | cons entered rest =>
      left
      rw [dropped] at split
      have some : interactionStream.dropWhile isBlank ≠ [] := by
        rw [dropped]
        exact List.cons_ne_nil _ _
      have notBlank := List.head_dropWhile_not isBlank some
      simp only [dropped, List.head_cons] at notBlank
      exact ⟨_, rest, split.symm, areBlank, notBlank⟩

theorem Answered.unique
    {interactionStream : Bytes} {answer other : UInt8}
    (answered : Answered interactionStream answer)
    (alsoAnswered : Answered interactionStream other) :
    answer = other := by
  rcases answered with ⟨blanks, rest, rfl, areBlank, notBlank⟩ | ⟨rfl, none⟩
  · rcases alsoAnswered with
      ⟨others, more, same, areOthers, notOther⟩ | ⟨rfl, none⟩
    · have dropped : ∀ {blanks rest : Bytes} {entered : UInt8},
          (∀ byte ∈ blanks, isBlank byte = true) →
          isBlank entered = false →
          (blanks ++ entered :: rest).dropWhile isBlank =
            entered :: rest := by
        intro blanks rest entered areBlank notBlank
        rw [List.dropWhile_append_of_pos areBlank,
          List.dropWhile_cons_of_neg (by simp [notBlank])]
      have both := congrArg (List.dropWhile isBlank) same
      rw [dropped areBlank notBlank, dropped areOthers notOther] at both
      exact (List.cons.inj both).1
    · have isBlank := none answer (by simp)
      rw [notBlank] at isBlank
      cases isBlank
  · rcases alsoAnswered with ⟨others, more, rfl, -, notOther⟩ | ⟨rfl, -⟩
    · have isBlank := none other (by simp)
      rw [notOther] at isBlank
      cases isBlank
    · rfl

/-- The user is taken to agree exactly if a `y` comes first. -/
theorem extractConfirmation_eq_iff (interactionStream : Bytes) :
    extractConfirmation interactionStream = 121 ↔
      FirstEntered interactionStream 121 := by
  have answered := answered_extractConfirmation interactionStream
  constructor
  · intro isYes
    rw [isYes] at answered
    rcases answered with entered | ⟨isNull, -⟩
    · exact entered
    · cases isNull
  · intro entered
    exact answered.unique (Or.inl entered)

/-- `runDropFileClient` with `Action::receive`. -/
def runReceiveClient (machine : DropFileReceiveClient.Machine)
    (server : Peer) (interactionStream receiveCode : Bytes) (fuel : Nat) :
    ReceiverProcess Peer Unit := do
  DropFileReceiveClient.construct machine
  alive (DropFileReceiveClient.destroy machine)
    (receiveFile machine server (extractConfirmation interactionStream)
      receiveCode fuel)

end DropFile.Client.RunDropFileClient
