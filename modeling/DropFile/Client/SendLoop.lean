import DropFile.Client.DropFileSendClient
import DropFile.Client.ZstdRoundTrip
import DropFile.Framing

/-!
# The loop of `sendFSEntry`

The loop takes a call of `readsome` that has nothing ready for the end of the
file.  It sends the whole file exactly when that never happens while bytes are
left.
-/

namespace DropFile.Client.SendLoop

open DropFile.General.Processes
open DropFile.General.Processes.Process
open DropFile.General.Files
open DropFile.Streams
open DropFile.FileSystem
open DropFile.Socket
open DropFile.Framing
open DropFile.Client.DropFileSendClient

variable {Peer : Type} (machine : Machine) (server : Peer)

/-- What `sendFSEntry` still does when the loop has ended. -/
def awaitFinalACK (dataSource : RAIIFSEntry) : SenderProcess Peer Unit := do
  withEntry machine dataSource (receiveACK server)
  destroyEntry machine dataSource

/-! ## What `readsome` offers -/

/-- How many bytes a number of calls offers, from the given call on. -/
def offered : (first count : Nat) → Nat
  | _, 0 => 0
  | first, count + 1 =>
      min (machine.ready first) bufferSize + offered (first + 1) count

/-- No call has nothing ready while some of the bytes are left. -/
def NeverDry (first length : Nat) : Prop :=
  ∀ count, offered machine first count < length →
    0 < machine.ready (first + count)

theorem neverDry_zero (first : Nat) : NeverDry machine first 0 := by
  intro count few
  exact absurd few (Nat.not_lt_zero _)

/-- The first call has something ready, and then the later ones do. -/
theorem neverDry_iff
    {first length : Nat}
    (nonempty : 0 < length) :
    NeverDry machine first length ↔
      0 < machine.ready first ∧
        NeverDry machine (first + 1)
          (length - min (machine.ready first) bufferSize) := by
  constructor
  · intro neverDry
    constructor
    · exact neverDry 0 nonempty
    · intro count few
      have more : offered machine first (count + 1) < length := by
        rw [offered]
        omega
      have ready := neverDry (count + 1) more
      rwa [Nat.add_comm count 1, ← Nat.add_assoc] at ready
  · rintro ⟨ready, neverDry⟩ count few
    cases count with
    | zero => exact ready
    | succ count =>
        rw [offered] at few
        have later := neverDry count (by omega)
        rwa [Nat.add_assoc, Nat.add_comm 1 count] at later

/-! ## One pass -/

variable [DecidableEq Peer]

/-- The bytes that a call of `readsome` gives. -/
def bytesRead (rest : Bytes) (call : Nat) : Bytes :=
  rest.take (min (machine.ready call) bufferSize)

theorem sendPass_plays
    {state : Disk} {rest : Bytes} {call : Nat}
    (nonempty : rest ≠ [])
    (ready : 0 < machine.ready call) :
    bytesRead machine rest call ≠ [] ∧
      (bytesRead machine rest call).length ≤ bufferSize ∧
      Plays (sendPass machine server (rest, call)) state silence
        (only server (frame (bytesRead machine rest call)))
        (.done (.inl
          (rest.drop (bytesRead machine rest call).length, call + 1)))
        state := by
  have positive := bufferSize_pos
  have some : bytesRead machine rest call ≠ [] := by
    intro nothing
    rcases List.take_eq_nil_iff.1 nothing with zero | empty
    · omega
    · exact nonempty empty
  have fits : (bytesRead machine rest call).length ≤ bufferSize := by
    rw [bytesRead, List.length_take]
    omega
  refine ⟨some, fits, ?_⟩
  show Plays (if (bytesRead machine rest call).length > 0 then _ else _)
    state _ _ _ state
  rw [if_pos (List.length_pos_iff.2 some)]
  exact (send_plays_frame server some fits).andThen_eq rfl

theorem sendPass_leaves
    {state : Disk} {rest : Bytes} {call : Nat}
    (nothing : rest = [] ∨ machine.ready call = 0) :
    Plays (sendPass machine server (rest, call)) state silence silence
      (.done (.inr ())) state := by
  have none : (bytesRead machine rest call).length = 0 := by
    rw [bytesRead, List.length_take]
    rcases nothing with rfl | dry
    · exact Nat.min_zero _
    · rw [dry, Nat.zero_min, Nat.zero_min]
  show Plays (if (bytesRead machine rest call).length > 0 then _ else _)
    state _ _ _ state
  rw [if_neg (by omega)]
  exact .rest _ _

/-! ## The loop -/

/-- The loop ends, and it has sent everything unless a call was dry. -/
theorem sendContent_plays
    (state : Disk) {rest : Bytes} {call fuel : Nat}
    (enough : rest.length < fuel) :
    ∃ contents,
      (∀ content ∈ contents, content ≠ []) ∧
      (∀ content ∈ contents, content.length ≤ bufferSize) ∧
      Plays (sendContent machine server fuel (rest, call)) state silence
        (only server (frames contents)) (.done ()) state ∧
      (contents.flatten = rest ↔ NeverDry machine call rest.length) := by
  induction fuel generalizing rest call with
  | zero => exact absurd enough (Nat.not_lt_zero _)
  | succ fuel inductionHypothesis =>
      have leaves (nothing : rest = [] ∨ machine.ready call = 0) :
          Plays (sendContent machine server (fuel + 1) (rest, call)) state
            silence (only server (frames [])) (.done ()) state := by
        rw [frames_nil, only_nil]
        exact .loop_leave (sendPass_leaves machine server nothing)
      by_cases empty : rest = []
      · refine ⟨[], List.forall_mem_nil _, List.forall_mem_nil _,
          leaves (Or.inl empty), ?_⟩
        subst empty
        exact ⟨fun _ => neverDry_zero machine call, fun _ => rfl⟩
      · have nonempty := List.length_pos_iff.2 empty
        rcases Nat.eq_zero_or_pos (machine.ready call) with dry | ready
        · refine ⟨[], List.forall_mem_nil _, List.forall_mem_nil _,
            leaves (Or.inr dry), ?_⟩
          constructor
          · intro same
            exact absurd same.symm empty
          · intro neverDry
            exact absurd dry (Nat.ne_of_gt (neverDry 0 nonempty))
        · rcases @sendPass_plays _ machine server _ state rest call empty
            ready with ⟨some, fits, pass⟩
          have takes := List.length_pos_iff.2 some
          have left :
              (rest.drop (bytesRead machine rest call).length).length =
                rest.length - min (machine.ready call) bufferSize := by
            rw [List.length_drop, bytesRead, List.length_take]
            omega
          have split :
              bytesRead machine rest call ++
                rest.drop (bytesRead machine rest call).length = rest :=
            List.prefix_iff_eq_append.1 (List.take_prefix _ rest)
          rcases @inductionHypothesis
              (rest.drop (bytesRead machine rest call).length) (call + 1)
              (by rw [List.length_drop]; omega)
            with ⟨contents, filled, accepted, plays, whole⟩
          refine ⟨bytesRead machine rest call :: contents, ?_, ?_, ?_, ?_⟩
          · exact List.forall_mem_cons.2 ⟨some, filled⟩
          · exact List.forall_mem_cons.2 ⟨fits, accepted⟩
          · exact .loop_again pass plays
          · rw [List.flatten_cons, neverDry_iff machine nonempty, ← left,
              ← whole]
            constructor
            · intro same
              exact ⟨ready, List.append_cancel_left (same.trans split.symm)⟩
            · rintro ⟨-, same⟩
              rw [same, split]

/-! ## The transfer -/

/--
When the final `ACK` is waited for, the frames that were sent join to the whole
content.
-/
def SendsWhole (dataSource : RAIIFSEntry) (disk : Disk) (content : Bytes)
    (fuel : Nat) : Prop :=
  ∀ outputs later,
    Plays (sendFSEntry machine server dataSource fuel) disk
      (only server (frame ack)) outputs
      (awaitFinalACK machine server dataSource) later →
    ∃ contents,
      (∀ piece ∈ contents, piece.length ≤ bufferSize) ∧
      outputs = only server (frames contents) ∧
      contents.flatten = content

theorem destroyEntry_plays
    (dataSource : RAIIFSEntry) (disk : Disk) :
    ∃ later, Plays (destroyEntry machine dataSource : SenderProcess Peer Unit)
      disk silence silence (.done ()) later := by
  rw [destroyEntry]
  by_cases removes : dataSource.shouldRemove = true
  · rw [if_pos removes]
    exact ⟨_, .ofProgram rfl⟩
  · rw [if_neg removes]
    exact ⟨disk, .rest _ _⟩

/-- The final `ACK` ends `sendFSEntry`. -/
theorem awaitFinalACK_plays
    (dataSource : RAIIFSEntry) (disk : Disk) :
    ∃ later, Plays (awaitFinalACK machine server dataSource) disk
      (only server (frame ack)) silence (.done ()) later := by
  rcases @destroyEntry_plays Peer machine _ dataSource disk with
    ⟨later, destroys⟩
  have acknowledged :
      Plays (withEntry machine dataSource (receiveACK server)) disk
        (only server (frame ack)) silence (.done ()) disk :=
    (receiveACK_plays server).handle _
  exact ⟨later, acknowledged.andThen destroys⟩

theorem sendFSEntry_plays
    {dataSource : RAIIFSEntry} {disk : Disk} {content : Bytes} {fuel : Nat}
    (isFile : regularFile disk.tree machine.workingDirectory
      dataSource.path = some content)
    (enough : content.length < fuel) :
    ∃ contents,
      (∀ piece ∈ contents, piece ≠ []) ∧
      (∀ piece ∈ contents, piece.length ≤ bufferSize) ∧
      Plays (sendFSEntry machine server dataSource fuel) disk
        (only server (frame ack)) (only server (frames contents))
        (awaitFinalACK machine server dataSource) disk ∧
      (contents.flatten = content ↔
        NeverDry machine 0 content.length) := by
  rcases @sendContent_plays _ machine server _ disk content 0 fuel enough
    with ⟨contents, filled, accepted, sends, whole⟩
  refine ⟨contents, filled, accepted, ?_, whole⟩
  rw [sendFSEntry, withEntry]
  apply Plays.bind
  apply Plays.handle
  refine (receiveACK_plays server).andThen
    (?_ : Plays _ _ silence (only server (frames contents)) _ _)
  apply Plays.update
  simp only [id_eq, Process.andThen, isFile]
  exact sends.bind _

/-- The run is determined, so it decides whether everything is sent. -/
theorem sendsWhole_iff_of_plays
    {dataSource : RAIIFSEntry} {disk : Disk} {content : Bytes} {fuel : Nat}
    {contents : List Bytes}
    (accepted : ∀ piece ∈ contents, piece.length ≤ bufferSize)
    (plays : Plays (sendFSEntry machine server dataSource fuel) disk
      (only server (frame ack)) (only server (frames contents))
      (awaitFinalACK machine server dataSource) disk) :
    SendsWhole machine server dataSource disk content fuel ↔
      contents.flatten = content := by
  constructor
  · intro sendsWhole
    rcases sendsWhole _ _ plays with ⟨others, othersAccepted, same, others⟩
    have sameBytes := congrFun same server
    rw [only_self, only_self] at sameBytes
    rw [frames_inj accepted othersAccepted sameBytes]
    exact others
  · intro complete outputs later otherPlays
    refine ⟨contents, accepted, ?_, complete⟩
    rcases awaitFinalACK_plays machine server dataSource disk with
      ⟨_, finishes⟩
    rcases awaitFinalACK_plays machine server dataSource later with
      ⟨_, otherFinishes⟩
    have both := (plays.trans finishes).deterministic _
      (otherPlays.trans otherFinishes) (fun _ => List.prefix_rfl)
      (fun _ => List.prefix_rfl)
    simpa using both.2.1

/--
Every run comes to wait for the final `ACK`, and the whole content has been
sent exactly when no call of `readsome` has nothing ready too early.
-/
theorem sendFSEntry_sendsWhole_iff
    (dataSource : RAIIFSEntry) (disk : Disk) (content : Bytes) (fuel : Nat)
    (isFile : regularFile disk.tree machine.workingDirectory
      dataSource.path = some content)
    (enough : content.length < fuel) :
    (∃ outputs, Plays (sendFSEntry machine server dataSource fuel) disk
      (only server (frame ack)) outputs
      (awaitFinalACK machine server dataSource) disk) ∧
    (SendsWhole machine server dataSource disk content fuel ↔
      NeverDry machine 0 content.length) := by
  rcases sendFSEntry_plays machine server isFile enough with
    ⟨contents, -, accepted, plays, whole⟩
  constructor
  · exact ⟨_, plays⟩
  · rw [← whole]
    exact sendsWhole_iff_of_plays machine server accepted plays

/-- A machine whose calls of `readsome` have so many bytes ready. -/
def machineWith (ready : Nat → Nat) : Machine where
  zstd := ZstdRoundTrip.holdingBack Nat.one_pos Nat.one_pos
  library := ⟨fun _ => .error [], fun _ => .error [], fun _ => 0,
    fun _ _ => []⟩
  digest := ⟨Unit, some (), some, fun _ _ => some (), fun _ => some []⟩
  workingDirectory := []
  temporaryDirectory := ascii "/tmp"
  listing _ := []
  ready := ready

/-- A disk with a file `f` of two bytes. -/
def twoBytes : Disk :=
  ⟨FileTree.empty.place [ascii "f"] (.file [1, 2]), []⟩

/-- Two bytes, one of which is ready at a time. -/
theorem sendFSEntry_sendsWhole_iff_byte_by_byte :
    SendsWhole (machineWith fun _ => 1) () ⟨ascii "f", false⟩ twoBytes [1, 2]
      3 :=
  (sendFSEntry_sendsWhole_iff (machineWith fun _ => 1) () ⟨ascii "f", false⟩
    twoBytes [1, 2] 3 (by decide +kernel) (by decide)).2.2
      fun _ _ => Nat.one_pos

/-- Two bytes, of which the second is not ready when the first has been read. -/
theorem not_sendsWhole_pausing :
    ¬ SendsWhole (machineWith fun call => if call = 1 then 0 else 1) ()
      ⟨ascii "f", false⟩ twoBytes [1, 2] 3 := by
  have isFile : regularFile twoBytes.tree [] (ascii "f") = some [1, 2] := by
    decide +kernel
  have enough : [(1 : UInt8), 2].length < 3 := by decide
  intro sendsWhole
  rcases @sendFSEntry_plays _
      (machineWith fun call => if call = 1 then 0 else 1) () _
      ⟨ascii "f", false⟩ _ _ _ isFile enough with
    ⟨contents, -, accepted, plays, whole⟩
  have neverDry :=
    whole.1 ((sendsWhole_iff_of_plays _ _ accepted plays).1 sendsWhole)
  have ready := neverDry 1 (by decide)
  exact absurd ready (by decide)

end DropFile.Client.SendLoop
