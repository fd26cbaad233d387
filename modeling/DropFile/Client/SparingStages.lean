import DropFile.Client.ReceiveStages
import DropFile.Client.SendStages
import DropFile.Client.SparedFiles

/-!
# What the stages leave of the disk

Whatever a peer does, an exchange with it leaves the disk alone, and a call on
the disk leaves alone what it spares.
-/

namespace DropFile.Client.SparingStages

open DropFile.General.FuelledProgram
open DropFile.General.Processes.Process
open DropFile.General.PathNames
open DropFile.General.Files
open DropFile.General.Files.FileTree
open DropFile.General.Stages
open DropFile.Streams
open DropFile.FileSystem
open DropFile.Socket
open DropFile.JsonObjects
open DropFile.Client.DropFileSendClient hiding construct destroy
open DropFile.Client.DropFileReceiveClient hiding Machine construct destroy
open DropFile.Client.ExistingFiles
open DropFile.Client.SparedFiles
open DropFile.Client.ReceiveStages (Incoming)

/-! ## Exchanges -/

section Talking

variable {Peer σ : Type} [DecidableEq Peer] (peer : Peer)

theorem send_leavesAlone (data : Bytes) :
    LeavesAlone (send peer data : SocketProcess Peer σ Unit) := by
  intro state received sent
  apply (send_ensures peer data fun _ _ => trivial).weaken
  · rintro _ later - - rfl
    rfl
  · rintro error later - - ⟨-, part, -, rfl⟩
    rfl

theorem receive_leavesAlone :
    LeavesAlone (receive peer : SocketProcess Peer σ Bytes) := by
  intro state received sent
  apply (receive_ensures peer (fun _ _ => trivial)
    fun _ _ _ _ _ => trivial).weaken
  · rintro data later - - ⟨-, rfl⟩
    rfl
  · rintro error later - - (⟨-, part, rfl⟩ | ⟨header, part, -, -, -, rfl⟩)
    · rfl
    · rfl

theorem receiveToBuffer_leavesAlone :
    LeavesAlone (receiveToBuffer peer : SocketProcess Peer σ Bytes) :=
  receive_leavesAlone peer

theorem receiveACK_leavesAlone :
    LeavesAlone (receiveACK peer : SocketProcess Peer σ Unit) := by
  apply (receiveToBuffer_leavesAlone peer).bind
  intro response
  split_ifs
  · exact .raise _
  · exact .pure ()

theorem getReceiveCodeFromServer_leavesAlone
    (machine : DropFileSendClient.Machine) :
    LeavesAlone (getReceiveCodeFromServer machine peer) := by
  apply (receive_leavesAlone peer).bind
  intro received
  exact .ofExcept _

theorem sendContent_leavesAlone
    (machine : DropFileSendClient.Machine) (fuel : Nat)
    (current : Bytes × Nat) :
    LeavesAlone (sendContent machine peer fuel current) := by
  apply LeavesAlone.loop
  rintro left ⟨rest, call⟩
  rw [sendPass]
  split_ifs
  · exact (send_leavesAlone peer _).bind fun _ => .pure _
  · exact .pure _

theorem getUserConfirmation_leavesAlone (confirmation : UInt8) :
    LeavesAlone (getUserConfirmation peer confirmation) := by
  rw [getUserConfirmation]
  split_ifs
  · exact (send_leavesAlone peer _).bind fun _ => .raise _
  · exact send_leavesAlone peer _

theorem readIncoming_leavesAlone
    (machine : DropFileReceiveClient.Machine) (serverResponse : Json) :
    LeavesAlone (ReceiveStages.readIncoming machine serverResponse :
      ReceiverProcess Peer Incoming) := by
  apply (LeavesAlone.ofExcept _).bind
  intro filename
  apply (LeavesAlone.ofExcept _).bind
  intro isCompressed
  apply (LeavesAlone.ofExcept _).bind
  intro expectedBytes
  exact .pure _

omit peer in
/-- The file is looked at, and nothing is changed. -/
theorem validateFileHash_leavesAlone
    (machine : DropFileReceiveClient.Machine)
    (compressedFilePath : PathName) (expectedFileHash : Bytes) :
    LeavesAlone (validateFileHash machine compressedFilePath
      expectedFileHash : ReceiverProcess Peer Unit) := by
  intro receiving
  apply Leaves.getState_bind
  apply (LeavesAlone.ofExcept _ receiving).bind
  rintro actualFileHash later rfl
  split_ifs
  · exact .raise rfl
  · exact .pure rfl

end Talking

/-! ## Calls on the disk -/

section Disks

variable {kept : Location → Prop}

theorem leaves_of_sparing
    {Peer α : Type} [DecidableEq Peer] {disk : Disk}
    {program : DiskProgram α}
    (sparing : Sparing kept disk program) :
    Leaves disk (ofProgram program : SenderProcess Peer α)
      (fun _ later => Unchanged kept disk.tree later.tree)
      (fun _ later => Unchanged kept disk.tree later.tree) :=
  .ofProgram sparing

theorem leaves_onDisk
    {Peer α : Type} [DecidableEq Peer] {receiving : Receiving}
    {program : DiskProgram α}
    {after : α → Receiving → Prop}
    {failing : Exception → Receiving → Prop}
    (ends : Program.Satisfies (fun start => start = receiving.disk) program
      (fun value disk => after value { receiving with disk })
      (fun error disk => failing error { receiving with disk })) :
    Leaves receiving (onDisk program : ReceiverProcess Peer α) after
      failing := by
  intro received sent
  apply ReceivedFiles.onDisk_ensures trivial
  apply ends.weaken (fun _ same => same)
  · exact fun _ _ reached => ⟨trivial, reached⟩
  · exact fun _ _ reached => ⟨trivial, reached⟩

theorem leaves_onDisk_of_sparing
    {Peer α : Type} [DecidableEq Peer] {receiving : Receiving}
    {program : DiskProgram α}
    (sparing : Sparing kept receiving.disk program) :
    Leaves receiving (onDisk program : ReceiverProcess Peer α)
      (fun _ later =>
        Unchanged kept receiving.disk.tree later.disk.tree)
      (fun _ later =>
        Unchanged kept receiving.disk.tree later.disk.tree) :=
  leaves_onDisk sparing

theorem leaves_onDisk_of_returned
    {Peer α : Type} [DecidableEq Peer] {receiving : Receiving}
    {program : DiskProgram α} {value : α} {disk : Disk}
    {failing : Exception → Receiving → Prop}
    (returns : program receiving.disk = .returned value disk) :
    Leaves receiving (onDisk program : ReceiverProcess Peer α)
      (fun returned later =>
        returned = value ∧ later = { receiving with disk })
      failing := by
  apply leaves_onDisk
  rintro start rfl
  rw [returns]
  exact ⟨rfl, rfl⟩

/-- What opening the file of a receiver does. -/
theorem openReceivedFile_leaves
    {Peer : Type} [DecidableEq Peer] {receiving : Receiving}
    {machine : DropFileReceiveClient.Machine} {path : PathName}
    (spares : SparesWriting kept receiving.disk.tree
      machine.workingDirectory path) :
    Leaves receiving
      (openReceivedFile machine path : ReceiverProcess Peer Unit)
      (fun _ later =>
        Unchanged kept receiving.disk.tree later.disk.tree ∧
          (later.receivedFile = none ∨
            ∃ location,
              receiving.disk.tree.resolve machine.workingDirectory path =
                some location ∧
              receiving.disk.tree.CanPlace location ∧
              later.disk.tree =
                receiving.disk.tree.place location (.file []) ∧
              later.receivedFile = some (location, [])))
      (fun _ _ => True) := by
  rw [openReceivedFile]
  rcases openForWriting_cases machine.workingDirectory path
      receiving.disk with
    opens | ⟨location, resolved, possible, opens⟩
  · apply (leaves_onDisk_of_returned opens).bind
    rintro _ later ⟨rfl, rfl⟩
    exact .modifyState ⟨Unchanged.refl _, Or.inl rfl⟩
  · apply (leaves_onDisk_of_returned opens).bind
    rintro _ later ⟨rfl, rfl⟩
    apply Leaves.modifyState
    constructor
    · exact unchanged_place (spares location resolved possible) _
    · exact Or.inr ⟨location, resolved, possible, rfl, rfl⟩

theorem write_unchanged
    {receiving : Receiving}
    (spares : ∀ location bytes,
      receiving.receivedFile = some (location, bytes) → ¬ kept location)
    (data : Bytes) :
    Unchanged kept receiving.disk.tree
      (receiving.write data).disk.tree := by
  rcases receiving with ⟨disk, _ | ⟨location, bytes⟩, unpacking⟩
  · exact Unchanged.refl _
  · exact unchanged_place (spares location bytes rfl) _

/-- A pass of the loop leaves everything alone or writes what came. -/
theorem receivePass_leaves
    {Peer : Type} [DecidableEq Peer] {receiving : Receiving} (peer : Peer)
    (expectedBytes totalTransferredBytes : Nat) :
    Leaves receiving (receivePass peer expectedBytes totalTransferredBytes)
      (fun _ later =>
        later = receiving ∨ ∃ data, later = receiving.write data)
      (fun _ later => later = receiving) := by
  rw [receivePass]
  split_ifs
  · apply (receiveToBuffer_leavesAlone peer receiving).bind
    rintro data later rfl
    apply Leaves.modifyState_bind
    exact .pure (Or.inr ⟨_, rfl⟩)
  · exact .pure (Or.inl rfl)

end Disks

end DropFile.Client.SparingStages
