import DropFile.Client.ArchiveRoundTrip
import DropFile.Client.RunDropFileClient
import DropFile.Client.SentNames
import DropFile.General.FreshDirectories

/-!
# The temporary directories

Both clients remove and create a directory of their own below the temporary
directory of the machine, and remove it in the end.
-/

namespace DropFile.Client.TemporaryDirectories

open DropFile.General.FuelledProgram
open DropFile.General.Processes.Process
open DropFile.General.PathNames
open DropFile.General.Files
open DropFile.General.Files.FileTree
open DropFile.General.FreshDirectories
open DropFile.Streams
open DropFile.FileSystem
open DropFile.Client.ArchiveRoundTrip
open DropFile.Client.SentNames

/-- `DROP_FILE_SENDER_TMP_DIR` and `DROP_FILE_RECEIVER_TMP_DIR`. -/
def tmpDir (temporaryDirectory kind : PathName) : PathName :=
  join (join temporaryDirectory (ascii "drop-file")) kind

theorem senderTmpDir_eq (machine : DropFileSendClient.Machine) :
    DropFileSendClient.senderTmpDir machine =
      tmpDir machine.temporaryDirectory (ascii "sender") :=
  rfl

theorem receiverTmpDir_eq (machine : DropFileReceiveClient.Machine) :
    DropFileReceiveClient.receiverTmpDir machine =
      tmpDir machine.temporaryDirectory (ascii "receiver") :=
  rfl

/-- The names below the temporary directory of the machine. -/
def tmpDirNames (kind : PathName) : List PathName :=
  [ascii "drop-file", kind]

/-- The temporary directory is there, and no file is in the way. -/
structure TemporaryAt (tree : FileTree) (workingDirectory : Location)
    (temporaryDirectory kind : PathName) (top : Location) : Prop where
  leads : Leads tree workingDirectory temporaryDirectory top
  isDirectory : tree.node top = some .directory
  noFile : ∀ content,
    tree.node (top ++ [ascii "drop-file"]) ≠ some (.file content)
  /-- Its path does not lead through the directory of the client. -/
  spared : ∀ each ∈ tree.way workingDirectory temporaryDirectory,
    ¬ top ++ tmpDirNames kind <+: each

namespace TemporaryAt

theorem isName_dropFile : IsName (ascii "drop-file") := by
  decide +kernel

variable {disk : Disk} {workingDirectory top : Location}
variable {temporaryDirectory kind : PathName}
variable (isName : IsName kind)
include isName

theorem areNames : ∀ name ∈ tmpDirNames kind, IsName name := by
  simp [tmpDirNames, isName_dropFile, isName]

/-- Where the path of the client leads, in every tree with the directory. -/
theorem leads_of_directory
    {tree : FileTree}
    (leads : Leads tree workingDirectory temporaryDirectory top)
    (isDirectory : tree.node (top ++ [ascii "drop-file"]) =
      some .directory) :
    Leads tree workingDirectory (tmpDir temporaryDirectory kind)
      (top ++ tmpDirNames kind) := by
  have above : tree.node top = some .directory :=
    tree.ancestor_isDirectory [ascii "drop-file"]
      (by rw [isDirectory]; exact Option.some_ne_none _) (by simp)
  have leads := (leads.join above isName_dropFile).join isDirectory isName
  rw [List.append_assoc] at leads
  exact leads

variable (temporary : TemporaryAt disk.tree workingDirectory
  temporaryDirectory kind top)
include temporary

theorem noNul : 0 ∉ tmpDir temporaryDirectory kind :=
  no_nul_join (no_nul_join temporary.leads.noNul isName_dropFile.no_nul)
    isName.no_nul

/-- What an earlier client has left is removed. -/
theorem removeAll_run :
    removeAll workingDirectory (tmpDir temporaryDirectory kind) disk =
      .returned ()
        { disk with
          tree := disk.tree.removeAll (top ++ tmpDirNames kind) } := by
  rw [FileSystem.removeAll, Program.modifyState_run]
  cases here : disk.tree.node (top ++ [ascii "drop-file"]) with
  | some node =>
      cases node with
      | file content => exact absurd here (temporary.noFile content)
      | directory =>
          have leads := leads_of_directory isName temporary.leads here
          rw [leads.resolved]
  | none =>
      have leads := temporary.leads.join temporary.isDirectory
        isName_dropFile
      have nowhere : disk.tree.resolve workingDirectory
          (tmpDir temporaryDirectory kind) = none := by
        rw [tmpDir, resolve_join leads.resolved leads.noNul isName.no_nul
            (isAbsolute_of_no_slash isName.no_slash),
          components_of_no_slash isName.no_slash, walk, here,
          if_neg (Option.some_ne_none _).symm]
      have same : disk.tree.removeAll (top ++ tmpDirNames kind) =
          disk.tree := by
        apply FileTree.ext
        intro location
        by_cases below : top ++ tmpDirNames kind <+: location
        · rcases below with ⟨rest, rfl⟩
          have free := disk.tree.node_below_none here (kind :: rest)
          have split : top ++ tmpDirNames kind ++ rest =
              top ++ [ascii "drop-file"] ++ kind :: rest := by
            simp [tmpDirNames]
          rw [split, free]
          exact ite_eq_left_iff.2 fun _ => free
        · exact node_removeAll_outside _ below
      rw [nowhere, same]

theorem renew_run :
    (disk.tree.removeAll (top ++ tmpDirNames kind)).makeDirectories top
        (tmpDirNames kind) =
        (renew disk.tree top (tmpDirNames kind), true) ∧
      Renewed disk.tree (top ++ tmpDirNames kind)
        (renew disk.tree top (tmpDirNames kind)) := by
  apply renew_spec temporary.isDirectory (areNames isName)
    (List.cons_ne_nil _ _)
  intro done isPrefix different content
  rw [tmpDirNames, List.prefix_cons_iff] at isPrefix
  rcases isPrefix with rfl | ⟨rest, rfl, isPrefix⟩
  · rw [List.append_nil, temporary.isDirectory]
    exact fun same => Node.noConfusion (Option.some.inj same)
  · rw [List.prefix_cons_iff] at isPrefix
    rcases isPrefix with rfl | ⟨last, rfl, isPrefix⟩
    · exact temporary.noFile content
    · rw [List.prefix_nil.1 isPrefix] at different
      exact absurd rfl different

/-- The directory is created, and those above it if they are missing. -/
theorem createDirectories_run (handed : List PathName) :
    createDirectories workingDirectory (tmpDir temporaryDirectory kind)
        ⟨disk.tree.removeAll (top ++ tmpDirNames kind), handed⟩ =
      .returned ()
        ⟨renew disk.tree top (tmpDirNames kind),
          handed ++ [tmpDir temporaryDirectory kind]⟩ := by
  have relative : isAbsolute (joinNames (tmpDirNames kind)) = false :=
    isAbsolute_joinNames (List.cons_ne_nil _ _) (areNames isName)
  have split : components (joinNames (tmpDirNames kind)) =
      tmpDirNames kind :=
    components_joinNames (List.cons_ne_nil _ _) (areNames isName)
  have nonempty : tmpDir temporaryDirectory kind ≠ [] := fun empty =>
    isName.nonempty (join_eq_nil empty).2
  have resolved :
      (disk.tree.removeAll (top ++ tmpDirNames kind)).resolve
        workingDirectory temporaryDirectory = some top := by
    rw [← temporary.leads.resolved]
    apply resolve_of_way
    intro each member
    exact node_removeAll_outside _ (temporary.spared each member)
  have isDirectory :
      (disk.tree.removeAll (top ++ tmpDirNames kind)).node top =
        some .directory := by
    rw [node_removeAll_outside _ (temporary.spared top
      (mem_way temporary.leads.resolved).1), temporary.isDirectory]
  have joined : tmpDir temporaryDirectory kind =
      join temporaryDirectory (joinNames (tmpDirNames kind)) :=
    join_join temporaryDirectory isName_dropFile isName
  rcases walk_join resolved temporary.leads.noNul relative with
    ⟨leading, both, walked⟩
  rw [createDirectories,
    native_of_no_nul (noNul isName temporary), if_neg nonempty, joined,
    isAbsolute_join relative, both, split,
    makeDirectories_walk walked isDirectory,
    (renew_run isName temporary).1]
  rfl

theorem leads_renewed :
    Leads (renew disk.tree top (tmpDirNames kind)) workingDirectory
      (tmpDir temporaryDirectory kind) (top ++ tmpDirNames kind) := by
  have renewed := (renew_run isName temporary).2
  have above : top ++ [ascii "drop-file"] <+: top ++ tmpDirNames kind :=
    (List.prefix_append_right_inj top).2 ⟨[kind], rfl⟩
  apply leads_of_directory isName _ (renewed.holders _ above)
  exact ⟨temporary.leads.noNul, renewed.resolve temporary.leads.resolved
    temporary.isDirectory temporary.spared⟩

end TemporaryAt

/-! ## Constructors and destructors -/

/-- The disk when a client is constructed. -/
def constructed (disk : Disk) (temporaryDirectory kind : PathName)
    (top : Location) : Disk :=
  ⟨renew disk.tree top (tmpDirNames kind),
    disk.handed ++ [tmpDir temporaryDirectory kind]⟩

theorem isName_sender : IsName (ascii "sender") := by
  decide +kernel

theorem isName_receiver : IsName (ascii "receiver") := by
  decide +kernel

variable {Peer : Type} [DecidableEq Peer]

section Sender

open DropFile.Client.DropFileSendClient

variable {machine : Machine} {disk : Disk} {top : Location}
variable (temporary : TemporaryAt disk.tree machine.workingDirectory
  machine.temporaryDirectory (ascii "sender") top)
include temporary

theorem sender_construct_plays :
    Plays (construct machine : SenderProcess Peer Unit) disk silence silence
      (.done ())
      (constructed disk machine.temporaryDirectory (ascii "sender") top) := by
  apply (Plays.ofProgram
    (TemporaryAt.removeAll_run isName_sender temporary)).andThen
      (_ : Plays _ _ silence silence _ _)
  exact Plays.ofProgram
    (TemporaryAt.createDirectories_run isName_sender temporary disk.handed)

/-- The sender finds its directory empty. -/
theorem freshTmpDir_constructed :
    FreshTmpDir machine
      (constructed disk machine.temporaryDirectory (ascii "sender")
        top).tree (top ++ tmpDirNames (ascii "sender")) := by
  have renewed := (TemporaryAt.renew_run isName_sender temporary).2
  constructor
  · exact TemporaryAt.noNul isName_sender temporary
  · exact (TemporaryAt.leads_renewed isName_sender temporary).resolved
  · exact renewed.isDirectory
  · intro name
    exact renewed.empty _ (List.prefix_append _ _) (by simp)

omit temporary

theorem sender_destroy_plays
    {location : Location}
    (resolved : disk.tree.resolve machine.workingDirectory
      (senderTmpDir machine) = some location) :
    Plays (destroy machine : SenderProcess Peer Unit) disk silence silence
      (.done ()) { disk with tree := disk.tree.removeAll location } := by
  apply Plays.ofProgram
  rw [FileSystem.removeAll, Program.modifyState_run, resolved]

end Sender

section Receiver

open DropFile.Client.DropFileReceiveClient

variable {machine : Machine} {receiving : Receiving} {top : Location}
variable (temporary : TemporaryAt receiving.disk.tree
  machine.workingDirectory machine.temporaryDirectory (ascii "receiver")
  top)

include temporary in
theorem receiver_construct_plays :
    Plays (construct machine : ReceiverProcess Peer Unit) receiving silence
      silence (.done ())
      { receiving with
        disk :=
          constructed receiving.disk machine.temporaryDirectory
            (ascii "receiver") top } := by
  have removes : Plays
      (onDisk (FileSystem.removeAll machine.workingDirectory
        (receiverTmpDir machine)) : ReceiverProcess Peer Unit) receiving
      silence silence (.done ()) _ :=
    Plays.ofProgram (Program.focus_returned
      (TemporaryAt.removeAll_run isName_receiver temporary))
  have creates : Plays
      (onDisk (createDirectories machine.workingDirectory
        (receiverTmpDir machine)) : ReceiverProcess Peer Unit)
      { receiving with
        disk :=
          { receiving.disk with
            tree := receiving.disk.tree.removeAll
              (top ++ tmpDirNames (ascii "receiver")) } }
      silence silence (.done ()) _ :=
    Plays.ofProgram (Program.focus_returned
      (TemporaryAt.createDirectories_run isName_receiver temporary
        receiving.disk.handed))
  exact removes.andThen creates

theorem receiver_destroy_plays
    {location : Location}
    (resolved : receiving.disk.tree.resolve machine.workingDirectory
      (receiverTmpDir machine) = some location) :
    Plays (destroy machine : ReceiverProcess Peer Unit) receiving silence
      silence (.done ())
      { receiving with
        disk :=
          { receiving.disk with
            tree := receiving.disk.tree.removeAll location } } := by
  have removes : FileSystem.removeAll machine.workingDirectory
      (receiverTmpDir machine) receiving.disk =
        .returned ()
          { receiving.disk with
            tree := receiving.disk.tree.removeAll location } := by
    rw [FileSystem.removeAll, Program.modifyState_run, resolved]
  rw [destroy, onDisk]
  exact Plays.ofProgram (Program.focus_returned removes)

end Receiver

end DropFile.Client.TemporaryDirectories
