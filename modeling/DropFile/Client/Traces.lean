import DropFile.Client.LeftBehind
import DropFile.Client.MetadataSizes
import DropFile.Client.ReceivedDirectories
import DropFile.Client.SentDirectories
import DropFile.Client.SparingStages

/-!
# What the clients leave behind

However `DropFileSendClient` ends, its own directory is gone and everything
else is as it was.  The proof goes through the stages of the client, and at
each of them what has changed is below its directory.

`DropFileReceiveClient` leaves the file that it was to receive.  However it
ends, its own directory is gone, and no other directory is.
-/

namespace DropFile.Client.Traces

open DropFile.General.FuelledProgram
open DropFile.General.Processes
open DropFile.General.Processes.Process
open DropFile.General.PathNames
open DropFile.General.Files
open DropFile.General.Files.FileTree
open DropFile.General.FreshDirectories
open DropFile.General.Stages
open DropFile.General.Dialogues
open DropFile.Streams
open DropFile.FileSystem
open DropFile.Client.ArchiveManager
open DropFile.Client.ArchiveRoundTrip
open DropFile.Client.DropFileSendClient
open DropFile.Client.ExistingFiles
open DropFile.Client.MetadataSizes (emptyDigestLibrary)
open DropFile.Client.ReceivedDirectories (receiverDirectory)
open DropFile.Client.RunDropFileClient
open DropFile.Client.SendStages
open DropFile.Client.SentDirectories (senderDirectory prepared)
open DropFile.Client.SentNames
open DropFile.Client.SparedFiles
open DropFile.Client.SparingStages
open DropFile.Client.TemporaryDirectories

/-- The stages that are left at most. -/
def stagesLeft : SendStage → Nat
  | .clearing => 11
  | .making => 10
  | .testing => 9
  | .packing => 8
  | .describing _ _ => 7
  | .announcing _ _ => 6
  | .waiting _ => 5
  | .opening _ => 4
  | .sending _ _ => 3
  | .dropping _ _ => 2
  | .destroying _ => 1
  | .ended _ => 0

/-- The directory itself, and what is not below it. -/
def Outside (tmpDir location : Location) : Prop :=
  tmpDir <+: location → location = tmpDir

/-! ## The sender -/

section Sender

variable {machine : Machine} {disk : Disk} {top : Location}
variable {path : PathName}

/-- Only what is below the directory of the sender may have changed. -/
abbrev Spared (disk : Disk) (top : Location) (tree : FileTree) : Prop :=
  Unchanged (Outside (senderDirectory top))
    (renew disk.tree top (tmpDirNames (ascii "sender"))) tree

/-- An entry that is removed is the archive. -/
def Own (machine : Machine) (path : PathName) (entry : RAIIFSEntry) : Prop :=
  entry.shouldRemove = true →
    entry.path = archivePath machine path ∧ IsName (filename path)

/-- What is on the disk when a stage begins. -/
def Tidy (machine : Machine) (disk : Disk) (path : PathName)
    (top : Location) : SendStage → Disk → Prop
  | .clearing, now => now = disk
  | .making, now =>
      now = { disk with tree := disk.tree.removeAll (senderDirectory top) }
  | .testing, now | .packing, now =>
      now = prepared machine disk top
  | .describing entry _, now | .announcing entry _, now
  | .waiting entry, now | .opening entry, now | .sending entry _, now
  | .dropping entry _, now =>
      Spared disk top now.tree ∧ Own machine path entry
  | .destroying _, now => Spared disk top now.tree
  | .ended _, now => Retired disk.tree (senderDirectory top) now.tree

variable (temporary : TemporaryAt disk.tree machine.workingDirectory
  machine.temporaryDirectory (ascii "sender") top)
include temporary

/-- The path of the directory still leads to it. -/
theorem tmpDir_resolved
    {tree : FileTree}
    (spared : Spared disk top tree) :
    tree.resolve machine.workingDirectory (senderTmpDir machine) =
      some (senderDirectory top) := by
  have renewed := (TemporaryAt.renew_run isName_sender temporary).2
  have leads := TemporaryAt.leads_renewed isName_sender temporary
  apply resolve_of_directories tree _ leads.resolved
  intro location isDirectory
  rw [spared location, isDirectory]
  intro below
  by_contra different
  rw [renewed.empty location below different] at isDirectory
  cases isDirectory

theorem archive_resolved
    {tree : FileTree}
    (spared : Spared disk top tree)
    (isName : IsName (filename path)) :
    tree.resolve machine.workingDirectory (archivePath machine path) =
      some (senderDirectory top ++ [filename path]) := by
  have renewed := (TemporaryAt.renew_run isName_sender temporary).2
  apply resolve_join_name (tmpDir_resolved temporary spared) _
    (TemporaryAt.noNul isName_sender temporary) isName
  rw [spared _ fun _ => rfl]
  exact renewed.isDirectory

/-- The archive is removed, and it is below the directory. -/
theorem archive_sparesRemoval
    {tree : FileTree}
    (spared : Spared disk top tree)
    (isName : IsName (filename path)) :
    SparesRemoval (Outside (senderDirectory top)) tree
      machine.workingDirectory (archivePath machine path) := by
  intro location resolved other outside below
  rw [archive_resolved temporary spared isName] at resolved
  cases resolved
  have same := outside ((List.prefix_append _ _).trans below)
  rw [same] at below
  have longer := below.length_le
  rw [List.length_append] at longer
  exact Nat.not_succ_le_self _ longer

/-- The name of the archive is proper, or the archive is already there. -/
theorem isName_or_there
    (noNul : 0 ∉ path) :
    IsName (filename path) ∨
      fileExists (prepared machine disk top).tree machine.workingDirectory
        (archivePath machine path) = true := by
  have fresh := freshTmpDir_constructed temporary
  by_cases empty : filename path = []
  · exact Or.inr (archivePath_there fresh (Or.inl empty))
  by_cases isDot : filename path = dot
  · exact Or.inr (archivePath_there fresh (Or.inr (Or.inl isDot)))
  by_cases isDotDot : filename path = dotDot
  · exact Or.inr (archivePath_there fresh (Or.inr (Or.inr isDotDot)))
  exact Or.inl ⟨empty, isDot, isDotDot, no_slash_filename path,
    fun member => noNul (mem_of_mem_filename member)⟩

/-- Nothing but the archive is written. -/
theorem createArchive_leaves
    {Peer : Type} [DecidableEq Peer]
    (noNul : 0 ∉ path) (fuel : Nat) :
    Leaves (prepared machine disk top)
      (ofProgram (createArchive machine.zstd machine.workingDirectory
        machine.listing path (archivePath machine path) fuel) :
          SenderProcess Peer Unit)
      (fun _ later => Spared disk top later.tree ∧
        Own machine path ⟨archivePath machine path, true⟩)
      (fun _ later => Spared disk top later.tree) := by
  have start : Spared disk top (prepared machine disk top).tree :=
    Unchanged.refl _
  rcases isName_or_there temporary noNul with isName | there
  · have outside : SparesWriting (Outside (senderDirectory top))
        (prepared machine disk top).tree machine.workingDirectory
        (archivePath machine path) := by
      intro location resolved _ outside
      rw [archive_resolved temporary start isName] at resolved
      cases resolved
      have same := outside (List.prefix_append _ _)
      simp at same
    have creates := createArchive_sparing machine.zstd
      machine.listing (fun _ => outside) path fuel
    apply (leaves_of_sparing creates).weaken
    · exact fun _ _ spared => ⟨spared, fun _ => ⟨rfl, isName⟩⟩
    · exact fun _ _ spared => spared
  · apply Leaves.ofProgram
    rintro _ rfl
    rw [createArchive, Program.bind_returned (Program.getState_run _),
      if_pos there]
    exact start

/-- The directory is removed, with all that was written. -/
theorem destroy_leaves
    {Peer : Type} [DecidableEq Peer] {now : Disk}
    (spared : Spared disk top now.tree) :
    Leaves now (DropFileSendClient.destroy machine : SenderProcess Peer Unit)
      (fun _ later => Retired disk.tree (senderDirectory top) later.tree)
      (fun _ _ => False) := by
  have renewed := (TemporaryAt.renew_run isName_sender temporary).2
  apply Leaves.ofProgram
  rintro _ rfl
  rw [FileSystem.removeAll, Program.modifyState_run,
    tmpDir_resolved temporary spared]
  refine renewed.removeAll (by simp [tmpDirNames]) ?_
  intro other outside
  exact spared other fun below => absurd below outside

/-- The archive is removed, or the entry is not the client's own. -/
theorem destroyEntry_leaves
    {Peer : Type} [DecidableEq Peer] {now : Disk} {entry : RAIIFSEntry}
    (spared : Spared disk top now.tree)
    (own : Own machine path entry) :
    Leaves now (destroyEntry machine entry : SenderProcess Peer Unit)
      (fun _ later => Spared disk top later.tree) (fun _ _ => False) := by
  rw [destroyEntry]
  split_ifs with removes
  · have isArchive := own removes
    have spares := archive_sparesRemoval temporary spared isArchive.2
    rw [← isArchive.1] at spares
    apply Leaves.ofProgram
    rintro _ rfl
    have unchanged := removeAll_sparing spares _ rfl
    rw [FileSystem.removeAll, Program.modifyState_run] at unchanged ⊢
    exact spared.trans unchanged
  · exact .pure spared

/-- How a sender ends: all of its directory is gone. -/
abbrev LeavesNothing {Peer α : Type} [DecidableEq Peer] (disk : Disk)
    (top : Location) (process : SenderProcess Peer α) (now : Disk)
    (after : α → Disk → Prop) : Prop :=
  Leaves now process after fun _ later =>
    Retired disk.tree (senderDirectory top) later.tree

/-- Every stage leaves the disk tidy for the next one. -/
theorem part_leaves
    {Peer : Type} [DecidableEq Peer]
    (server : Peer) (noNul : 0 ∉ path) (fuel : Nat)
    (stage : SendStage) (now : Disk)
    (tidy : Tidy machine disk path top stage now) :
    LeavesNothing disk top (rest machine server path fuel stage) now
        (fun _ later => Retired disk.tree (senderDirectory top) later.tree) ∨
      LeavesNothing disk top (part machine server path fuel stage) now
        fun next later => Tidy machine disk path top next later ∧
          stagesLeft next < stagesLeft stage := by
  cases stage with
  | clearing =>
      right
      rw [show now = disk from tidy]
      have clears : LeavesNothing disk top
          (ofProgram (removeAll machine.workingDirectory
            (senderTmpDir machine)) : SenderProcess Peer Unit) disk
          fun _ later => Tidy machine disk path top .making later := by
        apply Leaves.ofProgram
        rintro _ rfl
        rw [senderTmpDir_eq, TemporaryAt.removeAll_run isName_sender temporary]
        rfl
      apply clears.bind
      intro _ later isMaking
      exact .pure ⟨isMaking, Nat.lt_succ_self _⟩
  | making =>
      right
      rw [show now = _ from tidy]
      apply Leaves.attempt_resume
      apply Leaves.ofProgram
      rintro _ rfl
      rw [senderTmpDir_eq, TemporaryAt.createDirectories_run isName_sender
        temporary]
      exact ⟨rfl, Nat.lt_succ_self _⟩
  | testing =>
      right
      apply Leaves.getState_bind
      have isPrepared : now = prepared machine disk top := tidy
      split_ifs
      · exact .pure ⟨isPrepared, Nat.lt_succ_self _⟩
      · refine .pure ⟨⟨?_, ?_⟩, by simp [stagesLeft]⟩
        · rw [isPrepared]
          exact Unchanged.refl _
        · rintro ⟨⟩
  | packing =>
      right
      rw [show now = _ from tidy]
      apply Leaves.attempt_resume
      apply (createArchive_leaves temporary noNul fuel).weaken
      · exact fun _ _ packed => ⟨packed, Nat.lt_succ_self _⟩
      · exact fun _ _ spared => ⟨spared, by simp [stagesLeft]⟩
  | describing entry isCompressed =>
      right
      apply Leaves.getState_bind
      apply Leaves.pure
      cases SendStages.metadataMessage machine now.tree entry isCompressed with
      | ok message => exact ⟨tidy, Nat.lt_succ_self _⟩
      | error exception =>
          exact ⟨tidy, by simp [afterDescribing, stagesLeft]⟩
  | announcing entry message =>
      right
      apply LeavesAlone.attempt_resume
      · apply (send_leavesAlone server message).bind
        intro _
        exact getReceiveCodeFromServer_leavesAlone server machine
      · exact fun _ => ⟨tidy, Nat.lt_succ_self _⟩
      · exact fun _ => ⟨tidy, by simp [stagesLeft]⟩
  | waiting entry =>
      right
      apply LeavesAlone.attempt_resume (receiveACK_leavesAlone server)
      · exact fun _ => ⟨tidy, Nat.lt_succ_self _⟩
      · exact fun _ => ⟨tidy, by simp [stagesLeft]⟩
  | opening entry =>
      right
      apply Leaves.getState_bind
      apply Leaves.pure
      cases regularFile now.tree machine.workingDirectory entry.path with
      | none => exact ⟨tidy, by simp [afterOpening, stagesLeft]⟩
      | some content => exact ⟨tidy, Nat.lt_succ_self _⟩
  | sending entry content =>
      right
      apply LeavesAlone.attempt_resume
      · exact (sendContent_leavesAlone server machine fuel _).bind fun _ =>
          receiveACK_leavesAlone server
      · exact fun _ => ⟨tidy, Nat.lt_succ_self _⟩
      · exact fun _ => ⟨tidy, Nat.lt_succ_self _⟩
  | dropping entry ending =>
      right
      have drops := @destroyEntry_leaves _ _ _ path temporary Peer _ now entry
        tidy.1 tidy.2
      apply (drops.weaken (fun _ _ spared => spared)
        fun _ _ => False.elim).bind
      intro _ later spared
      exact .pure ⟨spared, Nat.lt_succ_self _⟩
  | destroying ending =>
      right
      have destroys := @destroy_leaves _ _ _ temporary Peer _ now tidy
      apply (destroys.weaken (fun _ _ retired => retired)
        fun _ _ => False.elim).bind
      intro _ later retired
      exact .pure ⟨retired, Nat.lt_succ_self _⟩
  | ended ending =>
      left
      exact .ofExcept ending (fun _ _ => tidy) fun _ _ => tidy

/--
However the client ends, with any server and with the connection lost anywhere,
its directory is gone with all that was in it, and nothing else has changed but
that the directory above it is there.
-/
theorem runSendClient_leaves_no_trace
    {Peer : Type} [DecidableEq Peer]
    (server : Peer) (noNul : 0 ∉ path) (fuel : Nat)
    (received sent : Traffic Peer)
    {later : SenderProcess Peer Unit} {last : Local Peer Disk}
    (becomes : Becomes (runSendClient machine server path fuel)
      ⟨disk, received, sent⟩ later last)
    (ended : later = .done () ∨ ∃ error, later = .failed error) :
    Retired disk.tree (senderDirectory top) last.state.tree := by
  have leaves := (staged machine server path fuel).leaves stagesLeft
    (Tidy machine disk path top)
    (part_leaves temporary server noNul fuel) .clearing disk rfl
  have ensures := (leaves received sent).of_becomes becomes
  rcases ended with rfl | ⟨error, rfl⟩
  · exact (ensures trivial).2
  · exact (ensures trivial).2

end Sender

/-! ## The receiver -/

/-- A directory is gone, and no directory that is not in it. -/
structure Cleaned (tree : FileTree) (location : Location)
    (final : FileTree) : Prop where
  gone : ∀ other, location <+: other → final.node other = none
  holders : ∀ other, other <+: location → other ≠ location →
    final.node other = some .directory
  directories : ∀ other, ¬ location <+: other →
    tree.node other = some .directory → final.node other = some .directory

/-- A program on the disk of which the outcome is known. -/
theorem onDisk_ensures_of_returned
    {Peer α : Type} [DecidableEq Peer]
    {program : DiskProgram α} {value : α} {disk : Disk}
    {moment : Local Peer DropFileReceiveClient.Receiving}
    (returns : program moment.state.disk = .returned value disk) :
    Ensures (fun _ => True) (fun _ => True)
      (fun _ later => later = ReceivedFiles.withDisk moment disk)
      (fun _ _ => False)
      (DropFileReceiveClient.onDisk program :
        DropFileReceiveClient.ReceiverProcess Peer α) moment := by
  apply ReceivedFiles.onDisk_ensures trivial
  rintro start rfl
  rw [returns]
  exact ⟨trivial, rfl⟩

section Receiver

variable {machine : DropFileReceiveClient.Machine} {disk : Disk}
variable {top : Location}
variable (temporary : TemporaryAt disk.tree machine.workingDirectory
  machine.temporaryDirectory (ascii "receiver") top)
include temporary

/-- The receiver makes an end of its directory where it has made it. -/
theorem cleaned_of_destroyed
    {now : Disk}
    (kept : Unchanged
      (fun location =>
        (ReceivedDirectories.prepared machine disk top).tree.node location =
          some .directory)
      (ReceivedDirectories.prepared machine disk top).tree now.tree) :
    ∃ later,
      FileSystem.removeAll machine.workingDirectory
          (DropFileReceiveClient.receiverTmpDir machine) now =
        .returned () later ∧
      Cleaned disk.tree (receiverDirectory top) later.tree := by
  have renewed := (TemporaryAt.renew_run isName_receiver temporary).2
  have leads := TemporaryAt.leads_renewed isName_receiver temporary
  have directories : ∀ location,
      (ReceivedDirectories.prepared machine disk top).tree.node location =
          some .directory →
        now.tree.node location = some .directory :=
    fun location isDirectory =>
      (kept location isDirectory).trans isDirectory
  have resolved := resolve_of_directories now.tree directories leads.resolved
  refine ⟨{ now with tree := now.tree.removeAll (receiverDirectory top) },
    ?_, ?_⟩
  · rw [FileSystem.removeAll, Program.modifyState_run, receiverTmpDir_eq,
      resolved]
  · constructor
    · intro other isBelow
      exact if_pos ⟨isBelow, by simp [tmpDirNames]⟩
    · intro other isAbove different
      have outside : ¬ receiverDirectory top <+: other := fun isBelow =>
        different (isAbove.eq_of_length_le isBelow.length_le)
      rw [node_removeAll_outside _ outside]
      exact directories other (renewed.holders other isAbove)
    · intro other outside isDirectory
      rw [node_removeAll_outside _ outside]
      exact directories other (renewed.directory outside isDirectory)

/-- The destructor, after any part of the transfer. -/
theorem receiver_destroy_leaves
    {Peer : Type} [DecidableEq Peer]
    {now : DropFileReceiveClient.Receiving}
    (kept : Unchanged
      (fun location =>
        (ReceivedDirectories.prepared machine disk top).tree.node location =
          some .directory)
      (ReceivedDirectories.prepared machine disk top).tree now.disk.tree) :
    Leaves now (DropFileReceiveClient.destroy machine :
        DropFileReceiveClient.ReceiverProcess Peer Unit)
      (fun _ later =>
        Cleaned disk.tree (receiverDirectory top) later.disk.tree)
      (fun _ _ => False) := by
  rcases cleaned_of_destroyed temporary kept with ⟨later, returns, cleaned⟩
  apply (leaves_onDisk_of_returned returns).weaken
  · rintro _ _ ⟨-, rfl⟩
    exact cleaned
  · exact fun _ _ impossible => impossible

theorem construct_ensures
    {Peer : Type} [DecidableEq Peer] :
    Ensures (fun _ => True) (fun _ => True)
      (fun _ later => later = ReceivedFiles.starting
        (ReceivedDirectories.prepared machine disk top))
      (fun _ _ => False)
      (DropFileReceiveClient.construct machine :
        DropFileReceiveClient.ReceiverProcess Peer Unit)
      (ReceivedFiles.starting disk) := by
  rw [DropFileReceiveClient.construct]
  have removes := TemporaryAt.removeAll_run isName_receiver temporary
  have creates := TemporaryAt.createDirectories_run isName_receiver temporary
    disk.handed
  apply (onDisk_ensures_of_returned removes).bind
  rintro _ later - - same
  have moved : later.state.disk =
      { disk with tree := disk.tree.removeAll (receiverDirectory top) } := by
    rw [same]
    rfl
  apply (onDisk_ensures_of_returned (moved ▸ creates)).weaken
  · rintro _ _ - - rfl
    rw [same]
    rfl
  · exact fun _ _ _ _ impossible => impossible

/--
However the client ends, with any server, any archive and any user, and with
the connection lost anywhere, its directory is gone with all that was in it,
and all other directories are still there.
-/
theorem runReceiveClient_cleans_up
    {Peer : Type} [DecidableEq Peer]
    (server : Peer) (interactionStream receiveCode : Bytes) (fuel : Nat)
    {later : DropFileReceiveClient.ReceiverProcess Peer Unit}
    {last : Local Peer DropFileReceiveClient.Receiving}
    (becomes : Becomes
      (runReceiveClient machine server interactionStream receiveCode fuel)
      (ReceivedFiles.starting disk) later last)
    (ended : later = .done () ∨ ∃ error, later = .failed error) :
    Cleaned disk.tree (receiverDirectory top) last.state.disk.tree := by
  have ensures : Ensures (fun _ => True) (fun _ => True)
      (fun _ later =>
        Cleaned disk.tree (receiverDirectory top) later.state.disk.tree)
      (fun _ later =>
        Cleaned disk.tree (receiverDirectory top) later.state.disk.tree)
      (runReceiveClient machine server interactionStream receiveCode fuel)
      (ReceivedFiles.starting disk) := by
    unfold runReceiveClient
    have destroys := fun (moment : Local Peer DropFileReceiveClient.Receiving)
        (kept : Unchanged _ _ moment.state.disk.tree) =>
      @receiver_destroy_leaves _ _ _ temporary Peer _ moment.state kept
        moment.received moment.sent
    apply ((construct_ensures temporary).weaken (fun _ _ _ _ same => same)
      fun _ _ _ _ impossible => impossible.elim).bind
    rintro _ _ - - rfl
    have receives := ReceivingPhases.receiveFile_ensures machine server
      (extractConfirmation interactionStream) receiveCode fuel
      (ReceivedDirectories.prepared machine disk top)
    have keeps := (receives.weaken
      (fun _ _ _ phase _ => LeftBehind.directories_of_phase phase)
      fun _ _ _ phase _ => LeftBehind.directories_of_phase phase).weakenAlways
        fun _ _ => trivial
    apply (keeps.handle _).bind
    · rintro _ moment - - kept
      exact (destroys moment kept).weaken (fun _ _ _ _ cleaned => cleaned)
        fun _ _ _ _ impossible => impossible.elim
    · rintro error moment - - kept
      apply ((destroys moment kept).weaken (fun _ _ _ _ cleaned => cleaned)
        fun _ _ _ _ impossible => impossible.elim).bind
      rintro _ after - - cleaned
      exact .raise trivial cleaned
  have reached := ensures.of_becomes becomes
  rcases ended with rfl | ⟨error, rfl⟩
  · exact (reached trivial).2
  · exact (reached trivial).2

end Receiver

/-! ## Two clients that fail -/

/-- The archive is there already when its hash is asked for. -/
def undigested : Machine where
  zstd := smallLibrary
  library := FlatJson.flatLibrary
  digest := emptyDigestLibrary
  workingDirectory := []
  temporaryDirectory := ascii "/d"
  listing := smallListing
  ready _ := 7

def undumped : DropFileReceiveClient.Machine :=
  { ReceivedFiles.smallMachine with temporaryDirectory := ascii "/d" }

theorem smallTree_temporaryAt
    {kind : PathName}
    (isKind : kind = ascii "sender" ∨ kind = ascii "receiver") :
    TemporaryAt smallTree [] (ascii "/d") kind [ascii "d"] := by
  constructor
  · exact ⟨by decide, by decide +kernel⟩
  · decide +kernel
  · have free : smallTree.node ([ascii "d"] ++ [ascii "drop-file"]) =
        none := by
      decide +kernel
    intro content
    rw [free]
    exact (Option.some_ne_none _).symm
  · rcases isKind with rfl | rfl
    · decide +kernel
    · decide +kernel

/-- Whether a client has failed. -/
def hasFailed {σ : Type} : Process Unit Exception σ Unit → Bool
  | .failed _ => true
  | _ => false

/-- What a client that has failed has become. -/
theorem exists_failed
    {σ : Type} {process : Process Unit Exception σ Unit} {state : σ}
    (fails : (takeTurn () () process state [] []).map
      (fun reached => hasFailed reached.1) = some true) :
    ∃ (error : Exception) (last : Local Unit σ),
      Becomes process ⟨state, silence, silence⟩ (.failed error) last := by
  rcases Option.map_eq_some_iff.1 fails with ⟨⟨later, final⟩, taken, failed⟩
  have becomes := Becomes.of_plays (plays_of_takeTurn taken) silence silence
  cases later with
  | failed error => exact ⟨error, _, becomes⟩
  | _ => cases failed

theorem runSendClient_leaves_no_trace_undigested :
    ∃ (error : Exception) (last : Local Unit Disk),
      Becomes (runSendClient undigested () (ascii "t") 10)
        ⟨⟨smallTree, []⟩, silence, silence⟩ (.failed error) last ∧
      Retired smallTree (senderDirectory [ascii "d"]) last.state.tree := by
  have failed := @exists_failed _
    (runSendClient undigested () (ascii "t") 10) ⟨smallTree, []⟩
    (by decide +kernel)
  rcases failed with ⟨error, last, becomes⟩
  exact ⟨error, last, becomes,
    runSendClient_leaves_no_trace (smallTree_temporaryAt (.inl rfl)) ()
      (by decide) 10 silence silence becomes (Or.inr ⟨error, rfl⟩)⟩

theorem runReceiveClient_cleans_up_undumped :
    ∃ (error : Exception)
      (last : Local Unit DropFileReceiveClient.Receiving),
      Becomes (runReceiveClient undumped () [] [0xff] 10)
        (ReceivedFiles.starting ⟨smallTree, []⟩) (.failed error) last ∧
      Cleaned smallTree (receiverDirectory [ascii "d"])
        last.state.disk.tree := by
  have failed := @exists_failed _
    (runReceiveClient undumped () [] [0xff] 10) ⟨⟨smallTree, []⟩, none, none⟩
    (by decide +kernel)
  rcases failed with ⟨error, last, becomes⟩
  exact ⟨error, last, becomes,
    runReceiveClient_cleans_up (smallTree_temporaryAt (.inr rfl)) () [] [0xff]
      10 becomes (Or.inr ⟨error, rfl⟩)⟩

end DropFile.Client.Traces
