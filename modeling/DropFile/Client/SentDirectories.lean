import DropFile.Client.FileHashes
import DropFile.Client.PackedTrees
import DropFile.Client.SendLoop
import DropFile.Client.TemporaryDirectories
import DropFile.General.Dialogues

/-!
# Sent directories

A sender that packs a directory, announces the archive and sends it.  In the
end nothing is left on its disk.
-/

namespace DropFile.Client.SentDirectories

open DropFile.General
open DropFile.General.Dialogues
open DropFile.General.FuelledProgram
open DropFile.General.FreshDirectories
open DropFile.General.Processes
open DropFile.General.Processes.Process
open DropFile.General.PathNames
open DropFile.General.Files
open DropFile.General.Files.FileTree
open DropFile.Streams
open DropFile.FileSystem
open DropFile.Socket
open DropFile.InitSessionMessage
open DropFile.Client.ArchiveManager
open DropFile.Client.ArchiveRoundTrip
open DropFile.Client.DropFileSendClient
open DropFile.Client.FileHashes
open DropFile.Client.PackedTrees
open DropFile.Client.RunDropFileClient
open DropFile.Client.SendLoop
open DropFile.Client.SentNames
open DropFile.Client.TemporaryDirectories

/-- The temporary directory of a sender. -/
abbrev senderDirectory (top : Location) : Location :=
  top ++ tmpDirNames (ascii "sender")

/-- A directory that a sender can pack, apart from what it writes itself. -/
structure SendsDirectory (machine : Machine) (disk : Disk) (path : PathName)
    (top origin : Location) : Prop where
  temporary : TemporaryAt disk.tree machine.workingDirectory
    machine.temporaryDirectory (ascii "sender") top
  isName : IsName (filename path)
  leads : Leads disk.tree machine.workingDirectory path origin
  spared : ∀ each ∈ disk.tree.way machine.workingDirectory path,
    ¬ senderDirectory top <+: each
  apart : ¬ origin <+: senderDirectory top
  packable : Packable machine.zstd machine.listing disk.tree origin
  finite : {below | disk.tree.node (origin ++ below) ≠ none}.Finite
  fits : Fits disk.tree origin [filename path]

section Packing

variable (machine : Machine) (disk : Disk) (path : PathName)
variable (top : Location) (archive : Bytes)

/-- The disk when the sender has been constructed. -/
def prepared : Disk :=
  constructed disk machine.temporaryDirectory (ascii "sender") top

/-- Where the archive is. -/
def archiveLocation : Location :=
  senderDirectory top ++ [filename path]

/-- The disk when the archive has been written. -/
def packed : Disk :=
  ⟨(prepared machine disk top).tree.place (archiveLocation path top)
      (.file archive),
    (prepared machine disk top).handed ++ [archivePath machine path]⟩

end Packing

namespace SendsDirectory

variable {machine : Machine} {disk : Disk} {path : PathName}
variable {top origin : Location} {archive : Bytes}
variable (sends : SendsDirectory machine disk path top origin)
include sends

theorem renewed :
    Renewed disk.tree (senderDirectory top)
      (prepared machine disk top).tree :=
  (TemporaryAt.renew_run isName_sender sends.temporary).2

theorem fresh :
    FreshTmpDir machine (prepared machine disk top).tree
      (senderDirectory top) :=
  freshTmpDir_constructed sends.temporary

/-- The constructor leaves the directory as it is. -/
theorem below (rest : Location) :
    (prepared machine disk top).tree.node (origin ++ rest) =
      disk.tree.node (origin ++ rest) :=
  sends.renewed.below
    (sends.spared origin (mem_way sends.leads.resolved).1) sends.apart rest

theorem leads_prepared :
    Leads (prepared machine disk top).tree machine.workingDirectory path
      origin :=
  ⟨sends.leads.noNul, sends.renewed.resolve sends.leads.resolved
    sends.packable.isDirectory sends.spared⟩

theorem archiveAt :
    ArchiveAt (prepared machine disk top).tree machine.workingDirectory
      (archivePath machine path) origin (archiveLocation path top) := by
  constructor
  · exact archivePath_resolved sends.fresh sends.isName
  · apply canPlace_concat sends.isName sends.fresh.isDirectory
    rw [sends.fresh.empty]
    exact (Option.some_ne_none _).symm
  · exact sends.fresh.empty _
  · intro isBelow
    rcases List.prefix_concat_iff.1 isBelow with same | isAbove
    · have present := sends.below []
      rw [List.append_nil, sends.packable.isDirectory, same,
        sends.fresh.empty] at present
      cases present
    · exact sends.apart isAbove

/-- The directory is packed, and unpacking the archive copies it. -/
theorem exists_records :
    ∃ records,
      Packs machine.zstd disk.tree origin [filename path] records ∧
      Settles
        (fun fuel =>
          createArchive machine.zstd machine.workingDirectory
            machine.listing path (archivePath machine path) fuel
            (prepared machine disk top))
        (.returned ()
          (packed machine disk path top (archiveBytes records))) := by
  have same : ∀ below, disk.tree.node (origin ++ below) =
      (prepared machine disk top).tree.node (origin ++ below) :=
    fun below => (sends.below below).symm
  have finite : {below |
      (prepared machine disk top).tree.node (origin ++ below) ≠
        none}.Finite := by
    simp only [sends.below]
    exact sends.finite
  have fits : Fits (prepared machine disk top).tree origin
      [filename path] := by
    simp only [Fits, sends.below]
    exact sends.fits
  rcases (createArchive_settles sends.archiveAt sends.isName
    sends.leads_prepared (sends.packable.congr same) finite).1 fits with
    ⟨records, packs, settles⟩
  exact ⟨records, packs.congr sends.below, settles⟩

theorem archivePath_packed :
    (packed machine disk path top archive).tree.resolve
        machine.workingDirectory (archivePath machine path) =
      some (archiveLocation path top) :=
  resolve_place sends.archiveAt.resolved sends.archiveAt.possible archive

theorem regularFile_packed :
    regularFile (packed machine disk path top archive).tree
        machine.workingDirectory (archivePath machine path) =
      some archive :=
  regularFile_place sends.archiveAt.resolved sends.archiveAt.possible
    archive

/-- Without the archive the disk is as after the constructor. -/
theorem removeAll_packed :
    (packed machine disk path top archive).tree.removeAll
        (archiveLocation path top) = (prepared machine disk top).tree := by
  apply FileTree.ext
  intro location
  by_cases below : archiveLocation path top <+: location
  · rcases below with ⟨rest, rfl⟩
    have free : (prepared machine disk top).tree.node
        (archiveLocation path top ++ rest) = none :=
      node_below_none _ (sends.fresh.empty (filename path)) rest
    rw [free]
    exact if_pos ⟨List.prefix_append _ _, by simp [archiveLocation]⟩
  · have different : location ≠ archiveLocation path top := by
      rintro rfl
      exact below (List.prefix_refl _)
    rw [node_removeAll_outside _ below]
    exact node_place_other _ _ different

end SendsDirectory

/-! ## The program -/

variable {Peer : Type} (machine : Machine)

/-- The sender when its first message is sent. -/
def awaitCode (server : Peer) (entry : RAIIFSEntry) (fuel : Nat) :
    SenderProcess Peer Unit := do
  let (entry, _) ←
    withEntry machine entry do
      let code ← getReceiveCodeFromServer machine server
      pure (entry, code)
  sendFSEntry machine server entry fuel

variable [DecidableEq Peer] {machine}

/-- What a sender announces, and that it understands the answer. -/
structure Announces (machine : Machine) (sha256 : Bytes → Bytes)
    (path : PathName) (content : Bytes) (isCompressed : Bool)
    (message answer : Bytes) : Prop where
  digest : Computes machine.digest sha256
  dumps : machine.library.dump
    (sendMessage (filename path) content.length
      (Hexadecimal.encode (sha256 content)) isCompressed) = .ok message
  messageFilled : message ≠ []
  messageFits : message.length ≤ bufferSize
  answerFits : answer.length ≤ bufferSize
  learns : ∃ code, receiveCode machine answer = .ok code
  neverDry : NeverDry machine 0 content.length

section Announcing

variable {sha256 : Bytes → Bytes} {path : PathName} {content : Bytes}
variable {isCompressed : Bool} {message answer : Bytes}
variable {entry : RAIIFSEntry} {disk : Disk}
variable (announces :
  Announces machine sha256 entry.path content isCompressed message answer)
variable (isFile : regularFile disk.tree machine.workingDirectory
  entry.path = some content)
variable (server : Peer) (fuel : Nat)

include announces isFile in
theorem createSendMessage_announces :
    createSendMessage machine.digest disk.tree machine.workingDirectory
        entry.path isCompressed =
      .ok (sendMessage (filename entry.path) content.length
        (Hexadecimal.encode (sha256 content)) isCompressed) := by
  have present : fileExists disk.tree machine.workingDirectory
      entry.path = true := by
    rw [fileExists, status_of_regularFile isFile]
    rfl
  rw [createSendMessage, present, isFile,
    calculateFileHash_of_computes announces.digest isFile]
  rfl

include announces isFile in
/-- When the entry is there, its metadata is sent. -/
theorem announces_plays
    {start : Disk}
    (compresses : Plays
      (compressIfNecessary machine path fuel : SenderProcess Peer _) start
      silence silence (.done (entry, isCompressed)) disk) :
    Plays
      (do
        let (entry, _) ← sendFSEntryMetadata machine server path fuel
        sendFSEntry machine server entry fuel)
      start silence (only server (frame message))
      (awaitCode machine server entry fuel) disk := by
  have sends := @send_plays_frame Peer Disk _ disk server message
    announces.messageFilled announces.messageFits
  have announced : Plays
      (sendFSEntryMetadata machine server path fuel : SenderProcess Peer _)
      start silence (only server (frame message))
      (withEntry machine entry do
        let code ← getReceiveCodeFromServer machine server
        pure (entry, code)) disk := by
    rw [sendFSEntryMetadata]
    apply compresses.andThen
      (_ : Plays _ _ silence (only server (frame message)) _ _)
    apply Plays.handle
    apply Plays.update
    simp only [id_eq, Process.andThen,
      createSendMessage_announces announces isFile]
    apply (Plays.rest (.done _) _).andThen
      (_ : Plays _ _ silence (only server (frame message)) _ _)
    rw [announces.dumps]
    exact (Plays.rest (.done message) _).andThen (sends.bind _)
  exact announced.bind _

include announces in
/-- The answer of the server carries a code. -/
theorem awaitCode_plays :
    Plays (awaitCode machine server entry fuel) disk
      (only server (frame answer)) silence
      (sendFSEntry machine server entry fuel) disk := by
  rcases announces.learns with ⟨code, learns⟩
  have receives : Plays
      (getReceiveCodeFromServer machine server : SenderProcess Peer Bytes)
      disk (only server (frame answer)) silence (.done code) disk := by
    rw [getReceiveCodeFromServer]
    apply (receive_plays server announces.answerFits).andThen_eq
    rw [learns]
    rfl
  have given : Plays
      (withEntry machine entry do
        let code ← getReceiveCodeFromServer machine server
        pure (entry, code)) disk (only server (frame answer)) silence
      (.done (entry, code)) disk :=
    (receives.andThen_eq rfl).handle _
  exact given.andThen_eq rfl

end Announcing

/-! ## The whole conversation -/

/-- What a sender of an archive says and hears, in four turns. -/
def conversation (server : Peer) (message answer : Bytes)
    (pieces : List Bytes) : List (TurnTaken Peer) :=
  [⟨server, [], server, frame message⟩,
    ⟨server, frame answer, server, []⟩,
    ⟨server, frame ack, server, frames pieces⟩,
    ⟨server, frame ack, server, []⟩]

namespace SendsDirectory

variable {sha256 : Bytes → Bytes} {disk : Disk} {path : PathName}
variable {top origin : Location} {archive message answer : Bytes}
variable {fuel : Nat}
variable (sends : SendsDirectory machine disk path top origin)
include sends

theorem compressIfNecessary_plays
    (creates :
      createArchive machine.zstd machine.workingDirectory machine.listing
          path (archivePath machine path) fuel
          (prepared machine disk top) =
        .returned () (packed machine disk path top archive)) :
    Plays (compressIfNecessary machine path fuel : SenderProcess Peer _)
      (prepared machine disk top) silence silence
      (.done (⟨archivePath machine path, true⟩, true))
      (packed machine disk path top archive) := by
  have directory : isDirectory (prepared machine disk top).tree
      machine.workingDirectory path = true := by
    have there := sends.below []
    rw [List.append_nil, sends.packable.isDirectory] at there
    rw [sends.leads_prepared.isDirectory_iff, there]
    rfl
  rw [compressIfNecessary]
  apply Plays.update
  simp only [id_eq, Process.andThen, directory]
  exact (Plays.ofProgram creates).andThen_eq rfl

/-- The final `ACK` removes the archive. -/
theorem awaitFinalACK_plays
    (server : Peer) (archive : Bytes) :
    Plays (awaitFinalACK machine server ⟨archivePath machine path, true⟩)
      (packed machine disk path top archive) (only server (frame ack))
      silence (.done ())
      { packed machine disk path top archive with
        tree := (prepared machine disk top).tree } := by
  have removes : removeAll machine.workingDirectory
      (archivePath machine path) (packed machine disk path top archive) =
        .returned ()
          { packed machine disk path top archive with
            tree := (prepared machine disk top).tree } := by
    rw [FileSystem.removeAll, Program.modifyState_run,
      sends.archivePath_packed]
    simp only [sends.removeAll_packed]
  have acknowledged : Plays
      (withEntry machine ⟨archivePath machine path, true⟩
        (receiveACK server))
      (packed machine disk path top archive) (only server (frame ack))
      silence (.done ()) (packed machine disk path top archive) :=
    (receiveACK_plays server).handle _
  rw [awaitFinalACK]
  apply acknowledged.andThen (_ : Plays _ _ silence silence _ _)
  exact Plays.ofProgram removes

/--
A sender that is answered sends the whole archive and then leaves its disk as
it was, apart from its own directory.
-/
theorem runSendClient_converses
    (creates :
      createArchive machine.zstd machine.workingDirectory machine.listing
          path (archivePath machine path) fuel
          (prepared machine disk top) =
        .returned () (packed machine disk path top archive))
    (announces :
      Announces machine sha256 (archivePath machine path) archive true
        message answer)
    (enough : archive.length < fuel)
    (server : Peer) :
    ∃ pieces,
      (∀ piece ∈ pieces, piece ≠ []) ∧
      (∀ piece ∈ pieces, piece.length ≤ bufferSize) ∧
      pieces.flatten = archive ∧
      Converses
        (fun process final => process = .done () ∧
          Retired disk.tree (senderDirectory top) final.tree)
        (conversation server message answer pieces)
        (runSendClient machine server path fuel) disk := by
  have isFile := @regularFile_packed _ _ _ _ _ archive sends
  rcases @sendFSEntry_plays _ machine server _
      ⟨archivePath machine path, true⟩ _ archive fuel isFile enough with
    ⟨pieces, filled, fits, transfers, whole⟩
  refine ⟨pieces, filled, fits, whole.2 announces.neverDry, ?_⟩
  have constructs : Plays
      (runSendClient machine server path fuel) disk (only server [])
      (only server (frame message)) _ _ :=
    (sender_construct_plays sends.temporary).andThen
      (alive_plays (destroy machine)
        (announces_plays announces isFile server fuel
          (sends.compressIfNecessary_plays creates)))
      (by simp) (by simp)
  have answered := alive_plays (destroy machine)
    (@awaitCode_plays _ machine _ _ _ _ _ _
      ⟨archivePath machine path, true⟩
      (packed machine disk path top archive) announces server fuel)
  have finishes := alive_plays (destroy machine)
    (sends.awaitFinalACK_plays server archive)
  have leaves : Plays
      (alive (destroy machine) (.done ()) : SenderProcess Peer Unit)
      { packed machine disk path top archive with
        tree := (prepared machine disk top).tree } silence silence
      (.done ()) _ :=
    sender_destroy_plays sends.fresh.resolved
  have ends := finishes.trans leaves
  rw [followedBy_silence, followedBy_silence] at ends
  rw [← only_nil server] at answered ends
  refine ⟨_, _, constructs, _, _, answered, _, _,
    alive_plays (destroy machine) transfers, _, _, ends, rfl, ?_⟩
  apply sends.renewed.removeAll
  · exact List.append_ne_nil_of_right_ne_nil _ (List.cons_ne_nil _ _)
  · exact fun _ _ => rfl

end SendsDirectory

end DropFile.Client.SentDirectories
