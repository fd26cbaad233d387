import DropFile.Client.Announcements
import DropFile.Client.FileHashes
import DropFile.Client.PackedTrees
import DropFile.Client.RunDropFileClient
import DropFile.Client.TemporaryDirectories
import DropFile.General.Dialogues

/-!
# Received directories

A receiver that is sent an archive and unpacks it where it works.  In the end
nothing but the copy is left on its disk.
-/

namespace DropFile.Client.ReceivedDirectories

open DropFile.General
open DropFile.General.Dialogues
open DropFile.General.FuelledProgram
open DropFile.General.FreshDirectories
open DropFile.General.Processes.Process
open DropFile.General.PathNames
open DropFile.General.Files
open DropFile.General.Files.FileTree
open DropFile.Streams
open DropFile.FileSystem
open DropFile.Socket
open DropFile.Framing
open DropFile.JsonObjects
open DropFile.InitSessionMessage
open DropFile.SessionMessages
open DropFile.Client.Announcements
open DropFile.Client.LiveUnpacking
open DropFile.Client.ArchiveRoundTrip
open DropFile.Client.DropFileReceiveClient
open DropFile.Client.FileHashes
open DropFile.Client.RunDropFileClient
open DropFile.Client.TemporaryDirectories

/-! ## The current directory -/

theorem areNames_of_present
    {tree : FileTree} {location : Location}
    (present : tree.node location ≠ none) :
    ∀ name ∈ location, IsName name := by
  induction location using List.reverseRecOn with
  | nil => exact List.forall_mem_nil _
  | append_singleton holder name inductionHypothesis =>
      have above := tree.parent holder name present
      rw [List.forall_mem_append]
      constructor
      · apply inductionHypothesis
        rw [above]
        exact Option.some_ne_none _
      · rw [List.forall_mem_singleton]
        exact tree.named holder name present

theorem leads_root (tree : FileTree) (workingDirectory : Location) :
    Leads tree workingDirectory [slash] [] := by
  constructor
  · decide
  · have split : components [slash] = [[], []] := by decide +kernel
    rw [resolve, native_of_no_nul (by decide), if_neg (by simp), split]
    simp only [isAbsolute, List.head?_cons, decide_true, if_true, walk,
      tree.root, true_or]

theorem leads_currentPath
    {tree : FileTree} {workingDirectory : Location}
    (isDirectory : tree.node workingDirectory = some .directory) :
    Leads tree workingDirectory (currentPath workingDirectory)
      workingDirectory := by
  have areNames : ∀ name ∈ workingDirectory, IsName name := by
    apply areNames_of_present
    rw [isDirectory]
    exact Option.some_ne_none _
  rcases List.eq_nil_or_concat workingDirectory with
    rfl | ⟨holder, name, rfl⟩
  · exact leads_root tree []
  · rw [List.concat_eq_append] at isDirectory areNames ⊢
    have relative : isAbsolute (joinNames (holder ++ [name])) = false :=
      isAbsolute_joinNames (by simp) areNames
    have joined : currentPath (holder ++ [name]) =
        join [slash] (joinNames (holder ++ [name])) := by
      rw [join, relative]
      rfl
    rw [joined]
    apply (leads_root tree (holder ++ [name])).joinNames holder name _
      areNames
    apply tree.parent holder name
    rw [isDirectory]
    exact Option.some_ne_none _

/-! ## The directories of the receiver -/

/-- The temporary directory of a receiver. -/
abbrev receiverDirectory (top : Location) : Location :=
  top ++ tmpDirNames (ascii "receiver")

/-- A receiver that has a place for what it unpacks. -/
structure ReceivesDirectory (machine : Machine) (disk : Disk)
    (name : PathName) (top : Location) : Prop where
  temporary : TemporaryAt disk.tree machine.workingDirectory
    machine.temporaryDirectory (ascii "receiver") top
  isName : IsName name
  isDirectory : disk.tree.node machine.workingDirectory = some .directory
  outside : ¬ receiverDirectory top <+: machine.workingDirectory
  apart : ¬ machine.workingDirectory ++ [name] <+: receiverDirectory top
  free : disk.tree.node (machine.workingDirectory ++ [name]) = none

section Filling

variable (machine : Machine) (disk : Disk) (name : PathName)
variable (top : Location) (archive : Bytes)

/-- The disk when the receiver has been constructed. -/
def prepared : Disk :=
  constructed disk machine.temporaryDirectory (ascii "receiver") top

/-- Where the archive is received. -/
def archivePath : PathName :=
  receivePath machine true name

def archiveLocation : Location :=
  receiverDirectory top ++ [name]

/-- The disk when the archive has arrived. -/
def filled : Disk :=
  ⟨(prepared machine disk top).tree.place (archiveLocation name top)
      (.file archive),
    (prepared machine disk top).handed ++ [archivePath machine name]⟩

theorem node_filled
    {other : Location}
    (outside : ¬ receiverDirectory top <+: other) :
    (filled machine disk name top archive).tree.node other =
      (prepared machine disk top).tree.node other := by
  apply node_place_other
  rintro rfl
  exact outside (List.prefix_append _ _)

end Filling

namespace ReceivesDirectory

variable {machine : Machine} {disk : Disk} {name : PathName}
variable {top : Location} {archive : Bytes}
variable (receives : ReceivesDirectory machine disk name top)
include receives

theorem renewed :
    Renewed disk.tree (receiverDirectory top)
      (prepared machine disk top).tree :=
  (TemporaryAt.renew_run isName_receiver receives.temporary).2

theorem leads_directory :
    Leads (prepared machine disk top).tree machine.workingDirectory
      (receiverTmpDir machine) (receiverDirectory top) :=
  TemporaryAt.leads_renewed isName_receiver receives.temporary

/-- What is unpacked does not come into the directory of the receiver. -/
theorem outside_goal :
    ¬ receiverDirectory top <+: machine.workingDirectory ++ [name] := by
  intro isAbove
  rcases List.prefix_concat_iff.1 isAbove with same | above
  · apply receives.apart
    rw [same]
  · exact receives.outside above

theorem isDirectory_prepared :
    (prepared machine disk top).tree.node machine.workingDirectory =
      some .directory :=
  receives.renewed.directory receives.outside receives.isDirectory

theorem free_prepared :
    (prepared machine disk top).tree.node
        (machine.workingDirectory ++ [name]) = none := by
  rw [receives.renewed.others _ receives.outside_goal receives.apart,
    receives.free]

theorem leads_archive :
    Leads (prepared machine disk top).tree machine.workingDirectory
      (archivePath machine name) (archiveLocation name top) :=
  receives.leads_directory.join receives.renewed.isDirectory
    receives.isName

theorem missing :
    (prepared machine disk top).tree.node (archiveLocation name top) =
      none :=
  receives.renewed.empty _ (List.prefix_append _ _)
    (by simp [archiveLocation])

theorem possible :
    (prepared machine disk top).tree.CanPlace
      (archiveLocation name top) := by
  apply canPlace_concat receives.isName receives.renewed.isDirectory
  rw [show receiverDirectory top ++ [name] = archiveLocation name top from
    rfl, receives.missing]
  exact (Option.some_ne_none _).symm

/-- Nothing of this name is where the receiver works. -/
theorem notExists :
    fileExists (prepared machine disk top).tree machine.workingDirectory
      name = false := by
  have resolved : (prepared machine disk top).tree.resolve
      machine.workingDirectory name =
        some (machine.workingDirectory ++ [name]) := by
    rw [resolve, native_of_no_nul receives.isName.no_nul,
      if_neg receives.isName.nonempty,
      isAbsolute_of_no_slash receives.isName.no_slash,
      components_of_no_slash receives.isName.no_slash]
    exact walk_name receives.isDirectory_prepared receives.isName
  rw [fileExists, status, resolved, Option.bind_some,
    receives.free_prepared]
  rfl

/-! ### When the archive has arrived -/

variable (archive) in
theorem directory_filled
    {other : Location}
    (isDirectory : (prepared machine disk top).tree.node other =
      some .directory) :
    (filled machine disk name top archive).tree.node other =
      some .directory :=
  directory_place receives.possible.2.2.2 isDirectory

theorem isArchive :
    regularFile (filled machine disk name top archive).tree
        machine.workingDirectory (archivePath machine name) =
      some archive := by
  have leads := receives.leads_archive.of_directories
    fun _ => receives.directory_filled archive
  exact leads.regularFile (node_place_self receives.possible _)

variable {source : FileTree} {origin : Location} {unpacked : Disk}
variable (copy : IsCopy source origin
  (filled machine disk name top archive).tree
  (machine.workingDirectory ++ [name]) unpacked.tree)
include copy

/-- Unpacking creates something where nothing was. -/
theorem directory_unpacked
    {other : Location}
    (isDirectory : (prepared machine disk top).tree.node other =
      some .directory) :
    unpacked.tree.node other = some .directory := by
  rw [copy.outside, receives.directory_filled archive isDirectory]
  rintro ⟨below, rfl⟩
  rw [node_below_none _ receives.free_prepared] at isDirectory
  cases isDirectory

theorem archive_unpacked :
    unpacked.tree.node (archiveLocation name top) =
      some (.file archive) := by
  rw [copy.outside]
  · exact node_place_self receives.possible _
  · intro isAbove
    rcases List.prefix_concat_iff.1 isAbove with same | above
    · apply receives.outside
      rw [List.append_left_injective [name] same]
    · exact receives.apart above

/-- The archive is a file, and it is removed. -/
theorem remove_unpacked :
    remove machine.workingDirectory (archivePath machine name) unpacked =
      .returned ()
        { unpacked with
          tree := unpacked.tree.removeAll (archiveLocation name top) } := by
  have leads := receives.leads_archive.of_directories
    fun _ => receives.directory_unpacked copy
  have found : status unpacked.tree machine.workingDirectory
      (archivePath machine name) = some (.file archive) := by
    rw [status, leads.resolved, Option.bind_some,
      receives.archive_unpacked copy]
  rw [remove, Program.bind_returned (Program.getState_run _), found]
  show removeAll machine.workingDirectory _ unpacked = _
  rw [FileSystem.removeAll, Program.modifyState_run, leads.resolved]

theorem leads_removed :
    Leads (unpacked.tree.removeAll (archiveLocation name top))
      machine.workingDirectory (receiverTmpDir machine)
      (receiverDirectory top) :=
  receives.leads_directory.of_directories fun _ isDirectory =>
    directory_removeAll_file (receives.archive_unpacked copy)
      (receives.directory_unpacked copy isDirectory)

/-- In the end there is the copy, and the receiver has left nothing else. -/
theorem exists_retired :
    ∃ retired,
      Retired disk.tree (receiverDirectory top) retired ∧
      IsCopy source origin retired (machine.workingDirectory ++ [name])
        ((unpacked.tree.removeAll (archiveLocation name top)).removeAll
          (receiverDirectory top)) := by
  have notRoot : receiverDirectory top ≠ [] :=
    List.append_ne_nil_of_right_ne_nil _ (List.cons_ne_nil _ _)
  have within : receiverDirectory top <+: archiveLocation name top :=
    List.prefix_append _ _
  refine ⟨_, receives.renewed.removeAll notRoot fun _ _ => rfl, ?_⟩
  rw [removeAll_removeAll notRoot within]
  exact isCopy_removeAll copy (fun _ => node_filled _ _ _ _ _)
    receives.outside_goal receives.apart

end ReceivesDirectory

/-! ## The program -/

variable {Peer : Type} [DecidableEq Peer] (machine : Machine)

variable {machine}

/-- The metadata of an archive of this name. -/
def archiveMetadata (sha256 : Bytes → Bytes) (name : PathName)
    (archive : Bytes) : Json :=
  sendMessage name archive.length (Hexadecimal.encode (sha256 archive)) true

/-- What a receiver asks for, and that it understands the answer. -/
structure Understands (machine : Machine) (sha256 : Bytes → Bytes)
    (name : PathName) (archive key message request : Bytes) : Prop where
  digest : Computes machine.digest sha256
  parses : machine.library.parse message =
    .ok (archiveMetadata sha256 name archive)
  messageFits : message.length ≤ bufferSize
  dumps : machine.library.dump (createReceiveMessage key) = .ok request
  requestFilled : request ≠ []
  requestFits : request.length ≤ bufferSize
  isSize : archive.length < sizeModulus
  space : archive.length ≤ machine.freeSpace machine.temporaryDirectory

/-- What a receiver of an archive says and hears, in three turns. -/
def conversation (server : Peer) (message request : Bytes)
    (pieces : List Bytes) : List (TurnTaken Peer) :=
  [⟨server, [], server, frame request⟩,
    ⟨server, frame message, server, frame ack⟩,
    ⟨server, frames pieces, server, frame ack⟩]

theorem tree_writeAll
    {tree : FileTree} {location : Location} {written : Bytes}
    {receiving : Receiving}
    (possible : tree.CanPlace location)
    (received : receiving.receivedFile = some (location, written))
    (placed : receiving.disk.tree = tree.place location (.file written))
    (pieces : List Bytes) :
    (writeAll pieces receiving).disk =
      ⟨tree.place location (.file (written ++ pieces.flatten)),
        receiving.disk.handed⟩ := by
  induction pieces generalizing receiving written with
  | nil =>
      rw [List.flatten_nil, List.append_nil, ← placed]
      rfl
  | cons piece rest inductionHypothesis =>
      have wrote : receiving.write piece =
          { receiving with
            disk :=
              ⟨tree.place location (.file (written ++ piece)),
                receiving.disk.handed⟩
            receivedFile := some (location, written ++ piece) } := by
        simp only [Receiving.write, received, placed,
          place_place possible]
      have later := @inductionHypothesis (written ++ piece)
        (receiving.write piece) (by rw [wrote]) (by rw [wrote])
      rw [List.flatten_cons, ← List.append_assoc]
      rw [wrote] at later
      rw [writeAll, List.foldl_cons, wrote]
      exact later

namespace ReceivesDirectory

variable {sha256 : Bytes → Bytes} {receiving : Receiving}
variable {name : PathName} {top origin : Location} {source : FileTree}
variable {archive key message request : Bytes} {fuel : Nat}
variable (receives :
  ReceivesDirectory machine receiving.disk name top)
variable (understands :
  Understands machine sha256 name archive key message request)

/-- The receiver when it has been constructed. -/
def ready (machine : Machine) (receiving : Receiving) (top : Location) :
    Receiving :=
  { receiving with disk := prepared machine receiving.disk top }

theorem reads_archiveMetadata
    (isSize : archive.length < sizeModulus) :
    Reads machine.library (archiveMetadata sha256 name archive) name
      archive.length (Hexadecimal.encode (sha256 archive)) true :=
  reads_of_isSendMessage machine.library isSize
    (isSendMessage_sendMessage _ _ _ _)

/-- The metadata that the receiver accepts. -/
def announcement :
    Announcement machine (ready machine receiving top).disk.tree where
  metadata := message
  json := archiveMetadata sha256 name archive
  filename := name
  fileSize := archive.length
  isCompressed := true
  accepted :=
    checkResponse_of_reads understands.parses
      (reads_archiveMetadata understands.isSize) receives.notExists
      understands.space
  filenameRead := (reads_archiveMetadata understands.isSize).filename
  fileSizeRead := (reads_archiveMetadata understands.isSize).fileSize
  isCompressedRead :=
    (reads_archiveMetadata understands.isSize).isCompressed

variable (server : Peer)

include receives understands in
/-- The receiver asks for the file. -/
theorem asks
    {interactionStream : Bytes}
    (agrees : extractConfirmation interactionStream = 121) :
    Plays (runReceiveClient machine server interactionStream key fuel)
      receiving (only server []) (only server (frame request))
      (alive (destroy machine) (awaitResponse machine server 121 fuel))
      (ready machine receiving top) := by
  have requests := @receiveFile_plays Peer machine _ server key request
    understands.dumps 121 fuel (ready machine receiving top)
  rw [frames_chunks_of_fits understands.requestFilled
    understands.requestFits] at requests
  rw [only_nil, runReceiveClient, agrees]
  exact (receiver_construct_plays receives.temporary).andThen
    (alive_plays (destroy machine) requests)

/-- The receiver when the archive has arrived and is right. -/
def arrived (machine : Machine) (receiving : Receiving) (name : PathName)
    (top : Location) (pieces : List Bytes) : Receiving :=
  writeAll pieces
    (openedAt (archivePath machine name) (archiveLocation name top)
      (ready machine receiving top))

include receives understands in
theorem fills
    {pieces : List Bytes}
    (filled : ∀ piece ∈ pieces, piece ≠ [])
    (fits : ∀ piece ∈ pieces, piece.length ≤ bufferSize)
    (whole : pieces.flatten = archive)
    (enough : pieces.length < fuel) :
    Plays
      (receiveConfirmed machine server
        (archiveMetadata sha256 name archive) fuel)
      (ready machine receiving top) (only server (frames pieces))
      (only server (frame ack))
      (handleCompressedFile machine true (archivePath machine name) fuel)
      (arrived machine receiving name top pieces) := by
  have hasHash : HasHash machine.digest pieces.flatten
      (Hexadecimal.encode (sha256 archive)) := by
    rw [whole]
    exact fun _ _ _ isFile =>
      calculateFileHash_of_computes understands.digest isFile
  exact receiveConfirmed_plays_checked
    (announcement receives understands) receives.missing
    receives.leads_archive.resolved receives.possible filled fits
    (by rw [whole]; rfl)
    (reads_archiveMetadata understands.isSize).fileHash enough hasHash

include receives in
theorem disk_arrived
    {pieces : List Bytes}
    (whole : pieces.flatten = archive) :
    (arrived machine receiving name top pieces).disk =
      filled machine receiving.disk name top archive := by
  have written := @tree_writeAll _ _ [] (openedAt (archivePath machine name)
    (archiveLocation name top) (ready machine receiving top))
    receives.possible rfl rfl pieces
  rw [List.nil_append, whole] at written
  exact written

include receives understands in
/--
A receiver that is sent the whole archive has a copy of the directory in the
end, and its disk is as it was otherwise.
-/
theorem runReceiveClient_converses
    {interactionStream : Bytes} {pieces : List Bytes} {unpacked : Disk}
    (agrees : extractConfirmation interactionStream = 121)
    (filled : ∀ piece ∈ pieces, piece ≠ [])
    (fits : ∀ piece ∈ pieces, piece.length ≤ bufferSize)
    (whole : pieces.flatten = archive)
    (enough : pieces.length < fuel)
    (copy : IsCopy source origin
      (ReceivedDirectories.filled machine receiving.disk name top
        archive).tree
      (machine.workingDirectory ++ [name]) unpacked.tree)
    (unpacks :
      unpackArchive machine.zstd machine.buffering machine.workingDirectory
          (currentPath machine.workingDirectory) (archivePath machine name)
          fuel
          (ReceivedDirectories.filled machine receiving.disk name top
            archive) =
        .returned () unpacked) :
    Converses
      (fun process final => process = .done () ∧
        ∃ retired,
          Retired receiving.disk.tree (receiverDirectory top) retired ∧
          IsCopy source origin retired (machine.workingDirectory ++ [name])
            final.disk.tree)
      (conversation server message request pieces)
      (runReceiveClient machine server interactionStream key fuel)
      receiving := by
  have agreed : Plays
      (alive (destroy machine) (awaitResponse machine server 121 fuel))
      (ready machine receiving top) (only server (frame message))
      (only server (frame ack))
      (alive (destroy machine) (receiveConfirmed machine server
        (archiveMetadata sha256 name archive) fuel))
      (ready machine receiving top) :=
    alive_plays (destroy machine) (awaitResponse_plays understands.messageFits
      (announcement receives understands).accepted fuel)
  have isFilled := receives.disk_arrived whole
  rw [← isFilled] at unpacks
  have handles := @handleCompressedFile_plays Peer machine _
    (archivePath machine name)
    (arrived machine receiving name top pieces) fuel unpacked _ unpacks
    (receives.remove_unpacked copy)
  have leaves := @receiver_destroy_plays Peer _ machine
    { arrived machine receiving name top pieces with
      disk :=
        { unpacked with
          tree := unpacked.tree.removeAll (archiveLocation name top) }
      unpacking := some (archivePath machine name) } _
    (receives.leads_removed copy).resolved
  have ends := (alive_plays (destroy machine) (receives.fills understands server
    filled fits whole enough)).trans
      ((alive_plays (destroy machine) handles).trans leaves)
  rw [followedBy_silence, followedBy_silence, followedBy_silence] at ends
  exact ⟨_, _, receives.asks understands server agrees, _, _, agreed, _, _,
    ends, rfl, receives.exists_retired copy⟩

end ReceivesDirectory

end DropFile.Client.ReceivedDirectories
