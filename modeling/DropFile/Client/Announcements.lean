import DropFile.ContentLoops
import DropFile.SessionMessages

/-!
# Announced files

What the receiver reads in the server's first message, the file that it opens
for it, and how it goes on when the server sends the whole file.
-/

namespace DropFile.Client.Announcements

open DropFile.General.FuelledProgram
open DropFile.General.Processes.Process
open DropFile.General.PathNames
open DropFile.General.Files
open DropFile.General.Files.FileTree
open DropFile.Streams
open DropFile.FileSystem
open DropFile.Socket
open DropFile.JsonObjects
open DropFile.Utils
open DropFile.InitSessionMessage
open DropFile.SessionMessages
open DropFile.ContentLoops
open DropFile.Client.LiveUnpacking (unpackArchive)
open DropFile.Client.DropFileReceiveClient

variable {Peer : Type} {machine : Machine} {tree : FileTree}

/-! ## Announcements -/

/-- A first message that the receiver accepts, and what it reads in it. -/
structure Announcement (machine : Machine) (tree : FileTree) where
  metadata : Bytes
  json : Json
  filename : PathName
  fileSize : Nat
  isCompressed : Bool
  accepted : checkResponse machine tree metadata = .ok json
  filenameRead : machine.library.stringAt json filenameKey = .ok filename
  fileSizeRead : machine.library.sizeAt json fileSizeKey = .ok fileSize
  isCompressedRead :
    machine.library.boolAt json isCompressedKey = .ok isCompressed

namespace Announcement

/-- Where the received file goes. -/
def path (announcement : Announcement machine tree) : PathName :=
  receivePath machine announcement.isCompressed announcement.filename

/-- The first bytes of the contents, as many as were announced. -/
def expected (announcement : Announcement machine tree)
    (contents : List Bytes) : Bytes :=
  contents.flatten.take announcement.fileSize

@[simp]
theorem expected_nil (announcement : Announcement machine tree) :
    announcement.expected [] = [] :=
  List.take_nil

end Announcement

/-- A message that can be read is accepted if there is room for the file. -/
theorem checkResponse_of_reads
    {metadata : Bytes} {json : Json} {filename : PathName}
    {fileSize : Nat} {fileHash : Bytes} {isCompressed : Bool}
    (parsed : machine.library.parse metadata = .ok json)
    (reads : Reads machine.library json filename fileSize fileHash
      isCompressed)
    (free : fileExists tree machine.workingDirectory filename = false)
    (space : fileSize ≤ machine.freeSpace
      (if isCompressed then machine.temporaryDirectory
        else currentPath machine.workingDirectory)) :
    checkResponse machine tree metadata = .ok json := by
  have asserts : assertJsonProperties machine tree json = .ok () := by
    rw [assertJsonProperties_eq reads, if_neg (by rw [free]; simp),
      if_neg (Nat.not_lt.2 space)]
  rw [checkResponse, parseResponse_eq parsed reads, asserts]
  rfl

/-! ## The file on the disk -/

/-- The bytes that were written are in a file on the disk. -/
structure OnDisk (machine : Machine) (tree : FileTree) (path : PathName)
    (bytes : Bytes) (location : Location) (receiving : Receiving) :
    Prop where
  opened : receiving.receivedFile = some (location, bytes)
  resolved : tree.resolve machine.workingDirectory path = some location
  stillResolved :
    receiving.disk.tree.resolve machine.workingDirectory path =
      some location
  possible : receiving.disk.tree.CanPlace location
  content : receiving.disk.tree.node location = some (.file bytes)

theorem OnDisk.write
    {path : PathName} {bytes : Bytes} {location : Location}
    {receiving : Receiving}
    (onDisk : OnDisk machine tree path bytes location receiving)
    (more : Bytes) :
    OnDisk machine tree path (bytes ++ more) location
      (receiving.write more) := by
  have written : receiving.write more =
      { receiving with
        disk :=
          { receiving.disk with
            tree := receiving.disk.tree.place location
              (.file (bytes ++ more)) }
        receivedFile := some (location, bytes ++ more) } := by
    rw [Receiving.write, onDisk.opened]
  rw [written]
  constructor
  · rfl
  · exact onDisk.resolved
  · apply resolve_of_directories _ _ onDisk.stillResolved
    intro other isDirectory
    exact directory_place onDisk.possible.2.2.2 isDirectory
  · exact onDisk.possible.place _
  · exact node_place_self onDisk.possible _

/-- What was written is on the disk, unless the path could not be opened. -/
def Stored (machine : Machine) (tree : FileTree) (path : PathName)
    (bytes : Bytes) (receiving : Receiving) : Prop :=
  (∃ location, OnDisk machine tree path bytes location receiving) ∨
    receiving.receivedFile = none ∧
      status receiving.disk.tree machine.workingDirectory path = none

theorem Stored.write
    {path : PathName} {bytes : Bytes} {receiving : Receiving}
    (stored : Stored machine tree path bytes receiving)
    (more : Bytes) :
    Stored machine tree path (bytes ++ more) (receiving.write more) := by
  rcases stored with ⟨location, onDisk⟩ | ⟨notOpened, missing⟩
  · left
    exact ⟨location, onDisk.write more⟩
  · right
    rw [Receiving.write, notOpened]
    exact ⟨notOpened, missing⟩

/-- Only a file that is on the disk has a hash. -/
theorem Stored.onDisk
    {path : PathName} {bytes hash : Bytes} {receiving : Receiving}
    (stored : Stored machine tree path bytes receiving)
    (hashes :
      calculateFileHash machine.digest receiving.disk.tree
        machine.workingDirectory path = .ok hash) :
    ∃ location, OnDisk machine tree path bytes location receiving := by
  rcases stored with onDisk | ⟨-, missing⟩
  · exact onDisk
  · rcases ok_of_bind hashes with ⟨_, -, hashes⟩
    rcases ok_of_bind hashes with ⟨_, -, hashes⟩
    rw [missing] at hashes
    cases hashes

/-- A hash of these bytes, in whatever file they are. -/
def HasHash (digest : DigestLibrary) (bytes hash : Bytes) : Prop :=
  ∀ tree workingDirectory path,
    regularFile tree workingDirectory path = some bytes →
    calculateFileHash digest tree workingDirectory path = .ok hash

theorem hasHash_of_calculateFileHash
    {digest : DigestLibrary} {workingDirectory : Location}
    {path : PathName} {bytes hash : Bytes}
    (isFile : status tree workingDirectory path = some (.file bytes))
    (hashes :
      calculateFileHash digest tree workingDirectory path = .ok hash) :
    HasHash digest bytes hash := by
  intro otherTree otherDirectory otherPath otherIsFile
  have same := status_of_regularFile otherIsFile
  rw [calculateFileHash, isFile] at hashes
  rwa [calculateFileHash, same]

theorem OnDisk.status
    {path : PathName} {bytes : Bytes} {location : Location}
    {receiving : Receiving}
    (onDisk : OnDisk machine tree path bytes location receiving) :
    status receiving.disk.tree machine.workingDirectory path =
      some (.file bytes) := by
  rw [FileSystem.status, onDisk.stillResolved]
  exact onDisk.content

theorem Stored.node
    {path : PathName} {bytes : Bytes} {receiving : Receiving}
    (stored : Stored machine tree path bytes receiving)
    (location : Location) (written : Bytes)
    (received : receiving.receivedFile = some (location, written)) :
    receiving.disk.tree.node location = some (.file written) := by
  rcases stored with ⟨other, onDisk⟩ | ⟨notOpened, -⟩
  · cases received.symm.trans onDisk.opened
    exact onDisk.content
  · rw [notOpened] at received
    cases received

/-- The received file was opened and is still empty. -/
def openedAt (path : PathName) (location : Location)
    (receiving : Receiving) : Receiving :=
  { receiving with
    disk :=
      ⟨receiving.disk.tree.place location (.file []),
        receiving.disk.handed ++ [path]⟩
    receivedFile := some (location, []) }

theorem onDisk_openedAt
    {path : PathName} {location : Location} {receiving : Receiving}
    (resolved :
      receiving.disk.tree.resolve machine.workingDirectory path =
        some location)
    (possible : receiving.disk.tree.CanPlace location) :
    OnDisk machine receiving.disk.tree path [] location
      (openedAt path location receiving) := by
  constructor
  · rfl
  · exact resolved
  · apply resolve_of_directories _ _ resolved
    intro other isDirectory
    exact directory_place possible.2.2.2 isDirectory
  · exact possible.place []
  · exact node_place_self possible _

/-! ## A server that plays along -/

section Playing

variable [DecidableEq Peer]

/-- Several writes after one another. -/
def writeAll (contents : List Bytes) (receiving : Receiving) : Receiving :=
  contents.foldl (fun receiving content => receiving.write content)
    receiving

theorem OnDisk.writeAll
    {path : PathName} {bytes : Bytes} {location : Location}
    {receiving : Receiving}
    (onDisk : OnDisk machine tree path bytes location receiving)
    (contents : List Bytes) :
    OnDisk machine tree path (bytes ++ contents.flatten) location
      (writeAll contents receiving) := by
  induction contents generalizing bytes receiving with
  | nil =>
      rw [List.flatten_nil, List.append_nil]
      exact onDisk
  | cons content rest inductionHypothesis =>
      rw [List.flatten_cons, ← List.append_assoc]
      exact inductionHypothesis (onDisk.write content)

theorem receiveContent_plays
    {server : Peer} {expectedBytes fuel : Nat} {contents : List Bytes}
    (receiving : Receiving)
    (expectedFits : expectedBytes < sizeModulus)
    (nonempty : ∀ content ∈ contents, content ≠ [])
    (accepted : ∀ content ∈ contents, content.length ≤ bufferSize)
    (whole : contents.flatten.length = expectedBytes)
    (fuelEnough : contents.length < fuel) :
    Plays (receiveContent server expectedBytes fuel 0) receiving
      (only server (frames contents)) silence (.done ())
      (writeAll contents receiving) := by
  rw [receiveContent_eq, ← allOutputs_silence contents]
  apply contentLoop_plays server _ expectedFits receiving nonempty accepted
    (by omega) fuelEnough
  intro content _ _ state
  exact .update (.rest _ _)

variable {server : Peer}

theorem openReceivedFile_plays
    {path : PathName} {location : Location} {receiving : Receiving}
    (resolved :
      receiving.disk.tree.resolve machine.workingDirectory path =
        some location)
    (possible : receiving.disk.tree.CanPlace location) :
    Plays (openReceivedFile machine path : ReceiverProcess Peer Unit)
      receiving silence silence (.done ())
      (openedAt path location receiving) := by
  have opens := openForWriting_run resolved possible
  have focused :
      Program.focus Receiving.disk
        (fun disk receiving => { receiving with disk })
        (openForWriting machine.workingDirectory path) receiving =
          .returned (some location)
            { receiving with
              disk :=
                ⟨receiving.disk.tree.place location (.file []),
                  receiving.disk.handed ++ [path]⟩ } :=
    Program.focus_returned opens
  rw [openReceivedFile]
  apply (Plays.ofProgram focused).andThen (_ : Plays _ _ silence silence _ _)
  exact .update (.rest _ _)

variable (server) in
/-- All contents have come, and the confirmation is still to be sent. -/
theorem receiveFileImpl_plays_filled
    {path : PathName} {location : Location} {receiving : Receiving}
    {expectedBytes fuel : Nat} {contents : List Bytes}
    (missing : receiving.disk.tree.node location = none)
    (resolved :
      receiving.disk.tree.resolve machine.workingDirectory path =
        some location)
    (possible : receiving.disk.tree.CanPlace location)
    (expectedFits : expectedBytes < sizeModulus)
    (nonempty : ∀ content ∈ contents, content ≠ [])
    (accepted : ∀ content ∈ contents, content.length ≤ bufferSize)
    (whole : contents.flatten.length = expectedBytes)
    (fuelEnough : contents.length < fuel) :
    Plays (receiveFileImpl machine server path expectedBytes fuel) receiving
      (only server (frames contents)) silence (sendACK server)
      (writeAll contents (openedAt path location receiving)) := by
  have free : fileExists receiving.disk.tree machine.workingDirectory
      path = false := by
    rw [fileExists, status, resolved, Option.bind_some, missing]
    rfl
  rw [receiveFileImpl]
  refine .update ?_
  show Plays (if fileExists receiving.disk.tree machine.workingDirectory
    path = true then _ else _) _ _ _ _ _
  rw [if_neg (by rw [free]; exact Bool.false_ne_true)]
  apply (openReceivedFile_plays resolved possible).andThen
    (_ : Plays _ _ (only server (frames contents)) silence _ _)
  exact (receiveContent_plays _ expectedFits nonempty accepted whole
    fuelEnough).andThen (.rest _ _)

theorem validateFileHash_plays
    {path : PathName} {fileHash : Bytes} {receiving : Receiving}
    (hashes : calculateFileHash machine.digest receiving.disk.tree
      machine.workingDirectory path = .ok fileHash) :
    Plays (validateFileHash machine path fileHash :
        ReceiverProcess Peer Unit) receiving silence silence (.done ())
      receiving := by
  have validates : (do
      let actualFileHash ←
        ofExcept (calculateFileHash machine.digest receiving.disk.tree
          machine.workingDirectory path)
      if actualFileHash ≠ fileHash then
        raise (dropFileReceiveException
          (ascii "Received file's hash is not equal to the expected one."))
      else
        pure () : ReceiverProcess Peer Unit) = .done () := by
    rw [hashes]
    exact if_neg (not_not.2 rfl)
  refine .update ?_
  exact validates ▸ .rest _ _

/-- The exception for a file whose hash does not match. -/
def hashMismatch : Exception :=
  dropFileReceiveException
    (ascii "Received file's hash is not equal to the expected one.")

theorem validateFileHash_plays_mismatch
    {path : PathName} {actual fileHash : Bytes} {receiving : Receiving}
    (hashes : calculateFileHash machine.digest receiving.disk.tree
      machine.workingDirectory path = .ok actual)
    (different : actual ≠ fileHash) :
    Plays (validateFileHash machine path fileHash :
        ReceiverProcess Peer Unit) receiving silence silence
      (.failed hashMismatch) receiving := by
  have validates : (do
      let actualFileHash ←
        ofExcept (calculateFileHash machine.digest receiving.disk.tree
          machine.workingDirectory path)
      if actualFileHash ≠ fileHash then
        raise (dropFileReceiveException
          (ascii "Received file's hash is not equal to the expected one."))
      else
        pure () : ReceiverProcess Peer Unit) = .failed hashMismatch := by
    rw [hashes]
    exact if_pos different
  refine .update ?_
  exact validates ▸ .rest _ _

/-- What `receiveFile` does when the request is sent. -/
def awaitResponse (machine : Machine) (server : Peer)
    (confirmation : UInt8) (fuel : Nat) : ReceiverProcess Peer Unit := do
  let serverResponse ← getServerResponse machine server
  getUserConfirmation server confirmation
  receiveConfirmed machine server serverResponse fuel

theorem receiveFile_plays
    {codeWords message : Bytes}
    (dumped : machine.library.dump (createReceiveMessage codeWords) =
      .ok message)
    (confirmation : UInt8) (fuel : Nat) (receiving : Receiving) :
    Plays (receiveFile machine server confirmation codeWords fuel)
      receiving silence (only server (frames (chunks message)))
      (awaitResponse machine server confirmation fuel) receiving := by
  rw [receiveFile, dumped]
  exact (send_plays server message).bind _

theorem awaitResponse_plays
    {metadata : Bytes} {json : Json} {receiving : Receiving}
    (accepted : metadata.length ≤ bufferSize)
    (checked : checkResponse machine receiving.disk.tree metadata =
      .ok json)
    (fuel : Nat) :
    Plays (awaitResponse machine server 121 fuel) receiving
      (only server (frame metadata)) (only server (frame ack))
      (receiveConfirmed machine server json fuel) receiving := by
  have responds : Plays (getServerResponse machine server) receiving
      (only server (frame metadata)) silence (.done json) receiving := by
    rw [getServerResponse]
    apply (receive_plays server accepted).andThen
      (_ : Plays _ _ silence silence _ _)
    refine .update ?_
    show Plays (ofExcept (checkResponse machine receiving.disk.tree
      metadata)) receiving _ _ _ _
    rw [checked]
    exact .rest _ _
  rw [awaitResponse]
  apply responds.andThen
    (_ : Plays _ _ silence (only server (frame ack)) _ _)
  exact (sendACK_plays server).bind _

/-- What follows the transfer of the file. -/
def afterTransfer (announcement : Announcement machine tree)
    (fileHash : Bytes) (fuel : Nat) : ReceiverProcess Peer Unit := do
  validateFileHash machine announcement.path fileHash
  handleCompressedFile machine announcement.isCompressed announcement.path
    fuel

/-- The contents are in the file when all of them have come. -/
theorem regularFile_writeAll
    {path : PathName} {location : Location} {receiving : Receiving}
    (resolved :
      receiving.disk.tree.resolve machine.workingDirectory path =
        some location)
    (possible : receiving.disk.tree.CanPlace location)
    (contents : List Bytes) :
    regularFile (writeAll contents (openedAt path location
      receiving)).disk.tree machine.workingDirectory path =
        some contents.flatten := by
  have onDisk := (onDisk_openedAt resolved possible).writeAll contents
  rw [List.nil_append] at onDisk
  rw [regularFile, onDisk.status]

section Confirmed

variable {location : Location} {receiving : Receiving} {fuel : Nat}
variable {contents : List Bytes} {fileHash : Bytes}
variable (announcement : Announcement machine receiving.disk.tree)
variable (missing : receiving.disk.tree.node location = none)
variable (resolved :
  receiving.disk.tree.resolve machine.workingDirectory announcement.path =
    some location)
variable (possible : receiving.disk.tree.CanPlace location)
variable (nonempty : ∀ content ∈ contents, content ≠ [])
variable (accepted : ∀ content ∈ contents, content.length ≤ bufferSize)
variable (whole : contents.flatten.length = announcement.fileSize)
variable (fileHashRead :
  machine.library.stringAt announcement.json fileHashKey = .ok fileHash)
variable (fuelEnough : contents.length < fuel)

include missing resolved possible nonempty accepted whole fileHashRead
include fuelEnough

/-- The receiver after its confirmation, until all contents have come. -/
theorem receiveConfirmed_plays_filled :
    Plays (receiveConfirmed machine server announcement.json fuel) receiving
      (only server (frames contents)) silence
      (do
        sendACK server
        afterTransfer announcement fileHash fuel)
      (writeAll contents
        (openedAt announcement.path location receiving)) := by
  have receives := receiveFileImpl_plays_filled server missing resolved
    possible (machine.library.sizeAt_lt announcement.fileSizeRead)
    nonempty accepted whole fuelEnough
  rw [receiveConfirmed, announcement.filenameRead,
    announcement.isCompressedRead, announcement.fileSizeRead, fileHashRead]
  exact receives.bind _

/-- The receiver after its confirmation, until it has sent the second one. -/
theorem receiveConfirmed_plays_received :
    Plays (receiveConfirmed machine server announcement.json fuel) receiving
      (only server (frames contents)) (only server (frame ack))
      (afterTransfer announcement fileHash fuel)
      (writeAll contents
        (openedAt announcement.path location receiving)) := by
  have fills := @receiveConfirmed_plays_filled Peer machine _ server
    _ _ _ _ _ announcement missing resolved possible nonempty accepted
    whole fileHashRead fuelEnough
  have plays := fills.trans ((sendACK_plays server).bind _)
  rw [followedBy_silence, silence_followedBy] at plays
  exact plays

variable (hasHash : HasHash machine.digest contents.flatten fileHash)

include hasHash

/-- The receiver after its confirmation, until the hash is compared. -/
theorem receiveConfirmed_plays_checked :
    Plays (receiveConfirmed machine server announcement.json fuel) receiving
      (only server (frames contents)) (only server (frame ack))
      (handleCompressedFile machine announcement.isCompressed
        announcement.path fuel)
      (writeAll contents
        (openedAt announcement.path location receiving)) := by
  have receives := @receiveConfirmed_plays_received Peer machine _ server
    _ _ _ _ _ announcement missing resolved possible nonempty accepted
    whole fileHashRead fuelEnough
  have hashes := hasHash _ _ _
    (regularFile_writeAll resolved possible contents)
  have checks :
      Plays (afterTransfer announcement fileHash fuel :
          ReceiverProcess Peer Unit)
        (writeAll contents
          (openedAt announcement.path location receiving))
        silence silence
        (handleCompressedFile machine announcement.isCompressed
          announcement.path fuel)
        (writeAll contents
          (openedAt announcement.path location receiving)) :=
    (validateFileHash_plays hashes).andThen_eq rfl
  have plays := receives.trans checks
  rw [followedBy_silence, followedBy_silence] at plays
  exact plays

/-- The receiver of a plain file, after its confirmation. -/
theorem receiveConfirmed_plays
    (plain : announcement.isCompressed = false) :
    Plays (receiveConfirmed machine server announcement.json fuel) receiving
      (only server (frames contents)) (only server (frame ack)) (.done ())
      (writeAll contents
        (openedAt announcement.path location receiving)) := by
  have checked := @receiveConfirmed_plays_checked Peer machine _ server
    _ _ _ _ _ announcement missing resolved possible nonempty accepted
    whole fileHashRead fuelEnough hasHash
  rw [plain] at checked
  exact checked

end Confirmed

theorem handleCompressedFile_plays
    {path : PathName} {receiving : Receiving} {fuel : Nat}
    {between last : Disk}
    (unpacked :
      unpackArchive machine.zstd machine.buffering machine.workingDirectory
          (currentPath machine.workingDirectory) path fuel receiving.disk =
        .returned () between)
    (removed : remove machine.workingDirectory path between =
      .returned () last) :
    Plays (handleCompressedFile machine true path fuel :
        ReceiverProcess Peer Unit) receiving silence silence (.done ())
      { receiving with disk := last, unpacking := some path } := by
  rw [handleCompressedFile, if_pos rfl]
  refine .update ?_
  have unpacks := @Program.focus_returned _ _ _ _ Receiving.disk
    (fun disk receiving => { receiving with disk })
    (unpackArchive machine.zstd machine.buffering machine.workingDirectory
      (currentPath machine.workingDirectory) path fuel)
    { receiving with unpacking := some path } _ _ unpacked
  have removes := @Program.focus_returned _ _ _ _ Receiving.disk
    (fun disk receiving => { receiving with disk })
    (remove machine.workingDirectory path)
    { receiving with disk := between, unpacking := some path } _ _ removed
  have first : Plays (onDisk (unpackArchive machine.zstd
        machine.buffering machine.workingDirectory
        (currentPath machine.workingDirectory) path fuel) :
          ReceiverProcess Peer Unit)
      { receiving with unpacking := some path } silence silence (.done ())
      { receiving with disk := between, unpacking := some path } :=
    .ofProgram unpacks
  exact first.andThen (Plays.ofProgram removes)

theorem handleCompressedFile_plays_threw
    {path : PathName} {receiving : Receiving} {fuel : Nat}
    {error : Exception} {between : Disk}
    (throws :
      unpackArchive machine.zstd machine.buffering machine.workingDirectory
          (currentPath machine.workingDirectory) path fuel receiving.disk =
        .threw error between) :
    Plays (handleCompressedFile machine true path fuel :
        ReceiverProcess Peer Unit) receiving silence silence (.failed error)
      { receiving with disk := between, unpacking := some path } := by
  rw [handleCompressedFile, if_pos rfl]
  apply Plays.update
  have unpacks := @Program.focus_threw _ _ _ _ Receiving.disk
    (fun disk receiving => { receiving with disk })
    (unpackArchive machine.zstd machine.buffering machine.workingDirectory
      (currentPath machine.workingDirectory) path fuel)
    { receiving with unpacking := some path } _ _ throws
  have first : Plays (onDisk (unpackArchive machine.zstd
        machine.buffering machine.workingDirectory
        (currentPath machine.workingDirectory) path fuel) :
          ReceiverProcess Peer Unit)
      { receiving with unpacking := some path } silence silence
      (.failed error)
      { receiving with disk := between, unpacking := some path } :=
    .ofProgram_threw unpacks
  exact first.bind fun _ =>
    (onDisk (remove machine.workingDirectory path) :
      ReceiverProcess Peer Unit)

end Playing

end DropFile.Client.Announcements
