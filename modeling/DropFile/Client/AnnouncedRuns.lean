import DropFile.Client.ReceivedFiles

/-!
# Runs with an announced file

A server that announces a file and sends its contents takes the receiver to
the point where the hash was compared.
-/

namespace DropFile.Client.AnnouncedRuns

open DropFile.General.Processes.Process
open DropFile.General.PathNames
open DropFile.General.Utf8
open DropFile.General.Files
open DropFile.Streams
open DropFile.FileSystem
open DropFile.Socket
open DropFile.JsonObjects
open DropFile.Utils
open DropFile.InitSessionMessage
open DropFile.SessionMessages
open DropFile.Client.DropFileReceiveClient
open DropFile.Client.Announcements
open DropFile.Client.ReceivedFiles

/-- A digest that is known for a single content. -/
def knownDigest (content hashResult : Bytes) : DigestLibrary where
  Context := Bytes
  create := some []
  digestInit _ := some []
  digestUpdate mdctx buffer := some (mdctx ++ buffer)
  digestFinal mdctx := if mdctx = content then some hashResult else none

theorem hasHash_knownDigest
    {content hashResult : Bytes}
    (hashes : hashContent (knownDigest content hashResult) content [] =
      .ok (binaryToHumanReadable hashResult)) :
    HasHash (knownDigest content hashResult) content
      (binaryToHumanReadable hashResult) := by
  intro tree workingDirectory path isFile
  have found := status_of_regularFile isFile
  rw [calculateFileHash, found]
  exact hashes

/-- The bytes of a message for a file. -/
def flatMetadata (filename : PathName) (fileSize : Nat) (fileHash : Bytes)
    (isCompressed : Bool) : Bytes :=
  (FlatJson.flatLibrary.dump
    (sendMessage filename fileSize fileHash isCompressed)).toOption.getD []

/-- A message for a file that is not there yet is an announcement. -/
theorem exists_announcement
    {machine : Machine} {tree : FileTree}
    (flat : machine.library = FlatJson.flatLibrary)
    {filename : PathName} {fileSize : Nat} {fileHash : Bytes}
    {isCompressed : Bool}
    (filenameUtf8 : IsUtf8 filename)
    (fileHashUtf8 : IsUtf8 fileHash)
    (fits : fileSize < sizeModulus)
    (free : fileExists tree machine.workingDirectory filename = false)
    (space : fileSize ≤ machine.freeSpace
      (if isCompressed then machine.temporaryDirectory
        else currentPath machine.workingDirectory)) :
    ∃ announcement : Announcement machine tree,
      announcement.metadata =
        flatMetadata filename fileSize fileHash isCompressed ∧
      announcement.filename = filename ∧
      announcement.fileSize = fileSize ∧
      announcement.isCompressed = isCompressed ∧
      machine.library.stringAt announcement.json fileHashKey =
        .ok fileHash := by
  rcases parse_dump_of_allPlain FlatJson.flatLibrary_contract
      ((exists_members_assign _ _ _).imp fun _ both => both.1)
      (sendMessage_ordered _ _ _ _)
      (sendMessage_utf8 filenameUtf8 fileHashUtf8 fileSize isCompressed)
      (sendMessage_allPlain _ _ _ _) with
    ⟨text, dumped, parsed⟩
  have isMetadata :
      flatMetadata filename fileSize fileHash isCompressed = text := by
    rw [flatMetadata, dumped]
    rfl
  have reads := reads_of_isSendMessage machine.library fits
    (isSendMessage_sendMessage filename fileSize fileHash isCompressed)
  rw [← flat] at parsed
  let announcement : Announcement machine tree :=
    { metadata := text
      json := sendMessage filename fileSize fileHash isCompressed
      filename := filename
      fileSize := fileSize
      isCompressed := isCompressed
      accepted := checkResponse_of_reads parsed reads free space
      filenameRead := reads.filename
      fileSizeRead := reads.fileSize
      isCompressedRead := reads.isCompressed }
  exact ⟨announcement, isMetadata.symm, rfl, rfl, rfl, reads.fileHash⟩

/-- The announced file arrives in one piece. -/
theorem becomes_received
    {machine : Machine}
    (contract : machine.library.RoundTripContract)
    {disk : Disk}
    (announcement : Announcement machine disk.tree)
    (metadataFits : announcement.metadata.length ≤ bufferSize)
    {location : Location} {content fileHash : Bytes}
    (missing : disk.tree.node location = none)
    (resolved : disk.tree.resolve machine.workingDirectory
      announcement.path = some location)
    (possible : disk.tree.CanPlace location)
    (nonempty : content ≠ [])
    (contentFits : content.length ≤ bufferSize)
    (whole : content.length = announcement.fileSize)
    (fileHashRead :
      machine.library.stringAt announcement.json fileHashKey =
        .ok fileHash)
    {fuel : Nat}
    (fuelEnough : 1 < fuel) :
    ∃ received sent,
      Becomes (receiveFile machine () 121 (ascii "a-b-1") fuel)
        (starting disk) (afterTransfer announcement fileHash fuel)
        (⟨writeAll [content]
          (openedAt announcement.path location ⟨disk, none, none⟩),
          received, sent⟩ : Local Unit Receiving) := by
  rcases create_createReceiveMessage contract
      (by decide +kernel : IsUtf8 (ascii "a-b-1")) with
    ⟨message, dumped, -⟩
  have request := @receiveFile_plays Unit machine _ () _ _ dumped 121 fuel
    ⟨disk, none, none⟩
  have answer := @awaitResponse_plays Unit machine _ ()
    announcement.metadata announcement.json ⟨disk, none, none⟩ metadataFits
    announcement.accepted fuel
  have transfer := @receiveConfirmed_plays_received Unit machine _ ()
    location ⟨disk, none, none⟩ fuel [content] fileHash announcement missing
    resolved possible (by simpa using nonempty)
    (by simpa using contentFits) (by simpa using whole) fileHashRead
    (by simpa using fuelEnough)
  exact ⟨_, _, .of_plays ((request.trans answer).trans transfer) _ _⟩

/-- The announced file arrives in one piece and has its hash. -/
theorem becomes_checked
    {machine : Machine}
    (contract : machine.library.RoundTripContract)
    {disk : Disk}
    (announcement : Announcement machine disk.tree)
    (metadataFits : announcement.metadata.length ≤ bufferSize)
    {location : Location} {content fileHash : Bytes}
    (missing : disk.tree.node location = none)
    (resolved : disk.tree.resolve machine.workingDirectory
      announcement.path = some location)
    (possible : disk.tree.CanPlace location)
    (nonempty : content ≠ [])
    (contentFits : content.length ≤ bufferSize)
    (whole : content.length = announcement.fileSize)
    (fileHashRead :
      machine.library.stringAt announcement.json fileHashKey =
        .ok fileHash)
    (hasHash : HasHash machine.digest content fileHash)
    {fuel : Nat}
    (fuelEnough : 1 < fuel) :
    ∃ received sent,
      Becomes (receiveFile machine () 121 (ascii "a-b-1") fuel)
        (starting disk)
        (handleCompressedFile machine announcement.isCompressed
          announcement.path fuel)
        (⟨writeAll [content]
          (openedAt announcement.path location ⟨disk, none, none⟩),
          received, sent⟩ : Local Unit Receiving) := by
  rcases becomes_received contract announcement metadataFits missing
      resolved possible nonempty contentFits whole fileHashRead
      fuelEnough with
    ⟨received, sent, becomes⟩
  have isFile := @regularFile_writeAll machine _ location
    ⟨disk, none, none⟩ resolved possible [content]
  rw [List.flatten_singleton] at isFile
  have checks :
      Plays (afterTransfer announcement fileHash fuel :
          ReceiverProcess Unit Unit)
        (writeAll [content]
          (openedAt announcement.path location ⟨disk, none, none⟩))
        silence silence
        (handleCompressedFile machine announcement.isCompressed
          announcement.path fuel)
        (writeAll [content]
          (openedAt announcement.path location ⟨disk, none, none⟩)) :=
    (validateFileHash_plays (hasHash _ _ _ isFile)).andThen_eq rfl
  exact ⟨_, _, becomes.trans (.of_plays checks received sent)⟩

/-- An archive that is announced as `g` arrives in one piece. -/
theorem exists_checked
    {machine : Machine}
    (flat : machine.library = FlatJson.flatLibrary)
    {disk : Disk} {location : Location} {archive hashResult : Bytes}
    (free : fileExists disk.tree machine.workingDirectory (ascii "g") =
      false)
    (space : archive.length ≤
      machine.freeSpace machine.temporaryDirectory)
    (short : (flatMetadata (ascii "g") archive.length
      (binaryToHumanReadable hashResult) true).length ≤ bufferSize)
    (missing : disk.tree.node location = none)
    (resolved : disk.tree.resolve machine.workingDirectory
      (receivePath machine true (ascii "g")) = some location)
    (possible : disk.tree.CanPlace location)
    (nonempty : archive ≠ [])
    (fits : archive.length ≤ bufferSize)
    (hasHash : HasHash machine.digest archive
      (binaryToHumanReadable hashResult)) :
    ∃ received sent,
      Becomes (receiveFile machine () 121 (ascii "a-b-1") 3)
        (starting disk)
        (handleCompressedFile machine true
          (receivePath machine true (ascii "g")) 3)
        (⟨writeAll [archive]
          (openedAt (receivePath machine true (ascii "g")) location
            ⟨disk, none, none⟩),
          received, sent⟩ : Local Unit Receiving) := by
  rcases @exists_announcement machine disk.tree flat (ascii "g")
      archive.length (binaryToHumanReadable hashResult) true
      (by decide +kernel) (isUtf8_binaryToHumanReadable _)
      (fits.trans_lt (by decide)) free space with
    ⟨announcement, isMetadata, isFilename, isFileSize, isCompressed,
      fileHashRead⟩
  have isPath : announcement.path =
      receivePath machine true (ascii "g") := by
    rw [Announcement.path, isCompressed, isFilename]
  rw [← isPath] at resolved
  have checked := @becomes_checked machine
    (by rw [flat]; exact FlatJson.flatLibrary_contract) disk announcement
    (by rw [isMetadata]; exact short) location archive _ missing resolved
    possible nonempty fits isFileSize.symm fileHashRead hasHash 3
    (by decide)
  rwa [isPath, isCompressed] at checked

/-- The announced file arrives in one piece and has another hash. -/
theorem becomes_mismatch
    {machine : Machine} {disk : Disk}
    {announcement : Announcement machine disk.tree}
    {location : Location} {content actual fileHash : Bytes} {fuel : Nat}
    {received sent : Traffic Unit}
    (becomes : Becomes (receiveFile machine () 121 (ascii "a-b-1") fuel)
      (starting disk) (afterTransfer announcement fileHash fuel)
      (⟨writeAll [content]
        (openedAt announcement.path location ⟨disk, none, none⟩),
        received, sent⟩ : Local Unit Receiving))
    (resolved : disk.tree.resolve machine.workingDirectory
      announcement.path = some location)
    (possible : disk.tree.CanPlace location)
    (hasHash : HasHash machine.digest content actual)
    (different : actual ≠ fileHash) :
    ∃ received sent,
      Becomes (receiveFile machine () 121 (ascii "a-b-1") fuel)
        (starting disk) (.failed hashMismatch)
        (⟨writeAll [content]
          (openedAt announcement.path location ⟨disk, none, none⟩),
          received, sent⟩ : Local Unit Receiving) := by
  have isFile := @regularFile_writeAll machine _ location
    ⟨disk, none, none⟩ resolved possible [content]
  rw [List.flatten_singleton] at isFile
  have checks := (validateFileHash_plays_mismatch
    (hasHash _ _ _ isFile) different).bind fun _ =>
      (handleCompressedFile machine announcement.isCompressed
        announcement.path fuel : ReceiverProcess Unit Unit)
  exact ⟨_, _, becomes.trans (.of_plays checks received sent)⟩

end DropFile.Client.AnnouncedRuns
