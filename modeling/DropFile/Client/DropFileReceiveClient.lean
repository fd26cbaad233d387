import DropFile.Client.LiveUnpacking
import DropFile.InitSessionMessage
import DropFile.Socket

/-!
# `DropFileReceiveClient`

The receiving client talks to the server and changes its disk.  The received
file is written as soon as its stream gets the bytes, and closing it changes
nothing more.  What the user answers, the free space and the directories of
the process are parameters; what is printed is left out.
-/

namespace DropFile.Client.DropFileReceiveClient

open DropFile.General.FuelledProgram
open DropFile.General.Processes
open DropFile.General.Processes.Process
open DropFile.General.PathNames
open DropFile.General.Files
open DropFile.Streams
open DropFile.FileSystem
open DropFile.Socket
open DropFile.JsonObjects
open DropFile.Utils
open DropFile.InitSessionMessage
open DropFile.Client.Zstd
open DropFile.Client.LiveUnpacking

/-- What a client depends on, on the machine that it runs on. -/
structure Machine where
  zstd : Library
  library : JsonLibrary
  digest : DigestLibrary
  workingDirectory : Location
  /-- `std::filesystem::temp_directory_path()`. -/
  temporaryDirectory : PathName
  /-- `std::filesystem::space(path).free`. -/
  freeSpace : PathName → Nat
  buffering : Buffering

/-- The state of the client. -/
structure Receiving where
  disk : Disk
  /-- The received file and what was written to it. -/
  receivedFile : Option (Location × Bytes)
  /-- The archive that is being unpacked. -/
  unpacking : Option PathName

abbrev ReceiverProcess (Peer α : Type) := SocketProcess Peer Receiving α

def dropFileReceiveException (what : Bytes) : Exception :=
  ⟨.dropFileReceive, what⟩

namespace Receiving

/-- The bytes that were written to the received file. -/
def written (receiving : Receiving) : Bytes :=
  match receiving.receivedFile with
  | some (_, bytes) => bytes
  | none => []

/-- `received_file.write`; nothing happens when the file is not open. -/
def write (bytes : Bytes) (receiving : Receiving) : Receiving :=
  match receiving.receivedFile with
  | none => receiving
  | some (location, written) =>
      { receiving with
        disk :=
          { receiving.disk with
            tree :=
              receiving.disk.tree.place location (.file (written ++ bytes)) }
        receivedFile := some (location, written ++ bytes) }

end Receiving

variable {Peer : Type} (machine : Machine)

/-- Run a program on the disk. -/
def onDisk {α : Type} (program : DiskProgram α) : ReceiverProcess Peer α :=
  ofProgram
    (Program.focus Receiving.disk
      (fun disk receiving => { receiving with disk }) program)

/-- `DROP_FILE_RECEIVER_TMP_DIR`. -/
def receiverTmpDir : PathName :=
  join (join machine.temporaryDirectory (ascii "drop-file"))
    (ascii "receiver")

/-- The constructor. -/
def construct : ReceiverProcess Peer Unit := do
  onDisk (removeAll machine.workingDirectory (receiverTmpDir machine))
  onDisk (createDirectories machine.workingDirectory
    (receiverTmpDir machine))

/-- The destructor. -/
def destroy : ReceiverProcess Peer Unit :=
  onDisk (removeAll machine.workingDirectory (receiverTmpDir machine))

/-! ## The metadata -/

/-- `DropFileReceiveClient::assertJsonProperties`. -/
def assertJsonProperties (tree : FileTree) (json : Json) :
    Except Exception Unit := do
  let filename ← machine.library.stringAt json filenameKey
  if fileExists tree machine.workingDirectory filename then
    .error (dropFileReceiveException
      (ascii "Directory " ++ filename ++ ascii " already exists!"))
  else
    let isCompressed ← machine.library.boolAt json isCompressedKey
    let baseDir :=
      if isCompressed then machine.temporaryDirectory
      else currentPath machine.workingDirectory
    let fileSize ← machine.library.sizeAt json fileSizeKey
    if machine.freeSpace baseDir < fileSize then
      .error (dropFileReceiveException
        (ascii "Not enough disk space to receive this file."))
    else
      pure ()

/-- What `getServerResponse` does inside of its `try`. -/
def parseResponse (tree : FileTree) (received : Bytes) :
    Except Exception Json := do
  let json ← orJsonException (machine.library.parse received)
  let _ ← machine.library.boolAt json isCompressedKey
  let _ ← machine.library.stringAt json filenameKey
  let _ ← machine.library.sizeAt json fileSizeKey
  assertJsonProperties machine tree json
  pure json

/-- What `getServerResponse` makes of the message that it received. -/
def checkResponse (tree : FileTree) (received : Bytes) :
    Except Exception Json :=
  match parseResponse machine tree received with
  | .ok json => .ok json
  | .error exception =>
      if exception.thrown = .json then
        .error (dropFileReceiveException
          (ascii "Error, server response: " ++ received))
      else
        .error exception

/-- `DropFileReceiveClient::getServerResponse`. -/
def getServerResponse (server : Peer) : ReceiverProcess Peer Json := do
  let received ← receive server
  let receiving ← getState
  ofExcept (checkResponse machine receiving.disk.tree received)

/--
`DropFileReceiveClient::getUserConfirmation`, for the first character that is
not blank, or a null character at the end of the input.
-/
def getUserConfirmation (server : Peer) (confirmation : UInt8) :
    ReceiverProcess Peer Unit := do
  if confirmation ≠ 121 then
    send server (ascii "abort")
    raise (dropFileReceiveException
      (ascii "Entered '" ++ [confirmation] ++ ascii "', aborting."))
  else
    sendACK server

/-! ## The file -/

/-- One pass of the loop of `receiveFileImpl`. -/
def receivePass (server : Peer) (expectedBytes : Nat)
    (totalTransferredBytes : Nat) :
    ReceiverProcess Peer (Nat ⊕ Unit) := do
  if totalTransferredBytes < expectedBytes then
    let data ← receiveToBuffer server
    let leftToTransfer := sizeSub expectedBytes totalTransferredBytes
    let writeSize := min leftToTransfer data.length
    modifyState (Receiving.write (data.take writeSize))
    pure (.inl (sizeAdd totalTransferredBytes writeSize))
  else
    pure (.inr ())

/-- The loop of `receiveFileImpl`. -/
def receiveContent (server : Peer) (expectedBytes fuel : Nat) :
    Nat → ReceiverProcess Peer Unit :=
  Process.loop (fun _ => receivePass server expectedBytes) fuel

/-- The construction of `received_file`. -/
def openReceivedFile (fileToReceivePath : PathName) :
    ReceiverProcess Peer Unit := do
  let opened ←
    onDisk (openForWriting machine.workingDirectory fileToReceivePath)
  modifyState fun receiving =>
    { receiving with
      receivedFile := opened.map fun location => (location, []) }

/-- `DropFileReceiveClient::receiveFileImpl`. -/
def receiveFileImpl (server : Peer) (fileToReceivePath : PathName)
    (expectedBytes fuel : Nat) : ReceiverProcess Peer Unit := do
  let receiving ← getState
  if fileExists receiving.disk.tree machine.workingDirectory
      fileToReceivePath then
    raise (dropFileReceiveException
      (ascii "Path " ++ fileToReceivePath ++ ascii " already exists!"))
  else
    openReceivedFile machine fileToReceivePath
    receiveContent server expectedBytes fuel 0
    sendACK server

/-- `DropFileReceiveClient::validateFileHash`. -/
def validateFileHash (compressedFilePath : PathName)
    (expectedFileHash : Bytes) : ReceiverProcess Peer Unit := do
  let receiving ← getState
  let actualFileHash ←
    ofExcept (calculateFileHash machine.digest receiving.disk.tree
      machine.workingDirectory compressedFilePath)
  if actualFileHash ≠ expectedFileHash then
    raise (dropFileReceiveException
      (ascii "Received file's hash is not equal to the expected one."))
  else
    pure ()

/-- `DropFileReceiveClient::handleCompressedFile`. -/
def handleCompressedFile (isCompressed : Bool)
    (compressedFilePath : PathName) (fuel : Nat) :
    ReceiverProcess Peer Unit := do
  if isCompressed then
    modifyState fun receiving =>
      { receiving with unpacking := some compressedFilePath }
    onDisk (unpackArchive machine.zstd machine.buffering
      machine.workingDirectory (currentPath machine.workingDirectory)
      compressedFilePath fuel)
    onDisk (remove machine.workingDirectory compressedFilePath)
  else
    pure ()

/-- `file_to_receive_path` in `receiveFile`. -/
def receivePath (isCompressed : Bool) (filename : PathName) : PathName :=
  join
    (if isCompressed then receiverTmpDir machine
      else currentPath machine.workingDirectory)
    filename

/-- The part of `receiveFile` that follows the confirmation. -/
def receiveConfirmed (server : Peer) (serverResponse : Json)
    (fuel : Nat) : ReceiverProcess Peer Unit := do
  let filename ←
    ofExcept (machine.library.stringAt serverResponse filenameKey)
  let isCompressed ←
    ofExcept (machine.library.boolAt serverResponse isCompressedKey)
  let fileToReceivePath := receivePath machine isCompressed filename
  let expectedBytes ←
    ofExcept (machine.library.sizeAt serverResponse fileSizeKey)
  receiveFileImpl machine server fileToReceivePath expectedBytes fuel
  let expectedFileHash ←
    ofExcept (machine.library.stringAt serverResponse fileHashKey)
  validateFileHash machine fileToReceivePath expectedFileHash
  handleCompressedFile machine isCompressed fileToReceivePath fuel

/-- `DropFileReceiveClient::receiveFile`. -/
def receiveFile (server : Peer) (confirmation : UInt8) (codeWords : Bytes)
    (fuel : Nat) : ReceiverProcess Peer Unit := do
  let message ←
    ofExcept (orJsonException
      (machine.library.dump (createReceiveMessage codeWords)))
  send server message
  let serverResponse ← getServerResponse machine server
  getUserConfirmation server confirmation
  receiveConfirmed machine server serverResponse fuel

end DropFile.Client.DropFileReceiveClient
