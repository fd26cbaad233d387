import DropFile.Client.ArchiveManager
import DropFile.InitSessionMessage
import DropFile.Socket

/-!
# `DropFileSendClient`

The sending client.  How many bytes `readsome` has ready at each of its calls
is a parameter, and the file is read as it was when it was opened.
-/

namespace DropFile.Client.DropFileSendClient

open DropFile.General.Processes
open DropFile.General.Processes.Process
open DropFile.General.PathNames
open DropFile.General.Files
open DropFile.Streams
open DropFile.FileSystem
open DropFile.Socket
open DropFile.JsonObjects
open DropFile.Utils
open DropFile.InitSessionMessage
open DropFile.Client.Zstd
open DropFile.Client.ArchiveManager

/-- What a client depends on, on the machine that it runs on. -/
structure Machine where
  zstd : Library
  library : JsonLibrary
  digest : DigestLibrary
  workingDirectory : Location
  /-- `std::filesystem::temp_directory_path()`. -/
  temporaryDirectory : PathName
  /-- The order of `directory_iterator`. -/
  listing : Location → List PathName
  /-- The bytes that `readsome` has ready, for each of its calls. -/
  ready : Nat → Nat

abbrev SenderProcess (Peer α : Type) := SocketProcess Peer Disk α

def dropFileSendException (what : Bytes) : Exception :=
  ⟨.dropFileSend, what⟩

structure RAIIFSEntry where
  path : PathName
  shouldRemove : Bool

variable {Peer : Type} (machine : Machine)

/-- `DROP_FILE_SENDER_TMP_DIR`. -/
def senderTmpDir : PathName :=
  join (join machine.temporaryDirectory (ascii "drop-file"))
    (ascii "sender")

/-- The constructor. -/
def construct : SenderProcess Peer Unit := do
  ofProgram (removeAll machine.workingDirectory (senderTmpDir machine))
  ofProgram (createDirectories machine.workingDirectory
    (senderTmpDir machine))

/-- The destructor. -/
def destroy : SenderProcess Peer Unit :=
  ofProgram (removeAll machine.workingDirectory (senderTmpDir machine))

/-- The destructor of `RAIIFSEntry`. -/
def destroyEntry (entry : RAIIFSEntry) : SenderProcess Peer Unit :=
  if entry.shouldRemove then
    ofProgram (removeAll machine.workingDirectory entry.path)
  else
    pure ()

/-- What goes on while an entry is alive; an exception destroys it. -/
def withEntry {α : Type} (entry : RAIIFSEntry)
    (process : SenderProcess Peer α) : SenderProcess Peer α :=
  process.handle fun exception => do
    destroyEntry machine entry
    raise exception

/-! ## The metadata -/

/-- `DropFileSendClient::compressIfNecessary`. -/
def compressIfNecessary (path : PathName) (fuel : Nat) :
    SenderProcess Peer (RAIIFSEntry × Bool) := do
  let disk ← getState
  if isDirectory disk.tree machine.workingDirectory path then
    let newPath := join (senderTmpDir machine) (filename path)
    ofProgram (createArchive machine.zstd machine.workingDirectory
      machine.listing path newPath fuel)
    pure (⟨newPath, true⟩, true)
  else
    pure (⟨path, false⟩, false)

/-- What `getReceiveCodeFromServer` makes of the message it received. -/
def receiveCode (received : Bytes) : Except Exception Bytes :=
  let parsed := do
    let json ← orJsonException (machine.library.parse received)
    machine.library.stringAt json codeWordsKey
  match parsed with
  | .ok code => .ok code
  | .error exception =>
      if exception.thrown = .json then
        .error (dropFileSendException
          (ascii "Could not parse server response (" ++ received ++
            ascii ") to json:  " ++ exception.what))
      else
        .error exception

/-- `DropFileSendClient::getReceiveCodeFromServer`. -/
def getReceiveCodeFromServer (server : Peer) :
    SenderProcess Peer Bytes := do
  let received ← receive server
  ofExcept (receiveCode machine received)

/-- `DropFileSendClient::sendFSEntryMetadata`. -/
def sendFSEntryMetadata (server : Peer) (path : PathName) (fuel : Nat) :
    SenderProcess Peer (RAIIFSEntry × Bytes) := do
  let (entry, isCompressed) ← compressIfNecessary machine path fuel
  withEntry machine entry do
    let disk ← getState
    let json ←
      ofExcept (createSendMessage machine.digest disk.tree
        machine.workingDirectory entry.path isCompressed)
    let message ← ofExcept (orJsonException (machine.library.dump json))
    send server message
    let code ← getReceiveCodeFromServer machine server
    pure (entry, code)

/-! ## The file -/

/-- One pass of the loop of `sendFSEntry`: what is left and the next call. -/
def sendPass (server : Peer) (current : Bytes × Nat) :
    SenderProcess Peer ((Bytes × Nat) ⊕ Unit) := do
  let (rest, call) := current
  let bytesRead := rest.take (min (machine.ready call) bufferSize)
  if bytesRead.length > 0 then
    send server bytesRead
    pure (.inl (rest.drop bytesRead.length, call + 1))
  else
    pure (.inr ())

/-- The loop of `sendFSEntry`. -/
def sendContent (server : Peer) (fuel : Nat) :
    Bytes × Nat → SenderProcess Peer Unit :=
  Process.loop (fun _ => sendPass machine server) fuel

/-- `DropFileSendClient::sendFSEntry`. -/
def sendFSEntry (server : Peer) (dataSource : RAIIFSEntry)
    (fuel : Nat) : SenderProcess Peer Unit := do
  withEntry machine dataSource do
    receiveACK server
    let disk ← getState
    match regularFile disk.tree machine.workingDirectory
        dataSource.path with
    | none => raise (filesystemError "cannot get file size")
    | some content => sendContent machine server fuel (content, 0)
    receiveACK server
  destroyEntry machine dataSource

end DropFile.Client.DropFileSendClient
