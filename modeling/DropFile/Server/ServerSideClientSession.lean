import DropFile.InitSessionMessage
import DropFile.Server.SessionsManager
import DropFile.Socket

/-!
# `ServerSideClientSession`

A session is named by the client that it serves, and sessions share the table
of the sessions manager.  The handlers run one after another on the thread of
the server.  Left out are the TLS handshake, the log, except that what is
logged is read from the messages, and the three seconds that the handler sleeps
before it answers to an unknown code.
-/

namespace DropFile.Server.ServerSideClientSession

open DropFile.General.Processes
open DropFile.General.Processes.Process
open DropFile.Streams
open DropFile.Socket
open DropFile.JsonObjects
open DropFile.InitSessionMessage
open DropFile.Server.SessionsManager

/-- What the sessions of a server depend on. -/
structure Settings where
  library : JsonLibrary
  generateSessionID : Nat → SessionCode
  /-- The clock when a sender registers. -/
  now : Int
  /-- Whether `sessions_manager.lock()` succeeds. -/
  managerAlive : Bool

abbrev SessionProcess (Peer α : Type) :=
  SocketProcess Peer (SendersSessions Peer Json) α

variable {Peer : Type} (settings : Settings)

def maxFirstMessageSize : Nat := 1000

/-- One pass of the loop of `receiveFile`. -/
def relayPass (receiver sender : Peer) (expectedBytes : Nat)
    (totalReceivedBytes : Nat) : SessionProcess Peer (Nat ⊕ Unit) := do
  if totalReceivedBytes < expectedBytes then
    let data ← receive sender
    let leftToTransfer := sizeSub expectedBytes totalReceivedBytes
    let writeSize := min leftToTransfer data.length
    send receiver (data.take writeSize)
    pure (.inl (sizeAdd totalReceivedBytes writeSize))
  else
    pure (.inr ())

/-- The loop of `receiveFile`. -/
def relay (receiver sender : Peer) (expectedBytes fuel : Nat) :
    Nat → SessionProcess Peer Unit :=
  Process.loop (fun _ => relayPass receiver sender expectedBytes) fuel

/-- `ServerSideClientSession::receiveFile`. -/
def receiveFile (receiver sender : Peer) (sessionMetadata : Json)
    (fuel : Nat) : SessionProcess Peer Unit := do
  let metadata ←
    ofExcept (orJsonException (settings.library.dump sessionMetadata))
  send receiver metadata
  receiveACK receiver
  sendACK sender
  let _ ← ofExcept (settings.library.stringAt sessionMetadata filenameKey)
  let expectedBytes ←
    ofExcept (settings.library.sizeAt sessionMetadata fileSizeKey)
  relay receiver sender expectedBytes fuel 0
  receiveACK receiver
  sendACK sender
  let _ ← ofExcept (settings.library.stringAt sessionMetadata filenameKey)
  pure ()

/-- The answer that carries the code of a session. -/
def codeResponse (sessionCode : SessionCode) : Json :=
  Json.null.assign codeWordsKey (.string sessionCode)

theorem codeResponse_ordered (sessionCode : SessionCode) :
    (codeResponse sessionCode).Ordered :=
  Json.Ordered.null.assign codeWordsKey (.string _)

/-- `ServerSideClientSession::registerSession`. -/
def registerSession (self : Peer) (json : Json) (fuel : Nat) :
    SessionProcess Peer Unit := do
  if settings.managerAlive then
    let action ← ofExcept (settings.library.index json actionKey)
    if action.equals "send" then
      let sessionCode ←
        ofProgram (registerSender settings.generateSessionID settings.now
          self json fuel)
      let response ←
        ofExcept (orJsonException
          (settings.library.dump (codeResponse sessionCode)))
      send self response
    else
      let codeWords ←
        ofExcept (settings.library.stringAt json codeWordsKey)
      let (sender, sessionMetadata) ←
        ofProgram (getSenderWithMetadata codeWords)
      receiveFile settings self sender sessionMetadata fuel
  else
    safeDisconnect self (some (ascii "Internal error"))

/-- The handlers of `handleFirstRead`; what they do not catch goes on. -/
def catchFirstRead (self : Peer) (exception : Exception) :
    SessionProcess Peer Unit :=
  if exception.thrown.isDropFileBase then
    safeDisconnect self (some exception.message)
  else if exception.thrown = .systemError then
    pure ()
  else
    raise exception

/-- `ServerSideClientSession::handleFirstRead`. -/
def handleFirstRead (self : Peer) (fuel : Nat) (content : Bytes) :
    SessionProcess Peer Unit :=
  Process.handle (catchFirstRead self) do
    let json ← ofExcept (create settings.library content)
    let _ ← ofExcept (settings.library.stringAt json actionKey)
    registerSession settings self json fuel

/-- `ServerSideClientSession::start`. -/
def start (self : Peer) (fuel : Nat) : SessionProcess Peer Unit :=
  asyncReadMessage self maxFirstMessageSize
    (handleFirstRead settings self fuel)

end DropFile.Server.ServerSideClientSession
