import DropFile.ConcurrentClients
import DropFile.Server.ControllerThread

/-!
# The whole system

All participants over channels that lose connections, with the event loop for
the server and the thread that sweeps its table at any time.  Nothing that the
participants rely on is lost by the second thread.
-/

namespace DropFile.WholeSystem

open DropFile.General.Interference
open DropFile.General.Networks
open DropFile.General.Networks.Network
open DropFile.Streams
open DropFile.JsonObjects
open DropFile.Client.FirstMessages
open DropFile.Client.ReceivedFiles (Fresh)
open DropFile.Server.SessionsManager
open DropFile.Server.Transfers
open DropFile.Server.Serving
open DropFile.Server.EventLoop
open DropFile.Server.ControllerThread
open DropFile.Parties
open DropFile.Parties.Participants
open DropFile.Consent
open DropFile.FinishedTransfers
open DropFile.ConcurrentClients

variable {Sender Receiver Stranger : Type}
variable [DecidableEq Sender] [DecidableEq Receiver]
variable [DecidableEq Stranger]

section Runs

variable {library : JsonLibrary}
variable {participants : Participants Sender Receiver Stranger}
variable {clientTimeout : Int}
variable {events : List (Event (Party Sender Receiver Stranger))}

/-- A run of the participants, with sweeps at any time. -/
def SweptRun (participants : Participants Sender Receiver Stranger)
    (clientTimeout : Int)
    (events : List (Event (Party Sender Receiver Stranger)))
    (later : Network (Party Sender Receiver Stranger) Exception State
      fun _ => Unit) : Prop :=
  DisturbedRun .server (Sweeps clientTimeout)
    (eventNetwork participants clientTimeout events) later

variable {later : Network (Party Sender Receiver Stranger) Exception State
  fun _ => Unit}
variable (run : SweptRun participants clientTimeout events later)
include run

/-- The server is still consistent. -/
theorem safe_of_sweptRun
    (strict : library.StrictContract)
    (agree : participants.Agree library)
    (accepts : Accepts participants events) :
    ∃ visited, Safe library (FitsAnswer library) visited
      (later.view .server) :=
  safe_of_disturbed run.disturbed strict.toUtf8Contract
    (fun _ isAccepted => (forall_connections agree accepts isAccepted).1)
    (once_of_accepts agree accepts)
    fun _ isAccepted => (forall_connections agree accepts isAccepted).2

/-- The senders do not notice the sweeps. -/
theorem keeps_of_sweptRun
    (strict : library.StrictContract)
    (agree : participants.Agree library)
    (name : Sender) :
    Keeps (participants.sender name).machine .server
      (later.view (.sender name)) :=
  have becomes := run.becomes (show Party.sender name ≠ .server from nofun)
  (((behaves_network strict agree).sender name).of_becomes becomes).now
    trivial

/-- Nor does anybody else. -/
theorem honors_of_sweptRun
    (fresh : ∀ name, Fresh (participants.receiver name).receiving) :
    Honors participants later where
  sender name :=
    have becomes := run.becomes (show Party.sender name ≠ .server from nofun)
    ((honors_network fresh).sender name).of_becomes becomes
  receiver name :=
    have becomes := run.becomes
      (show Party.receiver name ≠ .server from nofun)
    ((honors_network fresh).receiver name).of_becomes becomes

end Runs

/-- The server sweeps once more when both clients have returned. -/
theorem exists_swept_coupleEvents :
    ∃ later, SweptRun couple 60 coupleEvents later ∧
      ∀ who, who ≠ .server →
        Returned who (later.process who) (later.state who) := by
  rcases exists_returned_coupleEvents with ⟨middle, run, returned⟩
  have sweeps : Sweeps 60 (middle.state .server)
      (terminateTimeoutClients 60 [(ascii "old-two-7", 90)]
        (middle.state .server)) :=
    ⟨_, rfl⟩
  have before : SweptRun couple 60 coupleEvents middle := .of_lossyRun run
  refine ⟨_, DisturbedRun.changed before sweeps, ?_⟩
  intro who isClient
  rw [state_alter_other _ isClient]
  exact returned who

end DropFile.WholeSystem
