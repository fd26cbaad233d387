import DropFile.General.FuelledProgram
import DropFile.Streams
import Mathlib.Data.List.AList

/-!
# `SessionsManager`

The table of the senders that wait for a receiver.  Every operation holds the
mutex, so it is a function of the table; `registerSender` takes the mutex once
for every code that it tries.  The random codes and the clock are parameters,
and so is the order in which a sweep goes through the table.
-/

namespace DropFile.Server.SessionsManager

open DropFile.General.FuelledProgram
open DropFile.Streams

abbrev SessionCode := Bytes

/-- `SessionsManager::TimedClientSession`. -/
structure TimedClientSession (Session Metadata : Type) where
  clientSession : Session
  sessionData : Metadata
  timePoint : Int

/-- `senders_sessions`. -/
abbrev SendersSessions (Session Metadata : Type) :=
  AList fun _ : SessionCode => TimedClientSession Session Metadata

def sessionsManagerException (what : String) : Exception :=
  ⟨.sessionsManager, ascii what⟩

/-- `SessionsManager::generateSessionID`, for what is drawn. -/
def sessionID (adjective noun : Bytes) (number : Nat) : SessionCode :=
  adjective ++ ascii "-" ++ noun ++ ascii "-" ++ ascii (toString number)

variable {Session Metadata : Type}

/-- One pass of the loop of `registerSender`: nothing for a code in use. -/
def tryRegister (sessionId : SessionCode) (now : Int) (sender : Session)
    (json : Metadata)
    (sendersSessions : SendersSessions Session Metadata) :
    Option (SendersSessions Session Metadata) :=
  if sessionId ∈ sendersSessions then
    none
  else
    some (sendersSessions.insert sessionId ⟨sender, json, now⟩)

/-- `SessionsManager::registerSender`, undisturbed between its passes. -/
def registerSender (generateSessionID : Nat → SessionCode) (now : Int)
    (sender : Session) (json : Metadata) (fuel : Nat) :
    Program Exception (SendersSessions Session Metadata) SessionCode :=
  Program.loop
    (fun _ attempt => do
      let sendersSessions ← Program.getState
      let sessionId := generateSessionID attempt
      match tryRegister sessionId now sender json sendersSessions with
      | none => pure (.inl (attempt + 1))
      | some later => do
          Program.modifyState fun _ => later
          pure (.inr sessionId))
    fuel 0

/-- `SessionsManager::getSenderWithMetadata`. -/
def getSenderWithMetadata (sessionCode : SessionCode) :
    Program Exception (SendersSessions Session Metadata)
      (Session × Metadata) :=
  fun sendersSessions =>
    match sendersSessions.extract sessionCode with
    | (none, _) =>
        .threw (sessionsManagerException "Unknown session code.")
          sendersSessions
    | (some session, rest) =>
        .returned (session.clientSession, session.sessionData) rest

/-- What a sweep does with the entry that it has reached. -/
def examine (clientTimeout : Int)
    (sendersSessions : SendersSessions Session Metadata)
    (visit : SessionCode × Int) : SendersSessions Session Metadata :=
  match sendersSessions.lookup visit.1 with
  | none => sendersSessions
  | some session =>
      if visit.2 - session.timePoint > clientTimeout then
        sendersSessions.erase visit.1
      else
        sendersSessions

/--
`SessionsManager::terminateTimeoutClients`, which examines the entries in some
order and reads the clock for each.
-/
def terminateTimeoutClients (clientTimeout : Int)
    (visits : List (SessionCode × Int))
    (sendersSessions : SendersSessions Session Metadata) :
    SendersSessions Session Metadata :=
  visits.foldl (examine clientTimeout) sendersSessions

/-- A sweep visits every entry once. -/
def VisitsAll (visits : List (SessionCode × Int))
    (sendersSessions : SendersSessions Session Metadata) : Prop :=
  (visits.map Prod.fst).Perm sendersSessions.keys

/-- `SessionsManager::currentSessions`. -/
def currentSessions
    (sendersSessions : SendersSessions Session Metadata) : Nat :=
  sendersSessions.entries.length

/-! ## What the operations do -/

theorem getSenderWithMetadata_of_lookup
    {sessionCode : SessionCode}
    {sendersSessions : SendersSessions Session Metadata}
    {session : TimedClientSession Session Metadata}
    (found : sendersSessions.lookup sessionCode = some session) :
    getSenderWithMetadata sessionCode sendersSessions =
      .returned (session.clientSession, session.sessionData)
        (sendersSessions.erase sessionCode) := by
  rw [getSenderWithMetadata, AList.extract_eq_lookup_erase, found]

theorem getSenderWithMetadata_of_unknown
    {sessionCode : SessionCode}
    {sendersSessions : SendersSessions Session Metadata}
    (unknown : sendersSessions.lookup sessionCode = none) :
    getSenderWithMetadata sessionCode sendersSessions =
      .threw (sessionsManagerException "Unknown session code.")
        sendersSessions := by
  rw [getSenderWithMetadata, AList.extract_eq_lookup_erase, unknown]

/-- The first code is taken when it is not in use. -/
theorem registerSender_run
    {generateSessionID : Nat → SessionCode}
    {sendersSessions : SendersSessions Session Metadata}
    (now : Int) (sender : Session) (json : Metadata) (fuel : Nat)
    (free : generateSessionID 0 ∉ sendersSessions) :
    registerSender generateSessionID now sender json (fuel + 1)
        sendersSessions =
      .returned (generateSessionID 0)
        (sendersSessions.insert (generateSessionID 0)
          ⟨sender, json, now⟩) := by
  rw [registerSender, Program.loop_succ,
    Program.bind_returned (Program.getState_run _), tryRegister,
    if_neg free]
  rfl

/-- A sender is registered under the code that is returned. -/
theorem registerSender_satisfies
    (generateSessionID : Nat → SessionCode) (now : Int)
    (sender : Session) (json : Metadata) (fuel : Nat)
    (sendersSessions : SendersSessions Session Metadata) :
    Program.Satisfies (fun start => start = sendersSessions)
      (registerSender generateSessionID now sender json fuel)
      (fun code later => (∃ attempt, code = generateSessionID attempt) ∧
        tryRegister code now sender json sendersSessions = some later)
      (fun _ _ => False) := by
  refine Program.Satisfies.loop (fun _ state => state = sendersSessions)
    ?_ fuel 0
  rintro - attempt start rfl
  rw [Program.bind_returned (Program.getState_run _)]
  cases attempted : tryRegister (generateSessionID attempt) now sender json
      start with
  | none => exact rfl
  | some later => exact ⟨⟨attempt, rfl⟩, attempted⟩

/-- An entry that has been extracted leaves all the others. -/
theorem entries_perm_erase
    {sessionCode : SessionCode}
    {sendersSessions : SendersSessions Session Metadata}
    {session : TimedClientSession Session Metadata}
    (found : sendersSessions.lookup sessionCode = some session) :
    sendersSessions.entries.Perm
      (⟨sessionCode, session⟩ ::
        (sendersSessions.erase sessionCode).entries) := by
  have present : sessionCode ∈ sendersSessions.entries.keys :=
    AList.lookup_isSome.1 (by rw [found]; rfl)
  obtain ⟨value, before, after, absent, split, erased⟩ :=
    List.exists_of_kerase present
  have same : value = session := by
    have member :=
      (List.mem_dlookup_iff sendersSessions.nodupKeys).2
        (show (⟨sessionCode, value⟩ : Sigma _) ∈ _ by rw [split]; simp)
    exact Option.some.inj (member.symm.trans found)
  subst same
  change List.Perm _ (_ :: List.kerase sessionCode _)
  rw [erased, split]
  exact List.perm_middle

theorem lookup_of_erase
    {sessionCode other : SessionCode}
    {sendersSessions : SendersSessions Session Metadata}
    {session : TimedClientSession Session Metadata}
    (found : (sendersSessions.erase sessionCode).lookup other =
      some session) :
    other ≠ sessionCode ∧ sendersSessions.lookup other = some session := by
  by_cases same : other = sessionCode
  · rw [same, AList.lookup_erase] at found
    cases found
  · rw [AList.lookup_erase_ne same] at found
    exact ⟨same, found⟩

/-- A sweep adds nothing. -/
theorem lookup_of_terminateTimeoutClients
    {clientTimeout : Int} {visits : List (SessionCode × Int)}
    {sendersSessions : SendersSessions Session Metadata}
    {sessionCode : SessionCode}
    {session : TimedClientSession Session Metadata}
    (found : (terminateTimeoutClients clientTimeout visits
      sendersSessions).lookup sessionCode = some session) :
    sendersSessions.lookup sessionCode = some session := by
  rw [terminateTimeoutClients] at found
  induction visits generalizing sendersSessions with
  | nil => exact found
  | cons visit rest inductionHypothesis =>
      have stays := inductionHypothesis found
      rw [examine] at stays
      cases entry : sendersSessions.lookup visit.1 with
      | none =>
          rw [entry] at stays
          exact stays
      | some oldest =>
          rw [entry] at stays
          dsimp only at stays
          split_ifs at stays
          · exact (lookup_of_erase stays).2
          · exact stays

/-- An entry stays as long as no sweep comes too late for it. -/
theorem lookup_terminateTimeoutClients_of_inTime
    {clientTimeout : Int} {visits : List (SessionCode × Int)}
    {sendersSessions : SendersSessions Session Metadata}
    {sessionCode : SessionCode}
    {session : TimedClientSession Session Metadata}
    (found : sendersSessions.lookup sessionCode = some session)
    (inTime : ∀ visit ∈ visits,
      visit.2 - session.timePoint ≤ clientTimeout) :
    (terminateTimeoutClients clientTimeout visits sendersSessions).lookup
      sessionCode = some session := by
  rw [terminateTimeoutClients]
  induction visits generalizing sendersSessions with
  | nil => exact found
  | cons visit rest inductionHypothesis =>
      rw [List.forall_mem_cons] at inTime
      apply inductionHypothesis _ inTime.2
      rw [examine]
      cases entry : sendersSessions.lookup visit.1 with
      | none => exact found
      | some oldest =>
          dsimp only
          split_ifs with late
          · have different : sessionCode ≠ visit.1 := by
              rintro rfl
              cases entry.symm.trans found
              exact absurd inTime.1 (Int.not_le.2 late)
            rw [AList.lookup_erase_ne different]
            exact found
          · exact found

end DropFile.Server.SessionsManager
