import DropFile.Server.SessionsManager
import Mathlib.Data.List.Range
import Mathlib.Data.List.Nodup

/-!
# Histories of the sessions table

The operations of the sessions manager interleave in any order, with any codes
and any clock readings.  The history numbers the registrations and keeps, next
to the table, who was handed out and who was evicted; then every registration
is accounted for exactly once.
-/

namespace DropFile.Server.SessionHistory

open DropFile.Streams
open DropFile.Server.SessionsManager

/-- A session with the number of its registration. -/
structure Ticket (Session : Type) where
  number : Nat
  session : Session

structure Registration (Session Metadata : Type) where
  session : Session
  metadata : Metadata
  code : SessionCode
  time : Int

/-- What `getSenderWithMetadata` has returned, and for which code. -/
structure HandOut (Session Metadata : Type) where
  ticket : Ticket Session
  metadata : Metadata
  presented : SessionCode

structure History (Session Metadata : Type) where
  sendersSessions : SendersSessions (Ticket Session) Metadata
  registered : List (Registration Session Metadata)
  handedOut : List (HandOut Session Metadata)
  evicted : List Nat

/-- The operations, each of which holds the mutex. -/
inductive Operation (Session Metadata : Type) where
  | tryRegister (sessionId : SessionCode) (now : Int) (sender : Session)
      (json : Metadata)
  | getSenderWithMetadata (sessionCode : SessionCode)
  | terminateTimeoutClients (visits : List (SessionCode × Int))

namespace History

variable {Session Metadata : Type}

def start : History Session Metadata :=
  ⟨∅, [], [], []⟩

/-- The next ticket. -/
def ticket (history : History Session Metadata) (sender : Session) :
    Ticket Session :=
  ⟨history.registered.length, sender⟩

/-- The history after one more entry was examined by a sweep. -/
def examined (clientTimeout : Int) (history : History Session Metadata)
    (visit : SessionCode × Int) : History Session Metadata :=
  { history with
    sendersSessions := examine clientTimeout history.sendersSessions visit
    evicted :=
      match history.sendersSessions.lookup visit.1 with
      | none => history.evicted
      | some session =>
          if visit.2 - session.timePoint > clientTimeout then
            history.evicted ++ [session.clientSession.number]
          else
            history.evicted }

/-- The history after an operation. -/
def after (clientTimeout : Int) (history : History Session Metadata) :
    Operation Session Metadata → History Session Metadata
  | .tryRegister sessionId now sender json =>
      match tryRegister sessionId now (history.ticket sender) json
          history.sendersSessions with
      | none => history
      | some later =>
          { history with
            sendersSessions := later
            registered :=
              history.registered ++ [⟨sender, json, sessionId, now⟩] }
  | .getSenderWithMetadata sessionCode =>
      match getSenderWithMetadata sessionCode history.sendersSessions with
      | .returned (ticket, metadata) later =>
          { history with
            sendersSessions := later
            handedOut :=
              history.handedOut ++ [⟨ticket, metadata, sessionCode⟩] }
      | _ => history
  | .terminateTimeoutClients visits =>
      visits.foldl (examined clientTimeout) history

/-- A sweep visits the entries that there are; the rest can always be done. -/
def Possible (history : History Session Metadata) :
    Operation Session Metadata → Prop
  | .terminateTimeoutClients visits =>
      VisitsAll visits history.sendersSessions
  | _ => True

/-- What the table and the history can come to from somewhere. -/
inductive Reaches (clientTimeout : Int)
    (earlier : History Session Metadata) :
    History Session Metadata → Prop where
  | here : Reaches clientTimeout earlier earlier
  | step {later : History Session Metadata}
      (reaches : Reaches clientTimeout earlier later)
      (operation : Operation Session Metadata)
      (possible : later.Possible operation) :
      Reaches clientTimeout earlier (later.after clientTimeout operation)

/-- The numbers of the registrations that are in the table. -/
def liveNumbers (history : History Session Metadata) : List Nat :=
  history.sendersSessions.entries.map fun entry =>
    entry.2.clientSession.number

/-- A registration is in the table under a code. -/
def LiveUnder (history : History Session Metadata) (number : Nat)
    (code : SessionCode) : Prop :=
  ∃ session, history.sendersSessions.lookup code = some session ∧
    session.clientSession.number = number

def handedOutNumbers (history : History Session Metadata) : List Nat :=
  history.handedOut.map fun handOut => handOut.ticket.number

/--
Everything in the table and everything handed out is as it was registered, and
every registration is in one place, once.
-/
structure Accounted (history : History Session Metadata) : Prop where
  live : ∀ code session,
    history.sendersSessions.lookup code = some session →
    history.registered[session.clientSession.number]? =
      some ⟨session.clientSession.session, session.sessionData, code,
        session.timePoint⟩
  handedOut : ∀ handOut ∈ history.handedOut, ∃ time,
    history.registered[handOut.ticket.number]? =
      some ⟨handOut.ticket.session, handOut.metadata, handOut.presented,
        time⟩
  once :
    (history.liveNumbers ++ (history.handedOutNumbers ++ history.evicted)).Perm
      (List.range history.registered.length)

theorem accounted_start :
    (start : History Session Metadata).Accounted where
  live code session found := by cases found
  handedOut handOut member := by cases member
  once := List.Perm.refl _

/-- A registration keeps its place in a longer list. -/
theorem registered_append
    {registered : List (Registration Session Metadata)}
    {number : Nat} {registration : Registration Session Metadata}
    (new : Registration Session Metadata)
    (found : registered[number]? = some registration) :
    (registered ++ [new])[number]? = some registration := by
  rw [List.getElem?_append_left (List.getElem?_eq_some_iff.1 found).1,
    found]

theorem Accounted.tryRegister
    {history : History Session Metadata}
    (accounted : history.Accounted)
    (clientTimeout : Int) (sessionId : SessionCode) (now : Int)
    (sender : Session) (json : Metadata) :
    (history.after clientTimeout
      (.tryRegister sessionId now sender json)).Accounted := by
  rw [after, SessionsManager.tryRegister]
  by_cases used : sessionId ∈ history.sendersSessions
  · rw [if_pos used]
    exact accounted
  · rw [if_neg used]
    refine ⟨?_, ?_, ?_⟩
    · intro code session found
      by_cases same : code = sessionId
      · subst same
        rw [AList.lookup_insert] at found
        cases found
        exact List.getElem?_concat_length
      · rw [AList.lookup_insert_ne same] at found
        exact registered_append _ (accounted.live code session found)
    · intro handOut member
      obtain ⟨time, found⟩ := accounted.handedOut handOut member
      exact ⟨time, registered_append _ found⟩
    · simp only [liveNumbers, AList.entries_insert_of_notMem used,
        List.map_cons, List.length_append, List.length_singleton,
        List.range_succ, List.cons_append]
      exact (accounted.once.cons _).trans
        (List.perm_append_singleton _ _).symm

/-- What leaves the table goes to another place. -/
theorem liveNumbers_perm_erase
    {history : History Session Metadata} {code : SessionCode}
    {session : TimedClientSession (Ticket Session) Metadata}
    (found : history.sendersSessions.lookup code = some session) :
    history.liveNumbers.Perm
      (session.clientSession.number ::
        (history.sendersSessions.erase code).entries.map fun entry =>
          entry.2.clientSession.number) :=
  (entries_perm_erase found).map _

theorem lookup_of_erase
    {sendersSessions : SendersSessions (Ticket Session) Metadata}
    {code other : SessionCode}
    {session : TimedClientSession (Ticket Session) Metadata}
    (found : (sendersSessions.erase code).lookup other = some session) :
    sendersSessions.lookup other = some session := by
  by_cases same : other = code
  · rw [same, AList.lookup_erase] at found
    cases found
  · rwa [AList.lookup_erase_ne same] at found

theorem Accounted.getSenderWithMetadata
    {history : History Session Metadata}
    (accounted : history.Accounted)
    (clientTimeout : Int) (sessionCode : SessionCode) :
    (history.after clientTimeout
      (.getSenderWithMetadata sessionCode)).Accounted := by
  rw [after]
  cases found : history.sendersSessions.lookup sessionCode with
  | none =>
      rw [getSenderWithMetadata_of_unknown found]
      exact accounted
  | some session =>
      rw [getSenderWithMetadata_of_lookup found]
      refine ⟨fun code other isOther =>
        accounted.live code other (lookup_of_erase isOther), ?_, ?_⟩
      · intro handOut member
        rcases List.mem_append.1 member with earlier | new
        · exact accounted.handedOut handOut earlier
        · obtain rfl := List.mem_singleton.1 new
          exact ⟨_, accounted.live sessionCode session found⟩
      · refine List.Perm.trans ?_ accounted.once
        refine List.Perm.trans ?_
          ((liveNumbers_perm_erase found).append_right _).symm
        simp only [liveNumbers, handedOutNumbers, List.map_append,
          List.map_singleton, List.append_assoc, List.cons_append,
          List.nil_append]
        rw [← List.append_assoc, ← List.append_assoc]
        exact List.perm_middle

theorem Accounted.examined
    {history : History Session Metadata}
    (accounted : history.Accounted)
    (clientTimeout : Int) (visit : SessionCode × Int) :
    (history.examined clientTimeout visit).Accounted := by
  rw [History.examined, examine]
  cases found : history.sendersSessions.lookup visit.1 with
  | none => exact accounted
  | some session =>
      by_cases old : visit.2 - session.timePoint > clientTimeout
      · simp only [if_pos old]
        refine ⟨fun code other isOther =>
          accounted.live code other (lookup_of_erase isOther),
          accounted.handedOut, ?_⟩
        refine List.Perm.trans ?_ accounted.once
        refine List.Perm.trans ?_
          ((liveNumbers_perm_erase found).append_right _).symm
        simp only [liveNumbers, handedOutNumbers, List.cons_append]
        rw [← List.append_assoc, ← List.append_assoc]
        exact (List.perm_append_singleton _ _).trans
          (by rw [List.append_assoc])
      · simp only [if_neg old]
        exact accounted

/-- Every operation keeps the accounts. -/
theorem Accounted.after
    {history : History Session Metadata}
    (accounted : history.Accounted)
    (clientTimeout : Int) (operation : Operation Session Metadata) :
    (history.after clientTimeout operation).Accounted := by
  cases operation with
  | tryRegister sessionId now sender json =>
      exact accounted.tryRegister clientTimeout sessionId now sender json
  | getSenderWithMetadata sessionCode =>
      exact accounted.getSenderWithMetadata clientTimeout sessionCode
  | terminateTimeoutClients visits =>
      rw [History.after]
      induction visits generalizing history with
      | nil => exact accounted
      | cons visit rest inductionHypothesis =>
          exact inductionHypothesis (accounted.examined clientTimeout visit)

theorem Reaches.accounted
    {clientTimeout : Int} {earlier history : History Session Metadata}
    (reaches : Reaches clientTimeout earlier history)
    (accounted : earlier.Accounted) :
    history.Accounted := by
  induction reaches with
  | here => exact accounted
  | step _ operation _ inductionHypothesis =>
      exact inductionHypothesis.after clientTimeout operation

/-! ## One operation -/

/-- An attempt to register leaves every session in its place. -/
theorem lookup_tryRegister
    (history : History Session Metadata) (clientTimeout : Int)
    (sessionId : SessionCode) (now : Int) (sender : Session)
    (json : Metadata)
    {code : SessionCode}
    {session : TimedClientSession (Ticket Session) Metadata}
    (found : history.sendersSessions.lookup code = some session) :
    (history.after clientTimeout
      (.tryRegister sessionId now sender json)).sendersSessions.lookup code =
        some session := by
  rw [after, SessionsManager.tryRegister]
  by_cases used : sessionId ∈ history.sendersSessions
  · rw [if_pos used]
    exact found
  · have different : code ≠ sessionId := by
      rintro rfl
      exact used (AList.lookup_isSome.1 (by rw [found]; rfl))
    rw [if_neg used]
    exact (AList.lookup_insert_ne different).trans found

/-- A visit by a sweep at which a session is too old. -/
def Overdue (clientTimeout : Int) (code : SessionCode)
    (session : TimedClientSession (Ticket Session) Metadata)
    (visit : SessionCode × Int) : Prop :=
  visit.1 = code ∧ visit.2 - session.timePoint > clientTimeout

instance (clientTimeout : Int) (code : SessionCode)
    (session : TimedClientSession (Ticket Session) Metadata)
    (visit : SessionCode × Int) :
    Decidable (Overdue clientTimeout code session visit) :=
  inferInstanceAs (Decidable (_ ∧ _))

theorem lookup_examined
    {history : History Session Metadata} (clientTimeout : Int)
    (visit : SessionCode × Int) {code : SessionCode}
    {session : TimedClientSession (Ticket Session) Metadata}
    (found : history.sendersSessions.lookup code = some session) :
    (history.examined clientTimeout visit).sendersSessions.lookup code =
      if Overdue clientTimeout code session visit then none
      else some session := by
  obtain ⟨visited, now⟩ := visit
  by_cases same : visited = code
  · subst same
    simp only [History.examined, examine, Overdue, found, true_and]
    split_ifs
    · exact AList.lookup_erase visited _
    · exact found
  · rw [if_neg fun overdue => same overdue.1, History.examined, examine]
    cases other : history.sendersSessions.lookup visited with
    | none => exact found
    | some examinedSession =>
        simp only
        split_ifs
        · exact (AList.lookup_erase_ne (Ne.symm same)).trans found
        · exact found

/-- A sweep does not add anything. -/
theorem lookup_examined_none
    {history : History Session Metadata} (clientTimeout : Int)
    (visit : SessionCode × Int) {code : SessionCode}
    (free : history.sendersSessions.lookup code = none) :
    (history.examined clientTimeout visit).sendersSessions.lookup code =
      none := by
  cases found : (history.examined clientTimeout
      visit).sendersSessions.lookup code with
  | none => rfl
  | some session =>
      rw [History.examined, examine] at found
      have before : history.sendersSessions.lookup code = some session := by
        cases other : history.sendersSessions.lookup visit.1 with
        | none => simpa only [other] using found
        | some examinedSession =>
            simp only [other] at found
            split_ifs at found
            · exact lookup_of_erase found
            · exact found
      rw [free] at before
      cases before

theorem lookup_sweep_none
    {history : History Session Metadata} (clientTimeout : Int)
    (visits : List (SessionCode × Int)) {code : SessionCode}
    (free : history.sendersSessions.lookup code = none) :
    (history.after clientTimeout
      (.terminateTimeoutClients visits)).sendersSessions.lookup code =
        none := by
  rw [after]
  induction visits generalizing history with
  | nil => exact free
  | cons visit rest inductionHypothesis =>
      exact inductionHypothesis
        (lookup_examined_none clientTimeout visit free)

theorem lookup_sweep
    {history : History Session Metadata} (clientTimeout : Int)
    (visits : List (SessionCode × Int)) {code : SessionCode}
    {session : TimedClientSession (Ticket Session) Metadata}
    (found : history.sendersSessions.lookup code = some session) :
    (history.after clientTimeout
      (.terminateTimeoutClients visits)).sendersSessions.lookup code =
        if ∃ visit ∈ visits, Overdue clientTimeout code session visit
        then none
        else some session := by
  rw [after]
  induction visits generalizing history with
  | nil => simpa using found
  | cons visit rest inductionHypothesis =>
      have first := lookup_examined clientTimeout visit found
      by_cases overdue : Overdue clientTimeout code session visit
      · rw [if_pos ⟨visit, List.mem_cons_self, overdue⟩]
        rw [if_pos overdue] at first
        exact lookup_sweep_none clientTimeout rest first
      · rw [if_neg overdue] at first
        refine (inductionHypothesis first).trans ?_
        simp only [List.exists_mem_cons_iff, overdue, false_or]

/-- A sweep examines every session once, and removes it if it is too old. -/
theorem sweep_exact
    {history : History Session Metadata} (clientTimeout : Int)
    {visits : List (SessionCode × Int)}
    (possible : VisitsAll visits history.sendersSessions)
    {code : SessionCode}
    {session : TimedClientSession (Ticket Session) Metadata}
    (found : history.sendersSessions.lookup code = some session) :
    ∃ now, (∀ other, (code, other) ∈ visits ↔ other = now) ∧
      (history.after clientTimeout
        (.terminateTimeoutClients visits)).sendersSessions.lookup code =
          if now - session.timePoint > clientTimeout then none
          else some session := by
  have visited : code ∈ visits.map Prod.fst :=
    possible.mem_iff.2 (AList.lookup_isSome.1 (by rw [found]; rfl))
  have distinct : (visits.map Prod.fst).Nodup :=
    possible.nodup_iff.2 history.sendersSessions.keys_nodup
  obtain ⟨⟨visitedCode, now⟩, member, same⟩ := List.mem_map.1 visited
  obtain rfl : visitedCode = code := same
  have only : ∀ other, (visitedCode, other) ∈ visits ↔ other = now := by
    intro other
    refine ⟨fun also => ?_, fun same => same ▸ member⟩
    have same := List.inj_on_of_nodup_map distinct also member rfl
    exact congrArg Prod.snd same
  refine ⟨now, only, (lookup_sweep clientTimeout visits found).trans ?_⟩
  refine if_congr ?_ rfl rfl
  constructor
  · rintro ⟨⟨_, other⟩, also, rfl, old⟩
    rwa [(only other).1 also] at old
  · intro old
    exact ⟨(visitedCode, now), member, rfl, old⟩

theorem handedOut_sweep
    (history : History Session Metadata) (clientTimeout : Int)
    (visits : List (SessionCode × Int)) :
    (history.after clientTimeout
      (.terminateTimeoutClients visits)).handedOut =
        history.handedOut := by
  rw [after]
  induction visits generalizing history with
  | nil => rfl
  | cons visit rest inductionHypothesis =>
      exact inductionHypothesis (history.examined clientTimeout visit)

/-- What was handed out stays on record. -/
theorem Reaches.handedOut_prefix
    {clientTimeout : Int} {earlier history : History Session Metadata}
    (reaches : Reaches clientTimeout earlier history) :
    earlier.handedOut <+: history.handedOut := by
  induction reaches with
  | here => exact List.prefix_rfl
  | @step later _ operation _ inductionHypothesis =>
      refine inductionHypothesis.trans ?_
      cases operation with
      | tryRegister sessionId now sender json =>
          rw [after, SessionsManager.tryRegister]
          split_ifs <;> exact List.prefix_rfl
      | getSenderWithMetadata sessionCode =>
          rw [after]
          cases found : later.sendersSessions.lookup sessionCode with
          | none =>
              simp only [getSenderWithMetadata_of_unknown found,
                List.prefix_rfl]
          | some session =>
              rw [getSenderWithMetadata_of_lookup found]
              exact List.prefix_append _ _
      | terminateTimeoutClients visits =>
          simp only [handedOut_sweep, List.prefix_rfl]

/-! ## The laws of the table -/

/-- What the operations promise in a history. -/
structure Lawful (clientTimeout : Int)
    (history : History Session Metadata) : Prop where
  /-- A registration is live under one code, handed out, or evicted. -/
  one_state : ∀ number, number < history.registered.length →
    ((∃! code, history.LiveUnder number code) ∧
      number ∉ history.handedOutNumbers ∧ number ∉ history.evicted) ∨
    ((∀ code, ¬ history.LiveUnder number code) ∧
      number ∈ history.handedOutNumbers ∧ number ∉ history.evicted) ∨
    ((∀ code, ¬ history.LiveUnder number code) ∧
      number ∉ history.handedOutNumbers ∧ number ∈ history.evicted)
  handed_out_once : history.handedOutNumbers.Nodup
  /-- A session is handed out with its metadata and for its code. -/
  handed_out_own : ∀ handOut ∈ history.handedOut, ∃ time,
    history.registered[handOut.ticket.number]? =
      some ⟨handOut.ticket.session, handOut.metadata, handOut.presented,
        time⟩
  never_evicted_later : ∀ later, Reaches clientTimeout history later →
    ∀ number ∈ history.handedOutNumbers, number ∉ later.evicted
  never_replaced : ∀ sessionId now sender json code session,
    history.sendersSessions.lookup code = some session →
    (history.after clientTimeout
      (.tryRegister sessionId now sender json)).sendersSessions.lookup
        code = some session
  sweep_exact : ∀ visits, VisitsAll visits history.sendersSessions →
    ∀ code,
      (∀ session, history.sendersSessions.lookup code = some session →
        ∃ now, (∀ other, (code, other) ∈ visits ↔ other = now) ∧
          (history.after clientTimeout
            (.terminateTimeoutClients visits)).sendersSessions.lookup
              code =
            if now - session.timePoint > clientTimeout then none
            else some session) ∧
      (history.sendersSessions.lookup code = none →
        (history.after clientTimeout
          (.terminateTimeoutClients visits)).sendersSessions.lookup
            code = none)
  count :
    currentSessions history.sendersSessions =
      history.registered.length - history.handedOut.length -
        history.evicted.length

theorem liveUnder_iff
    (history : History Session Metadata) (number : Nat) :
    (∃ code, history.LiveUnder number code) ↔
      number ∈ history.liveNumbers := by
  constructor
  · rintro ⟨code, session, found, rfl⟩
    exact List.mem_map.2 ⟨⟨code, session⟩,
      AList.mem_lookup_iff.1 found, rfl⟩
  · intro member
    obtain ⟨⟨code, session⟩, entry, rfl⟩ := List.mem_map.1 member
    exact ⟨code, session, AList.mem_lookup_iff.2 entry, rfl⟩

/-- A live registration has its own code only. -/
theorem Accounted.code_unique
    {history : History Session Metadata}
    (accounted : history.Accounted)
    {number : Nat} {code other : SessionCode}
    (live : history.LiveUnder number code)
    (alsoLive : history.LiveUnder number other) :
    other = code := by
  obtain ⟨session, found, rfl⟩ := live
  obtain ⟨otherSession, otherFound, same⟩ := alsoLive
  have registered := accounted.live code session found
  have otherRegistered := accounted.live other otherSession otherFound
  rw [same, registered, Option.some_inj] at otherRegistered
  exact (congrArg Registration.code otherRegistered).symm

theorem Accounted.one_state
    {history : History Session Metadata}
    (accounted : history.Accounted)
    {number : Nat}
    (registered : number < history.registered.length) :
    ((∃! code, history.LiveUnder number code) ∧
      number ∉ history.handedOutNumbers ∧ number ∉ history.evicted) ∨
    ((∀ code, ¬ history.LiveUnder number code) ∧
      number ∈ history.handedOutNumbers ∧ number ∉ history.evicted) ∨
    ((∀ code, ¬ history.LiveUnder number code) ∧
      number ∉ history.handedOutNumbers ∧ number ∈ history.evicted) := by
  have member :=
    accounted.once.mem_iff.2 (List.mem_range.2 registered)
  have distinct := accounted.once.nodup_iff.2 List.nodup_range
  rw [List.nodup_append', List.nodup_append'] at distinct
  obtain ⟨-, ⟨-, -, handedOrEvicted⟩, liveOrGone⟩ := distinct
  rw [List.mem_append, List.mem_append] at member
  have notLive : number ∉ history.liveNumbers →
      ∀ code, ¬ history.LiveUnder number code :=
    fun gone code live => gone
      ((liveUnder_iff history number).1 ⟨code, live⟩)
  rcases member with live | handed | evicted
  · left
    obtain ⟨code, isLive⟩ := (liveUnder_iff history number).2 live
    refine ⟨⟨code, isLive, fun other also =>
      accounted.code_unique isLive also⟩, ?_, ?_⟩
    · exact fun handed => liveOrGone live (List.mem_append_left _ handed)
    · exact fun gone => liveOrGone live (List.mem_append_right _ gone)
  · right; left
    refine ⟨notLive fun live => liveOrGone live ?_, handed,
      handedOrEvicted handed⟩
    exact List.mem_append_left _ handed
  · right; right
    refine ⟨notLive fun live => liveOrGone live ?_,
      fun handed => handedOrEvicted handed evicted, evicted⟩
    exact List.mem_append_right _ evicted

/-- A session that was handed out is in no other place. -/
theorem Accounted.not_evicted
    {history : History Session Metadata}
    (accounted : history.Accounted)
    {number : Nat}
    (handed : number ∈ history.handedOutNumbers) :
    number ∉ history.evicted := by
  have distinct := accounted.once.nodup_iff.2 List.nodup_range
  rw [List.nodup_append', List.nodup_append'] at distinct
  exact distinct.2.1.2.2 handed

theorem Accounted.count
    {history : History Session Metadata}
    (accounted : history.Accounted) :
    currentSessions history.sendersSessions =
      history.registered.length - history.handedOut.length -
        history.evicted.length := by
  have total := accounted.once.length_eq
  simp only [liveNumbers, handedOutNumbers, List.length_append,
    List.length_map, List.length_range] at total
  rw [currentSessions]
  omega

/-- In every history that can come about the laws of the table hold. -/
theorem reaches_lawful
    (clientTimeout : Int) (history : History Session Metadata)
    (reaches : Reaches clientTimeout start history) :
    Lawful clientTimeout history := by
  have accounted := reaches.accounted accounted_start
  refine
    { one_state := fun number registered =>
        accounted.one_state registered
      handed_out_once := ?_
      handed_out_own := accounted.handedOut
      never_evicted_later := ?_
      never_replaced := fun sessionId now sender json code session =>
        lookup_tryRegister history clientTimeout sessionId now sender json
      sweep_exact := fun visits possible code =>
        ⟨fun session found =>
            sweep_exact clientTimeout possible found,
          lookup_sweep_none clientTimeout visits⟩
      count := accounted.count }
  · have distinct := accounted.once.nodup_iff.2 List.nodup_range
    rw [List.nodup_append', List.nodup_append'] at distinct
    exact distinct.2.1.1
  · intro later further number handed
    refine (further.accounted accounted).not_evicted ?_
    exact (further.handedOut_prefix.map _).subset handed

/-- A sender registers and is handed out. -/
theorem reaches_lawful_handOut :
    Lawful 120
      (((start : History Unit Nat).after 120
        (.tryRegister (ascii "calm-cat-7") 0 () 5)).after 120
          (.getSenderWithMetadata (ascii "calm-cat-7"))) :=
  reaches_lawful 120 _
    ((Reaches.here.step (.tryRegister (ascii "calm-cat-7") 0 () 5)
      trivial).step (.getSenderWithMetadata (ascii "calm-cat-7")) trivial)

end History

end DropFile.Server.SessionHistory
