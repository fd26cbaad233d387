import DropFile.General.Dialogues
import DropFile.Server.EventLoopSafety
import Mathlib.Data.Finset.Prod
import Mathlib.Data.Finset.Card

/-!
# The codes of the sessions

`SessionsManager` takes its words from a JSON value when it is constructed, and
draws a code from them for every sender.  What the constructor accepts makes
codes that are valid text, whatever is drawn.

The codes are finite in number, and `registerSender` draws until it has one
that is not in use.  It returns exactly when there is one.
-/

namespace DropFile.Server.SessionCodes

open DropFile.General.FuelledProgram
open DropFile.General.Processes.Process
open DropFile.General.Dialogues
open DropFile.General.Utf8
open DropFile.Streams
open DropFile.Socket
open DropFile.JsonObjects
open DropFile.Server.SessionsManager
open DropFile.Server.ServerSideClientSession
open DropFile.Server.FirstRead
open DropFile.Server.Transfers
open DropFile.Server.EventLoop

/-! ## `JsonWords` -/

/-- A `std::runtime_error`: what `what()` returns. -/
structure RuntimeError where
  what : Bytes
deriving DecidableEq, Repr

/-- `isspace`. -/
def isSpace (byte : UInt8) : Bool :=
  byte = 32 || (9 ≤ byte && byte ≤ 13)

def notStrings (key : Bytes) : RuntimeError :=
  ⟨ascii "Json's '" ++ key ++
    ascii "' key is expected to be an array of strings."⟩

/-- One pass of the loop of `extractWords`. -/
def extractWord (key : Bytes) : Json → Except RuntimeError Bytes
  | .string word =>
      if word.isEmpty then
        .error ⟨ascii "Any word cannot be empty."⟩
      else if word.any isSpace then
        .error ⟨ascii "Word cannot contain any whitespace."⟩
      else
        .ok word
  | _ => .error (notStrings key)

/-- The words of the elements, in their order. -/
def extractEach (key : Bytes) : List Json → Except RuntimeError (List Bytes)
  | [] => .ok []
  | element :: rest => do
      let word ← extractWord key element
      let words ← extractEach key rest
      pure (word :: words)

def extractWords (json : Json) (key : Bytes) :
    Except RuntimeError (List Bytes) :=
  match json.find key with
  | none =>
      .error ⟨ascii "Words json does not contain '" ++ key ++
        ascii "' key."⟩
  | some (.array elements) => do
      let words ← extractEach key elements
      if words.isEmpty then
        .error ⟨ascii "String list of " ++ key ++ ascii " cannot be empty."⟩
      else
        pure words
  | some _ => .error (notStrings key)

/-- What is accepted as a word. -/
structure IsWord (word : Bytes) : Prop where
  notEmpty : word ≠ []
  noSpace : ∀ byte ∈ word, isSpace byte = false

theorem extractWord_ok_iff
    {key word : Bytes} {element : Json} :
    extractWord key element = .ok word ↔
      element = .string word ∧ IsWord word := by
  constructor
  · intro extracted
    cases element with
    | string text =>
        rw [extractWord] at extracted
        split_ifs at extracted with empty spaces
        cases extracted
        refine ⟨rfl, ?_, ?_⟩
        · simpa using empty
        · simpa using spaces
    | _ => cases extracted
  · rintro ⟨rfl, notEmpty, noSpace⟩
    have anySpace : word.any isSpace = false := by
      simpa using noSpace
    simp [extractWord, notEmpty, anySpace]

theorem extractEach_ok_iff
    {key : Bytes} {elements : List Json} {words : List Bytes} :
    extractEach key elements = .ok words ↔
      elements = words.map .string ∧ ∀ word ∈ words, IsWord word := by
  induction elements generalizing words with
  | nil =>
      constructor
      · rintro ⟨⟩
        simp
      · rintro ⟨same, -⟩
        rw [List.map_eq_nil_iff.1 same.symm]
        rfl
  | cons element rest inductionHypothesis =>
      constructor
      · intro extracted
        rcases ok_of_bind extracted with ⟨word, isWord, others⟩
        rcases ok_of_bind others with ⟨after, areWords, ⟨⟩⟩
        rw [extractWord_ok_iff] at isWord
        rw [inductionHypothesis] at areWords
        rw [isWord.1, areWords.1, List.forall_mem_cons]
        exact ⟨rfl, isWord.2, areWords.2⟩
      · rintro ⟨same, areWords⟩
        cases words with
        | nil => cases same
        | cons word after =>
            rw [List.map_cons, List.cons.injEq] at same
            rw [List.forall_mem_cons] at areWords
            rw [extractEach, extractWord_ok_iff.2 ⟨same.1, areWords.1⟩,
              inductionHypothesis.2 ⟨same.2, areWords.2⟩]
            rfl

theorem extractWords_ok_iff
    {json : Json} {key : Bytes} {words : List Bytes} :
    extractWords json key = .ok words ↔
      json.find key = some (.array (words.map .string)) ∧ words ≠ [] ∧
        ∀ word ∈ words, IsWord word := by
  constructor
  · intro extracted
    rw [extractWords] at extracted
    split at extracted
    · cases extracted
    · rename_i elements found
      rcases ok_of_bind extracted with ⟨others, areWords, checked⟩
      split_ifs at checked with empty
      cases checked
      rw [extractEach_ok_iff] at areWords
      rw [found, areWords.1]
      exact ⟨rfl, by simpa using empty, areWords.2⟩
    · cases extracted
  · rintro ⟨found, notEmpty, areWords⟩
    rw [extractWords, found]
    simp only
    rw [extractEach_ok_iff.2 ⟨rfl, areWords⟩]
    simp [notEmpty, bind, Except.bind, pure, Except.pure]

/-! ## The constructor -/

/-- `nouns` and `adjectives`. -/
structure Words where
  nouns : List Bytes
  adjectives : List Bytes

/-- `SessionsManager::SessionsManager`. -/
def construct (json : Json) : Except RuntimeError Words := do
  let nouns ← extractWords json (ascii "nouns")
  let adjectives ← extractWords json (ascii "adjectives")
  pure ⟨nouns, adjectives⟩

section Constructed

variable {json : Json} {words : Words}

theorem extracts_of_constructed
    (constructed : construct json = .ok words) :
    extractWords json (ascii "nouns") = .ok words.nouns ∧
      extractWords json (ascii "adjectives") = .ok words.adjectives := by
  rcases ok_of_bind constructed with ⟨nouns, isNouns, rest⟩
  rcases ok_of_bind rest with ⟨adjectives, isAdjectives, ⟨⟩⟩
  exact ⟨isNouns, isAdjectives⟩

/-- The words of a value that was parsed are valid text. -/
theorem utf8_of_extracted
    {key word : Bytes} {extracted : List Bytes}
    (utf8 : json.Utf8)
    (extracts : extractWords json key = .ok extracted)
    (isWord : word ∈ extracted) :
    IsUtf8 word := by
  have found := (extractWords_ok_iff.1 extracts).1
  cases utf8 with
  | object _ areUtf8 =>
      rcases List.lookup_eq_some_iff.1 found with ⟨before, after, split, -⟩
      have arrayUtf8 := areUtf8 (key, .array (extracted.map .string))
        (by rw [split]; simp)
      cases arrayUtf8 with
      | array eachUtf8 =>
          cases eachUtf8 _ (List.mem_map_of_mem isWord) with
          | string wordUtf8 => exact wordUtf8
  | _ => cases found

end Constructed

/-! ## The codes that are drawn -/

/-- `pickRandom`, with the index that `getRandom` returns. -/
def pickRandom (elements : List Bytes) (index : Fin elements.length) :
    Bytes :=
  elements.get index

/-- What `getRandom` returns for the parts of a code. -/
structure Draw (words : Words) where
  adjective : Fin words.adjectives.length
  noun : Fin words.nouns.length
  number : Fin 101

/-- `SessionsManager::generateSessionID`. -/
def generateSessionID (words : Words) (draw : Draw words) : SessionCode :=
  sessionID (pickRandom words.adjectives draw.adjective)
    (pickRandom words.nouns draw.noun) draw.number

/-- A server that was constructed with the words. -/
structure Draws (library : JsonLibrary) (words : Words)
    (settings : Settings) : Prop where
  library : settings.library = library
  drawn : ∀ attempt, ∃ draw,
    settings.generateSessionID attempt = generateSessionID words draw

/-- Whatever is drawn, a code is valid text. -/
theorem drawsCodes_of_constructed
    {library : JsonLibrary} {json : Json} {words : Words}
    {settings : Settings}
    (utf8 : json.Utf8)
    (constructed : construct json = .ok words)
    (draws : Draws library words settings) :
    DrawsCodes settings := by
  intro attempt
  rcases extracts_of_constructed constructed with ⟨nouns, adjectives⟩
  rcases draws.drawn attempt with ⟨draw, drawn⟩
  refine ⟨pickRandom words.adjectives draw.adjective,
    pickRandom words.nouns draw.noun, draw.number, ?_, ?_, ?_, drawn⟩
  · exact utf8_of_extracted utf8 adjectives (List.get_mem _ _)
  · exact utf8_of_extracted utf8 nouns (List.get_mem _ _)
  · exact Nat.le_of_lt_succ draw.number.isLt

/-! ## How many there are -/

/-- All codes of the words. -/
def codes (words : Words) : Finset SessionCode :=
  (words.adjectives.toFinset ×ˢ words.nouns.toFinset ×ˢ
    Finset.range 101).image
      fun parts => sessionID parts.1 parts.2.1 parts.2.2

/-- As many as there are different words and numbers to choose from. -/
def capacity (words : Words) : Nat :=
  words.adjectives.toFinset.card * (words.nouns.toFinset.card * 101)

theorem mem_codes_iff
    {words : Words} {code : SessionCode} :
    code ∈ codes words ↔ ∃ draw, generateSessionID words draw = code := by
  constructor
  · intro isCode
    rw [codes, Finset.mem_image] at isCode
    rcases isCode with ⟨⟨adjective, noun, number⟩, areParts, rfl⟩
    simp only [Finset.mem_product, List.mem_toFinset, Finset.mem_range]
      at areParts
    rcases List.mem_iff_get.1 areParts.1 with ⟨first, rfl⟩
    rcases List.mem_iff_get.1 areParts.2.1 with ⟨second, rfl⟩
    exact ⟨⟨first, second, number, areParts.2.2⟩, rfl⟩
  · rintro ⟨draw, rfl⟩
    apply Finset.mem_image.2
    refine ⟨⟨_, _, draw.number⟩, ?_, rfl⟩
    simp

theorem card_codes_le (words : Words) :
    (codes words).card ≤ capacity words := by
  apply Finset.card_image_le.trans
  rw [Finset.card_product, Finset.card_product, Finset.card_range]
  exact Nat.le_refl _

/-- The value of the decimal digits. -/
def readNumber (digits : Bytes) : Nat :=
  digits.foldl (fun number digit => 10 * number + (digit.toNat - 48)) 0

theorem readNumber_toString :
    ∀ number < 101, readNumber (ascii (toString number)) = number := by
  decide +kernel

/-- The separator of the parts. -/
def dash : UInt8 := 45

theorem dash_notMem_number :
    ∀ number < 101, dash ∉ ascii (toString number) := by
  decide +kernel

/-- What is behind the last separator, and what is before it. -/
theorem eq_of_last_separator
    {α : Type} {before otherBefore after otherAfter : List α}
    {separator : α}
    (notInAfter : separator ∉ after)
    (notInOther : separator ∉ otherAfter)
    (same : before ++ separator :: after =
      otherBefore ++ separator :: otherAfter) :
    before = otherBefore ∧ after = otherAfter := by
  rcases List.append_eq_append_iff.1 same with
    ⟨between, rfl, split⟩ | ⟨between, rfl, split⟩
  · cases between with
    | nil => exact ⟨(List.append_nil _).symm, (List.cons.inj split).2⟩
    | cons byte rest =>
        rw [List.cons_append, List.cons.injEq] at split
        exact absurd (split.2 ▸ by simp) notInAfter
  · cases between with
    | nil => exact ⟨List.append_nil _, (List.cons.inj split).2.symm⟩
    | cons byte rest =>
        rw [List.cons_append, List.cons.injEq] at split
        exact absurd (split.2 ▸ by simp) notInOther

theorem sessionID_eq (adjective noun : Bytes) (number : Nat) :
    sessionID adjective noun number =
      (adjective ++ dash :: noun) ++ dash :: ascii (toString number) := by
  have dashes : ascii "-" = [dash] := rfl
  simp [sessionID, dashes]

/-- A code tells its parts where no noun has a separator in it. -/
theorem sessionID_injective
    {adjective otherAdjective noun otherNoun : Bytes}
    {number otherNumber : Nat}
    (inNoun : dash ∉ noun)
    (inOther : dash ∉ otherNoun)
    (isNumber : number < 101)
    (isOther : otherNumber < 101)
    (same : sessionID adjective noun number =
      sessionID otherAdjective otherNoun otherNumber) :
    adjective = otherAdjective ∧ noun = otherNoun ∧
      number = otherNumber := by
  rw [sessionID_eq, sessionID_eq] at same
  rcases eq_of_last_separator (dash_notMem_number number isNumber)
    (dash_notMem_number otherNumber isOther) same with ⟨words, digits⟩
  rcases eq_of_last_separator inNoun inOther words with
    ⟨sameAdjective, sameNoun⟩
  refine ⟨sameAdjective, sameNoun, ?_⟩
  calc
    number = readNumber (ascii (toString number)) :=
      (readNumber_toString number isNumber).symm
    _ = readNumber (ascii (toString otherNumber)) := by
      rw [digits]
    _ = otherNumber := readNumber_toString otherNumber isOther

theorem card_codes
    {words : Words}
    (noDash : ∀ noun ∈ words.nouns, dash ∉ noun) :
    (codes words).card = capacity words := by
  rw [codes, Finset.card_image_of_injOn]
  · rw [Finset.card_product, Finset.card_product, Finset.card_range]
    rfl
  · rintro ⟨adjective, noun, number⟩ isIn
      ⟨otherAdjective, otherNoun, otherNumber⟩ isOther same
    simp only [Finset.coe_product, Set.mem_prod, Finset.mem_coe,
      List.mem_toFinset, Finset.mem_range] at isIn isOther
    rcases sessionID_injective (noDash noun isIn.2.1)
      (noDash otherNoun isOther.2.1) isIn.2.2 isOther.2.2 same with
      ⟨rfl, rfl, rfl⟩
    rfl

/-! ## A code for every sender -/

section Room

variable {Session Metadata : Type}
variable {table : SendersSessions Session Metadata} {words : Words}

/-- The codes in use, each of which is in use once. -/
theorem card_keys (table : SendersSessions Session Metadata) :
    table.keys.toFinset.card = currentSessions table := by
  rw [List.toFinset_card_of_nodup table.keys_nodup, currentSessions,
    AList.keys, List.keys, List.length_map]

theorem keys_subset
    (drawn : ∀ code ∈ table, code ∈ codes words) :
    table.keys.toFinset ⊆ codes words := by
  intro code isKey
  exact drawn code (List.mem_toFinset.1 isKey)

/-- There is room for a code exactly while there is one that is not in use. -/
theorem exists_free_iff
    (drawn : ∀ code ∈ table, code ∈ codes words) :
    (∃ code ∈ codes words, code ∉ table) ↔
      currentSessions table < (codes words).card := by
  rw [← card_keys]
  constructor
  · rintro ⟨code, isCode, free⟩
    apply Finset.card_lt_card
    refine (Finset.ssubset_iff_of_subset (keys_subset drawn)).2
      ⟨code, isCode, ?_⟩
    exact fun isKey => free (List.mem_toFinset.1 isKey)
  · intro fewer
    rcases Finset.exists_mem_notMem_of_card_lt_card fewer with
      ⟨code, isCode, notKey⟩
    exact ⟨code, isCode, fun inTable => notKey (List.mem_toFinset.2 inTable)⟩

/-- The loop ends at the first code that is not in use. -/
theorem registerSender_settles
    {generate : Nat → SessionCode} {attempt : Nat}
    (now : Int) (sender : Session) (json : Metadata)
    (free : generate attempt ∉ table) :
    ∃ code later, Settles
      (fun fuel => registerSender generate now sender json fuel table)
      (.returned code later) := by
  have settles : ∃ code later, Settles
      (fun fuel => registerSender generate now sender json fuel table)
      (.returned code later) ∧ True := by
    unfold registerSender
    apply Settles.loop_of_variant Nat.lt_wfRel.wf
      (fun current _ => attempt - current)
      (fun current state => current ≤ attempt ∧ state = table)
    · rintro current state ⟨before, rfl⟩
      cases tried : tryRegister (generate current) now sender json state with
      | some later =>
          left
          refine ⟨generate current, later, ?_, trivial⟩
          apply Settles.of_eq
          intro fuel
          rw [Program.bind_returned (Program.getState_run _), tried]
          rfl
      | none =>
          right
          have taken : generate current ∈ state := by
            by_contra notTaken
            rw [tryRegister, if_neg notTaken] at tried
            cases tried
          have different : current ≠ attempt := by
            rintro rfl
            exact free taken
          refine ⟨current + 1, state, ?_, ⟨?_, rfl⟩, ?_⟩
          · apply Settles.of_eq
            intro fuel
            rw [Program.bind_returned (Program.getState_run _), tried]
            rfl
          · omega
          · show attempt - (current + 1) < attempt - current
            omega
    · exact ⟨Nat.zero_le _, rfl⟩
  rcases settles with ⟨code, later, settles, -⟩
  exact ⟨code, later, settles⟩

/--
A sender that registers is given a code exactly while fewer wait than there are
codes, if every draw comes up at some time.
-/
theorem registerSender_returns_iff
    (drawn : ∀ code ∈ table, code ∈ codes words)
    {draws : Nat → Draw words}
    (fair : ∀ draw, ∃ attempt, draws attempt = draw)
    (now : Int) (sender : Session) (json : Metadata) :
    (∃ fuel code later,
      registerSender (fun attempt => generateSessionID words (draws attempt))
        now sender json fuel table = .returned code later) ↔
      currentSessions table < (codes words).card := by
  rw [← exists_free_iff drawn]
  constructor
  · rintro ⟨fuel, code, later, returned⟩
    have satisfies := registerSender_satisfies
      (fun attempt => generateSessionID words (draws attempt)) now sender
      json fuel table
    rcases satisfies.returned rfl returned with ⟨⟨attempt, isDrawn⟩, tried⟩
    refine ⟨code, mem_codes_iff.2 ⟨draws attempt, isDrawn.symm⟩, ?_⟩
    intro taken
    rw [tryRegister, if_pos taken] at tried
    cases tried
  · rintro ⟨code, isCode, free⟩
    rcases mem_codes_iff.1 isCode with ⟨draw, isDraw⟩
    rcases fair draw with ⟨attempt, isAttempt⟩
    have isFree : generateSessionID words (draws attempt) ∉ table := by
      rwa [isAttempt, isDraw]
    have settled := @registerSender_settles _ _ table
      (fun attempt => generateSessionID words (draws attempt)) attempt now
      sender json isFree
    rcases settled with ⟨given, later, settles⟩
    rcases settles.exists with ⟨fuel, returned⟩
    exact ⟨fuel, given, later, returned⟩

end Room

/-! ## In every run of the server -/

section Runs

variable {Peer : Type} [DecidableEq Peer]
variable {library : JsonLibrary} {text : Bytes} {json : Json} {words : Words}
variable {clientTimeout : Int} {events : List (Event Peer)}
variable {later : SessionProcess Peer Unit} {last : Moment Peer}
variable (contract : library.Utf8Contract)
variable (parsed : library.parse text = .ok json)
variable (constructed : construct json = .ok words)
variable (once : ((connections events).map Connection.client).Nodup)
variable (draws : ∀ connection ∈ connections events,
  Draws library words connection.settings)
variable (becomes : Becomes (run clientTimeout events fun _ => none)
  nothingYet later last)
include contract parsed constructed once draws becomes

theorem waiting_are_codes :
    ∀ code ∈ last.state, code ∈ codes words := by
  have sound : ∀ connection ∈ connections events,
      Sound library connection := by
    intro connection isConnection
    exact ⟨(draws connection isConnection).library,
      drawsCodes_of_constructed (contract.utf8_of_parse parsed) constructed
        (draws connection isConnection)⟩
  have inCodes : ∀ connection ∈ connections events, ∀ attempt,
      connection.settings.generateSessionID attempt ∈ codes words := by
    intro connection isConnection attempt
    rcases (draws connection isConnection).drawn attempt with ⟨draw, drawn⟩
    exact mem_codes_iff.2 ⟨draw, drawn.symm⟩
  have ensures := run_safe contract clientTimeout events once sound inCodes
  rcases (ensures.of_becomes becomes).now trivial with
    ⟨visited, transfers, consistent⟩
  intro code isWaiting
  rcases Option.isSome_iff_exists.1 (AList.lookup_isSome.2 isWaiting) with
    ⟨session, found⟩
  rcases (consistent.waiting code session found).2 with
    ⟨registration, waits⟩
  rw [waits.code]
  exact registration.drawn

/--
Every code that is waiting, at any moment of any run of the server, is made of
its words, so there are never more than it can draw.
-/
theorem waiting_codes_are_drawn :
    (∀ code ∈ last.state, code ∈ codes words) ∧
      currentSessions last.state ≤ capacity words := by
  have drawn := waiting_are_codes contract parsed constructed once draws
    becomes
  refine ⟨drawn, ?_⟩
  rw [← card_keys]
  exact (Finset.card_le_card (keys_subset drawn)).trans
    (card_codes_le words)

/--
A sender that comes at any moment of any run of the server gets a code exactly
while fewer are waiting than there are words and numbers to choose from.
-/
theorem next_sender_registers_iff
    (noDash : ∀ noun ∈ words.nouns, dash ∉ noun)
    {draw : Nat → Draw words}
    (fair : ∀ wanted, ∃ attempt, draw attempt = wanted)
    (now : Int) (sender : Peer) (metadata : Json) :
    (∃ fuel code later,
      registerSender (fun attempt => generateSessionID words (draw attempt))
        now sender metadata fuel last.state = .returned code later) ↔
      currentSessions last.state < capacity words := by
  have drawn := waiting_are_codes contract parsed constructed once draws
    becomes
  rw [← card_codes noDash]
  exact registerSender_returns_iff drawn fair now sender metadata

end Runs

/-! ## A server with two words -/

/-- What the words are read from. -/
def smallText : Bytes :=
  ascii "\x7b\"adjectives\":[\"old\"],\"nouns\":[\"two\"]\x7d"

def smallJson : Json :=
  .object [(ascii "adjectives", .array [.string (ascii "old")]),
    (ascii "nouns", .array [.string (ascii "two")])]

def smallWords : Words :=
  ⟨[ascii "two"], [ascii "old"]⟩

theorem smallJson_constructs : construct smallJson = .ok smallWords := by
  rfl

/-- A library that can read the words as well. -/
def wordsLibrary : JsonLibrary :=
  { FlatJson.flatLibrary with
    parse := fun text =>
      if text = smallText then
        .ok smallJson
      else
        FlatJson.flatLibrary.parse text }

theorem wordsLibrary_parses :
    wordsLibrary.parse smallText = .ok smallJson := by
  simp only [wordsLibrary, if_true]

theorem wordsLibrary_contract : wordsLibrary.Utf8Contract where
  utf8_of_parse := by
    intro text json parsed
    simp only [wordsLibrary] at parsed
    split_ifs at parsed
    · cases parsed
      have texts : ∀ word ∈ [ascii "adjectives", ascii "nouns", ascii "old",
          ascii "two"], IsUtf8 word := by
        decide +kernel
      apply Json.Utf8.object
      · simp [texts]
      · simp only [List.forall_mem_cons, List.not_mem_nil, false_implies,
          implies_true, and_true]
        constructor
        · apply Json.Utf8.array
          simpa using Json.Utf8.string (texts (ascii "old") (by simp))
        · apply Json.Utf8.array
          simpa using Json.Utf8.string (texts (ascii "two") (by simp))
    · exact FlatJson.flatLibrary_contract.utf8_of_parse parsed
  dumps := FlatJson.flatLibrary_contract.dumps

def smallDraw (attempt : Nat) : Draw smallWords :=
  ⟨⟨0, Nat.one_pos⟩, ⟨0, Nat.one_pos⟩,
    ⟨attempt % 101, Nat.mod_lt _ (Nat.succ_pos 100)⟩⟩

theorem smallDraw_fair :
    ∀ wanted, ∃ attempt, smallDraw attempt = wanted := by
  rintro ⟨adjective, noun, number⟩
  refine ⟨number, ?_⟩
  rw [smallDraw]
  congr 1
  · exact Fin.ext (Nat.lt_one_iff.1 adjective.isLt).symm
  · exact Fin.ext (Nat.lt_one_iff.1 noun.isLt).symm
  · exact Fin.ext (Nat.mod_eq_of_lt number.isLt)

def smallServer : Settings where
  library := wordsLibrary
  generateSessionID attempt := generateSessionID smallWords (smallDraw attempt)
  now := 0
  managerAlive := true

/-- The first message of a sender. -/
def registering : Bytes :=
  ascii "\x7b\"action\":\"send\",\"file_hash\":\"cc\",\"file_size\":9,\"filename\":\"x\",\"is_compressed\":true\x7d"

/-- A sender comes, and its first message byte by byte. -/
def oneSender : List (Event Unit) :=
  .accepts ⟨(), smallServer, 3⟩ :: (List.replicate 8 (.arrives ()) ++
    .completes () :: List.replicate registering.length (.arrives ()) ++
    [.completes ()])

theorem oneSender_draws :
    ∀ connection ∈ connections oneSender,
      Draws wordsLibrary smallWords connection.settings := by
  have alone : connections oneSender = [⟨(), smallServer, 3⟩] := by
    rfl
  rw [alone]
  simp only [List.forall_mem_singleton]
  exact ⟨rfl, fun attempt => ⟨smallDraw attempt, rfl⟩⟩

/-- The sender has its code. -/
theorem exists_oneWaiting :
    ∃ (later : SessionProcess Unit Unit) (last : Moment Unit),
      Becomes (run 60 oneSender fun _ => none) nothingYet later last ∧
        currentSessions last.state = 1 := by
  have runs : (takeTurn () () (run 60 oneSender fun _ => none) ∅
      (frame registering)
      (frame (ascii "\x7b\"code_words_key\":\"old-two-0\"\x7d"))).map
        (fun reached => currentSessions reached.2) = some 1 := by
    decide +kernel
  rcases Option.map_eq_some_iff.1 runs with ⟨⟨later, final⟩, taken, one⟩
  exact ⟨later, _,
    Becomes.of_plays (plays_of_takeTurn taken) silence silence, one⟩

theorem waiting_codes_are_drawn_oneSender :
    ∃ last : Moment Unit, currentSessions last.state = 1 ∧
      (∀ code ∈ last.state, code ∈ codes smallWords) ∧
        currentSessions last.state ≤ capacity smallWords := by
  rcases exists_oneWaiting with ⟨later, last, becomes, one⟩
  exact ⟨last, one, waiting_codes_are_drawn wordsLibrary_contract
    wordsLibrary_parses smallJson_constructs (by decide) oneSender_draws
    becomes⟩

/-- The second sender is given a code as well. -/
theorem next_sender_registers_iff_oneSender :
    ∃ last : Moment Unit, currentSessions last.state = 1 ∧
      ∃ fuel code later,
        registerSender
          (fun attempt => generateSessionID smallWords (smallDraw attempt)) 0
          () Json.null fuel last.state = .returned code later := by
  rcases exists_oneWaiting with ⟨later, last, becomes, one⟩
  refine ⟨last, one, (next_sender_registers_iff wordsLibrary_contract
    wordsLibrary_parses smallJson_constructs (by decide) oneSender_draws
    becomes (by decide) smallDraw_fair 0 () Json.null).2 ?_⟩
  rw [one]
  decide

end DropFile.Server.SessionCodes
