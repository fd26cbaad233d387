import DropFile.JsonObjects
import DropFile.Utils

/-!
# `InitSessionMessage`

The first message of every client: what the clients create and what the server
accepts.
-/

namespace DropFile.InitSessionMessage

open DropFile.General.Files
open DropFile.General.PathNames
open DropFile.Streams
open DropFile.FileSystem
open DropFile.JsonObjects
open DropFile.Utils

def filenameKey : Bytes := ascii "filename"

def fileSizeKey : Bytes := ascii "file_size"

def fileHashKey : Bytes := ascii "file_hash"

def isCompressedKey : Bytes := ascii "is_compressed"

def codeWordsKey : Bytes := ascii "code_words_key"

def actionKey : Bytes := ascii "action"

def initSessionMessageException (what : Bytes) : Exception :=
  ⟨.initSessionMessage, what⟩

/-! ## Creating messages -/

/-- The message for a file with the given properties. -/
def sendMessage (filename : PathName) (fileSize : Nat) (fileHash : Bytes)
    (isCompressed : Bool) : Json :=
  Json.null
    |>.assign actionKey (.string (ascii "send"))
    |>.assign filenameKey (.string filename)
    |>.assign fileSizeKey (.unsigned (UInt64.ofNat fileSize))
    |>.assign fileHashKey (.string fileHash)
    |>.assign isCompressedKey (.boolean isCompressed)

/-- `InitSessionMessage::createSendMessage`. -/
def createSendMessage (digest : DigestLibrary) (tree : FileTree)
    (workingDirectory : Location) (filePath : PathName)
    (isCompressed : Bool) : Except Exception Json :=
  if !fileExists tree workingDirectory filePath then
    .error (initSessionMessageException
      (ascii "Given path " ++ filePath ++ ascii " does not exist!"))
  else
    match regularFile tree workingDirectory filePath with
    | none => .error (filesystemError "cannot get file size")
    | some content => do
        let fileHash ←
          calculateFileHash digest tree workingDirectory filePath
        pure (sendMessage (filename filePath) content.length fileHash
          isCompressed)

/-- `InitSessionMessage::createReceiveMessage`. -/
def createReceiveMessage (code : Bytes) : Json :=
  Json.null
    |>.assign actionKey (.string (ascii "receive"))
    |>.assign codeWordsKey (.string code)

/-! ## Accepting messages -/

variable (library : JsonLibrary)

/-- `InitSessionMessage::validateSingleKeyExists`. -/
def validateSingleKeyExists (json : Json) (key : Bytes) :
    Except Exception Unit :=
  if !json.contains key then
    .error (initSessionMessageException
      (ascii "InitSessionMessage json is missing " ++ key ++ ascii " key."))
  else
    pure ()

/-- The checks that a member has a type, which differ in type and text. -/
def validateKeyType (isType : Json → Bool) (type : String) (json : Json)
    (key : Bytes) : Except Exception Unit := do
  let value ← library.index json key
  if !isType value then
    .error (initSessionMessageException
      (ascii "InitSessionMessage json key " ++ key ++
        ascii " should be a " ++ ascii type ++ ascii "."))
  else
    pure ()

/-- `InitSessionMessage::validateStringKey`. -/
def validateStringKey (json : Json) (key : Bytes) :
    Except Exception Unit :=
  validateKeyType library Json.isString "string" json key

/-- `InitSessionMessage::validateKeysExist`. -/
def validateKeysExist (json : Json) : Except Exception Unit := do
  validateSingleKeyExists json filenameKey
  validateSingleKeyExists json fileSizeKey
  validateSingleKeyExists json fileHashKey
  validateSingleKeyExists json isCompressedKey

/-- `InitSessionMessage::validateKeysTypes`. -/
def validateKeysTypes (json : Json) : Except Exception Unit := do
  validateStringKey library json filenameKey
  validateStringKey library json fileHashKey
  validateKeyType library Json.isNumberUnsigned "number" json fileSizeKey
  validateKeyType library Json.isBoolean "boolean" json isCompressedKey

/-- `InitSessionMessage::validateActionKey`. -/
def validateActionKey (json : Json) : Except Exception Unit := do
  validateSingleKeyExists json actionKey
  validateStringKey library json actionKey
  let action ← library.index json actionKey
  if !action.equals "send" && !action.equals "receive" then
    let value ← library.getString action
    .error (initSessionMessageException
      (ascii "InitSessionMessage " ++ actionKey ++
        ascii " key has unrecognized value: " ++ value ++ ascii "."))
  else
    pure ()

/-- `InitSessionMessage::validate`. -/
def validate (json : Json) : Except Exception Unit := do
  validateActionKey library json
  let action ← library.index json actionKey
  if action.equals "send" then
    validateKeysExist json
    validateKeysTypes library json
  else
    validateSingleKeyExists json codeWordsKey
    validateStringKey library json codeWordsKey

/-- What `create` does inside of its `try`. -/
def parseAndValidate (text : Bytes) : Except Exception Json := do
  let json ← orJsonException (library.parse text)
  validate library json
  pure json

/-- `InitSessionMessage::create`. -/
def create (text : Bytes) : Except Exception Json :=
  match parseAndValidate library text with
  | .ok json => .ok json
  | .error exception =>
      if exception.thrown = .json then
        .error (initSessionMessageException
          (ascii "Could not parse to json."))
      else
        .error exception

/-! ## What clients create is accepted -/

theorem keys_nodup :
    [actionKey, filenameKey, fileSizeKey, fileHashKey, isCompressedKey,
      codeWordsKey].Nodup := by
  decide

/-- The members that a message for a file has. -/
structure IsSendMessage (json : Json) (filename : PathName)
    (fileSize : Nat) (fileHash : Bytes) (isCompressed : Bool) : Prop where
  action : json.find actionKey = some (.string (ascii "send"))
  filename : json.find filenameKey = some (.string filename)
  fileSize :
    json.find fileSizeKey = some (.unsigned (UInt64.ofNat fileSize))
  fileHash : json.find fileHashKey = some (.string fileHash)
  isCompressed :
    json.find isCompressedKey = some (.boolean isCompressed)

theorem isSendMessage_sendMessage
    (filename : PathName) (fileSize : Nat) (fileHash : Bytes)
    (isCompressed : Bool) :
    IsSendMessage (sendMessage filename fileSize fileHash isCompressed)
      filename fileSize fileHash isCompressed := by
  have different := keys_nodup
  simp only [List.nodup_cons, List.mem_cons, not_or] at different
  constructor <;> simp [sendMessage, different]

theorem validateKeyType_of_find
    (isType : Json → Bool) (type : String)
    {json value : Json} {key : Bytes}
    (found : json.find key = some value)
    (hasType : isType value = true) :
    validateKeyType library isType type json key = .ok () := by
  simp [validateKeyType, index_of_find library found, hasType, bind,
    Except.bind, pure, Except.pure]

theorem validateSingleKeyExists_of_find
    {json value : Json} {key : Bytes}
    (found : json.find key = some value) :
    validateSingleKeyExists json key = .ok () := by
  simp [validateSingleKeyExists, Json.contains, found, pure, Except.pure]

theorem validateActionKey_of_find
    {json : Json} {action : String}
    (found : json.find actionKey = some (.string (ascii action)))
    (known : action = "send" ∨ action = "receive") :
    validateActionKey library json = .ok () := by
  rcases known with rfl | rfl <;>
    simp [validateActionKey, validateSingleKeyExists_of_find found,
      validateStringKey,
      validateKeyType_of_find library Json.isString "string" found rfl,
      index_of_find library found, Json.equals, bind, Except.bind, pure,
      Except.pure]

theorem create_of_validate
    {text : Bytes} {json : Json}
    (parsed : library.parse text = .ok json)
    (valid : validate library json = .ok ()) :
    create library text = .ok json := by
  simp [create, parseAndValidate, orJsonException, parsed, valid, bind,
    Except.bind, pure, Except.pure]

/-- The server accepts every message for a file. -/
theorem create_of_isSendMessage
    {text : Bytes} {json : Json} {filename : PathName} {fileSize : Nat}
    {fileHash : Bytes} {isCompressed : Bool}
    (parsed : library.parse text = .ok json)
    (members :
      IsSendMessage json filename fileSize fileHash isCompressed) :
    create library text = .ok json := by
  refine create_of_validate library parsed ?_
  simp [validate, validateKeysExist, validateKeysTypes, validateStringKey,
    validateActionKey_of_find library members.action (Or.inl rfl),
    index_of_find library members.action,
    validateSingleKeyExists_of_find members.filename,
    validateSingleKeyExists_of_find members.fileSize,
    validateSingleKeyExists_of_find members.fileHash,
    validateSingleKeyExists_of_find members.isCompressed,
    validateKeyType_of_find library Json.isString "string"
      members.filename rfl,
    validateKeyType_of_find library Json.isString "string"
      members.fileHash rfl,
    validateKeyType_of_find library Json.isNumberUnsigned "number"
      members.fileSize rfl,
    validateKeyType_of_find library Json.isBoolean "boolean"
      members.isCompressed rfl,
    Json.equals, bind, Except.bind]

/-- The members that a request has. -/
structure IsReceiveMessage (json : Json) (code : Bytes) : Prop where
  action : json.find actionKey = some (.string (ascii "receive"))
  codeWords : json.find codeWordsKey = some (.string code)

/-- The server accepts every request. -/
theorem create_of_isReceiveMessage
    {text code : Bytes} {json : Json}
    (parsed : library.parse text = .ok json)
    (members : IsReceiveMessage json code) :
    create library text = .ok json := by
  have different : ascii "receive" ≠ ascii "send" := by decide
  refine create_of_validate library parsed ?_
  simp [validate, validateStringKey,
    validateActionKey_of_find library members.action (Or.inr rfl),
    index_of_find library members.action,
    validateSingleKeyExists_of_find members.codeWords,
    validateKeyType_of_find library Json.isString "string"
      members.codeWords rfl,
    Json.equals, different, bind, Except.bind]

theorem find_createReceiveMessage (code : Bytes) :
    (createReceiveMessage code).find actionKey =
        some (.string (ascii "receive")) ∧
      (createReceiveMessage code).find codeWordsKey =
        some (.string code) := by
  have different := keys_nodup
  simp only [List.nodup_cons, List.mem_cons, not_or] at different
  constructor <;> simp [createReceiveMessage, different]

theorem create_of_createReceiveMessage
    {text code : Bytes}
    (parsed : library.parse text = .ok (createReceiveMessage code)) :
    create library text = .ok (createReceiveMessage code) := by
  obtain ⟨action, codeWords⟩ := find_createReceiveMessage code
  exact create_of_isReceiveMessage library parsed ⟨action, codeWords⟩

/-! ## What the server accepts -/

/-- A message of one of the two kinds. -/
def IsMessage (json : Json) : Prop :=
  (∃ filename fileSize fileHash isCompressed, fileSize < sizeModulus ∧
    IsSendMessage json filename fileSize fileHash isCompressed) ∨
  ∃ code, IsReceiveMessage json code

theorem exists_find_of_validate
    {json : Json} {key : Bytes} {isType : Json → Bool} {type : String}
    (present : validateSingleKeyExists json key = .ok ())
    (typed : validateKeyType library isType type json key = .ok ()) :
    ∃ value, json.find key = some value ∧ isType value = true := by
  rw [validateSingleKeyExists] at present
  split_ifs at present with missing
  rw [Bool.not_eq_true', Bool.not_eq_false, Json.contains,
    Option.isSome_iff_exists] at missing
  rcases missing with ⟨value, found⟩
  refine ⟨value, found, ?_⟩
  rcases ok_of_bind typed with ⟨other, indexed, checked⟩
  cases indexed.symm.trans (index_of_find library found)
  split_ifs at checked with different
  rwa [Bool.not_eq_true', Bool.not_eq_false] at different

theorem isString_cases
    {json : Json}
    (isString : json.isString = true) :
    ∃ value, json = .string value := by
  cases json with
  | string value => exact ⟨value, rfl⟩
  | null => cases isString
  | boolean _ => cases isString
  | unsigned _ => cases isString
  | integer _ => cases isString
  | float _ => cases isString
  | array _ => cases isString
  | object _ => cases isString

theorem isNumberUnsigned_cases
    {json : Json}
    (isNumber : json.isNumberUnsigned = true) :
    ∃ value, json = .unsigned value := by
  cases json with
  | unsigned value => exact ⟨value, rfl⟩
  | null => cases isNumber
  | boolean _ => cases isNumber
  | string _ => cases isNumber
  | integer _ => cases isNumber
  | float _ => cases isNumber
  | array _ => cases isNumber
  | object _ => cases isNumber

theorem isBoolean_cases
    {json : Json}
    (isBoolean : json.isBoolean = true) :
    ∃ value, json = .boolean value := by
  cases json with
  | boolean value => exact ⟨value, rfl⟩
  | null => cases isBoolean
  | unsigned _ => cases isBoolean
  | string _ => cases isBoolean
  | integer _ => cases isBoolean
  | float _ => cases isBoolean
  | array _ => cases isBoolean
  | object _ => cases isBoolean

/-- The action of a message that passes is one of the two. -/
theorem action_of_validateActionKey
    {json : Json}
    (valid : validateActionKey library json = .ok ()) :
    json.find actionKey = some (.string (ascii "send")) ∨
      json.find actionKey = some (.string (ascii "receive")) := by
  rcases ok_of_bind valid with ⟨_, present, valid⟩
  rcases ok_of_bind valid with ⟨_, typed, valid⟩
  rcases exists_find_of_validate library present typed with
    ⟨action, found, isString⟩
  rcases isString_cases isString with ⟨text, rfl⟩
  rcases ok_of_bind valid with ⟨other, indexed, valid⟩
  cases indexed.symm.trans (index_of_find library found)
  split_ifs at valid with unknown
  · cases valid
  · rw [found]
    simp only [Json.equals, Bool.and_eq_true, Bool.not_eq_true',
      decide_eq_false_iff_not, not_and_or, not_not] at unknown
    rcases unknown with rfl | rfl
    · exact Or.inl rfl
    · exact Or.inr rfl

theorem isMessage_of_validate
    {json : Json}
    (valid : validate library json = .ok ()) :
    IsMessage json := by
  rcases ok_of_bind valid with ⟨_, action, valid⟩
  rcases ok_of_bind valid with ⟨value, indexed, valid⟩
  rcases action_of_validateActionKey library action with isSend | isReceive
  · left
    cases indexed.symm.trans (index_of_find library isSend)
    rw [if_pos (by simp [Json.equals])] at valid
    rcases ok_of_bind valid with ⟨_, keys, types⟩
    rcases ok_of_bind keys with ⟨_, hasFilename, keys⟩
    rcases ok_of_bind keys with ⟨_, hasFileSize, keys⟩
    rcases ok_of_bind keys with ⟨_, hasFileHash, hasIsCompressed⟩
    rcases ok_of_bind types with ⟨_, filenameTyped, types⟩
    rcases ok_of_bind types with ⟨_, fileHashTyped, types⟩
    rcases ok_of_bind types with ⟨_, fileSizeTyped, isCompressedTyped⟩
    rcases exists_find_of_validate library hasFilename filenameTyped with
      ⟨filename, filenameFound, filenameType⟩
    rcases exists_find_of_validate library hasFileSize fileSizeTyped with
      ⟨fileSize, fileSizeFound, fileSizeType⟩
    rcases exists_find_of_validate library hasFileHash fileHashTyped with
      ⟨fileHash, fileHashFound, fileHashType⟩
    rcases exists_find_of_validate library hasIsCompressed
      isCompressedTyped with
      ⟨isCompressed, isCompressedFound, isCompressedType⟩
    rcases isString_cases filenameType with ⟨filename, rfl⟩
    rcases isNumberUnsigned_cases fileSizeType with ⟨fileSize, rfl⟩
    rcases isString_cases fileHashType with ⟨fileHash, rfl⟩
    rcases isBoolean_cases isCompressedType with ⟨isCompressed, rfl⟩
    refine ⟨filename, fileSize.toNat, fileHash, isCompressed,
      fileSize.toNat_lt, isSend, filenameFound, ?_, fileHashFound,
      isCompressedFound⟩
    rw [fileSizeFound, UInt64.ofNat_toNat]
  · right
    have different : ascii "receive" ≠ ascii "send" := by decide
    cases indexed.symm.trans (index_of_find library isReceive)
    rw [if_neg (by simp [Json.equals, different])] at valid
    rcases ok_of_bind valid with ⟨_, present, typed⟩
    rcases exists_find_of_validate library present typed with
      ⟨code, found, isString⟩
    rcases isString_cases isString with ⟨code, rfl⟩
    exact ⟨code, isReceive, found⟩

/-- What `create` returns was parsed and is a message. -/
theorem create_ok
    {text : Bytes} {json : Json}
    (accepts : create library text = .ok json) :
    library.parse text = .ok json ∧ IsMessage json := by
  rw [create] at accepts
  cases attempt : parseAndValidate library text with
  | error error =>
      rw [attempt] at accepts
      dsimp only at accepts
      split_ifs at accepts
  | ok message =>
      rw [attempt] at accepts
      cases accepts
      rcases ok_of_bind attempt with ⟨parsed, parses, attempt⟩
      rcases ok_of_bind attempt with ⟨_, valid, same⟩
      cases same
      refine ⟨?_, isMessage_of_validate library valid⟩
      cases result : library.parse text with
      | error what =>
          rw [result] at parses
          cases parses
      | ok value =>
          rw [result] at parses
          cases parses
          rfl

/-- What a check can throw before `create` has looked at it. -/
def OfValidation (thrown : ExceptionClass) : Prop :=
  thrown = .json ∨ thrown = .initSessionMessage

theorem index_throwsOnly (json : Json) (key : Bytes) :
    ThrowsOnly OfValidation (library.index json key) :=
  (library.index_throwsJson json key).weaken fun _ => Or.inl

theorem validateSingleKeyExists_throwsOnly (json : Json) (key : Bytes) :
    ThrowsOnly OfValidation (validateSingleKeyExists json key) := by
  rw [validateSingleKeyExists]
  split_ifs
  · exact .error (Or.inr rfl)
  · exact .ok ()

theorem validateKeyType_throwsOnly
    (isType : Json → Bool) (type : String) (json : Json) (key : Bytes) :
    ThrowsOnly OfValidation
      (validateKeyType library isType type json key) := by
  apply (index_throwsOnly library json key).bind
  intro value
  split_ifs
  · exact .error (Or.inr rfl)
  · exact .ok ()

theorem validateActionKey_throwsOnly (json : Json) :
    ThrowsOnly OfValidation (validateActionKey library json) := by
  apply (validateSingleKeyExists_throwsOnly json actionKey).bind
  intro _
  apply (validateKeyType_throwsOnly library _ _ json actionKey).bind
  intro _
  apply (index_throwsOnly library json actionKey).bind
  intro action
  split_ifs
  · apply ((library.getString_throwsJson action).weaken fun _ => Or.inl).bind
    intro _
    exact .error (Or.inr rfl)
  · exact .ok ()

theorem validate_throwsOnly (json : Json) :
    ThrowsOnly OfValidation (validate library json) := by
  apply (validateActionKey_throwsOnly library json).bind
  intro _
  apply (index_throwsOnly library json actionKey).bind
  intro action
  split_ifs
  · have keysExist : ThrowsOnly OfValidation (validateKeysExist json) :=
      (validateSingleKeyExists_throwsOnly json _).bind fun _ =>
        (validateSingleKeyExists_throwsOnly json _).bind fun _ =>
          (validateSingleKeyExists_throwsOnly json _).bind fun _ =>
            validateSingleKeyExists_throwsOnly json _
    exact keysExist.bind fun _ =>
      (validateKeyType_throwsOnly library _ _ json _).bind fun _ =>
        (validateKeyType_throwsOnly library _ _ json _).bind fun _ =>
          (validateKeyType_throwsOnly library _ _ json _).bind fun _ =>
            validateKeyType_throwsOnly library _ _ json _
  · exact (validateSingleKeyExists_throwsOnly json _).bind fun _ =>
      validateKeyType_throwsOnly library _ _ json _

/-- Nothing but an `InitSessionMessageException` leaves `create`. -/
theorem create_throwsOnly (text : Bytes) :
    ThrowsOnly (· = .initSessionMessage) (create library text) := by
  have attempt : ThrowsOnly OfValidation
      (parseAndValidate library text) := by
    apply ThrowsOnly.bind
    · cases library.parse text with
      | ok json => exact .ok json
      | error what => exact .error (Or.inl rfl)
    · exact fun json =>
        (validate_throwsOnly library json).bind fun _ => .ok json
  rw [create]
  cases result : parseAndValidate library text with
  | ok json => exact .ok json
  | error exception =>
      dsimp only
      split_ifs with isJson
      · exact .error rfl
      · rcases attempt exception result with json | initSession
        · exact absurd json isJson
        · exact .error initSession

end DropFile.InitSessionMessage
