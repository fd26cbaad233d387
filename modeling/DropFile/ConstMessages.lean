import DropFile.InitSessionMessage

/-!
# `InitSessionMessage` on a `const` value

The checks take the message by a `const` reference.  There `json[key]` adds
nothing: for a key that is missing its behaviour is undefined.  The checks are
restated with this access, and are the same as before, because every key was
found before it is accessed.
-/

namespace DropFile.ConstMessages

open DropFile.Streams
open DropFile.JsonObjects
open DropFile.InitSessionMessage

/-- How a check of a `const` value can go wrong. -/
inductive Fault where
  | thrown (exception : Exception)
  | undefinedBehaviour

/-- A computation that has no undefined behaviour. -/
def defined {α : Type} : Except Exception α → Except Fault α
  | .ok value => .ok value
  | .error exception => .error (.thrown exception)

variable (library : JsonLibrary)

/-- `json[key]` for a `const` value. -/
def index (json : Json) (key : Bytes) : Except Fault Json :=
  match json with
  | .object members =>
      match members.lookup key with
      | some value => .ok value
      | none => .error .undefinedBehaviour
  | other =>
      .error (.thrown (jsonException (library.typeError "object" other)))

/-- The checks that a member has a type, which differ in type and text. -/
def validateKeyType (isType : Json → Bool) (type : String) (json : Json)
    (key : Bytes) : Except Fault Unit := do
  let value ← index library json key
  if !isType value then
    .error (.thrown (initSessionMessageException
      (ascii "InitSessionMessage json key " ++ key ++
        ascii " should be a " ++ ascii type ++ ascii ".")))
  else
    pure ()

/-- `InitSessionMessage::validateStringKey`. -/
def validateStringKey (json : Json) (key : Bytes) : Except Fault Unit :=
  validateKeyType library Json.isString "string" json key

/-- `InitSessionMessage::validateKeysTypes`. -/
def validateKeysTypes (json : Json) : Except Fault Unit := do
  validateStringKey library json filenameKey
  validateStringKey library json fileHashKey
  validateKeyType library Json.isNumberUnsigned "number" json fileSizeKey
  validateKeyType library Json.isBoolean "boolean" json isCompressedKey

/-- `InitSessionMessage::validateActionKey`. -/
def validateActionKey (json : Json) : Except Fault Unit := do
  defined (validateSingleKeyExists json actionKey)
  validateStringKey library json actionKey
  let action ← index library json actionKey
  if !action.equals "send" && !action.equals "receive" then
    let value ← defined (library.getString action)
    .error (.thrown (initSessionMessageException
      (ascii "InitSessionMessage " ++ actionKey ++
        ascii " key has unrecognized value: " ++ value ++ ascii ".")))
  else
    pure ()

/-- `InitSessionMessage::validate`. -/
def validate (json : Json) : Except Fault Unit := do
  validateActionKey library json
  let action ← index library json actionKey
  if action.equals "send" then
    defined (validateKeysExist json)
    validateKeysTypes library json
  else
    defined (validateSingleKeyExists json codeWordsKey)
    validateStringKey library json codeWordsKey

/-- What `create` does inside of its `try`. -/
def parseAndValidate (text : Bytes) : Except Fault Json := do
  let json ← defined (orJsonException (library.parse text))
  validate library json
  pure json

/-- `InitSessionMessage::create`. -/
def create (text : Bytes) : Except Fault Json :=
  match parseAndValidate library text with
  | .error (.thrown exception) =>
      if exception.thrown = .json then
        .error (.thrown (initSessionMessageException
          (ascii "Could not parse to json.")))
      else
        .error (.thrown exception)
  | result => result

/-! ## Every accessed key is there -/

/-- What follows a part that succeeds may use that it succeeded. -/
theorem defined_bind
    {α β : Type} {first : Except Exception α}
    {next : α → Except Exception β} {checked : α → Except Fault β}
    (same : ∀ value, first = .ok value →
      checked value = defined (next value)) :
    (defined first >>= checked) = defined (first >>= next) := by
  cases first with
  | ok value => exact same value rfl
  | error exception => rfl

theorem find_of_exists
    {json : Json} {key : Bytes}
    (present : validateSingleKeyExists json key = .ok ()) :
    ∃ value, json.find key = some value := by
  rw [validateSingleKeyExists] at present
  split_ifs at present with missing
  rw [Bool.not_eq_true', Bool.not_eq_false, Json.contains,
    Option.isSome_iff_exists] at missing
  exact missing

/-- For a key that is there the access is the one of a mutable value. -/
theorem index_eq
    {json : Json} {key : Bytes}
    (present : ∃ value, json.find key = some value) :
    index library json key = defined (library.index json key) := by
  rcases present with ⟨value, found⟩
  rw [index_of_find library found]
  cases json with
  | object members =>
      rw [Json.find] at found
      rw [index, found]
      rfl
  | null => cases found
  | boolean _ => cases found
  | unsigned _ => cases found
  | integer _ => cases found
  | float _ => cases found
  | string _ => cases found
  | array _ => cases found

theorem validateKeyType_eq
    {json : Json} {key : Bytes}
    (present : ∃ value, json.find key = some value)
    (isType : Json → Bool) (type : String) :
    validateKeyType library isType type json key =
      defined (InitSessionMessage.validateKeyType library isType type json
        key) := by
  rw [validateKeyType, index_eq library present]
  apply defined_bind
  intro value _
  split_ifs
  · rfl
  · rfl

theorem validateActionKey_eq (json : Json) :
    validateActionKey library json =
      defined (InitSessionMessage.validateActionKey library json) := by
  apply defined_bind
  intro _ exists_action
  have present := find_of_exists exists_action
  rw [validateStringKey, validateKeyType_eq library present]
  apply defined_bind
  intro _ _
  rw [index_eq library present]
  apply defined_bind
  intro action _
  split_ifs
  · apply defined_bind
    intro _ _
    rfl
  · rfl

theorem validateKeysTypes_eq
    {json : Json}
    (keysExist : validateKeysExist json = .ok ()) :
    validateKeysTypes library json =
      defined (InitSessionMessage.validateKeysTypes library json) := by
  rcases ok_of_bind keysExist with ⟨_, hasFilename, keysExist⟩
  rcases ok_of_bind keysExist with ⟨_, hasFileSize, keysExist⟩
  rcases ok_of_bind keysExist with ⟨_, hasFileHash, hasIsCompressed⟩
  rw [validateKeysTypes, validateStringKey, validateStringKey,
    validateKeyType_eq library (find_of_exists hasFilename),
    validateKeyType_eq library (find_of_exists hasFileHash),
    validateKeyType_eq library (find_of_exists hasFileSize),
    validateKeyType_eq library (find_of_exists hasIsCompressed)]
  apply defined_bind
  intro _ _
  apply defined_bind
  intro _ _
  apply defined_bind
  intro _ _
  rfl

theorem validate_eq (json : Json) :
    validate library json =
      defined (InitSessionMessage.validate library json) := by
  rw [validate, validateActionKey_eq]
  apply defined_bind
  intro _ actionValid
  rcases ok_of_bind actionValid with ⟨_, exists_action, -⟩
  rw [index_eq library (find_of_exists exists_action)]
  apply defined_bind
  intro action _
  split_ifs
  · apply defined_bind
    intro _ keysExist
    exact validateKeysTypes_eq library keysExist
  · apply defined_bind
    intro _ exists_codeWords
    exact validateKeyType_eq library (find_of_exists exists_codeWords) _ _

/-- No access of `create` has undefined behaviour. -/
theorem create_eq (text : Bytes) :
    create library text =
      defined (InitSessionMessage.create library text) := by
  have attempt : parseAndValidate library text =
      defined (InitSessionMessage.parseAndValidate library text) := by
    apply defined_bind
    intro json _
    rw [validate_eq]
    apply defined_bind
    intro _ _
    rfl
  rw [create, InitSessionMessage.create, attempt]
  cases InitSessionMessage.parseAndValidate library text with
  | ok json => rfl
  | error exception =>
      show (if exception.thrown = .json then _ else _) = _
      dsimp only
      split_ifs
      · rfl
      · rfl

/-! ## What is accepted -/

/--
`create` returns exactly the texts that are parsed as one of the two messages,
throws nothing but its own exception, and accesses only keys that are there.
-/
theorem create_iff (library : JsonLibrary) (text : Bytes) :
    (∀ json, InitSessionMessage.create library text = .ok json ↔
      library.parse text = .ok json ∧ IsMessage json) ∧
    (∀ exception,
      InitSessionMessage.create library text = .error exception →
      exception.thrown = .initSessionMessage) ∧
    create library text =
      defined (InitSessionMessage.create library text) := by
  refine ⟨?_, create_throwsOnly library text, create_eq library text⟩
  intro json
  constructor
  · exact create_ok library
  · rintro ⟨parsed, message⟩
    rcases message with
      ⟨filename, fileSize, fileHash, isCompressed, -, members⟩ |
        ⟨code, members⟩
    · exact create_of_isSendMessage library parsed members
    · exact create_of_isReceiveMessage library parsed members

end DropFile.ConstMessages
