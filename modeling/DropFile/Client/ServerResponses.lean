import DropFile.Client.ReceivedFiles

/-!
# Responses of the server

`getServerResponse` gets three of the four fields with conversions, where the
server's validator checks all of them.  What can pass it is determined here for
every byte string.
-/

namespace DropFile.Client.ServerResponses

open DropFile.General.Utf8
open DropFile.General.Files
open DropFile.Streams
open DropFile.FileSystem
open DropFile.JsonObjects
open DropFile.InitSessionMessage
open DropFile.SessionMessages
open DropFile.Client.DropFileReceiveClient
open DropFile.Client.ReceivedFiles

/-! ## Exceptions -/

/-- What the checks of a response can throw inside of the `try`. -/
def OfResponse (thrown : ExceptionClass) : Prop :=
  thrown = .json ∨ thrown = .dropFileReceive

section Throwing

variable (library : JsonLibrary) (json : Json) (key : Bytes)

theorem stringAt_throwsOnly :
    ThrowsOnly OfResponse (library.stringAt json key) :=
  ((library.index_throwsJson json key).bind
    library.getString_throwsJson).weaken fun _ => Or.inl

theorem boolAt_throwsOnly :
    ThrowsOnly OfResponse (library.boolAt json key) :=
  ((library.index_throwsJson json key).bind
    library.getBool_throwsJson).weaken fun _ => Or.inl

theorem sizeAt_throwsOnly :
    ThrowsOnly OfResponse (library.sizeAt json key) :=
  ((library.index_throwsJson json key).bind
    library.getSize_throwsJson).weaken fun _ => Or.inl

end Throwing

variable (machine : Machine) (tree : FileTree)

theorem assertJsonProperties_throwsOnly (json : Json) :
    ThrowsOnly OfResponse (assertJsonProperties machine tree json) := by
  apply (stringAt_throwsOnly machine.library json filenameKey).bind
  intro filename
  split_ifs
  · exact .error (Or.inr rfl)
  · apply (boolAt_throwsOnly machine.library json isCompressedKey).bind
    intro isCompressed
    apply (sizeAt_throwsOnly machine.library json fileSizeKey).bind
    intro fileSize
    split_ifs
    · exact .error (Or.inr rfl)
    · exact .ok ()
    · exact .error (Or.inr rfl)
    · exact .ok ()

theorem parseResponse_throwsOnly (received : Bytes) :
    ThrowsOnly OfResponse (parseResponse machine tree received) := by
  apply ThrowsOnly.bind
  · cases machine.library.parse received with
    | ok json => exact .ok json
    | error what => exact .error (Or.inl rfl)
  · intro json
    exact (boolAt_throwsOnly machine.library json _).bind fun _ =>
      (stringAt_throwsOnly machine.library json _).bind fun _ =>
        (sizeAt_throwsOnly machine.library json _).bind fun _ =>
          (assertJsonProperties_throwsOnly machine tree json).bind
            fun _ => .ok json

/-- Nothing but a `DropFileReceiveException` leaves `getServerResponse`. -/
theorem checkResponse_throwsOnly (received : Bytes) :
    ThrowsOnly (· = .dropFileReceive)
      (checkResponse machine tree received) := by
  rw [checkResponse]
  cases result : parseResponse machine tree received with
  | ok json => exact .ok json
  | error exception =>
      dsimp only
      split_ifs with isJson
      · exact .error rfl
      · rcases parseResponse_throwsOnly machine tree received exception
          result with json | receive
        · exact absurd json isJson
        · exact .error receive

/-! ## Responses that pass -/

/-- An access that does not make a null has found its key. -/
theorem find_of_index
    {library : JsonLibrary} {json value : Json} {key : Bytes}
    (indexed : library.index json key = .ok value)
    (notNull : value ≠ .null) :
    json.find key = some value := by
  cases json with
  | object members =>
      rw [JsonLibrary.index] at indexed
      rw [Json.find]
      cases found : members.lookup key with
      | some other =>
          rw [found] at indexed
          cases indexed
          rfl
      | none =>
          rw [found] at indexed
          cases indexed
          exact absurd rfl notNull
  | null =>
      cases indexed
      exact absurd rfl notNull
  | boolean _ => cases indexed
  | unsigned _ => cases indexed
  | integer _ => cases indexed
  | float _ => cases indexed
  | string _ => cases indexed
  | array _ => cases indexed

theorem find_of_stringAt
    {library : JsonLibrary} {json : Json} {key value : Bytes}
    (isString : library.stringAt json key = .ok value) :
    json.find key = some (.string value) := by
  rcases ok_of_bind isString with ⟨member, indexed, isString⟩
  have same : member = .string value := by
    cases member with
    | string other =>
        cases isString
        rfl
    | null => cases isString
    | boolean _ => cases isString
    | unsigned _ => cases isString
    | integer _ => cases isString
    | float _ => cases isString
    | array _ => cases isString
    | object _ => cases isString
  subst same
  exact find_of_index indexed (by intro impossible; cases impossible)

theorem find_of_boolAt
    {library : JsonLibrary} {json : Json} {key : Bytes} {value : Bool}
    (isBoolean : library.boolAt json key = .ok value) :
    json.find key = some (.boolean value) := by
  rcases ok_of_bind isBoolean with ⟨member, indexed, isBoolean⟩
  have same : member = .boolean value := by
    cases member with
    | boolean other =>
        cases isBoolean
        rfl
    | null => cases isBoolean
    | string _ => cases isBoolean
    | unsigned _ => cases isBoolean
    | integer _ => cases isBoolean
    | float _ => cases isBoolean
    | array _ => cases isBoolean
    | object _ => cases isBoolean
  subst same
  exact find_of_index indexed (by intro impossible; cases impossible)

variable {machine tree}

/-- The values that `getServerResponse` looks at, and what it asks of them. -/
structure Looked (machine : Machine) (tree : FileTree) (json : Json)
    (filename : Bytes) (fileSize : Nat) (isCompressed : Bool) : Prop where
  filenameFound : json.find filenameKey = some (.string filename)
  isCompressedFound :
    json.find isCompressedKey = some (.boolean isCompressed)
  fileSizeRead : machine.library.sizeAt json fileSizeKey = .ok fileSize
  free : fileExists tree machine.workingDirectory filename = false
  space : fileSize ≤ machine.freeSpace
    (if isCompressed then machine.temporaryDirectory
      else currentPath machine.workingDirectory)

theorem looked_of_assertJsonProperties
    {json : Json}
    (asserted : assertJsonProperties machine tree json = .ok ()) :
    ∃ filename fileSize isCompressed,
      Looked machine tree json filename fileSize isCompressed := by
  rcases ok_of_bind asserted with ⟨filename, filenameRead, asserted⟩
  split_ifs at asserted with present
  rcases ok_of_bind asserted with
    ⟨isCompressed, isCompressedRead, asserted⟩
  rcases ok_of_bind asserted with ⟨fileSize, fileSizeRead, asserted⟩
  by_cases full : machine.freeSpace
      (if isCompressed then machine.temporaryDirectory
        else currentPath machine.workingDirectory) < fileSize
  · rw [if_pos full] at asserted
    cases asserted
  · exact ⟨filename, fileSize, isCompressed,
      find_of_stringAt filenameRead, find_of_boolAt isCompressedRead,
      fileSizeRead, Bool.eq_false_iff.2 present, Nat.not_lt.1 full⟩

theorem checkResponse_ok_iff (received : Bytes) (json : Json) :
    checkResponse machine tree received = .ok json ↔
      machine.library.parse received = .ok json ∧
        ∃ filename fileSize isCompressed,
          Looked machine tree json filename fileSize isCompressed := by
  constructor
  · intro accepted
    rw [checkResponse] at accepted
    cases result : parseResponse machine tree received with
    | error exception =>
        rw [result] at accepted
        dsimp only at accepted
        split_ifs at accepted
    | ok value =>
        rw [result] at accepted
        cases accepted
        rcases ok_of_bind result with ⟨parsed, parses, result⟩
        rcases ok_of_bind result with ⟨_, -, result⟩
        rcases ok_of_bind result with ⟨_, -, result⟩
        rcases ok_of_bind result with ⟨_, -, result⟩
        rcases ok_of_bind result with ⟨_, asserted, same⟩
        cases same
        cases outcome : machine.library.parse received with
        | error what =>
            rw [outcome] at parses
            cases parses
        | ok value =>
            rw [outcome] at parses
            cases parses
            exact ⟨rfl, looked_of_assertJsonProperties asserted⟩
  · rintro ⟨parses, filename, fileSize, isCompressed, looked⟩
    have filenameRead : machine.library.stringAt json filenameKey =
        .ok filename :=
      stringAt_of_find looked.filenameFound
    have isCompressedRead : machine.library.boolAt json isCompressedKey =
        .ok isCompressed := by
      rw [JsonLibrary.boolAt, index_of_find machine.library
        looked.isCompressedFound]
      rfl
    have asserted : assertJsonProperties machine tree json = .ok () := by
      rw [assertJsonProperties, filenameRead]
      show (if fileExists tree machine.workingDirectory filename = true
        then _ else _) = _
      rw [looked.free, isCompressedRead, looked.fileSizeRead]
      exact if_neg (Nat.not_lt.2 looked.space)
    have parsed : parseResponse machine tree received = .ok json := by
      rw [parseResponse, parses]
      show (do
        let _ ← machine.library.boolAt json isCompressedKey
        let _ ← machine.library.stringAt json filenameKey
        let _ ← machine.library.sizeAt json fileSizeKey
        assertJsonProperties machine tree json
        pure json) = _
      rw [isCompressedRead, filenameRead, looked.fileSizeRead]
      show (do
        assertJsonProperties machine tree json
        pure json) = _
      rw [asserted]
      rfl
    rw [checkResponse, parsed]

/-! ## The rules of the server -/

/-- What the server's validator asks of the fields of a message. -/
structure MeetsRules (json : Json) : Prop where
  filename : ∃ value, json.find filenameKey = some (.string value)
  fileHash : ∃ value, json.find fileHashKey = some (.string value)
  fileSize : ∃ value, json.find fileSizeKey = some (.unsigned value)
  isCompressed :
    ∃ value, json.find isCompressedKey = some (.boolean value)

/--
A response is turned down with the client's own exception, or all of its
fields meet the rules and can be read again.
-/
structure SafeResponse (machine : Machine) (tree : FileTree)
    (received : Bytes) : Prop where
  throws : ThrowsOnly (· = .dropFileReceive)
    (checkResponse machine tree received)
  rules : ∀ json, checkResponse machine tree received = .ok json →
    MeetsRules json
  reads : ∀ json, checkResponse machine tree received = .ok json →
    ∃ filename fileSize fileHash isCompressed,
      Reads machine.library json filename fileSize fileHash isCompressed

/--
The two fields that are not looked at, or only with a conversion, are what
they should be if the others let the response pass.
-/
def OthersMeetRules (machine : Machine) (tree : FileTree)
    (received : Bytes) : Prop :=
  ∀ json filename fileSize isCompressed,
    machine.library.parse received = .ok json →
    Looked machine tree json filename fileSize isCompressed →
    (∃ value, json.find fileHashKey = some (.string value)) ∧
      ∃ value, json.find fileSizeKey = some (.unsigned value)

/-- Responses are safe exactly when these two fields meet the rules. -/
theorem safeResponse_iff_othersMeetRules
    (machine : Machine) (tree : FileTree) (received : Bytes) :
    SafeResponse machine tree received ↔
      OthersMeetRules machine tree received := by
  constructor
  · intro safe json filename fileSize isCompressed parses looked
    have accepted := (checkResponse_ok_iff received json).2
      ⟨parses, filename, fileSize, isCompressed, looked⟩
    have rules := safe.rules json accepted
    exact ⟨rules.fileHash, rules.fileSize⟩
  · intro othersMeet
    constructor
    · exact checkResponse_throwsOnly machine tree received
    · intro json accepted
      rcases (checkResponse_ok_iff received json).1 accepted with
        ⟨parses, filename, fileSize, isCompressed, looked⟩
      rcases othersMeet json filename fileSize isCompressed parses looked
        with ⟨fileHash, isUnsigned⟩
      exact ⟨⟨filename, looked.filenameFound⟩, fileHash, isUnsigned,
        ⟨isCompressed, looked.isCompressedFound⟩⟩
    · intro json accepted
      rcases (checkResponse_ok_iff received json).1 accepted with
        ⟨parses, filename, fileSize, isCompressed, looked⟩
      rcases othersMeet json filename fileSize isCompressed parses looked
        with ⟨⟨fileHash, found⟩, -⟩
      refine ⟨filename, fileSize, fileHash, isCompressed, ?_⟩
      constructor
      · exact stringAt_of_find looked.filenameFound
      · exact looked.fileSizeRead
      · exact stringAt_of_find found
      · rw [JsonLibrary.boolAt, index_of_find machine.library
          looked.isCompressedFound]
        rfl

/-- A message for a file of one byte that does not tell its hash. -/
def withoutHash : Json :=
  Json.null
    |>.assign filenameKey (.string (ascii "f"))
    |>.assign fileSizeKey (.unsigned 1)
    |>.assign isCompressedKey (.boolean false)

theorem exists_parse_withoutHash :
    ∃ received, FlatJson.flatLibrary.parse received = .ok withoutHash := by
  have filenameUtf8 : IsUtf8 (ascii "f") := by decide +kernel
  have utf8 : withoutHash.Utf8 :=
    Json.Utf8.null.assign (by decide +kernel) (.string filenameUtf8)
      |>.assign (by decide +kernel) (.unsigned 1)
      |>.assign (by decide +kernel) (.boolean false)
  have ordered : withoutHash.Ordered :=
    Json.Ordered.null.assign filenameKey (.string _)
      |>.assign fileSizeKey (.unsigned _)
      |>.assign isCompressedKey (.boolean _)
  have allPlain : withoutHash.AllPlain :=
    null_allPlain.assign filenameKey rfl
      |>.assign fileSizeKey rfl
      |>.assign isCompressedKey rfl
  rcases parse_dump_of_allPlain FlatJson.flatLibrary_contract
      ((exists_members_assign _ _ _).imp fun _ both => both.1) ordered utf8
      allPlain with
    ⟨received, -, parses⟩
  exact ⟨received, parses⟩

/-- Not every response that passes has the fields of a message. -/
theorem not_safeResponse :
    ¬ ∀ (machine : Machine) (tree : FileTree) (received : Bytes),
      SafeResponse machine tree received := by
  intro always
  rcases exists_parse_withoutHash with ⟨received, parses⟩
  have different := keys_nodup
  simp only [List.nodup_cons, List.mem_cons, not_or] at different
  have sizeFound : withoutHash.find fileSizeKey = some (.unsigned 1) := by
    simp [withoutHash, different]
  have hashMissing : withoutHash.find fileHashKey = none := by
    rfl
  have looked : Looked smallMachine FileTree.empty withoutHash (ascii "f") 1
      false := by
    constructor
    · simp [withoutHash, different]
    · simp [withoutHash]
    · rw [JsonLibrary.sizeAt, index_of_find _ sizeFound]
      rfl
    · decide +kernel
    · show 1 ≤ 3
      decide
  have othersMeet := (safeResponse_iff_othersMeetRules smallMachine
    FileTree.empty received).1 (always smallMachine FileTree.empty received)
  rcases (othersMeet withoutHash (ascii "f") 1 false parses looked).1 with
    ⟨fileHash, found⟩
  rw [hashMissing] at found
  cases found

end DropFile.Client.ServerResponses
