import DropFile.Client.DropFileReceiveClient
import DropFile.FlatJson
import DropFile.General.Hexadecimal

/-!
# Messages between the programs

What the clients create, the server accepts as it is.  What the server accepts
and prints again, the receiver reads without an exception of the library, and
it reads the values that the server has checked.
-/

namespace DropFile.SessionMessages

open DropFile.General
open DropFile.General.Utf8
open DropFile.General.Files
open DropFile.General.PathNames
open DropFile.Streams
open DropFile.FileSystem
open DropFile.JsonObjects
open DropFile.Utils
open DropFile.InitSessionMessage
open DropFile.Client.DropFileReceiveClient

/-! ## Hashes are text -/

theorem binaryToHumanReadable_eq :
    binaryToHumanReadable = Hexadecimal.encode :=
  rfl

theorem isUtf8_binaryToHumanReadable (data : Bytes) :
    IsUtf8 (binaryToHumanReadable data) := by
  apply isUtf8_of_ascii
  intro byte member
  rw [binaryToHumanReadable_eq] at member
  exact (Hexadecimal.isDigit_of_mem_encode member).lt

theorem hashContent_ok
    {digest : DigestLibrary} {content hash : Bytes}
    {mdctx : digest.Context}
    (hashes : hashContent digest content mdctx = .ok hash) :
    ∃ data, (∃ final, digest.digestFinal final = some data) ∧
      hash = binaryToHumanReadable data := by
  rcases ok_of_bind hashes with ⟨final, -, hashes⟩
  rcases ok_of_bind hashes with ⟨data, finalized, same⟩
  cases same
  cases result : digest.digestFinal final with
  | none =>
      rw [result] at finalized
      cases finalized
  | some hashResult =>
      rw [result] at finalized
      cases finalized
      exact ⟨data, ⟨final, result⟩, rfl⟩

theorem calculateFileHash_ok
    {digest : DigestLibrary} {tree : FileTree}
    {workingDirectory : Location} {path : PathName} {hash : Bytes}
    (hashes : calculateFileHash digest tree workingDirectory path =
      .ok hash) :
    ∃ data, (∃ final, digest.digestFinal final = some data) ∧
      hash = binaryToHumanReadable data := by
  rcases ok_of_bind hashes with ⟨_, -, hashes⟩
  rcases ok_of_bind hashes with ⟨mdctx, -, hashes⟩
  cases found : status tree workingDirectory path with
  | none =>
      rw [found] at hashes
      cases hashes
  | some node =>
      rw [found] at hashes
      cases node with
      | directory => exact hashContent_ok hashes
      | file content => exact hashContent_ok hashes

/-! ## Messages of the clients -/

theorem isUtf8_keys :
    IsUtf8 actionKey ∧ IsUtf8 filenameKey ∧ IsUtf8 fileSizeKey ∧
      IsUtf8 fileHashKey ∧ IsUtf8 isCompressedKey ∧
      IsUtf8 codeWordsKey := by
  decide +kernel

theorem sendMessage_utf8
    {filename fileHash : Bytes}
    (filenameUtf8 : IsUtf8 filename)
    (fileHashUtf8 : IsUtf8 fileHash)
    (fileSize : Nat) (isCompressed : Bool) :
    (sendMessage filename fileSize fileHash isCompressed).Utf8 := by
  rcases isUtf8_keys with
    ⟨action, filenameName, fileSizeName, fileHashName, compressedName, -⟩
  have send : IsUtf8 (ascii "send") := by decide +kernel
  exact Json.Utf8.null.assign action (.string send)
    |>.assign filenameName (.string filenameUtf8)
    |>.assign fileSizeName (.unsigned _)
    |>.assign fileHashName (.string fileHashUtf8)
    |>.assign compressedName (.boolean _)

theorem createReceiveMessage_utf8
    {code : Bytes}
    (codeUtf8 : IsUtf8 code) :
    (createReceiveMessage code).Utf8 := by
  rcases isUtf8_keys with ⟨action, -, -, -, -, codeWords⟩
  have receive : IsUtf8 (ascii "receive") := by decide +kernel
  exact Json.Utf8.null.assign action (.string receive)
    |>.assign codeWords (.string codeUtf8)

theorem sendMessage_ordered
    (filename : PathName) (fileSize : Nat) (fileHash : Bytes)
    (isCompressed : Bool) :
    (sendMessage filename fileSize fileHash isCompressed).Ordered :=
  Json.Ordered.null.assign actionKey (.string _)
    |>.assign filenameKey (.string _)
    |>.assign fileSizeKey (.unsigned _)
    |>.assign fileHashKey (.string _)
    |>.assign isCompressedKey (.boolean _)

theorem createReceiveMessage_ordered (code : Bytes) :
    (createReceiveMessage code).Ordered :=
  Json.Ordered.null.assign actionKey (.string _)
    |>.assign codeWordsKey (.string _)

theorem null_allPlain : Json.null.AllPlain := by
  intro members impossible
  cases impossible

theorem sendMessage_allPlain
    (filename : PathName) (fileSize : Nat) (fileHash : Bytes)
    (isCompressed : Bool) :
    (sendMessage filename fileSize fileHash isCompressed).AllPlain :=
  null_allPlain.assign actionKey rfl
    |>.assign filenameKey rfl
    |>.assign fileSizeKey rfl
    |>.assign fileHashKey rfl
    |>.assign isCompressedKey rfl

theorem createReceiveMessage_allPlain (code : Bytes) :
    (createReceiveMessage code).AllPlain :=
  null_allPlain.assign actionKey rfl
    |>.assign codeWordsKey rfl

variable {library : JsonLibrary} (contract : library.RoundTripContract)

include contract in
/-- A flat object comes back from its own text. -/
theorem parse_dump_of_allPlain
    {json : Json}
    (isObject : ∃ members, json = .object members)
    (ordered : json.Ordered)
    (utf8 : json.Utf8)
    (allPlain : json.AllPlain) :
    ∃ text, library.dump json = .ok text ∧
      library.parse text = .ok json := by
  rcases isObject with ⟨members, rfl⟩
  rcases contract.dumps utf8 with ⟨text, dumped⟩
  rcases contract.parses ordered utf8 dumped with ⟨again, parsed, reread⟩
  rw [reread.eq allPlain] at parsed
  exact ⟨text, dumped, parsed⟩

include contract in
theorem create_sendMessage
    {filename fileHash : Bytes} {fileSize : Nat} {isCompressed : Bool}
    (filenameUtf8 : IsUtf8 filename)
    (fileHashUtf8 : IsUtf8 fileHash) :
    ∃ text,
      library.dump (sendMessage filename fileSize fileHash isCompressed) =
        .ok text ∧
      create library text =
        .ok (sendMessage filename fileSize fileHash isCompressed) := by
  rcases parse_dump_of_allPlain contract
      ((exists_members_assign _ _ _).imp fun _ both => both.1)
      (sendMessage_ordered _ _ _ _)
      (sendMessage_utf8 filenameUtf8 fileHashUtf8 fileSize isCompressed)
      (sendMessage_allPlain _ _ _ _) with
    ⟨text, dumped, parsed⟩
  exact ⟨text, dumped, create_of_isSendMessage library parsed
    (isSendMessage_sendMessage _ _ _ _)⟩

include contract in
theorem create_createReceiveMessage
    {code : Bytes}
    (codeUtf8 : IsUtf8 code) :
    ∃ text,
      library.dump (createReceiveMessage code) = .ok text ∧
      create library text = .ok (createReceiveMessage code) := by
  rcases parse_dump_of_allPlain contract
      ((exists_members_assign _ _ _).imp fun _ both => both.1)
      (createReceiveMessage_ordered code)
      (createReceiveMessage_utf8 codeUtf8)
      (createReceiveMessage_allPlain code) with
    ⟨text, dumped, parsed⟩
  exact ⟨text, dumped, create_of_createReceiveMessage library parsed⟩

section Printed

variable {library : JsonLibrary} (strict : library.StrictContract)

include strict

/-- What was printed is read as it was. -/
theorem parse_of_dump
    {json : Json} {text : Bytes}
    (isObject : ∃ members, json = .object members)
    (ordered : json.Ordered)
    (allPlain : json.AllPlain)
    (dumped : library.dump json = .ok text) :
    library.parse text = .ok json ∧ text ≠ [] := by
  rcases isObject with ⟨members, rfl⟩
  have utf8 := strict.utf8_of_dump allPlain dumped
  rcases strict.parses ordered utf8 dumped with ⟨again, parsed, reread⟩
  rw [reread.eq allPlain] at parsed
  constructor
  · exact parsed
  · rintro rfl
    exact strict.nothing _ parsed

/-- A request that could be printed is accepted. -/
theorem create_of_dump_receiveMessage
    {code text : Bytes}
    (dumped : library.dump (createReceiveMessage code) = .ok text) :
    create library text = .ok (createReceiveMessage code) ∧ text ≠ [] := by
  have printed := parse_of_dump strict
    ((exists_members_assign _ _ _).imp fun _ both => both.1)
    (createReceiveMessage_ordered code) (createReceiveMessage_allPlain code)
    dumped
  exact ⟨create_of_createReceiveMessage library printed.1, printed.2⟩

end Printed

/-- What `createSendMessage` returns is the message for some hash. -/
theorem createSendMessage_ok
    {digest : DigestLibrary} {tree : FileTree}
    {workingDirectory : Location} {filePath : PathName}
    {isCompressed : Bool} {json : Json}
    (creates : createSendMessage digest tree workingDirectory filePath
      isCompressed = .ok json) :
    ∃ content data,
      regularFile tree workingDirectory filePath = some content ∧
      (∃ final, digest.digestFinal final = some data) ∧
      json = sendMessage (filename filePath) content.length
        (binaryToHumanReadable data) isCompressed := by
  rw [createSendMessage] at creates
  split_ifs at creates with missing
  cases file : regularFile tree workingDirectory filePath with
  | none =>
      rw [file] at creates
      cases creates
  | some content =>
      rw [file] at creates
      rcases ok_of_bind creates with ⟨hash, hashes, same⟩
      cases same
      rcases calculateFileHash_ok hashes with ⟨data, finalized, rfl⟩
      exact ⟨content, data, rfl, finalized, rfl⟩

/-- Metadata that could be printed are accepted. -/
theorem create_of_dump_sendMessage
    {library : JsonLibrary} (strict : library.StrictContract)
    {digest : DigestLibrary} {tree : FileTree}
    {workingDirectory : Location} {filePath : PathName}
    {isCompressed : Bool} {json : Json} {text : Bytes}
    (creates : createSendMessage digest tree workingDirectory filePath
      isCompressed = .ok json)
    (dumped : library.dump json = .ok text) :
    create library text = .ok json ∧
      json.find actionKey = some (.string (ascii "send")) ∧ text ≠ [] := by
  rcases createSendMessage_ok creates with ⟨content, data, -, -, rfl⟩
  have printed := parse_of_dump strict
    ((exists_members_assign _ _ _).imp fun _ both => both.1)
    (sendMessage_ordered _ _ _ _) (sendMessage_allPlain _ _ _ _) dumped
  have members := isSendMessage_sendMessage (filename filePath)
    content.length (binaryToHumanReadable data) isCompressed
  exact ⟨create_of_isSendMessage library printed.1 members, members.action,
    printed.2⟩

/-! ## What the receiver reads -/

/-- The values that the programs get for the keys of a message. -/
structure Reads (library : JsonLibrary) (json : Json)
    (filename : PathName) (fileSize : Nat) (fileHash : Bytes)
    (isCompressed : Bool) : Prop where
  filename : library.stringAt json filenameKey = .ok filename
  fileSize : library.sizeAt json fileSizeKey = .ok fileSize
  fileHash : library.stringAt json fileHashKey = .ok fileHash
  isCompressed : library.boolAt json isCompressedKey = .ok isCompressed

theorem stringAt_of_find
    {json : Json} {key value : Bytes}
    (found : json.find key = some (.string value)) :
    library.stringAt json key = .ok value := by
  rw [JsonLibrary.stringAt, index_of_find library found]
  rfl

variable (library) in
theorem reads_of_isSendMessage
    {json : Json} {filename : PathName} {fileSize : Nat}
    {fileHash : Bytes} {isCompressed : Bool}
    (fits : fileSize < sizeModulus)
    (members :
      IsSendMessage json filename fileSize fileHash isCompressed) :
    Reads library json filename fileSize fileHash isCompressed where
  filename := stringAt_of_find members.filename
  fileSize := by
    rw [JsonLibrary.sizeAt, index_of_find library members.fileSize]
    show Except.ok (UInt64.ofNat fileSize).toNat = _
    rw [UInt64.toNat_ofNat_of_lt' fits]
  fileHash := stringAt_of_find members.fileHash
  isCompressed := by
    rw [JsonLibrary.boolAt, index_of_find library members.isCompressed]
    rfl

theorem isSendMessage_of_reread
    {json again : Json} {filename : PathName} {fileSize : Nat}
    {fileHash : Bytes} {isCompressed : Bool}
    (members : IsSendMessage json filename fileSize fileHash isCompressed)
    (reread : json.Reread again) :
    IsSendMessage again filename fileSize fileHash isCompressed where
  action := reread.find members.action rfl
  filename := reread.find members.filename rfl
  fileSize := reread.find members.fileSize rfl
  fileHash := reread.find members.fileHash rfl
  isCompressed := reread.find members.isCompressed rfl

section Responses

variable {machine : Machine} {tree : FileTree} {received : Bytes}
variable {json : Json} {filename : PathName} {fileSize : Nat}
variable {fileHash : Bytes} {isCompressed : Bool}

/-- The checks of the receiver, once the values can be read. -/
theorem assertJsonProperties_eq
    (reads : Reads machine.library json filename fileSize fileHash
      isCompressed) :
    assertJsonProperties machine tree json =
      if fileExists tree machine.workingDirectory filename then
        .error (dropFileReceiveException
          (ascii "Directory " ++ filename ++ ascii " already exists!"))
      else if machine.freeSpace
          (if isCompressed then machine.temporaryDirectory
            else currentPath machine.workingDirectory) < fileSize then
        .error (dropFileReceiveException
          (ascii "Not enough disk space to receive this file."))
      else
        .ok () := by
  rw [assertJsonProperties, reads.filename]
  show (if fileExists tree machine.workingDirectory filename = true then
    _ else _) = _
  rw [reads.isCompressed, reads.fileSize]
  rfl

theorem parseResponse_eq
    (parsed : machine.library.parse received = .ok json)
    (reads : Reads machine.library json filename fileSize fileHash
      isCompressed) :
    parseResponse machine tree received = (do
      assertJsonProperties machine tree json
      pure json) := by
  rw [parseResponse, parsed]
  show (do
    let _ ← machine.library.boolAt json isCompressedKey
    let _ ← machine.library.stringAt json filenameKey
    let _ ← machine.library.sizeAt json fileSizeKey
    assertJsonProperties machine tree json
    pure json) = _
  rw [reads.isCompressed, reads.filename, reads.fileSize]
  rfl

variable (tree) in
/-- No exception of the library is thrown once the values can be read. -/
theorem parseResponse_of_reads
    (parsed : machine.library.parse received = .ok json)
    (reads : Reads machine.library json filename fileSize fileHash
      isCompressed) :
    ThrowsOnly (· = .dropFileReceive)
        (parseResponse machine tree received) ∧
      ∀ response, parseResponse machine tree received = .ok response →
        response = json := by
  have asserts : ThrowsOnly (· = .dropFileReceive)
      (assertJsonProperties machine tree json) := by
    rw [assertJsonProperties_eq reads]
    split_ifs
    · exact .error rfl
    · exact .error rfl
    · exact .ok ()
    · exact .error rfl
    · exact .ok ()
  rw [parseResponse_eq parsed reads]
  constructor
  · exact asserts.bind fun _ => .ok json
  · intro response succeeds
    rcases ok_of_bind succeeds with ⟨_, -, same⟩
    cases same
    rfl

end Responses

/-- The receiver takes the message for what it is, if it takes it. -/
theorem checkResponse_eq
    {machine : Machine} {tree : FileTree} {received : Bytes}
    (throws : ThrowsOnly (· = .dropFileReceive)
      (parseResponse machine tree received)) :
    checkResponse machine tree received =
      parseResponse machine tree received := by
  rw [checkResponse]
  cases result : parseResponse machine tree received with
  | ok json => rfl
  | error exception =>
      have thrown := throws exception result
      dsimp only
      rw [if_neg]
      rw [thrown]
      decide

/-- The server's message for a file, as it arrives at the receiver. -/
structure Forwards (library : JsonLibrary) (json : Json) (text : Bytes)
    (again : Json) : Prop where
  dumped : library.dump json = .ok text
  parsed : library.parse text = .ok again
  /-- The server and the receiver get the same values. -/
  reads : ∃ filename fileSize fileHash isCompressed,
    fileSize < sizeModulus ∧
    Reads library json filename fileSize fileHash isCompressed ∧
    Reads library again filename fileSize fileHash isCompressed
  /-- Nothing that `getServerResponse` does throws a `json::exception`. -/
  throws : ∀ machine tree, machine.library = library →
    ThrowsOnly (· = .dropFileReceive) (parseResponse machine tree text)
  response : ∀ machine tree response, machine.library = library →
    checkResponse machine tree text = .ok response → response = again

include contract in
theorem exists_forwards
    {text : Bytes} {json : Json}
    (accepts : create library text = .ok json)
    (isSend : json.find actionKey = some (.string (ascii "send"))) :
    ∃ dumped again, Forwards library json dumped again := by
  rcases create_ok library accepts with ⟨parses, message⟩
  have ordered := contract.ordered_of_parse parses
  have utf8 := contract.utf8_of_parse parses
  rcases contract.dumps utf8 with ⟨dumped, isDumped⟩
  rcases contract.parses ordered utf8 isDumped with
    ⟨again, parsed, reread⟩
  rcases message with
    ⟨filename, fileSize, fileHash, isCompressed, fits, members⟩ |
      ⟨code, request⟩
  · have serverReads := reads_of_isSendMessage library fits members
    have receiverReads := reads_of_isSendMessage library fits
      (isSendMessage_of_reread members reread)
    refine ⟨dumped, again, isDumped, parsed,
      ⟨filename, fileSize, fileHash, isCompressed, fits, serverReads,
        receiverReads⟩, ?_, ?_⟩
    · rintro machine tree rfl
      exact (parseResponse_of_reads tree parsed receiverReads).1
    · rintro machine tree response rfl checked
      have parsing := parseResponse_of_reads tree parsed receiverReads
      rw [checkResponse_eq parsing.1] at checked
      exact parsing.2 response checked
  · cases request.action.symm.trans isSend

/--
Messages of the clients are accepted as they were, and what is accepted from a
sender reaches the receiver with the values that the server has checked.
-/
theorem messages_arrive
    (library : JsonLibrary) (contract : library.RoundTripContract) :
    (∀ digest tree workingDirectory filePath isCompressed json,
      createSendMessage digest tree workingDirectory filePath isCompressed =
          .ok json →
      IsUtf8 (filename filePath) →
      ∃ text, library.dump json = .ok text ∧
        create library text = .ok json) ∧
    (∀ code, IsUtf8 code →
      ∃ text, library.dump (createReceiveMessage code) = .ok text ∧
        create library text = .ok (createReceiveMessage code) ∧
        library.stringAt (createReceiveMessage code) codeWordsKey =
          .ok code) ∧
    ∀ text json,
      create library text = .ok json →
      json.find actionKey = some (.string (ascii "send")) →
      ∃ dumped again, Forwards library json dumped again := by
  refine ⟨?_, ?_, fun text json accepts isSend =>
    exists_forwards contract accepts isSend⟩
  · intro digest tree workingDirectory filePath isCompressed json creates
      filenameUtf8
    rcases createSendMessage_ok creates with ⟨content, data, -, -, rfl⟩
    exact create_sendMessage contract filenameUtf8
      (isUtf8_binaryToHumanReadable data)
  · intro code codeUtf8
    rcases create_createReceiveMessage contract codeUtf8 with
      ⟨text, dumped, created⟩
    exact ⟨text, dumped, created,
      stringAt_of_find (find_createReceiveMessage code).2⟩

/-- The code of the server's own kind. -/
theorem messages_arrive_code :
    ∃ text,
      FlatJson.flatLibrary.dump (createReceiveMessage (ascii "a-b-1")) =
        .ok text ∧
      create FlatJson.flatLibrary text =
        .ok (createReceiveMessage (ascii "a-b-1")) ∧
      FlatJson.flatLibrary.stringAt
        (createReceiveMessage (ascii "a-b-1")) codeWordsKey =
          .ok (ascii "a-b-1") :=
  (messages_arrive FlatJson.flatLibrary FlatJson.flatLibrary_contract).2.1
    (ascii "a-b-1") (by decide +kernel)

end DropFile.SessionMessages
