import DropFile.FlatJson
import DropFile.Server.ServerSideClientSession
import DropFile.SessionMessages
import Mathlib.Data.Nat.Log

/-!
# The size of the metadata

How long the first message of a sender is depends on how the characters of the
file's name are escaped.  It exceeds what the server accepts as a first message
for some names that a file system allows, and only for names with control
characters.
-/

namespace DropFile.Client.MetadataSizes

open DropFile.General
open DropFile.General.Utf8
open DropFile.General.PathNames
open DropFile.General.Files
open DropFile.General.Processes.Process
open DropFile.Streams
open DropFile.FileSystem
open DropFile.Socket
open DropFile.JsonObjects
open DropFile.Utils
open DropFile.InitSessionMessage
open DropFile.SessionMessages
open DropFile.Server.SessionsManager
open DropFile.Server.ServerSideClientSession

/-! ## Compact output -/

/-- The control characters that have a short escape. -/
def hasShortEscape (byte : UInt8) : Bool :=
  byte = 8 || byte = 9 || byte = 10 || byte = 12 || byte = 13

/-- How long a byte of a string gets. -/
def escapedLength (byte : UInt8) : Nat :=
  if byte = 34 ∨ byte = 92 ∨ hasShortEscape byte then 2
  else if byte < 32 then 6
  else 1

def escapedLengths (text : Bytes) : Nat :=
  (text.map escapedLength).sum

/-- A string between its quotation marks. -/
def stringLength (text : Bytes) : Nat :=
  2 + escapedLengths text

/-- The number of decimal digits. -/
def digitCount (value : Nat) : Nat :=
  Nat.log 10 value + 1

def valueLength : Json → Nat
  | .string value => stringLength value
  | .unsigned value => digitCount value.toNat
  | .boolean true => 4
  | .boolean false => 5
  | _ => 0

/-- A key, a colon and a value. -/
def memberLength (member : Bytes × Json) : Nat :=
  stringLength member.1 + 1 + valueLength member.2

/-- Every member is followed by a comma or a bracket. -/
def objectLength (members : List (Bytes × Json)) : Nat :=
  1 + (members.map fun member => memberLength member + 1).sum

/-- What is assumed of `dump` for objects of plain values. -/
structure CompactDump (library : JsonLibrary) : Prop where
  dumped :
    ∀ members, members ≠ [] → (Json.object members).AllPlain →
      (Json.object members).Utf8 →
      ∃ text, library.dump (.object members) = .ok text ∧
        text.length = objectLength members

/-! ## The metadata -/

/-- How long the metadata of a file get. -/
def metadataLength (name : PathName) (fileSize : Nat)
    (isCompressed : Bool) : Nat :=
  144 + escapedLengths name + digitCount fileSize +
    if isCompressed then 0 else 1

/-- The members in the order of their keys. -/
theorem sendMessage_members
    (name : PathName) (fileSize : Nat) (fileHash : Bytes)
    (isCompressed : Bool) :
    sendMessage name fileSize fileHash isCompressed =
      .object [(actionKey, .string (ascii "send")),
        (fileHashKey, .string fileHash),
        (fileSizeKey, .unsigned (UInt64.ofNat fileSize)),
        (filenameKey, .string name),
        (isCompressedKey, .boolean isCompressed)] :=
  rfl

@[simp]
theorem escapedLengths_append (first second : Bytes) :
    escapedLengths (first ++ second) =
      escapedLengths first + escapedLengths second := by
  rw [escapedLengths, List.map_append, List.sum_append]
  rfl

theorem escapedLength_digit :
    ∀ value < 16, escapedLength (Hexadecimal.digit value) = 1 := by
  decide

theorem escapedLengths_binaryToHumanReadable (data : Bytes) :
    escapedLengths (binaryToHumanReadable data) = 2 * data.length := by
  induction data with
  | nil => rfl
  | cons byte rest inductionHypothesis =>
      have bound := byte.toNat_lt
      have high := escapedLength_digit (byte.toNat / 16) (by omega)
      have low := escapedLength_digit (byte.toNat % 16) (by omega)
      have digits : escapedLengths (binaryToHumanReadable [byte]) = 2 := by
        rw [binaryToHumanReadable, Hexadecimal.encode_cons]
        simp only [escapedLengths, List.map_cons, high, low]
        rfl
      have split : binaryToHumanReadable (byte :: rest) =
          binaryToHumanReadable [byte] ++ binaryToHumanReadable rest :=
        rfl
      rw [split, escapedLengths_append, digits, inductionHypothesis,
        List.length_cons]
      omega

/-- With a hash of 32 bytes. -/
theorem objectLength_metadata
    {name : PathName} {fileSize : Nat} {data : Bytes}
    (fits : fileSize < sizeModulus)
    (isSha256 : data.length = 32)
    (isCompressed : Bool) :
    objectLength [(actionKey, .string (ascii "send")),
        (fileHashKey, .string (binaryToHumanReadable data)),
        (fileSizeKey, .unsigned (UInt64.ofNat fileSize)),
        (filenameKey, .string name),
        (isCompressedKey, .boolean isCompressed)] =
      metadataLength name fileSize isCompressed := by
  have size : (UInt64.ofNat fileSize).toNat = fileSize :=
    UInt64.toNat_ofNat_of_lt' fits
  have keys : escapedLengths actionKey = 6 ∧
      escapedLengths fileHashKey = 9 ∧ escapedLengths fileSizeKey = 9 ∧
      escapedLengths filenameKey = 8 ∧
      escapedLengths isCompressedKey = 13 ∧
      escapedLengths (ascii "send") = 4 := by
    decide +kernel
  rcases keys with ⟨action, hash, fileSize, filename, compressed, send⟩
  simp only [objectLength, memberLength, List.map_cons, List.map_nil,
    List.sum_cons, List.sum_nil, stringLength, valueLength, size, action,
    hash, fileSize, filename, compressed, send,
    escapedLengths_binaryToHumanReadable, isSha256, metadataLength]
  cases isCompressed
  · simp only [Bool.false_eq_true, if_false]
    omega
  · simp only [if_true]
    omega

/-! ## The first message -/

/-- The text goes out as one frame and reaches the handler of the server. -/
structure Arrives (text : Bytes) : Prop where
  short : text.length ≤ maxFirstMessageSize
  sent : ∀ {Peer σ : Type} [DecidableEq Peer] (server : Peer) (state : σ),
    Plays (send server text) state silence (only server (frame text))
      (.done ()) state
  delivered : ∀ {Peer : Type} [DecidableEq Peer] (settings : Settings)
    (self : Peer) (fuel : Nat)
    (sessions : SendersSessions Peer Json),
    Plays (start settings self fuel) sessions (only self (frame text))
      silence (handleFirstRead settings self fuel text) sessions

/-- The header is enough for the server to disconnect. -/
def RefusedBySize (text : Bytes) : Prop :=
  ∀ {Peer : Type} [DecidableEq Peer] (settings : Settings) (self : Peer)
    (fuel : Nat) (sessions : SendersSessions Peer Json),
    Plays (start settings self fuel) sessions
      (only self (sizeBytes text.length)) silence
      (safeDisconnect self
        (some (tooLargeText text.length maxFirstMessageSize))) sessions

theorem arrives_of_short
    {text : Bytes}
    (nonempty : text ≠ [])
    (short : text.length ≤ maxFirstMessageSize) :
    Arrives text where
  short := short
  sent server _ :=
    send_plays_frame server nonempty (short.trans (by decide))
  delivered settings self fuel _ :=
    asyncReadMessage_plays self (handleFirstRead settings self fuel)
      (by decide) short

theorem refusedBySize_of_long
    {text : Bytes}
    (long : maxFirstMessageSize < text.length)
    (fits : text.length < sizeModulus) :
    RefusedBySize text := by
  intro Peer _ settings self fuel sessions
  exact asyncReadMessage_plays_refusal self
    (handleFirstRead settings self fuel) (by decide) long fits

/-- A digest of SHA-256 has 32 bytes. -/
def IsSha256 (digest : DigestLibrary) : Prop :=
  ∀ mdctx data, digest.digestFinal mdctx = some data → data.length = 32

/-- The metadata of a file are printed with the expected length. -/
theorem dump_createSendMessage
    {library : JsonLibrary} (compact : CompactDump library)
    {digest : DigestLibrary} (isSha256 : IsSha256 digest)
    {tree : FileTree} {workingDirectory : Location} {filePath : PathName}
    {isCompressed : Bool} {content : Bytes} {json : Json}
    (isFile : regularFile tree workingDirectory filePath = some content)
    (utf8 : IsUtf8 (filename filePath))
    (fits : content.length < sizeModulus)
    (creates : createSendMessage digest tree workingDirectory filePath
      isCompressed = .ok json) :
    ∃ text, library.dump json = .ok text ∧
      text.length =
        metadataLength (filename filePath) content.length isCompressed := by
  rcases createSendMessage_ok creates with
    ⟨other, data, isOther, ⟨final, finalized⟩, rfl⟩
  cases isOther.symm.trans isFile
  have printable := sendMessage_utf8 utf8
    (isUtf8_binaryToHumanReadable data) content.length isCompressed
  have allPlain := sendMessage_allPlain (filename filePath) content.length
    (binaryToHumanReadable data) isCompressed
  rw [sendMessage_members] at printable allPlain ⊢
  rcases compact.dumped _ (List.cons_ne_nil _ _) allPlain printable with
    ⟨text, dumped, length⟩
  rw [objectLength_metadata fits (isSha256 final data finalized)] at length
  exact ⟨text, dumped, length⟩

theorem escapedLength_le (byte : UInt8) : escapedLength byte ≤ 6 := by
  rw [escapedLength]
  split_ifs
  · decide
  · exact Nat.le_refl 6
  · decide

theorem escapedLengths_le (text : Bytes) :
    escapedLengths text ≤ 6 * text.length := by
  induction text with
  | nil => exact Nat.le_refl 0
  | cons byte rest inductionHypothesis =>
      have first := escapedLength_le byte
      have split : escapedLengths (byte :: rest) =
          escapedLength byte + escapedLengths rest :=
        List.sum_cons
      rw [split, List.length_cons]
      omega

theorem digitCount_le
    {value : Nat}
    (fits : value < sizeModulus) :
    digitCount value ≤ 20 := by
  have bound : value < 10 ^ 20 :=
    Nat.lt_of_lt_of_le fits (by decide)
  have log := Nat.log_lt_of_lt_pow' (show 20 ≠ 0 by decide) bound
  exact Nat.succ_le_of_lt log

/--
The metadata reach the handler of the server exactly when their name is not
too long after escaping; otherwise the server refuses their size.
-/
theorem metadata_arrive_iff
    {library : JsonLibrary} (compact : CompactDump library)
    {digest : DigestLibrary} (isSha256 : IsSha256 digest)
    {tree : FileTree} {workingDirectory : Location} {filePath : PathName}
    {isCompressed : Bool} {content : Bytes} {json : Json}
    (isFile : regularFile tree workingDirectory filePath = some content)
    (utf8 : IsUtf8 (filename filePath))
    (nameFits : (filename filePath).length ≤ 255)
    (fits : content.length < sizeModulus)
    (creates : createSendMessage digest tree workingDirectory filePath
      isCompressed = .ok json) :
    ∃ text, library.dump json = .ok text ∧
      (Arrives text ↔
        144 + escapedLengths (filename filePath) +
            digitCount content.length + (if isCompressed then 0 else 1) ≤
          maxFirstMessageSize) ∧
      (¬ Arrives text → RefusedBySize text) := by
  rcases dump_createSendMessage compact isSha256 isFile utf8 fits creates with
    ⟨text, dumped, length⟩
  have nonempty : text ≠ [] := by
    rintro rfl
    rw [List.length_nil, metadataLength] at length
    omega
  refine ⟨text, dumped, ?_, ?_⟩
  · constructor
    · intro arrives
      rw [← metadataLength, ← length]
      exact arrives.short
    · intro short
      rw [← metadataLength, ← length] at short
      exact arrives_of_short nonempty short
  · intro missing
    have long : maxFirstMessageSize < text.length :=
      Nat.lt_of_not_le fun short =>
        missing (arrives_of_short nonempty short)
    apply refusedBySize_of_long long
    have escaped := escapedLengths_le (filename filePath)
    have digits := digitCount_le fits
    have bound : text.length ≤ 144 + 6 * 255 + 20 + 1 := by
      rw [length, metadataLength]
      split_ifs
      · omega
      · omega
    exact Nat.lt_of_le_of_lt bound (by decide)

/-- Names without control characters are never too long. -/
theorem metadataLength_le_of_no_controls
    {name : PathName} {fileSize : Nat}
    (noControls : ∀ byte ∈ name, ¬ byte < 32)
    (nameFits : name.length ≤ 255)
    (fits : fileSize < sizeModulus)
    (isCompressed : Bool) :
    metadataLength name fileSize isCompressed ≤ maxFirstMessageSize := by
  have escaped : escapedLengths name ≤ 2 * name.length := by
    clear nameFits
    induction name with
    | nil => exact Nat.le_refl 0
    | cons byte rest inductionHypothesis =>
        rw [List.forall_mem_cons] at noControls
        have later := inductionHypothesis noControls.2
        have first : escapedLength byte ≤ 2 := by
          rw [escapedLength, if_neg noControls.1]
          split_ifs
          · exact Nat.le_refl 2
          · decide
        have split : escapedLengths (byte :: rest) =
            escapedLength byte + escapedLengths rest :=
          List.sum_cons
        rw [split, List.length_cons]
        omega
  have digits := digitCount_le fits
  rw [metadataLength, maxFirstMessageSize]
  split_ifs
  · omega
  · omega

/-! ## A compact printer -/

/-- The escapes of `dump`. -/
def escape (byte : UInt8) : Bytes :=
  if byte = 34 ∨ byte = 92 then [92, byte]
  else if byte = 8 then ascii "\\b"
  else if byte = 9 then ascii "\\t"
  else if byte = 10 then ascii "\\n"
  else if byte = 12 then ascii "\\f"
  else if byte = 13 then ascii "\\r"
  else if byte < 32 then ascii "\\u00" ++ Hexadecimal.encode [byte]
  else [byte]

def printString (text : Bytes) : Bytes :=
  34 :: (text.flatMap escape ++ [34])

def printValue : Json → Bytes
  | .string value => printString value
  | .unsigned value => FlatJson.printNumber value.toNat
  | .boolean true => ascii "true"
  | .boolean false => ascii "false"
  | _ => []

def printMember (member : Bytes × Json) : Bytes :=
  printString member.1 ++ 58 :: printValue member.2

/-- The members and the closing bracket. -/
def printMembers : List (Bytes × Json) → Bytes
  | [] => [125]
  | [member] => printMember member ++ [125]
  | member :: rest => printMember member ++ 44 :: printMembers rest

/-- A library that prints objects of plain values. -/
def compactLibrary : JsonLibrary where
  parse _ := .error []
  dump
    | .object members => .ok (123 :: printMembers members)
    | _ => .ok []
  sizeOfFloat _ := 0
  typeError _ _ := []

theorem length_escape (byte : UInt8) :
    (escape byte).length = escapedLength byte := by
  rw [escape, escapedLength, hasShortEscape]
  split_ifs <;> simp_all [Hexadecimal.encode, ascii]

theorem length_printString (text : Bytes) :
    (printString text).length = stringLength text := by
  have escaped : (text.flatMap escape).length = escapedLengths text := by
    rw [List.length_flatMap, escapedLengths]
    simp only [length_escape]
  rw [printString, List.length_cons, List.length_append,
    List.length_singleton, escaped, stringLength]
  omega

theorem length_printNumber (value : Nat) :
    (FlatJson.printNumber value).length = digitCount value := by
  rw [FlatJson.printNumber, digitCount]
  split_ifs with zero
  · rw [zero]
    rfl
  · rw [List.length_reverse, List.length_map,
      Nat.length_digits 10 value (by decide) zero]

theorem length_printMember (member : Bytes × Json) :
    (printMember member).length = memberLength member := by
  have value : (printValue member.2).length = valueLength member.2 := by
    cases same : member.2 with
    | string value => exact length_printString value
    | unsigned value => exact length_printNumber value.toNat
    | boolean value => cases value <;> rfl
    | null => rfl
    | integer _ => rfl
    | float _ => rfl
    | array _ => rfl
    | object _ => rfl
  rw [printMember, List.length_append, List.length_cons,
    length_printString, memberLength, value]
  omega

theorem length_printMembers
    {members : List (Bytes × Json)}
    (nonempty : members ≠ []) :
    (printMembers members).length + 1 = objectLength members := by
  induction members with
  | nil => exact absurd rfl nonempty
  | cons member rest inductionHypothesis =>
      have first := length_printMember member
      cases rest with
      | nil =>
          rw [printMembers, List.length_append, first, objectLength,
            List.map_singleton, List.sum_singleton, List.length_singleton]
          omega
      | cons second others =>
          have later := inductionHypothesis (List.cons_ne_nil _ _)
          rw [printMembers, List.length_append, List.length_cons, first]
          · rw [objectLength, List.map_cons, List.sum_cons]
            rw [objectLength] at later
            omega
          · exact fun nothing => List.cons_ne_nil _ _ nothing

theorem compactDump_compactLibrary : CompactDump compactLibrary where
  dumped members nonempty _ _ :=
    ⟨123 :: printMembers members, rfl, length_printMembers nonempty⟩

/-! ## Two empty files -/

/-- The SHA-256 digest of nothing. -/
def emptyDigest : Bytes :=
  [0xe3, 0xb0, 0xc4, 0x42, 0x98, 0xfc, 0x1c, 0x14, 0x9a, 0xfb, 0xf4, 0xc8,
    0x99, 0x6f, 0xb9, 0x24, 0x27, 0xae, 0x41, 0xe4, 0x64, 0x9b, 0x93, 0x4c,
    0xa4, 0x95, 0x99, 0x1b, 0x78, 0x52, 0xb8, 0x55]

/-- A library that knows this digest only. -/
def emptyDigestLibrary : DigestLibrary :=
  ⟨Unit, some (), some, fun _ _ => none, fun _ => some emptyDigest⟩

theorem isSha256_emptyDigestLibrary : IsSha256 emptyDigestLibrary := by
  intro mdctx data finalized
  cases finalized
  rfl

/-- A tree with an empty file of this name. -/
def treeWith (name : PathName) : FileTree :=
  FileTree.empty.place [name] (.file [])

section TreeWith

variable {name : PathName} (isName : IsName name)

include isName

theorem status_treeWith :
    status (treeWith name) [] name = some (.file []) := by
  have relative := isAbsolute_of_no_slash isName.no_slash
  have resolved : FileTree.empty.resolve [] name = some [name] := by
    rw [FileTree.resolve, FileTree.native_of_no_nul isName.no_nul,
      if_neg isName.nonempty, relative, if_neg Bool.false_ne_true,
      components_of_no_slash isName.no_slash]
    exact FileTree.walk_name FileTree.empty.root isName
  have possible : FileTree.empty.CanPlace [name] :=
    @FileTree.canPlace_concat FileTree.empty [] name isName
      FileTree.empty.root (Option.some_ne_none _).symm
  rw [status, treeWith, resolve_place resolved possible, Option.bind_some]
  exact FileTree.node_place_self possible _

theorem regularFile_treeWith :
    regularFile (treeWith name) [] name = some [] := by
  rw [regularFile, status_treeWith isName]

theorem filename_treeWith : filename name = name := by
  rw [filename, components_of_no_slash isName.no_slash]
  rfl

theorem createSendMessage_treeWith (isCompressed : Bool) :
    createSendMessage emptyDigestLibrary (treeWith name) [] name
        isCompressed =
      .ok (sendMessage name 0 (binaryToHumanReadable emptyDigest)
        isCompressed) := by
  have isThere : fileExists (treeWith name) [] name = true := by
    rw [fileExists, status_treeWith isName]
    rfl
  have hashes : calculateFileHash emptyDigestLibrary (treeWith name) [] name =
      .ok (binaryToHumanReadable emptyDigest) := by
    rw [calculateFileHash, status_treeWith isName]
    rfl
  rw [createSendMessage, isThere, regularFile_treeWith isName, hashes,
    filename_treeWith isName]
  rfl

end TreeWith

/-- A name with some of the characters that are escaped. -/
def quotedName : PathName :=
  ascii "a\"b\\c"

theorem metadata_arrive_iff_quoted :
    ∃ text,
      compactLibrary.dump (sendMessage quotedName 0
          (binaryToHumanReadable emptyDigest) false) = .ok text ∧
        Arrives text := by
  have isName : IsName quotedName := by decide
  rcases metadata_arrive_iff compactDump_compactLibrary
      isSha256_emptyDigestLibrary (regularFile_treeWith isName)
      (by decide +kernel) (by decide +kernel) (by decide)
      (createSendMessage_treeWith isName false) with
    ⟨text, dumped, arrives, -⟩
  exact ⟨text, dumped, arrives.2 (by decide +kernel)⟩

/-- A name of 143 control characters. -/
def controlsName : PathName :=
  List.replicate 143 1

/-- It is a name that a file can have, but its metadata do not arrive. -/
theorem not_metadata_arrive :
    (IsName controlsName ∧ IsUtf8 controlsName ∧
      controlsName.length ≤ 255) ∧
    createSendMessage emptyDigestLibrary (treeWith controlsName) []
        controlsName true =
      .ok (sendMessage controlsName 0 (binaryToHumanReadable emptyDigest)
        true) ∧
    ∀ text,
      compactLibrary.dump (sendMessage controlsName 0
          (binaryToHumanReadable emptyDigest) true) = .ok text →
        ¬ Arrives text ∧ RefusedBySize text := by
  have isName : IsName controlsName := by decide +kernel
  have nameFits : controlsName.length ≤ 255 := by
    rw [controlsName, List.length_replicate]
    decide
  refine ⟨⟨isName, by decide +kernel, nameFits⟩,
    createSendMessage_treeWith isName true, ?_⟩
  intro text dumped
  have long : text.length = 1003 := by
    rw [sendMessage_members] at dumped
    cases dumped
    decide +kernel
  constructor
  · intro arrives
    have short := arrives.short
    rw [long] at short
    exact absurd short (by decide)
  · apply refusedBySize_of_long
    · rw [long]
      decide
    · rw [long]
      decide

end DropFile.Client.MetadataSizes
