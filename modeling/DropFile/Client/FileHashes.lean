import DropFile.Client.ReceivedFiles

/-!
# Hashes of files

The hash of a file is the hexadecimal text of the digest of its content,
whatever buffers the content was read in, and two hashes are the same text
exactly if the digests are the same.
-/

namespace DropFile.Client.FileHashes

open DropFile.General
open DropFile.General.Processes.Process
open DropFile.General.PathNames
open DropFile.General.Files
open DropFile.Streams
open DropFile.FileSystem
open DropFile.Utils
open DropFile.SessionMessages
open DropFile.Client.DropFileReceiveClient
open DropFile.Client.Announcements
open DropFile.Client.ReceivedFiles

/-! ## Formatted output -/

/-- A `std::ostringstream` with the part of its format that is set. -/
structure OStringStream where
  text : Bytes
  base : Nat
  width : Nat
  fill : UInt8

namespace OStringStream

/-- A stream that has just been constructed. -/
def empty : OStringStream :=
  ⟨[], 10, 0, 32⟩

/-- `std::hex`. -/
def hex (stream : OStringStream) : OStringStream :=
  { stream with base := 16 }

/-- `std::setw`. -/
def setw (width : Nat) (stream : OStringStream) : OStringStream :=
  { stream with width := width }

/-- `std::setfill`. -/
def setfill (fill : UInt8) (stream : OStringStream) : OStringStream :=
  { stream with fill := fill }

/-- `stream << value` for an `int` that is not negative. -/
def insert (value : Nat) (stream : OStringStream) : OStringStream :=
  { stream with
    text :=
      stream.text ++
        Hexadecimal.padded stream.width stream.fill
          (Hexadecimal.numeral stream.base value)
    -- the width holds for one value only
    width := 0 }

end OStringStream

/-- One pass of the loop of `binaryToHumanReadable`. -/
def insertByte (hexStr : OStringStream) (byte : UInt8) : OStringStream :=
  hexStr.hex |>.setw 2 |>.setfill 48 |>.insert byte.toNat

/-- `hexStr` at the end of `binaryToHumanReadable`. -/
def hexStrOf (data : Bytes) : OStringStream :=
  data.foldl insertByte OStringStream.empty

theorem insertByte_text (hexStr : OStringStream) (byte : UInt8) :
    (insertByte hexStr byte).text =
      hexStr.text ++ Hexadecimal.encode [byte] := by
  have digits := Hexadecimal.padded_numeral byte
  exact congrArg (hexStr.text ++ ·) digits

theorem foldl_insertByte_text (hexStr : OStringStream) (data : Bytes) :
    (data.foldl insertByte hexStr).text =
      hexStr.text ++ Hexadecimal.encode data := by
  induction data generalizing hexStr with
  | nil => exact (List.append_nil _).symm
  | cons byte rest inductionHypothesis =>
      rw [List.foldl_cons, inductionHypothesis, insertByte_text,
        List.append_assoc]
      rfl

theorem hexStrOf_text (data : Bytes) :
    (hexStrOf data).text = Hexadecimal.encode data :=
  foldl_insertByte_text OStringStream.empty data

/-! ## The digest of what is read -/

/--
The digest is that of the concatenation of what the updates get, in any
number of pieces.
-/
structure Computes (digest : DigestLibrary) (sha256 : Bytes → Bytes) :
    Prop where
  updates : ∃ created mdctx,
    digest.create = some created ∧
    digest.digestInit created = some mdctx ∧
    ∀ buffers : List Bytes, ∃ last,
      buffers.foldlM digest.digestUpdate mdctx = some last ∧
      digest.digestFinal last = some (sha256 buffers.flatten)
  length : ∀ content, (sha256 content).length = 32

variable {digest : DigestLibrary}

theorem updateAll_of_not_good
    {file : IStream}
    (notGood : file.good = false)
    (passes : Nat) (mdctx : digest.Context) :
    updateAll digest passes file mdctx = .ok mdctx := by
  cases passes with
  | zero => rfl
  | succ passes =>
      rw [updateAll, notGood]
      rfl

/-- A pass that fills the buffer updates the digest and goes on. -/
theorem updateAll_full
    {before buffer after : Bytes}
    (full : buffer.length = hashBufferSize)
    {mdctx next : digest.Context}
    (updates : digest.digestUpdate mdctx buffer = some next)
    (passes : Nat) :
    updateAll digest (passes + 1)
        (IStream.goodAt (before ++ (buffer ++ after)) before.length) mdctx =
      updateAll digest passes
        (IStream.goodAt (before ++ buffer ++ after)
          (before ++ buffer).length) next := by
  have reads := @IStream.read_goodAt_full before buffer after
  rw [full] at reads
  rw [updateAll, reads]
  simp only [updates, List.append_assoc, List.length_append, full]
  rfl

/-- A pass that meets the end of the file is the last one. -/
theorem updateAll_short
    {before rest : Bytes}
    (short : rest.length < hashBufferSize)
    {mdctx last : digest.Context}
    (updates :
      (if rest.length > 0 then digest.digestUpdate mdctx rest
        else some mdctx) = some last)
    (passes : Nat) :
    updateAll digest (passes + 1)
        (IStream.goodAt (before ++ rest) before.length) mdctx =
      .ok last := by
  have ends := @updateAll_of_not_good digest
    ⟨before ++ rest, before.length + rest.length, true, true⟩ rfl passes last
  rw [updateAll, IStream.read_goodAt_short short]
  split_ifs at updates with nonempty
  · simp only [if_pos nonempty, updates]
    exact ends
  · cases updates
    simp only [if_neg nonempty]
    exact ends

/--
The loop hands the rest of the file to the digest piece by piece, without
gaps or repetitions.
-/
theorem exists_buffers
    (passes : Nat) (rest : Bytes)
    (enough : rest.length < passes * hashBufferSize) :
    ∃ buffers : List Bytes,
      buffers.flatten = rest ∧
      ∀ (before : Bytes) (mdctx last : digest.Context),
        buffers.foldlM digest.digestUpdate mdctx = some last →
        updateAll digest passes
            (IStream.goodAt (before ++ rest) before.length) mdctx =
          .ok last := by
  induction passes generalizing rest with
  | zero => simp at enough
  | succ passes inductionHypothesis =>
      rcases Nat.lt_or_ge rest.length hashBufferSize with short | full
      · refine ⟨if rest.length > 0 then [rest] else [], ?_, ?_⟩
        · split_ifs with nonempty
          · exact List.flatten_singleton
          · exact (List.eq_nil_of_length_eq_zero
              (Nat.eq_zero_of_not_pos nonempty)).symm
        · intro before mdctx last updates
          apply updateAll_short short
          split_ifs at updates ⊢ with nonempty
          · simpa using updates
          · exact updates
      · have fewer :
            (rest.drop hashBufferSize).length < passes * hashBufferSize := by
          rw [List.length_drop]
          rw [Nat.succ_mul] at enough
          omega
        rcases inductionHypothesis _ fewer with ⟨buffers, whole, loops⟩
        refine ⟨rest.take hashBufferSize :: buffers, ?_, ?_⟩
        · rw [List.flatten_cons, whole, List.take_append_drop]
        · intro before mdctx last updates
          have isFull : (rest.take hashBufferSize).length =
              hashBufferSize :=
            List.length_take_of_le full
          rw [List.foldlM_cons, Option.bind_eq_bind,
            Option.bind_eq_some_iff] at updates
          rcases updates with ⟨next, updated, updates⟩
          have pass := @updateAll_full digest before _
            (rest.drop hashBufferSize) isFull mdctx next updated passes
          rw [List.take_append_drop] at pass
          rw [pass]
          exact loops _ next last updates

/-- The hash of an open file is the text of the digest of its content. -/
theorem hashContent_of_computes
    {sha256 : Bytes → Bytes} {mdctx : digest.Context} (content : Bytes)
    (updates : ∀ buffers : List Bytes, ∃ last,
      buffers.foldlM digest.digestUpdate mdctx = some last ∧
      digest.digestFinal last = some (sha256 buffers.flatten)) :
    hashContent digest content mdctx =
      .ok (Hexadecimal.encode (sha256 content)) := by
  have enough : content.length < (content.length + 1) * hashBufferSize :=
    Nat.lt_of_lt_of_le (Nat.lt_succ_self _)
      (Nat.le_mul_of_pos_right _ (by decide))
  rcases @exists_buffers digest (content.length + 1) content enough with
    ⟨buffers, whole, loops⟩
  rcases updates buffers with ⟨last, updated, final⟩
  have read : updateAll digest (content.length + 1)
      (IStream.ofBytes content) mdctx = .ok last :=
    loops [] mdctx last updated
  rw [whole] at final
  rw [hashContent, read]
  show (orUtilsException _ (digest.digestFinal last) >>= _) = _
  rw [final]
  rfl

theorem calculateFileHash_of_computes
    {sha256 : Bytes → Bytes}
    (computes : Computes digest sha256)
    {tree : FileTree} {workingDirectory : Location} {path : PathName}
    {content : Bytes}
    (isFile : regularFile tree workingDirectory path = some content) :
    calculateFileHash digest tree workingDirectory path =
      .ok (Hexadecimal.encode (sha256 content)) := by
  rcases computes.updates with ⟨created, mdctx, creates, inits, updates⟩
  have found := status_of_regularFile isFile
  rw [calculateFileHash, creates]
  show (orUtilsException _ (digest.digestInit created) >>= _) = _
  rw [inits, found]
  exact hashContent_of_computes content updates

/-! ## The comparison of two hashes -/

variable {Peer : Type} [DecidableEq Peer]
variable {machine : Machine} {sha256 : Bytes → Bytes}

/-- A received file passes against the hash of a content with its digest. -/
theorem validateFileHash_plays_iff
    (computes : Computes machine.digest sha256)
    {receiving : Receiving} {path : PathName} {received : Bytes}
    (isReceived : regularFile receiving.disk.tree machine.workingDirectory
      path = some received)
    (sent : Bytes) :
    Plays (validateFileHash machine path
        (Hexadecimal.encode (sha256 sent)) : ReceiverProcess Peer Unit)
      receiving silence silence (.done ()) receiving ↔
        sha256 received = sha256 sent := by
  have hashes := calculateFileHash_of_computes computes isReceived
  constructor
  · intro passes
    by_contra different
    have fails := @validateFileHash_plays_mismatch Peer machine _ path _ _
      receiving hashes
      (fun same => different (Hexadecimal.encode_injective same))
    have failed : Halted
        (.failed hashMismatch : ReceiverProcess Peer Unit) := trivial
    have done : Halted (.done () : ReceiverProcess Peer Unit) := trivial
    have same := fails.deterministic_of_halted silence failed done passes
      (fun _ => List.prefix_rfl) (fun _ => List.prefix_rfl)
    cases same.2.2.1
  · intro same
    rw [same] at hashes
    exact validateFileHash_plays hashes

/--
The hash of a sent file is 64 hexadecimal digits in lower case, for the digest
of all of its bytes, and what was received passes against it exactly if it has
the same digest.
-/
theorem calculateFileHash_validates
    {senderDigest : DigestLibrary}
    (senderComputes : Computes senderDigest sha256)
    (computes : Computes machine.digest sha256)
    {tree : FileTree} {workingDirectory : Location} {filePath : PathName}
    {sent : Bytes}
    (isSent : regularFile tree workingDirectory filePath = some sent)
    {receiving : Receiving} {path : PathName} {received : Bytes}
    (isReceived : regularFile receiving.disk.tree machine.workingDirectory
      path = some received) :
    ∃ fileHash,
      calculateFileHash senderDigest tree workingDirectory filePath =
        .ok fileHash ∧
      fileHash = (hexStrOf (sha256 sent)).text ∧
      fileHash = Hexadecimal.encode (sha256 sent) ∧
      fileHash.length = 64 ∧
      (∀ byte ∈ fileHash, Hexadecimal.IsDigit byte) ∧
      Function.Injective binaryToHumanReadable ∧
      (Plays (validateFileHash machine path fileHash :
          ReceiverProcess Peer Unit) receiving silence silence (.done ())
          receiving ↔
        sha256 received = sha256 sent) := by
  refine ⟨_, calculateFileHash_of_computes senderComputes isSent,
    (hexStrOf_text _).symm, rfl, ?_, ?_, ?_,
    validateFileHash_plays_iff computes isReceived sent⟩
  · rw [Hexadecimal.encode_length, senderComputes.length]
  · exact fun _ member => Hexadecimal.isDigit_of_mem_encode member
  · rw [binaryToHumanReadable_eq]
    exact Hexadecimal.encode_injective

/-- A library that collects what it gets until the end. -/
def collecting (sha256 : Bytes → Bytes) : DigestLibrary where
  Context := Bytes
  create := some []
  digestInit _ := some []
  digestUpdate mdctx buffer := some (mdctx ++ buffer)
  digestFinal mdctx := some (sha256 mdctx)

theorem foldlM_collecting (mdctx : Bytes) (buffers : List Bytes) :
    buffers.foldlM (collecting sha256).digestUpdate mdctx =
      some (mdctx ++ buffers.flatten) := by
  induction buffers generalizing mdctx with
  | nil => exact congrArg some (List.append_nil mdctx).symm
  | cons buffer rest inductionHypothesis =>
      have collected := inductionHypothesis (mdctx ++ buffer)
      rw [List.append_assoc, ← List.flatten_cons] at collected
      exact collected

theorem computes_collecting
    (length : ∀ content, (sha256 content).length = 32) :
    Computes (collecting sha256) sha256 where
  updates := by
    refine ⟨[], [], rfl, rfl, ?_⟩
    intro buffers
    exact ⟨_, foldlM_collecting [] buffers, rfl⟩
  length := length

/-- The SHA-256 digest of no bytes. -/
def digestOfNothing : Bytes :=
  [0xe3, 0xb0, 0xc4, 0x42, 0x98, 0xfc, 0x1c, 0x14, 0x9a, 0xfb, 0xf4, 0xc8,
    0x99, 0x6f, 0xb9, 0x24, 0x27, 0xae, 0x41, 0xe4, 0x64, 0x9b, 0x93, 0x4c,
    0xa4, 0x95, 0x99, 0x1b, 0x78, 0x52, 0xb8, 0x55]

/-- The digests of `abc` and of an empty file. -/
def knownSha256 (content : Bytes) : Bytes :=
  if content = ascii "abc" then digestOfAbc else digestOfNothing

theorem computes_knownSha256 :
    Computes (collecting knownSha256) knownSha256 := by
  apply computes_collecting
  intro content
  rw [knownSha256]
  split_ifs
  · rfl
  · rfl

def hashingMachine : Machine :=
  { smallMachine with digest := collecting knownSha256 }

/-- A tree with a file `f`. -/
def treeWithFile (content : Bytes) : FileTree :=
  FileTree.empty.place [ascii "f"] (.file content)

/-- The file `abc` was sent, and an empty file was received. -/
theorem calculateFileHash_validates_abc :
    ∃ fileHash,
      calculateFileHash (collecting knownSha256)
        (treeWithFile (ascii "abc")) [] (ascii "f") = .ok fileHash ∧
      fileHash = (hexStrOf digestOfAbc).text ∧
      fileHash = Hexadecimal.encode digestOfAbc ∧
      fileHash.length = 64 ∧
      (∀ byte ∈ fileHash, Hexadecimal.IsDigit byte) ∧
      Function.Injective binaryToHumanReadable ∧
      (Plays (validateFileHash hashingMachine (ascii "f") fileHash :
          ReceiverProcess Unit Unit)
          ⟨⟨treeWithFile [], []⟩, none, none⟩ silence silence (.done ())
          ⟨⟨treeWithFile [], []⟩, none, none⟩ ↔
        digestOfNothing = digestOfAbc) :=
  @calculateFileHash_validates Unit _ hashingMachine knownSha256
    (collecting knownSha256) computes_knownSha256 computes_knownSha256
    (treeWithFile (ascii "abc")) [] (ascii "f") (ascii "abc")
    (by decide +kernel) ⟨⟨treeWithFile [], []⟩, none, none⟩ (ascii "f") []
    (by decide +kernel)

end DropFile.Client.FileHashes
