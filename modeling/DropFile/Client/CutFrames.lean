import DropFile.Client.DecompressRuns

/-!
# Payloads that end inside a frame

`decompress` does not look at the last hint of the library, so a payload that
ends inside a frame is not noticed.  Every other payload is either decoded
completely or refused.
-/

namespace DropFile.Client.CutFrames

open DropFile.General.FuelledProgram
open DropFile.Streams
open DropFile.Client.Zstd
open DropFile.Client.DecompressRuns

/-! ## Frames and their beginnings -/

/-- The complete frames, and what a decoder can have taken of a frame. -/
structure FrameFormat where
  IsFrame : Bytes → Prop
  IsUnfinished : Bytes → Prop
  frame_ne_nil : ∀ {frame}, IsFrame frame → frame ≠ []
  unfinished_ne_nil : ∀ {rest}, IsUnfinished rest → rest ≠ []
  not_frame : ∀ {rest}, IsUnfinished rest → ¬ IsFrame rest
  unfinished_of_frame :
    ∀ {frame part}, IsFrame frame → part <+: frame → part ≠ [] →
      part ≠ frame → IsUnfinished part
  unfinished_of_unfinished :
    ∀ {rest part}, IsUnfinished rest → part <+: rest → part ≠ [] →
      IsUnfinished part

namespace FrameFormat

variable (format : FrameFormat)

/-- Complete frames, one after another. -/
def Complete (bytes : Bytes) : Prop :=
  ∃ frames : List Bytes, (∀ frame ∈ frames, format.IsFrame frame) ∧
    bytes = frames.flatten

/-- Complete frames and then a part of one more. -/
def EndsInside (bytes : Bytes) : Prop :=
  ∃ (frames : List Bytes) (rest : Bytes),
    (∀ frame ∈ frames, format.IsFrame frame) ∧
    format.IsUnfinished rest ∧ bytes = frames.flatten ++ rest

/-- There is nothing in the bytes that no frame allows. -/
def Readable (bytes : Bytes) : Prop :=
  format.Complete bytes ∨ format.EndsInside bytes

variable {format}

theorem complete_nil : format.Complete [] := by
  refine ⟨[], ?_, rfl⟩
  intro frame member
  cases member

theorem Readable.cons
    {frame bytes : Bytes}
    (isFrame : format.IsFrame frame)
    (readable : format.Readable bytes) :
    format.Readable (frame ++ bytes) := by
  rcases readable with ⟨frames, all, rfl⟩ | ⟨frames, rest, all, begun, rfl⟩
  · left
    exact ⟨frame :: frames, List.forall_mem_cons.2 ⟨isFrame, all⟩, rfl⟩
  · right
    refine ⟨frame :: frames, rest, List.forall_mem_cons.2 ⟨isFrame, all⟩,
      begun, ?_⟩
    rw [List.flatten_cons, List.append_assoc]

/-- The frames and the rest that follows them are readable up to any byte. -/
theorem readable_of_prefix_flatten
    {frames : List Bytes} {rest part : Bytes}
    (all : ∀ frame ∈ frames, format.IsFrame frame)
    (begun : rest = [] ∨ format.IsUnfinished rest)
    (isPrefix : part <+: frames.flatten ++ rest) :
    format.Readable part := by
  induction frames generalizing part with
  | nil =>
      rw [List.flatten_nil, List.nil_append] at isPrefix
      by_cases empty : part = []
      · subst empty
        exact Or.inl complete_nil
      · rcases begun with rfl | unfinished
        · exact absurd (List.prefix_nil.1 isPrefix) empty
        · right
          exact ⟨[], part, List.forall_mem_nil _,
            format.unfinished_of_unfinished unfinished isPrefix empty, rfl⟩
  | cons frame frames inductionHypothesis =>
      rw [List.forall_mem_cons] at all
      rw [List.flatten_cons, List.append_assoc] at isPrefix
      rcases List.prefix_or_prefix_of_prefix isPrefix
          (List.prefix_append frame _) with within | ⟨later, rfl⟩
      · by_cases empty : part = []
        · subst empty
          exact Or.inl complete_nil
        · by_cases whole : part = frame
          · subst whole
            have readable : format.Readable (part ++ []) :=
              Readable.cons all.1 (Or.inl complete_nil)
            rwa [List.append_nil] at readable
          · right
            exact ⟨[], part, List.forall_mem_nil _,
              format.unfinished_of_frame all.1 within empty whole, rfl⟩
      · rw [List.prefix_append_right_inj] at isPrefix
        exact Readable.cons all.1 (inductionHypothesis all.2 isPrefix)

theorem Readable.of_prefix
    {part bytes : Bytes}
    (readable : format.Readable bytes)
    (isPrefix : part <+: bytes) :
    format.Readable part := by
  rcases readable with ⟨frames, all, rfl⟩ | ⟨frames, rest, all, begun, rfl⟩
  · rw [← List.append_nil frames.flatten] at isPrefix
    exact readable_of_prefix_flatten all (Or.inl rfl) isPrefix
  · exact readable_of_prefix_flatten all (Or.inr begun) isPrefix

/-- Two frames at the same place are the same. -/
theorem frame_unique
    {first second firstRest secondRest : Bytes}
    (isFirst : format.IsFrame first)
    (isSecond : format.IsFrame second)
    (same : first ++ firstRest = second ++ secondRest) :
    first = second := by
  by_contra different
  have isPrefix : first <+: second ++ secondRest := by
    rw [← same]
    exact List.prefix_append _ _
  rcases List.prefix_or_prefix_of_prefix isPrefix
      (List.prefix_append second _) with shorter | longer
  · exact format.not_frame (format.unfinished_of_frame isSecond shorter
      (format.frame_ne_nil isFirst) different) isFirst
  · exact format.not_frame (format.unfinished_of_frame isFirst longer
      (format.frame_ne_nil isSecond) (Ne.symm different)) isSecond

theorem flatten_ne_flatten_append
    {frames others : List Bytes} {rest : Bytes}
    (all : ∀ frame ∈ frames, format.IsFrame frame)
    (allOthers : ∀ frame ∈ others, format.IsFrame frame)
    (begun : format.IsUnfinished rest) :
    frames.flatten ≠ others.flatten ++ rest := by
  intro same
  induction others generalizing frames with
  | nil =>
      cases frames with
      | nil => exact format.unfinished_ne_nil begun same.symm
      | cons frame frames =>
          have isFrame := all frame List.mem_cons_self
          have isPrefix : frame <+: rest := by
            rw [← List.nil_append rest, ← List.flatten_nil, ← same]
            exact List.prefix_append _ _
          exact format.not_frame (format.unfinished_of_unfinished begun
            isPrefix (format.frame_ne_nil isFrame)) isFrame
  | cons other others inductionHypothesis =>
      rw [List.forall_mem_cons] at allOthers
      rw [List.flatten_cons, List.append_assoc] at same
      cases frames with
      | nil =>
          have nothing := List.append_eq_nil_iff.1 same.symm
          exact format.frame_ne_nil allOthers.1 nothing.1
      | cons frame frames =>
          rw [List.forall_mem_cons] at all
          rw [List.flatten_cons] at same
          have sameFrame := frame_unique all.1 allOthers.1 same
          subst sameFrame
          exact inductionHypothesis all.2 allOthers.2
            (List.append_cancel_left same)

theorem Complete.not_endsInside
    {bytes : Bytes}
    (complete : format.Complete bytes) :
    ¬ format.EndsInside bytes := by
  rcases complete with ⟨frames, all, rfl⟩
  rintro ⟨others, rest, allOthers, begun, same⟩
  exact flatten_ne_flatten_append all allOthers begun same

end FrameFormat

/-! ## The decoder -/

/--
What the documentation of libzstd says about the results of its streaming
decoder.  `Taken dctx taken` says that the decoder has taken these bytes since
it was created.  The result is 0 when a frame is complete, a hint when more
input is expected, and an error for bytes that no frame allows.
-/
structure DecoderContract (lib : Library) where
  format : FrameFormat
  Taken : lib.DCtx → Bytes → Prop
  toDeliver : lib.DCtx → Nat
  decoder : ∃ fresh, lib.createDCtx = some fresh ∧ Taken fresh []
  decompress_call :
    ∀ {dctx taken} (input : Bytes) {capacity : Nat},
      Taken dctx taken → input ≠ [] → 0 < capacity →
      let call := lib.decompressStream dctx input capacity
      (∃ name, call.result = .error name) ∧
          ¬ format.Readable (taken ++ input) ∨
        (call.result = .ok 0 ∧
            format.Complete (taken ++ input.take call.consumed) ∨
          (∃ hint, call.result = .ok (hint + 1)) ∧
            (format.EndsInside (taken ++ input.take call.consumed) ∨
              call.consumed = 0)) ∧
          call.consumed ≤ input.length ∧
          Taken call.context (taken ++ input.take call.consumed) ∧
          (0 < call.consumed ∨ toDeliver call.context < toDeliver dctx)

variable {lib : Library}

/-- What the decoder has taken is readable, and it refuses nothing else. -/
def DecoderContract.following (contract : DecoderContract lib) :
    Following lib where
  Taken dctx taken :=
    contract.Taken dctx taken ∧ contract.format.Readable taken
  Refused read := ¬ contract.format.Readable read
  toDeliver := contract.toDeliver
  created := by
    intro dctx created
    rcases contract.decoder with ⟨fresh, isFresh, taken⟩
    cases created.symm.trans isFresh
    exact ⟨taken, Or.inl FrameFormat.complete_nil⟩
  call := by
    intro dctx taken input capacity isTaken nonempty positive
    rcases contract.decompress_call input isTaken.1 nonempty positive with
      refused | ⟨result, bounded, later, progress⟩
    · exact Or.inl refused
    · right
      rcases result with ⟨zero, complete⟩ | ⟨⟨hint, more⟩, begun | none⟩
      · exact ⟨⟨0, zero⟩, bounded, ⟨later, Or.inl complete⟩, progress⟩
      · exact ⟨⟨hint + 1, more⟩, bounded, ⟨later, Or.inr begun⟩, progress⟩
      · refine ⟨⟨hint + 1, more⟩, bounded, ⟨later, ?_⟩, progress⟩
        rw [none, List.take_zero, List.append_nil]
        exact isTaken.2

/-! ## Noticing the end -/

/--
The run ends; it returns only from complete frames, and throws nothing but a
`ZSTDException`.
-/
def NoticesCut (format : FrameFormat) (lib : Library) (payload : Bytes)
    (streams : Streams) : Prop :=
  (Terminates fun fuel => decompress lib payload.length fuel streams) ∧
    ∀ fuel, Program.Satisfies (fun start => start = streams)
      (decompress lib payload.length fuel)
      (fun _ _ => format.Complete payload)
      (fun error _ => error.thrown = .zstd)

/-- A run on a readable payload returns. -/
theorem returns_of_readable
    (contract : DecoderContract lib) {before payload after : Bytes}
    (streams : Streams)
    (atPayload : streams.input =
      IStream.goodAt (around before payload after) before.length)
    (readable : contract.format.Readable payload) :
    ∃ fuel written later,
      decompress lib payload.length fuel streams =
        .returned written later := by
  rcases decompress_terminates contract.following before payload after
      streams atPayload with ⟨outcome, ended, settles⟩
  rcases settles.exists with ⟨fuel, ends⟩
  cases outcome with
  | returned written later => exact ⟨fuel, written, later, ends⟩
  | outOfFuel => exact absurd rfl ended
  | threw error later =>
      rcases (decompress_satisfies contract.following before payload after
          fuel).threw atPayload ends with
        ⟨-, read, isPrefix, refused⟩ | ⟨-, none⟩
      · exact absurd (readable.of_prefix isPrefix) refused
      · rcases contract.decoder with ⟨fresh, created, -⟩
        cases none.symm.trans created

/-- What the run has done when it ends, if the payload does not end inside. -/
theorem satisfies_of_not_endsInside
    (contract : DecoderContract lib) (before payload after : Bytes)
    (notInside : ¬ contract.format.EndsInside payload) (fuel : Nat) :
    Program.Satisfies
      (fun streams => streams.input =
        IStream.goodAt (around before payload after) before.length)
      (decompress lib payload.length fuel)
      (fun _ _ => contract.format.Complete payload)
      (fun error _ => error.thrown = .zstd) := by
  refine (decompress_satisfies contract.following before payload after
    fuel).weaken (fun _ start => start) ?_ ?_
  · rintro _ _ ⟨-, dctx, -, complete | inside⟩
    · exact complete
    · exact absurd inside notInside
  · rintro _ _ (⟨thrown, -⟩ | ⟨thrown, -⟩)
    · exact thrown
    · exact thrown

/--
Wherever the payload stands in a stream, `decompress` either restores complete
frames or throws, unless the payload ends inside a frame.
-/
theorem noticesCut_iff_not_endsInside
    (contract : DecoderContract lib) (before payload after : Bytes)
    (output : OStream) :
    NoticesCut contract.format lib payload
        ⟨IStream.goodAt (around before payload after) before.length,
          output⟩ ↔
      ¬ contract.format.EndsInside payload := by
  constructor
  · rintro ⟨-, satisfies⟩ inside
    rcases returns_of_readable contract
        ⟨IStream.goodAt (around before payload after) before.length,
          output⟩ rfl (Or.inr inside) with
      ⟨fuel, written, later, ends⟩
    exact ((satisfies fuel).returned rfl ends).not_endsInside inside
  · intro notInside
    refine ⟨decompress_terminates contract.following before payload after _
      rfl, ?_⟩
    intro fuel
    refine (satisfies_of_not_endsInside contract before payload after
      notInside fuel).weaken ?_ (fun _ _ complete => complete)
        (fun _ _ thrown => thrown)
    rintro streams rfl
    rfl

/-! ## Frames that a zero ends -/

/-- Frames are bytes other than 0, and then a 0. -/
def zeroEnded : FrameFormat where
  IsFrame frame := ∃ body, (∀ byte ∈ body, byte ≠ 0) ∧ frame = body ++ [0]
  IsUnfinished rest := rest ≠ [] ∧ ∀ byte ∈ rest, byte ≠ 0
  frame_ne_nil := by
    rintro _ ⟨body, -, rfl⟩ empty
    exact absurd (List.append_eq_nil_iff.1 empty).2 (by decide)
  unfinished_ne_nil := fun begun => begun.1
  not_frame := by
    rintro _ ⟨-, nonzero⟩ ⟨body, -, rfl⟩
    exact nonzero 0 (List.mem_append_right _ List.mem_cons_self) rfl
  unfinished_of_frame := by
    rintro _ part ⟨body, nonzero, rfl⟩ isPrefix nonempty different
    rcases List.prefix_concat_iff.1 isPrefix with same | within
    · exact absurd same different
    · exact ⟨nonempty, fun byte member =>
        nonzero byte (within.subset member)⟩
  unfinished_of_unfinished := by
    rintro _ part ⟨-, nonzero⟩ isPrefix nonempty
    exact ⟨nonempty, fun byte member =>
      nonzero byte (isPrefix.subset member)⟩

/-- A decoder that takes one byte at a call. -/
def decodeZeroEnded : Bytes → StreamCall Unit
  | [] => ⟨(), 0, [], .ok 1⟩
  | byte :: _ =>
      if byte = 0 then ⟨(), 1, [], .ok 0⟩ else ⟨(), 1, [byte], .ok 1⟩

/-- A library for these frames, without a compressor. -/
def zeroEndedLibrary : Library where
  CCtx := Unit
  DCtx := Unit
  dStreamInSize := 4
  dStreamOutSize := 4
  inSize_pos := Nat.succ_pos 3
  outSize_pos := Nat.succ_pos 3
  createCCtx := none
  setParameter cctx _ _ := .ok cctx
  resetSession cctx := .ok cctx
  compressStream2 _ _ _ _ := ⟨(), 0, [], .ok 0⟩
  createDCtx := some ()
  decompressStream _ input _ := decodeZeroEnded input

theorem decodeZeroEnded_consumed
    (dctx : zeroEndedLibrary.DCtx) (byte : UInt8) (rest : Bytes)
    (capacity : Nat) :
    (zeroEndedLibrary.decompressStream dctx (byte :: rest)
      capacity).consumed = 1 := by
  show (decodeZeroEnded (byte :: rest)).consumed = 1
  rw [decodeZeroEnded]
  split_ifs <;> rfl

/-- What can be read are frames and then bytes other than 0. -/
theorem split_of_readable
    {taken : Bytes}
    (readable : zeroEnded.Readable taken) :
    ∃ (frames : List Bytes) (rest : Bytes),
      (∀ frame ∈ frames, zeroEnded.IsFrame frame) ∧
      (∀ byte ∈ rest, byte ≠ 0) ∧ taken = frames.flatten ++ rest := by
  rcases readable with ⟨frames, all, rfl⟩ | ⟨frames, rest, all, begun, rfl⟩
  · exact ⟨frames, [], all, List.forall_mem_nil _,
      (List.append_nil _).symm⟩
  · exact ⟨frames, rest, all, begun.2, rfl⟩

theorem complete_zero
    {taken : Bytes}
    (readable : zeroEnded.Readable taken) :
    zeroEnded.Complete (taken ++ [0]) := by
  rcases split_of_readable readable with ⟨frames, rest, all, nonzero, rfl⟩
  refine ⟨frames ++ [rest ++ [0]], ?_, ?_⟩
  · rw [List.forall_mem_append, List.forall_mem_singleton]
    exact ⟨all, rest, nonzero, rfl⟩
  · rw [List.flatten_append, List.flatten_singleton, List.append_assoc]

theorem endsInside_nonzero
    {taken : Bytes} {byte : UInt8}
    (readable : zeroEnded.Readable taken)
    (nonzeroByte : byte ≠ 0) :
    zeroEnded.EndsInside (taken ++ [byte]) := by
  rcases split_of_readable readable with ⟨frames, rest, all, nonzero, rfl⟩
  refine ⟨frames, rest ++ [byte], all, ⟨?_, ?_⟩, List.append_assoc ..⟩
  · exact List.append_ne_nil_of_right_ne_nil _ (List.cons_ne_nil _ _)
  · rw [List.forall_mem_append, List.forall_mem_singleton]
    exact ⟨nonzero, nonzeroByte⟩

def zeroEndedContract : DecoderContract zeroEndedLibrary where
  format := zeroEnded
  Taken _ taken := zeroEnded.Readable taken
  toDeliver _ := 0
  decoder := ⟨(), rfl, Or.inl FrameFormat.complete_nil⟩
  decompress_call := by
    intro dctx taken input capacity readable nonempty positive
    rcases List.exists_cons_of_ne_nil nonempty with ⟨byte, rest, rfl⟩
    right
    by_cases zero : byte = 0
    · subst zero
      have complete := complete_zero readable
      exact ⟨Or.inl ⟨rfl, complete⟩, Nat.le_add_left _ _,
        Or.inl complete, Or.inl Nat.one_pos⟩
    · have called :
          zeroEndedLibrary.decompressStream dctx (byte :: rest) capacity =
            ⟨(), 1, [byte], .ok 1⟩ :=
        if_neg zero
      have inside := endsInside_nonzero readable zero
      rw [called]
      exact ⟨Or.inr ⟨⟨0, rfl⟩, Or.inl inside⟩, Nat.le_add_left _ _,
        Or.inr inside, Or.inl Nat.one_pos⟩

/-- A complete frame of two bytes. -/
theorem noticesCut_iff_not_endsInside_frame :
    NoticesCut zeroEnded zeroEndedLibrary [1, 0]
      ⟨IStream.ofBytes [1, 0], OStream.atEnd []⟩ := by
  have begun : zeroEnded.EndsInside ([] ++ [1]) :=
    endsInside_nonzero (Or.inl FrameFormat.complete_nil) (by decide)
  have complete : zeroEnded.Complete ([1] ++ [0]) :=
    complete_zero (Or.inr begun)
  exact (noticesCut_iff_not_endsInside zeroEndedContract [] [1, 0] []
    (OStream.atEnd [])).2 complete.not_endsInside

/-- Of a frame of two bytes only the first is there, and nobody notices. -/
theorem not_noticesCut_first_byte :
    ¬ NoticesCut zeroEnded zeroEndedLibrary [1]
      ⟨IStream.ofBytes [1], OStream.atEnd []⟩ := by
  intro notices
  have inside : zeroEnded.EndsInside [1] :=
    endsInside_nonzero (Or.inl FrameFormat.complete_nil) (by decide)
  have atPayload : IStream.ofBytes [1] =
      IStream.goodAt (around [] [1] []) ([] : Bytes).length := rfl
  rcases returns_of_readable zeroEndedContract
      ⟨IStream.ofBytes [1], OStream.atEnd []⟩ atPayload (Or.inr inside) with
    ⟨fuel, written, later, ends⟩
  exact ((notices.2 fuel).returned rfl ends).not_endsInside inside

end DropFile.Client.CutFrames
