import DropFile.Client.ZstdRoundTrip

/-!
# `zstd::decompress` on any payload

Whatever bytes `decompress` is given, it terminates, reads exactly the payload
when it returns, and throws nothing but a `ZSTDException`.  What the library
makes of the bytes is left open.
-/

namespace DropFile.Client.DecompressRuns

open DropFile.General.FuelledProgram
open DropFile.Streams
open DropFile.Client.Zstd
open DropFile.Client.ZstdRoundTrip

variable {lib : Library}

/--
A view of what a decoder has taken so far and of what it refuses.  Every call
refuses its input or makes progress.
-/
structure Following (lib : Library) where
  Taken : lib.DCtx → Bytes → Prop
  Refused : Bytes → Prop
  toDeliver : lib.DCtx → Nat
  created : ∀ {dctx}, lib.createDCtx = some dctx → Taken dctx []
  call :
    ∀ {dctx taken} (input : Bytes) {capacity : Nat},
      Taken dctx taken → input ≠ [] → 0 < capacity →
      let call := lib.decompressStream dctx input capacity
      (∃ name, call.result = .error name) ∧ Refused (taken ++ input) ∨
        (∃ hint, call.result = .ok hint) ∧
          call.consumed ≤ input.length ∧
          Taken call.context (taken ++ input.take call.consumed) ∧
          (0 < call.consumed ∨ toDeliver call.context < toDeliver dctx)

variable (follow : Following lib)

/-! ## One chunk -/

/-- A part of the chunk has been consumed. -/
def InChunk (chunk taken : Bytes) (input : IStream)
    (current : lib.DCtx × Nat × Nat) (streams : Streams) : Prop :=
  current.2.1 ≤ chunk.length ∧
    follow.Taken current.1 (taken ++ chunk.take current.2.1) ∧
    streams.input = input

/-- Unread input first, then what the decoder still has to give out. -/
def leftOfChunk (chunk : Bytes) (current : lib.DCtx × Nat × Nat)
    (_ : Streams) : Nat × Nat :=
  (chunk.length - current.2.1, follow.toDeliver current.1)

/-- What a pass over a chunk can do. -/
theorem decompressPass_cases
    {chunk taken : Bytes} {input : IStream}
    {current : lib.DCtx × Nat × Nat} {streams : Streams}
    (inChunk : InChunk follow chunk taken input current streams) :
    (∃ result later,
      decompressPass lib chunk current streams =
        .returned (.inr result) later ∧
      follow.Taken result.1 (taken ++ chunk) ∧ later.input = input) ∨
    (∃ error later,
      decompressPass lib chunk current streams = .threw error later ∧
      error.thrown = .zstd ∧ follow.Refused (taken ++ chunk)) ∨
    ∃ next later,
      decompressPass lib chunk current streams =
        .returned (.inl next) later ∧
      InChunk follow chunk taken input next later ∧
      Smaller (leftOfChunk follow chunk next later)
        (leftOfChunk follow chunk current streams) := by
  rcases current with ⟨dctx, inputPos, bytesWritten⟩
  rcases inChunk with ⟨inRange, isTaken, rfl⟩
  dsimp only at inRange isTaken
  rcases Nat.lt_or_eq_of_le inRange with unread | rfl
  · right
    have nonempty : chunk.drop inputPos ≠ [] := by
      intro empty
      exact absurd (List.drop_eq_nil_iff.1 empty) (Nat.not_le.2 unread)
    rcases follow.call (chunk.drop inputPos) isTaken nonempty
        lib.outSize_pos with
      ⟨⟨name, refuses⟩, refused⟩ | ⟨⟨hint, ok⟩, bounded, later, progress⟩
    · left
      rw [List.append_assoc, List.take_append_drop] at refused
      refine ⟨zstdException name, streams, ?_, rfl, refused⟩
      simp only [decompressPass, unread, refuses, assertOk,
        Program.bind_run, Program.raise_run, if_true]
    · right
      rw [List.length_drop] at bounded
      rw [take_append_take_drop] at later
      have stillInRange :
          inputPos +
            (lib.decompressStream dctx (chunk.drop inputPos)
              lib.dStreamOutSize).consumed ≤ chunk.length := by
        omega
      refine ⟨_, _, decompressPass_run bytesWritten streams unread ok,
        ⟨stillInRange, later, rfl⟩, ?_⟩
      exact smaller_of_progress stillInRange progress
  · left
    rw [List.take_length] at isTaken
    exact ⟨_, _, decompressPass_end, isTaken, rfl⟩

theorem decompressLoop_satisfies
    (chunk taken : Bytes) (input : IStream)
    (current : lib.DCtx × Nat × Nat) (fuel : Nat) :
    Program.Satisfies (InChunk follow chunk taken input current)
      (Program.loop (fun _ => decompressPass lib chunk) fuel current)
      (fun result later =>
        follow.Taken result.1 (taken ++ chunk) ∧ later.input = input)
      (fun error _ =>
        error.thrown = .zstd ∧ follow.Refused (taken ++ chunk)) := by
  refine Program.Satisfies.loop (InChunk follow chunk taken input) ?_ fuel
    current
  intro _ current streams inChunk
  rcases decompressPass_cases follow inChunk with
    ⟨result, later, ends, post⟩ | ⟨error, later, ends, post⟩ |
      ⟨next, later, ends, kept, -⟩
  · rw [ends]
    exact post
  · rw [ends]
    exact post
  · rw [ends]
    exact kept

theorem decompressLoop_terminates
    {chunk taken : Bytes} {input : IStream}
    {current : lib.DCtx × Nat × Nat} {streams : Streams}
    (inChunk : InChunk follow chunk taken input current streams) :
    Terminates fun fuel =>
      Program.loop (fun _ => decompressPass lib chunk) fuel current
        streams := by
  refine Terminates.loop_of_variant smaller_wellFounded
    (leftOfChunk follow chunk) (InChunk follow chunk taken input) ?_ ?_
    current streams inChunk
  · intro current streams inChunk
    rcases decompressPass_cases follow inChunk with
      ⟨result, later, ends, -⟩ | ⟨error, later, ends, -⟩ |
        ⟨next, later, ends, -⟩
    · exact Terminates.of_returned (Settles.of_eq fun _ => ends)
    · exact Terminates.of_threw (Settles.of_eq fun _ => ends)
    · exact Terminates.of_returned (Settles.of_eq fun _ => ends)
  · intro _ current streams next later inChunk goesRound
    rcases decompressPass_cases follow inChunk with
      ⟨result, other, ends, -⟩ | ⟨error, other, ends, -⟩ |
        ⟨other, otherLater, ends, kept, smaller⟩
    · cases goesRound.symm.trans ends
    · cases goesRound.symm.trans ends
    · cases goesRound.symm.trans ends
      exact ⟨kept, smaller⟩

/-! ## The payload -/

variable (before payload after : Bytes)

/-- The archive that the payload is a part of. -/
def around : Bytes :=
  before ++ (payload ++ after)

/-- The streams when that much of the payload has been read. -/
def readUpTo (streams : Streams) (count : Nat) : Streams :=
  { streams with
    input := IStream.goodAt (around before payload after)
      (before.length + count) }

/-- A part of the payload has been read and given to the decoder. -/
def InPayload (current : lib.DCtx × Nat × Nat × Nat)
    (streams : Streams) : Prop :=
  ∃ taken rest, payload = taken ++ rest ∧
    current.2.1 = taken.length ∧
    current.2.2.1 = min lib.dStreamInSize rest.length ∧
    streams.input =
      IStream.goodAt (around before payload after)
        (before.length + taken.length) ∧
    follow.Taken current.1 taken

/-- The whole payload has been read and given to the decoder. -/
def AllRead (_ : Nat) (streams : Streams) : Prop :=
  streams.input =
      IStream.goodAt (around before payload after)
        (before.length + payload.length) ∧
    ∃ dctx, follow.Taken dctx payload

/-- The decoder has refused what was read of the payload. -/
def Refuses (error : Exception) (_ : Streams) : Prop :=
  error.thrown = .zstd ∧ ∃ read, read <+: payload ∧ follow.Refused read

/-- Where the first position of the payload is. -/
theorem inPayload_start
    {dctx : lib.DCtx} {streams : Streams}
    (created : lib.createDCtx = some dctx)
    (atPayload : streams.input =
      IStream.goodAt (around before payload after) before.length) :
    InPayload follow before payload after
      (dctx, 0, min lib.dStreamInSize payload.length, 0) streams :=
  ⟨[], payload, rfl, rfl, rfl, atPayload, follow.created created⟩

/-- The chunk that a pass reads lies within the payload. -/
theorem readInput_of_inPayload
    {current : lib.DCtx × Nat × Nat × Nat} {streams : Streams}
    (inPayload : InPayload follow before payload after current streams) :
    ∃ taken chunk tail,
      payload = taken ++ (chunk ++ tail) ∧
      current.2.1 = taken.length ∧
      follow.Taken current.1 taken ∧
      (chunk = [] → tail = []) ∧
      readInput current.2.2.1 streams =
        .returned chunk
          (readUpTo before payload after streams
            (taken ++ chunk).length) ∧
      sizeSub payload.length (current.2.1 + chunk.length) =
        tail.length := by
  rcases current with ⟨dctx, totalRead, thisChunkSize, bytesWritten⟩
  rcases streams with ⟨input, output⟩
  rcases inPayload with ⟨taken, rest, rfl, sameTotal, sameSize, sameInput,
    isTaken⟩
  dsimp only at sameTotal sameSize sameInput isTaken ⊢
  subst sameTotal sameSize sameInput
  have size : (rest.take lib.dStreamInSize).length =
      min lib.dStreamInSize rest.length := by
    rw [List.length_take]
  have whole : rest.take lib.dStreamInSize ++
      rest.drop lib.dStreamInSize = rest :=
    List.take_append_drop _ _
  refine ⟨taken, rest.take lib.dStreamInSize, rest.drop lib.dStreamInSize,
    by rw [whole], rfl, isTaken, ?_, ?_, ?_⟩
  · intro empty
    have positive := lib.inSize_pos
    rw [empty, List.length_nil] at size
    apply List.eq_nil_of_length_eq_zero
    rw [List.length_drop]
    omega
  · have reads := readInput_full (before ++ taken)
      (rest.take lib.dStreamInSize)
      (rest.drop lib.dStreamInSize ++ after) output
    have same : before ++ taken ++ (rest.take lib.dStreamInSize ++
        (rest.drop lib.dStreamInSize ++ after)) =
        around before (taken ++ rest) after := by
      rw [← List.append_assoc (rest.take _), whole, around,
        List.append_assoc, List.append_assoc]
    rw [same, size] at reads
    simp only [List.length_append, Nat.add_assoc] at reads ⊢
    exact reads
  · rw [sizeSub_of_le] <;>
      simp only [List.length_append, List.length_drop, size] <;> omega

/-- A chunk that has been read is about to be decoded. -/
theorem inChunk_start
    {dctx : lib.DCtx} {chunk taken : Bytes} (bytesWritten : Nat)
    (streams : Streams)
    (isTaken : follow.Taken dctx taken) :
    InChunk follow chunk taken streams.input (dctx, 0, bytesWritten)
      streams := by
  refine ⟨Nat.zero_le _, ?_, rfl⟩
  rw [List.take_zero, List.append_nil]
  exact isTaken

/-- What a pass over the payload does. -/
theorem decompressChunk_satisfies
    (fuel : Nat) (current : lib.DCtx × Nat × Nat × Nat) :
    Program.Satisfies (InPayload follow before payload after current)
      (decompressChunk lib payload.length fuel current)
      (Sum.elim
        (fun next later =>
          InPayload follow before payload after next later ∧
            current.2.1 < next.2.1 ∧ next.2.1 ≤ payload.length)
        (AllRead follow before payload after))
      (Refuses follow payload) := by
  intro streams inPayload
  rcases readInput_of_inPayload follow before payload after inPayload with
    ⟨taken, chunk, tail, split, sameTotal, isTaken, ended, reads, left⟩
  rw [decompressChunk, Program.bind_returned reads]
  by_cases empty : chunk.length = 0
  · rw [if_pos empty]
    have nothing := List.eq_nil_of_length_eq_zero empty
    rw [nothing, ended nothing, List.append_nil, List.append_nil] at split
    refine ⟨?_, current.1, split ▸ isTaken⟩
    rw [nothing, List.append_nil, split]
    rfl
  · rw [if_neg empty, left, Program.bind_run]
    have decodes := decompressLoop_satisfies follow chunk taken _ _ fuel _
      (inChunk_start follow current.2.2.2
        (readUpTo before payload after streams (taken ++ chunk).length)
        isTaken)
    cases loops : Program.loop (fun _ => decompressPass lib chunk) fuel
        (current.1, 0, current.2.2.2)
        (readUpTo before payload after streams
          (taken ++ chunk).length) with
    | returned result later =>
        rw [loops] at decodes
        refine ⟨⟨taken ++ chunk, tail, ?_, ?_, rfl, decodes.2, decodes.1⟩,
          ?_, ?_⟩
        · rw [split, List.append_assoc]
        · rw [sameTotal, List.length_append]
        · exact Nat.lt_add_of_pos_right (Nat.pos_of_ne_zero empty)
        · show current.2.1 + chunk.length ≤ payload.length
          rw [split, sameTotal, List.length_append, List.length_append]
          omega
    | threw error later =>
        rw [loops] at decodes
        refine ⟨decodes.1, taken ++ chunk, ?_, decodes.2⟩
        rw [split, ← List.append_assoc]
        exact List.prefix_append _ _
    | outOfFuel => trivial

theorem decompressChunk_terminates
    {current : lib.DCtx × Nat × Nat × Nat} {streams : Streams}
    (inPayload : InPayload follow before payload after current streams) :
    Terminates fun fuel =>
      decompressChunk lib payload.length fuel current streams := by
  rcases readInput_of_inPayload follow before payload after inPayload with
    ⟨taken, chunk, tail, -, -, isTaken, -, reads, -⟩
  refine Terminates.bind (Terminates.of_returned (Settles.of_eq fun _ =>
    reads)) ?_
  intro _ value later same
  cases same.symm.trans reads
  by_cases empty : chunk.length = 0
  · simp only [if_pos empty]
    exact Terminates.of_returned (Settles.of_eq fun _ => rfl)
  · simp only [if_neg empty]
    refine Terminates.bind (decompressLoop_terminates follow
      (inChunk_start follow current.2.2.2
        (readUpTo before payload after streams (taken ++ chunk).length)
        isTaken)) ?_
    intro _ _ _ _
    exact Terminates.of_returned (Settles.of_eq fun _ => rfl)

/-! ## The function -/

include follow in
/-- With enough fuel `decompress` returns or throws. -/
theorem decompress_terminates
    (streams : Streams)
    (atPayload : streams.input =
      IStream.goodAt (around before payload after) before.length) :
    Terminates fun fuel =>
      decompress lib payload.length fuel streams := by
  unfold decompress
  cases created : lib.createDCtx with
  | none => exact Terminates.of_threw (Settles.of_eq fun _ => rfl)
  | some dctx =>
      refine Terminates.loop_of_variant Nat.lt_wfRel.wf
        (fun current _ => payload.length - current.2.1)
        (InPayload follow before payload after) ?_ ?_ _ streams
        (inPayload_start follow before payload after created atPayload)
      · intro current streams inPayload
        exact decompressChunk_terminates follow before payload after
          inPayload
      · intro fuel current streams next later inPayload goesRound
        rcases (decompressChunk_satisfies follow before payload after fuel
          current).returned inPayload goesRound with ⟨kept, more, bounded⟩
        refine ⟨kept, ?_⟩
        show payload.length - next.2.1 < payload.length - current.2.1
        omega

/-- What `decompress` has done when it returns or throws. -/
theorem decompress_satisfies (fuel : Nat) :
    Program.Satisfies
      (fun streams => streams.input =
        IStream.goodAt (around before payload after) before.length)
      (decompress lib payload.length fuel)
      (AllRead follow before payload after)
      (fun error streams => Refuses follow payload error streams ∨
        error.thrown = .zstd ∧ lib.createDCtx = none) := by
  unfold decompress
  cases created : lib.createDCtx with
  | none => exact fun _ _ => Or.inr ⟨rfl, rfl⟩
  | some dctx =>
      have loops := Program.Satisfies.loop
        (InPayload follow before payload after)
        (fun fuel current =>
          (decompressChunk_satisfies follow before payload after fuel
            current).weaken (fun _ start => start)
            (fun exit later => by
              cases exit with
              | inl next => exact fun kept => kept.1
              | inr result => exact fun allRead => allRead)
            (fun _ _ refuses => refuses))
        fuel (dctx, 0, min lib.dStreamInSize payload.length, 0)
      exact loops.weaken
        (fun _ atPayload =>
          inPayload_start follow before payload after created atPayload)
        (fun _ _ allRead => allRead) (fun _ _ refuses => Or.inl refuses)

end DropFile.Client.DecompressRuns
