import DropFile.Client.Zstd
import Mathlib.Data.Prod.Lex
import Mathlib.Order.WellFounded

/-!
# When a compressed content comes back

`zstd::compress` closes the frame only in the pass whose read was short.  A
content whose length is a positive multiple of the read buffer never has such
a pass: its last read is full, so it is handed over with `ZSTD_e_continue`,
and the next read is empty and ends the loop.  For every other content the two
functions are inverse to each other, and for these lengths a library that
holds its input back until the end directive loses the whole content.
-/

namespace DropFile.Client.ZstdRoundTrip

open DropFile.General.FuelledProgram
open DropFile.Streams
open DropFile.Client.Zstd

/--
`compress` appends as many bytes as it returns, and `decompress` restores the
content from these bytes and their number.
-/
def RoundTrips (lib : Library) (content : Bytes) : Prop :=
  ∀ prior : Bytes, ∃ frame : Bytes,
    (∃ finished : IStream,
      Settles
        (fun fuel =>
          compress lib fuel
            ⟨IStream.ofBytes content, OStream.atEnd prior⟩)
        (.returned frame.length
          ⟨finished, OStream.atEnd (prior ++ frame)⟩)) ∧
    (∃ (bytesWritten : Nat) (finished : IStream),
      Settles
        (fun fuel =>
          decompress lib frame.length fuel
            ⟨IStream.ofBytes frame, OStream.atEnd []⟩)
        (.returned bytesWritten ⟨finished, OStream.atEnd content⟩))

variable {lib : Library}

/-! ## Single passes -/

/-- The directive of a pass. -/
def directive (isLastChunk : Bool) : EndDirective :=
  if isLastChunk then .eEnd else .eContinue

theorem compressPass_run
    (chunk : Bytes) (isLastChunk : Bool) (cctx : lib.CCtx)
    (inputPos bytesWritten : Nat) (streams : Streams) (remaining : Nat)
    (ok :
      (lib.compressStream2 cctx (directive isLastChunk)
        (chunk.drop inputPos) lib.dStreamOutSize).result = .ok remaining) :
    compressPass lib chunk isLastChunk
        (cctx, inputPos, bytesWritten) streams =
      let call :=
        lib.compressStream2 cctx (directive isLastChunk)
          (chunk.drop inputPos) lib.dStreamOutSize
      let locals :=
        (call.context, inputPos + call.consumed,
          bytesWritten + call.produced.length)
      .returned
        (if (if isLastChunk then decide (remaining = 0)
            else decide (inputPos + call.consumed = chunk.length))
          then .inr locals else .inl locals)
        { streams with output := streams.output.write call.produced } := by
  simp only [directive] at ok ⊢
  simp only [compressPass, ok, assertOk, writeOutput, Program.bind_run,
    Program.pure_run, Program.modifyState_run]
  split <;> split <;> simp_all

theorem decompressPass_run
    {chunk : Bytes} {dctx : lib.DCtx} {inputPos hint : Nat}
    (bytesWritten : Nat) (streams : Streams)
    (unread : inputPos < chunk.length)
    (ok :
      (lib.decompressStream dctx (chunk.drop inputPos)
        lib.dStreamOutSize).result = .ok hint) :
    decompressPass lib chunk (dctx, inputPos, bytesWritten) streams =
      let call :=
        lib.decompressStream dctx (chunk.drop inputPos) lib.dStreamOutSize
      .returned
        (.inl (call.context, inputPos + call.consumed,
          bytesWritten + call.produced.length))
        { streams with output := streams.output.write call.produced } := by
  simp only [decompressPass, unread, ok, assertOk, writeOutput,
    Program.bind_run, Program.pure_run, Program.modifyState_run, if_true]

theorem decompressPass_end
    {chunk : Bytes} {dctx : lib.DCtx} {bytesWritten : Nat}
    {streams : Streams} :
    decompressPass lib chunk (dctx, chunk.length, bytesWritten) streams =
      .returned (.inr (dctx, bytesWritten)) streams := by
  simp [decompressPass]

/-- Consuming more of the input extends what was taken. -/
theorem take_append_take_drop
    (taken chunk : Bytes) (position consumed : Nat) :
    taken ++ chunk.take position ++ (chunk.drop position).take consumed =
      taken ++ chunk.take (position + consumed) := by
  rw [List.append_assoc, List.take_add]

/-! ## The inner loops -/

section InnerLoops

variable (contract : StreamingContract lib)

/-- Unread input first, then what the library still has to give out. -/
abbrev Smaller : Nat × Nat → Nat × Nat → Prop :=
  Prod.Lex (· < ·) (· < ·)

theorem smaller_wellFounded : WellFounded Smaller :=
  WellFounded.prod_lex Nat.lt_wfRel.wf Nat.lt_wfRel.wf

theorem smaller_of_progress
    {length position consumed left less : Nat}
    (inRange : position + consumed ≤ length)
    (progress : 0 < consumed ∨ less < left) :
    Smaller (length - (position + consumed), less)
      (length - position, left) := by
  refine Prod.lex_def.2 ?_
  simp only
  omega

/--
Where a `compress` pass over `chunk` starts: a part of the chunk is taken, and
the stream got what the library gave out for it.
-/
def Taking
    (session : lib.CCtx → Bytes → Bytes → Prop)
    (chunk taken emitted : Bytes) (input : IStream) (out : Bytes)
    (base : Nat) :
    lib.CCtx × Nat × Nat → Streams → Prop
  | (cctx, inputPos, bytesWritten), streams =>
      ∃ produced : Bytes,
        inputPos ≤ chunk.length ∧
        session cctx (taken ++ chunk.take inputPos)
          (emitted ++ produced) ∧
        bytesWritten = base + produced.length ∧
        streams = ⟨input, OStream.atEnd (out ++ produced)⟩

/-- A chunk in the middle is taken completely; its output may be held back. -/
theorem continueLoop_settles
    (chunk out : Bytes) (input : IStream) (base : Nat)
    {taken emitted : Bytes} {cctx : lib.CCtx}
    (opened : contract.Compressing cctx taken emitted) :
    ∃ result later,
      Settles
        (fun fuel =>
          Program.loop (fun _ => compressPass lib chunk false) fuel
            (cctx, 0, base) ⟨input, OStream.atEnd out⟩)
        (.returned result later) ∧
      (∃ next produced,
        result = (next, chunk.length, base + produced.length) ∧
        later = ⟨input, OStream.atEnd (out ++ produced)⟩ ∧
        contract.Compressing next (taken ++ chunk)
          (emitted ++ produced)) := by
  refine Settles.loop_of_variant smaller_wellFounded
    (fun locals _ => (chunk.length - locals.2.1,
      contract.toFlush locals.1))
    (Taking contract.Compressing chunk taken emitted input out base)
    (fun result later =>
      ∃ next produced,
        result = (next, chunk.length, base + produced.length) ∧
        later = ⟨input, OStream.atEnd (out ++ produced)⟩ ∧
        contract.Compressing next (taken ++ chunk) (emitted ++ produced))
    ?_ (cctx, 0, base) ⟨input, OStream.atEnd out⟩
    ⟨[], by simp, by simpa using opened, by simp, by simp⟩
  rintro ⟨cctx, inputPos, bytesWritten⟩ streams
    ⟨produced, inRange, compressing, rfl, rfl⟩
  obtain ⟨⟨hint, ok⟩, bounded, -, later, progress⟩ :=
    contract.continue_call (chunk.drop inputPos) compressing
      lib.outSize_pos
  rw [List.length_drop] at bounded
  have run := compressPass_run chunk false cctx inputPos
    (base + produced.length) ⟨input, OStream.atEnd (out ++ produced)⟩
    hint ok
  simp only [directive, Bool.false_eq_true, if_false] at run
  set call := lib.compressStream2 cctx .eContinue (chunk.drop inputPos)
    lib.dStreamOutSize with callDef
  rw [take_append_take_drop, List.append_assoc] at later
  by_cases finished : inputPos + call.consumed = chunk.length
  · left
    refine ⟨_, _, Settles.of_eq fun _ => by
      rw [run]; simp only [finished, decide_true, if_true]; rfl,
      call.context, produced ++ call.produced, ?_, ?_, ?_⟩
    · simp [Nat.add_assoc]
    · simp
    · rwa [finished, List.take_length] at later
  · right
    have unread : call.consumed ≠ (chunk.drop inputPos).length := by
      rw [List.length_drop]
      omega
    have stillInRange : inputPos + call.consumed ≤ chunk.length := by
      omega
    refine ⟨_, _, Settles.of_eq fun _ => by
      rw [run]
      simp only [finished, decide_false, Bool.false_eq_true, if_false]
      rfl,
      ⟨produced ++ call.produced, stillInRange, later, ?_, ?_⟩, ?_⟩
    · simp [Nat.add_assoc]
    · simp
    · exact smaller_of_progress stillInRange
        (progress.resolve_left unread)

/--
The last chunk ends the frame: the loop repeats the end directive until the
library has given everything out.
-/
theorem endLoop_settles
    (chunk out : Bytes) (input : IStream) (base : Nat)
    {taken emitted : Bytes} {cctx : lib.CCtx}
    (opened : contract.Compressing cctx taken emitted) :
    ∃ result later,
      Settles
        (fun fuel =>
          Program.loop (fun _ => compressPass lib chunk true) fuel
            (cctx, 0, base) ⟨input, OStream.atEnd out⟩)
        (.returned result later) ∧
      (∃ next produced,
        result = (next, chunk.length, base + produced.length) ∧
        later = ⟨input, OStream.atEnd (out ++ produced)⟩ ∧
        contract.IsFrame (emitted ++ produced) (taken ++ chunk)) := by
  refine Settles.loop_of_variant smaller_wellFounded
    (fun locals _ => (chunk.length - locals.2.1,
      contract.toFlush locals.1))
    (Taking
      (fun cctx sofar emitted =>
        contract.Compressing cctx sofar emitted ∨
          contract.Ending cctx (taken ++ chunk) sofar emitted)
      chunk taken emitted input out base)
    (fun result later =>
      ∃ next produced,
        result = (next, chunk.length, base + produced.length) ∧
        later = ⟨input, OStream.atEnd (out ++ produced)⟩ ∧
        contract.IsFrame (emitted ++ produced) (taken ++ chunk))
    ?_ (cctx, 0, base) ⟨input, OStream.atEnd out⟩
    ⟨[], by simp, by simpa using Or.inl opened, by simp, by simp⟩
  rintro ⟨cctx, inputPos, bytesWritten⟩ streams
    ⟨produced, inRange, compressing, rfl, rfl⟩
  have whole :
      taken ++ chunk.take inputPos ++ chunk.drop inputPos =
        taken ++ chunk := by
    rw [List.append_assoc, List.take_append_drop]
  obtain ⟨bounded, -, outcome⟩ :=
    contract.end_call (chunk.drop inputPos)
      (whole.symm ▸ compressing) lib.outSize_pos
  rw [List.length_drop] at bounded
  have run := compressPass_run chunk true cctx inputPos
    (base + produced.length) ⟨input, OStream.atEnd (out ++ produced)⟩
  simp only [directive, if_true] at run
  set call := lib.compressStream2 cctx .eEnd (chunk.drop inputPos)
    lib.dStreamOutSize with callDef
  rcases outcome with
    ⟨ok, complete, frame⟩ | ⟨⟨remaining, ok⟩, later, progress⟩
  · left
    rw [List.length_drop] at complete
    rw [whole, List.append_assoc] at frame
    have finished : inputPos + call.consumed = chunk.length := by omega
    refine ⟨_, _, Settles.of_eq fun _ => by
      rw [run 0 ok]; simp only [decide_true, if_true]; rfl,
      call.context, produced ++ call.produced, ?_, ?_, frame⟩
    · simp [Nat.add_assoc, finished]
    · simp
  · right
    rw [whole, take_append_take_drop, List.append_assoc] at later
    have stillInRange : inputPos + call.consumed ≤ chunk.length := by
      omega
    refine ⟨_, _, Settles.of_eq fun _ => by
      rw [run (remaining + 1) ok]
      simp only [Nat.add_eq_zero_iff, one_ne_zero, and_false,
        decide_false, Bool.false_eq_true, if_false]
      rfl,
      ⟨produced ++ call.produced, stillInRange, Or.inr later, ?_, ?_⟩,
      ?_⟩
    · simp [Nat.add_assoc]
    · simp
    · exact smaller_of_progress stillInRange progress

/-- Where a `decompress` pass over `chunk` starts. -/
def Reading
    (frame content chunk taken delivered : Bytes) (input : IStream)
    (out : Bytes) (base : Nat) :
    lib.DCtx × Nat × Nat → Streams → Prop
  | (dctx, inputPos, bytesWritten), streams =>
      ∃ produced : Bytes,
        inputPos ≤ chunk.length ∧
        contract.Decoding frame content dctx
          (taken ++ chunk.take inputPos) (delivered ++ produced) ∧
        bytesWritten = base + produced.length ∧
        streams = ⟨input, OStream.atEnd (out ++ produced)⟩

/-- The inner loop of `decompress` reads its whole chunk. -/
theorem decompressLoop_settles
    (out : Bytes) (input : IStream) (base : Nat)
    {frame content chunk taken delivered : Bytes} {dctx : lib.DCtx}
    (decoding : contract.Decoding frame content dctx taken delivered)
    (within : taken ++ chunk <+: frame) :
    ∃ result later,
      Settles
        (fun fuel =>
          Program.loop (fun _ => decompressPass lib chunk) fuel
            (dctx, 0, base) ⟨input, OStream.atEnd out⟩)
        (.returned result later) ∧
      (∃ next produced,
        result = (next, base + produced.length) ∧
        later = ⟨input, OStream.atEnd (out ++ produced)⟩ ∧
        contract.Decoding frame content next (taken ++ chunk)
          (delivered ++ produced)) := by
  refine Settles.loop_of_variant smaller_wellFounded
    (fun locals _ => (chunk.length - locals.2.1,
      contract.toDeliver locals.1))
    (Reading contract frame content chunk taken delivered input out base)
    (fun result later =>
      ∃ next produced,
        result = (next, base + produced.length) ∧
        later = ⟨input, OStream.atEnd (out ++ produced)⟩ ∧
        contract.Decoding frame content next (taken ++ chunk)
          (delivered ++ produced))
    ?_ (dctx, 0, base) ⟨input, OStream.atEnd out⟩
    ⟨[], by simp, by simpa using decoding, by simp, by simp⟩
  rintro ⟨dctx, inputPos, bytesWritten⟩ streams
    ⟨produced, inRange, decoding, rfl, rfl⟩
  rcases Nat.lt_or_eq_of_le inRange with unread | rfl
  · right
    have nonempty : chunk.drop inputPos ≠ [] := by
      simpa [List.drop_eq_nil_iff] using unread
    have rest :
        taken ++ chunk.take inputPos ++ chunk.drop inputPos <+: frame := by
      simpa [List.append_assoc] using within
    obtain ⟨⟨hint, ok⟩, bounded, -, later, progress⟩ :=
      contract.decompress_call decoding nonempty rest lib.outSize_pos
    have run := decompressPass_run (base + produced.length)
      ⟨input, OStream.atEnd (out ++ produced)⟩ unread ok
    rw [List.length_drop] at bounded
    rw [take_append_take_drop, List.append_assoc] at later
    have stillInRange :
        inputPos +
          (lib.decompressStream dctx (chunk.drop inputPos)
            lib.dStreamOutSize).consumed ≤ chunk.length := by
      omega
    refine ⟨_, _, Settles.of_eq fun _ => run,
      ⟨produced ++ _, stillInRange, later, ?_, ?_⟩, ?_⟩
    · simp [Nat.add_assoc]
    · simp
    · exact smaller_of_progress stillInRange progress
  · left
    refine ⟨_, _, Settles.of_eq fun _ => decompressPass_end,
      dctx, produced, rfl, rfl, ?_⟩
    simpa using decoding

end InnerLoops

/-! ## The outer loops -/

theorem readInput_full
    (before chunk after : Bytes) (out : OStream) :
    (readInput chunk.length : ZstdProgram Bytes)
        ⟨IStream.goodAt (before ++ (chunk ++ after)) before.length, out⟩ =
      .returned chunk
        ⟨IStream.goodAt (before ++ (chunk ++ after))
          (before ++ chunk).length, out⟩ := by
  simp only [readInput, Program.step_run, IStream.read_goodAt_full,
    List.length_append]

theorem readInput_short
    (before rest : Bytes) (out : OStream) {count : Nat}
    (short : rest.length < count) :
    (readInput count : ZstdProgram Bytes)
        ⟨IStream.goodAt (before ++ rest) before.length, out⟩ =
      .returned rest
        ⟨⟨before ++ rest, before.length + rest.length, true, true⟩,
          out⟩ := by
  simp only [readInput, Program.step_run,
    IStream.read_goodAt_short short]

/-- After a short read the loop of `compress` ends. -/
theorem compressLoop_end
    {cctx : lib.CCtx} {bytesWritten : Nat} {input : IStream}
    {out : OStream}
    (ended : input.good = false) :
    Settles
      (fun fuel =>
        Program.loop (compressChunk lib) fuel (cctx, bytesWritten)
          ⟨input, out⟩)
      (.returned bytesWritten
        ⟨{ input with failbit := true }, out⟩) := by
  refine Settles.loop_leave (Settles.of_eq fun fuel => ?_)
  simp [compressChunk, readInput, Program.bind_run,
    IStream.read_of_not_good ended]

section OuterLoops

variable (contract : StreamingContract lib)

/-- A pass over a full chunk hands it over without ending the frame. -/
theorem compressChunk_full
    (rest prior : Bytes) {taken chunk emitted : Bytes} {cctx : lib.CCtx}
    (opened : contract.Compressing cctx taken emitted)
    (full : chunk.length = lib.dStreamInSize) :
    ∃ next produced,
      Settles
        (fun fuel =>
          compressChunk lib fuel (cctx, emitted.length)
            ⟨IStream.goodAt (taken ++ (chunk ++ rest)) taken.length,
              OStream.atEnd (prior ++ emitted)⟩)
        (.returned (.inl (next, (emitted ++ produced).length))
          ⟨IStream.goodAt (taken ++ (chunk ++ rest))
              (taken ++ chunk).length,
            OStream.atEnd (prior ++ (emitted ++ produced))⟩) ∧
      contract.Compressing next (taken ++ chunk)
        (emitted ++ produced) := by
  obtain ⟨_, _, settles, next, produced, rfl, rfl, later⟩ :=
    continueLoop_settles contract chunk (prior ++ emitted)
      (IStream.goodAt (taken ++ (chunk ++ rest)) (taken ++ chunk).length)
      emitted.length opened
  refine ⟨next, produced, ?_, later⟩
  have nonempty : chunk.length ≠ 0 := by
    have positive := lib.inSize_pos
    omega
  filter_upwards [settles] with fuel loopEnds
  rw [compressChunk, ← full,
    Program.bind_returned (readInput_full _ _ _ _)]
  simp only [nonempty, if_false, Nat.lt_irrefl, decide_false]
  rw [Program.bind_returned loopEnds]
  simp

/-- A pass over a short chunk ends the frame. -/
theorem compressChunk_short
    (prior : Bytes) {taken rest emitted : Bytes} {cctx : lib.CCtx}
    (opened : contract.Compressing cctx taken emitted)
    (nonempty : rest ≠ [])
    (short : rest.length < lib.dStreamInSize) :
    ∃ next produced finished,
      Settles
        (fun fuel =>
          compressChunk lib fuel (cctx, emitted.length)
            ⟨IStream.goodAt (taken ++ rest) taken.length,
              OStream.atEnd (prior ++ emitted)⟩)
        (.returned (.inl (next, (emitted ++ produced).length))
          ⟨finished, OStream.atEnd (prior ++ (emitted ++ produced))⟩) ∧
      finished.good = false ∧
      contract.IsFrame (emitted ++ produced) (taken ++ rest) := by
  obtain ⟨_, _, settles, next, produced, rfl, rfl, frame⟩ :=
    endLoop_settles contract rest (prior ++ emitted)
      ⟨taken ++ rest, taken.length + rest.length, true, true⟩
      emitted.length opened
  refine ⟨next, produced,
    ⟨taken ++ rest, taken.length + rest.length, true, true⟩, ?_, rfl,
    frame⟩
  filter_upwards [settles] with fuel loopEnds
  rw [compressChunk, Program.bind_returned (readInput_short _ _ _ short)]
  simp only [List.length_eq_zero_iff, nonempty, if_false, short,
    decide_true]
  rw [Program.bind_returned loopEnds]
  simp

/-- The loop of `compress` writes a complete frame when its last read is
short but not empty. -/
theorem compressLoop_settles
    (prior : Bytes) {taken rest emitted : Bytes} {cctx : lib.CCtx}
    (opened : contract.Compressing cctx taken emitted)
    (lastShort : ¬ lib.dStreamInSize ∣ rest.length) :
    ∃ frame finished,
      Settles
        (fun fuel =>
          Program.loop (compressChunk lib) fuel (cctx, emitted.length)
            ⟨IStream.goodAt (taken ++ rest) taken.length,
              OStream.atEnd (prior ++ emitted)⟩)
        (.returned frame.length
          ⟨finished, OStream.atEnd (prior ++ frame)⟩) ∧
      contract.IsFrame frame (taken ++ rest) := by
  induction size : rest.length using Nat.strong_induction_on
    generalizing taken rest emitted cctx with
  | _ size inductionHypothesis =>
    subst size
    have nonempty : rest ≠ [] := by
      rintro rfl
      exact lastShort (dvd_zero _)
    rcases Nat.lt_or_ge rest.length lib.dStreamInSize with short | long
    · obtain ⟨next, produced, finished, pass, ended, frame⟩ :=
        compressChunk_short contract prior opened nonempty short
      exact ⟨emitted ++ produced, _,
        Settles.loop_again pass (compressLoop_end ended), frame⟩
    · obtain ⟨chunk, tail, rfl, full⟩ :
          ∃ chunk tail, rest = chunk ++ tail ∧
            chunk.length = lib.dStreamInSize :=
        ⟨rest.take lib.dStreamInSize, rest.drop lib.dStreamInSize,
          (List.take_append_drop _ _).symm, by simp [long]⟩
      obtain ⟨next, produced, pass, later⟩ :=
        compressChunk_full contract tail prior opened full
      have positive := lib.inSize_pos
      have tailShort : ¬ lib.dStreamInSize ∣ tail.length := by
        intro divides
        apply lastShort
        rw [List.length_append, full]
        exact (Nat.dvd_add_right (dvd_refl _)).2 divides
      have smaller : tail.length < (chunk ++ tail).length := by
        rw [List.length_append]
        omega
      obtain ⟨frame, finished, restSettles, isFrame⟩ :=
        inductionHypothesis tail.length smaller later tailShort rfl
      rw [List.append_assoc] at restSettles isFrame
      exact ⟨frame, finished, Settles.loop_again pass restSettles,
        isFrame⟩

/-- A content that ends with a full chunk leaves the frame open. -/
theorem compressLoop_leaves_open
    (prior : Bytes) {taken rest emitted : Bytes} {cctx : lib.CCtx}
    (opened : contract.Compressing cctx taken emitted)
    (allFull : lib.dStreamInSize ∣ rest.length) :
    ∃ given finished last,
      Settles
        (fun fuel =>
          Program.loop (compressChunk lib) fuel (cctx, emitted.length)
            ⟨IStream.goodAt (taken ++ rest) taken.length,
              OStream.atEnd (prior ++ emitted)⟩)
        (.returned given.length
          ⟨finished, OStream.atEnd (prior ++ given)⟩) ∧
      contract.Compressing last (taken ++ rest) given := by
  induction size : rest.length using Nat.strong_induction_on
    generalizing taken rest emitted cctx with
  | _ size inductionHypothesis =>
    subst size
    have positive := lib.inSize_pos
    by_cases nonempty : rest = []
    · subst nonempty
      refine ⟨emitted, ⟨taken ++ [], taken.length, true, true⟩, cctx,
        Settles.loop_leave (Settles.of_eq fun fuel => ?_), by simpa⟩
      have empty := readInput_short taken []
        (OStream.atEnd (prior ++ emitted)) positive
      rw [compressChunk, Program.bind_returned empty]
      simp
    · have long : lib.dStreamInSize ≤ rest.length :=
        Nat.le_of_dvd (List.length_pos_iff.2 nonempty) allFull
      obtain ⟨chunk, tail, rfl, full⟩ :
          ∃ chunk tail, rest = chunk ++ tail ∧
            chunk.length = lib.dStreamInSize :=
        ⟨rest.take lib.dStreamInSize, rest.drop lib.dStreamInSize,
          (List.take_append_drop _ _).symm, by simp [long]⟩
      obtain ⟨next, produced, pass, later⟩ :=
        compressChunk_full contract tail prior opened full
      have tailFull : lib.dStreamInSize ∣ tail.length := by
        rw [List.length_append, full] at allFull
        exact (Nat.dvd_add_right (dvd_refl _)).1 allFull
      have smaller : tail.length < (chunk ++ tail).length := by
        rw [List.length_append]
        omega
      obtain ⟨given, finished, last, restSettles, stillOpen⟩ :=
        inductionHypothesis tail.length smaller later tailFull rfl
      rw [List.append_assoc] at restSettles stillOpen
      exact ⟨given, finished, last, Settles.loop_again pass restSettles,
        stillOpen⟩

/-- The loop of `decompress` restores the content of a complete frame. -/
theorem decompressLoop_restores
    {frame content taken rest delivered : Bytes} {dctx : lib.DCtx}
    (isFrame : frame = taken ++ rest)
    (decoding : contract.Decoding frame content dctx taken delivered) :
    ∃ bytesWritten finished,
      Settles
        (fun fuel =>
          Program.loop (decompressChunk lib frame.length) fuel
            (dctx, taken.length, min lib.dStreamInSize rest.length,
              delivered.length)
            ⟨IStream.goodAt frame taken.length,
              OStream.atEnd delivered⟩)
        (.returned bytesWritten
          ⟨finished, OStream.atEnd content⟩) := by
  induction size : rest.length using Nat.strong_induction_on
    generalizing taken rest delivered dctx with
  | _ size inductionHypothesis =>
    subst size
    subst isFrame
    by_cases nonempty : rest = []
    · subst nonempty
      rw [List.append_nil] at decoding ⊢
      have complete := contract.decoded decoding
      subst complete
      refine ⟨delivered.length, IStream.goodAt taken taken.length,
        Settles.loop_leave (Settles.of_eq fun fuel => ?_)⟩
      have empty := readInput_full taken [] []
        (OStream.atEnd delivered)
      simp only [List.append_nil, List.length_nil] at empty
      simp only [decompressChunk, List.length_nil, Nat.min_zero,
        Program.bind_returned empty, if_true, Program.pure_run]
    · obtain ⟨chunk, tail, rfl, size⟩ :
          ∃ chunk tail, rest = chunk ++ tail ∧
            chunk.length = min lib.dStreamInSize rest.length :=
        ⟨rest.take lib.dStreamInSize, rest.drop lib.dStreamInSize,
          (List.take_append_drop _ _).symm, by simp⟩
      have within : taken ++ chunk <+: taken ++ (chunk ++ tail) :=
        ⟨tail, by simp⟩
      obtain ⟨_, _, inner, next, produced, rfl, rfl, later⟩ :=
        decompressLoop_settles contract delivered
          (IStream.goodAt (taken ++ (chunk ++ tail))
            (taken ++ chunk).length)
          delivered.length decoding within
      have positive := lib.inSize_pos
      have restPositive : 0 < (chunk ++ tail).length :=
        List.length_pos_iff.2 nonempty
      have chunkPositive : chunk.length ≠ 0 := by omega
      have smaller : tail.length < (chunk ++ tail).length := by
        rw [List.length_append]
        omega
      obtain ⟨bytesWritten, finished, restSettles⟩ :=
        inductionHypothesis tail.length smaller
          (List.append_assoc taken chunk tail).symm later rfl
      refine ⟨bytesWritten, finished,
        Settles.loop_again ?_ restSettles⟩
      have left :
          sizeSub (taken ++ (chunk ++ tail)).length
              (taken.length + chunk.length) = tail.length := by
        rw [sizeSub_of_le] <;> simp only [List.length_append] <;> omega
      filter_upwards [inner] with fuel innerEnds
      rw [decompressChunk, ← size,
        Program.bind_returned (readInput_full _ _ _ _)]
      simp only [chunkPositive, if_false, left]
      rw [Program.bind_returned innerEnds]
      simp

end OuterLoops

/-! ## Contents whose last read is short -/

/-- Reading no bytes decompresses nothing. -/
theorem decompress_nothing
    {dctx : lib.DCtx}
    (created : lib.createDCtx = some dctx)
    (data : Bytes) (out : OStream) :
    Settles
      (fun fuel =>
        decompress lib 0 fuel ⟨IStream.ofBytes data, out⟩)
      (.returned 0 ⟨IStream.ofBytes data, out⟩) := by
  have empty := readInput_full [] [] data out
  simp only [List.nil_append, List.length_nil] at empty
  simp only [decompress, created, Nat.min_zero, IStream.ofBytes_eq_goodAt]
  refine Settles.loop_leave (Settles.of_eq fun fuel => ?_)
  simp only [decompressChunk, Program.bind_returned empty,
    List.length_nil, if_true, Program.pure_run]

/-- After its preparation `compress` is its loop. -/
theorem compress_eq_loop
    (contract : StreamingContract lib) :
    ∃ fresh, contract.Compressing fresh [] [] ∧
      ∀ fuel streams,
        compress lib fuel streams =
          Program.loop (compressChunk lib) fuel (fresh, 0) streams := by
  obtain ⟨created, levelled, checked, fresh, isCreated, isLevelled,
    isChecked, isFresh, opened⟩ := contract.prepared
  refine ⟨fresh, opened, fun fuel streams => ?_⟩
  simp only [compress, isCreated, isLevelled, isChecked, isFresh,
    assertOk, Program.pure_bind_run]

theorem roundTrips_nil
    (contract : StreamingContract lib) :
    RoundTrips lib [] := by
  intro prior
  obtain ⟨fresh, -, eqLoop⟩ := compress_eq_loop contract
  obtain ⟨dctx, created, -⟩ := contract.decoder
  refine ⟨[], ⟨⟨[], 0, true, true⟩, ?_⟩, 0, IStream.ofBytes [],
    decompress_nothing created [] _⟩
  simp only [eqLoop, IStream.ofBytes_eq_goodAt]
  refine Settles.loop_leave (Settles.of_eq fun fuel => ?_)
  have empty := readInput_short [] [] (OStream.atEnd prior)
    lib.inSize_pos
  simp only [List.append_nil, List.length_nil] at empty
  simp [compressChunk, Program.bind_returned empty]

/-- A content whose last read is short comes back. -/
theorem roundTrips_of_lastShort
    (contract : StreamingContract lib)
    {content : Bytes}
    (lastShort : ¬ lib.dStreamInSize ∣ content.length) :
    RoundTrips lib content := by
  intro prior
  obtain ⟨fresh, opened, eqLoop⟩ := compress_eq_loop contract
  obtain ⟨frame, finished, compresses, isFrame⟩ :=
    compressLoop_settles contract prior opened lastShort
  obtain ⟨dctx, created, decoding⟩ := contract.decoder
  obtain ⟨bytesWritten, ended, restores⟩ :=
    decompressLoop_restores contract
      (List.nil_append frame).symm (decoding isFrame)
  refine ⟨frame, ⟨finished, ?_⟩, bytesWritten, ended, ?_⟩
  · simp only [eqLoop]
    simpa using compresses
  · simp only [decompress, created]
    simpa using restores

/-! ## A library that holds its input back -/

/--
A frame format for contents of any length: each byte is announced by a 1, and
a 0 ends the frame.
-/
def announced (content : Bytes) : Bytes :=
  content.flatMap fun byte => [1, byte]

def announcedFrame (content : Bytes) : Bytes :=
  announced content ++ [0]

/-- Where the decoder of the announced format stands. -/
inductive AnnouncedDecoder where
  | atMark
  | atByte
  | finished
deriving DecidableEq, Repr

/-- One streaming call of the decoder: it reads a single byte. -/
def decodeAnnounced :
    AnnouncedDecoder → Bytes → StreamCall AnnouncedDecoder
  | state, [] => ⟨state, 0, [], .ok 1⟩
  | .atMark, mark :: _ =>
      if mark = 0 then ⟨.finished, 1, [], .ok 0⟩
      else ⟨.atByte, 1, [], .ok 1⟩
  | .atByte, byte :: _ => ⟨.atMark, 1, [byte], .ok 1⟩
  | .finished, _ :: _ => ⟨.finished, 0, [], .error (ascii "Unknown frame")⟩

/-- What is left of the frame when the end directive is given. -/
def unflushed (held input : Bytes) : Option Bytes → Bytes
  | none => announcedFrame (held ++ input)
  | some rest => rest

/--
A library that keeps every consumed byte until the end directive, which the
streaming contract allows.
-/
def holdingBack
    {inSize outSize : Nat}
    (inSizePos : 0 < inSize) (outSizePos : 0 < outSize) : Library where
  CCtx := Bytes × Option Bytes
  DCtx := AnnouncedDecoder
  dStreamInSize := inSize
  dStreamOutSize := outSize
  inSize_pos := inSizePos
  outSize_pos := outSizePos
  createCCtx := some ([], none)
  setParameter cctx _ _ := .ok cctx
  resetSession cctx := .ok cctx
  compressStream2
    | (held, pending), .eContinue, input, _ =>
        ⟨(held ++ input, pending), input.length, [], .ok 1⟩
    | (held, pending), .eEnd, input, capacity =>
        let left := (unflushed held input pending).drop capacity
        ⟨(held ++ input, some left), input.length,
          (unflushed held input pending).take capacity, .ok left.length⟩
  createDCtx := some .atMark
  decompressStream dctx input _ := decodeAnnounced dctx input

/-- The progress of the decoder through the frame of a content. -/
def DecodingAnnounced (content : Bytes) :
    AnnouncedDecoder → Bytes → Bytes → Prop
  | .atMark, taken, delivered =>
      ∃ rest, content = delivered ++ rest ∧ taken = announced delivered
  | .atByte, taken, delivered =>
      ∃ byte rest, content = delivered ++ byte :: rest ∧
        taken = announced delivered ++ [1]
  | .finished, taken, delivered =>
      taken = announcedFrame content ∧ delivered = content

theorem announced_append (left right : Bytes) :
    announced (left ++ right) = announced left ++ announced right := by
  simp [announced]

theorem announced_length (content : Bytes) :
    (announced content).length = 2 * content.length := by
  induction content with
  | nil => rfl
  | cons byte content inductionHypothesis =>
      simp only [announced, List.flatMap_cons, List.length_append,
        List.length_cons, List.length_nil] at inductionHypothesis ⊢
      omega

theorem decodeAnnounced_call
    {content taken delivered input : Bytes} {state : AnnouncedDecoder}
    (decoding : DecodingAnnounced content state taken delivered)
    (nonempty : input ≠ [])
    (within : taken ++ input <+: announcedFrame content) :
    let call := decodeAnnounced state input
    (∃ hint, call.result = .ok hint) ∧ call.consumed = 1 ∧
      call.produced.length ≤ 1 ∧
      DecodingAnnounced content call.context
        (taken ++ input.take call.consumed)
        (delivered ++ call.produced) := by
  obtain ⟨head, tail, rfl⟩ := List.exists_cons_of_ne_nil nonempty
  obtain ⟨after, frameEq⟩ := within
  cases state with
  | atMark =>
      obtain ⟨rest, rfl, rfl⟩ := decoding
      rw [announcedFrame, announced_append, List.append_assoc,
        List.append_assoc] at frameEq
      have headEq := List.append_cancel_left frameEq
      cases rest with
      | nil =>
          obtain ⟨rfl, -⟩ :
              head = 0 ∧ tail ++ after = [] := by
            simpa [announced] using headEq
          simp [decodeAnnounced, DecodingAnnounced, announcedFrame]
      | cons byte rest =>
          obtain ⟨rfl, -⟩ :
              head = 1 ∧
                tail ++ after = byte :: (announced rest ++ [0]) := by
            simpa [announced] using headEq
          simp [decodeAnnounced, DecodingAnnounced]
  | atByte =>
      obtain ⟨byte, rest, rfl, rfl⟩ := decoding
      rw [announcedFrame, announced_append, List.append_assoc,
        List.append_assoc, List.append_assoc] at frameEq
      have headEq := List.append_cancel_left frameEq
      obtain ⟨rfl, -⟩ :
          head = byte ∧ tail ++ after = announced rest ++ [0] := by
        simpa [announced] using headEq
      refine ⟨⟨1, rfl⟩, rfl, by simp [decodeAnnounced], rest, ?_, ?_⟩
      · simp [decodeAnnounced]
      · simp [decodeAnnounced, announced]
  | finished =>
      obtain ⟨rfl, rfl⟩ := decoding
      have lengths := congrArg List.length frameEq
      simp only [List.length_append, List.length_cons] at lengths
      omega

theorem decodingAnnounced_complete
    {content delivered : Bytes} {state : AnnouncedDecoder}
    (decoding :
      DecodingAnnounced content state (announcedFrame content)
        delivered) :
    delivered = content := by
  cases state with
  | atMark =>
      obtain ⟨rest, rfl, takenEq⟩ := decoding
      have lengths := congrArg List.length takenEq
      simp only [announcedFrame, List.length_append, announced_length,
        List.length_cons, List.length_nil] at lengths
      omega
  | atByte =>
      obtain ⟨byte, rest, rfl, takenEq⟩ := decoding
      have lengths := congrArg List.length takenEq
      simp only [announcedFrame, List.length_append, announced_length,
        List.length_cons, List.length_nil] at lengths
      omega
  | finished => exact decoding.2

/-- Holding everything back until the end directive keeps the contract. -/
def holdingBackContract
    {inSize outSize : Nat}
    (inSizePos : 0 < inSize) (outSizePos : 0 < outSize) :
    StreamingContract (holdingBack inSizePos outSizePos) where
  IsFrame frame content := frame = announcedFrame content
  Compressing cctx taken emitted := cctx = (taken, none) ∧ emitted = []
  Ending cctx total taken emitted :=
    ∃ rest, cctx = (taken, some rest) ∧ rest ≠ [] ∧ taken = total ∧
      emitted ++ rest = announcedFrame total
  toFlush cctx := (unflushed cctx.1 [] cctx.2).length
  prepared := ⟨_, _, _, _, rfl, rfl, rfl, rfl, rfl, rfl⟩
  continue_call := by
    rintro _ taken _ input capacity ⟨rfl, rfl⟩ _
    exact ⟨⟨1, rfl⟩, le_rfl, Nat.zero_le _,
      ⟨by simp [holdingBack], rfl⟩, Or.inl rfl⟩
  end_call := by
    intro cctx taken emitted input capacity session positive
    obtain ⟨pending, rfl, frameEq⟩ :
        ∃ pending, cctx = (taken, pending) ∧
          emitted ++ unflushed taken input pending =
            announcedFrame (taken ++ input) := by
      rcases session with ⟨rfl, rfl⟩ | ⟨rest, rfl, -, total, frameEq⟩
      · exact ⟨none, rfl, rfl⟩
      · exact ⟨some rest, rfl, frameEq⟩
    refine ⟨le_rfl, List.length_take_le _ _, ?_⟩
    have split := List.take_append_drop capacity
      (unflushed taken input pending)
    by_cases flushed : (unflushed taken input pending).drop capacity = []
    · left
      refine ⟨?_, rfl, ?_⟩
      · simp [holdingBack, flushed]
      · rw [flushed, List.append_nil] at split
        simp only [holdingBack, split, frameEq]
    · right
      have leftPositive := List.length_pos_iff.2 flushed
      refine ⟨⟨_, congrArg Except.ok
        (Nat.succ_pred_eq_of_pos leftPositive).symm⟩,
        ⟨_, by simp [holdingBack], flushed, by simp [holdingBack], ?_⟩,
        ?_⟩
      · simp only [holdingBack]
        rw [List.append_assoc, split, frameEq]
      · by_cases inputNil : input = []
        · right
          subst inputNil
          simp only [List.length_drop] at leftPositive
          simp only [holdingBack, List.append_nil]
          change ((unflushed taken [] pending).drop capacity).length < _
          rw [List.length_drop]
          omega
        · left
          exact List.length_pos_iff.2 inputNil
  Decoding frame content dctx taken delivered :=
    frame = announcedFrame content ∧
      DecodingAnnounced content dctx taken delivered
  toDeliver _ := 0
  decoder :=
    ⟨.atMark, rfl, fun isFrame => ⟨isFrame, _, rfl, rfl⟩⟩
  decompress_call := by
    rintro _ content dctx taken delivered input capacity
      ⟨rfl, decoding⟩ nonempty within positive
    obtain ⟨hint, one, short, later⟩ :=
      decodeAnnounced_call decoding nonempty within
    have inputPos := List.length_pos_iff.2 nonempty
    refine ⟨hint, ?_, ?_, ⟨rfl, later⟩, Or.inl ?_⟩
    · exact one.trans_le inputPos
    · exact short.trans positive
    · exact one.symm ▸ Nat.one_pos
  decoded := by
    rintro _ content dctx delivered ⟨rfl, decoding⟩
    exact decodingAnnounced_complete decoding

/-- A content that ends with a full chunk is never given out. -/
theorem holdingBack_loses
    (content : Bytes) {inSize outSize : Nat}
    (inSizePos : 0 < inSize) (outSizePos : 0 < outSize)
    (nonempty : content ≠ [])
    (allFull : inSize ∣ content.length) :
    ¬ RoundTrips (holdingBack inSizePos outSizePos) content := by
  intro roundTrips
  obtain ⟨frame, ⟨finished, compresses⟩, bytesWritten, ended, restores⟩ :=
    roundTrips []
  let contract := holdingBackContract inSizePos outSizePos
  obtain ⟨fresh, opened, eqLoop⟩ := compress_eq_loop contract
  obtain ⟨given, observed, last, lost, stillOpen⟩ :=
    compressLoop_leaves_open contract [] opened allFull
  obtain rfl : given = [] := stillOpen.2
  simp only [eqLoop] at compresses
  have sameOutput := compresses.unique lost
  simp only [Outcome.returned.injEq, Streams.mk.injEq] at sameOutput
  obtain rfl : frame = [] := List.length_eq_zero_iff.1 sameOutput.1
  obtain ⟨dctx, created, -⟩ := contract.decoder
  have nothing := decompress_nothing created [] (OStream.atEnd [])
  have sameContent := nothing.unique restores
  simp only [Outcome.returned.injEq, Streams.mk.injEq, OStream.atEnd,
    OStream.mk.injEq] at sameContent
  exact nonempty sameContent.2.2.1.symm

/-! ## The exact lengths -/

/--
Whatever contract-abiding library is used, a content comes back if and only if
it is empty or its last read does not fill the read buffer.
-/
theorem roundTrips_iff_lastShort
    (content : Bytes) {inSize outSize : Nat}
    (inSizePos : 0 < inSize) (outSizePos : 0 < outSize) :
    (∀ lib : Library, lib.dStreamInSize = inSize →
        lib.dStreamOutSize = outSize → StreamingContract lib →
        RoundTrips lib content) ↔
      content = [] ∨ ¬ inSize ∣ content.length := by
  constructor
  · intro always
    by_contra lost
    push Not at lost
    exact holdingBack_loses content inSizePos outSizePos lost.1 lost.2
      (always (holdingBack inSizePos outSizePos) rfl rfl
        (holdingBackContract inSizePos outSizePos))
  · rintro (rfl | lastShort) lib rfl rfl contract
    · exact roundTrips_nil contract
    · exact roundTrips_of_lastShort contract lastShort

/-- With the buffer sizes of the real library a single byte comes back. -/
theorem roundTrips_iff_lastShort_single_byte :
    (∀ lib : Library, lib.dStreamInSize = 131075 →
        lib.dStreamOutSize = 131072 → StreamingContract lib →
        RoundTrips lib [97]) ↔
      ([97] : Bytes) = [] ∨ ¬ 131075 ∣ ([97] : Bytes).length :=
  roundTrips_iff_lastShort [97] (by decide) (by decide)

/-- One byte with a read buffer of one byte is lost. -/
theorem not_roundTrips_full_buffer :
    ¬ ∀ (lib : Library) (content : Bytes), StreamingContract lib →
      RoundTrips lib content := by
  intro always
  exact holdingBack_loses [97] Nat.one_pos Nat.one_pos (by decide)
    (by decide)
    (always (holdingBack Nat.one_pos Nat.one_pos) [97]
      (holdingBackContract Nat.one_pos Nat.one_pos))

end DropFile.Client.ZstdRoundTrip
