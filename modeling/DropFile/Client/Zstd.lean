import DropFile.Streams

/-!
# `zstd::compress` and `zstd::decompress`

The two functions of `zstd.cpp` over an arbitrary libzstd.  The library is
outside the repository, so its contexts and calls are a parameter; what the
functions rely on is the streaming contract stated in the last section.
-/

namespace DropFile.Client.Zstd

open DropFile.General.FuelledProgram
open DropFile.Streams

/-! ## The library -/

/-- `ZSTD_EndDirective`, as far as it is used. -/
inductive EndDirective where
  | eContinue
  | eEnd
deriving DecidableEq, Repr

/-- `ZSTD_cParameter`, as far as it is used. -/
inductive CParameter where
  | compressionLevel
  | checksumFlag
deriving DecidableEq, Repr

/--
The effects of one streaming call: how far it moved `input.pos`, what it wrote
to `output.dst`, and its result, which is a number or the name of an error.
-/
structure StreamCall (Context : Type) where
  context : Context
  consumed : Nat
  produced : Bytes
  result : Except Bytes Nat

/--
The calls of libzstd that the program makes.  A streaming call is given the
unread part of its input buffer and the capacity of its output buffer; the
recommended buffer sizes are never 0.
-/
structure Library where
  CCtx : Type
  DCtx : Type
  dStreamInSize : Nat
  dStreamOutSize : Nat
  inSize_pos : 0 < dStreamInSize
  outSize_pos : 0 < dStreamOutSize
  createCCtx : Option CCtx
  setParameter : CCtx → CParameter → Int → Except Bytes CCtx
  resetSession : CCtx → Except Bytes CCtx
  compressStream2 :
    CCtx → EndDirective → Bytes → Nat → StreamCall CCtx
  createDCtx : Option DCtx
  decompressStream : DCtx → Bytes → Nat → StreamCall DCtx

/-! ## The two functions -/

/-- The streams a call works on. -/
structure Streams where
  input : IStream
  output : OStream
deriving DecidableEq, Repr

abbrev ZstdProgram (α : Type) := Program Exception Streams α

def zstdException (what : Bytes) : Exception :=
  ⟨.zstd, what⟩

/-- `input_stream.read(buffer, count)`; the result has length `gcount()`. -/
def readInput (count : Nat) : ZstdProgram Bytes :=
  Program.step fun streams =>
    ((streams.input.read count).1,
      { streams with input := (streams.input.read count).2 })

/-- `output_stream.write(bytes)`. -/
def writeOutput (bytes : Bytes) : ZstdProgram Unit :=
  Program.modifyState fun streams =>
    { streams with output := streams.output.write bytes }

def assertOk {α : Type} : Except Bytes α → ZstdProgram α
  | .ok value => pure value
  | .error name => Program.raise (zstdException name)

variable (lib : Library)

/-- One pass of the `do … while (!is_finished)` loop of `compress`. -/
def compressPass
    (chunk : Bytes) (isLastChunk : Bool) :
    lib.CCtx × Nat × Nat →
      ZstdProgram ((lib.CCtx × Nat × Nat) ⊕ (lib.CCtx × Nat × Nat))
  | (cctx, inputPos, bytesWritten) => do
      let mode : EndDirective :=
        if isLastChunk then .eEnd else .eContinue
      let call :=
        lib.compressStream2 cctx mode (chunk.drop inputPos)
          lib.dStreamOutSize
      let remaining ← assertOk call.result
      writeOutput call.produced
      let inputPos := inputPos + call.consumed
      let locals :=
        (call.context, inputPos, bytesWritten + call.produced.length)
      let isFinished : Bool :=
        if isLastChunk then remaining = 0 else inputPos = chunk.length
      if isFinished then
        pure (.inr locals)
      else
        pure (.inl locals)

def notConsumed : Bytes :=
  ascii
    "Impossible: zstd only returns 0 when the input is completely consumed!"

/-- One pass of the `while` loop of `compress`. -/
def compressChunk
    (fuel : Nat) :
    lib.CCtx × Nat → ZstdProgram ((lib.CCtx × Nat) ⊕ Nat)
  | (cctx, bytesWritten) => do
      let chunk ← readInput lib.dStreamInSize
      if chunk.length = 0 then
        pure (.inr bytesWritten)
      else
        let isLastChunk : Bool := chunk.length < lib.dStreamInSize
        let (cctx, inputPos, bytesWritten) ←
          Program.loop (fun _ => compressPass lib chunk isLastChunk) fuel
            (cctx, 0, bytesWritten)
        if inputPos ≠ chunk.length then
          Program.raise (zstdException notConsumed)
        else
          pure (.inl (cctx, bytesWritten))

/-- `zstd::compress(input_stream, output_stream, update_callback)`. -/
def compress (fuel : Nat) : ZstdProgram Nat := do
  match lib.createCCtx with
  | none =>
      Program.raise (zstdException (ascii "ZSTD_createCCtx() failed!"))
  | some cctx =>
      let cctx ← assertOk (lib.setParameter cctx .compressionLevel 6)
      let cctx ← assertOk (lib.setParameter cctx .checksumFlag 1)
      let cctx ← assertOk (lib.resetSession cctx)
      Program.loop (compressChunk lib) fuel (cctx, 0)

/-- One pass of the inner `while (input.pos < input.size)` loop. -/
def decompressPass
    (chunk : Bytes) :
    lib.DCtx × Nat × Nat →
      ZstdProgram ((lib.DCtx × Nat × Nat) ⊕ (lib.DCtx × Nat))
  | (dctx, inputPos, bytesWritten) => do
      if inputPos < chunk.length then
        let call :=
          lib.decompressStream dctx (chunk.drop inputPos)
            lib.dStreamOutSize
        let _ ← assertOk call.result
        writeOutput call.produced
        pure (.inl
          (call.context, inputPos + call.consumed,
            bytesWritten + call.produced.length))
      else
        pure (.inr (dctx, bytesWritten))

/-- One pass of the outer `while` loop of `decompress`. -/
def decompressChunk
    (compressedLength : Nat) (fuel : Nat) :
    lib.DCtx × Nat × Nat × Nat →
      ZstdProgram ((lib.DCtx × Nat × Nat × Nat) ⊕ Nat)
  | (dctx, totalRead, thisChunkSize, bytesWritten) => do
      let chunk ← readInput thisChunkSize
      if chunk.length = 0 then
        pure (.inr bytesWritten)
      else
        let totalRead := totalRead + chunk.length
        let leftToRead := sizeSub compressedLength totalRead
        let thisChunkSize := min lib.dStreamInSize leftToRead
        let (dctx, bytesWritten) ←
          Program.loop (fun _ => decompressPass lib chunk) fuel
            (dctx, 0, bytesWritten)
        pure (.inl (dctx, totalRead, thisChunkSize, bytesWritten))

/--
`zstd::decompress(decompressed_out_stream, compressed_in_stream,
compressed_length)`.
-/
def decompress (compressedLength : Nat) (fuel : Nat) :
    ZstdProgram Nat := do
  match lib.createDCtx with
  | none =>
      Program.raise (zstdException (ascii "ZSTD_createDCtx() failed!"))
  | some dctx =>
      let thisChunkSize := min lib.dStreamInSize compressedLength
      Program.loop (decompressChunk lib compressedLength) fuel
        (dctx, 0, thisChunkSize, 0)

theorem compress_grows : Program.Grows (compress lib) := by
  intro fuel more ordered
  unfold compress
  cases lib.createCCtx with
  | none => exact Program.Approximates.refl _
  | some cctx =>
      refine Program.Approximates.bind (Program.Approximates.refl _)
        fun _ => Program.Approximates.bind (Program.Approximates.refl _)
          fun _ => Program.Approximates.bind
            (Program.Approximates.refl _) fun fresh =>
              Program.Approximates.loop ?_ ordered _
      rintro fuel more ⟨cctx, bytesWritten⟩ ordered
      refine Program.Approximates.bind (Program.Approximates.refl _)
        fun chunk => ?_
      split_ifs
      · exact Program.Approximates.refl _
      · exact Program.Approximates.bind
          (Program.Approximates.loop
            (fun _ _ _ _ => Program.Approximates.refl _) ordered _)
          fun _ => Program.Approximates.refl _

/-! ## The streaming contract -/

/--
What the documentation of libzstd promises about its streaming calls.

`Compressing cctx taken emitted` says that the open frame of `cctx` has taken
the bytes `taken` and given out the bytes `emitted`; nothing says how much of
the input is still held back, until a call with `ZSTD_e_end` returns 0.  Once
such a call has returned something else the frame is `Ending`: its whole
content is fixed, and only calls with `ZSTD_e_end` and the rest of that
content are allowed.  `Decoding frame content dctx taken delivered` speaks in
the same way about a frame that is being read.  A call that does not reach its
end makes progress: it consumes input or has less left to give out.
-/
structure StreamingContract where
  /-- The complete frames and their contents. -/
  IsFrame : Bytes → Bytes → Prop
  Compressing : lib.CCtx → Bytes → Bytes → Prop
  Ending : lib.CCtx → Bytes → Bytes → Bytes → Prop
  toFlush : lib.CCtx → Nat
  prepared :
    ∃ created levelled checked fresh,
      lib.createCCtx = some created ∧
      lib.setParameter created .compressionLevel 6 = .ok levelled ∧
      lib.setParameter levelled .checksumFlag 1 = .ok checked ∧
      lib.resetSession checked = .ok fresh ∧
      Compressing fresh [] []
  continue_call :
    ∀ {cctx taken emitted} (input : Bytes) {capacity : Nat},
      Compressing cctx taken emitted → 0 < capacity →
      let call := lib.compressStream2 cctx .eContinue input capacity
      (∃ hint, call.result = .ok hint) ∧
      call.consumed ≤ input.length ∧
      call.produced.length ≤ capacity ∧
      Compressing call.context
        (taken ++ input.take call.consumed)
        (emitted ++ call.produced) ∧
      (call.consumed = input.length ∨ 0 < call.consumed ∨
        toFlush call.context < toFlush cctx)
  end_call :
    ∀ {cctx taken emitted} (input : Bytes) {capacity : Nat},
      Compressing cctx taken emitted ∨
        Ending cctx (taken ++ input) taken emitted →
      0 < capacity →
      let call := lib.compressStream2 cctx .eEnd input capacity
      call.consumed ≤ input.length ∧
      call.produced.length ≤ capacity ∧
      (call.result = .ok 0 ∧ call.consumed = input.length ∧
          IsFrame (emitted ++ call.produced) (taken ++ input) ∨
        (∃ remaining, call.result = .ok (remaining + 1)) ∧
          Ending call.context (taken ++ input)
            (taken ++ input.take call.consumed)
            (emitted ++ call.produced) ∧
          (0 < call.consumed ∨ toFlush call.context < toFlush cctx))
  Decoding : Bytes → Bytes → lib.DCtx → Bytes → Bytes → Prop
  toDeliver : lib.DCtx → Nat
  decoder :
    ∃ fresh, lib.createDCtx = some fresh ∧
      ∀ {frame content}, IsFrame frame content →
        Decoding frame content fresh [] []
  decompress_call :
    ∀ {frame content dctx taken delivered} {input : Bytes}
      {capacity : Nat},
      Decoding frame content dctx taken delivered →
      input ≠ [] → taken ++ input <+: frame → 0 < capacity →
      let call := lib.decompressStream dctx input capacity
      (∃ hint, call.result = .ok hint) ∧
      call.consumed ≤ input.length ∧
      call.produced.length ≤ capacity ∧
      Decoding frame content call.context
        (taken ++ input.take call.consumed)
        (delivered ++ call.produced) ∧
      (0 < call.consumed ∨ toDeliver call.context < toDeliver dctx)
  /-- The last byte of a frame is consumed only with all content delivered. -/
  decoded :
    ∀ {frame content dctx delivered},
      Decoding frame content dctx frame delivered →
      delivered = content

end DropFile.Client.Zstd
