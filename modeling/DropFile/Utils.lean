import DropFile.FileSystem
import DropFile.General.Hexadecimal

/-!
# `Utils`

The control hash of a file.  The message digest of the cryptographic library
is a parameter.
-/

namespace DropFile.Utils

open DropFile.General
open DropFile.General.Files
open DropFile.General.PathNames
open DropFile.Streams
open DropFile.FileSystem

def utilsException (what : Bytes) : Exception :=
  ⟨.utils, what⟩

/-- `EVP_sha256` and the functions that compute it; `none` is an error. -/
structure DigestLibrary where
  Context : Type
  create : Option Context
  digestInit : Context → Option Context
  digestUpdate : Context → Bytes → Option Context
  digestFinal : Context → Option Bytes

/-- The result of a call of the library, or an exception. -/
def orUtilsException {α : Type} (what : String) :
    Option α → Except Exception α
  | some value => .ok value
  | none => .error (utilsException (ascii what))

/-- Two lower-case digits for every byte. -/
def binaryToHumanReadable (data : Bytes) : Bytes :=
  Hexadecimal.encode data

variable (digest : DigestLibrary)

def hashBufferSize : Nat := 8192

/--
The loop of `calculateFileHash`.  Every pass but the last consumes a full
buffer, so one pass more than there are bytes is enough.
-/
def updateAll : (passes : Nat) → IStream → digest.Context →
    Except Exception digest.Context
  | 0, _, mdctx => pure mdctx
  | passes + 1, file, mdctx =>
      if file.good then do
        let (buffer, file) := file.read hashBufferSize
        let mdctx ←
          if buffer.length > 0 then
            orUtilsException "Error updating digest."
              (digest.digestUpdate mdctx buffer)
          else
            pure mdctx
        updateAll passes file mdctx
      else
        pure mdctx

/-- What `calculateFileHash` does with a file that is open. -/
def hashContent (content : Bytes) (mdctx : digest.Context) :
    Except Exception Bytes := do
  let mdctx ←
    updateAll digest (content.length + 1) (IStream.ofBytes content) mdctx
  let hashResult ←
    orUtilsException "Error finalizing digest." (digest.digestFinal mdctx)
  pure (binaryToHumanReadable hashResult)

/-- `calculateFileHash`.  A directory can be opened, but not read. -/
def calculateFileHash (tree : FileTree) (workingDirectory : Location)
    (path : PathName) : Except Exception Bytes := do
  let mdctx ←
    orUtilsException "Error creating context for hashing." digest.create
  let mdctx ←
    orUtilsException "Error initializing digest context."
      (digest.digestInit mdctx)
  match status tree workingDirectory path with
  | none =>
      .error (utilsException (ascii "Error opening file: " ++ path))
  | some .directory => hashContent digest [] mdctx
  | some (.file content) => hashContent digest content mdctx

end DropFile.Utils
