import WslVault.Base.Except
import WslVault.Core.Error
import WslVault.Core.Text

/-!
# Secret paths

The canonical form of a path (`services/secret-engine/src/path.rs`): no slash at
either end, no empty segment, no `..`, and letters, digits and four marks only.
-/

namespace WslVault.SecretEngine

open Base Core

def emptySegment : String := "path must not contain empty segments (//)"

def traversal : String := "path must not contain '..' traversal segments"

/-- The first segment that is not allowed, if any, gives the error. -/
def checkSegments (raw : String) : List String → Except VaultError Unit
  | [] => .ok ()
  | segment :: segments =>
    if segment = "" then .error (.invalidPath raw emptySegment)
    else if segment = ".." then .error (.invalidPath raw traversal)
    else checkSegments raw segments

def normalizePath (raw : String) : Except VaultError String := do
  let trimmed := Text.trimMatches '/' raw
  refuseIf (trimmed = "") (.invalidPath raw "path must not be empty")
  checkSegments raw (Text.split '/' trimmed)
  return trimmed

def permitted (ch : Char) : Bool :=
  ch.isAlphanum || ch == '-' || ch == '_' || ch == '.' || ch == '/'

def validatePath (path : String) : Except VaultError Unit :=
  match path.toList.find? (!permitted ·) with
  | none => .ok ()
  | some ch =>
    .error (.invalidPath path ("character '" ++ String.singleton ch ++ "' is not allowed; only " ++
      "alphanumeric, '-', '_', '.', and '/' are permitted"))

def normalizeAndValidate (raw : String) : Except VaultError String := do
  let normalized ← normalizePath raw
  validatePath normalized
  return normalized

end WslVault.SecretEngine
