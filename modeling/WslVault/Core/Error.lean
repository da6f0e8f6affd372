import Mathlib.Init

/-!
# The error hierarchy

`VaultError` of `wslvault-core`, shared by every service. Replies compare
errors by their machine-readable `code`.
-/

namespace WslVault.Core

inductive VaultError where
  | sealed
  | unauthenticated (reason : String)
  | permissionDenied (resource reason : String)
  | secretNotFound (path : String) (version : Option UInt32)
  | tenantNotFound (tenantId : String)
  | keyNotFound (keyId : String)
  | leaseNotFound (leaseId : String)
  | encryptionFailed (reason : String)
  | decryptionFailed
  | keyRotationFailed (reason : String)
  | invalidPath (path reason : String)
  | casConflict (expected actual : UInt32)
  | versionDestroyed (version : UInt32)
  | validationError (field reason : String)
  | invalidOperation (reason : String)
  | quotaExceeded (reason : String)
  | database (reason : String)
  | storage (reason : String)
  | serviceUnavailable (service : String)
  | leaseExpired (leaseId : String)
  | unsupportedOperation (engineType operation : String)
  | internal (reason : String)
  | other (reason : String)
  deriving DecidableEq, Repr

def VaultError.code : VaultError → String
  | .sealed => "sealed"
  | .unauthenticated _ => "unauthenticated"
  | .permissionDenied _ _ => "permission_denied"
  | .secretNotFound _ _ => "not_found"
  | .tenantNotFound _ => "not_found"
  | .keyNotFound _ => "not_found"
  | .leaseNotFound _ => "not_found"
  | .encryptionFailed _ => "encryption_failed"
  | .decryptionFailed => "decryption_failed"
  | .keyRotationFailed _ => "key_rotation_failed"
  | .invalidPath _ _ => "invalid_path"
  | .casConflict _ _ => "cas_conflict"
  | .versionDestroyed _ => "version_destroyed"
  | .validationError _ _ => "validation_error"
  | .invalidOperation _ => "invalid_operation"
  | .quotaExceeded _ => "quota_exceeded"
  | .database _ => "database_error"
  | .storage _ => "storage_error"
  | .serviceUnavailable _ => "service_unavailable"
  | .leaseExpired _ => "lease_expired"
  | .unsupportedOperation _ _ => "unsupported_operation"
  | .internal _ => "internal_error"
  | .other _ => "internal_error"

def VaultError.httpStatus : VaultError → Nat
  | .sealed => 503
  | .unauthenticated _ => 401
  | .permissionDenied _ _ => 403
  | .secretNotFound _ _ | .tenantNotFound _ | .keyNotFound _ | .leaseNotFound _ => 404
  | .casConflict _ _ => 409
  | .versionDestroyed _ => 410
  | .quotaExceeded _ => 429
  | .validationError _ _ | .invalidPath _ _ | .invalidOperation _ => 400
  | .serviceUnavailable _ => 503
  | .leaseExpired _ => 403
  | _ => 500

/-- `{:?}` of a string, as far as its characters are printable. -/
def debugStr (s : String) : String :=
  let escape (c : Char) : List Char :=
    if c = '"' || c = '\\' then ['\\', c]
    else if c = '\n' then ['\\', 'n']
    else if c = '\r' then ['\\', 'r']
    else if c = '\t' then ['\\', 't']
    else [c]
  "\"" ++ String.ofList (s.toList.flatMap escape) ++ "\""

def debugVersion : Option UInt32 → String
  | none => "None"
  | some version => "Some(" ++ toString version ++ ")"

def VaultError.display : VaultError → String
  | .sealed => "vault is sealed"
  | .unauthenticated reason => "authentication required: " ++ reason
  | .permissionDenied resource reason => "permission denied on " ++ resource ++ ": " ++ reason
  | .secretNotFound path version =>
    "secret not found at path " ++ debugStr path ++ " (version " ++ debugVersion version ++ ")"
  | .tenantNotFound tenantId => "tenant not found: " ++ tenantId
  | .keyNotFound keyId => "key not found: " ++ keyId
  | .leaseNotFound leaseId => "lease not found: " ++ leaseId
  | .encryptionFailed reason => "encryption failed: " ++ reason
  | .decryptionFailed => "decryption failed: invalid ciphertext or key"
  | .keyRotationFailed reason => "key rotation failed: " ++ reason
  | .invalidPath path reason => "invalid path " ++ debugStr path ++ ": " ++ reason
  | .casConflict expected actual =>
    "check-and-set conflict: expected version " ++ toString expected ++ ", got " ++
      toString actual
  | .versionDestroyed version => "secret version " ++ toString version ++ " has been destroyed"
  | .validationError field reason => "validation error: " ++ field ++ ": " ++ reason
  | .invalidOperation reason => "invalid operation: " ++ reason
  | .quotaExceeded reason => "quota exceeded: " ++ reason
  | .database reason => "database error: " ++ reason
  | .storage reason => "storage error: " ++ reason
  | .serviceUnavailable service => "upstream service unavailable: " ++ service
  | .leaseExpired leaseId => "lease expired: " ++ leaseId
  | .unsupportedOperation engineType operation =>
    "operation not supported by engine " ++ engineType ++ ": " ++ operation
  | .internal reason => "internal error: " ++ reason
  | .other reason => reason

end WslVault.Core
