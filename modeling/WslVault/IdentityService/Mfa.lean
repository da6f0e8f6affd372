import WslVault.Base.Map
import WslVault.IdentityService.ApiKeys

/-!
# Codes and challenges

`services/identity-service/src/mfa.rs`: which code of an authenticator is accepted, the
hashes under which a recovery code may be stored, and the challenges of logins that wait for
a code. HOTP and SHA-256 are parameters.
-/

namespace WslVault.IdentityService

open Core Base

namespace Mfa

def toAsciiUppercase (s : String) : String := String.ofList (s.toList.map Char.toUpper)

def base32Alphabet : List Char := "ABCDEFGHIJKLMNOPQRSTUVWXYZ234567".toList

def base32Symbol (n : UInt16) : Char := base32Alphabet.getD (n &&& 0x1F).toNat 'A'

-- the inner loop: a symbol for each five of the `bits` lowest bits of the buffer
def base32Emit (buffer : UInt16) (bits : Nat) (out : List Char) : Nat × List Char :=
  if 5 ≤ bits then
    base32Emit buffer (bits - 5) (out ++ [base32Symbol (buffer >>> .ofNat (bits - 5))])
  else (bits, out)

def base32Byte (st : UInt16 × Nat × List Char) (byte : UInt8) : UInt16 × Nat × List Char :=
  let buffer := (st.1 <<< 8) ||| byte.toUInt16
  (buffer, base32Emit buffer (st.2.1 + 8) st.2.2)

def base32Encode (data : Bytes) : String :=
  let (buffer, bits, out) := data.foldl base32Byte (0, 0, [])
  String.ofList
    (if 0 < bits then out ++ [base32Symbol (buffer <<< .ofNat (5 - bits))] else out)

def base32Char (st : UInt16 × Nat × Bytes) (c : Char) : Option (UInt16 × Nat × Bytes) :=
  let (buffer, bits, out) := st
  if c = '=' then some st
  else
    match base32Alphabet.idxOf? c with
    | none => none
    | some idx =>
      let buffer := (buffer <<< 5) ||| .ofNat idx
      if 8 ≤ bits + 5 then
        some (buffer, bits - 3, out ++ [(buffer >>> .ofNat (bits - 3)).toUInt8])
      else some (buffer, bits + 5, out)

def base32Decode (text : String) : Option Bytes :=
  ((toAsciiUppercase (Text.trim text)).toList.foldlM base32Char (0, 0, [])).map (·.2.2)

def stepAt (unixSeconds : Int) : Int := unixSeconds.tdiv 30

/-- The step that a code belongs to; one step of drift is tolerated. -/
def verifyCode (hotp : Bytes → Int → String) (secret code : String) (now : Int) : Option Int :=
  (base32Decode secret).bind fun key =>
    [stepAt now - 1, stepAt now, stepAt now + 1].find? fun step => hotp key step == Text.trim code

def normalised (code : String) : String :=
  String.ofList ((code.toList.filter Char.isAlphanum).map Char.toUpper)

variable (sha256 : String → String)

def hashRecoveryCode (code : String) : String := sha256 (normalised code)

def legacyHashRecoveryCode (code : String) : String :=
  sha256 (toAsciiUppercase (Text.trim code))

/-- Every hash that a code may be stored under; a legacy one has the hyphen. -/
def recoveryCodeHashCandidates (code : String) : List String :=
  let letters := (normalised code).toList
  [hashRecoveryCode sha256 code, legacyHashRecoveryCode sha256 code] ++ if letters.length = 16 then
      [legacyHashRecoveryCode sha256
        (String.ofList (letters.take 8) ++ "-" ++ String.ofList (letters.drop 8))]
    else []

abbrev Challenges := AList (fun _ : String => PendingChallenge)

/-- What has expired is dropped when another one is stored. -/
def issue (challenges : Challenges) (now : Timestamp) (id : String) (pending : PendingChallenge) :
    Challenges :=
  (retain (fun _ c => decide (Jwt.unix now < c.expiresAt)) challenges).insert id pending

/-- A challenge is removed whether it has expired or not. -/
def take (challenges : Challenges) (now : Timestamp) (id : String) :
    Challenges × Option PendingChallenge :=
  (challenges.erase id, (challenges.lookup id).filter fun c => decide (Jwt.unix now < c.expiresAt))

end Mfa

end WslVault.IdentityService
