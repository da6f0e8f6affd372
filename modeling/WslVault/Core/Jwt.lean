import WslVault.Core.Crypto
import WslVault.Core.Types

/-!
# JSON web tokens

The library `jsonwebtoken` as the services use it. Signatures are ideal: one is accepted
under the secret it was made with and under no other, and an Ed25519 key pair is told by
its public half. What a text decodes to before any check (`Texts`) is a parameter.
-/

namespace WslVault.Core.Jwt

open Base

/-- An algorithm the services do not use has the name `{:?}` prints. -/
inductive Algorithm where
  | hs256
  | edDSA
  | other (name : String)
  deriving DecidableEq, Repr

def Algorithm.debug : Algorithm → String
  | hs256 => "HS256"
  | edDSA => "EdDSA"
  | other name => name

structure Header where
  alg : Algorithm
  kid : Option String
  deriving DecidableEq, Repr

structure Payload where
  (sub tenantId : Option String)
  policies : Option (List String)
  superuser : Option Bool
  (iss aud : Option String)
  (iat exp : Option Int)
  deriving DecidableEq, Repr

inductive Signer where
  | hmac (secret : Bytes)
  | ed25519 (publicKey : Bytes)
  deriving DecidableEq, Repr

/-- `none` is a signature that no secret made. -/
structure Token where
  header : Header
  payload : Payload
  signature : Option Signer
  deriving DecidableEq, Repr

def Signer.algorithm : Signer → Algorithm
  | hmac _ => .hs256
  | ed25519 _ => .edDSA

/-- What a text decodes to, signature and claims unchecked. -/
abbrev Texts := String → Option Token

inductive Error where
  | invalidToken
  | invalidAlgorithm
  | invalidSignature
  | missingField (field : String)
  | missingRequiredClaim (claim : String)
  | expiredSignature
  | invalidIssuer
  | invalidAudience
  deriving DecidableEq, Repr

/-- The text of an error; that of a missing field goes on with its position. -/
def Error.display : Error → String
  | invalidToken => "InvalidToken"
  | invalidAlgorithm => "InvalidAlgorithm"
  | invalidSignature => "InvalidSignature"
  | missingField field => "JSON error: missing field `" ++ field ++ "`"
  | missingRequiredClaim claim => "Missing required claim: " ++ claim
  | expiredSignature => "ExpiredSignature"
  | invalidIssuer => "InvalidIssuer"
  | invalidAudience => "InvalidAudience"

/-- `encode`: the secret has to be one for the header's algorithm. -/
def encode (header : Header) (payload : Payload) (key : Signer) : Except Error Token := do
  refuseIf (header.alg ≠ key.algorithm) .invalidAlgorithm
  return ⟨header, payload, some key⟩

def decodeHeader (texts : Texts) (text : String) : Except Error Header :=
  (okOr (texts text) .invalidToken).map (·.header)

/-- What is checked of the claims. `Validation::new` has a leeway of 60 seconds
and checks the audience; the issuer is checked once it is set. -/
structure Validation where
  algorithm : Algorithm
  leeway : Int
  (iss aud : Option String)
  validateAud : Bool

def Validation.new (algorithm : Algorithm) : Validation := ⟨algorithm, 60, none, none, true⟩

def unix (now : Timestamp) : Int := now / 1000000

def validate (v : Validation) (now : Timestamp) (p : Payload) : Except Error Unit := do
  refuseIf (p.exp = none) (.missingRequiredClaim "exp")
  refuseIf (p.exp.any (· < unix now - v.leeway)) .expiredSignature
  refuseIf (v.iss.isSome ∧ p.iss.isSome ∧ p.iss ≠ v.iss) .invalidIssuer
  refuseIf (v.validateAud ∧ p.aud.isSome ∧ p.aud ≠ v.aud) .invalidAudience

/-- `decode`: the signature, then the claims as the caller's type, then what the
caller wants checked of them. -/
def decode {γ : Type} (texts : Texts) (claims : Payload → Except Error γ) (key : Signer)
    (v : Validation) (now : Timestamp) (text : String) : Except Error γ := do
  let token ← okOr (texts text) .invalidToken
  refuseIf (token.header.alg ≠ v.algorithm) .invalidAlgorithm
  refuseIf (token.signature ≠ some key) .invalidSignature
  let c ← claims token.payload
  validate v now token.payload
  return c

def required {α : Type} (field : String) (claim : Option α) : Except Error α :=
  okOr claim (.missingField field)

theorem validate_eq_ok {v : Validation} {now : Timestamp} {p : Payload} :
    validate v now p = .ok () ↔ (∃ exp, p.exp = some exp ∧ unix now ≤ exp + v.leeway) ∧
        (v.iss.isSome → p.iss.isSome → p.iss = v.iss) ∧
        (v.validateAud = true → p.aud.isSome → p.aud = v.aud) := by
  simp only [validate, bind_eq_ok, refuseIf_eq_ok]
  cases p.exp with
  | none => simp
  | some exp =>
    have hexp : unix now - v.leeway ≤ exp ↔ unix now ≤ exp + v.leeway := by omega
    simp [hexp]

theorem encode_eq_ok {header : Header} {payload : Payload} {key : Signer} {token : Token} :
    encode header payload key = .ok token ↔
      header.alg = key.algorithm ∧ token = ⟨header, payload, some key⟩ := by
  simp only [encode, bind_eq_ok, refuseIf_eq_ok, pure_eq_ok, not_not]
  grind

theorem decode_eq_ok {γ : Type} {texts : Texts} {claims : Payload → Except Error γ} {key : Signer}
    {v : Validation} {now : Timestamp} {text : String} {c : γ} :
    decode texts claims key v now text = .ok c ↔
      ∃ token, texts text = some token ∧ token.header.alg = v.algorithm ∧
        token.signature = some key ∧ claims token.payload = .ok c ∧
        validate v now token.payload = .ok () := by
  simp only [decode, bind_eq_ok, refuseIf_eq_ok, okOr_eq_ok, pure_eq_ok, not_not]
  grind

end WslVault.Core.Jwt
