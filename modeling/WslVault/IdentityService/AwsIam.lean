import Mathlib.Data.List.TakeWhile
import WslVault.Base.Except

/-!
# AWS IAM login

`AwsIamManager::validate` of `aws_iam.rs` up to the request that it sends, and the host that
the URL library finds in a URL. The base64 and JSON libraries are parameters, and so is what
the URL library makes of a host that is not a plain ASCII name.
-/

namespace WslVault.IdentityService.AwsIam

open Base

inductive AwsIamError where
  | invalidUrl (message : String)
  | parseError (message : String)

structure StsRequest where
  url : String
  body : List UInt8
  headers : List (String × String)

def startsWith (s start : String) : Bool := start.toList.isPrefixOf s.toList

def validate (decode : String → Except String (List UInt8))
    (fromStr : String → Except String (List (String × String)))
    (iamRequestUrl iamRequestBody iamRequestHeadersJson : String) :
    Except AwsIamError StsRequest := do
  refuseIf (!startsWith iamRequestUrl "https://sts.amazonaws.com" &&
      !startsWith iamRequestUrl "https://sts.")
    (.invalidUrl ("URL must point to AWS STS: " ++ iamRequestUrl))
  let bodyBytes ← (decode iamRequestBody).mapError fun e =>
    AwsIamError.parseError ("base64 decode body: " ++ e)
  let headers ← (fromStr iamRequestHeadersJson).mapError fun e =>
    AwsIamError.parseError ("parse headers JSON: " ++ e)
  return ⟨iamRequestUrl, bodyBytes, headers⟩

/-- The characters that end the authority of a URL. -/
def authorityEnds : List Char := ['/', '\\', '?', '#']

variable (other : String → Option (List Char)) (url : String)

/-- What is between `https://` and the path, query or fragment. -/
def authority : List Char :=
  (url.toList.drop 8).takeWhile (· ∉ authorityEnds)

/-- The authority without the user information and the port. -/
def hostText : List Char :=
  ((authority url).reverse.takeWhile (· ≠ '@')).reverse.takeWhile (· ≠ ':')

/-- An ASCII name of which no label starts with a digit, as in an address. -/
def plainName (text : List Char) : Bool :=
  (text.all fun c => c.isAlphanum || c == '-' || c == '.') &&
    (text.splitOn '.').all fun label => !label.head?.any Char.isDigit

/-- The host of an `https://` URL. A plain name is written in lower case; for every other text
the library decides, which may also refuse the URL. -/
def host : Option (List Char) :=
  if plainName (hostText url) then some ((hostText url).map Char.toLower) else other url

def IsStsHost (name : List Char) : Prop :=
  name = "sts.amazonaws.com".toList ∨
    ∃ region, region ≠ [] ∧ '.' ∉ region ∧
      name = "sts.".toList ++ region ++ ".amazonaws.com".toList

end WslVault.IdentityService.AwsIam
