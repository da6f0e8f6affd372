import Mathlib.Data.List.AList
import WslVault.Core.Text

/-!
# Shared types of the services
-/

namespace WslVault.Core

/-- Microseconds since the epoch, UTC. -/
abbrev Timestamp := Int

def seconds (n : Int) : Timestamp := n * 1000000

/-- `HashMap<String, String>`, and a JSONB object of strings. -/
abbrev Metadata := AList fun _ : String => String

instance : DecidableEq Metadata := fun _ _ => decidable_of_iff _ AList.ext_iff.symm

/-- `HeaderMap` and `MetadataMap`, which keep repeated names: a lookup reads the first. -/
abbrev Headers := List (String × String)

inductive SecretEnvironment where
  | int
  | test
  | acc
  | prod
  deriving DecidableEq, Repr

namespace SecretEnvironment

def fromStr (s : String) : Option SecretEnvironment :=
  match Text.toUppercase (Text.trim s) with
  | "INT" => some int
  | "TEST" => some test
  | "ACC" => some acc
  | "PROD" => some prod
  | _ => none

def asStr : SecretEnvironment → String
  | int => "INT"
  | test => "TEST"
  | acc => "ACC"
  | prod => "PROD"

theorem fromStr_asStr (env : SecretEnvironment) : fromStr env.asStr = some env := by
  cases env <;> decide +kernel

def unknown (s : String) : String :=
  "unknown environment '" ++ Text.toUppercase (Text.trim s) ++
    "'; must be one of: INT, TEST, ACC, PROD"

end SecretEnvironment

inductive KeyPurpose where
  | rootKek
  | tenantKek
  | dataEncryption
  | signing
  | transit
  deriving DecidableEq, Repr

/-- `KeyState`, in the order of a key's life. -/
inductive KeyState where
  | active
  | rotatingOut
  | retired
  | destroyed
  deriving DecidableEq, Repr

/-! ## Casts

PostgreSQL's `INTEGER` is a signed 32-bit integer and the services count in
`u32`; values cross by `as` casts, which wrap.
-/

def asI32 (n : UInt32) : Int :=
  if n.toNat < 2147483648 then n.toNat else n.toNat - 4294967296

def asU32 (n : Int) : UInt32 := UInt32.ofNat (n % 4294967296).toNat

theorem toNat_asU32 (n : Int) : ((asU32 n).toNat : Int) = n % 4294967296 := by
  rw [asU32, UInt32.toNat_ofNat_of_lt' (by simp only [UInt32.size]; omega)]
  omega

theorem asU32_asI32 (n : UInt32) : asU32 (asI32 n) = n := by
  have hn : n.toNat < 4294967296 := n.toNat_lt
  have h := toNat_asU32 (asI32 n)
  have hmod : asI32 n % 4294967296 = n.toNat := by
    unfold asI32
    split <;> omega
  apply UInt32.toNat_inj.mp
  omega

theorem asI32_asU32 {n : Int} (h : -2147483648 ≤ n) (h' : n ≤ 2147483647) :
    asI32 (asU32 n) = n := by
  have := toNat_asU32 n
  unfold asI32
  split <;> omega

theorem asU32_ne_zero {n : Int} (h : 1 ≤ n) (h' : n ≤ 2147483647) : asU32 n ≠ 0 := by
  intro hzero
  have := toNat_asU32 n
  rw [hzero, UInt32.toNat_zero] at this
  omega

end WslVault.Core
