import WslVault.Core.Crypto

/-!
# Wrapped transit keys

The associated data under which the database keeps the material of a transit key
(`services/transit-engine/src/pg_store.rs`).
-/

namespace WslVault.TransitEngine

open Core

def wrapAad (tenantId keyName : String) (version : UInt32) : Bytes :=
  asBytes ("transit:" ++ tenantId ++ ":" ++ keyName ++ ":v" ++ toString version.toNat)

end WslVault.TransitEngine
