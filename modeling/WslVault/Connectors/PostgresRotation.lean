import WslVault.Core.Text

/-!
# Identifiers in PostgreSQL statements

`crates/wslvault-connectors/src/postgres_rotation.rs`: the name of a role or a database is
checked, and is quoted where a statement has it.
-/

namespace WslVault.Connectors

open Core

inductive ConnectorError where
  | configuration (reason : String)
  deriving DecidableEq, Repr

def validateIdentifier (identifier : String) : Except ConnectorError Unit :=
  if identifier = "" then .error (.configuration "PostgreSQL identifier must not be empty")
  else if identifier.utf8ByteSize > 63 then
    .error (.configuration ("PostgreSQL identifier '" ++ identifier ++ "' exceeds 63-byte limit"))
  else if '\x00' ∈ identifier.toList then
    .error (.configuration "PostgreSQL identifier must not contain NUL bytes")
  else .ok ()

def quoteIdentifier (identifier : String) : String :=
  "\"" ++ Text.replace "\"" "\"\"" identifier ++ "\""

end WslVault.Connectors
