import Mathlib.Init

/-!
# JSON values

`serde_json::Value`, and the JSONB columns of the database.
-/

namespace WslVault.Core

/-- The fields of an object are in the order of the map they are kept in. A
number that is no integer is kept as its text. -/
inductive Json where
  | null
  | bool (b : Bool)
  | int (n : Int)
  | float (text : String)
  | string (s : String)
  | array (items : List Json)
  | object (fields : List (String × Json))
  deriving Repr, Inhabited

end WslVault.Core
