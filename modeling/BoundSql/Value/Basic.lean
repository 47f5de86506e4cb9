import BoundSql.Calendar.Instant
import BoundSql.Json.Basic
import BoundSql.Number.Binary64

/-!
# Values

A value is an argument bound to a placeholder, or what a database returns in a column.
-/
namespace BoundSql

open Number (Binary64)
open Calendar (Instant)

inductive Value where
  | null
  | bool (b : Bool)
  | int (n : Int64)
  | float (x : Binary64)
  | text (s : String)
  | bytes (bs : List UInt8)
  | time (t : Instant)
  | json (j : Json)

namespace Value

instance : Inhabited Value := ⟨.null⟩

def isNull : Value → Bool
  | .null => true
  | _ => false

/-- The word for a value's variant in messages. -/
def typeName : Value → String
  | .null => "NULL"
  | .bool _ => "bool"
  | .int _ => "int"
  | .float _ => "float"
  | .text _ => "text"
  | .bytes _ => "bytes"
  | .time _ => "time"
  | .json _ => "json"

end Value

end BoundSql
