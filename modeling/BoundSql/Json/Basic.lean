import BoundSql.Number.Binary64

/-!
# JSON documents

Whole numbers that fit 64 bits, with or without sign, stay whole; every other number is a double.
The fields of an object are kept in the order of their names, each name once.
-/
namespace BoundSql

inductive Json where
  | null
  | bool (b : Bool)
  | integer (n : Int)
  | float (x : Number.Binary64)
  | string (s : String)
  | array (items : List Json)
  | object (fields : List (String × Json))

namespace Json

/-- Add a field; a later one replaces an earlier one of the same name. -/
def insertField (name : String) (value : Json) : List (String × Json) → List (String × Json)
  | [] => [(name, value)]
  | (n, v) :: rest =>
      if name < n then (name, value) :: (n, v) :: rest
      else if name = n then (name, value) :: rest
      else (n, v) :: insertField name value rest

end Json

end BoundSql
