import BoundSql.Json.Printer
import BoundSql.Text.Quoted
import BoundSql.Value.Basic

/-!
# Values as text

`toText` is the plain form. `literal` is the form that stands for the value inside a statement
that is shown to a reader; statements that run always bind.
-/
namespace BoundSql.Value

open Text.Digits (upperHexByte intText)
open Text (quotedText)

def byteList (bs : List UInt8) : String :=
  "[" ++ String.intercalate ", " (bs.map fun b => Text.Digits.text b.toNat) ++ "]"

def toText : Value → String
  | .null => "NULL"
  | .bool true => "true"
  | .bool false => "false"
  | .int n => intText n.toInt
  | .float x => x.toText
  | .text s => s
  | .bytes bs => byteList bs
  | .time t => t.toText
  | .json j => j.toText

def literal : Value → String
  | .null => "NULL"
  | .bool true => "TRUE"
  | .bool false => "FALSE"
  | .int n => intText n.toInt
  | .float x => x.toText
  | .text s => quotedText s
  | .bytes bs => "X'" ++ String.ofList (bs.flatMap upperHexByte) ++ "'"
  | .time t => quotedText t.toText
  | .json j => quotedText j.toText

end BoundSql.Value
