/-!
# PostgreSQL types

The types that have a binary form of their own here. Every other type is known by its name only.
-/
namespace BoundSql.Wire

inductive ColumnType where
  | bool
  | int2
  | int4
  | int8
  | oid
  | float4
  | float8
  | numeric
  | text
  | varchar
  | bpchar
  | name
  | unknown
  | citext
  | ltree
  | lquery
  | ltxtquery
  | bytea
  | json
  | jsonb
  | uuid
  | timestamptz
  | timestamp
  | date
  | time
  | inet
  | other (typeName : String)
  deriving DecidableEq, Repr

namespace ColumnType

def typeName : ColumnType → String
  | bool => "bool"
  | int2 => "int2"
  | int4 => "int4"
  | int8 => "int8"
  | oid => "oid"
  | float4 => "float4"
  | float8 => "float8"
  | numeric => "numeric"
  | text => "text"
  | varchar => "varchar"
  | bpchar => "bpchar"
  | name => "name"
  | unknown => "unknown"
  | citext => "citext"
  | ltree => "ltree"
  | lquery => "lquery"
  | ltxtquery => "ltxtquery"
  | bytea => "bytea"
  | json => "json"
  | jsonb => "jsonb"
  | uuid => "uuid"
  | timestamptz => "timestamptz"
  | timestamp => "timestamp"
  | date => "date"
  | time => "time"
  | inet => "inet"
  | other typeName => typeName

def known : List ColumnType :=
  [bool, int2, int4, int8, oid, float4, float8, numeric, text, varchar, bpchar, name, unknown,
    citext, ltree, lquery, ltxtquery, bytea, json, jsonb, uuid, timestamptz, timestamp, date,
    time, inet]

def ofName (s : String) : ColumnType := (known.find? (·.typeName = s)).getD (other s)

/-- The types whose binary form is the text itself. -/
def isPlainText : ColumnType → Bool
  | text | varchar | bpchar | name | unknown | citext => true
  | _ => false

/-- The types whose binary form is a version byte and the text. -/
def isVersionedText : ColumnType → Bool
  | ltree | lquery | ltxtquery => true
  | _ => false

def isText (t : ColumnType) : Bool := t.isPlainText || t.isVersionedText

end ColumnType

end BoundSql.Wire
