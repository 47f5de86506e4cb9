import BoundSql.Run.Database

/-!
# Servers

A PostgreSQL server prepares a statement, takes its parameters in binary form and sends rows as
bytes. What it sends is scripted; as a database it binds arguments and decodes columns.
-/
namespace BoundSql.Run

open Sql (Compiled)
open Wire (ColumnType)

structure ServerError where
  code : String
  message : String

inductive ServerEvent where
  | row (columns : List (Option (List UInt8)))
  | wait (nanos : Nat)
  | error (e : ServerError)

structure Server where
  parameters : List ColumnType
  /-- Names and types of the columns of a row. -/
  columns : List (String × ColumnType)
  events : List ServerEvent
  prepareError : Option ServerError
  /-- What the server says of a statement when it is done. -/
  tag : String

def ServerError.failure (e : ServerError) : Failure := .driver (.server e.code e.message)

namespace Server

/-- Bind arguments from number `index` on. -/
def bindFrom (index : Nat) : List ColumnType → List Value →
    Except DriverCause (List (Option (List UInt8)))
  | t :: ts, v :: vs =>
      match Wire.bind t v with
      | .error cause => .error (.unserializable index cause)
      | .ok bytes => (bindFrom (index + 1) ts vs).map (bytes :: ·)
  | _, _ => .ok []

/-- The parameters that are sent for a statement. -/
def parametersOf (s : Server) (c : Compiled) :
    Except DriverCause (List (Option (List UInt8))) :=
  match s.prepareError with
  | some e => .error (.server e.code e.message)
  | none =>
      if s.parameters.length ≠ c.args.length then
        .error (.parameterCount s.parameters.length c.args.length)
      else bindFrom 0 s.parameters c.args

/-- Decode columns from number `index` on. -/
def decodeFrom (index : Nat) : List (String × ColumnType) → List (Option (List UInt8)) →
    Except Failure (List Value)
  | (name, t) :: cs, b :: bs =>
      match Wire.decode t b with
      | .error .malformed => .error (.driver (.undecodable index))
      | .error (.unsupported t) => .error (.scan (.column name t))
      | .ok v => (decodeFrom (index + 1) cs bs).map (v :: ·)
  | _, _ => .ok []

def cursorEvent (s : Server) : ServerEvent → CursorEvent
  | .wait nanos => .wait nanos
  | .error e => .fail e.failure
  | .row columns =>
      match decodeFrom 0 s.columns columns with
      | .ok values => .row values
      | .error cause => .fail cause

/-- The number at the end of a tag, as the driver counts it; a tag without one counts nothing. -/
def countOf (tag : String) : Int64 :=
  let word := (tag.toList.reverse.takeWhile (· ≠ ' ')).reverse
  let digits := match word with
    | '+' :: rest => rest
    | _ => word
  if digits.isEmpty || !digits.all Text.Digits.isDigit then 0
  else
    let n := Text.Digits.value digits
    if n < Text.Digits.wordLimit then Int64.ofNat n else 0

/-- Wait for the end of a change; its rows are not looked at. -/
def completion (tag : String) (now : Nat) : List ServerEvent → Answer Counts
  | [] => ⟨now, .ok ⟨.ok (countOf tag), .error .noInsertId⟩⟩
  | .wait nanos :: rest => completion tag (now + nanos) rest
  | .row _ :: rest => completion tag now rest
  | .error e :: _ => ⟨now, .error e.failure⟩

def toDatabase (s : Server) : Database where
  query c :=
    match s.parametersOf c with
    | .error cause => ⟨0, .error (.driver cause)⟩
    | .ok _ => ⟨0, .ok (s.events.map s.cursorEvent)⟩
  exec c :=
    match s.parametersOf c with
    | .error cause => ⟨0, .error (.driver cause)⟩
    | .ok _ => completion s.tag 0 s.events

end Server

end BoundSql.Run
