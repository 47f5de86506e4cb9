import BoundSql.Log.Flags
import BoundSql.Text.Blank
import BoundSql.Text.Digits
import BoundSql.Text.Truncation

/-!
# Where messages go

A logger takes a line or refuses it. The line logger writes the time, the place in the source, a
heading and the message, cut at a limit of bytes. Events are what the library reports to the tracing
of its host.
-/
namespace BoundSql.Log

/-- A logger takes a line, or refuses it with an error of its own. -/
structure Logger where
  refuses : String → Option String

/-- The line of a source file that a message comes from. -/
structure Place where
  path : String
  line : Nat

/-- The last part of the path that is a name, or the path if it ends in none. -/
def Place.fileName (p : Place) : String :=
  match ((p.path.splitOn "/").filter fun part => part ≠ "" ∧ part ≠ ".").getLast? with
  | some name => if name = ".." then p.path else name
  | none => p.path

/-- A line logger; `limit` bounds the bytes of a message. -/
structure LineLogger where
  heading : String := "[sqb] "
  limit : Option Nat := none

namespace LineLogger

/-- A message that is too long is cut between two characters. -/
def shown (l : LineLogger) (message : String) : String :=
  match l.limit with
  | some limit => Text.truncated limit message
  | none => message

def line (l : LineLogger) (message : String) : String := l.heading ++ l.shown message ++ "\n"

/-- The whole line that is written at a time of day. -/
def written (l : LineLogger) (time : String) (place : Place) (message : String) : String :=
  time ++ " " ++ place.fileName ++ ":" ++ Text.Digits.text place.line ++ ": " ++ l.line message

end LineLogger

/-- How severe an event is. -/
inductive Level where
  | error
  | warn
  | info
  | debug
  | trace
  deriving DecidableEq, Repr

def Level.name : Level → String
  | error => "ERROR"
  | warn => "WARN"
  | info => "INFO"
  | debug => "DEBUG"
  | trace => "TRACE"

/-- What the library reports about itself, apart from the lines for its loggers. -/
inductive Event where
  /-- A message of a logger that writes to the tracing. -/
  | message (level : Level) (text : String)
  /-- A logger refused a line with this error. -/
  | refused (error : String)
  | fetched (rows : Nat)
  | executed (verb : String) (rowsAffected : Int)
  deriving DecidableEq

namespace Event

def level : Event → Level
  | message level _ => level
  | refused _ => .warn
  | fetched _ | executed .. => .debug

def target : Event → String
  | message .. => "sqb.sql"
  | refused _ => "sqb"
  | fetched _ | executed .. => "sqb.exec"

def text : Event → String
  | message _ text => text
  | refused _ => "query logger failed"
  | fetched _ => "query fetched"
  | executed .. => "statement executed"

/-- The named details of an event. -/
def details : Event → List (String × String)
  | message .. => []
  | refused error => [("error", error)]
  | fetched rows => [("rows", Text.Digits.text rows)]
  | executed verb rowsAffected =>
      [("verb", verb), ("rows_affected", Text.Digits.intText rowsAffected)]

end Event

/-- The event for a message, without white space in front. -/
def traced (level : Level) (message : String) : Event :=
  .message level (String.ofList (Text.trimStart message.toList))

end BoundSql.Log
