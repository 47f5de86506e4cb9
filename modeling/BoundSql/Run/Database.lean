import BoundSql.Run.Failure
import BoundSql.Sql.Writer

/-!
# Databases

A database answers a statement after a delay, with a failure or with what it has: a cursor, or the
counts of a change. A cursor is the list of what happens when it is read. Delays are in
nanoseconds, and nothing else takes time. A clock tells times up to some point only, so a limit can
lie beyond what it can tell.
-/
namespace BoundSql.Run

open Sql (Compiled)
open Text (Span)

/-- What reading a cursor can meet: a delay, a row, or a failure. -/
inductive CursorEvent where
  | wait (nanos : Nat)
  | row (values : List Value)
  | fail (cause : Failure)

/-- What happens until the cursor is exhausted. -/
abbrev Cursor := List CursorEvent

/-- The counts of a change, or why one is not known. -/
structure Counts where
  rowsAffected : Except Failure Int64
  lastInsertId : Except Failure Int64

/-- What comes back, and how long that takes. -/
structure Answer (α : Type) where
  delay : Nat
  outcome : Except Failure α

/-- What a driver does with a statement is a function of its text and its arguments. -/
structure Database where
  query : Compiled → Answer Cursor
  exec : Compiled → Answer Counts

/-- The clock that a call finds at its start. By default it counts seconds in a signed word. -/
structure Clock where
  /-- The last time that it can tell, in nanoseconds after the start. -/
  reach : Nat := 9223372036854775807000000000
  /-- How long a timer runs that should end later than that: thirty years of 365 days. -/
  far : Nat := 946080000000000000

namespace Clock

/-- Whether the clock can tell the end of a span that begins at the start. -/
def tells (c : Clock) (span : Span) : Bool := span.nanos ≤ c.reach

/-- How long a timer runs that is set to a span. -/
def timer (c : Clock) (span : Span) : Nat := if c.tells span then span.nanos else c.far

end Clock

/-- Options of one call, how long it may take and a tag for its log lines, and its clock. -/
structure Context where
  timeout : Option Span := none
  tag : Option String := none
  clock : Clock := {}

namespace Context

/-- Whether a wait that ends `elapsed` nanoseconds after the start is in time. -/
def inTime (ctx : Context) (elapsed : Nat) : Bool :=
  match ctx.timeout with
  | some limit => elapsed ≤ ctx.clock.timer limit
  | none => true

/-- Whether the clock can tell when the call has taken as long as it may. -/
def timed (ctx : Context) : Bool :=
  match ctx.timeout with
  | some limit => ctx.clock.tells limit
  | none => true

/-- The failure of a call that takes too long. -/
def expired (ctx : Context) : Failure := .timeout (ctx.timeout.getD .zero)

end Context

end BoundSql.Run
