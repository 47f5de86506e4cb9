import BoundSql.Row.Shape
import BoundSql.Run.Statement

/-!
# Fetching rows

The mapper runs once to declare its columns, which replace those of the query, and then once for
each row. The accumulator takes the items until it says that it is done. A call has a deadline for
everything from its start on; a wait that ends exactly then is in time. The deadline is computed in
front of the call of the database, and a clock that cannot tell it ends the run there.
-/
namespace BoundSql.Run

open Log (shownRows)
open Row (Mapper Shape)
open Sql (Query)

/-- How a run ended, the caller's state then, and what it did. -/
structure Outcome (σ α : Type) where
  result : Except Halt α
  state : σ
  effects : List Effect

namespace Outcome

variable {σ α : Type}

def prepend (es : List Effect) (o : Outcome σ α) : Outcome σ α :=
  { o with effects := es ++ o.effects }

end Outcome

/-- What does not change while rows are read. -/
structure Reading (σ α : Type) where
  settings : Settings
  context : Context
  shape : Shape
  mapper : Mapper σ α
  accumulate : α → σ → ForInStep σ

namespace Reading

variable {σ α : Type}

/-- The end of the rows: the count, reported and logged. -/
def finish (r : Reading σ α) (count : Nat) (state : σ) : Outcome σ Nat :=
  ⟨.ok count, state,
    .traced (.fetched count)
      :: (if r.settings.flags.stats then
            r.settings.log r.context.tag (Log.statsMessage "Fetched" count)
          else [])⟩

/-- The log of row number `index`. -/
def logRow (r : Reading σ α) (index : Nat) (values : List Value) : List Effect :=
  if r.settings.flags.results && index ≤ shownRows then
    r.settings.log r.context.tag (Log.rowMessage index r.shape.labels values)
  else []

/-- Read a cursor, `now` nanoseconds after the start of the call and after `count` rows. -/
def rows (r : Reading σ α) (now count : Nat) (state : σ) : Cursor → Outcome σ Nat
  | [] => r.finish count state
  | .wait nanos :: rest =>
      if r.context.inTime (now + nanos) then r.rows (now + nanos) count state rest
      else ⟨.error (.failed r.context.expired), state, [.expired]⟩
  | .fail .exit :: _ => r.finish count state
  | .fail cause :: _ => ⟨.error (.failed cause), state, []⟩
  | .row values :: rest =>
      let shown := r.logRow (count + 1) values
      match r.shape.item r.mapper values state with
      | (.error cause, state) => ⟨.error (.failed (.scan (.row cause))), state, shown⟩
      | (.ok a, state) =>
          match r.accumulate a state with
          | .done state => (r.finish (count + 1) state).prepend shown
          | .yield state => (r.rows now (count + 1) state rest).prepend shown

end Reading

/-- The database of the call, else that of the statement. -/
def Settings.resolve (s : Settings) (db : Option Database) : Option Database :=
  match db with
  | some db => some db
  | none => s.database

/-- The log of the columns that a mapper declares. -/
def Settings.logDeclared (s : Settings) (tag : Option String) (shape : Shape) : List Effect :=
  if s.flags.parse then s.log tag (Log.declaredMessage shape.labels) else []

/-- The query with the declared columns in place of its own; without any it keeps them. -/
def projected (q : Query) (shape : Shape) : Query :=
  if shape.isEmpty then q else project q shape.fields

variable {σ α : Type}

/-- Feed each mapped row to the accumulator; the result is the number of rows read. -/
def fetchEach (q : Statement Query) (db : Option Database) (ctx : Context) (mapper : Mapper σ α)
    (accumulate : α → σ → ForInStep σ) (state : σ) : Outcome σ Nat :=
  match q.settings.resolve db with
  | none => ⟨.error (.failed .missingDatabase), state, []⟩
  | some db =>
      let (shape, state) := Shape.declare mapper state
      let query := projected q.body shape
      let c := query.compile
      let logged := q.settings.logDeclared ctx.tag shape ++ q.settings.logQuery ctx.tag query c
      if !ctx.timed then ⟨.error .overflow, state, logged⟩
      else
        let answer := db.query c
        let outcome : Outcome σ Nat :=
          if !ctx.inTime answer.delay then ⟨.error (.failed ctx.expired), state, [.expired]⟩
          else
            match answer.outcome with
            | .error cause => ⟨.error (.failed cause), state, []⟩
            | .ok cursor =>
                Reading.rows ⟨q.settings, ctx, shape, mapper, accumulate⟩ answer.delay 0 state
                  cursor
        outcome.prepend (logged ++ [.called c])

/-- Lift a mapper to a state with a part that it does not touch. -/
def besides {τ : Type} (mapper : Mapper σ α) : Mapper (σ × τ) α := fun (s, t) => do
  let (a, s) ← mapper s
  return (a, (s, t))

/-- All mapped rows in order. -/
def fetchAll (q : Statement Query) (db : Option Database) (ctx : Context) (mapper : Mapper σ α)
    (state : σ) : Outcome σ (List α) :=
  let o := fetchEach q db ctx (besides mapper) (fun a (s, items) => .yield (s, items ++ [a]))
    (state, [])
  ⟨o.result.map fun _ => o.state.2, o.state.1, o.effects⟩

/-- The first mapped row, if there is one; no row behind it is read. -/
def fetchOne (q : Statement Query) (db : Option Database) (ctx : Context) (mapper : Mapper σ α)
    (state : σ) : Outcome σ (Option α) :=
  let o := fetchEach q db ctx (besides mapper) (fun a (s, _) => .done (s, some a))
    (state, none)
  ⟨o.result.map fun _ => o.state.2, o.state.1, o.effects⟩

end BoundSql.Run
