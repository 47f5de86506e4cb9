import BoundSql.Log.Message
import BoundSql.Log.Sink
import BoundSql.Run.Database
import BoundSql.Sql.Change
import BoundSql.Sql.Emission
import BoundSql.Sql.Insert

/-!
# Statements to run

A statement is a query together with the database that runs it and the logger that hears of it.
Only a statement logs; a query inside another never does.
-/
namespace BoundSql.Run

open Log (Logger LogFlags Event)
open Sql (Compiled Field Query)

/-- A logger with what it is to be told. -/
structure Logging where
  logger : Logger
  flags : LogFlags

/-- What a statement runs with; a call can bring a database of its own. -/
structure Settings where
  database : Option Database := none
  logging : Option Logging := none

/-- A query of any kind with its settings. -/
structure Statement (β : Type) where
  body : β
  settings : Settings := {}

/-- What running a statement does, in order. -/
inductive Effect where
  | logged (line : String)
  | traced (event : Event)
  /-- The statement was handed to the driver. -/
  | called (c : Compiled)
  /-- The database was told that time ran out. -/
  | expired

namespace Settings

/-- Without a logger nothing is to be shown. -/
def flags (s : Settings) : LogFlags :=
  match s.logging with
  | some l => l.flags
  | none => {}

/-- A line of a tagged call starts with its tag in brackets. -/
def tagged (tag : Option String) (message : String) : String :=
  match tag with
  | some tag => "[" ++ tag ++ "] " ++ message
  | none => message

/-- Hand a message to the logger. That a logger refuses a line is only reported. -/
def log (s : Settings) (tag : Option String) (message : String) : List Effect :=
  match s.logging with
  | none => []
  | some l =>
      let line := tagged tag message
      .logged line :: (l.logger.refuses line).toList.map fun error => .traced (.refused error)

/-- The log of compiling a statement. -/
def logQuery (s : Settings) (tag : Option String) (q : Query) (c : Compiled) : List Effect :=
  s.log tag (Log.queryMessage s.flags q.dialect c)

end Settings

/-- Compile a statement on its own. -/
def Statement.compile (s : Statement Query) : Compiled × List Effect :=
  let c := s.body.compile
  (c, s.settings.logQuery none s.body c)

/-- A step on the query, or on what it runs with. -/
inductive Step (γ : Type) where
  | body (step : γ)
  | database (db : Database)
  | logging (l : Logging)

namespace Statement

variable {β γ : Type}

/-- A step on the query leaves the settings alone, and the other way round. -/
def applyWith (apply : β → γ → β) (s : Statement β) : Step γ → Statement β
  | .body step => { s with body := apply s.body step }
  | .database db => { s with settings := { s.settings with database := some db } }
  | .logging l => { s with settings := { s.settings with logging := some l } }

def map {δ : Type} (f : β → δ) (s : Statement β) : Statement δ := ⟨f s.body, s.settings⟩

end Statement

/-- A query that changes rows. -/
inductive Change where
  | insert (q : Sql.Insert)
  | update (q : Sql.Update)
  | delete (q : Sql.Delete)

namespace Change

def toQuery : Change → Query
  | .insert q => .insert q
  | .update q => .update q
  | .delete q => .delete q

/-- What the rows have been, for the statistics. -/
def verb : Change → String
  | .insert _ => "Inserted"
  | .update _ => "Updated"
  | .delete _ => "Deleted"

end Change

/-- The query with other fields in its select list, or in its RETURNING clause. -/
def project (q : Query) (fs : List Field) : Query :=
  match q with
  | .select s => .select { s with fields := fs }
  | .insert s => .insert { s with returning := fs }
  | .update s => .update { s with returning := fs }
  | .delete s => .delete { s with returning := fs }

end BoundSql.Run
