/-!
# Flags

What a query reports to its logger, and which counts an execution asks for. A set of flags
contains another if that one is not empty and all of its flags are there.
-/
namespace BoundSql.Log

/-- Which lines a statement logs. -/
structure LogFlags where
  /-- Show the query with its arguments written in place. -/
  inlined : Bool := false
  /-- Show both forms of the query, and the row count at the end. -/
  stats : Bool := false
  /-- Show the first rows. -/
  results : Bool := false
  /-- Show the fields that a row mapper declares. -/
  parse : Bool := false
  deriving DecidableEq, Repr

namespace LogFlags

def none : LogFlags := {}

/-- Statistics and rows. -/
def verbose : LogFlags := { stats := true, results := true }

def union (a b : LogFlags) : LogFlags where
  inlined := a.inlined || b.inlined
  stats := a.stats || b.stats
  results := a.results || b.results
  parse := a.parse || b.parse

def isEmpty (a : LogFlags) : Bool := a = none

/-- The empty set of flags is contained in none. -/
def contains (a b : LogFlags) : Bool := !b.isEmpty && a.union b = a

end LogFlags

/-- Which counts an execution asks for. -/
structure ExecFlags where
  lastInsertId : Bool := false
  rowsAffected : Bool := false
  deriving DecidableEq, Repr

namespace ExecFlags

def none : ExecFlags := {}

def union (a b : ExecFlags) : ExecFlags where
  lastInsertId := a.lastInsertId || b.lastInsertId
  rowsAffected := a.rowsAffected || b.rowsAffected

def contains (a b : ExecFlags) : Bool := b ≠ none && a.union b = a

end ExecFlags

end BoundSql.Log
