import BoundSql.Run.Fetch

/-!
# Executing changes

A change is executed with one call. The counts that were not asked for are zero; of those that
were, the number of affected rows is taken first. No deadline is computed for the one wait: a timer
takes the limit whether or not the clock can tell its end.
-/
namespace BoundSql.Run

open Log (ExecFlags)

/-- What an execution gives back. -/
structure ExecCounts where
  rowsAffected : Int64 := 0
  lastInsertId : Int64 := 0

/-- The counts that the flags ask for. -/
def Counts.requested (counts : Counts) (flags : ExecFlags) : Except Failure ExecCounts := do
  let rowsAffected ← if flags.rowsAffected then counts.rowsAffected else .ok 0
  let lastInsertId ← if flags.lastInsertId then counts.lastInsertId else .ok 0
  return { rowsAffected, lastInsertId }

/-- Hand a change to the database once, and take its counts. -/
def exec (q : Statement Change) (db : Option Database) (ctx : Context) (flags : ExecFlags) :
    Outcome Unit ExecCounts :=
  match q.settings.resolve db with
  | none => ⟨.error (.failed .missingDatabase), (), []⟩
  | some db =>
      let query := q.body.toQuery
      let c := query.compile
      let before := q.settings.logQuery ctx.tag query c ++ [.called c]
      let answer := db.exec c
      let outcome : Outcome Unit ExecCounts :=
        if !ctx.inTime answer.delay then ⟨.error (.failed ctx.expired), (), [.expired]⟩
        else
          match answer.outcome.bind (·.requested flags) with
          | .error cause => ⟨.error (.failed cause), (), []⟩
          | .ok counts =>
              let n := counts.rowsAffected.toInt
              ⟨.ok counts, (),
                .traced (.executed q.body.verb n)
                  :: (if q.settings.flags.stats && flags.rowsAffected then
                        q.settings.log ctx.tag (Log.statsMessage q.body.verb n)
                      else [])⟩
      outcome.prepend before

end BoundSql.Run
