import BoundSql.Proofs.Observation

/-!
# Logging has no influence

Which logger a statement has, whether it takes its lines or refuses them, what it is told and under
which tag: all this changes the log and nothing else. Of two runs that differ in it, results, calls
of the caller's functions, statements and expirations are the same.
-/
namespace BoundSql.Run

open Row (Mapper Shape)
open Sql (Query)

variable {σ α β : Type}

/-- The statement with this logger, or without one. -/
def Statement.loggingTo (q : Statement β) (logging : Option Logging) : Statement β :=
  { q with settings := { q.settings with logging } }

/-- The options of a call with this tag, or without one. -/
def Context.taggedAs (ctx : Context) (tag : Option String) : Context := { ctx with tag }

/-- Two runs that only a logger can tell apart. -/
structure Outcome.Agrees (o o' : Outcome σ α) : Prop where
  result : o.result = o'.result
  state : o.state = o'.state
  statements : sent o.effects = sent o'.effects
  expirations : expirations o.effects = expirations o'.effects

/-- A run as it is without its log. -/
def Outcome.unlogged (o : Outcome σ α) : Outcome σ α :=
  ⟨o.result, o.state, Run.unlogged o.effects⟩

namespace Outcome

theorem unlogged_prepend (es : List Effect) (o : Outcome σ α) :
    (o.prepend es).unlogged = o.unlogged.prepend (Run.unlogged es) := by
  rw [unlogged, prepend, unlogged_append]
  rfl

theorem Agrees.map {τ β : Type} {o o' : Outcome σ α} (h : o.Agrees o')
    (f : Except Halt α → σ → Except Halt β) (g : σ → τ) :
    (o.map f g).Agrees (o'.map f g) where
  result := by rw [Outcome.map, Outcome.map, h.result, h.state]
  state := congrArg g h.state
  statements := h.statements
  expirations := h.expirations

theorem Agrees.of_unlogged {o o' : Outcome σ α} (h : o.unlogged = o'.unlogged) : o.Agrees o' := by
  have heffects : Run.unlogged o.effects = Run.unlogged o'.effects := congrArg (·.effects) h
  refine ⟨congrArg (·.result) h, congrArg (·.state) h, ?_, ?_⟩
  · rw [← sent_unlogged, heffects, sent_unlogged]
  · rw [← expirations_unlogged, heffects, expirations_unlogged]

end Outcome

theorem Context.inTime_congr {ctx ctx' : Context} (h : ctx.timeout = ctx'.timeout)
    (hclock : ctx.clock = ctx'.clock) (elapsed : Nat) :
    ctx.inTime elapsed = ctx'.inTime elapsed := by
  rw [inTime, inTime, h, hclock]

theorem Context.expired_congr {ctx ctx' : Context} (h : ctx.timeout = ctx'.timeout) :
    ctx.expired = ctx'.expired := by
  rw [expired, expired, h]

theorem Reading.finish_unlogged (r : Reading σ α) (count : Nat) (state : σ) :
    (r.finish count state).unlogged = ⟨.ok count, state, [.traced (.fetched count)]⟩ := by
  rw [Outcome.unlogged, unlogged_finish]
  rfl

/-- Row by row, two readings of the same rows go on or stop together. -/
theorem Reading.rows_unlogged (settings settings' : Settings) {ctx ctx' : Context}
    (htimeout : ctx.timeout = ctx'.timeout) (hclock : ctx.clock = ctx'.clock) (shape : Shape)
    (m : Mapper σ α) (accumulate : α → σ → ForInStep σ) (now count : Nat) (s : σ)
    (cursor : Cursor) :
    (Reading.rows ⟨settings, ctx, shape, m, accumulate⟩ now count s cursor).unlogged =
      (Reading.rows ⟨settings', ctx', shape, m, accumulate⟩ now count s cursor).unlogged := by
  induction cursor generalizing now count s with
  | nil => rw [Reading.rows, Reading.rows, finish_unlogged, finish_unlogged]
  | cons event rest ih =>
      cases event with
      | wait nanos =>
          simp only [Reading.rows, Context.inTime_congr htimeout hclock,
            Context.expired_congr htimeout]
          by_cases hin : ctx'.inTime (now + nanos)
          · rw [if_pos hin, if_pos hin]
            exact ih (now + nanos) count s
          · rw [if_neg hin, if_neg hin]
      | fail cause =>
          cases cause
          case exit => rw [Reading.rows, Reading.rows, finish_unlogged, finish_unlogged]
          all_goals rfl
      | row values =>
          simp only [Reading.rows]
          obtain ⟨cause | a, s₁⟩ := shape.item m values s
          · simp only [Outcome.unlogged, unlogged_logRow]
          · cases htake : accumulate a s₁ with
            | done s' =>
                simp only [htake, Outcome.unlogged_prepend, unlogged_logRow, finish_unlogged]
            | yield s' =>
                simp only [htake, Outcome.unlogged_prepend, unlogged_logRow, ih]

/-- An answer in time, and one that is late, mean the same to both readings. -/
theorem Reading.answered_unlogged (settings settings' : Settings) {ctx ctx' : Context}
    (htimeout : ctx.timeout = ctx'.timeout) (hclock : ctx.clock = ctx'.clock) (shape : Shape)
    (m : Mapper σ α) (accumulate : α → σ → ForInStep σ) (s : σ) (answer : Answer Cursor) :
    (Reading.answered ⟨settings, ctx, shape, m, accumulate⟩ s answer).unlogged =
      (Reading.answered ⟨settings', ctx', shape, m, accumulate⟩ s answer).unlogged := by
  obtain ⟨delay, cause | cursor⟩ := answer
  · simp only [answered, Context.inTime_congr htimeout hclock, Context.expired_congr htimeout]
  · simp only [answered, Context.inTime_congr htimeout hclock, Context.expired_congr htimeout]
    cases ctx'.inTime delay with
    | false => rfl
    | true =>
        exact rows_unlogged settings settings' htimeout hclock shape m accumulate delay 0 s cursor

section Runs

variable (logging logging' : Option Logging) (tag tag' : Option String) (db : Option Database)
  (ctx : Context)

theorem fetchEach_unlogged (q : Statement Query) (m : Mapper σ α)
    (accumulate : α → σ → ForInStep σ) (s : σ) :
    (fetchEach (q.loggingTo logging) db (ctx.taggedAs tag) m accumulate s).unlogged =
      (fetchEach (q.loggingTo logging') db (ctx.taggedAs tag') m accumulate s).unlogged := by
  have hresolve (l : Option Logging) :
      (q.loggingTo l).settings.resolve db = q.settings.resolve db := rfl
  cases hdb : q.settings.resolve db with
  | none =>
      rw [fetchEach_of_none ((hresolve logging).trans hdb),
        fetchEach_of_none ((hresolve logging').trans hdb)]
  | some database =>
      have hlogging := (hresolve logging).trans hdb
      have hlogging' := (hresolve logging').trans hdb
      cases htimed : ctx.timed with
      | false =>
          have htagged (t : Option String) : (ctx.taggedAs t).timed = false := htimed
          rw [fetchEach_of_overflow hlogging (htagged tag),
            fetchEach_of_overflow hlogging' (htagged tag'), Outcome.unlogged, Outcome.unlogged,
            unlogged_prepared, unlogged_prepared]
      | true =>
          have htagged (t : Option String) : (ctx.taggedAs t).timed = true := htimed
          rw [fetchEach_of_some hlogging (htagged tag), fetchEach_of_some hlogging' (htagged tag'),
            Outcome.unlogged_prepend, Outcome.unlogged_prepend, unlogged_announced,
            unlogged_announced]
          have htimeout : (ctx.taggedAs tag).timeout = (ctx.taggedAs tag').timeout := rfl
          have hclock : (ctx.taggedAs tag).clock = (ctx.taggedAs tag').clock := rfl
          exact congrArg _ (Reading.answered_unlogged _ _ htimeout hclock _ m accumulate _ _)

theorem accounted_unlogged (q : Statement Change) (flags : Log.ExecFlags)
    (answer : Answer Counts) :
    ((q.loggingTo logging).accounted (ctx.taggedAs tag) flags answer).unlogged =
      ((q.loggingTo logging').accounted (ctx.taggedAs tag') flags answer).unlogged := by
  have hstats (l : Option Logging) (t : Option String) (n : Int) :
      unlogged (if (q.loggingTo l).settings.flags.stats && flags.rowsAffected then
        (q.loggingTo l).settings.log t (Log.statsMessage q.body.verb n) else []) = [] := by
    split
    · exact unlogged_log _ t _
    · rfl
  have hin : (ctx.taggedAs tag).inTime answer.delay = (ctx.taggedAs tag').inTime answer.delay := rfl
  unfold Statement.accounted
  rw [hin]
  split
  · rfl
  · cases answer.outcome.bind (·.requested flags) with
    | error cause => rfl
    | ok counts =>
        have heffects (l : Option Logging) (t : Option String) := congrArg
          (Effect.traced (.executed q.body.verb counts.rowsAffected.toInt) :: ·)
          (hstats l t counts.rowsAffected.toInt)
        exact congrArg (Outcome.mk (.ok counts) ())
          ((heffects logging tag).trans (heffects logging' tag').symm)

theorem exec_unlogged (q : Statement Change) (flags : Log.ExecFlags) :
    (exec (q.loggingTo logging) db (ctx.taggedAs tag) flags).unlogged =
      (exec (q.loggingTo logging') db (ctx.taggedAs tag') flags).unlogged := by
  have hresolve (l : Option Logging) :
      (q.loggingTo l).settings.resolve db = q.settings.resolve db := rfl
  cases hdb : q.settings.resolve db with
  | none =>
      rw [exec_of_none ((hresolve logging).trans hdb), exec_of_none ((hresolve logging').trans hdb)]
  | some database =>
      rw [exec_of_some ((hresolve logging).trans hdb),
        exec_of_some ((hresolve logging').trans hdb), Outcome.unlogged_prepend,
        Outcome.unlogged_prepend, unlogged_handed, unlogged_handed]
      exact congrArg _ (accounted_unlogged logging logging' tag tag' ctx q flags _)

end Runs

/-- Two runs that differ in the logger, in what it is told and in the tag have the same results, the
same states of the caller, the same calls of the caller's functions, and hand the same statements
and the same expirations to the database. -/
theorem logging_has_no_influence (logging logging' : Option Logging) (tag tag' : Option String)
    (db : Option Database) (ctx : Context) :
    (∀ (σ α : Type) (q : Statement Query) (m : Mapper σ α) (accumulate : α → σ → ForInStep σ)
        (s : σ),
      (fetchEach (q.loggingTo logging) db (ctx.taggedAs tag) m accumulate s).Agrees
        (fetchEach (q.loggingTo logging') db (ctx.taggedAs tag') m accumulate s) ∧
      (observe (q.loggingTo logging) db (ctx.taggedAs tag) m accumulate s).Agrees
        (observe (q.loggingTo logging') db (ctx.taggedAs tag') m accumulate s) ∧
      (fetchAll (q.loggingTo logging) db (ctx.taggedAs tag) m s).Agrees
        (fetchAll (q.loggingTo logging') db (ctx.taggedAs tag') m s) ∧
      (fetchOne (q.loggingTo logging) db (ctx.taggedAs tag) m s).Agrees
        (fetchOne (q.loggingTo logging') db (ctx.taggedAs tag') m s)) ∧
    ∀ (q : Statement Change) (flags : Log.ExecFlags),
      (exec (q.loggingTo logging) db (ctx.taggedAs tag) flags).Agrees
        (exec (q.loggingTo logging') db (ctx.taggedAs tag') flags) := by
  have hobserve {σ α : Type} (q : Statement Query) (m : Mapper σ α)
      (accumulate : α → σ → ForInStep σ) (s : σ) :
      (observe (q.loggingTo logging) db (ctx.taggedAs tag) m accumulate s).Agrees
        (observe (q.loggingTo logging') db (ctx.taggedAs tag') m accumulate s) :=
    .of_unlogged (fetchEach_unlogged logging logging' tag tag' db ctx q _ _ _)
  refine ⟨fun σ α q m accumulate s => ⟨?_, hobserve q m accumulate s, ?_, ?_⟩,
    fun q flags => .of_unlogged (exec_unlogged logging logging' tag tag' db ctx q flags)⟩
  · rw [fetchEach_eq_observe, fetchEach_eq_observe]
    exact (hobserve q m accumulate s).map _ _
  · rw [fetchAll_eq_observe, fetchAll_eq_observe]
    exact (hobserve q m _ s).map _ _
  · rw [fetchOne_eq_observe, fetchOne_eq_observe]
    exact (hobserve q m _ s).map _ _

end BoundSql.Run
