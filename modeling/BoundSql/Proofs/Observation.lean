import BoundSql.Proofs.Cursor
import BoundSql.Run.Exec

/-!
# What a caller sees of a fetch

A fetch calls two functions of its caller, the mapper and the accumulator. A record of these calls
can be kept in the state that is handed through them. Keeping more in the state changes nothing
else, so what the record says holds of every fetch. The three ways to fetch differ only in what they
make of the items that the accumulator is given. The effects of a fetch are seen by the database, by
the logger and by the tracing; here those that are not about logging are told apart.
-/
namespace BoundSql.Run

open Log (ExecFlags)
open Row (Mapper Shape)
open Sql (Query)

section Parts

variable {σ α : Type}

/-- The log of a fetch in front of its call. -/
def prepared (q : Statement Query) (ctx : Context) (shape : Shape) : List Effect :=
  q.settings.logDeclared ctx.tag shape ++
    q.settings.logQuery ctx.tag (projected q.body shape) (projected q.body shape).compile

/-- What a fetch does in front of waiting for an answer. -/
def announced (q : Statement Query) (ctx : Context) (shape : Shape) : List Effect :=
  prepared q ctx shape ++ [.called (projected q.body shape).compile]

/-- What a fetch makes of the answer. -/
def Reading.answered (r : Reading σ α) (s : σ) (answer : Answer Cursor) : Outcome σ Nat :=
  if !r.context.inTime answer.delay then ⟨.error (.failed r.context.expired), s, [.expired]⟩
  else
    match answer.outcome with
    | .error cause => ⟨.error (.failed cause), s, []⟩
    | .ok cursor => r.rows answer.delay 0 s cursor

theorem Reading.answered_of_late {r : Reading σ α} {answer : Answer Cursor}
    (h : r.context.inTime answer.delay = false) (s : σ) :
    r.answered s answer = ⟨.error (.failed r.context.expired), s, [.expired]⟩ := by
  rw [answered, h]
  rfl

theorem Reading.answered_of_error {r : Reading σ α} {delay : Nat}
    (h : r.context.inTime delay = true) (cause : Failure) (s : σ) :
    r.answered s ⟨delay, .error cause⟩ = ⟨.error (.failed cause), s, []⟩ := by
  rw [answered, h]
  rfl

theorem Reading.answered_of_ok {r : Reading σ α} {delay : Nat}
    (h : r.context.inTime delay = true) (cursor : Cursor) (s : σ) :
    r.answered s ⟨delay, .ok cursor⟩ = r.rows delay 0 s cursor := by
  rw [answered, h]
  rfl

theorem fetchEach_of_none {q : Statement Query} {db : Option Database}
    (hdb : q.settings.resolve db = none) (ctx : Context) (m : Mapper σ α)
    (accumulate : α → σ → ForInStep σ) (s : σ) :
    fetchEach q db ctx m accumulate s = ⟨.error (.failed .missingDatabase), s, []⟩ := by
  rw [fetchEach, hdb]

/-- A deadline that the clock cannot tell ends a fetch when the mapper has declared its columns and
the statement is logged, in front of the call. -/
theorem fetchEach_of_overflow {q : Statement Query} {db : Option Database} {database : Database}
    {ctx : Context} (hdb : q.settings.resolve db = some database) (htimed : ctx.timed = false)
    (m : Mapper σ α) (accumulate : α → σ → ForInStep σ) (s : σ) :
    fetchEach q db ctx m accumulate s =
      ⟨.error .overflow, (Shape.declare m s).2, prepared q ctx (Shape.declare m s).1⟩ := by
  rw [fetchEach, hdb]
  simp only [htimed, Bool.not_false, if_true]
  rfl

theorem fetchEach_of_some {q : Statement Query} {db : Option Database} {database : Database}
    {ctx : Context} (hdb : q.settings.resolve db = some database) (htimed : ctx.timed = true)
    (m : Mapper σ α) (accumulate : α → σ → ForInStep σ) (s : σ) :
    let shape := (Shape.declare m s).1
    let r : Reading σ α := ⟨q.settings, ctx, shape, m, accumulate⟩
    fetchEach q db ctx m accumulate s =
      (r.answered (Shape.declare m s).2
        (database.query (projected q.body shape).compile)).prepend (announced q ctx shape) := by
  rw [fetchEach, hdb]
  simp only [htimed, Bool.not_true, Bool.false_eq_true, if_false]
  rfl

/-- What an execution does in front of waiting for an answer. -/
def Statement.handed (q : Statement Change) (ctx : Context) : List Effect :=
  q.settings.logQuery ctx.tag q.body.toQuery q.body.toQuery.compile ++
    [.called q.body.toQuery.compile]

/-- What an execution makes of the answer. -/
def Statement.accounted (q : Statement Change) (ctx : Context) (flags : ExecFlags)
    (answer : Answer Counts) : Outcome Unit ExecCounts :=
  if !ctx.inTime answer.delay then ⟨.error (.failed ctx.expired), (), [.expired]⟩
  else
    match answer.outcome.bind (·.requested flags) with
    | .error cause => ⟨.error (.failed cause), (), []⟩
    | .ok counts =>
        ⟨.ok counts, (),
          .traced (.executed q.body.verb counts.rowsAffected.toInt)
            :: (if q.settings.flags.stats && flags.rowsAffected then
                  q.settings.log ctx.tag
                    (Log.statsMessage q.body.verb counts.rowsAffected.toInt)
                else [])⟩

theorem Statement.accounted_of_late {q : Statement Change} {ctx : Context} {answer : Answer Counts}
    (h : ctx.inTime answer.delay = false) (flags : ExecFlags) :
    q.accounted ctx flags answer = ⟨.error (.failed ctx.expired), (), [.expired]⟩ := by
  rw [accounted, h]
  rfl

theorem exec_of_none {q : Statement Change} {db : Option Database}
    (hdb : q.settings.resolve db = none) (ctx : Context) (flags : ExecFlags) :
    exec q db ctx flags = ⟨.error (.failed .missingDatabase), (), []⟩ := by
  rw [exec, hdb]

theorem exec_of_some {q : Statement Change} {db : Option Database} {database : Database}
    (hdb : q.settings.resolve db = some database) (ctx : Context) (flags : ExecFlags) :
    exec q db ctx flags =
      (q.accounted ctx flags (database.exec q.body.toQuery.compile)).prepend (q.handed ctx) := by
  rw [exec, hdb]
  rfl

end Parts

section Projection

variable {σ τ α : Type}

/-- What is made of a result, with the state at hand, and of the state itself. -/
def Outcome.map {β : Type} (f : Except Halt α → τ → Except Halt β) (g : τ → σ)
    (o : Outcome τ α) : Outcome σ β :=
  ⟨f o.result o.state, g o.state, o.effects⟩

def Outcome.mapState (f : τ → σ) (o : Outcome τ α) : Outcome σ α :=
  o.map (fun result _ => result) f

theorem Outcome.mapState_prepend (f : τ → σ) (es : List Effect) (o : Outcome τ α) :
    (o.prepend es).mapState f = (o.mapState f).prepend es := rfl

def onState (f : τ → σ) : ForInStep τ → ForInStep σ
  | .done t => .done (f t)
  | .yield t => .yield (f t)

/-- The functions `m` and `accumulate` do with a part of the state what `m'` and `accumulate'` do
with the whole. -/
structure Projects (f : τ → σ) (m' : Mapper τ α) (accumulate' : α → τ → ForInStep τ)
    (m : Mapper σ α) (accumulate : α → σ → ForInStep σ) : Prop where
  map (t : τ) (row : Row.State) : (m (f t)).run row =
    ((((m' t).run row).1.1, f ((m' t).run row).1.2), ((m' t).run row).2)
  accumulate (a : α) (t : τ) : accumulate a (f t) = onState f (accumulate' a t)

namespace Projects

variable {f : τ → σ} {m' : Mapper τ α} {accumulate' : α → τ → ForInStep τ} {m : Mapper σ α}
  {accumulate : α → σ → ForInStep σ} (h : Projects f m' accumulate' m accumulate)

include h

theorem declare (t : τ) : Shape.declare m (f t) =
    ((Shape.declare m' t).1, f (Shape.declare m' t).2) := by
  unfold Shape.declare
  rw [h.map]
  rfl

theorem materialize (shape : Shape) (slots : List Value) (t : τ) :
    shape.materialize slots m (f t) =
      ((shape.materialize slots m' t).1, f (shape.materialize slots m' t).2) := by
  unfold Shape.materialize
  rw [h.map]
  rfl

theorem item (shape : Shape) (values : List Value) (t : τ) : shape.item m values (f t) =
    ((shape.item m' values t).1, f (shape.item m' values t).2) := by
  unfold Shape.item
  split
  · rfl
  · exact h.materialize shape _ t

theorem rows (settings : Settings) (ctx : Context) (shape : Shape) (now count : Nat) (t : τ)
    (cursor : Cursor) :
    Reading.rows ⟨settings, ctx, shape, m, accumulate⟩ now count (f t) cursor =
      (Reading.rows ⟨settings, ctx, shape, m', accumulate'⟩ now count t cursor).mapState f := by
  induction cursor generalizing now count t with
  | nil => rfl
  | cons event rest ih =>
      cases event with
      | wait nanos =>
          simp only [Reading.rows, ih]
          split <;> rfl
      | fail cause => cases cause <;> rfl
      | row values =>
          simp only [Reading.rows, h.item]
          obtain ⟨cause | a, t⟩ := shape.item m' values t
          · rfl
          · simp only [h.accumulate]
            cases accumulate' a t with
            | done t => rfl
            | yield t => simp only [onState, ih, Outcome.mapState_prepend]; rfl

theorem fetchEach (q : Statement Query) (db : Option Database) (ctx : Context) (t : τ) :
    fetchEach q db ctx m accumulate (f t) =
      (Run.fetchEach q db ctx m' accumulate' t).mapState f := by
  cases hdb : q.settings.resolve db with
  | none => rw [fetchEach_of_none hdb, fetchEach_of_none hdb]; rfl
  | some database =>
      cases htimed : ctx.timed with
      | false =>
          rw [fetchEach_of_overflow hdb htimed, fetchEach_of_overflow hdb htimed, h.declare]
          rfl
      | true =>
          rw [fetchEach_of_some hdb htimed, fetchEach_of_some hdb htimed, Outcome.mapState_prepend,
            h.declare]
          refine congrArg (Outcome.prepend _) ?_
          generalize database.query _ = answer
          obtain ⟨delay, cause | cursor⟩ := answer
          · simp only [Reading.answered]
            split <;> rfl
          · simp only [Reading.answered, h.rows]
            split <;> rfl

end Projects

end Projection

/-- One call of a function of the caller. -/
inductive Call (α : Type) where
  /-- The mapper, without values. -/
  | declare
  /-- The mapper, on the slots of a row. -/
  | map (slots : List Value)
  /-- The accumulator. -/
  | take (item : α)

/-- The call of a mapper on a row. -/
def callOn {α : Type} (row : Row.State) : Call α :=
  match row.phase with
  | .declaring => .declare
  | .materializing => .map row.slots

variable {σ α : Type}

/-- The mapper, which puts its calls on record. -/
def recorded (m : Mapper σ α) : Mapper (σ × List (Call α)) α := fun (s, calls) row =>
  let ((a, s), row') := (m s).run row
  ((a, (s, calls ++ [callOn row])), row')

/-- The accumulator, which puts its calls on record. -/
def recordedTake (accumulate : α → σ → ForInStep σ) :
    α → σ × List (Call α) → ForInStep (σ × List (Call α)) := fun a (s, calls) =>
  onState (·, calls ++ [.take a]) (accumulate a s)

/-- A fetch with a record of the calls that it makes. -/
def observe (q : Statement Query) (db : Option Database) (ctx : Context) (m : Mapper σ α)
    (accumulate : α → σ → ForInStep σ) (s : σ) : Outcome (σ × List (Call α)) Nat :=
  fetchEach q db ctx (recorded m) (recordedTake accumulate) (s, [])

/-- The reading with a record of its calls. -/
def Reading.recorded (r : Reading σ α) : Reading (σ × List (Call α)) α :=
  ⟨r.settings, r.context, r.shape, Run.recorded r.mapper, recordedTake r.accumulate⟩

theorem declare_recorded (m : Mapper σ α) (s : σ) :
    Shape.declare (recorded m) (s, []) =
      ((Shape.declare m s).1, ((Shape.declare m s).2, [.declare])) := rfl

theorem observe_of_none {q : Statement Query} {db : Option Database}
    (hdb : q.settings.resolve db = none) (ctx : Context) (m : Mapper σ α)
    (accumulate : α → σ → ForInStep σ) (s : σ) :
    observe q db ctx m accumulate s = ⟨.error (.failed .missingDatabase), (s, []), []⟩ :=
  fetchEach_of_none hdb ctx _ _ _

theorem observe_of_overflow {q : Statement Query} {db : Option Database} {database : Database}
    {ctx : Context} (hdb : q.settings.resolve db = some database) (htimed : ctx.timed = false)
    (m : Mapper σ α) (accumulate : α → σ → ForInStep σ) (s : σ) :
    observe q db ctx m accumulate s = ⟨.error .overflow, ((Shape.declare m s).2, [.declare]),
      prepared q ctx (Shape.declare m s).1⟩ :=
  fetchEach_of_overflow hdb htimed _ _ _

theorem observe_of_some {q : Statement Query} {db : Option Database} {database : Database}
    {ctx : Context} (hdb : q.settings.resolve db = some database) (htimed : ctx.timed = true)
    (m : Mapper σ α) (accumulate : α → σ → ForInStep σ) (s : σ) :
    let shape := (Shape.declare m s).1
    let r : Reading σ α := ⟨q.settings, ctx, shape, m, accumulate⟩
    observe q db ctx m accumulate s =
      (r.recorded.answered ((Shape.declare m s).2, [.declare])
        (database.query (projected q.body shape).compile)).prepend (announced q ctx shape) :=
  fetchEach_of_some hdb htimed _ _ _

/-- The items that the accumulator was given. -/
def received (calls : List (Call α)) : List α :=
  calls.filterMap fun
    | .take a => some a
    | _ => none

theorem projects_recorded (m : Mapper σ α) (accumulate : α → σ → ForInStep σ) :
    Projects Prod.fst (recorded m) (recordedTake accumulate) m accumulate where
  map _ _ := rfl
  accumulate a t := by
    obtain ⟨s, calls⟩ := t
    simp only [recordedTake]
    cases accumulate a s <;> rfl

/-- The record changes nothing else. -/
theorem fetchEach_eq_observe (q : Statement Query) (db : Option Database) (ctx : Context)
    (m : Mapper σ α) (accumulate : α → σ → ForInStep σ) (s : σ) :
    fetchEach q db ctx m accumulate s =
      (observe q db ctx m accumulate s).mapState Prod.fst :=
  (projects_recorded m accumulate).fetchEach q db ctx (s, [])

@[simp] theorem received_append (calls calls' : List (Call α)) :
    received (calls ++ calls') = received calls ++ received calls' :=
  List.filterMap_append

@[simp] theorem received_callOn (row : Row.State) : received [callOn (α := α) row] = [] := by
  unfold callOn
  cases row.phase <;> rfl

@[simp] theorem received_take (a : α) : received [.take a] = [a] := rfl

/-- A state that keeps something of the items taken, besides the caller's own. -/
theorem projects_besides {τ : Type} (m : Mapper σ α) (keep : List α → τ)
    (accumulate : α → σ → ForInStep σ) {accumulate' : α → σ × τ → ForInStep (σ × τ)}
    (h : ∀ a s items, accumulate' a (s, keep items) =
      onState (·, keep (items ++ [a])) (accumulate a s)) :
    Projects (fun t => (t.1, keep (received t.2))) (recorded m) (recordedTake accumulate)
      (besides m) accumulate' where
  map t row := by
    have hitems : received (t.2 ++ [callOn row]) = received t.2 := by simp
    exact congrArg (fun items => ((((m t.1).run row).1.1, (((m t.1).run row).1.2, keep items)),
      ((m t.1).run row).2)) hitems.symm
  accumulate a t := by
    obtain ⟨s, calls⟩ := t
    rw [h]
    simp only [recordedTake]
    cases accumulate a s <;> simp [onState]

/-- All items are those that an accumulator is given which never has enough. -/
theorem fetchAll_eq_observe (q : Statement Query) (db : Option Database) (ctx : Context)
    (m : Mapper σ α) (s : σ) :
    fetchAll q db ctx m s = (observe q db ctx m (fun _ s => .yield s) s).map
      (fun result t => result.map fun _ => received t.2) Prod.fst := by
  have hprojects : Projects _ _ _ (besides m) (fun a t => .yield (t.1, t.2 ++ [a])) :=
    projects_besides m id (fun _ s => .yield s) fun _ _ _ => rfl
  exact congrArg (Outcome.map (fun result t => result.map fun _ => t.2) Prod.fst)
    (hprojects.fetchEach q db ctx (s, []))

/-- One item is the last that an accumulator is given which has enough at once. -/
theorem fetchOne_eq_observe (q : Statement Query) (db : Option Database) (ctx : Context)
    (m : Mapper σ α) (s : σ) :
    fetchOne q db ctx m s = (observe q db ctx m (fun _ s => .done s) s).map
      (fun result t => result.map fun _ => (received t.2).getLast?) Prod.fst := by
  have hprojects : Projects _ _ _ (besides m) (fun a t => .done (t.1, some a)) :=
    projects_besides m List.getLast? (fun _ s => .done s) fun _ _ _ => by simp [onState]
  exact congrArg (Outcome.map (fun result t => result.map fun _ => t.2) Prod.fst)
    (hprojects.fetchEach q db ctx (s, []))

/-- Neither a line for the logger nor the report that it refused one. -/
def Effect.isSilent : Effect → Bool
  | .logged _ | .traced (.refused _) => false
  | _ => true

def unlogged (es : List Effect) : List Effect := es.filter Effect.isSilent

/-- How often the database was told that time ran out. -/
def expirations (es : List Effect) : Nat :=
  es.countP fun
    | .expired => true
    | _ => false

@[simp] theorem unlogged_append (es es' : List Effect) :
    unlogged (es ++ es') = unlogged es ++ unlogged es' :=
  List.filter_append ..

@[simp] theorem unlogged_log (s : Settings) (tag : Option String) (message : String) :
    unlogged (s.log tag message) = [] := by
  obtain ⟨-, h⟩ | ⟨-, h | ⟨error, h⟩⟩ := s.log_cases tag message <;> (rw [h]; rfl)

@[simp] theorem unlogged_logDeclared (s : Settings) (tag : Option String) (shape : Shape) :
    unlogged (s.logDeclared tag shape) = [] := by
  unfold Settings.logDeclared
  split
  · exact unlogged_log s tag _
  · rfl

@[simp] theorem unlogged_logQuery (s : Settings) (tag : Option String) (q : Query)
    (c : Sql.Compiled) : unlogged (s.logQuery tag q c) = [] :=
  unlogged_log s tag _

@[simp] theorem unlogged_prepared (q : Statement Query) (ctx : Context) (shape : Shape) :
    unlogged (prepared q ctx shape) = [] := by
  rw [prepared, unlogged_append, unlogged_logDeclared, unlogged_logQuery]
  rfl

@[simp] theorem unlogged_announced (q : Statement Query) (ctx : Context) (shape : Shape) :
    unlogged (announced q ctx shape) = [.called (projected q.body shape).compile] := by
  rw [announced, unlogged_append, unlogged_prepared]
  rfl

@[simp] theorem unlogged_handed (q : Statement Change) (ctx : Context) :
    unlogged (q.handed ctx) = [.called q.body.toQuery.compile] := by
  rw [Statement.handed, unlogged_append, unlogged_logQuery]
  rfl

@[simp] theorem unlogged_logRow (r : Reading σ α) (index : Nat) (values : List Value) :
    unlogged (r.logRow index values) = [] := by
  unfold Reading.logRow
  split
  · exact unlogged_log r.settings _ _
  · rfl

@[simp] theorem unlogged_finish (r : Reading σ α) (count : Nat) (state : σ) :
    unlogged (r.finish count state).effects = [.traced (.fetched count)] := by
  unfold Reading.finish
  split
  · exact congrArg (_ :: ·) (unlogged_log r.settings _ _)
  · rfl

theorem sent_unlogged (es : List Effect) : sent (unlogged es) = sent es := by
  induction es with
  | nil => rfl
  | cons e es ih =>
      cases e with
      | traced event => cases event <;> exact ih
      | called c => exact congrArg (c :: ·) ih
      | _ => exact ih

theorem expirations_unlogged (es : List Effect) : expirations (unlogged es) = expirations es := by
  unfold expirations unlogged
  rw [List.countP_filter]
  refine List.countP_congr fun e _ => ?_
  cases e <;> simp [Effect.isSilent]

end BoundSql.Run
