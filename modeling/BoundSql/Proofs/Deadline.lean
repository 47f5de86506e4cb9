import BoundSql.Proofs.PrefixFold

/-!
# Limits of time

A call waits for its answer, and a fetch then waits in front of events of the cursor. Time is
counted from the start of the call, when the timer of the call and the deadline of the rows are set.
A limit in which all waits of the unlimited call end changes nothing. Any other cuts the call at the
first wait that ends too late, and by then the accumulator has what was there in time. All of this
is about limits whose end the clock can tell; a fetch with another one is never handed over.
-/
namespace BoundSql.Run

open Log (ExecFlags)
open Row (Mapper Shape)
open Sql (Query)
open Text (Span)

variable {σ α : Type}

/-- The options of a call that may take this span of time. -/
def Context.within (ctx : Context) (limit : Span) : Context := { ctx with timeout := some limit }

/-- The options of a call that may take as long as it wants. -/
def Context.unlimited (ctx : Context) : Context := { ctx with timeout := none }

theorem Clock.timer_of_tells {c : Clock} {limit : Span} (h : c.tells limit) :
    c.timer limit = limit.nanos :=
  if_pos h

theorem Clock.timer_of_not_tells {c : Clock} {limit : Span} (h : c.tells limit = false) :
    c.timer limit = c.far := by
  rw [timer, h]
  rfl

theorem Context.inTime_of_le_timer {limit : Span} {elapsed : Nat} (ctx : Context)
    (h : elapsed ≤ ctx.clock.timer limit) : (ctx.within limit).inTime elapsed = true :=
  decide_eq_true h

theorem Context.not_inTime_of_timer_lt {limit : Span} {elapsed : Nat} (ctx : Context)
    (h : ctx.clock.timer limit < elapsed) : (ctx.within limit).inTime elapsed = false :=
  decide_eq_false (Nat.not_le.mpr h)

section Told

variable {ctx : Context} {limit : Span} {elapsed : Nat} (hclock : ctx.clock.tells limit)

include hclock

theorem Context.timed_within : (ctx.within limit).timed = true := hclock

theorem Context.inTime_within (h : elapsed ≤ limit.nanos) :
    (ctx.within limit).inTime elapsed = true :=
  ctx.inTime_of_le_timer (Clock.timer_of_tells hclock ▸ h)

theorem Context.not_inTime_within (h : limit.nanos < elapsed) :
    (ctx.within limit).inTime elapsed = false :=
  ctx.not_inTime_of_timer_lt (Clock.timer_of_tells hclock ▸ h)

end Told

namespace Cursor

/-- When the waits of a cursor that is there at `now` are over. -/
def waits (now : Nat) : Cursor → List Nat
  | [] => []
  | .wait nanos :: rest => (now + nanos) :: waits (now + nanos) rest
  | .row _ :: rest => waits now rest
  | .fail _ :: rest => waits now rest

/-- When the rows of a cursor that is there at `now` are delivered. -/
def times (now : Nat) : Cursor → List Nat
  | [] => []
  | .wait nanos :: rest => times (now + nanos) rest
  | .row _ :: rest => now :: times now rest
  | .fail _ :: rest => times now rest

theorem le_of_mem_times {now t : Nat} {c : Cursor} (h : t ∈ times now c) : now ≤ t := by
  induction c generalizing now with
  | nil => cases h
  | cons event rest ih =>
      cases event with
      | wait nanos =>
          have hlater : now + nanos ≤ t := ih h
          omega
      | fail cause => exact ih h
      | row values =>
          obtain rfl | h := List.mem_cons.mp h
          · exact Nat.le_refl _
          · exact ih h

theorem length_times (now : Nat) (c : Cursor) : (times now c).length = (rows c).length := by
  induction c generalizing now with
  | nil => rfl
  | cons event rest ih =>
      cases event with
      | wait nanos => exact ih (now + nanos)
      | fail cause => exact ih now
      | row values => exact congrArg (· + 1) (ih now)

end Cursor

/-- The items that were there at `limit`, of those that came one after the other. -/
def itemsBy (limit : Nat) (delivered : List (Nat × α)) : List α :=
  (delivered.filter (·.1 ≤ limit)).map (·.2)

theorem itemsBy_cons {limit time : Nat} (h : time ≤ limit) (a : α) (delivered : List (Nat × α)) :
    itemsBy limit ((time, a) :: delivered) = a :: itemsBy limit delivered := by
  rw [itemsBy, List.filter_cons_of_pos (by simpa using h)]
  rfl

theorem itemsBy_of_late {limit : Nat} {delivered : List (Nat × α)}
    (h : ∀ d ∈ delivered, limit < d.1) : itemsBy limit delivered = [] := by
  have hlate : delivered.filter (·.1 ≤ limit) = [] :=
    List.filter_eq_nil_iff.mpr fun d hd => by simpa using h d hd
  rw [itemsBy, hlate, List.map_nil]

@[simp] theorem expirations_append (es es' : List Effect) :
    expirations (es ++ es') = expirations es + expirations es' :=
  List.countP_append

theorem expirations_of_unlogged {es : List Effect} (es' : List Effect) (h : unlogged es = es')
    (hes' : expirations es' = 0) : expirations es = 0 := by
  rw [← expirations_unlogged, h, hes']

@[simp] theorem expirations_logRow (r : Reading σ α) (index : Nat) (values : List Value) :
    expirations (r.logRow index values) = 0 :=
  expirations_of_unlogged _ (unlogged_logRow r index values) rfl

@[simp] theorem expirations_finish (r : Reading σ α) (count : Nat) (s : σ) :
    expirations (r.finish count s).effects = 0 :=
  expirations_of_unlogged _ (unlogged_finish r count s) rfl

@[simp] theorem expirations_announced (q : Statement Query) (ctx : Context) (shape : Shape) :
    expirations (announced q ctx shape) = 0 :=
  expirations_of_unlogged _ (unlogged_announced q ctx shape) rfl

@[simp] theorem expirations_handed (q : Statement Change) (ctx : Context) :
    expirations (q.handed ctx) = 0 :=
  expirations_of_unlogged _ (unlogged_handed q ctx) rfl

theorem expirations_prepend {es : List Effect} (hes : expirations es = 0) (o : Outcome σ α) :
    expirations (o.prepend es).effects = expirations o.effects := by
  rw [Outcome.prepend, expirations_append, hes, Nat.zero_add]

/-- Without a limit nothing expires. -/
theorem Reading.expirations_rows {r : Reading σ α} (h : r.context.timeout = none)
    (now count : Nat) (s : σ) (cursor : Cursor) :
    expirations (r.rows now count s cursor).effects = 0 := by
  induction cursor generalizing now count s with
  | nil => exact expirations_finish r count s
  | cons event rest ih =>
      cases event with
      | wait nanos =>
          rw [rows_of_wait now count rest (Context.inTime_of_none h _)]
          exact ih (now + nanos) count s
      | fail cause =>
          cases cause
          case exit => exact expirations_finish r count s
          all_goals rfl
      | row values =>
          rw [rows]
          rcases r.shape.item r.mapper values s with ⟨cause | a, s₁⟩
          · exact expirations_logRow r (count + 1) values
          · dsimp only
            cases r.accumulate a s₁ with
            | done s' => rw [expirations_prepend (by simp), expirations_finish]
            | yield s' => rw [expirations_prepend (by simp), ih]

/-- Time ran out at the limit, and the database was told once. -/
structure Outcome.CutAt (limit : Span) (o : Outcome σ α) : Prop where
  result : o.result = .error (.failed (.timeout limit))
  told : expirations o.effects = 1

theorem Outcome.CutAt.prepend {limit : Span} {o : Outcome σ α} {es : List Effect}
    (h : o.CutAt limit) (hes : expirations es = 0) : (o.prepend es).CutAt limit :=
  ⟨h.result, (expirations_prepend hes o).trans h.told⟩

namespace Reading

def within (r : Reading σ α) (limit : Span) : Reading σ α :=
  { r with context := r.context.within limit }

def unlimited (r : Reading σ α) : Reading σ α := { r with context := r.context.unlimited }

variable {r : Reading σ α} {s s' : σ} {before rest : Cursor} {passed : List (Passed α)}
  {stop : Stop α} {limit : Span} {now : Nat}

/-- What stops a reading is not a matter of time. -/
theorem Stops.rows_within (h : r.Stops s rest stop s') (limit : Span) (now count : Nat) :
    (r.within limit).rows now count s rest = r.unlimited.rows now count s rest := by
  cases h with
  | exhausted => rfl
  | exit => rfl
  | @failed cause => cases cause <;> rfl
  | @unscanned _ _ hscan _ events =>
      have hitem := item_of_unscanned hscan s
      exact (rows_of_error (r := r.within limit) now count events hitem).trans
        (rows_of_error (r := r.unlimited) now count events hitem).symm
  | unmapped hscan hmap events =>
      have hitem := item_of_unmapped hscan hmap
      exact (rows_of_error (r := r.within limit) now count events hitem).trans
        (rows_of_error (r := r.unlimited) now count events hitem).symm
  | enough hturns henough events =>
      exact (rows_of_done (r := r.within limit) now count events hturns henough).trans
        (rows_of_done (r := r.unlimited) now count events hturns henough).symm

/-- If all waits in front of the event that stops it end in time, the reading is the same. -/
theorem Runs.rows_within (h : r.Runs s before rest passed stop s')
    (hclock : r.context.clock.tells limit) (hin : ∀ t ∈ before.waits now, t ≤ limit.nanos)
    (count : Nat) :
    (r.within limit).rows now count s (before ++ rest) =
      r.unlimited.rows now count s (before ++ rest) := by
  induction h generalizing now count with
  | stop h => exact h.rows_within limit now count
  | wait nanos h ih =>
      obtain ⟨hwait, hin⟩ := List.forall_mem_cons.mp hin
      rw [List.cons_append, rows_of_wait now count _ (Context.inTime_within hclock hwait),
        rows_of_wait now count _ (Context.inTime_of_none rfl _)]
      exact ih hin count
  | row hturns hmore h ih =>
      rw [List.cons_append, rows_of_yield (r := r.within limit) now count _ hturns hmore,
        rows_of_yield (r := r.unlimited) now count _ hturns hmore, ih hin]
      rfl

/-- The items of a run, each with the time of its row. The row at which the accumulator has enough
is among them. -/
def delivered (now : Nat) (before rest : Cursor) (passed : List (Passed α)) (stop : Stop α) :
    List (Nat × α) :=
  (Cursor.times now (before ++ rest.take 1)).zip (passed.map (·.item) ++ stop.item?.toList)

/-- Each item has its row. -/
theorem Runs.length_items_le (h : r.Runs s before rest passed stop s') :
    (passed.map (·.item) ++ stop.item?.toList).length ≤
      (Cursor.rows (before ++ rest.take 1)).length := by
  induction h with
  | stop h =>
      cases h with
      | enough => exact Nat.le_refl 1
      | _ => exact Nat.zero_le _
  | wait nanos h ih => exact ih
  | row hturns hmore h ih => exact Nat.succ_le_succ ih

theorem Runs.map_delivered (h : r.Runs s before rest passed stop s') (now : Nat) :
    (delivered now before rest passed stop).map (·.2) =
      passed.map (·.item) ++ stop.item?.toList :=
  List.map_snd_zip (Cursor.length_times now (before ++ rest.take 1) ▸ h.length_items_le)

/-- At the first wait that ends too late the reading is over. What is delivered behind it is not
there in time, and everything in front of it is. -/
theorem Runs.rows_cut (h : r.Runs s before rest passed stop s')
    (hclock : r.context.clock.tells limit) (hnow : now ≤ limit.nanos)
    (hlate : ∃ t ∈ before.waits now, limit.nanos < t) (count : Nat) (calls : List (Call α)) :
    let o := (r.within limit).recorded.rows now count (s, calls) (before ++ rest)
    o.CutAt limit ∧ received o.state.2 =
      received calls ++ itemsBy limit.nanos (delivered now before rest passed stop) := by
  induction h generalizing now count calls with
  | stop h =>
      obtain ⟨t, ht, -⟩ := hlate
      cases ht
  | @wait s s' before rest passed stop nanos h ih =>
      intro o
      by_cases hwait : now + nanos ≤ limit.nanos
      · have ho : o = (r.within limit).recorded.rows (now + nanos) count (s, calls)
            (before ++ rest) :=
          rows_of_wait now count _ (Context.inTime_within hclock hwait) _
        rw [ho]
        refine ih hwait ?_ count calls
        obtain ⟨t, ht, hover⟩ := hlate
        obtain rfl | ht := List.mem_cons.mp ht
        · exact absurd hwait (Nat.not_le.mpr hover)
        · exact ⟨t, ht, hover⟩
      · have hover : limit.nanos < now + nanos := Nat.lt_of_not_le hwait
        have ho : o = ⟨.error (.failed (.timeout limit)), (s, calls), [.expired]⟩ :=
          rows_of_late now count _ (Context.not_inTime_within hclock hover) _
        have hbehind :
            itemsBy limit.nanos (delivered now (.wait nanos :: before) rest passed stop) = [] :=
          itemsBy_of_late fun d hd =>
            Nat.lt_of_lt_of_le hover (Cursor.le_of_mem_times (List.of_mem_zip hd).1)
        rw [ho, hbehind, List.append_nil]
        exact ⟨⟨rfl, rfl⟩, rfl⟩
  | @row s s₁ s₂ s' values p before rest passed stop hturns hmore h ih =>
      intro o
      have ho : o = ((r.within limit).recorded.rows now (count + 1) (s₂, calls ++ p.calls)
          (before ++ rest)).prepend ((r.within limit).recorded.logRow (count + 1) values) :=
        rows_of_yield now count _ (Turns.recorded (r := r.within limit) hturns calls)
          (recorded_accumulate (r := r.within limit) hmore calls)
      obtain ⟨hcut, hreceived⟩ := ih hnow hlate (count + 1) (calls ++ p.calls)
      have hhere : itemsBy limit.nanos
          (delivered now (.row values :: before) rest (p :: passed) stop) =
            p.item :: itemsBy limit.nanos (delivered now before rest passed stop) :=
        itemsBy_cons hnow p.item _
      rw [ho, hhere]
      refine ⟨hcut.prepend (expirations_logRow _ _ _), hreceived.trans ?_⟩
      rw [received_append, List.append_assoc]
      rfl

end Reading

/-- The course of a fetch without a limit: when its waits are over, and at which times the
accumulator takes which items. -/
inductive Course (q : Statement Query) (db : Option Database) (ctx : Context) (m : Mapper σ α)
    (accumulate : α → σ → ForInStep σ) (s : σ) : List Nat → List (Nat × α) → Prop
  | unresolved (hdb : q.settings.resolve db = none) : Course q db ctx m accumulate s [] []
  | refused {database : Database} {delay : Nat} {cause : Failure}
      (hdb : q.settings.resolve db = some database)
      (hquery : database.query (projected q.body (Shape.declare m s).1).compile =
        ⟨delay, .error cause⟩) : Course q db ctx m accumulate s [delay] []
  | read {database : Database} {delay : Nat} {before rest : Cursor} {passed : List (Passed α)}
      {stop : Stop α} {s' : σ} (hdb : q.settings.resolve db = some database)
      (hquery : database.query (projected q.body (Shape.declare m s).1).compile =
        ⟨delay, .ok (before ++ rest)⟩)
      (hruns : Reading.Runs ⟨q.settings, ctx.unlimited, (Shape.declare m s).1, m, accumulate⟩
        (Shape.declare m s).2 before rest passed stop s') :
      Course q db ctx m accumulate s (delay :: before.waits delay)
        (Reading.delivered delay before rest passed stop)

section Course

variable {q : Statement Query} {db : Option Database} {ctx : Context} {m : Mapper σ α}
  {accumulate : α → σ → ForInStep σ} {s : σ} {waits : List Nat} {delivered : List (Nat × α)}
  {limit : Span}

/-- Every fetch has a course. -/
theorem exists_course (q : Statement Query) (db : Option Database) (ctx : Context)
    (m : Mapper σ α) (accumulate : α → σ → ForInStep σ) (s : σ) :
    ∃ waits delivered, Course q db ctx m accumulate s waits delivered := by
  cases hdb : q.settings.resolve db with
  | none => exact ⟨[], [], .unresolved hdb⟩
  | some database =>
      rcases hquery : database.query (projected q.body (Shape.declare m s).1).compile with
        ⟨delay, cause | cursor⟩
      · exact ⟨[delay], [], .refused hdb hquery⟩
      · obtain ⟨before, rest, passed, stop, s', rfl, hruns⟩ := Reading.exists_runs
          ⟨q.settings, ctx.unlimited, (Shape.declare m s).1, m, accumulate⟩
          (Shape.declare m s).2 cursor
        exact ⟨_, _, .read hdb hquery hruns⟩

/-- Without a limit the accumulator takes the items of the course. -/
theorem Course.received_unlimited (h : Course q db ctx m accumulate s waits delivered) :
    received (observe q db ctx.unlimited m accumulate s).state.2 = delivered.map (·.2) := by
  have htimed : ctx.unlimited.timed = true := Context.timed_of_none rfl
  have hinTime (delay : Nat) : ctx.unlimited.inTime delay = true := Context.inTime_of_none rfl delay
  cases h with
  | unresolved hdb => rw [observe_of_none hdb]; rfl
  | @refused database delay cause hdb hquery =>
      rw [observe_of_some hdb htimed, hquery, Reading.answered_of_error (hinTime delay)]
      rfl
  | @read database delay before rest passed stop s' hdb hquery hruns =>
      obtain ⟨o, -, hstate, hrows⟩ := (hruns.recorded [.declare]).rows rfl 0
      rw [observe_of_some hdb htimed, hquery, Reading.answered_of_ok (hinTime delay),
        hrows delay rest rfl, Outcome.prepend, hstate, hruns.map_delivered delay, ← received_calls]
      rfl

/-- If all waits end within the limit, it makes no difference. -/
theorem Course.observe_within (h : Course q db ctx m accumulate s waits delivered)
    (hclock : ctx.clock.tells limit) (hin : ∀ t ∈ waits, t ≤ limit.nanos) :
    observe q db (ctx.within limit) m accumulate s = observe q db ctx.unlimited m accumulate s := by
  have htimed : ctx.unlimited.timed = true := Context.timed_of_none rfl
  have hinTime (delay : Nat) : ctx.unlimited.inTime delay = true := Context.inTime_of_none rfl delay
  cases h with
  | unresolved hdb => rw [observe_of_none hdb, observe_of_none hdb]
  | @refused database delay cause hdb hquery =>
      have hdelay : delay ≤ limit.nanos := hin delay (List.mem_singleton.mpr rfl)
      rw [observe_of_some hdb (Context.timed_within hclock), observe_of_some hdb htimed, hquery,
        Reading.answered_of_error (Context.inTime_within hclock hdelay),
        Reading.answered_of_error (hinTime delay)]
      rfl
  | @read database delay before rest passed stop s' hdb hquery hruns =>
      obtain ⟨hdelay, hin⟩ := List.forall_mem_cons.mp hin
      rw [observe_of_some hdb (Context.timed_within hclock), observe_of_some hdb htimed, hquery,
        Reading.answered_of_ok (Context.inTime_within hclock hdelay),
        Reading.answered_of_ok (hinTime delay)]
      exact congrArg (Outcome.prepend _) ((hruns.recorded [.declare]).rows_within hclock hin 0)

/-- A wait that ends too late cuts the fetch. -/
theorem Course.observe_cut (h : Course q db ctx m accumulate s waits delivered)
    (hclock : ctx.clock.tells limit) (hlate : ∃ t ∈ waits, limit.nanos < t) :
    let o := observe q db (ctx.within limit) m accumulate s
    o.CutAt limit ∧ received o.state.2 = itemsBy limit.nanos delivered := by
  obtain ⟨t, ht, hover⟩ := hlate
  cases h with
  | unresolved => cases ht
  | @refused database delay cause hdb hquery =>
      obtain rfl := List.mem_singleton.mp ht
      rw [observe_of_some hdb (Context.timed_within hclock), hquery,
        Reading.answered_of_late (Context.not_inTime_within hclock hover)]
      exact ⟨.prepend ⟨rfl, rfl⟩ (expirations_announced q _ _), rfl⟩
  | @read database delay before rest passed stop s' hdb hquery hruns =>
      rw [observe_of_some hdb (Context.timed_within hclock), hquery]
      by_cases hdelay : delay ≤ limit.nanos
      · have hlate : ∃ t ∈ before.waits delay, limit.nanos < t := by
          obtain rfl | ht := List.mem_cons.mp ht
          · exact absurd hdelay (Nat.not_le.mpr hover)
          · exact ⟨t, ht, hover⟩
        obtain ⟨hcut, hreceived⟩ := hruns.rows_cut hclock hdelay hlate 0 [.declare]
        rw [Reading.answered_of_ok (Context.inTime_within hclock hdelay)]
        exact ⟨hcut.prepend (expirations_announced q _ _), hreceived⟩
      · have hdelay : limit.nanos < delay := Nat.lt_of_not_le hdelay
        have hbehind : itemsBy limit.nanos (Reading.delivered delay before rest passed stop) = [] :=
          itemsBy_of_late fun d hd =>
            Nat.lt_of_lt_of_le hdelay (Cursor.le_of_mem_times (List.of_mem_zip hd).1)
        rw [Reading.answered_of_late (Context.not_inTime_within hclock hdelay), hbehind]
        exact ⟨.prepend ⟨rfl, rfl⟩ (expirations_announced q _ _), rfl⟩

end Course

theorem expirations_fetchEach {ctx : Context} (h : ctx.timeout = none) (q : Statement Query)
    (db : Option Database) (m : Mapper σ α) (accumulate : α → σ → ForInStep σ) (s : σ) :
    expirations (fetchEach q db ctx m accumulate s).effects = 0 := by
  cases hdb : q.settings.resolve db with
  | none => rw [fetchEach_of_none hdb]; rfl
  | some database =>
      rw [fetchEach_of_some hdb (Context.timed_of_none h),
        expirations_prepend (expirations_announced q ctx _)]
      rcases database.query _ with ⟨delay, cause | cursor⟩
      · rw [Reading.answered_of_error (Context.inTime_of_none h delay)]
        rfl
      · rw [Reading.answered_of_ok (Context.inTime_of_none h delay)]
        exact Reading.expirations_rows h delay 0 _ cursor

namespace Statement

/-- When the wait of an execution is over. -/
def waits (q : Statement Change) (db : Option Database) : List Nat :=
  match q.settings.resolve db with
  | none => []
  | some database => [(database.exec q.body.toQuery.compile).delay]

variable {q : Statement Change} {ctx ctx' : Context} {answer : Answer Counts}

theorem accounted_congr (h : ctx.inTime answer.delay = true)
    (h' : ctx'.inTime answer.delay = true) (htag : ctx.tag = ctx'.tag) (flags : ExecFlags) :
    q.accounted ctx flags answer = q.accounted ctx' flags answer := by
  rw [accounted, accounted, h, h', htag]
  rfl

theorem expirations_accounted (h : ctx.inTime answer.delay = true) (flags : ExecFlags) :
    expirations (q.accounted ctx flags answer).effects = 0 := by
  rw [accounted, h]
  cases answer.outcome.bind (·.requested flags) with
  | error cause => rfl
  | ok counts =>
      refine expirations_of_unlogged [.traced _] (congrArg (_ :: ·) ?_) rfl
      change unlogged (if _ then _ else _) = _
      split
      · exact unlogged_log _ _ _
      · rfl

end Statement

/-- With a limit a run is the same as without, or it is cut; which of them is told by whether its
waits end by the time `last`. -/
structure Outcome.LimitedTo (limit : Span) (last : Nat) (waits : List Nat)
    (limited free : Outcome σ α) : Prop where
  same : (∀ t ∈ waits, t ≤ last) → limited = free ∧ expirations limited.effects = 0
  cut : (∃ t ∈ waits, last < t) → limited.CutAt limit

/-- The same is true of what is made of a run, if failures stay what they are. -/
theorem Outcome.LimitedTo.map {τ β : Type} {limit : Span} {last : Nat} {waits : List Nat}
    {limited free : Outcome σ α} (h : LimitedTo limit last waits limited free)
    (f : Except Halt α → σ → Except Halt β) (g : σ → τ)
    (hf : ∀ cause s, f (.error cause) s = .error cause) :
    LimitedTo limit last waits (limited.map f g) (free.map f g) where
  same hin := by
    obtain ⟨rfl, hexpired⟩ := h.same hin
    exact ⟨rfl, hexpired⟩
  cut hlate := by
    obtain ⟨hresult, hexpired⟩ := h.cut hlate
    exact ⟨by rw [Outcome.map, hresult, hf], hexpired⟩

section Limit

variable {q : Statement Query} {db : Option Database} {m : Mapper σ α}
  {accumulate : α → σ → ForInStep σ} {s : σ} {waits : List Nat} {delivered : List (Nat × α)}

theorem Course.observe_limitedTo {ctx : Context} {limit : Span}
    (h : Course q db ctx m accumulate s waits delivered) (hclock : ctx.clock.tells limit) :
    Outcome.LimitedTo limit limit.nanos waits (observe q db (ctx.within limit) m accumulate s)
      (observe q db ctx.unlimited m accumulate s) where
  same hin := by
    rw [h.observe_within hclock hin]
    exact ⟨rfl, expirations_fetchEach rfl q db _ _ _⟩
  cut hlate := (h.observe_cut hclock hlate).1

/-- An execution is limited by its timer. -/
theorem exec_limitedTo (q : Statement Change) (db : Option Database) (ctx : Context)
    (flags : ExecFlags) (limit : Span) :
    Outcome.LimitedTo limit (ctx.clock.timer limit) (q.waits db)
      (exec q db (ctx.within limit) flags) (exec q db ctx.unlimited flags) := by
  cases hdb : q.settings.resolve db with
  | none =>
      have hwaits : q.waits db = [] := by rw [Statement.waits, hdb]
      rw [exec_of_none hdb, exec_of_none hdb, hwaits]
      exact ⟨fun _ => ⟨rfl, rfl⟩, fun ⟨_, ht, _⟩ => absurd ht List.not_mem_nil⟩
  | some database =>
      have hwaits : q.waits db = [(database.exec q.body.toQuery.compile).delay] := by
        rw [Statement.waits, hdb]
      rw [exec_of_some hdb, exec_of_some hdb, hwaits]
      refine ⟨fun hin => ?_, fun ⟨t, ht, hover⟩ => ?_⟩
      · have hin := ctx.inTime_of_le_timer (hin _ (List.mem_singleton.mpr rfl))
        have hfree (delay : Nat) : ctx.unlimited.inTime delay = true :=
          Context.inTime_of_none rfl delay
        rw [Statement.accounted_congr hin (hfree _) rfl]
        refine ⟨rfl, (expirations_prepend (expirations_handed q _) _).trans ?_⟩
        exact Statement.expirations_accounted (hfree _) flags
      · obtain rfl := List.mem_singleton.mp ht
        rw [Statement.accounted_of_late (ctx.not_inTime_of_timer_lt hover)]
        exact .prepend ⟨rfl, rfl⟩ (expirations_handed q _)

end Limit

theorem numbers_course : Course numbersQuery (some numbersDatabase) {} readNumber untilSeven ()
    [1, 3] [(1, 5), (3, 7)] := by
  have hdb : numbersQuery.settings.resolve (some numbersDatabase) = some numbersDatabase := rfl
  exact @Course.read _ _ numbersQuery (some numbersDatabase) {} readNumber untilSeven () _ 1
    [.row [.int 5], .wait 2] _ _ _ _ hdb rfl numbers_runs

/-- A limit whose end the clock cannot tell ends a fetch in front of its call: the database hears
nothing, and the accumulator is given nothing. An execution runs until its timer ends. -/
theorem limit_beyond_the_clock (db : Option Database) (ctx : Context) {limit : Span}
    (hclock : ctx.clock.tells limit = false) :
    (∀ (σ α : Type) (q : Statement Query) (m : Mapper σ α) (accumulate : α → σ → ForInStep σ)
        (s : σ), (q.settings.resolve db).isSome →
      observe q db (ctx.within limit) m accumulate s =
        ⟨.error .overflow, ((Shape.declare m s).2, [.declare]),
          prepared q ctx (Shape.declare m s).1⟩) ∧
    ∀ (q : Statement Change) (flags : ExecFlags),
      Outcome.LimitedTo limit ctx.clock.far (q.waits db) (exec q db (ctx.within limit) flags)
        (exec q db ctx.unlimited flags) := by
  refine ⟨fun σ α q m accumulate s hsome => ?_, fun q flags => ?_⟩
  · obtain ⟨database, hdb⟩ := Option.isSome_iff_exists.mp hsome
    have htimed : (ctx.within limit).timed = false := hclock
    exact observe_of_overflow hdb htimed m accumulate s
  · have hexec := exec_limitedTo q db ctx flags limit
    rwa [Clock.timer_of_not_tells hclock] at hexec

end BoundSql.Run
