import BoundSql.Proofs.Observation

/-!
# The loop is a prefix fold

Without a limit of time a reading takes the events of a cursor one after the other, up to the first
that stops it. Its result, what it asks of the mapper and what it gives to the accumulator are told
by the events up to there, and nothing behind them is looked at.
-/
namespace BoundSql.Run

open Row (Mapper Reader ScanCause Shape)
open Sql (Query)

variable {σ α : Type}

/-- The rows of a cursor. -/
def Cursor.rows (c : Cursor) : List (List Value) :=
  c.filterMap fun
    | .row values => some values
    | _ => none

/-- A row that went through: its slots and its item. -/
structure Passed (α : Type) where
  slots : List Value
  item : α

/-- What a row that went through was good for. -/
def Passed.calls (p : Passed α) : List (Call α) := [.map p.slots, .take p.item]

/-- Why a reading stops. -/
inductive Stop (α : Type) where
  /-- The cursor is exhausted, or exits. -/
  | ended
  | failed (cause : Failure)
  /-- A row does not fit the slots. -/
  | unscanned (cause : ScanCause)
  /-- The mapper fails on a row. -/
  | unmapped (slots : List Value) (cause : ScanCause)
  /-- The accumulator has enough. -/
  | enough (slots : List Value) (item : α)

namespace Stop

/-- The result after so many rows. -/
def result (read : Nat) : Stop α → Except Halt Nat
  | ended | enough .. => .ok read
  | failed cause => .error (.failed cause)
  | unscanned cause | unmapped _ cause => .error (.failed (.scan (.row cause)))

/-- The calls that are made for the event that stops the reading. -/
def calls : Stop α → List (Call α)
  | ended | failed _ | unscanned _ => []
  | unmapped slots _ => [.map slots]
  | enough slots item => [.map slots, .take item]

/-- The item of that event, if the accumulator is given one. -/
def item? : Stop α → Option α
  | enough _ item => some item
  | _ => none

end Stop

namespace Reading

variable (r : Reading σ α)

/-- The mapper turns a row into an item. -/
def Turns (values : List Value) (s : σ) (p : Passed α) (s' : σ) : Prop :=
  r.shape.scan values = .ok p.slots ∧
    r.shape.materialize p.slots r.mapper s = (.ok p.item, s')

/-- In the state `s` the reading stops at the first event, or at the end. -/
inductive Stops : σ → Cursor → Stop α → σ → Prop
  | exhausted (s : σ) : Stops s [] .ended s
  | exit (s : σ) (rest : Cursor) : Stops s (.fail .exit :: rest) .ended s
  | failed {cause : Failure} (h : cause ≠ .exit) (s : σ) (rest : Cursor) :
      Stops s (.fail cause :: rest) (.failed cause) s
  | unscanned {values : List Value} {cause : ScanCause} (h : r.shape.scan values = .error cause)
      (s : σ) (rest : Cursor) : Stops s (.row values :: rest) (.unscanned cause) s
  | unmapped {values slots : List Value} {cause : ScanCause} {s s' : σ}
      (hscan : r.shape.scan values = .ok slots)
      (h : r.shape.materialize slots r.mapper s = (.error cause, s')) (rest : Cursor) :
      Stops s (.row values :: rest) (.unmapped slots cause) s'
  | enough {values : List Value} {p : Passed α} {s s₁ s' : σ} (hturns : r.Turns values s p s₁)
      (h : r.accumulate p.item s₁ = .done s') (rest : Cursor) :
      Stops s (.row values :: rest) (.enough p.slots p.item) s'

/-- From the state `s` on, the events `before` go through: waits, and rows turned into items after
each of which the accumulator asks for more. Then the reading stops at the first event of `rest`. -/
inductive Runs : σ → (before rest : Cursor) → List (Passed α) → Stop α → σ → Prop
  | stop {s s' : σ} {rest : Cursor} {stop : Stop α} (h : r.Stops s rest stop s') :
      Runs s [] rest [] stop s'
  | wait {s s' : σ} {before rest : Cursor} {passed : List (Passed α)} {stop : Stop α}
      (nanos : Nat) (h : Runs s before rest passed stop s') :
      Runs s (.wait nanos :: before) rest passed stop s'
  | row {s s₁ s₂ s' : σ} {values : List Value} {p : Passed α} {before rest : Cursor}
      {passed : List (Passed α)} {stop : Stop α} (hturns : r.Turns values s p s₁)
      (hmore : r.accumulate p.item s₁ = .yield s₂) (h : Runs s₂ before rest passed stop s') :
      Runs s (.row values :: before) rest (p :: passed) stop s'

end Reading

section Runs

variable {r : Reading σ α} {s s' s₁ : σ} {before rest : Cursor} {passed : List (Passed α)}
  {stop : Stop α}

/-- Some event stops a reading, or the end does. -/
theorem Reading.exists_runs (r : Reading σ α) (s : σ) (cursor : Cursor) :
    ∃ before rest passed stop s', cursor = before ++ rest ∧
      r.Runs s before rest passed stop s' := by
  induction cursor generalizing s with
  | nil => exact ⟨[], [], [], .ended, s, rfl, .stop (.exhausted s)⟩
  | cons event events ih =>
      cases event with
      | wait nanos =>
          obtain ⟨before, rest, passed, stop, s', rfl, h⟩ := ih s
          exact ⟨_, rest, passed, stop, s', rfl, .wait nanos h⟩
      | fail cause =>
          by_cases hexit : cause = .exit
          · exact ⟨[], _, [], .ended, s, rfl, .stop (hexit ▸ .exit s events)⟩
          · exact ⟨[], _, [], .failed cause, s, rfl, .stop (.failed hexit s events)⟩
      | row values =>
          cases hscan : r.shape.scan values with
          | error cause =>
              exact ⟨[], _, [], .unscanned cause, s, rfl, .stop (.unscanned hscan s events)⟩
          | ok slots =>
              rcases hmap : r.shape.materialize slots r.mapper s with ⟨cause | a, s₁⟩
              · exact ⟨[], _, [], .unmapped slots cause, s₁, rfl,
                  .stop (.unmapped hscan hmap events)⟩
              · have hturns : r.Turns values s ⟨slots, a⟩ s₁ := ⟨hscan, hmap⟩
                cases htake : r.accumulate a s₁ with
                | done s' =>
                    exact ⟨[], _, [], .enough slots a, s', rfl,
                      .stop (.enough hturns htake events)⟩
                | yield s₂ =>
                    obtain ⟨before, rest, passed, stop, s', rfl, h⟩ := ih s₂
                    exact ⟨_, rest, _, stop, s', rfl, .row hturns htake h⟩

theorem Context.inTime_of_none {ctx : Context} (h : ctx.timeout = none) (elapsed : Nat) :
    ctx.inTime elapsed = true := by
  rw [inTime, h]

theorem Context.timed_of_none {ctx : Context} (h : ctx.timeout = none) : ctx.timed = true := by
  rw [timed, h]

section Event

variable {values : List Value} (now count : Nat) (events : Cursor)

theorem Reading.rows_of_wait {nanos : Nat} (h : r.context.inTime (now + nanos) = true) (s : σ) :
    r.rows now count s (.wait nanos :: events) = r.rows (now + nanos) count s events := by
  rw [Reading.rows, if_pos h]

theorem Reading.rows_of_late {nanos : Nat} (h : r.context.inTime (now + nanos) = false) (s : σ) :
    r.rows now count s (.wait nanos :: events) =
      ⟨.error (.failed r.context.expired), s, [.expired]⟩ := by
  rw [Reading.rows, if_neg (Bool.eq_false_iff.mp h)]

theorem Reading.Turns.item {p : Passed α} (h : r.Turns values s p s₁) :
    r.shape.item r.mapper values s = (.ok p.item, s₁) := by
  rw [Shape.item, h.1]
  exact h.2

theorem Reading.item_of_unscanned {cause : ScanCause} (h : r.shape.scan values = .error cause)
    (s : σ) : r.shape.item r.mapper values s = (.error cause, s) := by
  rw [Shape.item, h]

theorem Reading.item_of_unmapped {slots : List Value} {cause : ScanCause}
    (hscan : r.shape.scan values = .ok slots)
    (h : r.shape.materialize slots r.mapper s = (.error cause, s')) :
    r.shape.item r.mapper values s = (.error cause, s') := by
  rw [Shape.item, hscan]
  exact h

theorem Reading.rows_of_error {cause : ScanCause}
    (h : r.shape.item r.mapper values s = (.error cause, s')) :
    r.rows now count s (.row values :: events) =
      ⟨.error (.failed (.scan (.row cause))), s', r.logRow (count + 1) values⟩ := by
  rw [Reading.rows]
  simp only [h]

theorem Reading.rows_of_done {p : Passed α} (hturns : r.Turns values s p s₁)
    (henough : r.accumulate p.item s₁ = .done s') :
    r.rows now count s (.row values :: events) =
      (r.finish (count + 1) s').prepend (r.logRow (count + 1) values) := by
  rw [Reading.rows, hturns.item]
  simp only [henough]

theorem Reading.rows_of_yield {p : Passed α} (hturns : r.Turns values s p s₁)
    (hmore : r.accumulate p.item s₁ = .yield s') :
    r.rows now count s (.row values :: events) =
      (r.rows now (count + 1) s' events).prepend (r.logRow (count + 1) values) := by
  rw [Reading.rows, hturns.item]
  simp only [hmore]

end Event

/-- At the event that stops a reading, what is behind it and the time make no difference. -/
theorem Reading.Stops.rows (h : r.Stops s rest stop s') (count : Nat) :
    ∃ o : Outcome σ Nat,
      o.result = stop.result (count + (Cursor.rows (rest.take 1)).length) ∧ o.state = s' ∧
      ∀ now rest', rest'.head? = rest.head? → r.rows now count s rest' = o := by
  -- With an event at hand, another cursor with the same first event only has another rest.
  have hcons {event : CursorEvent} {events : Cursor} {o : Outcome σ Nat}
      (ho : ∀ now events, r.rows now count s (event :: events) = o) (now : Nat) (rest' : Cursor)
      (hhead : rest'.head? = (event :: events).head?) : r.rows now count s rest' = o := by
    obtain ⟨events', rfl⟩ := List.head?_eq_some_iff.mp hhead
    exact ho now events'
  cases h with
  | exhausted =>
      refine ⟨r.finish count s, rfl, rfl, fun now rest' hhead => ?_⟩
      obtain rfl := List.head?_eq_none_iff.mp hhead
      rfl
  | exit => exact ⟨r.finish count s, rfl, rfl, hcons fun _ _ => rfl⟩
  | @failed cause hcause =>
      refine ⟨⟨.error (.failed cause), s, []⟩, rfl, rfl, hcons fun _ _ => ?_⟩
      cases cause
      case exit => exact absurd rfl hcause
      all_goals rfl
  | unscanned hscan =>
      exact ⟨_, rfl, rfl, hcons fun now events =>
        Reading.rows_of_error now count events (Reading.item_of_unscanned hscan s)⟩
  | unmapped hscan hmap =>
      exact ⟨_, rfl, rfl, hcons fun now events =>
        Reading.rows_of_error now count events (Reading.item_of_unmapped hscan hmap)⟩
  | enough hturns henough =>
      exact ⟨_, rfl, rfl, hcons fun now events =>
        Reading.rows_of_done now count events hturns henough⟩

/-- The outcome of a run is told by its prefix and the event that stops it. -/
theorem Reading.Runs.rows (h : r.Runs s before rest passed stop s')
    (htimeout : r.context.timeout = none) (count : Nat) :
    ∃ o : Outcome σ Nat,
      o.result = stop.result (count + (Cursor.rows (before ++ rest.take 1)).length) ∧
      o.state = s' ∧
      ∀ now rest', rest'.head? = rest.head? → r.rows now count s (before ++ rest') = o := by
  induction h generalizing count with
  | stop h => exact h.rows count
  | wait nanos h ih =>
      obtain ⟨o, hresult, hstate, hrows⟩ := ih count
      refine ⟨o, hresult, hstate, fun now rest' hhead => ?_⟩
      rw [List.cons_append,
        Reading.rows_of_wait now count _ (Context.inTime_of_none htimeout _)]
      exact hrows (now + nanos) rest' hhead
  | @row s s₁ s₂ s' values p before rest passed stop hturns hmore h ih =>
      obtain ⟨o, hresult, hstate, hrows⟩ := ih (count + 1)
      refine ⟨o.prepend (r.logRow (count + 1) values),
        hresult.trans (congrArg (stop.result ·) ?_), hstate, fun now rest' hhead => ?_⟩
      · change count + 1 + _ = count + ((Cursor.rows (before ++ rest.take 1)).length + 1)
        omega
      · rw [List.cons_append, Reading.rows_of_yield now count _ hturns hmore, hrows now rest' hhead]

end Runs

section Calls

variable {r : Reading σ α} {s s' s₁ : σ} {before rest : Cursor} {passed : List (Passed α)}
  {stop : Stop α}

theorem materialize_recorded (shape : Shape) (slots : List Value) (m : Mapper σ α) (s : σ)
    (calls : List (Call α)) :
    shape.materialize slots (recorded m) (s, calls) =
      ((shape.materialize slots m s).1,
        ((shape.materialize slots m s).2, calls ++ [.map slots])) := rfl

theorem Reading.Turns.recorded {values : List Value} {p : Passed α} (h : r.Turns values s p s₁)
    (calls : List (Call α)) :
    r.recorded.Turns values (s, calls) p (s₁, calls ++ [.map p.slots]) := by
  refine ⟨h.1, ?_⟩
  rw [Reading.recorded, materialize_recorded, h.2]

theorem Reading.Stops.recorded (h : r.Stops s rest stop s') (calls : List (Call α)) :
    r.recorded.Stops (s, calls) rest stop (s', calls ++ stop.calls) := by
  cases h with
  | exhausted =>
      rw [Stop.calls, List.append_nil]
      exact .exhausted _
  | exit =>
      rw [Stop.calls, List.append_nil]
      exact .exit _ _
  | failed hcause =>
      rw [Stop.calls, List.append_nil]
      exact .failed hcause _ _
  | unscanned hscan =>
      rw [Stop.calls, List.append_nil]
      exact .unscanned (r := r.recorded) hscan _ _
  | @unmapped values slots cause s s' hscan hmap =>
      refine .unmapped (r := r.recorded) hscan ?_ _
      rw [Reading.recorded, materialize_recorded, hmap]
      rfl
  | @enough values p s s₁ s' hturns henough =>
      refine .enough (hturns.recorded calls) ?_ _
      simp only [Reading.recorded, recordedTake, henough, onState, List.append_assoc]
      rfl

theorem Reading.recorded_accumulate {p : Passed α} {s₂ : σ}
    (hmore : r.accumulate p.item s₁ = .yield s₂) (calls : List (Call α)) :
    r.recorded.accumulate p.item (s₁, calls ++ [.map p.slots]) = .yield (s₂, calls ++ p.calls) := by
  simp only [Reading.recorded, recordedTake, hmore, onState, List.append_assoc]
  rfl

theorem Reading.Runs.recorded (h : r.Runs s before rest passed stop s') (calls : List (Call α)) :
    r.recorded.Runs (s, calls) before rest passed stop
      (s', calls ++ (passed.flatMap Passed.calls ++ stop.calls)) := by
  induction h generalizing calls with
  | stop h => exact .stop (h.recorded calls)
  | wait nanos h ih => exact .wait nanos (ih calls)
  | @row s s₁ s₂ s' values p before rest passed stop hturns hmore h ih =>
      have hrest := ih (calls ++ p.calls)
      rw [List.append_assoc, ← List.append_assoc p.calls, ← List.flatMap_cons] at hrest
      exact .row (hturns.recorded calls) (recorded_accumulate hmore calls) hrest

/-- The accumulator is given the items of the rows that go through, and that of the row at which it
has enough. -/
theorem received_calls (passed : List (Passed α)) (stop : Stop α) :
    received (passed.flatMap Passed.calls ++ stop.calls) =
      passed.map (·.item) ++ stop.item?.toList := by
  induction passed with
  | nil => cases stop <;> rfl
  | cons p passed ih => exact congrArg (p.item :: ·) ih

/-- Whether a call is one of the mapper. -/
def Call.isMapping : Call α → Bool
  | declare | map _ => true
  | take _ => false

/-- The mapper runs once on every row whose columns were scanned. -/
theorem Reading.Runs.countP_calls (h : r.Runs s before rest passed stop s') :
    (passed.flatMap Passed.calls ++ stop.calls).countP Call.isMapping =
      (Cursor.rows (before ++ rest.take 1)).countP fun values => (r.shape.scan values).isOk := by
  induction h with
  | @stop s s' rest stop h =>
      cases h with
      | exhausted => rfl
      | exit => rfl
      | failed => rfl
      | unscanned hscan =>
          change 0 = List.countP _ [_]
          rw [List.countP_singleton, hscan]
          rfl
      | unmapped hscan =>
          change 1 = List.countP _ [_]
          rw [List.countP_singleton, hscan]
          rfl
      | enough hturns =>
          change 1 = List.countP _ [_]
          rw [List.countP_singleton, hturns.1]
          rfl
  | wait nanos h ih => exact ih
  | @row s s₁ s₂ s' values p before rest passed stop hturns hmore h ih =>
      have hok : (r.shape.scan values).isOk = true := by
        rw [hturns.1]
        rfl
      change List.countP _ (.map p.slots :: .take p.item ::
        (passed.flatMap Passed.calls ++ stop.calls)) = List.countP _ (values :: Cursor.rows _)
      rw [List.countP_cons_of_pos rfl, List.countP_cons_of_neg (by simp [Call.isMapping]), ih,
        List.countP_cons, if_pos hok]
      rfl

/-- A shape without columns takes every row. -/
theorem countP_scan_of_isEmpty {shape : Shape} (h : shape.isEmpty) (rows : List (List Value)) :
    rows.countP (fun values => (shape.scan values).isOk) = rows.length := by
  refine List.countP_eq_length.mpr fun values _ => ?_
  rw [Shape.scan, if_pos h]
  rfl

end Calls

/-- The item of the first row, if there is one. -/
def firstItem (shape : Shape) (m : Mapper σ α) (s : σ) : Cursor → Except Halt (Option α)
  | [] => .ok none
  | .wait _ :: rest => firstItem shape m s rest
  | .fail .exit :: _ => .ok none
  | .fail cause :: _ => .error (.failed cause)
  | .row values :: _ =>
      match (shape.item m values s).1 with
      | .ok a => .ok (some a)
      | .error cause => .error (.failed (.scan (.row cause)))

theorem rows_firstItem (settings : Settings) {ctx : Context} (htimeout : ctx.timeout = none)
    (shape : Shape) (m : Mapper σ α) (now count : Nat) (s : σ) (cursor : Cursor) :
    let r : Reading (σ × Option α) α :=
      ⟨settings, ctx, shape, besides m, fun a (s, _) => .done (s, some a)⟩
    let o := r.rows now count (s, none) cursor
    (o.result.map fun _ => o.state.2) = firstItem shape m s cursor := by
  intro r
  induction cursor generalizing now with
  | nil => rfl
  | cons event rest ih =>
      cases event with
      | wait nanos =>
          rw [Reading.rows_of_wait now count rest (Context.inTime_of_none htimeout _)]
          exact ih (now + nanos)
      | fail cause => cases cause <;> rfl
      | row values =>
          simp only [r, Reading.rows, item_besides, firstItem]
          cases (shape.item m values s).1 <;> rfl

/-- The run that a mapper, an accumulator and a cursor lead to: there is one, and whichever it is,
it tells the outcome of the fetch. The calls are on record in their order: the declaring one, two
for each row that goes through, and those for the event that stops the reading. Another cursor that
starts with the same events, up to that one, makes no difference. All items are those of a run whose
accumulator never has enough, if it ends well. -/
theorem fetch_is_prefix_fold {q : Statement Query} {db : Option Database} {ctx : Context}
    {database : Database} {m : Mapper σ α} {s : σ} {delay : Nat} {cursor : Cursor}
    (accumulate : α → σ → ForInStep σ) (hdb : q.settings.resolve db = some database)
    (htimeout : ctx.timeout = none)
    (hquery : database.query (projected q.body (Shape.declare m s).1).compile =
      ⟨delay, .ok cursor⟩) :
    let shape := (Shape.declare m s).1
    let start := (Shape.declare m s).2
    let r : Reading σ α := ⟨q.settings, ctx, shape, m, accumulate⟩
    let o := fetchEach q db ctx m accumulate s
    let calls := (observe q db ctx m accumulate s).state.2
    let all := observe q db ctx m (fun _ s => .yield s) s
    (∃ before rest passed stop s', cursor = before ++ rest ∧
      r.Runs start before rest passed stop s') ∧
    (∀ before rest passed stop s', cursor = before ++ rest →
      r.Runs start before rest passed stop s' →
      let read := Cursor.rows (before ++ rest.take 1)
      o.result = stop.result read.length ∧ o.state = s' ∧
      calls = .declare :: (passed.flatMap Passed.calls ++ stop.calls) ∧
      received calls = passed.map (·.item) ++ stop.item?.toList ∧
      calls.countP Call.isMapping =
        1 + read.countP (fun values => (shape.scan values).isOk) ∧
      (shape.isEmpty → calls.countP Call.isMapping = 1 + read.length) ∧
      ∀ (database' : Database) (delay' : Nat) (rest' : Cursor),
        database'.query (projected q.body shape).compile = ⟨delay', .ok (before ++ rest')⟩ →
        rest'.head? = rest.head? → fetchEach q (some database') ctx m accumulate s = o) ∧
    (fetchAll q db ctx m s).result = all.result.map (fun _ => received all.state.2) ∧
    (fetchOne q db ctx m s).result = firstItem shape m start cursor := by
  intro shape start r o calls all
  have htimed : ctx.timed = true := Context.timed_of_none htimeout
  have hinTime (delay : Nat) : ctx.inTime delay = true := Context.inTime_of_none htimeout delay
  refine ⟨r.exists_runs start cursor, ?_, ?_, ?_⟩
  · rintro before rest passed stop s' rfl hruns read
    obtain ⟨outcome, hresult, hstate, hrows⟩ := hruns.rows htimeout 0
    obtain ⟨observed, -, hcalls, hobserved⟩ := (hruns.recorded [.declare]).rows htimeout 0
    have hfetch : o = outcome.prepend (announced q ctx shape) := by
      rw [← hrows delay rest rfl]
      exact fetchEach_eq accumulate hdb rfl htimed hquery (hinTime delay)
    have hobserve : observe q db ctx m accumulate s = observed.prepend (announced q ctx shape) := by
      rw [← hobserved delay rest rfl]
      exact fetchEach_eq (recordedTake accumulate) hdb (declare_recorded m s) htimed hquery
        (hinTime delay)
    have hrecord : calls = .declare :: (passed.flatMap Passed.calls ++ stop.calls) := by
      change (observe q db ctx m accumulate s).state.2 = _
      rw [hobserve, Outcome.prepend, hcalls]
      rfl
    have hcount : calls.countP Call.isMapping =
        1 + read.countP (fun values => (shape.scan values).isOk) := by
      rw [hrecord, List.countP_cons_of_pos rfl, hruns.countP_calls, Nat.add_comm]
    refine ⟨?_, ?_, hrecord, ?_, hcount, fun hempty => ?_,
      fun database' delay' rest' hquery' hhead => ?_⟩
    · rw [hfetch, Outcome.prepend, hresult, Nat.zero_add]
    · rw [hfetch, Outcome.prepend, hstate]
    · rw [hrecord]
      exact received_calls passed stop
    · rw [hcount, countP_scan_of_isEmpty hempty]
    · rw [hfetch, ← hrows delay' rest' hhead]
      exact fetchEach_eq accumulate rfl rfl htimed hquery' (hinTime delay')
  · exact congrArg (·.result) (fetchAll_eq_observe q db ctx m s)
  · have heach := fetchEach_eq (fun a (s, _) => .done (s, some a)) hdb
      (declare_besides m s (none : Option α)) htimed hquery (hinTime delay)
    rw [fetchOne, heach]
    exact rows_firstItem q.settings htimeout shape m delay 0 start cursor

/-- The number in the only column. -/
def readNumber (_ : Unit) : Reader (Int64 × Unit) := do
  return (← Row.column Int64 (.bare "n"), ())

/-- Enough from seven on. -/
def untilSeven (n : Int64) (_ : Unit) : ForInStep Unit := if 7 ≤ n then .done () else .yield ()

/-- Two numbers, the second one after a while, and no more. -/
def numbers : Cursor := [.row [.int 5], .wait 2, .row [.text "7"], .fail .missingDatabase]

def numbersDatabase : Database := ⟨fun _ => ⟨1, .ok numbers⟩, fun _ => ⟨0, .error .missingDatabase⟩⟩

def numbersQuery : Statement Query :=
  { body := .select
      { dialect := .mysql, asName := "", fields := [],
        source := some (.base ⟨"", "numbers", ""⟩) } }

theorem numbers_runs : Reading.Runs
    ⟨numbersQuery.settings, {}, (Shape.declare readNumber ()).1, readNumber, untilSeven⟩ ()
    [.row [.int 5], .wait 2] [.row [.text "7"], .fail .missingDatabase] [⟨[.int 5], 5⟩]
    (.enough [.int 7] 7) () :=
  .row ⟨rfl, rfl⟩ rfl (.wait 2 (.stop (.enough (p := ⟨[.int 7], 7⟩) ⟨rfl, rfl⟩ rfl _)))

/-- The failure behind the second number is never seen. -/
theorem numbers_stop_at_seven :
    let o := observe numbersQuery (some numbersDatabase) {} readNumber untilSeven ()
    (fetchEach numbersQuery (some numbersDatabase) {} readNumber untilSeven ()).result = .ok 2 ∧
      received o.state.2 = [5, 7] ∧ o.state.2.countP Call.isMapping = 3 ∧
      (fetchOne numbersQuery (some numbersDatabase) {} readNumber ()).result = .ok (some 5) := by
  have hdb : numbersQuery.settings.resolve (some numbersDatabase) = some numbersDatabase := rfl
  have htimeout : ({} : Context).timeout = none := rfl
  have hquery :
      numbersDatabase.query (projected numbersQuery.body (Shape.declare readNumber ()).1).compile =
        ⟨1, .ok numbers⟩ := rfl
  obtain ⟨-, hfold, -, hone⟩ := fetch_is_prefix_fold untilSeven hdb htimeout hquery
  obtain ⟨hresult, -, -, hreceived, hcount, -⟩ := hfold _ _ _ _ _ rfl numbers_runs
  exact ⟨hresult, hreceived, hcount, hone⟩

end BoundSql.Run
