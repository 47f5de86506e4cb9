import BoundSql.Proofs.PrefixFold

/-!
# The transcript of a run

What a run does is fixed by what it reads and how it ends: the messages in front of the call, the
call, one message for each of the first rows, and then the end. The logger of the statement hears
these messages in their order, and nobody else hears anything. Without a database nothing happens.
With a deadline that the clock cannot tell, a fetch ends behind its first messages.
-/
namespace BoundSql.Run

open Log (ExecFlags)
open Row (Mapper Shape)
open Sql (Query)

variable {σ α β : Type}

/-- The lines that the logger was handed. -/
def heard (es : List Effect) : List String :=
  es.filterMap fun
    | .logged line => some line
    | _ => none

@[simp] theorem heard_nil : heard [] = [] := rfl

@[simp] theorem heard_append (es es' : List Effect) : heard (es ++ es') = heard es ++ heard es' :=
  List.filterMap_append

@[simp] theorem heard_called (c : Sql.Compiled) (es : List Effect) :
    heard (.called c :: es) = heard es := rfl

@[simp] theorem heard_traced (e : Log.Event) (es : List Effect) :
    heard (.traced e :: es) = heard es := rfl

@[simp] theorem heard_expired (es : List Effect) : heard (.expired :: es) = heard es := rfl

namespace Settings

/-- Hand messages to the logger, one after the other. -/
def logAll (s : Settings) (tag : Option String) (messages : List String) : List Effect :=
  messages.flatMap (s.log tag)

/-- The lines for these messages, if there is a logger. -/
def lines (s : Settings) (tag : Option String) (messages : List String) : List String :=
  match s.logging with
  | none => []
  | some _ => messages.map (tagged tag)

variable (s : Settings) (tag : Option String)

@[simp] theorem logAll_nil : s.logAll tag [] = [] := rfl

theorem logAll_singleton (message : String) : s.logAll tag [message] = s.log tag message :=
  List.flatMap_singleton ..

theorem logAll_append (ms ms' : List String) :
    s.logAll tag (ms ++ ms') = s.logAll tag ms ++ s.logAll tag ms' :=
  List.flatMap_append

theorem lines_append (ms ms' : List String) :
    s.lines tag (ms ++ ms') = s.lines tag ms ++ s.lines tag ms' := by
  unfold lines
  cases s.logging with
  | none => rfl
  | some l => exact List.map_append

/-- A refused line was handed to the logger all the same. -/
theorem heard_log (message : String) : heard (s.log tag message) = s.lines tag [message] := by
  unfold lines
  obtain ⟨hlogging, h⟩ | ⟨hlogging, h⟩ := s.log_cases tag message
  · rw [h, hlogging]
    rfl
  · obtain ⟨l, hl⟩ := Option.isSome_iff_exists.mp hlogging
    obtain h | ⟨error, h⟩ := h <;> (rw [h, hl]; rfl)

@[simp] theorem heard_logAll (messages : List String) :
    heard (s.logAll tag messages) = s.lines tag messages := by
  induction messages with
  | nil =>
      unfold lines
      cases s.logging <;> rfl
  | cons message rest ih =>
      have hcons : s.logAll tag (message :: rest) = s.log tag message ++ s.logAll tag rest := rfl
      rw [hcons, heard_append, heard_log, ih, ← lines_append]
      rfl

@[simp] theorem sent_logAll (messages : List String) : sent (s.logAll tag messages) = [] := by
  induction messages with
  | nil => rfl
  | cons message rest ih =>
      have hcons : s.logAll tag (message :: rest) = s.log tag message ++ s.logAll tag rest := rfl
      rw [hcons, sent_append, sent_log, ih]
      rfl

end Settings

namespace Reading

variable (r : Reading σ α)

/-- From `now` on, in the state `s`, the reading takes these rows of a cursor; then it stops at an
event, or time runs out (`late`). A row at which it stops is among them. -/
inductive Takes : Nat → σ → Cursor → (read : List (List Value)) → (late : Bool) → Prop
  | stop {now : Nat} {s s' : σ} {rest : Cursor} {stop : Stop α} (h : r.Stops s rest stop s') :
      Takes now s rest (Cursor.rows (rest.take 1)) false
  | late {now nanos : Nat} (h : r.context.inTime (now + nanos) = false) (s : σ) (rest : Cursor) :
      Takes now s (.wait nanos :: rest) [] true
  | wait {now nanos : Nat} {s : σ} {rest : Cursor} {read : List (List Value)} {late : Bool}
      (htime : r.context.inTime (now + nanos) = true) (h : Takes (now + nanos) s rest read late) :
      Takes now s (.wait nanos :: rest) read late
  | row {now : Nat} {s s₁ s₂ : σ} {values : List Value} {p : Passed α} {rest : Cursor}
      {read : List (List Value)} {late : Bool} (hturns : r.Turns values s p s₁)
      (hmore : r.accumulate p.item s₁ = .yield s₂) (h : Takes now s₂ rest read late) :
      Takes now s (.row values :: rest) (values :: read) late

/-- The rows that come with an answer, if it is there in time. -/
inductive Receives (s : σ) : Answer Cursor → (read : List (List Value)) → (late : Bool) → Prop
  | late {answer : Answer Cursor} (h : r.context.inTime answer.delay = false) :
      Receives s answer [] true
  | refused {delay : Nat} (htime : r.context.inTime delay = true) (cause : Failure) :
      Receives s ⟨delay, .error cause⟩ [] false
  | read {delay : Nat} {cursor : Cursor} {read : List (List Value)} {late : Bool}
      (htime : r.context.inTime delay = true) (h : r.Takes delay s cursor read late) :
      Receives s ⟨delay, .ok cursor⟩ read late

variable {r} {s s' : σ} {before rest : Cursor} {passed : List (Passed α)} {stop : Stop α}

/-- Of the rows in front of the event that stops a run, those are taken that are there in time. -/
theorem Runs.exists_takes (h : r.Runs s before rest passed stop s') (now : Nat) :
    ∃ read late, r.Takes now s (before ++ rest) read late := by
  induction h generalizing now with
  | stop h => exact ⟨_, _, .stop h⟩
  | @wait s s' before rest passed stop nanos h ih =>
      cases htime : r.context.inTime (now + nanos) with
      | false => exact ⟨_, _, .late htime s _⟩
      | true =>
          obtain ⟨read, late, htakes⟩ := ih (now + nanos)
          exact ⟨read, late, .wait htime htakes⟩
  | row hturns hmore h ih =>
      obtain ⟨read, late, htakes⟩ := ih now
      exact ⟨_, late, .row hturns hmore htakes⟩

theorem exists_receives (r : Reading σ α) (s : σ) (answer : Answer Cursor) :
    ∃ read late, r.Receives s answer read late := by
  obtain ⟨delay, outcome⟩ := answer
  cases htime : r.context.inTime delay with
  | false => exact ⟨[], true, .late htime⟩
  | true =>
      cases outcome with
      | error cause => exact ⟨[], false, .refused htime cause⟩
      | ok cursor =>
          obtain ⟨before, rest, passed, stop, s', rfl, hruns⟩ := r.exists_runs s cursor
          obtain ⟨read, late, htakes⟩ := hruns.exists_takes delay
          exact ⟨read, late, .read htime htakes⟩

end Reading

/-- The messages of rows behind `before` others. Only the first five rows have one. -/
def rowMessages (labels : List String) (before : Nat) (read : List (List Value)) : List String :=
  (read.take (5 - before)).mapIdx fun i values => Log.rowMessage (before + i + 1) labels values

theorem rowMessages_cons (labels : List String) (before : Nat) (values : List Value)
    (read : List (List Value)) :
    rowMessages labels before (values :: read) =
      (if before + 1 ≤ 5 then [Log.rowMessage (before + 1) labels values] else []) ++
        rowMessages labels (before + 1) read := by
  unfold rowMessages
  split
  case isTrue h =>
    have htake : 5 - before = 5 - (before + 1) + 1 := by omega
    have hnumber (i : Nat) : before + (i + 1) + 1 = before + 1 + i + 1 := by omega
    simp only [htake, List.take_succ_cons, List.mapIdx_cons, hnumber, Nat.add_zero,
      List.singleton_append]
  case isFalse h =>
    have hnone : 5 - before = 0 := by omega
    have hnone' : 5 - (before + 1) = 0 := by omega
    simp only [hnone, hnone', List.take_zero, List.mapIdx_nil, List.append_nil]

/-- The messages of a fetch for the rows that it reads. -/
def Settings.shown (s : Settings) (labels : List String) (before : Nat)
    (read : List (List Value)) : List String :=
  if s.flags.results then rowMessages labels before read else []

/-- The messages at the end of a fetch. -/
def Settings.closing (s : Settings) (read : Nat) (ok : Bool) : List String :=
  if s.flags.stats && ok then [Log.statsMessage "Fetched" read] else []

/-- The end of a fetch: time runs out, or the count is reported, or there is a failure. -/
def Settings.ending (s : Settings) (tag : Option String) (read : Nat) (late ok : Bool) :
    List Effect :=
  if late then [.expired]
  else if ok then .traced (.fetched read) :: s.logAll tag (s.closing read ok)
  else []

namespace Reading

variable {r : Reading σ α} {s s' : σ}

theorem logRow_eq (index : Nat) (values : List Value) :
    r.logRow index values = r.settings.logAll r.context.tag
      (if r.settings.flags.results then
        (if index ≤ 5 then [Log.rowMessage index r.shape.labels values] else []) else []) := by
  unfold logRow
  cases r.settings.flags.results with
  | false => rfl
  | true =>
      by_cases hindex : index ≤ 5
      · have hshown : index ≤ Log.shownRows := hindex
        simp [hindex, hshown, Settings.logAll_singleton]
      · have hshown : ¬ index ≤ Log.shownRows := hindex
        simp [hindex, hshown]

theorem logAll_shown_cons (count : Nat) (values : List Value) (read : List (List Value)) :
    r.settings.logAll r.context.tag (r.settings.shown r.shape.labels count (values :: read)) =
      r.logRow (count + 1) values ++
        r.settings.logAll r.context.tag (r.settings.shown r.shape.labels (count + 1) read) := by
  rw [logRow_eq, ← Settings.logAll_append]
  unfold Settings.shown
  split
  · rw [rowMessages_cons]
  · rfl

theorem finish_effects (count : Nat) (s : σ) :
    (r.finish count s).effects = r.settings.ending r.context.tag count false true := by
  unfold finish Settings.ending Settings.closing
  cases r.settings.flags.stats with
  | false => rfl
  | true => exact congrArg (_ :: ·) (Settings.logAll_singleton ..).symm

@[simp] theorem shown_nil (settings : Settings) (labels : List String) (before : Nat) :
    settings.shown labels before [] = [] := by
  unfold Settings.shown rowMessages
  split
  · rw [List.take_nil]
    rfl
  · rfl

/-- Reading rows has the effects of showing them, and of the way it ends. -/
structure Recounts (r : Reading σ α) (count : Nat) (read : List (List Value)) (late : Bool)
    (o : Outcome σ Nat) : Prop where
  effects : o.effects =
    r.settings.logAll r.context.tag (r.settings.shown r.shape.labels count read) ++
      r.settings.ending r.context.tag (count + read.length) late o.result.isOk
  expired : late = true → o.result = .error (.failed r.context.expired)

namespace Recounts

variable {count : Nat} {read : List (List Value)} {late : Bool} {o : Outcome σ Nat}

theorem finish (count : Nat) (s : σ) : r.Recounts count [] false (r.finish count s) where
  effects := by
    rw [finish_effects, shown_nil]
    rfl
  expired := nofun

theorem failed (count : Nat) (cause : Failure) (s : σ) :
    r.Recounts count [] false ⟨.error (.failed cause), s, []⟩ where
  effects := by
    rw [shown_nil]
    rfl
  expired := nofun

theorem cut (count : Nat) (s : σ) :
    r.Recounts count [] true ⟨.error (.failed r.context.expired), s, [.expired]⟩ where
  effects := by
    rw [shown_nil]
    rfl
  expired _ := rfl

/-- A row is shown in front of what comes behind it. -/
theorem row (h : r.Recounts (count + 1) read late o) (values : List Value) :
    r.Recounts count (values :: read) late (o.prepend (r.logRow (count + 1) values)) where
  effects := by
    have hlength : count + (values :: read).length = count + 1 + read.length := by
      rw [List.length_cons]
      omega
    rw [logAll_shown_cons, hlength, List.append_assoc]
    exact congrArg (r.logRow (count + 1) values ++ ·) h.effects
  expired := h.expired

/-- A row that leads to a failure is shown all the same. -/
theorem failedRow (count : Nat) (cause : Failure) (s : σ) (values : List Value) :
    r.Recounts count [values] false
      ⟨.error (.failed cause), s, r.logRow (count + 1) values⟩ := by
  have h := (failed (r := r) (count + 1) cause s).row values
  rwa [Outcome.prepend, List.append_nil] at h

end Recounts

theorem Stops.recounts {rest : Cursor} {stop : Stop α} (h : r.Stops s rest stop s')
    (now count : Nat) :
    r.Recounts count (Cursor.rows (rest.take 1)) false (r.rows now count s rest) := by
  cases h with
  | exhausted => exact .finish count s
  | exit => exact .finish count s
  | @failed cause hcause =>
      cases cause
      case exit => exact absurd rfl hcause
      all_goals exact .failed count _ s
  | @unscanned values cause hscan _ events =>
      rw [rows_of_error now count events (item_of_unscanned hscan s)]
      exact .failedRow count (.scan (.row cause)) s values
  | @unmapped values slots cause s s' hscan hmap events =>
      rw [rows_of_error now count events (item_of_unmapped hscan hmap)]
      exact .failedRow count (.scan (.row cause)) s' values
  | @enough values p s s₁ s' hturns henough events =>
      rw [rows_of_done now count events hturns henough]
      exact (Recounts.finish (count + 1) s').row values

/-- Row by row, a reading shows the rows that it takes; then comes its end. -/
theorem Takes.recounts {now : Nat} {cursor : Cursor} {read : List (List Value)} {late : Bool}
    (h : r.Takes now s cursor read late) (count : Nat) :
    r.Recounts count read late (r.rows now count s cursor) := by
  induction h generalizing count with
  | stop h => exact h.recounts _ count
  | late h s rest =>
      rw [rows_of_late _ count rest h]
      exact .cut count s
  | wait htime h ih =>
      rw [rows_of_wait _ count _ htime]
      exact ih count
  | @row now s s₁ s₂ values p rest read late hturns hmore h ih =>
      rw [rows_of_yield now count rest hturns hmore]
      exact (ih (count + 1)).row values

theorem Receives.recounts {answer : Answer Cursor} {read : List (List Value)} {late : Bool}
    (h : r.Receives s answer read late) : r.Recounts 0 read late (r.answered s answer) := by
  cases h with
  | late h =>
      rw [answered_of_late h]
      exact .cut 0 s
  | refused htime cause =>
      rw [answered_of_error htime]
      exact .failed 0 cause s
  | read htime h =>
      rw [answered_of_ok htime]
      exact h.recounts 0

end Reading

namespace Settings

variable (s : Settings) (tag : Option String)

@[simp] theorem sent_ending (read : Nat) (late ok : Bool) :
    sent (s.ending tag read late ok) = [] := by
  unfold ending
  cases late with
  | true => rfl
  | false => cases ok <;> simp

/-- Only at the end of a fetch that succeeds is there a message. -/
theorem heard_ending {late ok : Bool} (h : late = true → ok = false) (read : Nat) :
    heard (s.ending tag read late ok) = s.lines tag (s.closing read ok) := by
  have hnothing : s.lines tag (s.closing read false) = [] := by
    unfold lines closing
    rw [Bool.and_false]
    cases s.logging <;> rfl
  cases late with
  | true =>
      rw [h rfl, hnothing]
      rfl
  | false =>
      cases ok with
      | false => exact hnothing.symm
      | true => exact s.heard_logAll tag _

theorem resolve_eq (db : Option Database) : s.resolve db = db.or s.database := by
  cases db <;> rfl

end Settings

/-- The messages of a fetch in front of its call. -/
def Statement.opening (q : Statement Query) (shape : Shape) : List String :=
  (if q.settings.flags.parse then [Log.declaredMessage shape.labels] else []) ++
    [Log.queryMessage q.settings.flags (projected q.body shape).dialect
      (projected q.body shape).compile]

theorem prepared_eq (q : Statement Query) (ctx : Context) (shape : Shape) :
    prepared q ctx shape = q.settings.logAll ctx.tag (q.opening shape) := by
  unfold prepared Statement.opening Settings.logDeclared Settings.logQuery
  rw [Settings.logAll_append, Settings.logAll_singleton]
  split
  · rw [Settings.logAll_singleton]
  · rfl

/-- The transcript of a fetch that reads these rows and may run out of time (`late`). -/
structure FetchTranscript (q : Statement Query) (ctx : Context) (shape : Shape)
    (read : List (List Value)) (late : Bool) (o : Outcome σ β) : Prop where
  effects : o.effects =
    q.settings.logAll ctx.tag (q.opening shape) ++ .called (projected q.body shape).compile ::
      (q.settings.logAll ctx.tag (q.settings.shown shape.labels 0 read) ++
        q.settings.ending ctx.tag read.length late o.result.isOk)
  lines : heard o.effects = q.settings.lines ctx.tag
    (q.opening shape ++ q.settings.shown shape.labels 0 read ++
      q.settings.closing read.length o.result.isOk)
  statements : sent o.effects = [(projected q.body shape).compile]
  expired : late = true → o.result = .error (.failed ctx.expired)

namespace FetchTranscript

variable {q : Statement Query} {ctx : Context} {shape : Shape} {read : List (List Value)}
  {late : Bool}

theorem of_effects {o : Outcome σ β} (heffects : o.effects =
      q.settings.logAll ctx.tag (q.opening shape) ++ .called (projected q.body shape).compile ::
        (q.settings.logAll ctx.tag (q.settings.shown shape.labels 0 read) ++
          q.settings.ending ctx.tag read.length late o.result.isOk))
    (hexpired : late = true → o.result = .error (.failed ctx.expired)) :
    FetchTranscript q ctx shape read late o where
  effects := heffects
  lines := by
    have hfailed : late = true → o.result.isOk = false := fun h => by
      rw [hexpired h]
      rfl
    rw [heffects, heard_append, heard_called, heard_append, Settings.heard_logAll,
      Settings.heard_logAll, Settings.heard_ending _ _ hfailed, Settings.lines_append,
      Settings.lines_append, List.append_assoc]
  statements := by
    rw [heffects]
    simp
  expired := hexpired

/-- The transcript does not depend on what is made of the items. -/
theorem map {γ τ : Type} {o : Outcome σ β} (h : FetchTranscript q ctx shape read late o)
    (f : β → σ → γ) (g : σ → τ) :
    FetchTranscript q ctx shape read late
      (o.map (fun result s => result.map fun b => f b s) g) := by
  have hok : (o.result.map fun b => f b o.state).isOk = o.result.isOk := by
    cases o.result <;> rfl
  refine of_effects ?_ fun hlate => ?_
  · change o.effects = _ ++ _ :: (_ ++ q.settings.ending ctx.tag read.length late
      (o.result.map fun b => f b o.state).isOk)
    rw [hok]
    exact h.effects
  · change (o.result.map fun b => f b o.state) = _
    rw [h.expired hlate]
    rfl

theorem of_mapState {τ : Type} {f : σ → τ} {o : Outcome σ β}
    (h : FetchTranscript q ctx shape read late (o.mapState f)) :
    FetchTranscript q ctx shape read late o :=
  ⟨h.effects, h.lines, h.statements, h.expired⟩

end FetchTranscript

section Fetch

variable {q : Statement Query} {db : Option Database} {database : Database} {ctx : Context}
  {m : Mapper σ α} {accumulate : α → σ → ForInStep σ} {s : σ} {read : List (List Value)}
  {late : Bool}

theorem Reading.Recounts.transcript {shape : Shape} {o : Outcome σ Nat}
    (h : Reading.Recounts ⟨q.settings, ctx, shape, m, accumulate⟩ 0 read late o) :
    FetchTranscript q ctx shape read late (o.prepend (announced q ctx shape)) := by
  refine .of_effects ?_ h.expired
  have heffects := h.effects
  rw [Nat.zero_add] at heffects
  calc announced q ctx shape ++ o.effects
      = q.settings.logAll ctx.tag (q.opening shape) ++
          .called (projected q.body shape).compile :: o.effects := by
        rw [announced, prepared_eq, List.append_assoc, List.singleton_append]
    _ = _ := by rw [heffects]; rfl

theorem fetchEach_transcript (hdb : q.settings.resolve db = some database)
    (htimed : ctx.timed = true)
    (h : Reading.Receives ⟨q.settings, ctx, (Shape.declare m s).1, m, accumulate⟩
      (Shape.declare m s).2
      (database.query (projected q.body (Shape.declare m s).1).compile) read late) :
    FetchTranscript q ctx (Shape.declare m s).1 read late (fetchEach q db ctx m accumulate s) := by
  rw [fetchEach_of_some hdb htimed]
  exact h.recounts.transcript

theorem observe_transcript (hdb : q.settings.resolve db = some database)
    (htimed : ctx.timed = true)
    (h : Reading.Receives ⟨q.settings, ctx, (Shape.declare m s).1, m, accumulate⟩
      (Shape.declare m s).2
      (database.query (projected q.body (Shape.declare m s).1).compile) read late) :
    FetchTranscript q ctx (Shape.declare m s).1 read late (observe q db ctx m accumulate s) := by
  have heach := fetchEach_transcript hdb htimed h
  rw [fetchEach_eq_observe] at heach
  exact heach.of_mapState

end Fetch

/-- A count that was asked for; any other is zero. -/
def asked (flag : Bool) (count : Except Failure Int64) : Except Failure Int64 :=
  if flag then count else .ok 0

/-- The counts that an execution returns, or the first failure: of the call, of the number of rows,
of the identifier. -/
inductive Counted (flags : ExecFlags) : Except Failure Counts → Except Halt ExecCounts → Prop
  | refused (cause : Failure) : Counted flags (.error cause) (.error (.failed cause))
  | noRows {counts : Counts} {cause : Failure}
      (hrows : asked flags.rowsAffected counts.rowsAffected = .error cause) :
      Counted flags (.ok counts) (.error (.failed cause))
  | noId {counts : Counts} {rows : Int64} {cause : Failure}
      (hrows : asked flags.rowsAffected counts.rowsAffected = .ok rows)
      (hid : asked flags.lastInsertId counts.lastInsertId = .error cause) :
      Counted flags (.ok counts) (.error (.failed cause))
  | counted {counts : Counts} {rows id : Int64}
      (hrows : asked flags.rowsAffected counts.rowsAffected = .ok rows)
      (hid : asked flags.lastInsertId counts.lastInsertId = .ok id) :
      Counted flags (.ok counts) (.ok ⟨rows, id⟩)

theorem Counts.requested_eq (counts : Counts) (flags : ExecFlags) :
    counts.requested flags = (asked flags.rowsAffected counts.rowsAffected).bind fun rows =>
      (asked flags.lastInsertId counts.lastInsertId).map fun id => ⟨rows, id⟩ := by
  unfold Counts.requested asked
  cases flags.rowsAffected <;> cases flags.lastInsertId <;> rfl

theorem counted_requested (flags : ExecFlags) (outcome : Except Failure Counts) :
    Counted flags outcome ((outcome.bind (·.requested flags)).mapError .failed) := by
  cases outcome with
  | error cause => exact .refused cause
  | ok counts =>
      change Counted flags (.ok counts) ((counts.requested flags).mapError .failed)
      rw [counts.requested_eq]
      cases hrows : asked flags.rowsAffected counts.rowsAffected with
      | error cause => exact .noRows hrows
      | ok rows =>
          cases hid : asked flags.lastInsertId counts.lastInsertId with
          | error cause => exact .noId hrows hid
          | ok id => exact .counted hrows hid

/-- The messages at the end of an execution. -/
def Statement.closing (q : Statement Change) (flags : ExecFlags) :
    Except Halt ExecCounts → List String
  | .ok counts =>
      if q.settings.flags.stats && flags.rowsAffected then
        [Log.statsMessage q.body.verb counts.rowsAffected.toInt]
      else []
  | .error _ => []

/-- The end of an execution: time runs out, or the counts are reported, or there is a failure. -/
def Statement.ending (q : Statement Change) (ctx : Context) (flags : ExecFlags) (late : Bool)
    (result : Except Halt ExecCounts) : List Effect :=
  if late then [.expired]
  else
    match result with
    | .ok counts =>
        .traced (.executed q.body.verb counts.rowsAffected.toInt)
          :: q.settings.logAll ctx.tag (q.closing flags result)
    | .error _ => []

/-- The message of an execution in front of its call. -/
def Statement.execOpening (q : Statement Change) : List String :=
  [Log.queryMessage q.settings.flags q.body.toQuery.dialect q.body.toQuery.compile]

/-- The transcript of an execution with this answer. -/
structure ExecTranscript (q : Statement Change) (ctx : Context) (flags : ExecFlags)
    (answer : Answer Counts) (o : Outcome Unit ExecCounts) : Prop where
  effects : o.effects = q.settings.logAll ctx.tag q.execOpening ++
    .called q.body.toQuery.compile :: q.ending ctx flags (!ctx.inTime answer.delay) o.result
  lines : heard o.effects =
    q.settings.lines ctx.tag (q.execOpening ++ q.closing flags o.result)
  statements : sent o.effects = [q.body.toQuery.compile]
  expired : ctx.inTime answer.delay = false → o.result = .error (.failed ctx.expired)
  counted : ctx.inTime answer.delay = true → Counted flags answer.outcome o.result

section Exec

variable (q : Statement Change) (ctx : Context) (flags : ExecFlags)

theorem handed_eq : q.handed ctx =
    q.settings.logAll ctx.tag q.execOpening ++ [.called q.body.toQuery.compile] := by
  unfold Statement.handed Statement.execOpening
  rw [Settings.logAll_singleton]
  rfl

theorem sent_execEnding (late : Bool) (result : Except Halt ExecCounts) :
    sent (q.ending ctx flags late result) = [] := by
  unfold Statement.ending
  cases late with
  | true => rfl
  | false => cases result <;> simp

theorem heard_execEnding {late : Bool} {result : Except Halt ExecCounts}
    (h : late = true → result.isOk = false) :
    heard (q.ending ctx flags late result) = q.settings.lines ctx.tag (q.closing flags result) := by
  cases result with
  | error cause =>
      have hnothing : q.settings.lines ctx.tag [] = [] := by
        unfold Settings.lines
        cases q.settings.logging <;> rfl
      rw [Statement.closing, hnothing]
      cases late <;> rfl
  | ok counts =>
      cases late with
      | true => cases h rfl
      | false => exact q.settings.heard_logAll ctx.tag _

/-- What an execution makes of an answer is its end. -/
theorem accounted_effects (answer : Answer Counts) :
    (q.accounted ctx flags answer).effects =
      q.ending ctx flags (!ctx.inTime answer.delay) (q.accounted ctx flags answer).result := by
  cases htime : ctx.inTime answer.delay with
  | false =>
      rw [Statement.accounted_of_late htime]
      rfl
  | true =>
      unfold Statement.accounted
      rw [htime]
      cases answer.outcome.bind (·.requested flags) with
      | error cause => rfl
      | ok counts =>
          refine congrArg (_ :: ·) ?_
          dsimp only [Statement.closing]
          split
          · exact (Settings.logAll_singleton ..).symm
          · rfl

theorem accounted_result {answer : Answer Counts} (h : ctx.inTime answer.delay = true) :
    (q.accounted ctx flags answer).result =
      (answer.outcome.bind (·.requested flags)).mapError .failed := by
  unfold Statement.accounted
  rw [h]
  cases answer.outcome.bind (·.requested flags) <;> rfl

theorem exec_transcript {db : Option Database} {database : Database}
    (hdb : q.settings.resolve db = some database) :
    ExecTranscript q ctx flags (database.exec q.body.toQuery.compile) (exec q db ctx flags) := by
  rw [exec_of_some hdb]
  generalize database.exec q.body.toQuery.compile = answer
  have hexpired (h : ctx.inTime answer.delay = false) :
      (q.accounted ctx flags answer).result = .error (.failed ctx.expired) := by
    rw [Statement.accounted_of_late h]
  have heffects : ((q.accounted ctx flags answer).prepend (q.handed ctx)).effects =
      q.settings.logAll ctx.tag q.execOpening ++ .called q.body.toQuery.compile ::
        q.ending ctx flags (!ctx.inTime answer.delay) (q.accounted ctx flags answer).result := by
    rw [Outcome.prepend, handed_eq, accounted_effects, List.append_assoc, List.singleton_append]
  refine ⟨heffects, ?_, ?_, hexpired, fun htime => ?_⟩
  · have hfailed (hlate : (!ctx.inTime answer.delay) = true) :
        (q.accounted ctx flags answer).result.isOk = false := by
      rw [hexpired (by simpa using hlate)]
      rfl
    rw [heffects, heard_append, heard_called, Settings.heard_logAll,
      heard_execEnding q ctx flags hfailed, Settings.lines_append]
    rfl
  · rw [heffects, sent_append, sent_called, Settings.sent_logAll, sent_execEnding]
    rfl
  · exact accounted_result q ctx flags htime ▸ counted_requested flags answer.outcome

end Exec

/-- The query of numbers, with a logger that is told everything and refuses it. -/
def loggedNumbers : Statement Query :=
  { numbersQuery with
    settings :=
      { logging :=
          some ⟨⟨fun _ => some "full"⟩, { stats := true, results := true, parse := true }⟩ } }

/-- With a deadline that the clock cannot tell, a fetch logs what it is about to send, and ends. -/
theorem overflow_ends_in_front_of_the_call {q : Statement Query} {db : Option Database}
    {database : Database} {ctx : Context} (hdb : q.settings.resolve db = some database)
    (htimed : ctx.timed = false) (m : Mapper σ α) (accumulate : α → σ → ForInStep σ) (s : σ) :
    let shape := (Shape.declare m s).1
    let o := fetchEach q db ctx m accumulate s
    o.result = .error .overflow ∧ o.state = (Shape.declare m s).2 ∧
      heard o.effects = q.settings.lines ctx.tag (q.opening shape) ∧ sent o.effects = [] ∧
      expirations o.effects = 0 := by
  intro shape o
  have ho : o = ⟨.error .overflow, (Shape.declare m s).2, prepared q ctx shape⟩ :=
    fetchEach_of_overflow hdb htimed m accumulate s
  rw [ho]
  refine ⟨rfl, rfl, ?_, ?_, ?_⟩
  · rw [prepared_eq, Settings.heard_logAll]
  · rw [prepared_eq, Settings.sent_logAll]
  · rw [← expirations_unlogged, unlogged_prepared]
    rfl

end BoundSql.Run
