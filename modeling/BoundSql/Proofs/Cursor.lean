import BoundSql.Run.Fetch
import Mathlib.Tactic.Common

/-!
# Reading a whole cursor

A cursor that gives its rows in time and then ends is read to its end. If each of the rows is mapped
to an item, these are the items of the fetch, in the order of the rows, and one statement was sent.
-/
namespace BoundSql.Run

open Row (Mapper Shape)
open Sql (Compiled Query)

/-- The statements that were handed to the driver. -/
def sent (es : List Effect) : List Compiled :=
  es.filterMap fun
    | .called c => some c
    | _ => none

@[simp] theorem sent_nil : sent [] = [] := rfl

@[simp] theorem sent_append (es es' : List Effect) : sent (es ++ es') = sent es ++ sent es' :=
  List.filterMap_append

@[simp] theorem sent_called (c : Compiled) (es : List Effect) :
    sent (.called c :: es) = c :: sent es := rfl

@[simp] theorem sent_traced (e : Log.Event) (es : List Effect) :
    sent (.traced e :: es) = sent es := rfl

/-- Without a logger nothing is logged; else the line is handed over, and at most a report that it
was refused comes behind it. -/
theorem Settings.log_cases (s : Settings) (tag : Option String) (message : String) :
    s.logging = none ∧ s.log tag message = [] ∨
      s.logging.isSome ∧ (s.log tag message = [.logged (tagged tag message)] ∨
        ∃ error, s.log tag message = [.logged (tagged tag message), .traced (.refused error)]) := by
  unfold Settings.log
  cases s.logging with
  | none => exact .inl ⟨rfl, rfl⟩
  | some l =>
      dsimp only
      cases l.logger.refuses (tagged tag message) with
      | none => exact .inr ⟨rfl, .inl rfl⟩
      | some error => exact .inr ⟨rfl, .inr ⟨error, rfl⟩⟩

@[simp] theorem sent_log (s : Settings) (tag : Option String) (message : String) :
    sent (s.log tag message) = [] := by
  obtain ⟨-, h⟩ | ⟨-, h | ⟨error, h⟩⟩ := s.log_cases tag message <;> (rw [h]; rfl)

@[simp] theorem sent_logDeclared (s : Settings) (tag : Option String) (shape : Shape) :
    sent (s.logDeclared tag shape) = [] := by
  unfold Settings.logDeclared
  split
  · exact sent_log s tag _
  · rfl

@[simp] theorem sent_logQuery (s : Settings) (tag : Option String) (q : Query) (c : Compiled) :
    sent (s.logQuery tag q c) = [] :=
  sent_log s tag _

section Reading

variable {σ α : Type} (r : Reading σ α)

@[simp] theorem sent_finish (count : Nat) (state : σ) :
    sent (r.finish count state).effects = [] := by
  unfold Reading.finish
  split <;> simp

@[simp] theorem sent_logRow (index : Nat) (values : List Value) :
    sent (r.logRow index values) = [] := by
  unfold Reading.logRow
  split <;> simp

end Reading

/-- Behind `now` nanoseconds the cursor gives exactly these rows, each of them in time, and then
ends in time, exhausted or by exit. -/
inductive Serves (ctx : Context) : Nat → Cursor → List (List Value) → Prop
  | exhausted (now : Nat) : Serves ctx now [] []
  | exit (now : Nat) (rest : Cursor) : Serves ctx now (.fail .exit :: rest) []
  | wait {now nanos : Nat} {rest : Cursor} {rows : List (List Value)}
      (htime : ctx.inTime (now + nanos)) (h : Serves ctx (now + nanos) rest rows) :
      Serves ctx now (.wait nanos :: rest) rows
  | row {now : Nat} {rest : Cursor} {rows : List (List Value)} (values : List Value)
      (h : Serves ctx now rest rows) : Serves ctx now (.row values :: rest) (values :: rows)

/-- Row after row is read into an item by `step`, which hands on a state. -/
inductive Rowwise {σ α : Type} (step : List Value → σ → α → σ → Prop) :
    σ → List (List Value) → List α → σ → Prop
  | nil (s : σ) : Rowwise step s [] [] s
  | cons {s s' s'' : σ} {row : List Value} {rows : List (List Value)} {a : α} {items : List α}
      (h : step row s a s') (hs : Rowwise step s' rows items s'') :
      Rowwise step s (row :: rows) (a :: items) s''

namespace Rowwise

variable {σ α : Type} {step step' : List Value → σ → α → σ → Prop} {s s' : σ}
  {rows : List (List Value)} {items : List α}

theorem imp (hstep : ∀ {row s a s'}, step row s a s' → step' row s a s')
    (h : Rowwise step s rows items s') : Rowwise step' s rows items s' := by
  induction h with
  | nil s => exact .nil s
  | cons h _ ih => exact .cons (hstep h) ih

theorem length_eq (h : Rowwise step s rows items s') : items.length = rows.length := by
  induction h with
  | nil => rfl
  | cons _ _ ih => rw [List.length_cons, List.length_cons, ih]

end Rowwise

variable {σ α : Type} {shape : Shape} {m : Mapper σ α} {s s' : σ} {rows : List (List Value)}
  {items : List α}

/-- The mapper maps a row to an item. -/
def Maps (shape : Shape) (m : Mapper σ α) (row : List Value) (s : σ) (a : α) (s' : σ) : Prop :=
  shape.item m row s = (.ok a, s')

theorem declare_besides {τ : Type} (m : Mapper σ α) (s : σ) (t : τ) :
    Shape.declare (besides m) (s, t) =
      ((Shape.declare m s).1, ((Shape.declare m s).2, t)) := rfl

theorem item_besides {τ : Type} (shape : Shape) (m : Mapper σ α) (row : List Value) (s : σ)
    (t : τ) : shape.item (besides m) row (s, t) =
      ((shape.item m row s).1, ((shape.item m row s).2, t)) := by
  unfold Shape.item
  split <;> rfl

/-- The reading of a fetch that collects its items. -/
def collecting (settings : Settings) (ctx : Context) (shape : Shape) (m : Mapper σ α) :
    Reading (σ × List α) α :=
  ⟨settings, ctx, shape, besides m, fun a (s, items) => .yield (s, items ++ [a])⟩

/-- Read to its end, the cursor adds the items of its rows to those already there. -/
theorem rows_of_serves {ctx : Context} {now : Nat} {cursor : Cursor} (settings : Settings)
    (hserves : Serves ctx now cursor rows) (hmaps : Rowwise (Maps shape m) s rows items s')
    (count : Nat)
    (before : List α) :
    let o := (collecting settings ctx shape m).rows now count (s, before) cursor
    o.result = .ok (count + rows.length) ∧ o.state = (s', before ++ items) ∧
      sent o.effects = [] := by
  induction hserves generalizing s items count before with
  | exhausted now =>
      cases hmaps
      rw [Reading.rows, List.append_nil]
      exact ⟨rfl, rfl, sent_finish _ count _⟩
  | exit now rest =>
      cases hmaps
      rw [Reading.rows, List.append_nil]
      exact ⟨rfl, rfl, sent_finish _ count _⟩
  | wait htime h ih =>
      have hin : (collecting settings ctx shape m).context.inTime _ = true := htime
      rw [Reading.rows, if_pos hin]
      exact ih hmaps count before
  | @row now rest rows values h ih =>
      obtain _ | ⟨hitem, hmaps⟩ := hmaps
      rename_i s₁ a items
      obtain ⟨hresult, hstate, hsent⟩ := ih hmaps (count + 1) (before ++ [a])
      have hstep : (collecting settings ctx shape m).rows now count (s, before)
          (.row values :: rest) =
            ((collecting settings ctx shape m).rows now (count + 1) (s₁, before ++ [a])
              rest).prepend ((collecting settings ctx shape m).logRow (count + 1) values) := by
        have hbesides : (collecting settings ctx shape m).shape.item
            (collecting settings ctx shape m).mapper values (s, before) =
              (.ok a, (s₁, before)) := by
          rw [collecting, item_besides, show shape.item m values s = _ from hitem]
        rw [Reading.rows, hbesides]
        rfl
      rw [hstep]
      refine ⟨?_, ?_, ?_⟩
      · rw [Outcome.prepend, hresult, List.length_cons, Nat.add_assoc, Nat.add_comm 1]
      · rw [Outcome.prepend, hstate, List.append_assoc]
        rfl
      · rw [Outcome.prepend, sent_append, sent_logRow, hsent]
        rfl

/-- A fetch with a deadline that the clock can tell, whose call is answered in time, reads the
cursor behind the logs and the call. -/
theorem fetchEach_eq {q : Statement Query} {db : Option Database} {ctx : Context}
    {database : Database} {s₁ : σ} {delay : Nat} {cursor : Cursor}
    (accumulate : α → σ → ForInStep σ) (hdb : q.settings.resolve db = some database)
    (hdeclare : Shape.declare m s = (shape, s₁))
    (htimed : ctx.timed)
    (hquery : database.query (projected q.body shape).compile = ⟨delay, .ok cursor⟩)
    (hdelay : ctx.inTime delay) :
    fetchEach q db ctx m accumulate s =
      ((⟨q.settings, ctx, shape, m, accumulate⟩ : Reading σ α).rows delay 0 s₁ cursor).prepend
        (q.settings.logDeclared ctx.tag shape ++
          q.settings.logQuery ctx.tag (projected q.body shape) (projected q.body shape).compile ++
          [.called (projected q.body shape).compile]) := by
  unfold fetchEach
  simp only [hdb, hdeclare, htimed, hquery, hdelay, Bool.not_true, Bool.false_eq_true, if_false]

/-- A fetch of a whole cursor sends one statement and returns the items of the rows. -/
theorem fetchAll_of_serves {q : Statement Query} {db : Option Database} {ctx : Context}
    {database : Database} {s₁ : σ} {delay : Nat} {cursor : Cursor}
    (hdb : q.settings.resolve db = some database) (hdeclare : Shape.declare m s = (shape, s₁))
    (htimed : ctx.timed)
    (hquery : database.query (projected q.body shape).compile = ⟨delay, .ok cursor⟩)
    (hdelay : ctx.inTime delay) (hserves : Serves ctx delay cursor rows)
    (hmaps : Rowwise (Maps shape m) s₁ rows items s') :
    (fetchAll q db ctx m s).result = .ok items ∧ (fetchAll q db ctx m s).state = s' ∧
      sent (fetchAll q db ctx m s).effects = [(projected q.body shape).compile] := by
  have hbesides : Shape.declare (besides m) (s, ([] : List α)) = (shape, (s₁, [])) := by
    rw [declare_besides, hdeclare]
  have heach := fetchEach_eq (fun a (s, items) => .yield (s, items ++ [a])) hdb hbesides htimed
    hquery hdelay
  obtain ⟨hresult, hstate, hsent⟩ := rows_of_serves q.settings hserves hmaps 0 []
  have hitems : (fetchAll q db ctx m s).result =
      ((collecting q.settings ctx shape m).rows delay 0 (s₁, []) cursor).result.map fun _ =>
        ((collecting q.settings ctx shape m).rows delay 0 (s₁, []) cursor).state.2 := by
    rw [fetchAll, heach]
    rfl
  refine ⟨?_, ?_, ?_⟩
  · rw [hitems, hresult, hstate]
    rfl
  · rw [fetchAll, heach]
    exact congrArg Prod.fst hstate
  · rw [fetchAll, heach]
    simp only [Outcome.prepend, sent_append, sent_logDeclared, sent_logQuery, sent_called, sent_nil,
      List.nil_append]
    exact congrArg (_ :: ·) hsent

end BoundSql.Run
