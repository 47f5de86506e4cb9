import BoundSql.Proofs.Cursor
import BoundSql.Proofs.Mapper
import BoundSql.Proofs.Projection

/-!
# Columns line up

What a mapper declares is what is selected, and what a row has in a column is what the accessor of
that column returns. The declare pass, the projection, the slots and the value passes count the
columns apart from each other; here they are put together.
-/
namespace BoundSql.Run

open Row (Program Shape)
open Sql (Field Fragment Query)

variable {σ α : Type}

/-- The program maps a row to an item whose accessors are answered by the columns of the row. One
that makes no calls takes no column of it. -/
def ReadsColumns (m : σ → Program (α × σ)) (columns : List (Field × SlotKind)) (row : List Value)
    (s : σ) (a : α) (s' : σ) : Prop :=
  (m s).Reads 0 (if columns.isEmpty then [] else row) columns (a, s')

/-- A program that asks for the same columns in the declare pass and on every row of a cursor has
these columns selected, in place of all others. It gets for each row the item that its accessors
make of the columns of that row. One that asks for no columns leaves the statement as it is. -/
theorem fetchAll_aligns_columns {q : Statement Query} {db : Option Database} {ctx : Context}
    {database : Database} {m : σ → Program (α × σ)} {columns : List (Field × SlotKind)}
    {s s₁ s' : σ} {zero : α} {delay : Nat} {cursor : Cursor} {rows : List (List Value)}
    {items : List α}
    (hdb : q.settings.resolve db = some database)
    (hdeclared : (m s).declared 0 = (columns, (zero, s₁))) (htimed : ctx.timed)
    (hquery : database.query (projected q.body ⟨columns⟩).compile = ⟨delay, .ok cursor⟩)
    (hdelay : ctx.inTime delay) (hserves : Serves ctx delay cursor rows)
    (hreads : Rowwise (ReadsColumns m columns) s₁ rows items s') :
    let o := fetchAll q db ctx (Program.mapper m) s
    (∃ before after : Fragment,
      (∀ old fs : List Field, fs ≠ [] → (project (project q.body old) fs).compile =
        (before ++ projection q.body.dialect fs ++ after).compiled q.body.dialect) ∧
      sent o.effects =
        [if columns.isEmpty then q.body.compile
          else (before ++ projection q.body.dialect (columns.map (·.1)) ++ after).compiled
            q.body.dialect]) ∧
      o.result = .ok items ∧ items.length = rows.length ∧ o.state = s' := by
  have hdeclare : Shape.declare (Program.mapper m) s = (⟨columns⟩, s₁) := by
    rw [Shape.declare_mapper, hdeclared]
  have hmaps : Rowwise (Maps ⟨columns⟩ (Program.mapper m)) s₁ rows items s' :=
    hreads.imp fun h => Shape.item_mapper m h
  obtain ⟨hresult, hstate, hsent⟩ :=
    fetchAll_of_serves hdb hdeclare htimed hquery hdelay hserves hmaps
  obtain ⟨before, after, hframed⟩ := project_framed q.body.dialect q.body
  have hproject (fs : List Field) (hfs : fs ≠ []) : (project q.body fs).compile =
      (before ++ projection q.body.dialect fs ++ after).compiled q.body.dialect := by
    rw [Query.compile_eq_compiled, project_dialect]
    exact congrArg (Fragment.compiled q.body.dialect) (hframed fs hfs)
  refine ⟨⟨before, after, fun old fs hfs => ?_, ?_⟩, hresult, hreads.length_eq, hstate⟩
  · rw [project_project]
    exact hproject fs hfs
  · rw [hsent]
    cases columns with
    | nil => rfl
    | cons column columns => exact congrArg ([·]) (hproject _ (by simp [Shape.fields]))

/-- The user's number, and whether there is a name. -/
def userProgram (_ : Unit) : Program ((Int64 × Bool) × Unit) := do
  let id ← .ask (.column (0 : Int64) (.bare "id"))
  let named ← .ask (.valid String ((Field.bare "name").named "n"))
  return ((id, named), ())

/-- Two users, the second one after a while; of the first there is no name. -/
def users : Cursor :=
  [.row [.text "7", .null], .wait 3, .row [.int 8, .text "ann"], .fail .exit]

theorem users_align_columns :
    let q : Statement Query :=
      { body := .select
          { dialect := .mysql, asName := "", fields := [.bare "old"],
            source := some (.base ⟨"", "users", ""⟩) } }
    let database : Database := ⟨fun _ => ⟨2, .ok users⟩, fun _ => ⟨0, .error .missingDatabase⟩⟩
    let ctx : Context := { timeout := some ⟨5, by decide⟩ }
    (fetchAll q (some database) ctx (Program.mapper userProgram) ()).result =
      .ok [(7, false), (8, true)] := by
  intro q database ctx
  have hid : FromValue.ofNullable (α := Int64) (.text "7") = .ok 7 := by rfl
  have hreads : Rowwise (ReadsColumns userProgram ((userProgram ()).declared 0).1) ()
      [[.text "7", .null], [.int 8, .text "ann"]] [(7, false), (8, true)] () :=
    .cons (.call (.column hid) (.call (.valid rfl) (.done _ _)))
      (.cons (.call (.column rfl) (.call (.valid rfl) (.done _ _))) (.nil _))
  have hdb : q.settings.resolve (some database) = some database := rfl
  have hserves : Serves ctx 2 users
      [[.text "7", .null], [.int 8, .text "ann"]] :=
    .row _ (.wait rfl (.row _ (.exit _ _)))
  exact (fetchAll_aligns_columns hdb rfl rfl rfl rfl hserves hreads).2.1

end BoundSql.Run
