import BoundSql.Proofs.Commutation
import BoundSql.Proofs.Emission
import Mathlib.Data.List.Nodup

/-!
# Where inserted values land

An item keeps its values in the order in which it sets them, and they are written in this order: a
column is only looked at while the columns are declared. So what an item sets for a column is
written at its place if the item sets the columns in the order in which they are listed. An item
that sets them in another order has its values written to other columns.

The items of one call are added one after the other, so they can be given in several calls as well.
-/
namespace BoundSql.Sql

open Fragment (text separated parenthesized)

variable {columns : List Field} {item : List ColumnSetting}

/-- What the item sets for a column stands in the row where the column stands in the list. -/
def Lands (columns : List Field) (item : List ColumnSetting) (row : List Arg) : Prop :=
  ∀ s ∈ item, ∀ j : Nat, columns[j]? = some s.column → row[j]? = some s.value

/-- Different columns, set in their order, take what is set for them. -/
theorem lands_of_map_column (hnodup : columns.Nodup) (h : item.map (·.column) = columns) :
    Lands columns item (item.map (·.value)) := by
  intro s hs j hj
  obtain ⟨i, hi⟩ := List.getElem?_of_mem hs
  have hcolumn : columns[i]? = some s.column := by rw [← h, List.getElem?_map, hi]; rfl
  have hlt : i < columns.length := (List.getElem?_eq_some_iff.mp hcolumn).1
  obtain rfl : i = j := (List.getElem?_inj hlt hnodup).mp (hcolumn.trans hj.symm)
  rw [List.getElem?_map, hi]
  rfl

/-- If no two values are the same, the order of the columns is the only one in which all of them
take what is set for them. -/
theorem Lands.map_column (hperm : (item.map (·.column)).Perm columns)
    (hvalues : (item.map (·.value)).Nodup) (h : Lands columns item (item.map (·.value))) :
    item.map (·.column) = columns := by
  have hlength : item.length = columns.length := by simpa using hperm.length_eq
  refine List.ext_getElem hperm.length_eq fun j hj hj' => ?_
  have hitem : j < item.length := by omega
  -- the call that sets the column at this place, and the call at this place
  obtain ⟨s, hs, hcolumn⟩ := List.mem_map.mp (hperm.mem_iff.mpr (List.getElem_mem hj'))
  have hlands := h s hs j (by rw [List.getElem?_eq_getElem hj', hcolumn])
  have hvalue : item[j].value = s.value := by
    rw [List.getElem?_map, List.getElem?_eq_getElem hitem] at hlands
    simpa using hlands
  have hcall : item[j] = s := List.inj_on_of_nodup_map hvalues (List.getElem_mem hitem) hs hvalue
  rw [List.getElem_map, hcall, hcolumn]

namespace Insert

theorem declared_of_ne_nil (h : columns ≠ []) (items : List (List ColumnSetting)) :
    declared columns items = columns := by
  unfold declared
  induction items with
  | nil => rfl
  | cons item items ih => simpa [h] using ih

/-- The first item that sets any column declares the columns. -/
theorem declared_nil (items : List (List ColumnSetting)) :
    declared [] items = ((items.map (·.map (·.column))).find? (!·.isEmpty)).getD [] := by
  induction items with
  | nil => rfl
  | cons item items ih =>
      by_cases hitem : item = []
      · simpa [hitem, declared] using ih
      · have hdeclared : item.map (·.column) ≠ [] := by simpa using hitem
        have hrest := declared_of_ne_nil hdeclared items
        simpa [hitem, declared] using hrest

end Insert

theorem Arg.renderAll_eq_map (d : Dialect) (excluded : List String) (as : List Arg) :
    Arg.renderAll d excluded as = as.map (·.render d excluded) := by
  induction as with
  | nil => rw [Arg.renderAll]; rfl
  | cons a as ih => rw [Arg.renderAll, ih, List.map_cons]

theorem Field.renderAll_eq_map (d : Dialect) (excluded : List String) (fs : List Field) :
    Field.renderAll d excluded fs = fs.map (·.render d excluded) := by
  induction fs with
  | nil => rw [Field.renderAll]; rfl
  | cons f fs ih => rw [Field.renderAll, ih, List.map_cons]

/-- A row of VALUES. -/
def tuple (d : Dialect) (row : List Arg) : Fragment :=
  (separated ", " (row.map (·.render d []))).parenthesized

theorem Arg.renderRows_eq_map (d : Dialect) (rows : List (List Arg)) :
    Arg.renderRows d rows = rows.map (tuple d) := by
  induction rows with
  | nil => rw [Arg.renderRows]; rfl
  | cons row rows ih => rw [Arg.renderRows, ih, Arg.renderAll_eq_map, List.map_cons, tuple]

namespace Insert

/-- The columns as they are written behind the target. -/
def columnList (d : Dialect) (q : Insert) : Fragment :=
  if q.columns.isEmpty then []
  else text " " ++
    (separated ", " (q.columns.map (·.render d [q.target.qualifier]))).parenthesized

/-- Rows are written behind the columns, between parts that depend on neither. -/
theorem render_values (d : Dialect) (q : Insert) :
    ∃ before after : Fragment, ∀ (columns : List Field) (rows : List (List Arg)), rows ≠ [] →
      Insert.render d { q with columns, rows } =
        before ++ columnList d { q with columns, rows } ++ text " VALUES " ++
          separated ", " (rows.map (tuple d)) ++ after := by
  obtain ⟨dialect, asName, ctes, ignore, target, _, _, source, conflict, resolution, onDuplicate,
    returning⟩ := q
  refine ⟨Definition.clause (CommonTable.definitions d ctes) ++
      text (if ignore then "INSERT IGNORE INTO " else "INSERT INTO ") ++ insertTarget d target,
    Conflict.render? d [target.qualifier]
        (Condition.clause "WHERE" (Predicate.toConditions d [] resolution)) conflict ++
      listClause " ON DUPLICATE KEY UPDATE "
        (Assignment.renderAll d [target.qualifier] onDuplicate) ++
      returningClause returning (Field.renderAll d [] returning), fun columns rows hrows => ?_⟩
  have hempty : rows.isEmpty = false := by simpa using hrows
  rw [Insert.render, columnList]
  simp only [hempty, Field.renderAll_eq_map d [target.qualifier] columns, Arg.renderRows_eq_map,
    List.append_assoc, Bool.not_false, if_true]

/-- The values of an item are written in the order in which they are set, whatever they are set for.
They land in their columns if this is the order of the columns; values that are all different land
only then. -/
theorem values_land_by_order (q : Insert) :
    (∀ d : Dialect, ∃ before after : Fragment, ∀ items : List (List ColumnSetting),
      let built := q.apply (.items items)
      built.rows ≠ [] →
        built.render d = before ++ built.columnList d ++ text " VALUES " ++
          separated ", " (built.rows.map (tuple d)) ++ after) ∧
    ∀ items : List (List ColumnSetting),
      let built := q.apply (.items items)
      built.columns =
          (if q.columns.isEmpty then
            ((items.map (·.map (·.column))).find? (!·.isEmpty)).getD []
          else q.columns) ∧
        built.rows = q.rows ++ items.map (·.map (·.value)) ∧
        ∀ item ∈ items,
          (built.columns.Nodup → item.map (·.column) = built.columns →
            Lands built.columns item (item.map (·.value))) ∧
          ((item.map (·.column)).Perm built.columns → (item.map (·.value)).Nodup →
            Lands built.columns item (item.map (·.value)) →
              item.map (·.column) = built.columns) := by
  refine ⟨fun d => ?_, fun items => ⟨?_, ?_, fun item _ => ⟨lands_of_map_column, Lands.map_column⟩⟩⟩
  · obtain ⟨before, after, h⟩ := q.render_values d
    refine ⟨before, after, fun items => ?_⟩
    rw [apply_items]
    exact h _ _
  · rw [apply_items]
    by_cases hcolumns : q.columns = []
    · rw [hcolumns]
      exact declared_nil items
    · simpa [hcolumns] using declared_of_ne_nil hcolumns items
  · rw [apply_items]

/-- An insertion of numbers that has no columns yet. -/
def numbers : Insert := .empty .postgres "" [] { name := "t" } false

def setting (column : String) (n : Int64) : ColumnSetting := ⟨.bare column, .value (.int n)⟩

/-- The second item sets the columns of the first in another order. -/
def reordered : List (List ColumnSetting) :=
  [[setting "a" 1, setting "b" 2], [setting "b" 3, setting "a" 4]]

theorem bare_ne : Field.bare "a" ≠ Field.bare "b" := by simp [Field.bare]

theorem nodup_bare : [Field.bare "a", Field.bare "b"].Nodup := by simp [bare_ne]

theorem reordered_perm :
    ∀ item ∈ reordered, (item.map (·.column)).Perm [Field.bare "a", Field.bare "b"] := by
  simp only [reordered, List.forall_mem_cons]
  exact ⟨.refl _, .swap _ _ _, by simp⟩

theorem first_numbers_land :
    let built := numbers.apply (.items reordered)
    (∃ before after : Fragment, built.render .postgres =
      before ++ built.columnList .postgres ++ text " VALUES " ++
        separated ", " (built.rows.map (tuple .postgres)) ++ after) ∧
      built.columns = [.bare "a", .bare "b"] ∧
      Lands built.columns [setting "a" 1, setting "b" 2] [.value (.int 1), .value (.int 2)] ∧
      ¬ Lands built.columns [setting "b" 3, setting "a" 4] [.value (.int 3), .value (.int 4)] := by
  intro built
  obtain ⟨hrender, hlands⟩ := values_land_by_order numbers
  obtain ⟨-, -, hlands⟩ := hlands reordered
  refine ⟨?_, rfl, (hlands _ List.mem_cons_self).1 nodup_bare rfl, fun hsecond => ?_⟩
  · obtain ⟨before, after, h⟩ := hrender .postgres
    exact ⟨before, after, h reordered (List.cons_ne_nil _ _)⟩
  · have hmem : [setting "b" 3, setting "a" 4] ∈ reordered := by simp [reordered]
    have hvalues : ([setting "b" 3, setting "a" 4].map (·.value)).Nodup := by simp [setting]
    have horder := (hlands _ hmem).2 (reordered_perm _ hmem) hvalues hsecond
    exact bare_ne (List.cons.inj horder).1.symm

/-- What the second item sets for `b` is written to `a`, and the other way around. -/
theorem reordered_numbers_are_swapped :
    (Query.insert (numbers.apply (.items reordered))).compile =
        ⟨"INSERT INTO t (a, b) VALUES ($1, $2), ($3, $4)", [.int 1, .int 2, .int 3, .int 4]⟩ ∧
      ¬ ∀ (q : Insert) (items : List (List ColumnSetting)),
        let built := q.apply (.items items)
        built.columns.Nodup → (∀ item ∈ items, (item.map (·.column)).Perm built.columns) →
          ∀ (i : Nat) (item : List ColumnSetting) (row : List Arg), items[i]? = some item →
            built.rows[q.rows.length + i]? = some row → Lands built.columns item row := by
  constructor
  · rw [Query.compile_eq]
    rfl
  · intro h
    have hlands := h numbers reordered nodup_bare reordered_perm 1 [setting "b" 3, setting "a" 4]
      [.value (.int 3), .value (.int 4)] rfl rfl
    have hswapped := hlands (setting "b" 3) List.mem_cons_self 1 rfl
    cases hswapped

theorem declared_append (columns : List Field) (items more : List (List ColumnSetting)) :
    declared columns (items ++ more) = declared (declared columns items) more :=
  List.foldl_append

/-- Items that set nothing declare nothing. -/
theorem declared_of_forall_nil {items : List (List ColumnSetting)} (h : ∀ item ∈ items, item = [])
    (columns : List Field) : declared columns items = columns := by
  induction items with
  | nil => rfl
  | cons item items ih =>
      rw [List.forall_mem_cons] at h
      obtain ⟨rfl, h⟩ := h
      have hstep : declared columns [[]] = columns := by
        cases columns <;> rfl
      calc declared columns ([] :: items)
          = declared (declared columns [[]]) items := declared_append columns [[]] items
        _ = columns := by rw [hstep, ih h]

/-- An item that sets something declares its columns, if there are none so far. -/
theorem declared_of_first {item : List ColumnSetting} {before : List (List ColumnSetting)}
    (hbefore : ∀ other ∈ before, other = []) (hitem : item ≠ [])
    (after : List (List ColumnSetting)) :
    declared [] (before ++ item :: after) = item.map (·.column) := by
  have hcolumns : item.map (·.column) ≠ [] := by simpa using hitem
  calc declared [] (before ++ item :: after)
      = declared (declared [] before) (item :: after) := declared_append _ _ _
    _ = declared (declared [] [item]) after := by
          rw [declared_of_forall_nil hbefore]
          exact declared_append [] [item] after
    _ = item.map (·.column) := declared_of_ne_nil hcolumns after

/-- Items, each given as what is set for it in the order of the calls, are appended to the rows from
left to right, and nothing else of the statement changes but its columns. Columns that are there
stay; else the first item that sets anything declares them, and no later item changes them. So all
items in one call build the same as a call with the first of them and a call with the others. -/
theorem items_are_appended (q : Insert) (items : List (List ColumnSetting)) :
    let built := q.apply (.items items)
    built = { q with
        columns := built.columns
        rows := q.rows ++ items.map (·.map (·.value)) } ∧
      (q.columns ≠ [] → built.columns = q.columns) ∧
      (q.columns = [] → (∀ item ∈ items, item = []) → built.columns = []) ∧
      (q.columns = [] → ∀ (before after : List (List ColumnSetting)) (item : List ColumnSetting),
        items = before ++ item :: after → (∀ other ∈ before, other = []) → item ≠ [] →
          built.columns = item.map (·.column)) ∧
      ∀ front rest : List (List ColumnSetting), items = front ++ rest →
        built = (q.apply (.items front)).apply (.items rest) := by
  intro built
  have hbuilt : built = { q with
      columns := declared q.columns items
      rows := q.rows ++ items.map (·.map (·.value)) } := apply_items items q
  have hcolumns : built.columns = declared q.columns items := congrArg Insert.columns hbuilt
  refine ⟨by rw [hcolumns]; exact hbuilt, fun hne => ?_, fun hnil hnothing => ?_,
    fun hnil before after item hitems hbefore hitem => ?_, fun front rest hitems => ?_⟩
  · rw [hcolumns, declared_of_ne_nil hne]
  · rw [hcolumns, hnil, declared_of_forall_nil hnothing]
  · rw [hcolumns, hnil, hitems, declared_of_first hbefore hitem]
  · subst hitems
    exact List.foldl_append

/-- The first item sets nothing, so the second one declares the column that the third one, which is
given in another call, only fills. -/
theorem second_item_declares :
    let built := numbers.apply (.items [[], [setting "a" 1], [setting "b" 2, setting "c" 3]])
    built.columns = [.bare "a"] ∧
      built.rows = [[], [.value (.int 1)], [.value (.int 2), .value (.int 3)]] ∧
      built = (numbers.apply (.items [[], [setting "a" 1]])).apply
        (.items [[setting "b" 2, setting "c" 3]]) := by
  intro built
  obtain ⟨hbuilt, -, -, hfirst, hsplit⟩ :=
    items_are_appended numbers [[], [setting "a" 1], [setting "b" 2, setting "c" 3]]
  exact ⟨hfirst rfl [[]] _ _ rfl (by simp) (List.cons_ne_nil _ _), congrArg Insert.rows hbuilt,
    hsplit _ _ rfl⟩

end Insert

end BoundSql.Sql
