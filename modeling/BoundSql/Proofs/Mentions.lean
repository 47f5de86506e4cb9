import BoundSql.Proofs.Emission
import BoundSql.Sql.Mentions
import Mathlib.Data.List.Forall2

/-!
# Mentions are written in order

`Shows d ms f` says that the mentions `ms` stand in a fragment, one behind the other. It passes from
the parts of a statement to the whole, since whatever is written around a mention and between two of
them does not count.
-/
namespace BoundSql.Sql

open Fragment (text ident)

/-- The mentions stand in the fragment, one behind the other, with anything around them. -/
inductive Shows (d : Dialect) : List Mention → Fragment → Prop where
  | nil (f : Fragment) : Shows d [] f
  | cons (before : Fragment) (m : Mention) {ms : List Mention} {rest : Fragment}
      (h : Shows d ms rest) : Shows d (m :: ms) (before ++ (m.render d ++ rest))

namespace Shows

variable {d : Dialect} {ms ns : List Mention} {f g : Fragment} {mss : List (List Mention)}
  {fs : List Fragment}

/-- A mention stands in its own rendering. -/
theorem mention (m : Mention) : Shows d [m] (m.render d) := by
  simpa using cons [] m (nil (d := d) [])

/-- What is written in front does not count. -/
theorem left (f : Fragment) (h : Shows d ms g) : Shows d ms (f ++ g) := by
  cases h with
  | nil g => exact nil _
  | cons before m h =>
      rw [← List.append_assoc]
      exact cons (f ++ before) m h

/-- Mentions of two fragments stand in order in the two behind each other. -/
theorem append (h : Shows d ms f) (h' : Shows d ns g) : Shows d (ms ++ ns) (f ++ g) := by
  induction h with
  | nil f => exact h'.left f
  | cons before m _ ih =>
      rw [List.append_assoc, List.append_assoc, List.cons_append]
      exact cons before m ih

theorem right (h : Shows d ms f) (g : Fragment) : Shows d ms (f ++ g) := by
  simpa using h.append (nil g)

theorem parenthesized (h : Shows d ms f) : Shows d ms f.parenthesized :=
  (h.left _).right _

/-- Separators do not count. -/
theorem separated (separator : String) (h : List.Forall₂ (Shows d) mss fs) :
    Shows d mss.flatten (Fragment.separated separator fs) := by
  induction h with
  | nil => exact nil _
  | @cons ms f mss fs h hs ih =>
      cases hs with
      | nil => simpa [Fragment.separated] using h
      | cons _ _ => exact (h.right _).append ih

/-- The keyword of a list does not count. -/
theorem listClause (keyword : String) (h : List.Forall₂ (Shows d) mss fs) :
    Shows d mss.flatten (Sql.listClause keyword fs) := by
  cases h with
  | nil => exact nil _
  | cons h hs => exact (separated ", " (.cons h hs)).left _

/-- Fillings behind the last slot are not written. -/
theorem filled {ps : List Template.Part} (h : List.Forall₂ (Shows d) mss fs) :
    Shows d (mss.take (ps.count .slot)).flatten (Template.filled ps fs) := by
  induction ps, fs using Template.filled.induct generalizing mss with
  | case1 fs => exact nil _
  | case2 c ps fs ih =>
      rw [List.count_cons_of_ne (by simp), Template.filled]
      exact (ih h).left [_]
  | case3 ps ih =>
      cases h
      simp only [List.take_nil, List.flatten_nil]
      exact nil _
  | case4 ps f fs ih =>
      obtain _ | ⟨h, hs⟩ := h
      rw [List.count_cons_self, List.take_succ_cons, List.flatten_cons, Template.filled]
      exact h.append (ih hs)

/-- A template mentions what the arguments in its slots mention. -/
theorem expanded (template : String) (h : List.Forall₂ (Shows d) mss fs) :
    Shows d (Template.mentions template mss) (Template.expanded template fs) :=
  filled h

/-- Neither NOT nor the parentheses of a group count. -/
theorem group (negated : Bool) (connective : Connective) {cs : List Condition}
    (h : List.Forall₂ (Shows d) mss (Condition.renderAll cs)) :
    Shows d mss.flatten (Condition.group negated connective cs).render := by
  rw [Condition.render]
  generalize Condition.renderAll cs = fs at h
  match h with
  | .nil => exact nil _
  | .cons h .nil =>
      rw [List.flatten_cons, List.flatten_nil, List.append_nil]
      exact h.left _
  | .cons h (.cons h' hs) =>
      have hmembers := separated (Condition.separator connective) (.cons h (.cons h' hs))
      exact hmembers.parenthesized.left _

theorem clause (keyword : String) {cs : List Condition}
    (h : List.Forall₂ (Shows d) mss (Condition.renderAll cs)) :
    Shows d mss.flatten (Condition.clause keyword cs) := by
  cases cs with
  | nil =>
      rw [Condition.renderAll] at h
      cases h
      exact nil _
  | cons c cs => exact (separated " AND " h).left _

end Shows

section Written

variable (d : Dialect) (excluded : List String)

/-- A literal mentions nothing. -/
theorem Term.shows (t : Term) : Shows d (t.mentions excluded) (t.render excluded) := by
  cases t with
  | literal v => exact .nil _
  | column qualifier name => exact .mention (.column excluded qualifier name)

mutual

/-- What a subquery mentions is its own, so an argument that is one mentions nothing. -/
theorem Arg.shows : ∀ a : Arg, Shows d (a.mentions excluded) (a.render d excluded)
  | .value v => by rw [Arg.mentions]; exact .nil _
  | .field f => by rw [Arg.mentions, Arg.render]; exact f.shows
  | .query q => by rw [Arg.mentions]; exact .nil _
  | .list vs => by rw [Arg.mentions]; exact .nil _

theorem Arg.shows_all : ∀ as : List Arg,
    List.Forall₂ (Shows d) (Arg.mentionsAll excluded as) (Arg.renderAll d excluded as)
  | [] => by rw [Arg.mentionsAll, Arg.renderAll]; exact .nil
  | a :: rest => by
      rw [Arg.mentionsAll, Arg.renderAll]
      exact .cons a.shows (Arg.shows_all rest)

/-- The marks of a field do not count. -/
theorem Field.shows : ∀ f : Field, Shows d (f.mentions excluded) (f.render d excluded)
  | .plain term marks => by
      rw [Field.mentions, Field.render]
      exact (term.shows d excluded).right _
  | .derived template args marks => by
      rw [Field.mentions, Field.render]
      exact (Shows.expanded template (Arg.shows_all args)).right _
  | .verbatim sql => by rw [Field.mentions]; exact .nil _
  | .condition p => by rw [Field.mentions, Field.render]; exact p.shows

/-- A predicate mentions what its members mention, in the order in which they are written. -/
theorem Predicate.shows : ∀ p : Predicate,
    Shows d (p.mentions excluded) (p.toCondition d excluded).render
  | .template negated template args _ => by
      rw [Predicate.mentions, Predicate.toCondition, Condition.render]
      exact (Shows.expanded template (Arg.shows_all args)).left _
  | .group negated connective members _ => by
      rw [Predicate.mentions, Predicate.toCondition]
      exact Shows.group negated connective (Predicate.shows_all members)
  | .flag negated term marks => by
      rw [Predicate.mentions, Predicate.toCondition, Condition.render]
      exact ((term.shows d excluded).right _).left _

theorem Predicate.shows_all : ∀ ps : List Predicate,
    List.Forall₂ (Shows d) (Predicate.mentionsAll excluded ps)
      (Condition.renderAll (Predicate.toConditions d excluded ps))
  | [] => by
      rw [Predicate.mentionsAll, Predicate.toConditions, Condition.renderAll]
      exact .nil
  | p :: rest => by
      rw [Predicate.mentionsAll, Predicate.toConditions, Condition.renderAll]
      exact .cons p.shows (Predicate.shows_all rest)

end

theorem Field.shows_all (fs : List Field) :
    List.Forall₂ (Shows d) (fs.map (·.mentions excluded)) (Field.renderAll d excluded fs) := by
  induction fs with
  | nil => rw [Field.renderAll]; exact .nil
  | cons f fs ih => rw [Field.renderAll]; exact .cons (f.shows d excluded) ih

/-- The target in front of the value. -/
theorem Assignment.shows (a : Assignment) :
    Shows d (a.mentions excluded) (a.render d excluded) := by
  obtain ⟨target, value⟩ := a
  rw [Assignment.render]
  exact ((target.shows d excluded).right _).append (value.shows d [])

theorem Assignment.shows_all (set : List Assignment) :
    List.Forall₂ (Shows d) (set.map (·.mentions excluded))
      (Assignment.renderAll d excluded set) := by
  induction set with
  | nil => rw [Assignment.renderAll]; exact .nil
  | cons a set ih => rw [Assignment.renderAll]; exact .cons (a.shows d excluded) ih

theorem Arg.mentionsAll_eq_map (as : List Arg) :
    Arg.mentionsAll excluded as = as.map (·.mentions excluded) := by
  induction as with
  | nil => rw [Arg.mentionsAll, List.map_nil]
  | cons a as ih => rw [Arg.mentionsAll, List.map_cons, ih]

theorem Predicate.mentionsAll_eq_map (ps : List Predicate) :
    Predicate.mentionsAll excluded ps = ps.map (·.mentions excluded) := by
  induction ps with
  | nil => rw [Predicate.mentionsAll, List.map_nil]
  | cons p ps ih => rw [Predicate.mentionsAll, List.map_cons, ih]

end Written

section Clauses

variable (d : Dialect)

theorem Field.shows_listClause (keyword : String) (excluded : List String) (fs : List Field) :
    Shows d (fs.flatMap (·.mentions excluded))
      (listClause keyword (Field.renderAll d excluded fs)) := by
  rw [List.flatMap_def]
  exact Shows.listClause keyword (Field.shows_all d excluded fs)

theorem Assignment.shows_listClause (keyword : String) (excluded : List String)
    (set : List Assignment) :
    Shows d (set.flatMap (·.mentions excluded))
      (listClause keyword (Assignment.renderAll d excluded set)) := by
  rw [List.flatMap_def]
  exact Shows.listClause keyword (Assignment.shows_all d excluded set)

theorem Predicate.shows_clause (keyword : String) (ps : List Predicate) :
    Shows d (ps.flatMap (·.mentions []))
      (Condition.clause keyword (Predicate.toConditions d [] ps)) := by
  rw [List.flatMap_def, ← Predicate.mentionsAll_eq_map]
  exact Shows.clause keyword (Predicate.shows_all d [] ps)

/-- Names after AS in a select list are no mentions. -/
theorem Field.shows_selected (fs : List Field) :
    List.Forall₂ (Shows d) (fs.map (·.mentions [])) (selected fs (Field.renderAll d [] fs)) := by
  induction fs with
  | nil => exact .nil
  | cons f fs ih =>
      rw [Field.renderAll]
      exact .cons ((f.shows d []).right _) ih

theorem Field.shows_selectList (fs : List Field) :
    Shows d (fs.flatMap (·.mentions [])) (selectList fs (Field.renderAll d [] fs)) := by
  rw [List.flatMap_def]
  cases fs with
  | nil => exact .nil _
  | cons f fs => exact Shows.separated ", " (Field.shows_selected d (f :: fs))

theorem Field.shows_returning (fs : List Field) :
    Shows d (fs.flatMap (·.mentions [])) (returningClause fs (Field.renderAll d [] fs)) := by
  rw [List.flatMap_def]
  exact Shows.listClause " RETURNING " (Field.shows_selected d fs)

theorem Field.shows_distinct (distinct : Bool) (fs : List Field) :
    Shows d (fs.flatMap (·.mentions []))
      (if !fs.isEmpty then
        text "DISTINCT ON (" ++ Fragment.separated ", " (Field.renderAll d [] fs) ++ text ") "
      else if distinct then text "DISTINCT "
      else []) := by
  rw [List.flatMap_def]
  cases fs with
  | nil => exact .nil _
  | cons f fs => exact ((Shows.separated ", " (Field.shows_all d [] (f :: fs))).left _).right _

/-- The mention of a reference is what FROM, USING and joins write. -/
theorem render_reference (t : Table) :
    (Mention.reference t t.asName?).render d = (t.source d).reference := by
  have hasName : (Mention.reference t t.asName?).render d =
      t.unnamed d ++ asNameOf t.asName t.name := by
    rw [Table.asName?, asNameOf]
    split
    · exact (List.append_nil _).symm
    · rfl
  rw [hasName]
  cases t <;> rw [Table.source] <;> rfl

theorem Table.shows (t : Table) : Shows d t.mentions (t.source d).reference := by
  rw [← render_reference]
  exact .mention _

theorem Table.shows_sourceClause (keyword : String) (t : Option Table) :
    Shows d (t.toList.flatMap Table.mentions) (sourceClause keyword (Table.source? d t)) := by
  cases t with
  | none => exact .nil _
  | some t =>
      rw [Table.source?, sourceClause, Option.toList_some, List.flatMap_singleton]
      exact (t.shows d).left _

/-- The table of a join in front of its conditions. -/
theorem Join.shows (j : Join) : Shows d j.mentions (j.source d).reference := by
  obtain ⟨kind, table, conditions⟩ := j
  rw [Join.source]
  refine ((table.shows d).left _).append ?_
  cases conditions with
  | nil =>
      rw [Predicate.mentionsAll]
      exact .nil _
  | cons p ps => exact (Shows.group false .and (Predicate.shows_all d [] (p :: ps))).left _

theorem Join.shows_all (js : List Join) :
    List.Forall₂ (Shows d) (js.map Join.mentions) ((Join.sources d js).map (·.reference)) := by
  induction js with
  | nil => rw [Join.sources]; exact .nil
  | cons j js ih => rw [Join.sources]; exact .cons (j.shows d) ih

theorem Join.shows_clause (js : List Join) :
    Shows d (js.flatMap Join.mentions) (joinsClause (Join.sources d js)) := by
  rw [List.flatMap_def, joinsClause, Join.sources_isEmpty]
  cases js with
  | nil => exact .nil _
  | cons j js => exact (Shows.separated " " (Join.shows_all d (j :: js))).left _

end Clauses

mutual

/-- A select without its WITH clause shows its mentions clause by clause, those of its members in
front of ORDER BY. -/
theorem Select.shows (d : Dialect) : ∀ s : Select, Shows d s.mentions (s.compound d).body
  | { dialect := _, asName := _, ctes, distinct, distinctOn, fields, source, joins, conditions,
      groupBy, having, orderBy, limit, offset, members } => by
    rw [Select.mentions, Select.compound, Compound.body]
    refine ((((((((Shows.left _ (Field.shows_distinct d distinct distinctOn)).append
      (Field.shows_selectList d fields)).append (Table.shows_sourceClause d _ source)).append
      (Join.shows_clause d joins)).append (Predicate.shows_clause d _ conditions)).append
      (Field.shows_listClause d _ [] groupBy)).append (Predicate.shows_clause d _ having)).append
      (Member.shows_all d members)).append ?_
    exact ((Field.shows_listClause d _ [] orderBy).right _).right _

theorem Member.shows_all (d : Dialect) : ∀ ms : List Member,
    Shows d (Member.mentionsAll ms) (Compound.bodyAll (Member.compounds d ms))
  | [] => by rw [Member.mentionsAll]; exact .nil _
  | ⟨operator, query⟩ :: rest => by
      rw [Member.mentionsAll, Member.compounds, Compound.bodyAll]
      refine .append (.left _ ?_) (Member.shows_all d rest)
      split
      · exact query.shows d
      · exact (query.shows d).parenthesized

end

section Changes

variable (d : Dialect)

/-- A target without name is written NULL and mentions nothing. -/
theorem BaseTable.shows_target (t : BaseTable) :
    Shows d (t.mentions (Table.base t).asName?) (targetReference t) := by
  rw [BaseTable.mentions, targetReference]
  split
  · exact .nil _
  · exact (Table.base t).shows d

/-- The name after AS is mentioned only for PostgreSQL. -/
theorem BaseTable.shows_insertTarget (t : BaseTable) :
    Shows d (t.mentions (if d = .postgres then (Table.base t).asName? else none))
      (insertTarget d t) := by
  rw [BaseTable.mentions, insertTarget]
  split
  · exact .nil _
  · split
    · exact (Table.base t).shows d
    · exact .mention (.reference (.base t) none)

/-- With USING, the targets of a deletion in MySQL repeat names that are introduced there. -/
theorem BaseTable.shows_deleteTargets (hasUsing : Bool) (ts : List BaseTable) :
    Shows d
      (if d = .mysql && hasUsing then []
        else ts.flatMap fun t => t.mentions (Table.base t).asName?)
      (deleteTargets d hasUsing ts) := by
  -- Targets without name mention nothing, and they are not written.
  have hnamed : (ts.flatMap fun t => t.mentions (Table.base t).asName?) =
      ((ts.filter fun t => !t.name.isEmpty).map fun t => (Table.base t).mentions).flatten := by
    induction ts with
    | nil => rfl
    | cons t ts ih =>
        rw [List.flatMap_cons, ih, BaseTable.mentions, List.filter_cons]
        split <;> simp_all [Table.mentions]
  have hreferences (named : List BaseTable) :
      List.Forall₂ (Shows d) (named.map fun t => (Table.base t).mentions)
        (named.map BaseTable.reference) := by
    rw [List.forall₂_map_left_iff, List.forall₂_map_right_iff]
    exact List.forall₂_same.mpr fun t _ => (Table.base t).shows d
  rw [hnamed, deleteTargets]
  cases hhidden : (d = .mysql && hasUsing : Bool) with
  | true => exact .nil _
  | false =>
      rw [if_neg Bool.false_ne_true]
      cases ts.filter fun t => !t.name.isEmpty with
      | nil => exact .nil _
      | cons t named => exact Shows.separated ", " (hreferences (t :: named))

theorem Arg.shows_rows (rows : List (List Arg)) :
    List.Forall₂ (Shows d) (rows.map fun row => row.flatMap (·.mentions []))
      (Arg.renderRows d rows) := by
  induction rows with
  | nil => rw [Arg.renderRows]; exact .nil
  | cons row rows ih =>
      rw [Arg.renderRows, List.map_cons, List.flatMap_def, ← Arg.mentionsAll_eq_map]
      exact .cons (Shows.separated ", " (Arg.shows_all d [] row)).parenthesized ih

/-- The select of an insertion shows nothing if there are rows. -/
theorem Insert.shows_content (rows : List (List Arg)) (source : Option Select) :
    Shows d
      (if rows.isEmpty then source.toList.flatMap Select.mentions
        else rows.flatMap fun row => row.flatMap (·.mentions []))
      (if !rows.isEmpty then text " VALUES " ++ Fragment.separated ", " (Arg.renderRows d rows)
        else if source.isSome then text " " ++ Select.render? d source
        else []) := by
  cases rows with
  | cons row rows =>
      rw [if_neg (by simp), if_pos (by simp), List.flatMap_def]
      exact (Shows.separated ", " (Arg.shows_rows d (row :: rows))).left _
  | nil =>
      cases source with
      | none => exact .nil _
      | some s =>
          rw [if_pos (by simp), if_neg (by simp), if_pos (by simp), Select.render?,
            Option.toList_some, List.flatMap_singleton, Compound.render]
          exact ((s.shows d).left _).left _

/-- The conditions on the assignments come last. -/
theorem Conflict.shows (excluded : List String) (resolution : List Predicate)
    (c : Option Conflict) :
    Shows d (c.toList.flatMap (Conflict.mentions excluded resolution))
      (Conflict.render? d excluded
        (Condition.clause "WHERE" (Predicate.toConditions d [] resolution)) c) := by
  cases c with
  | none => exact .nil _
  | some c =>
      obtain ⟨fields, constraint, conditions, assignments⟩ := c
      rw [Option.toList_some, List.flatMap_singleton, Conflict.mentions]
      have hfields : Shows d (fields.flatMap (·.mentions excluded))
          (if !fields.isEmpty then
            text " " ++
              (Fragment.separated ", " (Field.renderAll d excluded fields)).parenthesized
          else if !constraint.isEmpty then text " ON CONSTRAINT " ++ ident constraint
          else []) := by
        rw [List.flatMap_def]
        cases fields with
        | nil => exact .nil _
        | cons f fs =>
            exact (Shows.separated ", " (Field.shows_all d excluded (f :: fs))).parenthesized.left _
      cases assignments with
      | none =>
          rw [Conflict.render?]
          exact ((hfields.left _).append (Predicate.shows_clause d _ conditions)).append (.nil _)
      | some set =>
          have hset : Shows d (set.flatMap (·.mentions excluded))
              (Fragment.separated ", " (Assignment.renderAll d excluded set)) := by
            rw [List.flatMap_def]
            exact Shows.separated ", " (Assignment.shows_all d excluded set)
          rw [Conflict.render?, Option.toList_some, List.flatMap_singleton]
          exact ((hfields.left _).append (Predicate.shows_clause d _ conditions)).append
            ((hset.left _).append (Predicate.shows_clause d _ resolution))

/-- An insertion shows its mentions clause by clause. -/
theorem Insert.shows (s : Insert) : Shows d (s.mentions d) (s.render d) := by
  obtain ⟨-, -, ctes, ignore, target, columns, rows, source, conflict, resolution, onDuplicate,
    returning⟩ := s
  rw [Insert.render, Insert.mentions]
  refine (((((Shows.left _ (target.shows_insertTarget d)).append ?_).append
    (Insert.shows_content d rows source)).append
    (Conflict.shows d _ resolution conflict)).append
    (Assignment.shows_listClause d _ _ onDuplicate)).append (Field.shows_returning d returning)
  rw [List.flatMap_def]
  cases columns with
  | nil => exact .nil _
  | cons f fs => exact (Shows.separated ", " (Field.shows_all d _ (f :: fs))).parenthesized.left _

/-- An update shows its joins on one side of SET or the other. -/
theorem Update.shows (s : Update) : Shows d (s.mentions d) (s.render d) := by
  obtain ⟨-, -, ctes, target, assignments, source, joins, conditions, orderBy, limit,
    returning⟩ := s
  rw [Update.render, Update.mentions, Join.sources_isEmpty]
  refine (((((((Shows.left _ (target.shows_target d)).append ?_).append
    (Assignment.shows_listClause d _ _ assignments)).append ?_).append
    (Predicate.shows_clause d _ conditions)).append
    (Field.shows_listClause d _ [] orderBy)).right _).append (Field.shows_returning d returning)
  · split
    · exact Join.shows_clause d joins
    · exact .nil _
  · split
    · exact (Table.shows_sourceClause d _ source).append (Join.shows_clause d joins)
    · exact .nil _

/-- A deletion shows its mentions clause by clause. -/
theorem Delete.shows (s : Delete) : Shows d (s.mentions d) (s.render d) := by
  obtain ⟨-, -, ctes, targets, source, joins, conditions, orderBy, limit, returning⟩ := s
  rw [Delete.render, Delete.mentions, Table.source?_isSome]
  exact ((((((Shows.left _ (BaseTable.shows_deleteTargets d source.isSome targets)).append
    (Table.shows_sourceClause d _ source)).append (Join.shows_clause d joins)).append
    (Predicate.shows_clause d _ conditions)).append
    (Field.shows_listClause d _ [] orderBy)).right _).append (Field.shows_returning d returning)

/-- The mentions of every statement stand in its text in their order. -/
theorem Query.shows (q : Query) : Shows d (q.mentions d) (q.render d) := by
  cases q with
  | select s =>
      rw [Query.render, Compound.render]
      exact (s.shows d).left _
  | insert s => rw [Query.render]; exact s.shows d
  | update s => rw [Query.render]; exact s.shows d
  | delete s => rw [Query.render]; exact s.shows d

end Changes

end BoundSql.Sql
