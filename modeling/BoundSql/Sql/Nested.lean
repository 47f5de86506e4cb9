import BoundSql.Sql.Tree

/-!
# Nested statements

A statement can stand inside another one as a subquery, as the body of a common table, as the source
of an insertion or as a member of a set operation. Each of them stores the dialect that it was
started in.
-/
namespace BoundSql.Sql

mutual

/-- The statements inside, at any depth. -/
def Arg.nested : Arg → List Query
  | .value _ => []
  | .field f => f.nested
  | .query q => q :: q.nested
  | .list _ => []

def Arg.nestedAll : List Arg → List Query
  | [] => []
  | a :: rest => a.nested ++ Arg.nestedAll rest

def Arg.nestedRows : List (List Arg) → List Query
  | [] => []
  | row :: rest => Arg.nestedAll row ++ Arg.nestedRows rest

/-- A field nests what its arguments nest; a predicate that stands as a field is looked into. -/
def Field.nested : Field → List Query
  | .plain _ _ => []
  | .derived _ args _ => Arg.nestedAll args
  | .verbatim _ => []
  | .condition p => p.nested

def Field.nestedAll : List Field → List Query
  | [] => []
  | f :: rest => f.nested ++ Field.nestedAll rest

def Predicate.nested : Predicate → List Query
  | .template _ _ args _ => Arg.nestedAll args
  | .group _ _ members _ => Predicate.nestedAll members
  | .flag _ _ _ => []

def Predicate.nestedAll : List Predicate → List Query
  | [] => []
  | p :: rest => p.nested ++ Predicate.nestedAll rest

def Assignment.nested : Assignment → List Query
  | ⟨target, value⟩ => target.nested ++ value.nested

def Assignment.nestedAll : List Assignment → List Query
  | [] => []
  | a :: rest => a.nested ++ Assignment.nestedAll rest

/-- A common table nests its query, since its definition stands in the WITH clause. -/
def Table.nested : Table → List Query
  | .base _ => []
  | .query q => q :: q.nested
  | .common c => c.nested

def Table.nested? : Option Table → List Query
  | none => []
  | some t => t.nested

def CommonTable.nested : CommonTable → List Query
  | ⟨_, _, _, query⟩ => query :: query.nested

def CommonTable.nestedAll : List CommonTable → List Query
  | [] => []
  | c :: rest => c.nested ++ CommonTable.nestedAll rest

def Join.nested : Join → List Query
  | ⟨_, table, conditions⟩ => table.nested ++ Predicate.nestedAll conditions

def Join.nestedAll : List Join → List Query
  | [] => []
  | j :: rest => j.nested ++ Join.nestedAll rest

def Select.nested : Select → List Query
  | { dialect := _, asName := _, ctes, distinct := _, distinctOn, fields, source, joins,
      conditions, groupBy, having, orderBy, limit := _, offset := _, members } =>
    CommonTable.nestedAll ctes ++ Field.nestedAll distinctOn ++ Field.nestedAll fields
      ++ Table.nested? source ++ Join.nestedAll joins ++ Predicate.nestedAll conditions
      ++ Field.nestedAll groupBy ++ Predicate.nestedAll having ++ Field.nestedAll orderBy
      ++ Member.nestedAll members

/-- A member is a statement of its own, with its own dialect. -/
def Member.nestedAll : List Member → List Query
  | [] => []
  | ⟨_, query⟩ :: rest => (.select query :: query.nested) ++ Member.nestedAll rest

def Select.nested? : Option Select → List Query
  | none => []
  | some s => .select s :: s.nested

def Assignment.nested? : Option (List Assignment) → List Query
  | none => []
  | some set => Assignment.nestedAll set

def Conflict.nested? : Option Conflict → List Query
  | none => []
  | some ⟨fields, _, conditions, assignments⟩ =>
      Field.nestedAll fields ++ Predicate.nestedAll conditions ++ Assignment.nested? assignments

def Insert.nested : Insert → List Query
  | { dialect := _, asName := _, ctes, ignore := _, target := _, columns, rows, source, conflict,
      resolution, onDuplicate, returning } =>
    CommonTable.nestedAll ctes ++ Field.nestedAll columns ++ Arg.nestedRows rows
      ++ Select.nested? source ++ Conflict.nested? conflict ++ Predicate.nestedAll resolution
      ++ Assignment.nestedAll onDuplicate ++ Field.nestedAll returning

def Update.nested : Update → List Query
  | { dialect := _, asName := _, ctes, target := _, assignments, source, joins, conditions,
      orderBy, limit := _, returning } =>
    CommonTable.nestedAll ctes ++ Assignment.nestedAll assignments ++ Table.nested? source
      ++ Join.nestedAll joins ++ Predicate.nestedAll conditions ++ Field.nestedAll orderBy
      ++ Field.nestedAll returning

def Delete.nested : Delete → List Query
  | { dialect := _, asName := _, ctes, targets := _, source, joins, conditions, orderBy,
      limit := _, returning } =>
    CommonTable.nestedAll ctes ++ Table.nested? source ++ Join.nestedAll joins
      ++ Predicate.nestedAll conditions ++ Field.nestedAll orderBy ++ Field.nestedAll returning

/-- All queries nested in a statement, at any depth. -/
def Query.nested : Query → List Query
  | .select s => s.nested
  | .insert s => s.nested
  | .update s => s.nested
  | .delete s => s.nested

end

/-- A statement and those inside it. -/
def Query.statements (q : Query) : List Query := q :: q.nested

/-- The statement in another dialect; those inside it keep theirs. -/
def Query.startedIn (d : Dialect) : Query → Query
  | .select s => .select { s with dialect := d }
  | .insert s => .insert { s with dialect := d }
  | .update s => .update { s with dialect := d }
  | .delete s => .delete { s with dialect := d }

section Recast

variable (d : Dialect)

mutual

/-- Every statement in one dialect, at any depth. -/
def Arg.recast : Arg → Arg
  | .value v => .value v
  | .field f => .field f.recast
  | .query q => .query q.recast
  | .list vs => .list vs

def Arg.recastAll : List Arg → List Arg
  | [] => []
  | a :: rest => a.recast :: Arg.recastAll rest

def Arg.recastRows : List (List Arg) → List (List Arg)
  | [] => []
  | row :: rest => Arg.recastAll row :: Arg.recastRows rest

/-- Only queries store a dialect; terms, templates and names stay as they are. -/
def Field.recast : Field → Field
  | .plain term marks => .plain term marks
  | .derived template args marks => .derived template (Arg.recastAll args) marks
  | .verbatim sql => .verbatim sql
  | .condition p => .condition p.recast

def Field.recastAll : List Field → List Field
  | [] => []
  | f :: rest => f.recast :: Field.recastAll rest

def Predicate.recast : Predicate → Predicate
  | .template negated template args asName =>
      .template negated template (Arg.recastAll args) asName
  | .group negated connective members asName =>
      .group negated connective (Predicate.recastAll members) asName
  | .flag negated term marks => .flag negated term marks

def Predicate.recastAll : List Predicate → List Predicate
  | [] => []
  | p :: rest => p.recast :: Predicate.recastAll rest

def Assignment.recast : Assignment → Assignment
  | ⟨target, value⟩ => ⟨target.recast, value.recast⟩

def Assignment.recastAll : List Assignment → List Assignment
  | [] => []
  | a :: rest => a.recast :: Assignment.recastAll rest

def Table.recast : Table → Table
  | .base t => .base t
  | .query q => .query q.recast
  | .common c => .common c.recast

def Table.recast? : Option Table → Option Table
  | none => none
  | some t => some t.recast

def CommonTable.recast : CommonTable → CommonTable
  | ⟨name, asName, recursive, query⟩ => ⟨name, asName, recursive, query.recast⟩

def CommonTable.recastAll : List CommonTable → List CommonTable
  | [] => []
  | c :: rest => c.recast :: CommonTable.recastAll rest

def Join.recast : Join → Join
  | ⟨kind, table, conditions⟩ => ⟨kind, table.recast, Predicate.recastAll conditions⟩

def Join.recastAll : List Join → List Join
  | [] => []
  | j :: rest => j.recast :: Join.recastAll rest

/-- A select with its own dialect replaced, and those of all queries in it. -/
def Select.recast : Select → Select
  | { dialect := _, asName, ctes, distinct, distinctOn, fields, source, joins, conditions,
      groupBy, having, orderBy, limit, offset, members } =>
    { dialect := d, asName, ctes := CommonTable.recastAll ctes, distinct
      distinctOn := Field.recastAll distinctOn, fields := Field.recastAll fields
      source := Table.recast? source, joins := Join.recastAll joins
      conditions := Predicate.recastAll conditions, groupBy := Field.recastAll groupBy
      having := Predicate.recastAll having, orderBy := Field.recastAll orderBy, limit, offset
      members := Member.recastAll members }

def Member.recastAll : List Member → List Member
  | [] => []
  | ⟨operator, query⟩ :: rest => ⟨operator, query.recast⟩ :: Member.recastAll rest

def Select.recast? : Option Select → Option Select
  | none => none
  | some s => some s.recast

def Assignment.recast? : Option (List Assignment) → Option (List Assignment)
  | none => none
  | some set => some (Assignment.recastAll set)

def Conflict.recast? : Option Conflict → Option Conflict
  | none => none
  | some ⟨fields, constraint, conditions, assignments⟩ =>
      some ⟨Field.recastAll fields, constraint, Predicate.recastAll conditions,
        Assignment.recast? assignments⟩

def Insert.recast : Insert → Insert
  | { dialect := _, asName, ctes, ignore, target, columns, rows, source, conflict, resolution,
      onDuplicate, returning } =>
    { dialect := d, asName, ctes := CommonTable.recastAll ctes, ignore, target
      columns := Field.recastAll columns, rows := Arg.recastRows rows
      source := Select.recast? source, conflict := Conflict.recast? conflict
      resolution := Predicate.recastAll resolution
      onDuplicate := Assignment.recastAll onDuplicate, returning := Field.recastAll returning }

def Update.recast : Update → Update
  | { dialect := _, asName, ctes, target, assignments, source, joins, conditions, orderBy, limit,
      returning } =>
    { dialect := d, asName, ctes := CommonTable.recastAll ctes, target
      assignments := Assignment.recastAll assignments, source := Table.recast? source
      joins := Join.recastAll joins, conditions := Predicate.recastAll conditions
      orderBy := Field.recastAll orderBy, limit, returning := Field.recastAll returning }

def Delete.recast : Delete → Delete
  | { dialect := _, asName, ctes, targets, source, joins, conditions, orderBy, limit,
      returning } =>
    { dialect := d, asName, ctes := CommonTable.recastAll ctes, targets
      source := Table.recast? source, joins := Join.recastAll joins
      conditions := Predicate.recastAll conditions, orderBy := Field.recastAll orderBy, limit
      returning := Field.recastAll returning }

/-- The same statement built in another dialect, down to the queries nested in it. -/
def Query.recast : Query → Query
  | .select s => .select s.recast
  | .insert s => .insert s.recast
  | .update s => .update s.recast
  | .delete s => .delete s.recast

end

mutual

/-- Recasting a statement recasts what is nested in it; by induction on the tree, one case per
constructor. -/
theorem Arg.nested_recast : ∀ a : Arg, (a.recast d).nested = a.nested.map (Query.recast d)
  | .value v => by rw [Arg.recast, Arg.nested, List.map_nil]
  | .field f => by rw [Arg.recast, Arg.nested, Arg.nested, Field.nested_recast f]
  | .query q => by
      rw [Arg.recast, Arg.nested, Arg.nested, List.map_cons, Query.nested_recast q]
  | .list vs => by rw [Arg.recast, Arg.nested, List.map_nil]

theorem Arg.nestedAll_recast : ∀ as : List Arg,
    Arg.nestedAll (Arg.recastAll d as) = (Arg.nestedAll as).map (Query.recast d)
  | [] => by rw [Arg.recastAll, Arg.nestedAll, List.map_nil]
  | a :: rest => by
      rw [Arg.recastAll, Arg.nestedAll, Arg.nestedAll, List.map_append, Arg.nested_recast a,
        Arg.nestedAll_recast rest]

theorem Arg.nestedRows_recast : ∀ rows : List (List Arg),
    Arg.nestedRows (Arg.recastRows d rows) = (Arg.nestedRows rows).map (Query.recast d)
  | [] => by rw [Arg.recastRows, Arg.nestedRows, List.map_nil]
  | row :: rest => by
      rw [Arg.recastRows, Arg.nestedRows, Arg.nestedRows, List.map_append,
        Arg.nestedAll_recast row, Arg.nestedRows_recast rest]

theorem Field.nested_recast : ∀ f : Field, (f.recast d).nested = f.nested.map (Query.recast d)
  | .plain term marks => by rw [Field.recast, Field.nested, List.map_nil]
  | .derived template args marks => by
      rw [Field.recast, Field.nested, Field.nested, Arg.nestedAll_recast args]
  | .verbatim sql => by rw [Field.recast, Field.nested, List.map_nil]
  | .condition p => by rw [Field.recast, Field.nested, Field.nested, Predicate.nested_recast p]

theorem Field.nestedAll_recast : ∀ fs : List Field,
    Field.nestedAll (Field.recastAll d fs) = (Field.nestedAll fs).map (Query.recast d)
  | [] => by rw [Field.recastAll, Field.nestedAll, List.map_nil]
  | f :: rest => by
      rw [Field.recastAll, Field.nestedAll, Field.nestedAll, List.map_append,
        Field.nested_recast f, Field.nestedAll_recast rest]

theorem Predicate.nested_recast : ∀ p : Predicate,
    (p.recast d).nested = p.nested.map (Query.recast d)
  | .template negated template args asName => by
      rw [Predicate.recast, Predicate.nested, Predicate.nested, Arg.nestedAll_recast args]
  | .group negated connective members asName => by
      rw [Predicate.recast, Predicate.nested, Predicate.nested,
        Predicate.nestedAll_recast members]
  | .flag negated term marks => by rw [Predicate.recast, Predicate.nested, List.map_nil]

theorem Predicate.nestedAll_recast : ∀ ps : List Predicate,
    Predicate.nestedAll (Predicate.recastAll d ps) =
      (Predicate.nestedAll ps).map (Query.recast d)
  | [] => by rw [Predicate.recastAll, Predicate.nestedAll, List.map_nil]
  | p :: rest => by
      rw [Predicate.recastAll, Predicate.nestedAll, Predicate.nestedAll, List.map_append,
        Predicate.nested_recast p, Predicate.nestedAll_recast rest]

theorem Assignment.nested_recast : ∀ a : Assignment,
    (a.recast d).nested = a.nested.map (Query.recast d)
  | ⟨target, value⟩ => by
      rw [Assignment.recast, Assignment.nested, Assignment.nested, List.map_append,
        Field.nested_recast target, Arg.nested_recast value]

theorem Assignment.nestedAll_recast : ∀ set : List Assignment,
    Assignment.nestedAll (Assignment.recastAll d set) =
      (Assignment.nestedAll set).map (Query.recast d)
  | [] => by rw [Assignment.recastAll, Assignment.nestedAll, List.map_nil]
  | a :: rest => by
      rw [Assignment.recastAll, Assignment.nestedAll, Assignment.nestedAll, List.map_append,
        Assignment.nested_recast a, Assignment.nestedAll_recast rest]

theorem Table.nested_recast : ∀ t : Table, (t.recast d).nested = t.nested.map (Query.recast d)
  | .base t => by rw [Table.recast, Table.nested, List.map_nil]
  | .query q => by
      rw [Table.recast, Table.nested, Table.nested, List.map_cons, Query.nested_recast q]
  | .common c => by rw [Table.recast, Table.nested, Table.nested, CommonTable.nested_recast c]

theorem Table.nested?_recast : ∀ t : Option Table,
    Table.nested? (Table.recast? d t) = (Table.nested? t).map (Query.recast d)
  | none => by rw [Table.recast?, Table.nested?, List.map_nil]
  | some t => by rw [Table.recast?, Table.nested?, Table.nested?, Table.nested_recast t]

theorem CommonTable.nested_recast : ∀ c : CommonTable,
    (c.recast d).nested = c.nested.map (Query.recast d)
  | ⟨name, asName, recursive, query⟩ => by
      rw [CommonTable.recast, CommonTable.nested, CommonTable.nested, List.map_cons,
        Query.nested_recast query]

theorem CommonTable.nestedAll_recast : ∀ cs : List CommonTable,
    CommonTable.nestedAll (CommonTable.recastAll d cs) =
      (CommonTable.nestedAll cs).map (Query.recast d)
  | [] => by rw [CommonTable.recastAll, CommonTable.nestedAll, List.map_nil]
  | c :: rest => by
      rw [CommonTable.recastAll, CommonTable.nestedAll, CommonTable.nestedAll, List.map_append,
        CommonTable.nested_recast c, CommonTable.nestedAll_recast rest]

theorem Join.nested_recast : ∀ j : Join, (j.recast d).nested = j.nested.map (Query.recast d)
  | ⟨kind, table, conditions⟩ => by
      rw [Join.recast, Join.nested, Join.nested, List.map_append, Table.nested_recast table,
        Predicate.nestedAll_recast conditions]

theorem Join.nestedAll_recast : ∀ js : List Join,
    Join.nestedAll (Join.recastAll d js) = (Join.nestedAll js).map (Query.recast d)
  | [] => by rw [Join.recastAll, Join.nestedAll, List.map_nil]
  | j :: rest => by
      rw [Join.recastAll, Join.nestedAll, Join.nestedAll, List.map_append, Join.nested_recast j,
        Join.nestedAll_recast rest]

/-- Every clause of a select keeps its queries in their places. -/
theorem Select.nested_recast : ∀ s : Select, (s.recast d).nested = s.nested.map (Query.recast d)
  | { dialect, asName, ctes, distinct, distinctOn, fields, source, joins, conditions, groupBy,
      having, orderBy, limit, offset, members } => by
      simp only [Select.recast, Select.nested, List.map_append,
        CommonTable.nestedAll_recast ctes, Field.nestedAll_recast distinctOn,
        Field.nestedAll_recast fields, Table.nested?_recast source, Join.nestedAll_recast joins,
        Predicate.nestedAll_recast conditions, Field.nestedAll_recast groupBy,
        Predicate.nestedAll_recast having, Field.nestedAll_recast orderBy,
        Member.nestedAll_recast members]

theorem Member.nestedAll_recast : ∀ ms : List Member,
    Member.nestedAll (Member.recastAll d ms) = (Member.nestedAll ms).map (Query.recast d)
  | [] => by rw [Member.recastAll, Member.nestedAll, List.map_nil]
  | ⟨operator, query⟩ :: rest => by
      rw [Member.recastAll, Member.nestedAll, Member.nestedAll, List.map_append, List.map_cons,
        Query.recast, Select.nested_recast query, Member.nestedAll_recast rest]

theorem Select.nested?_recast : ∀ s : Option Select,
    Select.nested? (Select.recast? d s) = (Select.nested? s).map (Query.recast d)
  | none => by rw [Select.recast?, Select.nested?, List.map_nil]
  | some s => by
      rw [Select.recast?, Select.nested?, Select.nested?, List.map_cons, Query.recast,
        Select.nested_recast s]

theorem Assignment.nested?_recast : ∀ set : Option (List Assignment),
    Assignment.nested? (Assignment.recast? d set) =
      (Assignment.nested? set).map (Query.recast d)
  | none => by rw [Assignment.recast?, Assignment.nested?, List.map_nil]
  | some set => by
      rw [Assignment.recast?, Assignment.nested?, Assignment.nested?,
        Assignment.nestedAll_recast set]

theorem Conflict.nested?_recast : ∀ c : Option Conflict,
    Conflict.nested? (Conflict.recast? d c) = (Conflict.nested? c).map (Query.recast d)
  | none => by rw [Conflict.recast?, Conflict.nested?, List.map_nil]
  | some ⟨fields, constraint, conditions, assignments⟩ => by
      rw [Conflict.recast?, Conflict.nested?, Conflict.nested?, List.map_append, List.map_append,
        Field.nestedAll_recast fields, Predicate.nestedAll_recast conditions,
        Assignment.nested?_recast assignments]

theorem Insert.nested_recast : ∀ s : Insert, (s.recast d).nested = s.nested.map (Query.recast d)
  | { dialect, asName, ctes, ignore, target, columns, rows, source, conflict, resolution,
      onDuplicate, returning } => by
      simp only [Insert.recast, Insert.nested, List.map_append,
        CommonTable.nestedAll_recast ctes, Field.nestedAll_recast columns,
        Arg.nestedRows_recast rows, Select.nested?_recast source, Conflict.nested?_recast conflict,
        Predicate.nestedAll_recast resolution, Assignment.nestedAll_recast onDuplicate,
        Field.nestedAll_recast returning]

theorem Update.nested_recast : ∀ s : Update, (s.recast d).nested = s.nested.map (Query.recast d)
  | { dialect, asName, ctes, target, assignments, source, joins, conditions, orderBy, limit,
      returning } => by
      simp only [Update.recast, Update.nested, List.map_append,
        CommonTable.nestedAll_recast ctes, Assignment.nestedAll_recast assignments,
        Table.nested?_recast source, Join.nestedAll_recast joins,
        Predicate.nestedAll_recast conditions, Field.nestedAll_recast orderBy,
        Field.nestedAll_recast returning]

theorem Delete.nested_recast : ∀ s : Delete, (s.recast d).nested = s.nested.map (Query.recast d)
  | { dialect, asName, ctes, targets, source, joins, conditions, orderBy, limit, returning } => by
      simp only [Delete.recast, Delete.nested, List.map_append,
        CommonTable.nestedAll_recast ctes, Table.nested?_recast source,
        Join.nestedAll_recast joins, Predicate.nestedAll_recast conditions,
        Field.nestedAll_recast orderBy, Field.nestedAll_recast returning]

/-- The queries nested in a recast statement are the recast ones. -/
theorem Query.nested_recast : ∀ q : Query, (q.recast d).nested = q.nested.map (Query.recast d)
  | .select s => by rw [Query.recast, Query.nested, Query.nested, Select.nested_recast s]
  | .insert s => by rw [Query.recast, Query.nested, Query.nested, Insert.nested_recast s]
  | .update s => by rw [Query.recast, Query.nested, Query.nested, Update.nested_recast s]
  | .delete s => by rw [Query.recast, Query.nested, Query.nested, Delete.nested_recast s]

end

/-- A recast statement has the dialect it was recast to. -/
theorem Query.dialect_recast (q : Query) : (q.recast d).dialect = d := by
  cases q with
  | select s => cases s; rw [Query.recast, Select.recast]; rfl
  | insert s => cases s; rw [Query.recast, Insert.recast]; rfl
  | update s => cases s; rw [Query.recast, Update.recast]; rfl
  | delete s => cases s; rw [Query.recast, Delete.recast]; rfl

/-- No stored dialect is left. -/
theorem Query.dialect_of_mem_statements {q s : Query} (h : s ∈ (q.recast d).statements) :
    s.dialect = d := by
  rw [statements, nested_recast, List.mem_cons] at h
  obtain rfl | h := h
  · exact q.dialect_recast d
  · obtain ⟨p, -, rfl⟩ := List.mem_map.mp h
    exact p.dialect_recast d

end Recast

end BoundSql.Sql
