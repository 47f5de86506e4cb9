import BoundSql.Proofs.Mentions
import BoundSql.Proofs.WithClause
import BoundSql.Sql.Field

/-!
# Qualifiers

A column takes its qualifier from its table when it is made, but it is the reference to the table
that says what the table is called in a statement. The two agree wherever the table's name after AS
is written. MySQL has no place for that name behind the target of an insertion; the columns that are
inserted or assigned go without qualifier there, and all others keep one that nothing introduces.
The same holds of the columns of a table that a statement is given and does not write, such as the
source of an update in MySQL.
-/
namespace BoundSql.Sql

open Fragment (text ident)

/-- Every reference among the mentions writes the name after AS that its table has. -/
def Complete (ms : List Mention) : Prop :=
  ∀ (t : Table) (asName : Option String), .reference t asName ∈ ms → asName = t.asName?

namespace Complete

variable {ms ns : List Mention} {mss : List (List Mention)}

theorem nil : Complete [] := fun _ _ h => by cases h

theorem column (excluded : List String) (qualifier name : String) :
    Complete [.column excluded qualifier name] := fun _ _ h => by
  cases List.mem_singleton.mp h

theorem reference (t : Table) : Complete [.reference t t.asName?] := fun _ _ h => by
  cases List.mem_singleton.mp h
  rfl

/-- It is enough that the parts are complete, since mentions of a whole are those of its parts. -/
theorem append (h : Complete ms) (h' : Complete ns) : Complete (ms ++ ns) := fun t asName hmem =>
  (List.mem_append.mp hmem).elim (h t asName) (h' t asName)

theorem flatten (h : ∀ ms ∈ mss, Complete ms) : Complete mss.flatten := fun t asName hmem => by
  obtain ⟨ms, hms, hmem⟩ := List.mem_flatten.mp hmem
  exact h ms hms t asName hmem

theorem flatMap {α : Type} {f : α → List Mention} (h : ∀ x, Complete (f x)) (xs : List α) :
    Complete (xs.flatMap f) := by
  rw [List.flatMap_def]
  exact flatten (List.forall_mem_map.mpr fun x _ => h x)

/-- Arguments behind the last slot are not written, so they do not matter. -/
theorem expanded (template : String) (h : ∀ ms ∈ mss, Complete ms) :
    Complete (Template.mentions template mss) :=
  flatten fun ms hms => h ms (List.mem_of_mem_take hms)

end Complete

section Written

variable (excluded : List String)

/-- Terms, arguments, fields and predicates refer to no table at all. -/
theorem Term.complete (t : Term) : Complete (t.mentions excluded) := by
  cases t with
  | literal v => exact .nil
  | column qualifier name => exact .column excluded qualifier name

mutual

theorem Arg.complete : ∀ a : Arg, Complete (a.mentions excluded)
  | .value v => by rw [Arg.mentions]; exact .nil
  | .field f => by rw [Arg.mentions]; exact f.complete
  | .query q => by rw [Arg.mentions]; exact .nil
  | .list vs => by rw [Arg.mentions]; exact .nil

theorem Arg.complete_all : ∀ as : List Arg, ∀ ms ∈ Arg.mentionsAll excluded as, Complete ms
  | [] => by rw [Arg.mentionsAll]; simp
  | a :: rest => by
      rw [Arg.mentionsAll, List.forall_mem_cons]
      exact ⟨a.complete, Arg.complete_all rest⟩

theorem Field.complete : ∀ f : Field, Complete (f.mentions excluded)
  | .plain term marks => by rw [Field.mentions]; exact term.complete excluded
  | .derived template args marks => by
      rw [Field.mentions]
      exact .expanded template (Arg.complete_all args)
  | .verbatim sql => by rw [Field.mentions]; exact .nil
  | .condition p => by rw [Field.mentions]; exact p.complete

theorem Predicate.complete : ∀ p : Predicate, Complete (p.mentions excluded)
  | .template negated template args _ => by
      rw [Predicate.mentions]
      exact .expanded template (Arg.complete_all args)
  | .group negated connective members _ => by
      rw [Predicate.mentions]
      exact .flatten (Predicate.complete_all members)
  | .flag negated term marks => by rw [Predicate.mentions]; exact term.complete excluded

theorem Predicate.complete_all : ∀ ps : List Predicate,
    ∀ ms ∈ Predicate.mentionsAll excluded ps, Complete ms
  | [] => by rw [Predicate.mentionsAll]; simp
  | p :: rest => by
      rw [Predicate.mentionsAll, List.forall_mem_cons]
      exact ⟨p.complete, Predicate.complete_all rest⟩

end

theorem Field.complete_flatMap (fs : List Field) : Complete (fs.flatMap (·.mentions excluded)) :=
  .flatMap (Field.complete excluded) fs

theorem Predicate.complete_flatMap (ps : List Predicate) :
    Complete (ps.flatMap (·.mentions excluded)) :=
  .flatMap (Predicate.complete excluded) ps

theorem Assignment.complete_flatMap (set : List Assignment) :
    Complete (set.flatMap (·.mentions excluded)) := by
  refine .flatMap (fun a => ?_) set
  obtain ⟨target, value⟩ := a
  exact (target.complete excluded).append (value.complete [])

end Written

theorem Table.complete_flatMap (ts : List Table) : Complete (ts.flatMap Table.mentions) :=
  .flatMap Complete.reference ts

theorem Join.complete_flatMap (js : List Join) : Complete (js.flatMap Join.mentions) := by
  refine .flatMap (fun j => ?_) js
  obtain ⟨-, table, conditions⟩ := j
  exact (Complete.reference table).append (.flatten (Predicate.complete_all [] conditions))

/-- A target without name has no reference. -/
theorem BaseTable.complete (t : BaseTable) : Complete (t.mentions (Table.base t).asName?) := by
  rw [BaseTable.mentions]
  split
  · exact .nil
  · exact .reference (.base t)

mutual

/-- FROM and joins write the name after AS that a table has. -/
theorem Select.complete : ∀ s : Select, Complete s.mentions
  | { dialect := _, asName := _, ctes := _, distinct := _, distinctOn, fields, source, joins,
      conditions, groupBy, having, orderBy, limit := _, offset := _, members } => by
    rw [Select.mentions]
    exact ((((((((Field.complete_flatMap [] distinctOn).append
      (Field.complete_flatMap [] fields)).append (Table.complete_flatMap source.toList)).append
      (Join.complete_flatMap joins)).append (Predicate.complete_flatMap [] conditions)).append
      (Field.complete_flatMap [] groupBy)).append (Predicate.complete_flatMap [] having)).append
      (Member.complete_all members)).append (Field.complete_flatMap [] orderBy)

theorem Member.complete_all : ∀ ms : List Member, Complete (Member.mentionsAll ms)
  | [] => by rw [Member.mentionsAll]; exact .nil
  | ⟨_, query⟩ :: rest => by
      rw [Member.mentionsAll]
      exact query.complete.append (Member.complete_all rest)

end

theorem Conflict.complete (excluded : List String) (resolution : List Predicate) (c : Conflict) :
    Complete (c.mentions excluded resolution) :=
  ((Field.complete_flatMap excluded c.fields).append
    (Predicate.complete_flatMap [] c.conditions)).append
    (.flatMap (fun set => (Assignment.complete_flatMap excluded set).append
      (Predicate.complete_flatMap [] resolution)) _)

/-- Behind its target, all references of an insertion write their names. -/
theorem Insert.exists_mentions (d : Dialect) (s : Insert) : ∃ rest, Complete rest ∧
    s.mentions d =
      s.target.mentions (if d = .postgres then (Table.base s.target).asName? else none) ++
        rest := by
  have hcontent : Complete
      (if s.rows.isEmpty then s.source.toList.flatMap Select.mentions
        else s.rows.flatMap fun row => row.flatMap (·.mentions [])) := by
    split
    · exact .flatMap Select.complete _
    · exact .flatMap (fun row => .flatMap (Arg.complete []) row) s.rows
  refine ⟨_, ((((Field.complete_flatMap [s.target.qualifier] s.columns).append hcontent).append
    (.flatMap (Conflict.complete [s.target.qualifier] s.resolution) s.conflict.toList)).append
    (Assignment.complete_flatMap [s.target.qualifier] s.onDuplicate)).append
    (Field.complete_flatMap [] s.returning), ?_⟩
  simp only [Insert.mentions, List.append_assoc]

/-- The target of an update keeps its name after AS in both dialects. -/
theorem Update.complete (d : Dialect) (s : Update) : Complete (s.mentions d) := by
  refine (((((s.target.complete.append ?_).append (Assignment.complete_flatMap _ _)).append
    ?_).append (Predicate.complete_flatMap [] _)).append (Field.complete_flatMap [] _)).append
    (Field.complete_flatMap [] _)
  · split
    · exact Join.complete_flatMap s.joins
    · exact .nil
  · split
    · exact (Table.complete_flatMap _).append (Join.complete_flatMap s.joins)
    · exact .nil

/-- In MySQL with USING the targets are no references; else they are written in full. -/
theorem Delete.complete (d : Dialect) (s : Delete) : Complete (s.mentions d) := by
  refine ((((Complete.append ?_ (Table.complete_flatMap _)).append
    (Join.complete_flatMap _)).append (Predicate.complete_flatMap [] _)).append
    (Field.complete_flatMap [] _)).append (Field.complete_flatMap [] _)
  split
  · exact .nil
  · exact .flatMap BaseTable.complete s.targets

/-- Only the target of an insertion into MySQL can be written without the name that it has. -/
theorem Query.asName_of_reference_mem {d : Dialect} {q : Query} {t : Table}
    {asName : Option String} (h : .reference t asName ∈ q.mentions d) :
    asName = t.asName? ∨
      d = .mysql ∧ asName = none ∧ ∃ s : Insert, q = .insert s ∧ t = .base s.target := by
  cases q with
  | select s => exact .inl (s.complete t asName h)
  | update s => exact .inl (s.complete d t asName h)
  | delete s => exact .inl (s.complete d t asName h)
  | insert s =>
      obtain ⟨rest, hrest, hmentions⟩ := s.exists_mentions d
      rw [Query.mentions, hmentions, List.mem_append] at h
      obtain htarget | h := h
      · cases d with
        | postgres => exact .inl (s.target.complete t asName htarget)
        | mysql =>
            rw [BaseTable.mentions] at htarget
            split at htarget
            · cases htarget
            · cases List.mem_singleton.mp htarget
              exact .inr ⟨rfl, rfl, s, rfl, rfl⟩
      · exact .inl (hrest t asName h)

/-- The tables that a statement is given outside of the queries nested in it. -/
def Query.given : Query → List Table
  | .select s => s.tables
  | .insert s => .base s.target :: s.source.toList.flatMap Select.tables
  | .update s => .base s.target :: (s.source.toList ++ s.joins.map (·.table))
  | .delete s => s.targets.map .base ++ (s.source.toList ++ s.joins.map (·.table))

/-- The statement has a place for the table and does not refer to the table there. -/
inductive Query.Drops (d : Dialect) : Query → Table → Prop where
  | insertTarget (s : Insert) (hname : s.target.name.isEmpty) :
      Drops d (.insert s) (.base s.target)
  /-- Rows win over a select. -/
  | insertSource (s : Insert) (t : Table) (hrows : s.rows.isEmpty = false)
      (ht : t ∈ s.source.toList.flatMap Select.tables) : Drops d (.insert s) t
  | updateTarget (s : Update) (hname : s.target.name.isEmpty) :
      Drops d (.update s) (.base s.target)
  /-- MySQL updates have no FROM. -/
  | updateSource (s : Update) (t : Table) (hd : d = .mysql) (ht : t ∈ s.source.toList) :
      Drops d (.update s) t
  /-- With USING, a deletion in MySQL repeats names that USING introduces. -/
  | deleteTarget (s : Delete) (t : BaseTable) (ht : t ∈ s.targets)
      (hplace : t.name.isEmpty ∨ d = .mysql ∧ s.source.isSome) : Drops d (.delete s) (.base t)

section Given

variable {d : Dialect} {t : Table}

/-- A table in FROM or USING has a reference. -/
theorem Table.reference_mem {ts : List Table} (h : t ∈ ts) :
    .reference t t.asName? ∈ ts.flatMap Table.mentions :=
  List.mem_flatMap.mpr ⟨t, h, List.mem_singleton.mpr rfl⟩

/-- A joined table has a reference. -/
theorem Join.reference_mem {js : List Join} (h : t ∈ js.map (·.table)) :
    .reference t t.asName? ∈ js.flatMap Join.mentions := by
  obtain ⟨⟨kind, table, conditions⟩, hj, rfl⟩ := List.mem_map.mp h
  exact List.mem_flatMap.mpr ⟨_, hj, List.mem_append_left _ (List.mem_singleton.mpr rfl)⟩

/-- A target with a name has a reference. -/
theorem BaseTable.reference_mem {b : BaseTable} (asName : Option String)
    (h : b.name.isEmpty = false) : .reference (.base b) asName ∈ b.mentions asName := by
  rw [BaseTable.mentions, h]
  exact List.mem_singleton.mpr rfl

mutual

/-- So has every table in FROM and joins of a select and of its members. -/
theorem Select.reference_mem : ∀ s : Select, t ∈ s.tables → .reference t t.asName? ∈ s.mentions
  | { dialect := _, asName := _, ctes := _, distinct := _, distinctOn, fields, source, joins,
      conditions, groupBy, having, orderBy, limit := _, offset := _, members }, h => by
    rw [Select.tables, List.mem_append, List.mem_append] at h
    simp only [Select.mentions, List.mem_append]
    obtain (hsource | hjoin) | hmember := h
    · exact .inl (.inl (.inl (.inl (.inl (.inl (.inr (Table.reference_mem hsource)))))))
    · exact .inl (.inl (.inl (.inl (.inl (.inr (Join.reference_mem hjoin))))))
    · exact .inl (.inr (Member.reference_mem members hmember))

theorem Member.reference_mem : ∀ ms : List Member,
    t ∈ Member.tables ms → .reference t t.asName? ∈ Member.mentionsAll ms
  | [], h => by
      rw [Member.tables] at h
      cases h
  | ⟨_, query⟩ :: rest, h => by
      rw [Member.tables, List.mem_append] at h
      rw [Member.mentionsAll, List.mem_append]
      exact h.imp (Select.reference_mem query) (Member.reference_mem rest)

end

/-- Rows win over a select, whose tables are dropped then. -/
theorem Insert.referred_or_dropped (s : Insert) (h : t ∈ (Query.insert s).given) :
    (∃ asName, .reference t asName ∈ s.mentions d) ∨ (Query.insert s).Drops d t := by
  rw [Query.given, List.mem_cons] at h
  simp only [Insert.mentions, List.mem_append]
  obtain rfl | hsource := h
  · cases hname : s.target.name.isEmpty with
    | true => exact .inr (.insertTarget s hname)
    | false =>
        have href := BaseTable.reference_mem
          (if d = .postgres then (Table.base s.target).asName? else none) hname
        exact .inl ⟨_, .inl (.inl (.inl (.inl (.inl href))))⟩
  · cases hrows : s.rows.isEmpty with
    | false => exact .inr (.insertSource s t hrows hsource)
    | true =>
        obtain ⟨select, hselect, ht⟩ := List.mem_flatMap.mp hsource
        have href := List.mem_flatMap.mpr ⟨select, hselect, select.reference_mem ht⟩
        exact .inl ⟨_, .inl (.inl (.inl (.inr href)))⟩

/-- In MySQL the source of an update is dropped. -/
theorem Update.referred_or_dropped (s : Update) (h : t ∈ (Query.update s).given) :
    (∃ asName, .reference t asName ∈ s.mentions d) ∨ (Query.update s).Drops d t := by
  rw [Query.given, List.mem_cons, List.mem_append] at h
  obtain rfl | hsource | hjoin := h
  · cases hname : s.target.name.isEmpty with
    | true => exact .inr (.updateTarget s hname)
    | false =>
        have href := BaseTable.reference_mem (Table.base s.target).asName? hname
        simp only [Update.mentions, List.mem_append]
        exact .inl ⟨_, .inl (.inl (.inl (.inl (.inl (.inl href)))))⟩
  · cases d with
    | mysql => exact .inr (.updateSource s t rfl hsource)
    | postgres =>
        have href := List.mem_append_left (s.joins.flatMap Join.mentions)
          (Table.reference_mem hsource)
        simp only [Update.mentions, List.mem_append]
        exact .inl ⟨_, .inl (.inl (.inl (.inr (by simpa using href))))⟩
  · have href := Join.reference_mem hjoin
    refine .inl ⟨t.asName?, ?_⟩
    cases d with
    | mysql =>
        simp only [Update.mentions, List.mem_append]
        exact .inl (.inl (.inl (.inl (.inl (.inr href)))))
    | postgres =>
        have hwritten := List.mem_append_right (s.source.toList.flatMap Table.mentions) href
        simp only [Update.mentions, List.mem_append]
        exact .inl (.inl (.inl (.inr (by simpa using hwritten))))

/-- Nothing but a target is dropped by a deletion. -/
theorem Delete.referred_or_dropped (s : Delete) (h : t ∈ (Query.delete s).given) :
    (∃ asName, .reference t asName ∈ s.mentions d) ∨ (Query.delete s).Drops d t := by
  rw [Query.given, List.mem_append, List.mem_append] at h
  simp only [Delete.mentions, List.mem_append]
  obtain htarget | hsource | hjoin := h
  · obtain ⟨b, hb, rfl⟩ := List.mem_map.mp htarget
    by_cases hplace : b.name.isEmpty ∨ d = .mysql ∧ s.source.isSome
    · exact .inr (.deleteTarget s b hb hplace)
    · obtain ⟨hname, husing⟩ := not_or.mp hplace
      have href := BaseTable.reference_mem (Table.base b).asName? (Bool.eq_false_iff.mpr hname)
      refine .inl ⟨(Table.base b).asName?, .inl (.inl (.inl (.inl (.inl ?_))))⟩
      rw [if_neg (by simpa using husing)]
      exact List.mem_flatMap.mpr ⟨b, hb, href⟩
  · exact .inl ⟨_, .inl (.inl (.inl (.inl (.inr (Table.reference_mem hsource)))))⟩
  · exact .inl ⟨_, .inl (.inl (.inl (.inr (Join.reference_mem hjoin))))⟩

/-- Every table that a statement is given has a reference, or there is a place that drops it. -/
theorem Query.referred_or_dropped (q : Query) (h : t ∈ q.given) :
    (∃ asName, .reference t asName ∈ q.mentions d) ∨ q.Drops d t := by
  cases q with
  | select s => exact .inl ⟨_, s.reference_mem h⟩
  | insert s => exact s.referred_or_dropped h
  | update s => exact s.referred_or_dropped h
  | delete s => exact s.referred_or_dropped h

end Given

/-- The name that a reference gives a table in its statement. -/
def Table.introduced (t : Table) (asName : Option String) : String := asName.getD t.name

/-- A reference that is written in full introduces the qualifier of its table. -/
theorem Table.qualifier_eq_introduced (t : Table) : t.qualifier = t.introduced t.asName? := by
  rw [Table.qualifier, Table.introduced, Table.asName?]
  by_cases hempty : t.asName.isEmpty
  · simp [hempty]
  · by_cases hname : t.asName = t.name <;> simp [hempty, hname]

/-- A table with a name after AS that is to be written has that name as its qualifier. -/
theorem Table.qualifier_eq_asName {t : Table} (h : t.asName? ≠ none) :
    t.qualifier = t.asName ∧ t.qualifier.isEmpty = false ∧ t.asName ≠ t.name := by
  rw [Table.asName?] at h
  obtain ⟨hempty, hname⟩ : t.asName.isEmpty = false ∧ t.asName ≠ t.name := by
    simpa using h
  have hqualifier : t.qualifier = t.asName := by
    rw [Table.qualifier, hempty]
    rfl
  exact ⟨hqualifier, hqualifier ▸ hempty, hname⟩

/-- How a column is written. -/
theorem Mention.render_column (d : Dialect) (excluded : List String) (qualifier name : String) :
    (Mention.column excluded qualifier name).render d =
      if qualifier.isEmpty || excluded.contains qualifier then ident name
      else ident qualifier ++ (text "." ++ ident name) := by
  rw [Mention.render, Term.render]
  split
  · rfl
  · exact List.append_assoc _ _ _

/-- A mention of a column that was built on the table, in one of the ways to build one. -/
inductive Table.Builds (excluded : List String) (name : String) : Table → Mention → Prop where
  | plain (t : Table) {m : Mention} (h : m ∈ (Field.column name t).mentions excluded) :
      Builds excluded name t m
  | typed (κ : FieldKind) (t : Table) {m : Mention}
      (h : m ∈ (TypedField.column name t : TypedField κ).toField.mentions excluded) :
      Builds excluded name t m
  | common (c : CommonTable) {m : Mention} (h : m ∈ (c.column name).mentions excluded) :
      Builds excluded name (.common c) m

/-- Columns are made with the qualifier of their table. -/
theorem Table.Builds.eq {excluded : List String} {name : String} {t : Table} {m : Mention}
    (h : t.Builds excluded name m) : m = .column excluded t.qualifier name := by
  cases h with
  | plain t h =>
      rw [Field.column, Field.mentions] at h
      exact List.mem_singleton.mp h
  | typed κ t h =>
      rw [TypedField.column, TypedField.toField, Field.mentions] at h
      exact List.mem_singleton.mp h
  | common c h =>
      rw [CommonTable.column, Field.mentions] at h
      exact List.mem_singleton.mp h

/-- Every mention with the qualifier of a table is one of a column that can be built on it. -/
theorem Table.builds_column (excluded : List String) (name : String) (t : Table) :
    t.Builds excluded name (.column excluded t.qualifier name) := by
  refine .plain t ?_
  rw [Field.column, Field.mentions]
  exact List.mem_singleton.mpr rfl

/-- A statement writes its references and its columns in the order in which it mentions them. A
column that was built on a table to which it refers is written without qualifier, or with the name
that the reference introduces. Only the target of an insertion into MySQL can have a name after AS
that is not written, and its columns are qualified with that name wherever it is not excluded. A
table that the statement is given without referring to it has a place that drops it, and its columns
are still qualified. -/
theorem qualifiers_are_introduced (q : Query) :
    let d := q.dialect
    let f := q.render d
    (q.compile = ⟨f.placed d 0, f.args⟩ ∧ Shows d (q.mentions d) f) ∧
      (∀ (t : Table) (asName : Option String), .reference t asName ∈ q.mentions d →
        ∀ (excluded : List String) (name : String) (m : Mention),
          t.Builds excluded name m → m ∈ q.mentions d →
          let printed := m.render d
          (asName = t.asName? → printed = ident name ∨
            printed = ident (t.introduced asName) ++ (text "." ++ ident name)) ∧
          (asName ≠ t.asName? →
            (d = .mysql ∧ ∃ s : Insert, q = .insert s ∧ t = .base s.target) ∧
            t.introduced asName = t.name ∧ t.asName ≠ t.name ∧
            printed = if excluded.contains t.asName then ident name
              else ident t.asName ++ (text "." ++ ident name))) ∧
      ∀ t ∈ q.given, (∀ asName, .reference t asName ∉ q.mentions d) →
        q.Drops d t ∧
          ∀ (excluded : List String) (name : String) (m : Mention),
            t.Builds excluded name m → m ∈ q.mentions d →
            m.render d = if t.qualifier.isEmpty || excluded.contains t.qualifier then ident name
              else ident t.qualifier ++ (text "." ++ ident name) := by
  intro d f
  refine ⟨⟨q.compile_eq, q.shows d⟩, fun t asName href excluded name m hm _ => ?_,
    fun t ht hnone => ⟨?_, fun excluded name m hm _ => ?_⟩⟩
  · obtain rfl := hm.eq
    refine ⟨?_, fun hne => ?_⟩
    · rintro rfl
      rw [Mention.render_column, ← t.qualifier_eq_introduced]
      split
      · exact .inl rfl
      · exact .inr rfl
    · obtain hcomplete | ⟨hd, rfl, htarget⟩ := Query.asName_of_reference_mem href
      · exact absurd hcomplete hne
      · obtain ⟨hqualifier, hempty, hname⟩ := Table.qualifier_eq_asName (Ne.symm hne)
        refine ⟨⟨hd, htarget⟩, rfl, hname, ?_⟩
        rw [Mention.render_column, hempty, hqualifier, Bool.false_or]
  · obtain ⟨asName, href⟩ | hdrops := q.referred_or_dropped (d := d) ht
    · exact absurd href (hnone asName)
    · exact hdrops
  · obtain rfl := hm.eq
    exact Mention.render_column d excluded t.qualifier name

/-- The table `users`, called `u`. -/
def users : BaseTable := { name := "users", asName := "u" }

def keepBest : Assignment :=
  (Field.column "score" (.base users)).assignField (Field.column "best" (.base users))

def updatedUsers : Query :=
  .update { dialect := .postgres, asName := "", target := users, assignments := [keepBest] }

/-- The table `orders`, called `o`. -/
def orders : BaseTable := { name := "orders", asName := "o" }

/-- MySQL does not write the source. -/
def updatedFromOrders : Query :=
  .update
    { dialect := .mysql, asName := "", target := users, source := some (.base orders)
      assignments :=
        [(Field.column "score" (.base users)).assignField (Field.column "best" (.base orders))] }

theorem updated_users_are_introduced :
    let printed := (Mention.column [] "u" "best").render .postgres
    (updatedUsers.compile.sql = "UPDATE users AS u SET score = u.best" ∧
      updatedUsers.mentions .postgres =
        [.reference (.base users) (some "u"), .column ["u"] "u" "score", .column [] "u" "best"] ∧
      (printed = ident "best" ∨ printed = ident "u" ++ (text "." ++ ident "best"))) ∧
      updatedFromOrders.compile.sql = "UPDATE users AS u SET score = o.best" ∧
      updatedFromOrders.mentions .mysql =
        [.reference (.base users) (some "u"), .column ["u"] "u" "score", .column [] "o" "best"] ∧
      updatedFromOrders.Drops .mysql (.base orders) ∧
      (Mention.column [] "o" "best").render .mysql = ident "o" ++ (text "." ++ ident "best") := by
  intro printed
  have hmentions : updatedUsers.mentions .postgres =
      [.reference (.base users) (some "u"), .column ["u"] "u" "score", .column [] "u" "best"] :=
    rfl
  have href : .reference (.base users) (some "u") ∈ updatedUsers.mentions .postgres := by
    simp [hmentions]
  have hbest : .column [] "u" "best" ∈ updatedUsers.mentions .postgres := by simp [hmentions]
  have hdropping : updatedFromOrders.mentions .mysql =
      [.reference (.base users) (some "u"), .column ["u"] "u" "score", .column [] "o" "best"] :=
    rfl
  have hassigned : .column [] "o" "best" ∈ updatedFromOrders.mentions .mysql := by
    simp [hdropping]
  have hunreferred (asName : Option String) :
      .reference (.base orders) asName ∉ updatedFromOrders.mentions .mysql := by
    simp [hdropping, users, orders]
  have hgiven : .base orders ∈ updatedFromOrders.given := by
    simp [updatedFromOrders, Query.given]
  obtain ⟨hdrops, hqualified⟩ :=
    (qualifiers_are_introduced updatedFromOrders).2.2 _ hgiven hunreferred
  refine ⟨⟨?_, hmentions, ?_⟩, ?_, hdropping, hdrops, ?_⟩
  · rw [Query.compile_eq]
    decide +kernel
  · have hbuilt := (Table.base users).builds_column [] "best"
    exact ((qualifiers_are_introduced updatedUsers).2.1 _ _ href [] "best" _ hbuilt hbest).1 rfl
  · rw [Query.compile_eq]
    decide +kernel
  · have hbuilt := (Table.base orders).builds_column [] "best"
    exact hqualified [] "best" _ hbuilt hassigned

def insertedUsers : Query :=
  .insert
    { dialect := .mysql, asName := "", target := users
      columns := [Field.column "score" (.base users)], rows := [[.value (.int 1)]]
      onDuplicate := [keepBest] }

/-- Nothing introduces `u`. -/
theorem inserted_users_are_not_introduced :
    insertedUsers.compile.sql =
        "INSERT INTO users (score) VALUES (?) ON DUPLICATE KEY UPDATE score = u.best" ∧
      ¬∀ (q : Query) (t : Table) (asName : Option String),
        .reference t asName ∈ q.mentions q.dialect →
        ∀ (excluded : List String) (name : String),
          .column excluded t.qualifier name ∈ q.mentions q.dialect →
          let printed := (Mention.column excluded t.qualifier name).render q.dialect
          printed = ident name ∨
            printed = ident (t.introduced asName) ++ (text "." ++ ident name) := by
  have hmentions : insertedUsers.mentions .mysql =
      [.reference (.base users) none, .column ["u"] "u" "score", .column ["u"] "u" "score",
        .column [] "u" "best"] :=
    rfl
  have href : .reference (.base users) none ∈ insertedUsers.mentions .mysql := by simp [hmentions]
  have hbest : .column [] "u" "best" ∈ insertedUsers.mentions .mysql := by simp [hmentions]
  refine ⟨?_, fun h => ?_⟩
  · rw [Query.compile_eq]
    decide +kernel
  · obtain hname | hqualified := h insertedUsers (.base users) none href [] "best" hbest
    · exact absurd (congrArg List.length hname) (by decide)
    · have hident : identifier "u" = identifier "users" :=
        Piece.text.inj (List.cons.inj hqualified).1
      exact absurd hident (by decide)

end BoundSql.Sql
