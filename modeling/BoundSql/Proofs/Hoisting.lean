import BoundSql.Proofs.WithClause
import Mathlib.Logic.Relation

/-!
# Hoisting

Members have no WITH clause of their own inside a compound; the one in front stands in for theirs.
It defines what members at any depth refer to, and what is registered with the members of the
select itself. What is only registered with a member of a member, and not referred to as a common
table, is lost.
-/
namespace BoundSql.Sql

open Relation (TransGen)

/-- The names that a select defines in its WITH clause when it is compiled alone. -/
def Select.definedNames (d : Dialect) (s : Select) : List String :=
  (s.compound d).definitions.map (·.name)

def Select.HasMember (s m : Select) : Prop := ∃ x ∈ s.members, x.query = m

/-- Being a member at any depth. -/
abbrev Select.Contains : Select → Select → Prop := TransGen HasMember

namespace Select

variable {d : Dialect} {s m : Select} {c : CommonTable}

theorem Contains.cases_head (h : s.Contains m) :
    s.HasMember m ∨ ∃ x, s.HasMember x ∧ x.Contains m := by
  obtain ⟨x, hx, h⟩ := TransGen.head'_iff.mp h
  obtain rfl | h := Relation.reflTransGen_iff_eq_or_transGen.mp h
  · exact .inl hx
  · exact .inr ⟨x, hx, h⟩

theorem definedNames_eq (s : Select) :
    s.definedNames d = (Query.select s).kept.map (·.name) := by
  rw [definedNames, definitions_compound, List.map_map]
  exact List.map_congr_left fun c _ => c.definition_name d

theorem mem_definedNames {n : String} :
    n ∈ s.definedNames d ↔
      ∃ c, (c ∈ s.ctes ∨ .common c ∈ s.tables ∨ ∃ m, s.HasMember m ∧ c ∈ m.ctes) ∧
        c.name = n := by
  have hmembers (c : CommonTable) :
      c ∈ s.members.flatMap (·.query.ctes) ↔ ∃ m, s.HasMember m ∧ c ∈ m.ctes := by
    rw [List.mem_flatMap]
    constructor
    · rintro ⟨x, hx, hc⟩
      exact ⟨x.query, ⟨x, hx, rfl⟩, hc⟩
    · rintro ⟨_, ⟨x, hx, rfl⟩, hc⟩
      exact ⟨x, hx, hc⟩
  rw [definedNames_eq, Query.kept, register, mem_map_addAllNew]
  simp only [Query.ctes, Query.tables, Query.memberCtes, List.mem_map, List.mem_append,
    Table.mem_commons, hmembers]

theorem tables_members (ms : List Member) :
    Member.tables ms = ms.flatMap (·.query.tables) := by
  induction ms with
  | nil => rw [Member.tables, List.flatMap_nil]
  | cons x ms ih =>
      cases x
      rw [Member.tables, ih, List.flatMap_cons]

theorem mem_tables_of_hasMember {t : Table} (hm : s.HasMember m) (ht : t ∈ m.tables) :
    t ∈ s.tables := by
  obtain ⟨x, hx, rfl⟩ := hm
  cases s
  rw [tables, tables_members]
  exact List.mem_append_right _ (List.mem_flatMap.mpr ⟨x, hx, ht⟩)

/-- What is referred to by a member at any depth is defined in front of the compound. -/
theorem referenced_mem_definedNames (d : Dialect) (hm : s.Contains m)
    (hc : .common c ∈ m.tables) : c.name ∈ s.definedNames d := by
  have htables : .common c ∈ s.tables := by
    induction hm using TransGen.head_induction_on with
    | single h => exact mem_tables_of_hasMember h hc
    | head h _ ih => exact mem_tables_of_hasMember h ih
  exact mem_definedNames.mpr ⟨c, .inr (.inl htables), rfl⟩

/-- What is registered with a direct member is defined in front of the compound. -/
theorem registered_mem_definedNames (d : Dialect) (hm : s.HasMember m) (hc : c ∈ m.ctes) :
    c.name ∈ s.definedNames d :=
  mem_definedNames.mpr ⟨c, .inr (.inr ⟨m, hm, hc⟩), rfl⟩

end Select

/-- Every name that members at any depth refer to is defined in front of a compound, and so is every
name registered with its direct members. Nothing is lost exactly if the names registered with
members of members are defined there as well. -/
theorem hoisting_reaches_references_and_direct_members (d : Dialect) (s : Select) :
    (∀ m, s.Contains m → ∀ c, .common c ∈ m.tables → c.name ∈ s.definedNames d) ∧
    (∀ m, s.HasMember m → ∀ c ∈ m.ctes, c.name ∈ s.definedNames d) ∧
    ((∀ m, s.Contains m → ∀ n ∈ m.definedNames d, n ∈ s.definedNames d) ↔
      ∀ x, s.HasMember x → ∀ m, x.Contains m → ∀ c ∈ m.ctes, c.name ∈ s.definedNames d) := by
  refine ⟨fun m hm c hc => Select.referenced_mem_definedNames d hm hc,
    fun m hm c hc => Select.registered_mem_definedNames d hm hc, ?_, ?_⟩
  · intro h x hx m hm c hc
    exact h m (.head hx hm) c.name (Select.mem_definedNames.mpr ⟨c, .inl hc, rfl⟩)
  · intro h m hm n hn
    have hregistered {m : Select} (hm : s.Contains m) (c : CommonTable) (hc : c ∈ m.ctes) :
        c.name ∈ s.definedNames d := by
      obtain hm | ⟨x, hx, hm⟩ := hm.cases_head
      · exact Select.registered_mem_definedNames d hm hc
      · exact h x hx m hm c hc
    obtain ⟨c, hc | hc | ⟨y, hy, hc⟩, rfl⟩ := Select.mem_definedNames.mp hn
    · exact hregistered hm c hc
    · exact Select.referenced_mem_definedNames d hm hc
    · -- A member of `m` is one of `s`, one level deeper.
      exact hregistered (hm.tail hy) c hc

/-- `SELECT 1` and its members. -/
def oneWith (members : List Member) : Select :=
  { dialect := .postgres, asName := "", fields := [.verbatim "1"], members }

/-- A select that reads from the common table registered with it, by its name. -/
def readsDeep : Select :=
  { dialect := .postgres, asName := "", fields := [.verbatim "*"],
    ctes := [{ name := "deep", query := .select (oneWith []) }],
    source := some (.base { name := "deep" }) }

def deepUnion : Select := oneWith [⟨.union, oneWith [⟨.union, readsDeep⟩]⟩]

/-- The member of a member defines a name when it is compiled alone that the compound does not. -/
theorem deep_registration_is_lost :
    (Query.select readsDeep).compile.sql = "WITH deep AS (SELECT 1) SELECT * FROM deep" ∧
    (Query.select deepUnion).compile.sql =
      "SELECT 1 UNION (SELECT 1 UNION SELECT * FROM deep)" ∧
    ¬ ∀ (d : Dialect) (s m : Select), s.Contains m → ∀ n ∈ m.definedNames d,
      n ∈ s.definedNames d := by
  refine ⟨?_, ?_, fun h => ?_⟩
  · rw [Query.compile_eq]
    decide +kernel
  · rw [Query.compile_eq]
    decide +kernel
  · have hcontains : deepUnion.Contains readsDeep :=
      .head ⟨_, List.mem_singleton.mpr rfl, rfl⟩ (.single ⟨_, List.mem_singleton.mpr rfl, rfl⟩)
    have hlost : "deep" ∉ deepUnion.definedNames .postgres := by decide +kernel
    exact hlost (h .postgres _ _ hcontains "deep" (by decide +kernel))

end BoundSql.Sql
