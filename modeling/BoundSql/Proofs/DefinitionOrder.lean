import BoundSql.Proofs.Hoisting
import Mathlib.Data.List.Basic

/-!
# The order of hoisted definitions

Alone, a select defines the common tables registered with it in front of those that it refers to. In
front of a compound it is the other way round for the members: what they refer to comes before what
is registered with them. So the definitions of a member keep their order exactly if one of its two
lists of names begins with the other.
-/
namespace BoundSql.Sql

/-- The names in the order in which they come first. -/
def firstNames (ns : List String) : List String := addAllNew id [] ns

section FirstNames

variable {xs ys : List String}

theorem nodup_firstNames (ns : List String) : (firstNames ns).Nodup := by
  have hnodup : ((firstNames ns).map id).Nodup := nodup_addAllNew (by simp) ns
  rwa [List.map_id] at hnodup

theorem mem_firstNames {n : String} : n ∈ firstNames xs ↔ n ∈ xs := by
  have hmem : n ∈ (firstNames xs).map id ↔ n ∈ ([] ++ xs).map id := mem_map_addAllNew
  rwa [List.map_id, List.map_id] at hmem

theorem firstNames_append (xs ys : List String) :
    firstNames (xs ++ ys) = addAllNew id (firstNames xs) (firstNames ys) := by
  unfold firstNames
  rw [addAllNew_append, addAllNew_addAllNew]
  rfl

/-- What begins with a list of names is not changed by them, wherever they are offered. -/
theorem firstNames_append_of_prefix (h : firstNames xs <+: firstNames ys) :
    firstNames (xs ++ ys) = firstNames ys ∧ firstNames (ys ++ xs) = firstNames ys := by
  have hmem : ∀ n ∈ firstNames xs, id n ∈ (firstNames ys).map id := fun n hn => by
    simpa using h.subset hn
  refine ⟨?_, by rw [firstNames_append, addAllNew_of_mem hmem]⟩
  obtain ⟨rest, hrest⟩ := h
  have hnodup : ((firstNames xs ++ rest).map id).Nodup := by
    rw [List.map_id, hrest]
    exact nodup_firstNames ys
  calc firstNames (xs ++ ys)
      = addAllNew id (firstNames xs) (firstNames xs ++ rest) := by rw [firstNames_append, hrest]
    _ = addAllNew id (firstNames xs) rest := by
        have hself : addAllNew id (firstNames xs) (firstNames xs) = firstNames xs :=
          addAllNew_of_mem (by simp)
        rw [addAllNew_append, hself]
    _ = firstNames ys := by rw [addAllNew_of_nodup hnodup, hrest]

/-- Two lists of names can be offered in either order exactly if one begins with the other. -/
theorem firstNames_append_comm_iff :
    firstNames (xs ++ ys) = firstNames (ys ++ xs) ↔
      firstNames xs <+: firstNames ys ∨ firstNames ys <+: firstNames xs := by
  constructor
  · intro h
    have hxs : firstNames xs <+: firstNames (xs ++ ys) := by
      rw [firstNames_append]
      exact prefix_addAllNew _ _
    have hys : firstNames ys <+: firstNames (xs ++ ys) := by
      rw [h, firstNames_append]
      exact prefix_addAllNew _ _
    exact List.prefix_or_prefix_of_prefix hxs hys
  · rintro (h | h)
    · obtain ⟨hleft, hright⟩ := firstNames_append_of_prefix h
      exact hleft.trans hright.symm
    · obtain ⟨hleft, hright⟩ := firstNames_append_of_prefix h
      exact hright.trans hleft.symm

end FirstNames

theorem register_names (cs : List CommonTable) :
    (register [] cs).map (·.name) = firstNames (cs.map (·.name)) := by
  have hname (c : CommonTable) : id c.name = c.name := rfl
  exact map_addAllNew hname [] cs

namespace Select

/-- The common tables in FROM and in joins, of a select and of its members at any depth. -/
def references (s : Select) : List CommonTable := s.tables.filterMap Table.common?

/-- A select without its members. -/
def alone (s : Select) : Select := { s with members := [] }

/-- No member has members of its own. -/
def Flat (s : Select) : Prop := ∀ x ∈ s.members, x.query.members = []

/-- A select and its members define different names. -/
def Separate (d : Dialect) (s : Select) : Prop :=
  (s.alone :: s.members.map (·.query)).Pairwise fun x y =>
    (x.definedNames d).Disjoint (y.definedNames d)

variable {d : Dialect} {s m : Select} {c : CommonTable}

theorem name_mem_definedNames (d : Dialect) (hc : c ∈ s.ctes ++ s.references) :
    c.name ∈ s.definedNames d := by
  refine mem_definedNames.mpr ⟨c, ?_, rfl⟩
  obtain hc | hc := List.mem_append.mp hc
  · exact .inl hc
  · exact .inr (.inl (Table.mem_commons.mp hc))

/-- What stands in front of a compound, by where it comes from. -/
theorem kept_eq (s : Select) :
    (Query.select s).kept =
      register s.ctes (s.alone.references ++ (s.members.map (·.query)).flatMap references ++
        (s.members.map (·.query)).flatMap (·.ctes)) := by
  have hreferences : s.references =
      s.alone.references ++ (s.members.map (·.query)).flatMap references := by
    cases s
    simp only [references, alone, tables, tables_members, List.append_nil,
      List.filterMap_append, List.filterMap_flatMap, List.flatMap_map, List.flatMap_nil]
  rw [← hreferences, List.flatMap_map]
  rfl

/-- Of what separate selects contribute, that of one of them is told by its names. -/
theorem filter_flatMap_of_pairwise {f : Select → List CommonTable} {ms : List Select}
    (hms : ms.Pairwise fun x y => (x.definedNames d).Disjoint (y.definedNames d)) (hm : m ∈ ms)
    (hf : ∀ x ∈ ms, ∀ c ∈ f x, c.name ∈ x.definedNames d) :
    (ms.flatMap f).filter (fun c => c.name ∈ m.definedNames d) = f m := by
  have hnone (xs : List Select) (hxs : ∀ x ∈ xs, x ∈ ms ∧
      (x.definedNames d).Disjoint (m.definedNames d)) :
      (xs.flatMap f).filter (fun c => c.name ∈ m.definedNames d) = [] := by
    refine List.filter_eq_nil_iff.mpr fun c hc hmem => ?_
    obtain ⟨x, hx, hc⟩ := List.mem_flatMap.mp hc
    exact (hxs x hx).2 (hf x (hxs x hx).1 c hc) (of_decide_eq_true hmem)
  have hself : (f m).filter (fun c => c.name ∈ m.definedNames d) = f m :=
    List.filter_eq_self.mpr fun c hc => decide_eq_true (hf m hm c hc)
  obtain ⟨before, after, rfl⟩ := List.append_of_mem hm
  obtain ⟨-, hafter, hcross⟩ := List.pairwise_append.mp hms
  rw [List.flatMap_append, List.flatMap_cons, List.filter_append, List.filter_append, hself,
    hnone before, hnone after, List.nil_append, List.append_nil]
  · exact fun x hx => ⟨by simp [hx], fun n hn hn' =>
      (List.pairwise_cons.mp hafter).1 x hx hn' hn⟩
  · exact fun x hx => ⟨by simp [hx], hcross x hx m List.mem_cons_self⟩

/-- In front of a compound the definitions of a member stand in another order than in its own WITH
clause: what it refers to, then what is registered with it. -/
theorem kept_filter_member (hseparate : s.Separate d) (hm : s.HasMember m) :
    (Query.select s).kept.filter (fun c => c.name ∈ m.definedNames d) =
      register [] (m.references ++ m.ctes) := by
  obtain ⟨hown, hmembers⟩ := List.pairwise_cons.mp hseparate
  have hmem : m ∈ s.members.map (·.query) := List.mem_map.mpr hm
  have hnone (cs : List CommonTable) (hcs : ∀ c ∈ cs, c ∈ s.alone.ctes ++ s.alone.references) :
      cs.filter (fun c => c.name ∈ m.definedNames d) = [] :=
    List.filter_eq_nil_iff.mpr fun c hc hc' =>
      hown m hmem (name_mem_definedNames d (hcs c hc)) (of_decide_eq_true hc')
  have hreferences := filter_flatMap_of_pairwise (f := references) hmembers hmem
    fun x _ c hc => name_mem_definedNames d (List.mem_append_right _ hc)
  have hctes := filter_flatMap_of_pairwise (f := (·.ctes)) hmembers hmem
    fun x _ c hc => name_mem_definedNames d (List.mem_append_left _ hc)
  rw [kept_eq, register, filter_addAllNew fun n => n ∈ m.definedNames d, List.filter_append,
    List.filter_append, hreferences, hctes,
    hnone s.ctes fun c hc => List.mem_append_left _ hc,
    hnone s.alone.references fun c hc => List.mem_append_right _ hc]
  rfl

theorem kept_of_members_eq_nil (hm : m.members = []) :
    (Query.select m).kept = register m.ctes m.references := by
  simp only [Query.kept, Query.memberCtes, hm, List.flatMap_nil, List.append_nil]
  rfl

/-- Names that are stored once each are the first of their names. -/
theorem names_register (h : Distinct m.ctes) (cs : List CommonTable) :
    (register m.ctes cs).map (·.name) = firstNames (m.ctes.map (·.name) ++ cs.map (·.name)) := by
  have hctes : register [] m.ctes = m.ctes := addAllNew_of_nodup h
  calc (register m.ctes cs).map (·.name)
      = (register (register [] m.ctes) cs).map (·.name) := by rw [hctes]
    _ = (register [] (m.ctes ++ cs)).map (·.name) := by
        unfold register
        rw [addAllNew_append]
    _ = firstNames (m.ctes.map (·.name) ++ cs.map (·.name)) := by
        rw [register_names, List.map_append]

end Select

/-- If the members have no members of their own, and all define different names, each member finds
what it defines alone in front of the compound, but what it refers to before what is registered with
it. The order is that of its own WITH clause exactly if one of these two lists of names begins with
the other; that a member stores each name once is so for every select that is built. -/
theorem hoisting_moves_registered_behind_referenced (d : Dialect) {s m : Select} (hflat : s.Flat)
    (hseparate : s.Separate d) (hm : s.HasMember m) :
    (Query.select m).kept = register m.ctes m.references ∧
    (Query.select s).kept.filter (fun c => c.name ∈ m.definedNames d) =
      register [] (m.references ++ m.ctes) ∧
    ((m.definedNames d).Sublist (s.definedNames d) ↔ Distinct m.ctes ∧
      (firstNames (m.ctes.map (·.name)) <+: firstNames (m.references.map (·.name)) ∨
        firstNames (m.references.map (·.name)) <+: firstNames (m.ctes.map (·.name)))) := by
  have hkept : (Query.select m).kept = register m.ctes m.references := by
    obtain ⟨x, hx, rfl⟩ := hm
    exact Select.kept_of_members_eq_nil (hflat x hx)
  have hfilter := Select.kept_filter_member hseparate hm
  have hown (h : Distinct m.ctes) : m.definedNames d =
      firstNames (m.ctes.map (·.name) ++ m.references.map (·.name)) := by
    rw [Select.definedNames_eq, hkept, Select.names_register h]
  have hhoisted : (s.definedNames d).filter (· ∈ m.definedNames d) =
      firstNames (m.references.map (·.name) ++ m.ctes.map (·.name)) := by
    rw [Select.definedNames_eq (s := s), List.filter_map, Function.comp_def, hfilter,
      register_names, List.map_append]
  refine ⟨hkept, hfilter, ?_⟩
  rw [← firstNames_append_comm_iff, ← hhoisted]
  constructor
  · intro hsublist
    have hfiltered := hsublist.filter (· ∈ m.definedNames d)
    rw [List.filter_eq_self.mpr fun n hn => decide_eq_true hn] at hfiltered
    -- A name that is stored twice is defined twice alone, and only once in front of the compound.
    have hdistinct : Distinct m.ctes := by
      have hfront : m.ctes <+: (Query.select m).kept := hkept ▸ prefix_addAllNew _ _
      have hnodup : (m.definedNames d).Nodup :=
        hfiltered.nodup (hhoisted ▸ nodup_firstNames _)
      rw [Select.definedNames_eq] at hnodup
      exact (hfront.sublist.map (·.name)).nodup hnodup
    refine ⟨hdistinct, ?_⟩
    rw [← hown hdistinct]
    -- Both lists have the same names, each once.
    have hperm : (m.definedNames d).Perm ((s.definedNames d).filter (· ∈ m.definedNames d)) := by
      rw [hhoisted, hown hdistinct]
      refine (List.perm_ext_iff_of_nodup (nodup_firstNames _) (nodup_firstNames _)).mpr fun n => ?_
      rw [mem_firstNames, mem_firstNames, List.mem_append, List.mem_append, or_comm]
    exact hfiltered.eq_of_length hperm.length_eq
  · rintro ⟨hdistinct, h⟩
    rw [hown hdistinct, h]
    exact List.filter_sublist

/-- A select that refers to a common table whose query reads, by name, one that is registered. -/
def readsDerived : Select :=
  { dialect := .postgres, asName := "", fields := [.verbatim "*"],
    ctes := [{ name := "base", query := .select (oneWith []) }],
    source := some (.common
      { name := "derived",
        query := .select
          { dialect := .postgres, asName := "", fields := [.verbatim "*"],
            source := some (.base { name := "base" }) } }) }

def derivedUnion : Select := oneWith [⟨.union, readsDerived⟩]

theorem derivedUnion_flat : derivedUnion.Flat := by
  intro x hx
  obtain rfl := List.mem_singleton.mp hx
  rfl

theorem derivedUnion_separate : derivedUnion.Separate .postgres := by
  have hnone : derivedUnion.alone.definedNames .postgres = [] := by decide +kernel
  refine List.pairwise_cons.mpr ⟨fun x _ n hn => ?_, List.pairwise_singleton _ _⟩
  rw [hnone] at hn
  exact absurd hn List.not_mem_nil

theorem derivedUnion_hasMember : derivedUnion.HasMember readsDerived :=
  ⟨_, List.mem_singleton.mpr rfl, rfl⟩

theorem base_moves_behind_derived :
    derivedUnion.Flat ∧ derivedUnion.Separate .postgres ∧ derivedUnion.HasMember readsDerived ∧
    (register [] (readsDerived.references ++ readsDerived.ctes)).map (·.name) =
      ["derived", "base"] ∧
    (Query.select derivedUnion).kept.filter
        (fun c => c.name ∈ readsDerived.definedNames .postgres) =
      register [] (readsDerived.references ++ readsDerived.ctes) :=
  ⟨derivedUnion_flat, derivedUnion_separate, derivedUnion_hasMember, by decide +kernel,
    (hoisting_moves_registered_behind_referenced .postgres derivedUnion_flat
      derivedUnion_separate derivedUnion_hasMember).2.1⟩

/-- The member alone defines what it reads by name in front of its reader, the compound behind. -/
theorem definition_order_is_lost :
    (Query.select readsDerived).compile.sql =
      "WITH base AS (SELECT 1), derived AS (SELECT * FROM base) SELECT * FROM derived" ∧
    (Query.select derivedUnion).compile.sql =
      "WITH derived AS (SELECT * FROM base), base AS (SELECT 1) " ++
        "SELECT 1 UNION SELECT * FROM derived" ∧
    ¬ ∀ (d : Dialect) (s m : Select), s.Flat → s.Separate d → s.HasMember m →
      (m.definedNames d).Sublist (s.definedNames d) := by
  refine ⟨?_, ?_, fun h => ?_⟩
  · rw [Query.compile_eq]
    decide +kernel
  · rw [Query.compile_eq]
    decide +kernel
  · have hmoved : ¬ (readsDerived.definedNames .postgres).Sublist
        (derivedUnion.definedNames .postgres) := by decide +kernel
    exact hmoved (h .postgres _ _ derivedUnion_flat derivedUnion_separate derivedUnion_hasMember)

end BoundSql.Sql
