import BoundSql.Proofs.Commutation
import BoundSql.Proofs.Emission
import BoundSql.Sql.Select
import Mathlib.Data.List.Induction

/-!
# LIMIT and OFFSET

Each of the two clauses keeps the magnitude of the last number it was given. A magnitude is its own
magnitude and that of its negation, so giving the kept number again changes nothing. Both clauses
stand at the very end of a select, behind its members, and nothing else depends on them: a select is
written as the one that is built without them, with the two numbers behind it.
-/
namespace BoundSql

namespace Sql

theorem toInt_magnitude (n : Int64) :
    (magnitude n).toInt = min (n.toInt.natAbs : Int) Int64.maxValue.toInt := by
  have hlow := n.le_toInt
  have hhigh := n.toInt_lt
  have hmax : Int64.maxValue.toInt = 9223372036854775807 := rfl
  unfold magnitude
  split
  case isTrue hmin =>
    subst hmin
    rfl
  case isFalse hmin =>
    have hne : n.toInt ≠ -9223372036854775808 := fun hn => hmin (Int64.toInt_inj.mp hn)
    split
    case isTrue hneg =>
      have hneg' : n.toInt < 0 := Int64.lt_iff_toInt_lt.mp hneg
      rw [Int64.toInt_neg, Int.bmod_eq_of_le] <;> omega
    case isFalse hpos =>
      have hpos' : ¬n.toInt < 0 := fun h => hpos (Int64.lt_iff_toInt_lt.mpr h)
      omega

theorem toInt_magnitude_bounds (n : Int64) :
    0 ≤ (magnitude n).toInt ∧ (magnitude n).toInt ≤ Int64.maxValue.toInt := by
  have hmax : Int64.maxValue.toInt = 9223372036854775807 := rfl
  rw [toInt_magnitude]
  omega

theorem magnitude_magnitude (n : Int64) : magnitude (magnitude n) = magnitude n := by
  have hbounds := toInt_magnitude_bounds n
  apply Int64.toInt_inj.mp
  rw [toInt_magnitude (magnitude n)]
  omega

theorem magnitude_neg_magnitude (n : Int64) : magnitude (-magnitude n) = magnitude n := by
  have hbounds := toInt_magnitude_bounds n
  have hmax : Int64.maxValue.toInt = 9223372036854775807 := rfl
  -- The negation fits, since the one number without a magnitude is no magnitude.
  have hneg : (-magnitude n).toInt = -(magnitude n).toInt := by
    rw [Int64.toInt_neg, Int.bmod_eq_of_le] <;> omega
  apply Int64.toInt_inj.mp
  rw [toInt_magnitude (-magnitude n), hneg]
  omega

/-- What a clause keeps of the numbers it is given, from the first to the last. -/
structure Kept (given : List Int64) (kept : Option Int64) : Prop where
  absent_iff : kept = none ↔ given = []
  /-- The absolute value of the last number, or the largest number if that is too large. -/
  saturated : ∀ n ∈ given.getLast?, ∀ m ∈ kept,
    m.toInt = min (n.toInt.natAbs : Int) Int64.maxValue.toInt
  bounds : ∀ m ∈ kept, 0 ≤ m.toInt ∧ m.toInt ≤ Int64.maxValue.toInt

theorem kept_magnitude (given : List Int64) : Kept given (given.getLast?.map magnitude) where
  absent_iff := by simp
  saturated n hn m hm := by
    rw [hn, Option.map_some, Option.mem_some] at hm
    rw [← hm, toInt_magnitude]
  bounds m hm := by
    obtain ⟨n, -, rfl⟩ := Option.map_eq_some_iff.mp hm
    exact toInt_magnitude_bounds n

theorem magnitude_of_kept {given : List Int64} {m : Int64}
    (h : m ∈ given.getLast?.map magnitude) : magnitude m = m ∧ magnitude (-m) = m := by
  obtain ⟨n, -, rfl⟩ := Option.map_eq_some_iff.mp h
  exact ⟨magnitude_magnitude n, magnitude_neg_magnitude n⟩

namespace Select

def Step.limit? : Step → Option Int64
  | .limit n => some n
  | _ => none

def Step.offset? : Step → Option Int64
  | .offset n => some n
  | _ => none

theorem limit_apply (q : Select) (step : Step) :
    (q.apply step).limit = (step.limit?.map magnitude).or q.limit := by
  cases step <;> rfl

theorem offset_apply (q : Select) (step : Step) :
    (q.apply step).offset = (step.offset?.map magnitude).or q.offset := by
  cases step <;> rfl

theorem apply_limit_self {q : Select} {m n : Int64} (h : q.limit = some m) (hn : magnitude n = m) :
    q.apply (.limit n) = q := by
  cases q
  cases h
  cases hn
  rfl

theorem apply_offset_self {q : Select} {m n : Int64} (h : q.offset = some m)
    (hn : magnitude n = m) : q.apply (.offset n) = q := by
  cases q
  cases h
  cases hn
  rfl

/-- The select without its LIMIT and OFFSET. -/
def unlimited (q : Select) : Select := { q with limit := none, offset := none }

theorem render_compound (d : Dialect) (q : Select) :
    (q.compound d).render =
      (q.unlimited.compound d).render ++
        (numberClause " LIMIT " q.limit ++ numberClause " OFFSET " q.offset) := by
  cases q
  simp only [unlimited, compound, Compound.render, Compound.definitions, Compound.referenced,
    Compound.body, numberClause, List.append_assoc, List.append_nil]

end Select

/-- The text of a clause that binds its number, where there is one, behind `before` arguments. -/
def numberText (d : Dialect) (keyword : String) (before : Nat) : Option Int64 → String
  | none => ""
  | some _ => keyword ++ d.placeholder (before + 1)

theorem placed_numberClause (d : Dialect) (keyword : String) (before : Nat) (n : Option Int64) :
    (numberClause keyword n).placed d before = numberText d keyword before n := by
  cases n with
  | none => rfl
  | some n => exact congrArg (keyword ++ ·) String.append_empty

theorem args_numberClause (keyword : String) (n : Option Int64) :
    (numberClause keyword n).args = n.toList.map .int := by
  cases n <;> rfl

theorem Select.compile_unlimited (q : Select) :
    (Query.select q).compile =
      ⟨(Query.select q.unlimited).compile.sql ++
          (numberText q.dialect " LIMIT " (Query.select q.unlimited).compile.args.length q.limit ++
            numberText q.dialect " OFFSET "
              ((Query.select q.unlimited).compile.args.length + q.limit.toList.length) q.offset),
        (Query.select q.unlimited).compile.args ++
          (q.limit.toList.map .int ++ q.offset.toList.map .int)⟩ := by
  have hrender : (Query.select q).render q.dialect =
      (Query.select q.unlimited).render q.dialect ++
        (numberClause " LIMIT " q.limit ++ numberClause " OFFSET " q.offset) :=
    q.render_compound q.dialect
  have hbare : (Query.select q.unlimited).compile =
      ⟨((Query.select q.unlimited).render q.dialect).placed q.dialect 0,
        ((Query.select q.unlimited).render q.dialect).args⟩ := Query.compile_eq _
  rw [hbare, (Query.select q).compile_eq]
  simp only [Query.dialect, hrender, Fragment.placed_append, Fragment.args_append,
    placed_numberClause, args_numberClause, Nat.zero_add, List.length_map]

end Sql

namespace Run

open Sql (CommonTable Kept Query Select magnitude numberText)

/-- The number that a step on the query gives. -/
def Step.number? {γ : Type} (number? : γ → Option Int64) : Step γ → Option Int64
  | .body step => number? step
  | .database _ | .logging _ => none

/-- A clause that each step overwrites with the magnitude it gives ends with that of the last. -/
theorem foldl_keeps_last {σ γ : Type} {apply : σ → γ → σ} {number? : γ → Option Int64}
    (clause : σ → Option Int64)
    (hstep : ∀ s x, clause (apply s x) = ((number? x).map magnitude).or (clause s))
    (steps : List γ) (s : σ) :
    clause (steps.foldl apply s) =
      ((steps.filterMap number?).getLast?.map magnitude).or (clause s) := by
  induction steps using List.reverseRecOn with
  | nil => rfl
  | append_singleton steps x ih =>
      rw [List.foldl_append, List.foldl_cons, List.foldl_nil, hstep, ih, List.filterMap_append]
      cases hx : number? x with
      | none => simp [hx]
      | some n => simp [hx]

theorem limit_applyWith (s : Statement Select) (step : Step Select.Step) :
    (s.applyWith Select.apply step).body.limit =
      ((step.number? Select.Step.limit?).map magnitude).or s.body.limit := by
  cases step with
  | body step => exact s.body.limit_apply step
  | database | logging => rfl

theorem offset_applyWith (s : Statement Select) (step : Step Select.Step) :
    (s.applyWith Select.apply step).body.offset =
      ((step.number? Select.Step.offset?).map magnitude).or s.body.offset := by
  cases step with
  | body step => exact s.body.offset_apply step
  | database | logging => rfl

/-- The step is on another clause than LIMIT and OFFSET. -/
def Step.keepsUnlimited (step : Step Select.Step) : Bool :=
  step.part Select.Step.clause ≠ .clause .limit ∧ step.part Select.Step.clause ≠ .clause .offset

theorem unlimited_applyWith (s : Statement Select) (step : Step Select.Step) :
    (s.applyWith Select.apply step).map Select.unlimited =
      if step.keepsUnlimited then (s.map Select.unlimited).applyWith Select.apply step
      else s.map Select.unlimited := by
  cases step with
  | body step => cases step <;> rfl
  | database | logging => rfl

/-- Leaving the two clauses out at the end is leaving them out on the way. -/
theorem unlimited_foldl (steps : List (Step Select.Step)) (s : Statement Select) :
    (steps.foldl (Statement.applyWith Select.apply) s).map Select.unlimited =
      (steps.filter Step.keepsUnlimited).foldl (Statement.applyWith Select.apply)
        (s.map Select.unlimited) := by
  induction steps generalizing s with
  | nil => rfl
  | cons step steps ih =>
      rw [List.foldl_cons, ih, unlimited_applyWith, List.filter_cons]
      split <;> rfl

theorem dialect_foldl (steps : List (Step Select.Step)) (s : Statement Select) :
    (steps.foldl (Statement.applyWith Select.apply) s).body.dialect = s.body.dialect := by
  induction steps generalizing s with
  | nil => rfl
  | cons step steps ih =>
      rw [List.foldl_cons, ih]
      cases step with
      | body step => cases step <;> rfl
      | database | logging => rfl

/-- However a select is built, LIMIT and OFFSET keep the magnitude of the last number given to them,
and giving it again, or its negation, changes nothing. The select is compiled as the one that is
built by the other steps alone, with the kept numbers as its last arguments. -/
theorem limits_are_bound_last (d : Dialect) (asName : String) (ctes : List CommonTable)
    (settings : Settings) (steps : List (Step Select.Step)) :
    let build (steps : List (Step Select.Step)) : Statement Select :=
      steps.foldl (Statement.applyWith Select.apply) ⟨.empty d asName ctes, settings⟩
    let s := build steps
    let bare := build (steps.filter Step.keepsUnlimited)
    Kept (steps.filterMap (Step.number? Select.Step.limit?)) s.body.limit ∧
      Kept (steps.filterMap (Step.number? Select.Step.offset?)) s.body.offset ∧
      (∀ m ∈ s.body.limit, s.applyWith Select.apply (.body (.limit m)) = s ∧
        s.applyWith Select.apply (.body (.limit (-m))) = s) ∧
      (∀ m ∈ s.body.offset, s.applyWith Select.apply (.body (.offset m)) = s ∧
        s.applyWith Select.apply (.body (.offset (-m))) = s) ∧
      bare = s.map Select.unlimited ∧
      let c := (Query.select bare.body).compile
      (Query.select s.body).compile =
        ⟨c.sql ++ (numberText d " LIMIT " c.args.length s.body.limit ++
            numberText d " OFFSET " (c.args.length + s.body.limit.toList.length) s.body.offset),
          c.args ++ (s.body.limit.toList.map .int ++ s.body.offset.toList.map .int)⟩ := by
  intro build s bare
  let start : Statement Select := ⟨.empty d asName ctes, settings⟩
  have hlimit : s.body.limit =
      (steps.filterMap (Step.number? Select.Step.limit?)).getLast?.map magnitude :=
    (foldl_keeps_last (·.body.limit) limit_applyWith steps start).trans Option.or_none
  have hoffset : s.body.offset =
      (steps.filterMap (Step.number? Select.Step.offset?)).getLast?.map magnitude :=
    (foldl_keeps_last (·.body.offset) offset_applyWith steps start).trans Option.or_none
  have hbare : bare = s.map Select.unlimited := (unlimited_foldl steps start).symm
  have hdialect : s.body.dialect = d := dialect_foldl steps start
  refine ⟨hlimit ▸ Sql.kept_magnitude _, hoffset ▸ Sql.kept_magnitude _, fun m hm => ?limit,
    fun m hm => ?offset, hbare, ?compiled⟩
  case limit =>
    obtain ⟨hself, hnegated⟩ := Sql.magnitude_of_kept (hlimit ▸ hm)
    simp only [Statement.applyWith, Select.apply_limit_self hm hself,
      Select.apply_limit_self hm hnegated, and_self]
  case offset =>
    obtain ⟨hself, hnegated⟩ := Sql.magnitude_of_kept (hoffset ▸ hm)
    simp only [Statement.applyWith, Select.apply_offset_self hm hself,
      Select.apply_offset_self hm hnegated, and_self]
  case compiled =>
    rw [hbare, ← hdialect]
    exact s.body.compile_unlimited

/-- The limit comes first and its number has no magnitude; a member and an order follow. -/
def lastUsers : List (Step Select.Step) :=
  [.body (.limit Int64.minValue), .body (.fields [.bare "id"]), .body (.offset (-3)),
    .body (.source (.base ⟨"", "users", ""⟩)), .logging ⟨⟨fun _ => none⟩, {}⟩,
    .body (.condition (.ofTemplate "age > ?" [.value (.int 18)])),
    .body (.member ⟨.union, { dialect := .mysql, asName := "", fields := [.bare "id"] }⟩),
    .body (.orderBy [.bare "id"])]

theorem lastUsers_bound_last :
    let s : Statement Select :=
      lastUsers.foldl (Statement.applyWith Select.apply) ⟨.empty .mysql "" [], {}⟩
    Int64.maxValue ∈ s.body.limit ∧
      s.applyWith Select.apply (.body (.limit (-Int64.maxValue))) = s ∧
      3 ∈ s.body.offset ∧ s.applyWith Select.apply (.body (.offset (-3))) = s ∧
      (Query.select s.body).compile.sql =
        "SELECT id FROM users WHERE age > ? UNION SELECT id ORDER BY id LIMIT ? OFFSET ?" ∧
      (Query.select s.body).compile.args = [.int 18, .int Int64.maxValue, .int 3] := by
  intro s
  obtain ⟨-, -, hlimit, hoffset, -⟩ := limits_are_bound_last .mysql "" [] {} lastUsers
  have hmax : Int64.maxValue ∈ s.body.limit := rfl
  have hthree : 3 ∈ s.body.offset := rfl
  refine ⟨hmax, (hlimit _ hmax).2, hthree, (hoffset _ hthree).2, ?_, ?_⟩
  · rw [Query.compile_eq]
    decide +kernel
  · rw [Query.compile_eq]
    rfl

end Run

end BoundSql
