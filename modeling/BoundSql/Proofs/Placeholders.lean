import BoundSql.Proofs.Emission

/-!
# Placeholders

Whatever a writer holds, a node adds the same texts and the same bound values, and only the numbers
of its placeholders depend on how many arguments are there. A compiled statement therefore numbers
its placeholders from one in textual order, one for each argument.
-/
namespace BoundSql.Sql

namespace Fragment

/-- The verbatim text in front of the first bound value. -/
def front : Fragment → String
  | [] => ""
  | .text s :: rest => s ++ front rest
  | .bound _ :: _ => ""

/-- The verbatim text behind each bound value, up to the next one. -/
def behind : Fragment → List String
  | [] => []
  | .text _ :: rest => behind rest
  | .bound _ :: rest => front rest :: behind rest

/-- There is one text behind each bound value. -/
theorem length_behind (f : Fragment) : f.behind.length = f.args.length := by
  induction f with
  | nil => rfl
  | cons p f ih =>
      cases p with
      | text s => exact ih
      | bound v => simp only [behind, args, List.length_cons, ih]

/-- The text of a fragment with its placeholders, the first of them numbered `before + 1`. -/
def woven (d : Dialect) (before : Nat) (f : Fragment) : String :=
  f.front ++ String.join (f.behind.mapIdx fun i s => d.placeholder (before + i + 1) ++ s)

theorem placed_eq_woven (d : Dialect) (before : Nat) (f : Fragment) :
    f.placed d before = f.woven d before := by
  induction f generalizing before with
  | nil => rfl
  | cons p f ih =>
      cases p with
      | text s => simp only [placed, woven, front, behind, ih, String.append_assoc]
      | bound v =>
          simp only [placed, woven, front, behind, ih, List.mapIdx_cons, String.join_cons,
            String.empty_append, String.append_assoc, Nat.add_assoc, Nat.zero_add, Nat.add_comm 1]

end Fragment

/-- A node adds one sequence of verbatim texts and bound values behind whatever the writer holds,
each bound value printed as the placeholder of its own number. In a compiled statement placeholder
number `i` stands for argument number `i`, and there are no others. -/
theorem emission_is_one_sequence :
    (∀ (n : Node) (d : Dialect) (excluded : List String), ∃ f : Fragment, f = n.render d excluded ∧
      ∀ (sql : String) (args : List Value),
        ((n.emit excluded).run ⟨d, sql, args⟩).2 =
          ⟨d, sql ++ f.woven d args.length, args ++ f.args⟩) ∧
    ∀ q : Query, ∃ f : Fragment, f = q.render q.dialect ∧
      f.behind.length = f.args.length ∧
      q.compile.args = f.args ∧
      q.compile.sql =
        f.front ++ String.join (f.behind.mapIdx fun i s => q.dialect.placeholder (i + 1) ++ s) := by
  constructor
  · intro n d excluded
    refine ⟨_, rfl, fun sql args => ?_⟩
    rw [n.emits d excluded _ rfl, Writer.write_eq, Fragment.placed_eq_woven]
  · intro q
    refine ⟨_, rfl, Fragment.length_behind _, ?_, ?_⟩
    · rw [q.compile_eq]
    · rw [q.compile_eq, Fragment.placed_eq_woven]
      simp only [Fragment.woven, Nat.zero_add]

end BoundSql.Sql
