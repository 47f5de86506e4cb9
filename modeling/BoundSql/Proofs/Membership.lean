import BoundSql.Proofs.Digits
import BoundSql.Proofs.Exclusion
import BoundSql.Sql.Field
import Mathlib.Tactic.Common

/-!
# Membership in a list of values

A database reads `x IN (…)` as the disjunction of the comparisons with its elements, `NOT IN` as
the negation of that, and a comparison with NULL as neither true nor false. What is written for a
list of values is read back here together with its arguments: it tells whether a value is in the
list, but an empty list is written `(NULL)`, which no value is in and no value is outside of.
-/
namespace BoundSql.Sql

open Text.Digits (isDigit)

/-- The truth values of a condition. -/
inductive Truth where
  | holds
  | fails
  | unknown
  deriving DecidableEq, Repr

namespace Truth

def not : Truth → Truth
  | holds => fails
  | fails => holds
  | unknown => unknown

def or : Truth → Truth → Truth
  | holds, _ => holds
  | _, holds => holds
  | fails, fails => fails
  | _, _ => unknown

def any : List Truth → Truth
  | [] => fails
  | t :: rest => t.or (any rest)

/-- `x = y`, where `same` compares values that are not NULL. -/
def equal (same : Value → Value → Bool) (x y : Value) : Truth :=
  if x.isNull || y.isNull then unknown else if same x y then holds else fails

end Truth

/-- An element of a list: NULL, or an argument of the statement, counted from zero. -/
inductive Element where
  | null
  | argument (index : Nat)
  deriving DecidableEq, Repr

namespace Element

/-- An element on its own, behind `before` question marks. -/
def read? (d : Dialect) (before : Nat) (cs : List Char) : Option Element :=
  if cs = ['N', 'U', 'L', 'L'] then some .null
  else
    match d, cs with
    | .mysql, ['?'] => some (.argument before)
    | .postgres, '$' :: digits =>
        if digits.isEmpty || !digits.all isDigit then none
        else
          match Text.Digits.value digits with
          | 0 => none
          | n + 1 => some (.argument n)
    | _, _ => none

def readAll? (d : Dialect) (before : Nat) : List (List Char) → Option (List Element)
  | [] => some []
  | cs :: rest => do
      let e ← read? d before (cs.dropWhile (· = ' '))
      let es ← readAll? d (before + cs.count '?') rest
      return e :: es

def value? (args : List Value) : Element → Option Value
  | .null => some .null
  | .argument index => args[index]?

end Element

/-- `IN` or `NOT IN` with a list; the operand stands in front. -/
structure Membership where
  negated : Bool
  elements : List Element
  deriving DecidableEq, Repr

namespace Membership

/-- The keyword and the parenthesis behind it. -/
def opened? : List Char → Option (Bool × List Char)
  | ' ' :: 'I' :: 'N' :: ' ' :: '(' :: rest => some (false, rest)
  | ' ' :: 'N' :: 'O' :: 'T' :: ' ' :: 'I' :: 'N' :: ' ' :: '(' :: rest => some (true, rest)
  | _ => none

/-- What stands behind an operand and `before` arguments. -/
def read? (d : Dialect) (before : Nat) (cs : List Char) : Option Membership := do
  let (negated, rest) ← opened? cs
  if rest.getLast? = some ')' then
    let elements ← Element.readAll? d before (rest.dropLast.splitOn ',')
    return ⟨negated, elements⟩
  else none

def truth? (same : Value → Value → Bool) (x : Value) (args : List Value) (m : Membership) :
    Option Truth := do
  let values ← m.elements.mapM (·.value? args)
  let contained := Truth.any (values.map (Truth.equal same x))
  return if m.negated then contained.not else contained

end Membership

namespace Truth

variable {same : Value → Value → Bool} {x : Value} {vs : List Value}

theorem equal_of_not_null (hx : x.isNull = false) {v : Value} (hv : v.isNull = false) :
    equal same x v = if same x v then holds else fails := by
  simp only [equal, hx, hv, Bool.or_self, Bool.false_eq_true, if_false]

/-- Without NULL there is nothing unknown. -/
theorem any_equal (hx : x.isNull = false) (hvs : ∀ v ∈ vs, v.isNull = false) :
    any (vs.map (equal same x)) = if ∃ v ∈ vs, same x v then holds else fails := by
  induction vs with
  | nil => simp [any]
  | cons v vs ih =>
      rw [List.map_cons, any, ih fun v' h => hvs v' (List.mem_cons_of_mem v h),
        equal_of_not_null hx (hvs v List.mem_cons_self)]
      by_cases hv : same x v
      · simp [hv, or]
      · by_cases hrest : ∃ v' ∈ vs, same x v'
        · simp [hv, hrest, or]
        · simp [hv, hrest, or]

end Truth

/-- The characters of a placeholder. -/
theorem toList_placeholder (d : Dialect) (n : Nat) :
    (d.placeholder n).toList =
      match d with
      | .mysql => ['?']
      | .postgres => '$' :: Nat.toDigits 10 n := by
  cases d with
  | mysql => exact String.toList_ofList
  | postgres =>
      rw [Dialect.placeholder, String.toList_append, ← Nat.toList_repr]
      rfl

/-- The elements that `vs` is written as behind `before` arguments, the first one behind `lead`. -/
def chunks (d : Dialect) (before : Nat) (lead : List Char) : List Value → List (List Char)
  | [] => []
  | _ :: vs => (lead ++ (d.placeholder (before + 1)).toList) :: chunks d (before + 1) [' '] vs

theorem intercalate_chunks (d : Dialect) (before : Nat) (lead : List Char) {vs : List Value}
    (hvs : vs ≠ []) :
    [','].intercalate (chunks d before lead vs) =
      lead ++ ((Fragment.separated ", " (vs.map Fragment.bound)).placed d before).toList := by
  induction vs generalizing before lead with
  | nil => exact absurd rfl hvs
  | cons v vs ih =>
      cases vs with
      | nil => simp [chunks, Fragment.separated, Fragment.bound, Fragment.placed]
      | cons v' vs =>
          -- The comma of a separator ends an element, its blank leads the next one.
          have hrest := ih (before + 1) [' '] (List.cons_ne_nil v' vs)
          rw [chunks] at hrest ⊢
          rw [chunks, List.intercalate_cons_cons, hrest]
          simp [Fragment.separated, Fragment.bound, Fragment.text, Fragment.placed]

theorem not_mem_chunks (d : Dialect) {before : Nat} {lead : List Char} (hlead : ',' ∉ lead)
    {vs : List Value} : ∀ cs ∈ chunks d before lead vs, ',' ∉ cs := by
  induction vs generalizing before lead with
  | nil => simp [chunks]
  | cons v vs ih =>
      have hplaceholder : ',' ∉ (d.placeholder (before + 1)).toList := by
        rw [toList_placeholder]
        cases d with
        | mysql => simp
        | postgres =>
            intro h
            obtain h | h := List.mem_cons.mp h
            · exact absurd h (by decide)
            · exact absurd (Text.Digits.isDigit_of_mem_toDigits h) (by decide)
      intro cs hcs
      rw [chunks, List.mem_cons] at hcs
      obtain rfl | hcs := hcs
      · simp [hlead, hplaceholder]
      · exact ih (by decide) cs hcs

namespace Element

/-- MySQL counts the placeholders, PostgreSQL numbers them. -/
theorem read?_placeholder (d : Dialect) {before n : Nat} (hbefore : d = .mysql → before = n) :
    read? d before (d.placeholder (n + 1)).toList = some (.argument n) := by
  rw [toList_placeholder]
  cases d with
  | mysql =>
      obtain rfl := hbefore rfl
      rfl
  | postgres =>
      have hne : (Nat.toDigits 10 (n + 1)).isEmpty = false := by
        rw [List.isEmpty_eq_false_iff]
        exact Nat.toDigits_ne_nil
      have hall : (Nat.toDigits 10 (n + 1)).all isDigit := by
        rw [List.all_eq_true]
        exact fun c hc => Text.Digits.isDigit_of_mem_toDigits hc
      simp only [read?, hne, hall, Text.Digits.value_toDigits]
      rfl

theorem dropWhile_blank (d : Dialect) (n : Nat) {lead : List Char} (hlead : ∀ c ∈ lead, c = ' ') :
    (lead ++ (d.placeholder n).toList).dropWhile (· = ' ') = (d.placeholder n).toList := by
  rw [List.dropWhile_append_of_pos (by simpa using hlead), toList_placeholder]
  cases d <;> rfl

/-- Where placeholders are numbered, it does not matter how many are counted. -/
theorem readAll?_chunks (d : Dialect) {before n : Nat} (hbefore : d = .mysql → before = n)
    {lead : List Char} (hlead : ∀ c ∈ lead, c = ' ') (vs : List Value) :
    readAll? d before (chunks d n lead vs) =
      some ((List.range' n vs.length).map .argument) := by
  induction vs generalizing before n lead with
  | nil => rfl
  | cons v vs ih =>
      have hnext : d = .mysql →
          before + (lead ++ (d.placeholder (n + 1)).toList).count '?' = n + 1 := by
        rintro rfl
        have hcount : lead.count '?' = 0 :=
          List.count_eq_zero_of_not_mem fun h => absurd (hlead '?' h) (by decide)
        rw [List.count_append, hcount, hbefore rfl, toList_placeholder]
        rfl
      rw [chunks, readAll?, dropWhile_blank d _ hlead, read?_placeholder d hbefore,
        ih hnext (by simp), List.length_cons, List.range'_succ]
      rfl

/-- Consecutive arguments are consecutive values. -/
theorem mapM_value? {args vs : List Value} {n : Nat} (h : args.drop n = vs) :
    ((List.range' n vs.length).map .argument).mapM (value? args) = some vs := by
  induction vs generalizing n with
  | nil => rfl
  | cons v vs ih =>
      have hv : args[n]? = some v := by
        rw [← List.head?_drop, h]
        rfl
      have hvs : args.drop (n + 1) = vs := by
        rw [← List.tail_drop, h]
        rfl
      rw [List.length_cons, List.range'_succ, List.map_cons, List.mapM_cons, ih hvs, value?, hv]
      rfl

end Element

/-- `… IN …`, or `… NOT IN …`. -/
def Field.membership (f : Field) (negated : Bool) (vs : List Value) : Predicate :=
  if negated then f.notInValues vs else f.inValues vs

namespace Membership

def keyword (negated : Bool) : String := if negated then " NOT IN " else " IN "

/-- The elements of a list that is written behind `before` arguments. -/
def written (before : Nat) (vs : List Value) : List Element :=
  if vs.isEmpty then [.null] else (List.range' before vs.length).map .argument

theorem args_valueList (vs : List Value) : (valueList vs).args = vs := by
  have hbound (vs : List Value) : ((vs.map Fragment.bound).map Fragment.args).flatten = vs := by
    induction vs with
    | nil => rfl
    | cons v vs ih => exact congrArg (v :: ·) ih
  cases vs with
  | nil => rfl
  | cons v vs =>
      have htext (s : String) : (Fragment.text s).args = [] := rfl
      rw [valueList, List.isEmpty_cons, if_neg Bool.false_ne_true, Fragment.parenthesized,
        Fragment.args_append, Fragment.args_append, Fragment.args_separated, hbound, htext, htext,
        List.nil_append, List.append_nil]

theorem opened?_keyword (negated : Bool) (rest : List Char) :
    opened? ((keyword negated).toList ++ '(' :: rest) = some (negated, rest) := by
  cases negated <;> simp [keyword, opened?]

theorem read?_intercalate (d : Dialect) (negated : Bool) (before : Nat) {cs : List (List Char)}
    (hne : cs ≠ []) (hcomma : ∀ c ∈ cs, ',' ∉ c) {es : List Element}
    (h : Element.readAll? d before cs = some es) :
    read? d before ((keyword negated).toList ++ '(' :: ([','].intercalate cs ++ [')'])) =
      some ⟨negated, es⟩ := by
  rw [read?, opened?_keyword]
  simp only [Option.bind_eq_bind, Option.bind_some, List.getLast?_concat, if_true,
    List.dropLast_concat, List.splitOn_intercalate ',' hcomma hne, h]
  rfl

theorem read?_valueList (d : Dialect) (negated : Bool) (before : Nat) (vs : List Value) :
    read? d before (keyword negated ++ (valueList vs).placed d before).toList =
      some ⟨negated, written before vs⟩ := by
  rw [String.toList_append]
  cases vs with
  | nil =>
      have htext : ((valueList []).placed d before).toList =
          '(' :: ([','].intercalate [['N', 'U', 'L', 'L']] ++ [')']) := by
        simp [valueList, Fragment.text, Fragment.placed]
      rw [htext]
      exact read?_intercalate d negated before (by simp) (by simp) rfl
  | cons v vs =>
      have htext : ((valueList (v :: vs)).placed d before).toList =
          '(' :: ([','].intercalate (chunks d before [] (v :: vs)) ++ [')']) := by
        rw [intercalate_chunks d before [] (List.cons_ne_nil v vs)]
        simp [valueList, Fragment.parenthesized, Fragment.text, Fragment.placed_append,
          Fragment.placed]
      rw [htext]
      exact read?_intercalate d negated before (by simp [chunks]) (not_mem_chunks d (by simp))
        (Element.readAll?_chunks d (fun _ => rfl) (by simp) (v :: vs))

/-- Whether a value is in a list, as a database tells it. -/
def contained (same : Value → Value → Bool) (x : Value) (vs : List Value) : Truth :=
  if vs.isEmpty then .unknown else if ∃ v ∈ vs, same x v then .holds else .fails

theorem contained_eq_holds_iff (same : Value → Value → Bool) (x : Value) (vs : List Value) :
    contained same x vs = .holds ↔ ∃ v ∈ vs, same x v := by
  cases vs with
  | nil => simp [contained]
  | cons v vs =>
      rw [contained, List.isEmpty_cons, if_neg Bool.false_ne_true]
      by_cases h : ∃ v' ∈ v :: vs, same x v'
      · exact iff_of_true (if_pos h) h
      · exact iff_of_false (by rw [if_neg h]; decide) h

theorem not_contained_eq_holds_iff (same : Value → Value → Bool) (x : Value) (vs : List Value) :
    (contained same x vs).not = .holds ↔ vs ≠ [] ∧ ∀ v ∈ vs, same x v = false := by
  cases vs with
  | nil => simp [contained, Truth.not]
  | cons v vs =>
      rw [contained, List.isEmpty_cons, if_neg Bool.false_ne_true]
      by_cases h : ∃ v' ∈ v :: vs, same x v'
      · rw [if_pos h]
        obtain ⟨v', hmem, hv'⟩ := h
        simp only [Truth.not, reduceCtorEq, false_iff, not_and]
        exact fun _ hall => absurd (hall v' hmem) (by simp [hv'])
      · rw [if_neg h]
        simp only [Truth.not, ne_eq, List.cons_ne_nil, not_false_eq_true, true_and, true_iff]
        exact fun v' hmem => Bool.eq_false_iff.mpr fun hv' => h ⟨v', hmem, hv'⟩

theorem truth?_written (same : Value → Value → Bool) {x : Value} (args : List Value)
    {vs : List Value} {before : Nat} (negated : Bool) (hargs : args.drop before = vs)
    (hx : x.isNull = false)
    (hvs : ∀ v ∈ vs, v.isNull = false) :
    truth? same x args ⟨negated, written before vs⟩ =
      some (if negated then (contained same x vs).not else contained same x vs) := by
  cases vs with
  | nil =>
      have hnull : Truth.any [Truth.equal same x .null] = .unknown := by
        simp [Truth.any, Truth.equal, Truth.or, Value.isNull]
      simp only [truth?, written, contained, List.isEmpty_nil, if_true]
      change some (if negated then (Truth.any [Truth.equal same x .null]).not
        else Truth.any [Truth.equal same x .null]) = _
      rw [hnull]
  | cons v vs =>
      simp only [truth?, written, contained, List.isEmpty_cons, Bool.false_eq_true, if_false,
        Element.mapM_value? hargs, Option.bind_eq_bind, Option.bind_some, Truth.any_equal hx hvs]
      rfl

/-- A text as a template writes it. -/
def characters (cs : List Char) : Fragment := cs.map fun c => .text (String.singleton c)

theorem placed_characters (d : Dialect) (before : Nat) (cs : List Char) :
    ((characters cs).placed d before).toList = cs := by
  induction cs with
  | nil => rfl
  | cons c cs ih => simpa [characters, Fragment.placed] using ih

theorem args_characters (cs : List Char) : (characters cs).args = [] := by
  induction cs with
  | nil => rfl
  | cons c cs ih => exact ih

theorem filled_characters (cs : List Char) (ps : List Template.Part) (fs : List Fragment) :
    Template.filled (cs.map .char ++ ps) fs = characters cs ++ Template.filled ps fs := by
  induction cs with
  | nil => rfl
  | cons c cs ih => exact congrArg (.text (String.singleton c) :: ·) ih

theorem render_membership (d : Dialect) (excluded : List String) (f : Field) (negated : Bool)
    (vs : List Value) :
    ((f.membership negated vs).toCondition d excluded).render =
      f.render d excluded ++ (characters (keyword negated).toList ++ valueList vs) := by
  have hfilled (template : String) (hparts : Template.parts template.toList =
      .slot :: ((keyword negated).toList.map .char ++ [.slot])) :
      Template.expanded template [f.render d excluded, valueList vs] =
        f.render d excluded ++ (characters (keyword negated).toList ++ valueList vs) := by
    have hlist : Template.filled [.slot] [valueList vs] = valueList vs := List.append_nil _
    rw [Template.expanded, hparts, Template.filled, filled_characters, hlist]
  cases negated with
  | false => exact hfilled "? IN ?" (by simp [keyword, Template.parts])
  | true => exact hfilled "? NOT IN ?" (by simp [keyword, Template.parts])

/-- Behind its operand the predicate adds the keyword and the list, and binds the values. -/
theorem run_emit {f : Field} {excluded : List String} {w operand : Writer}
    (h : (((Node.field f).emit excluded).run w).2 = operand) (negated : Bool) (vs : List Value) :
    (((Node.predicate (f.membership negated vs)).emit excluded).run w).2 =
      { operand with
        sql := operand.sql ++
          (keyword negated ++ (valueList vs).placed operand.dialect operand.args.length)
        args := operand.args ++ vs } := by
  have hoperand : w.write (f.render w.dialect excluded) = operand :=
    ((Node.field f).emits w.dialect excluded w rfl).symm.trans h
  have hkeyword : (characters (keyword negated).toList).placed operand.dialect
      operand.args.length = keyword negated :=
    String.toList_inj.mp (placed_characters _ _ _)
  rw [(Node.predicate _).emits w.dialect excluded w rfl, Node.render, render_membership,
    ← Writer.write_write, hoperand, Writer.write_eq, Fragment.placed_append, hkeyword,
    args_characters, Fragment.args_append, args_characters, args_valueList]
  rfl

end Membership

/-- A column binds nothing. -/
theorem args_column (d : Dialect) (excluded : List String) (qualifier name : String)
    (marks : Marks) :
    ((Field.plain (.column qualifier name) marks).render d excluded).args = [] := by
  have horder : marks.order.args = [] := by
    rcases marks with ⟨-, _ | _ | _, _ | _ | _⟩ <;> rfl
  have hcolumn : (Term.render excluded (.column qualifier name)).args = [] := by
    rw [Term.render, Fragment.args_append]
    split <;> rfl
  rw [Field.render, Fragment.args_append, hcolumn, horder]
  rfl

/-- A list of values without NULL keeps its meaning, whatever its length: behind the column, which
binds nothing, it binds its values in order, and `IN` holds for the values that are in it. `NOT IN`
holds for the others, but if the list is empty then for none; both are unknown there. -/
theorem lists_keep_their_meaning (same : Value → Value → Bool) (qualifier name : String)
    (marks : Marks) (vs : List Value) (hvs : ∀ v ∈ vs, v.isNull = false) (x : Value)
    (hx : x.isNull = false) (excluded : List String) (w : Writer) :
    let column := Field.plain (.column qualifier name) marks
    let operand := (((Node.field column).emit excluded).run w).2
    let after (p : Predicate) := (((Node.predicate p).emit excluded).run w).2
    let args := w.args ++ vs
    ∃ (inside outside : String) (elements : List Element) (isIn isOut : Truth),
      after (column.inValues vs) = ⟨w.dialect, operand.sql ++ inside, args⟩ ∧
      after (column.notInValues vs) = ⟨w.dialect, operand.sql ++ outside, args⟩ ∧
      Membership.read? w.dialect w.args.length inside.toList = some ⟨false, elements⟩ ∧
      Membership.read? w.dialect w.args.length outside.toList = some ⟨true, elements⟩ ∧
      elements = (if vs.isEmpty then [.null]
        else (List.range' w.args.length vs.length).map .argument) ∧
      Membership.truth? same x args ⟨false, elements⟩ = some isIn ∧
      (isIn = .holds ↔ ∃ v ∈ vs, same x v) ∧
      Membership.truth? same x args ⟨true, elements⟩ = some isOut ∧
      (isOut = .holds ↔ vs ≠ [] ∧ ∀ v ∈ vs, same x v = false) ∧
      (vs = [] → isIn = .unknown ∧ isOut = .unknown) := by
  intro column operand after args
  have hoperand : operand.args = w.args ∧ operand.dialect = w.dialect := by
    have hwrite : operand = w.write (column.render w.dialect excluded) :=
      (Node.field column).emits w.dialect excluded w rfl
    rw [hwrite, Writer.write_eq, args_column, List.append_nil]
    exact ⟨rfl, rfl⟩
  let tail (negated : Bool) : String :=
    Membership.keyword negated ++ (valueList vs).placed w.dialect w.args.length
  have hafter (negated : Bool) : after (column.membership negated vs) =
      ⟨w.dialect, operand.sql ++ tail negated, args⟩ := by
    have h := Membership.run_emit (rfl : _ = operand) negated vs
    rwa [hoperand.1, hoperand.2] at h
  have hread (negated : Bool) := Membership.read?_valueList w.dialect negated w.args.length vs
  have htruth (negated : Bool) :=
    Membership.truth?_written same args negated (List.drop_left' rfl) hx hvs
  refine ⟨tail false, tail true, Membership.written w.args.length vs, _, _, hafter false,
    hafter true, hread false, hread true, rfl, htruth false,
    Membership.contained_eq_holds_iff same x vs, htruth true,
    Membership.not_contained_eq_holds_iff same x vs, ?_⟩
  rintro rfl
  exact ⟨rfl, rfl⟩

/-- Numbers are compared by what they are, and equal nothing else. -/
def sameNumber : Value → Value → Bool
  | .int a, .int b => a == b
  | _, _ => false

/-- Numbers in the second and third argument of a statement. -/
theorem listed_numbers_keep_their_meaning :
    let column := Field.column "score" (.base { name := "users", asName := "u" })
    let w : Writer := ⟨.postgres, "u.name = $1 AND ", [.text "ann"]⟩
    let args : List Value := [.text "ann", .int 3, .int 4]
    ∃ outside, (((Node.predicate (column.notInValues [.int 3, .int 4])).emit []).run w).2 =
        ⟨.postgres, "u.name = $1 AND u.score" ++ outside, args⟩ ∧
      Membership.read? .postgres 1 outside.toList = some ⟨true, [.argument 1, .argument 2]⟩ ∧
      Membership.truth? sameNumber (.int 5) args ⟨true, [.argument 1, .argument 2]⟩ =
        some .holds := by
  intro column w args
  obtain ⟨-, outside, elements, -, isOut, -, hafter, -, hread, rfl, -, -, htruth, hholds, -⟩ :=
    lists_keep_their_meaning sameNumber "u" "score" {} [.int 3, .int 4] (by simp [Value.isNull])
      (.int 5) rfl [] w
  obtain rfl := hholds.mpr ⟨by simp, by decide⟩
  exact ⟨outside, hafter, hread, htruth⟩

/-- No value is outside an empty list. -/
theorem nothing_is_outside_the_empty_list :
    let column := Field.bare "x"
    let after (vs : List Value) :=
      (((Node.predicate (column.notInValues vs)).emit []).run (Writer.new .postgres)).2
    after [] = ⟨.postgres, "x NOT IN (NULL)", []⟩ ∧
      Membership.read? .postgres 0 " NOT IN (NULL)".toList = some ⟨true, [.null]⟩ ∧
      Membership.truth? sameNumber (.int 1) [] ⟨true, [.null]⟩ = some .unknown ∧
      ¬∀ vs : List Value, (∀ v ∈ vs, v.isNull = false) →
        ∃ outside m, after vs = ⟨.postgres, "x" ++ outside, vs⟩ ∧
          Membership.read? .postgres 0 outside.toList = some m ∧
          (m.truth? sameNumber (.int 1) vs = some .holds ↔
            ∀ v ∈ vs, sameNumber (.int 1) v = false) := by
  intro column after
  have hafter : after [] = ⟨.postgres, "x NOT IN (NULL)", []⟩ := by
    have hcolumn : (((Node.field column).emit []).run (Writer.new .postgres)).2 =
        ⟨.postgres, "x", []⟩ := rfl
    rw [show after [] = _ from Membership.run_emit hcolumn true []]
    rfl
  have hread : Membership.read? .postgres 0 " NOT IN (NULL)".toList = some ⟨true, [.null]⟩ := by
    decide
  have htruth : Membership.truth? sameNumber (.int 1) [] ⟨true, [.null]⟩ = some .unknown := by
    decide
  refine ⟨hafter, hread, htruth, fun h => ?_⟩
  obtain ⟨outside, m, houtside, hm, hholds⟩ := h [] (by simp)
  obtain rfl : outside = " NOT IN (NULL)" := by
    have htext : "x" ++ " NOT IN (NULL)" = "x" ++ outside :=
      congrArg Writer.sql (hafter.symm.trans houtside)
    exact (String.append_right_inj _).mp htext.symm
  obtain rfl : m = ⟨true, [.null]⟩ := Option.some.inj (hm.symm.trans hread)
  rw [htruth] at hholds
  exact absurd (hholds.mpr (by simp)) (by decide)

end BoundSql.Sql
