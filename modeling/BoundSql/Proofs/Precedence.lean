import BoundSql.Sql.Condition
import Mathlib.Tactic.Common

/-!
# Reading boolean expressions

A boolean expression is a list of tokens over atoms. NOT binds tighter than AND, and AND tighter
than OR; parentheses override both. The reader keeps what stands in front of an operand and is not
applied yet, and applies it as soon as something follows that binds less.
-/
namespace BoundSql.Sql

inductive Token (α : Type) where
  | not
  | connective (c : Connective)
  | lparen
  | rparen
  | atom (a : α)

inductive Expr (α : Type) where
  | atom (a : α)
  | not (e : Expr α)
  | join (c : Connective) (left right : Expr α)

namespace Connective

def apply : Connective → Bool → Bool → Bool
  | .and => (· && ·)
  | .or => (· || ·)

/-- The value of a group: AND of nothing is true, OR of nothing false. -/
def applyAll : Connective → List Bool → Bool
  | .and => (·.all id)
  | .or => (·.any id)

def precedence : Connective → Nat
  | .and => 2
  | .or => 1

end Connective

variable {α : Type}

def Expr.eval (v : α → Bool) : Expr α → Bool
  | .atom a => v a
  | .not e => !e.eval v
  | .join c e e' => c.apply (e.eval v) (e'.eval v)

/-- What waits for the operand behind it. -/
inductive Pending (α : Type) where
  | not
  | left (c : Connective) (e : Expr α)
  | paren

namespace Pending

/-- How tight it binds; nothing reaches through a parenthesis. -/
def precedence : Pending α → Nat
  | .not => 3
  | .left c _ => c.precedence
  | .paren => 0

def apply : Pending α → Expr α → Expr α
  | .not, e => .not e
  | .left c e, e' => .join c e e'
  | .paren, e => e

end Pending

namespace Token

/-- Apply to an operand what binds it at least as tight as `p`. -/
def reduce (p : Nat) : List (Pending α) → Expr α → List (Pending α) × Expr α
  | [], e => ([], e)
  | w :: stack, e => if p ≤ w.precedence then reduce p stack (w.apply e) else (w :: stack, e)

mutual

/-- Read on where an operand has to come. -/
def operand (stack : List (Pending α)) : List (Token α) → Option (Expr α)
  | .not :: ts => operand (.not :: stack) ts
  | .lparen :: ts => operand (.paren :: stack) ts
  | .atom a :: ts => operator stack (.atom a) ts
  | _ => none

/-- Read on behind an operand. -/
def operator (stack : List (Pending α)) (e : Expr α) : List (Token α) → Option (Expr α)
  | .connective c :: ts =>
      let (stack, e) := reduce c.precedence stack e
      operand (.left c e :: stack) ts
  | .rparen :: ts =>
      match reduce 1 stack e with
      | (.paren :: stack, e) => operator stack e ts
      | _ => none
  | [] =>
      match reduce 1 stack e with
      | ([], e) => some e
      | _ => none
  | _ => none

end

/-- The expression that the tokens are, if they are one. -/
def read (ts : List (Token α)) : Option (Expr α) := operand [] ts

variable {stack base : List (Pending α)} {e e' : Expr α}

/-- NOT is applied whatever follows. -/
theorem operator_not (stack : List (Pending α)) (e : Expr α) (ts : List (Token α)) :
    operator (.not :: stack) e ts = operator stack (.not e) ts := by
  have hreduce {p : Nat} (hp : p ≤ 3) :
      reduce p (.not :: stack) e = reduce p stack (.not e) := if_pos hp
  cases ts with
  | nil => simp only [operator, hreduce (show 1 ≤ 3 by decide)]
  | cons t ts =>
      cases t with
      | connective c =>
          have hc : c.precedence ≤ 3 := by cases c <;> decide
          simp only [operator, hreduce hc]
      | rparen => simp only [operator, hreduce (show 1 ≤ 3 by decide)]
      | _ => rfl

/-- What can follow a member of a group. -/
inductive Follows (c : Connective) : List (Token α) → Prop
  | done : Follows c []
  | rparen (ts : List (Token α)) : Follows c (.rparen :: ts)
  | connective (ts : List (Token α)) : Follows c (.connective c :: ts)

theorem operator_left {c : Connective} {ts : List (Token α)} (h : Follows c ts) :
    operator (.left c e :: stack) e' ts = operator stack (.join c e e') ts := by
  have hreduce {p : Nat} (hp : p ≤ c.precedence) :
      reduce p (.left c e :: stack) e' = reduce p stack (.join c e e') := if_pos hp
  have hone : 1 ≤ c.precedence := by cases c <;> decide
  cases h with
  | done => simp only [operator, hreduce hone]
  | rparen ts => simp only [operator, hreduce hone]
  | connective ts => simp only [operator, hreduce (Nat.le_refl _)]

end Token

/-- Wherever an operand has to come, the tokens are read as the expression. -/
def Operand (ts : List (Token α)) (e : Expr α) : Prop :=
  ∀ (stack : List (Pending α)) (rest : List (Token α)),
    Token.operand stack (ts ++ rest) = Token.operator stack e rest

/-- Lists of tokens with a connective between each two of them. -/
def joined (c : Connective) : List (List (Token α)) → List (Token α)
  | [] => []
  | [ts] => ts
  | ts :: rest => ts ++ .connective c :: joined c rest

theorem joined_cons (c : Connective) (ts : List (Token α)) (rest : List (List (Token α))) :
    joined c (ts :: rest) = ts ++ rest.flatMap (.connective c :: ·) := by
  induction rest generalizing ts with
  | nil => simp [joined]
  | cons ts' rest ih =>
      rw [joined, ih ts', List.flatMap_cons, List.cons_append]
      simp

namespace Operand

variable {ts : List (Token α)} {tss : List (List (Token α))} {e : Expr α} {es : List (Expr α)}

theorem atom (a : α) : Operand [.atom a] (.atom a) := fun _ _ => rfl

theorem not (h : Operand ts e) : Operand (.not :: ts) (.not e) := by
  intro stack rest
  calc Token.operand stack (.not :: ts ++ rest)
      = Token.operand (.not :: stack) (ts ++ rest) := rfl
    _ = Token.operator (.not :: stack) e rest := h _ _
    _ = Token.operator stack (.not e) rest := Token.operator_not stack e rest

/-- The expression of a group: its members joined from the left. -/
def joinAll (c : Connective) (e : Expr α) (es : List (Expr α)) : Expr α := es.foldl (.join c) e

/-- The members of a group are read one after the other, up to its end. -/
theorem operator_joined (c : Connective) (h : List.Forall₂ Operand tss es)
    {base : List (Pending α)} (hbase : ∀ p e, 0 < p → Token.reduce p base e = (base, e))
    {tail : List (Token α)} (htail : Token.Follows c tail) (e : Expr α) :
    Token.operator base e (tss.flatMap (.connective c :: ·) ++ tail) =
      Token.operator base (joinAll c e es) tail := by
  induction h generalizing e with
  | nil => rfl
  | @cons ts e' tss es h _ ih =>
      have hc : 0 < c.precedence := by cases c <;> decide
      have hfollows : Token.Follows c (tss.flatMap (.connective c :: ·) ++ tail) := by
        cases tss with
        | nil => exact htail
        | cons ts tss => exact .connective _
      rw [List.flatMap_cons, List.append_assoc, List.cons_append]
      calc Token.operator base e (.connective c :: (ts ++ _))
          = Token.operand (.left c e :: base) (ts ++ _) := by
              simp only [Token.operator, hbase c.precedence e hc]
        _ = Token.operator (.left c e :: base) e' _ := h _ _
        _ = Token.operator base (.join c e e') _ := Token.operator_left hfollows
        _ = Token.operator base (joinAll c e (e' :: es)) tail := ih (.join c e e')

/-- A group in parentheses is an operand. -/
theorem parens (c : Connective) (h : Operand ts e) (hs : List.Forall₂ Operand tss es) :
    Operand (.lparen :: (joined c (ts :: tss) ++ [.rparen])) (joinAll c e es) := by
  intro stack rest
  have hbase (p : Nat) (e : Expr α) (hp : 0 < p) :
      Token.reduce p (.paren :: stack) e = (.paren :: stack, e) :=
    if_neg (Nat.not_le.mpr hp)
  calc Token.operand stack (.lparen :: (joined c (ts :: tss) ++ [.rparen]) ++ rest)
      = Token.operand (.paren :: stack)
          (ts ++ (tss.flatMap (.connective c :: ·) ++ .rparen :: rest)) := by
            rw [joined_cons]
            simp [Token.operand]
    _ = Token.operator (.paren :: stack) e
          (tss.flatMap (.connective c :: ·) ++ .rparen :: rest) := h _ _
    _ = Token.operator (.paren :: stack) (joinAll c e es) (.rparen :: rest) :=
          operator_joined c hs hbase (.rparen rest) e
    _ = Token.operator stack (joinAll c e es) rest := by
          simp only [Token.operator, hbase 1 _ Nat.one_pos]

/-- A group without parentheses is read as a whole. -/
theorem read_joined (c : Connective) (h : Operand ts e) (hs : List.Forall₂ Operand tss es) :
    Token.read (joined c (ts :: tss)) = some (joinAll c e es) := by
  calc Token.read (joined c (ts :: tss))
      = Token.operand [] (ts ++ tss.flatMap (.connective c :: ·)) := by rw [joined_cons]; rfl
    _ = Token.operator [] e (tss.flatMap (.connective c :: ·) ++ []) := by
          rw [h, List.append_nil]
    _ = Token.operator [] (joinAll c e es) [] :=
          operator_joined c hs (fun _ _ _ => rfl) .done e
    _ = some (joinAll c e es) := rfl

theorem eval_joinAll (c : Connective) (v : α → Bool) (e : Expr α) (es : List (Expr α)) :
    (joinAll c e es).eval v = c.applyAll ((e :: es).map (·.eval v)) := by
  induction es generalizing e with
  | nil => cases c <;> simp [joinAll, Connective.applyAll]
  | cons e' es ih =>
      have hstep : joinAll c e (e' :: es) = joinAll c (.join c e e') es := rfl
      rw [hstep, ih]
      cases c <;> simp [Connective.applyAll, Connective.apply, Expr.eval, Bool.and_assoc,
        Bool.or_assoc]

end Operand

/-- NOT before AND before OR. -/
example (a b c : α) :
    Token.read [.not, .atom a, .connective .or, .atom b, .connective .and, .atom c] =
      some (.join .or (.not (.atom a)) (.join .and (.atom b) (.atom c))) := by rfl

end BoundSql.Sql
