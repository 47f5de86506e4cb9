import BoundSql.Sql.Fragment

/-!
# Conditions

A condition is a tree of groups over atoms, each possibly negated. A group of several members
stands in parentheses, a group of one is its member, and an empty group writes nothing. The
conditions of a clause are joined without parentheses.
-/
namespace BoundSql.Sql

inductive Connective where
  | and
  | or
  deriving DecidableEq, Repr

def Connective.keyword : Connective → String
  | and => "AND"
  | or => "OR"

/-- Leaves that are already written, with their signs, under groups. -/
inductive Condition where
  | atom (negated : Bool) (body : Fragment)
  | group (negated : Bool) (connective : Connective) (members : List Condition)

namespace Condition

def negation (negated : Bool) : Fragment := if negated then Fragment.text "NOT " else []

def separator (c : Connective) : String := " " ++ c.keyword ++ " "

mutual

/-- A group with one member has no parentheses of its own. -/
def render : Condition → Fragment
  | .atom negated body => negation negated ++ body
  | .group negated connective members =>
      match renderAll members with
      | [] => []
      | [member] => negation negated ++ member
      | several =>
          negation negated ++ (Fragment.separated (separator connective) several).parenthesized

def renderAll : List Condition → List Fragment
  | [] => []
  | c :: rest => c.render :: renderAll rest

end

/-- The conditions of a clause, all of which have to hold. -/
def conjunction (conditions : List Condition) : Fragment :=
  Fragment.separated " AND " (renderAll conditions)

/-- A keyword and its conditions, or nothing if there are none. -/
def clause (keyword : String) (conditions : List Condition) : Fragment :=
  if conditions.isEmpty then []
  else Fragment.text (" " ++ keyword ++ " ") ++ conjunction conditions

end Condition

end BoundSql.Sql
