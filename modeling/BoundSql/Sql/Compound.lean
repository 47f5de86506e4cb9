import BoundSql.Sql.Named
import BoundSql.Sql.Tree

/-!
# Compound selects

A select with its members, seen as a tree of finished parts: the select itself up to HAVING, the
members with their operators, and the tail of ORDER BY, LIMIT and OFFSET. A member with a tail or
with members of its own stands in parentheses. The definitions of common tables that the members
need all go into one WITH clause in front.
-/
namespace BoundSql.Sql

/-- A common table as it stands in a WITH clause. -/
structure Definition where
  name : String
  recursive : Bool
  body : Fragment

namespace Definition

def render (d : Definition) : Fragment :=
  Fragment.ident d.name ++ Fragment.text " AS " ++ d.body.parenthesized

/-- The WITH clause with a space behind it, or nothing. -/
def clause (ds : List Definition) : Fragment :=
  if ds.isEmpty then []
  else
    Fragment.text (if ds.any (·.recursive) then "WITH RECURSIVE " else "WITH ")
      ++ Fragment.separated ", " (ds.map render) ++ Fragment.text " "

/-- Definitions as they are registered, and behind them those of the others that have a new
name. -/
def collect (registered others : List Definition) : List Definition :=
  addAllNew name registered others

end Definition

/-- A select with its members, where all that is to be written is finished. -/
inductive Compound where
  /-- `explicit` are the definitions registered with the select, `referenced` those of the common
  tables in its FROM and joins. -/
  | node (explicit referenced : List Definition) (core tail : Fragment)
      (members : List (SetOperator × Compound))

namespace Compound

def explicit : Compound → List Definition
  | .node explicit .. => explicit

def core : Compound → Fragment
  | .node _ _ core _ _ => core

def tail : Compound → Fragment
  | .node _ _ _ tail _ => tail

def members : Compound → List (SetOperator × Compound)
  | .node _ _ _ _ members => members

/-- A member that needs no parentheses. -/
def isPlain : Compound → Bool
  | .node _ _ _ tail members => tail.isEmpty && members.isEmpty

mutual

/-- The definitions referenced by a select and its members, at any depth. -/
def referenced : Compound → List Definition
  | .node _ referenced _ _ members => referenced ++ referencedAll members

def referencedAll : List (SetOperator × Compound) → List Definition
  | [] => []
  | (_, c) :: rest => c.referenced ++ referencedAll rest

end

mutual

/-- The select with its members and its tail, without WITH. -/
def body : Compound → Fragment
  | .node _ _ core tail members => core ++ bodyAll members ++ tail

/-- The members behind their operators. -/
def bodyAll : List (SetOperator × Compound) → Fragment
  | [] => []
  | (operator, c) :: rest =>
      Fragment.text (" " ++ operator.keyword ++ " ")
        ++ (if c.isPlain then c.body else c.body.parenthesized) ++ bodyAll rest

end

/-- The definitions of the WITH clause: the select's own, those referenced at any depth, and
those registered with its members. -/
def definitions : Compound → List Definition
  | .node explicit refs core tail members =>
      Definition.collect explicit
        ((Compound.node explicit refs core tail members).referenced
          ++ members.flatMap fun (_, c) => c.explicit)

/-- The WITH clause is written once, in front of everything. -/
def render (c : Compound) : Fragment := Definition.clause c.definitions ++ c.body

end Compound

end BoundSql.Sql
