import BoundSql.Sql.Tree
import BoundSql.Sql.Template
import BoundSql.Value.Native

/-!
# Fields

How fields are built, marked, compared and assigned. A comparison is a template whose first slot
is the field itself. `TypedField κ` is a column or a literal whose kind is known; it is compared
with native values of its kind.
-/
namespace BoundSql.Sql

open Number (Binary64)
open Calendar (Instant)

/-- The comparisons of a field with a value or with another field. -/
inductive Comparison where
  | eq
  | ne
  | lt
  | le
  | gt
  | ge
  | like
  | notLike
  | ilike
  | notIlike
  deriving DecidableEq, Repr

def Comparison.operator : Comparison → String
  | eq => "="
  | ne => "<>"
  | lt => "<"
  | le => "<="
  | gt => ">"
  | ge => ">="
  | like => "LIKE"
  | notLike => "NOT LIKE"
  | ilike => "ILIKE"
  | notIlike => "NOT ILIKE"

/-- The four marks that a sort or a select list adds to a field. -/
inductive Mark where
  | ascending
  | descending
  | nullsFirst
  | nullsLast
  deriving DecidableEq, Repr

/-- A later mark replaces an earlier one of its sort. -/
def Marks.add (m : Marks) : Mark → Marks
  | .ascending => { m with direction := some .ascending }
  | .descending => { m with direction := some .descending }
  | .nullsFirst => { m with nulls := some .first }
  | .nullsLast => { m with nulls := some .last }

/-- A predicate from a template. -/
def Predicate.ofTemplate (template : String) (args : List Arg) : Predicate :=
  .template false template args ""

namespace Field

/-- A column of a table. -/
def column (name : String) (t : Table) : Field := .plain (.column t.qualifier name) {}

/-- A column without qualifier. -/
def bare (name : String) : Field := .plain (.column "" name) {}

def ofTemplate (template : String) (args : List Arg) : Field := .derived template args {}

/-- Marks apply to plain and derived fields. -/
def mapMarks (f : Field) (g : Marks → Marks) : Field :=
  match f with
  | .plain term marks => .plain term (g marks)
  | .derived template args marks => .derived template args (g marks)
  | other => other

/-- Replace the name after AS. -/
def named (f : Field) (asName : String) : Field := f.mapMarks ({ · with asName })

def mark (f : Field) (m : Mark) : Field := f.mapMarks (·.add m)

/-- The field itself fills the first slot. -/
def compare (f : Field) (c : Comparison) (a : Arg) : Predicate :=
  .ofTemplate ("? " ++ c.operator ++ " ?") [.field f, a]

def isNull (f : Field) : Predicate := .ofTemplate "? IS NULL" [.field f]

def isNotNull (f : Field) : Predicate := .ofTemplate "? IS NOT NULL" [.field f]

/-- The list fills one slot, however long it is. -/
def inValues (f : Field) (vs : List Value) : Predicate :=
  .ofTemplate "? IN ?" [.field f, .list vs]

def notInValues (f : Field) (vs : List Value) : Predicate :=
  .ofTemplate "? NOT IN ?" [.field f, .list vs]

/-- The subquery fills the second slot. -/
def inQuery (f : Field) (q : Query) : Predicate := .ofTemplate "? IN ?" [.field f, .query q]

def between (f : Field) (low high : Value) : Predicate :=
  .ofTemplate "? BETWEEN ? AND ?" [.field f, .value low, .value high]

/-- Assign a value that is bound. -/
def assign (f : Field) (v : Value) : Assignment := ⟨f, .value v⟩

/-- Assign another field, which is written with its qualifier. -/
def assignField (f g : Field) : Assignment := ⟨f, .field g⟩

/-- The column of the row that PostgreSQL proposes for insertion. -/
def proposed (f : Field) : Field := .plain (.column "EXCLUDED" f.name) {}

/-- The value that MySQL would insert into the column. -/
def insertedValue (f : Field) : Field :=
  .ofTemplate (Template.escaped ("VALUES(" ++ identifier f.name ++ ")")) []

end Field

/-- A column of a common table. -/
def CommonTable.column (c : CommonTable) (name : String) : Field :=
  .plain (.column (Table.common c).qualifier name) {}

/-- The kinds of typed fields. -/
inductive FieldKind where
  | boolean
  | number
  | text
  | time
  deriving DecidableEq, Repr

/-- A column or a literal of one kind. -/
structure TypedField (κ : FieldKind) where
  term : Term
  marks : Marks := {}

namespace TypedField

variable {κ : FieldKind}

def column (name : String) (t : Table) : TypedField κ := ⟨.column t.qualifier name, {}⟩

def bare (name : String) : TypedField κ := ⟨.column "" name, {}⟩

def ofBool (b : Bool) : TypedField .boolean := ⟨.literal (.bool b), {}⟩

def ofInt (n : Int64) : TypedField .number := ⟨.literal (.int n), {}⟩

def ofFloat (x : Binary64) : TypedField .number := ⟨.literal (.float x), {}⟩

def ofText (s : String) : TypedField .text := ⟨.literal (.text s), {}⟩

def ofInstant (t : Instant) : TypedField .time := ⟨.literal (.time t), {}⟩

/-- The field without its kind. -/
def toField (f : TypedField κ) : Field := .plain f.term f.marks

def named (f : TypedField κ) (asName : String) : TypedField κ :=
  { f with marks := { f.marks with asName } }

def mark (f : TypedField κ) (m : Mark) : TypedField κ := { f with marks := f.marks.add m }

/-- A boolean field is itself a predicate. -/
def toPredicate (f : TypedField .boolean) : Predicate := .flag false f.term f.marks

def compareBool (f : TypedField .boolean) (c : Comparison) (b : Bool) : Predicate :=
  f.toField.compare c (.value (.bool b))

/-- Native values are compared as the values that they are bound as. -/
def compareInt (f : TypedField .number) (c : Comparison) (n : Int64) : Predicate :=
  f.toField.compare c (.value (.int n))

def compareFloat (f : TypedField .number) (c : Comparison) (x : Binary64) : Predicate :=
  f.toField.compare c (.value (.float x))

def compareText (f : TypedField .text) (c : Comparison) (s : String) : Predicate :=
  f.toField.compare c (.value (.text s))

def compareInstant (f : TypedField .time) (c : Comparison) (t : Instant) : Predicate :=
  f.toField.compare c (.value (.time t))

def betweenInts (f : TypedField .number) (low high : Int64) : Predicate :=
  f.toField.between (.int low) (.int high)

def betweenInstants (f : TypedField .time) (low high : Instant) : Predicate :=
  f.toField.between (.time low) (.time high)

end TypedField

end BoundSql.Sql
