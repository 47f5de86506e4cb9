import BoundSql.Run.Exec
import BoundSql.Run.Server
import BoundSql.Sql.Predicate
import BoundSql.Proofs.Emission
import BoundSql.Proofs.Placeholders
import BoundSql.Proofs.Alike
import BoundSql.Proofs.Slots
import BoundSql.Proofs.Mapper
import BoundSql.Proofs.Cursor
import BoundSql.Proofs.Projection
import BoundSql.Proofs.Alignment
import BoundSql.Proofs.BooleanStructure
import BoundSql.Sql.Supplied
import BoundSql.Proofs.Inlining
import BoundSql.Proofs.InlinedStatement
import BoundSql.Proofs.SetStructure
import BoundSql.Proofs.WithClause
import BoundSql.Proofs.Hoisting
import BoundSql.Proofs.DefinitionOrder
import BoundSql.Proofs.Observation
import BoundSql.Proofs.PrefixFold
import BoundSql.Proofs.Deadline
import BoundSql.Proofs.Silence
import BoundSql.Proofs.Transcript
import BoundSql.Sql.Nested
import BoundSql.Proofs.Portability
import BoundSql.Sql.Clause
import BoundSql.Proofs.Commutation
import BoundSql.Proofs.Utf8
import BoundSql.Proofs.BigEndian
import BoundSql.Proofs.WireFormat
import BoundSql.Proofs.Faults
import BoundSql.Proofs.EmptyGroups
import BoundSql.Proofs.InsertedValues
import BoundSql.Proofs.Segments
import BoundSql.Proofs.ClosedLiterals
import BoundSql.Proofs.Exclusion
import BoundSql.Proofs.Families
import BoundSql.Proofs.Membership
import BoundSql.Sql.Mentions
import BoundSql.Proofs.Mentions
import BoundSql.Proofs.Qualifiers
import BoundSql.Proofs.TemplateExpansion
import BoundSql.Proofs.Negation
import BoundSql.Proofs.CivilDate
import BoundSql.Proofs.TimeText
import BoundSql.Proofs.Limits
import BoundSql.Proofs.IntegerText
import BoundSql.Proofs.Truncation
import BoundSql.Proofs.WholeDoubles
