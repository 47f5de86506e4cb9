import BoundSql.Text.Digits

/-!
# UUIDs

Sixteen bytes, written in groups of 8, 4, 4, 4 and 12 hexadecimal digits. Reading also takes the
digits without hyphens, and the hyphenated form in braces or after `urn:uuid:`.
-/
namespace BoundSql

structure Uuid where
  bytes : List UInt8
  deriving DecidableEq

namespace Uuid

open Text

def chars (u : Uuid) : List Char :=
  let ds := u.bytes.flatMap Digits.hexByte
  ds.take 8 ++ '-' :: (ds.drop 8).take 4 ++ '-' :: (ds.drop 12).take 4
    ++ '-' :: (ds.drop 16).take 4 ++ '-' :: ds.drop 20

def toText (u : Uuid) : String := String.ofList u.chars

/-- Thirty-six characters with hyphens at the four places. -/
def hyphenated? (cs : List Char) : Option Uuid :=
  if cs.length = 36 ∧ cs[8]? = some '-' ∧ cs[13]? = some '-' ∧ cs[18]? = some '-'
      ∧ cs[23]? = some '-' then
    (Digits.hexBytes?
      (cs.take 8 ++ (cs.drop 9).take 4 ++ (cs.drop 14).take 4 ++ (cs.drop 19).take 4
        ++ cs.drop 24)).map Uuid.mk
  else none

def urn : List Char := "urn:uuid:".toList

def parse? (cs : List Char) : Option Uuid :=
  if cs.length = 32 then (Digits.hexBytes? cs).map Uuid.mk
  else if cs.length = 36 then hyphenated? cs
  else if cs.length = 38 ∧ cs.head? = some '\x7b' ∧ cs.getLast? = some '\x7d' then
    hyphenated? ((cs.drop 1).take 36)
  else if cs.length = 45 ∧ urn.isPrefixOf cs then hyphenated? (cs.drop 9)
  else none

end Uuid

end BoundSql
