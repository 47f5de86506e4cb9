import BoundSql.Proofs.BigEndian
import BoundSql.Proofs.Digits
import BoundSql.Proofs.Utf8
import BoundSql.Wire.Decode

/-!
# What a column gives back

Booleans, integers, texts and bytes are written down here as they stand on the wire, each with the
value that a column of its type gives back. Binding sends exactly these bytes and nothing else, and
decoding reads exactly these values.
-/
namespace BoundSql

namespace Wire

/-- In how many bytes a type stores integers, from which one on and below which one. -/
structure IntegerFormat where
  width : Nat
  low : Int
  bound : Int

def ColumnType.integerFormat? : ColumnType → Option IntegerFormat
  | .int2 => some ⟨2, -2 ^ 15, 2 ^ 15⟩
  | .int4 => some ⟨4, -2 ^ 31, 2 ^ 31⟩
  | .int8 => some ⟨8, -2 ^ 63, 2 ^ 63⟩
  | .oid => some ⟨4, 0, 2 ^ 32⟩
  | _ => none

/-- What a value is as a text, if it can be stored as one. -/
def spelled? : Value → Option String
  | .text s => some s
  | .int n => some (toString n.toInt)
  | .json j => some j.toText
  | _ => none

/-- A value, the bytes that it has in a column of this type, and the value that they stand for. -/
inductive Carried (type : ColumnType) : Value → Option (List UInt8) → Value → Prop where
  | null : Carried type .null none .null
  | bool (htype : type = .bool) (b : Bool) :
      Carried type (.bool b) (some [if b then 1 else 0]) (.bool b)
  /-- Big-endian, in two's complement if the type has negative integers. -/
  | int {f : IntegerFormat} (htype : type.integerFormat? = some f) {n : Int64}
      (hlow : f.low ≤ n.toInt) (hbound : n.toInt < f.bound) {bytes : List UInt8}
      (hlength : bytes.length = f.width)
      (hbytes : (unsigned bytes : Int) = n.toInt % 256 ^ f.width) :
      Carried type (.int n) (some bytes) (.int n)
  | text (htype : type.isPlainText) {v : Value} {s : String} (hv : spelled? v = some s)
      {bytes : List UInt8} (hbytes : bytes.toByteArray = s.toUTF8) :
      Carried type v (some bytes) (.text s)
  | bytes (htype : type = .bytea) (bs : List UInt8) :
      Carried type (.bytes bs) (some bs) (.bytes bs)

/-- The types whose format is described here. -/
def carriedTypes : List ColumnType :=
  [.bool, .int2, .int4, .int8, .oid, .text, .varchar, .bpchar, .name, .bytea]

variable {type : ColumnType} {v w : Value} {n : Int} {bytes : List UInt8}

/-- The bytes of an integer in two's complement are those that denote it, if it fits. -/
theorem signedBound_eq_ok {k : Nat} :
    signedBound k n = .ok bytes ↔
      -256 ^ k ≤ 2 * n ∧ 2 * n < 256 ^ k ∧ bytes.length = k ∧
        (unsigned bytes : Int) = n % 256 ^ k := by
  unfold signedBound
  rw [natCast_size]
  constructor
  · intro h
    split at h
    case isTrue hfits =>
      cases h
      exact ⟨hfits.1, hfits.2, length_unsignedBytes k _, unsigned_signedBytes n k⟩
    case isFalse => cases h
  · rintro ⟨hlow, hhigh, hlength, hbytes⟩
    have hnat : (n % 256 ^ k).toNat = unsigned bytes := by rw [← hbytes, Int.toNat_natCast]
    rw [if_pos ⟨hlow, hhigh⟩, signedBytes, natCast_size, hnat, ← hlength, unsignedBytes_unsigned]

theorem unsignedBound_eq_ok {k : Nat} :
    unsignedBound k n = .ok bytes ↔
      0 ≤ n ∧ n < 256 ^ k ∧ bytes.length = k ∧ (unsigned bytes : Int) = n % 256 ^ k := by
  unfold unsignedBound
  rw [natCast_size]
  constructor
  · intro h
    split at h
    case isTrue hfits =>
      cases h
      refine ⟨hfits.1, hfits.2, length_unsignedBytes k _, ?_⟩
      rw [unsigned_unsignedBytes (toNat_lt_size hfits.1 hfits.2), Int.toNat_of_nonneg hfits.1,
        Int.emod_eq_of_lt hfits.1 hfits.2]
    case isFalse => cases h
  · rintro ⟨hlow, hhigh, hlength, hbytes⟩
    have hnat : n.toNat = unsigned bytes := by
      rw [Int.emod_eq_of_lt hlow hhigh] at hbytes
      rw [← hbytes, Int.toNat_natCast]
    rw [if_pos ⟨hlow, hhigh⟩, hnat, ← hlength, unsignedBytes_unsigned]

section Integers

variable {f : IntegerFormat} {n : Int64}

theorem bindInt_eq_ok (hf : type.integerFormat? = some f) :
    bindInt n type = .ok bytes ↔
      f.low ≤ n.toInt ∧ n.toInt < f.bound ∧ bytes.length = f.width ∧
        (unsigned bytes : Int) = n.toInt % 256 ^ f.width := by
  cases type with
  | int2 | int4 | int8 =>
      cases hf
      rw [bindInt, signedBound_eq_ok]
      dsimp only
      constructor <;> rintro ⟨hlow, hbound, hbytes⟩ <;> exact ⟨by omega, by omega, hbytes⟩
  | oid =>
      cases hf
      rw [bindInt, unsignedBound_eq_ok]
      dsimp only
      constructor <;> rintro ⟨hlow, hbound, hbytes⟩ <;> exact ⟨by omega, by omega, hbytes⟩
  | _ => cases hf

/-- Reading brings back an integer that the type can store. -/
theorem value?_of_format (hf : type.integerFormat? = some f) (hlow : f.low ≤ n.toInt)
    (hbound : n.toInt < f.bound) (hlength : bytes.length = f.width)
    (hbytes : (unsigned bytes : Int) = n.toInt % 256 ^ f.width) :
    value? type bytes = some (.int n) := by
  have hsigned (hlow' : -256 ^ f.width ≤ 2 * n.toInt) (hhigh : 2 * n.toInt < 256 ^ f.width) :
      signed? f.width bytes = some n.toInt := by
    rw [← hlength] at hlow' hhigh hbytes ⊢
    rw [signed?, if_pos rfl, signed_eq_of_emod hlow' hhigh hbytes]
  cases type with
  | int2 | int4 | int8 =>
      cases hf
      dsimp only at hlow hbound hsigned
      rw [value?, hsigned (by omega) (by omega), Option.map_some, Int64.ofInt_toInt]
  | oid =>
      cases hf
      dsimp only at hlow hbound hlength hbytes
      have hnat : n.toInt = unsigned bytes := by omega
      have hint : Int64.ofNat (unsigned bytes) = n := by
        rw [← Int64.ofInt_toInt n, hnat]
        rfl
      rw [value?, unsigned?, if_pos hlength, Option.map_some, hint]
  | _ => cases hf

end Integers

section Texts

variable {s : String}

theorem eq_encodeText (h : bytes.toByteArray = s.toUTF8) : bytes = Text.Utf8.encodeText s := by
  have hdata := congrArg (fun b => b.data.toList)
    (h.trans (Text.Utf8.toByteArray_encodeText s).symm)
  simpa only [List.data_toByteArray] using hdata

/-- A text type sends the text itself, whatever is spelled so. -/
theorem bind_of_text (htype : type.isPlainText) (hv : spelled? v = some s) :
    bind type v = .ok (some (Text.Utf8.encodeText s)) := by
  cases v with
  | text t =>
      cases hv
      cases type <;> cases htype <;> rfl
  | int n =>
      cases hv
      rw [← Text.Digits.intText_eq_toString]
      cases type <;> cases htype <;> rfl
  | json j =>
      cases hv
      cases type <;> cases htype <;> rfl
  | _ => cases hv

theorem value?_of_text (htype : type.isPlainText) (s : String) :
    value? type (Text.Utf8.encodeText s) = some (.text s) := by
  have hvalue : value? type (Text.Utf8.encodeText s) =
      ((Text.Utf8.decodeText (Text.Utf8.encodeText s)).toOption).map .text := by
    cases type <;> cases htype <;> rfl
  rw [hvalue, Text.Utf8.decodeText_encodeText]
  rfl

end Texts

theorem isSupported_of_mem (htype : type ∈ carriedTypes) : isSupported type := by
  cases type with
  | other name => simp [carriedTypes] at htype
  | _ => rfl

/-- What the format describes is sent so, and read back as the format says. -/
theorem Carried.sent_and_read {bytes : Option (List UInt8)} (htype : type ∈ carriedTypes)
    (h : Carried type v bytes w) : bind type v = .ok bytes ∧ decode type bytes = .ok w := by
  have hdecode (bs : List UInt8) (hvalue : value? type bs = some w) :
      decode type (some bs) = .ok w := by
    rw [decode, isSupported_of_mem htype, hvalue]
    rfl
  cases h with
  | null =>
      refine ⟨rfl, ?_⟩
      rw [decode, isSupported_of_mem htype]
      rfl
  | bool hbool b =>
      subst hbool
      exact ⟨rfl, hdecode _ (by cases b <;> rfl)⟩
  | @int f hf n hlow hbound bytes hlength hbytes =>
      refine ⟨?_, hdecode _ (value?_of_format hf hlow hbound hlength hbytes)⟩
      rw [bind, (bindInt_eq_ok hf).mpr ⟨hlow, hbound, hlength, hbytes⟩]
      rfl
  | text htext hv hbytes =>
      obtain rfl := eq_encodeText hbytes
      exact ⟨bind_of_text htext hv, hdecode _ (value?_of_text htext _)⟩
  | bytes hbytea bs =>
      subst hbytea
      exact ⟨rfl, rfl⟩

/-- The types by what they store. -/
theorem kind_of_mem (htype : type ∈ carriedTypes) :
    type = .bool ∨ type = .bytea ∨ (∃ f, type.integerFormat? = some f) ∨ type.isPlainText := by
  simp only [carriedTypes, List.mem_cons, List.not_mem_nil, or_false] at htype
  obtain rfl | rfl | rfl | rfl | rfl | rfl | rfl | rfl | rfl | rfl := htype <;>
    simp [ColumnType.integerFormat?, ColumnType.isPlainText]

/-- Nothing else is sent, doubles apart. -/
theorem exists_carried_of_bind {bytes : Option (List UInt8)} (htype : type ∈ carriedTypes)
    (hv : ∀ x, v ≠ .float x) (h : bind type v = .ok bytes) : ∃ w, Carried type v bytes w := by
  obtain rfl | rfl | ⟨f, hf⟩ | htext := kind_of_mem htype
  case inl =>
    cases v with
    | null => cases h; exact ⟨_, .null⟩
    | bool b => cases h; exact ⟨_, .bool rfl b⟩
    | float x => exact absurd rfl (hv x)
    | _ => cases h
  case inr.inl =>
    cases v with
    | null => cases h; exact ⟨_, .null⟩
    | bytes bs => cases h; exact ⟨_, .bytes rfl bs⟩
    | float x => exact absurd rfl (hv x)
    | _ => cases h
  case inr.inr.inl =>
    cases v with
    | null => cases h; exact ⟨_, .null⟩
    | int n =>
        cases hbytes : bindInt n type with
        | error cause =>
            rw [bind, hbytes] at h
            cases h
        | ok bs =>
            rw [bind, hbytes] at h
            cases h
            obtain ⟨hlow, hbound, hlength, hvalue⟩ := (bindInt_eq_ok hf).mp hbytes
            exact ⟨_, .int hf hlow hbound hlength hvalue⟩
    | float x => exact absurd rfl (hv x)
    | _ => cases type <;> cases hf <;> cases h
  case inr.inr.inr =>
    have hspelled {s : String} (hs : spelled? v = some s) : ∃ w, Carried type v bytes w := by
      rw [bind_of_text htext hs] at h
      cases h
      exact ⟨_, .text htext hs (Text.Utf8.toByteArray_encodeText s)⟩
    cases v with
    | null => cases h; exact ⟨_, .null⟩
    | int n => exact hspelled rfl
    | text s => exact hspelled rfl
    | json j => exact hspelled rfl
    | float x => exact absurd rfl (hv x)
    | _ => cases type <;> cases htext <;> cases h

/-- Of a value that is no double, a column of these types is sent the bytes that the wire format has
for it and nothing else, and it is refused exactly if there are none. What comes back is the value
that these bytes stand for. -/
theorem bound_values_come_back (htype : type ∈ carriedTypes) (hv : ∀ x, v ≠ .float x) :
    (∀ bytes, bind type v = .ok bytes ↔ ∃ w, Carried type v bytes w) ∧
      ((∃ cause, bind type v = .error cause) ↔ ∀ bytes w, ¬Carried type v bytes w) ∧
      ∀ bytes w, Carried type v bytes w → decode type bytes = .ok w := by
  have hsent (bytes : Option (List UInt8)) :
      bind type v = .ok bytes ↔ ∃ w, Carried type v bytes w :=
    ⟨exists_carried_of_bind htype hv, fun ⟨_, h⟩ => (h.sent_and_read htype).1⟩
  refine ⟨hsent, ⟨?_, ?_⟩, fun _ _ h => (h.sent_and_read htype).2⟩
  · rintro ⟨cause, hcause⟩ bytes w h
    rw [(hsent bytes).mpr ⟨w, h⟩] at hcause
    cases hcause
  · intro hnone
    cases hbind : bind type v with
    | error cause => exact ⟨cause, rfl⟩
    | ok bytes =>
        obtain ⟨w, h⟩ := (hsent bytes).mp hbind
        exact absurd h (hnone bytes w)

/-- Two bytes in two's complement, and the first integer that they cannot hold. -/
theorem smallint_comes_back :
    (bind .int2 (.int (-2)) = .ok (some [255, 254]) ∧
      decode .int2 (some [255, 254]) = .ok (.int (-2))) ∧
    ∃ cause, bind .int2 (.int 32768) = .error cause := by
  have hcarried : Carried .int2 (.int (-2)) (some [255, 254]) (.int (-2)) :=
    .int rfl (by decide) (by decide) rfl (by decide)
  have hlarge : ∀ bytes w, ¬Carried .int2 (.int 32768) bytes w := by
    rintro bytes w (_ | _ | ⟨hf, -, hbound⟩ | ⟨htext⟩ | _)
    · cases hf
      exact absurd hbound (by decide)
    · cases htext
  obtain ⟨hsent, -, hread⟩ := @bound_values_come_back .int2 (.int (-2)) (by decide) nofun
  obtain ⟨-, hrefused, -⟩ := @bound_values_come_back .int2 (.int 32768) (by decide) nofun
  exact ⟨⟨(hsent _).mpr ⟨_, hcarried⟩, hread _ _ hcarried⟩, hrefused.mpr hlarge⟩

end Wire

end BoundSql
