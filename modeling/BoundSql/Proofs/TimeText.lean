import BoundSql.Calendar.Parse
import BoundSql.Proofs.CivilDate
import BoundSql.Proofs.Digits
import BoundSql.Value.Convert

/-!
# Times as texts

The text of an instant is read as the instant that it was written as. A padded field is followed by
a separator, which is no digit, so each field is read as it was written; the year takes a sign where
four digits are not enough. The internet form, which is tried first, ends in an offset that no such
text has. What remains is the calendar: the civil time of an instant is a time of this instant,
unless a leap second is written as the next second.
-/
namespace BoundSql.Calendar

open Text.Digits

theorem number_padded (least width : Nat) {n : Nat} (hleast : least ≤ width) (hwidth : 0 < width)
    (h : n < Nat.pow 10 width) (rest : List Char) :
    number least width (padded width n ++ rest) = some (n, rest) := by
  have hlength := length_padded hwidth h
  simp only [number, List.take_left' hlength, takeWhile_padded, value_padded]
  rw [if_neg (by omega), List.drop_left]

/-- A run of digits ends where a minus stands behind it. -/
theorem longNumber_padded (width n : Nat) (rest : List Char) :
    longNumber (padded width n ++ '-' :: rest) = some (n, '-' :: rest) := by
  have hdigits : (padded width n ++ '-' :: rest).takeWhile isDigit = padded width n := by
    rw [List.takeWhile_append_of_pos fun _ hc => isDigit_of_mem_padded hc,
      List.takeWhile_cons_of_neg (by decide), List.append_nil]
  simp only [longNumber, hdigits, value_padded, List.drop_left]
  rw [if_neg (by simpa using padded_ne_nil width n)]

theorem trimStart_padded (width n : Nat) (rest : List Char) :
    Text.trimStart (padded width n ++ rest) = padded width n ++ rest := by
  obtain ⟨c, cs, hcs, hc⟩ := exists_digit_padded width n
  rw [hcs, List.cons_append, Text.trimStart, List.dropWhile_cons_of_neg]
  simp [isBlank_of_isDigit hc]

theorem exactly_cons (c : Char) (cs : List Char) : exactly c (c :: cs) = some cs := if_pos rfl

theorem plainNumber_space (cs : List Char) : plainNumber (' ' :: cs) = plainNumber cs := rfl

theorem plainNumber_padded {n : Nat} (h : n < 100) (rest : List Char) :
    plainNumber (padded 2 n ++ rest) = some (n, rest) := by
  rw [plainNumber, trimStart_padded, number_padded 1 2 (by decide) (by decide) h]

theorem fraction_padded {width n : Nat} (hwidth : 0 < width) (hwidth' : width ≤ 9)
    (h : n < Nat.pow 10 width) :
    fraction ('.' :: padded width n) = some (n * Nat.pow 10 (9 - width), []) := by
  have hlength := length_padded hwidth h
  simp only [fraction, takeWhile_padded]
  rw [if_neg (by simpa using padded_ne_nil width n), List.take_of_length_le (by omega),
    value_padded, hlength, List.drop_of_length_le hlength.le]

/-- The zeros that the shorter widths leave out count nothing. -/
theorem fraction_fractionChars {nanos : Nat} (h : nanos < 1000000000) :
    fraction (fractionChars nanos) = some (nanos, []) := by
  unfold fractionChars
  split
  case isTrue hzero =>
    rw [hzero, fraction]
    simp
  case isFalse =>
    split
    case isTrue hmillis =>
      rw [fraction_padded (by decide) (by decide) (show nanos / 1000000 < 1000 by omega)]
      have hnanos : nanos / 1000000 * 1000000 = nanos := by omega
      exact congrArg (fun n => some (n, [])) hnanos
    case isFalse =>
      split
      case isTrue hmicros =>
        rw [fraction_padded (by decide) (by decide) (show nanos / 1000 < 1000000 by omega)]
        have hnanos : nanos / 1000 * 1000 = nanos := by omega
        exact congrArg (fun n => some (n, [])) hnanos
      case isFalse =>
        rw [fraction_padded (by decide) (by decide) h]
        exact congrArg (fun n => some (n, [])) (Nat.mul_one nanos)

theorem plainYear_minus (cs : List Char) :
    plainYear ('-' :: cs) = (longNumber cs).map fun (n, rest) => (-(n : Int), rest) := rfl

theorem plainYear_plus (cs : List Char) :
    plainYear ('+' :: cs) = (longNumber cs).map fun (n, rest) => ((n : Int), rest) := rfl

theorem plainYear_padded {n : Nat} (h : n < 10000) (rest : List Char) :
    plainYear (padded 4 n ++ rest) = some ((n : Int), rest) := by
  obtain ⟨c, cs, hcs, hc⟩ := exists_digit_padded 4 n
  have hnumber := number_padded 1 4 (by decide) (by decide) h rest
  rw [plainYear, trimStart_padded]
  rw [hcs, List.cons_append] at hnumber ⊢
  split
  case h_1 hminus =>
    obtain ⟨rfl, -⟩ := List.cons.inj hminus
    exact absurd hc (by decide)
  case h_2 hplus =>
    obtain ⟨rfl, -⟩ := List.cons.inj hplus
    exact absurd hc (by decide)
  case h_3 => rw [hnumber, Option.map_some]

/-- With the sign in front of it a year of any length is read to its end. -/
theorem plainYear_yearChars (year : Int) (rest : List Char) :
    plainYear (yearChars year ++ '-' :: rest) = some (year, '-' :: rest) := by
  have hlong := longNumber_padded 4 year.natAbs rest
  unfold yearChars
  split
  case isTrue h =>
    have hyear : (year.natAbs : Int) = year := by omega
    rw [plainYear_padded (by omega), hyear]
  case isFalse h =>
    split
    case isTrue hnegative =>
      have hyear : -(year.natAbs : Int) = year := by omega
      rw [List.cons_append, plainYear_minus, hlong]
      exact congrArg (fun y => some (y, '-' :: rest)) hyear
    case isFalse =>
      have hyear : (year.natAbs : Int) = year := by omega
      rw [List.cons_append, plainYear_plus, hlong]
      exact congrArg (fun y => some (y, '-' :: rest)) hyear

/-- Two digits hold each field after the year, and nine the fraction. -/
structure CivilTime.Fits (c : CivilTime) : Prop where
  month : c.date.month < 100
  day : c.date.day < 100
  hour : c.hour < 100
  minute : c.minute < 100
  second : c.second < 100
  nanos : c.nanos < 1000000000

theorem parsePlain?_chars {c : CivilTime} (h : c.Fits) : parsePlain? c.chars = c.toInstant? 0 := by
  obtain ⟨⟨year, month, day⟩, hour, minute, second, nanos⟩ := c
  simp only [CivilTime.chars, dateChars, clockChars, List.append_assoc, List.cons_append,
    parsePlain?, plainYear_yearChars, exactly_cons, plainNumber_space,
    plainNumber_padded h.month, plainNumber_padded h.day, plainNumber_padded h.hour,
    plainNumber_padded h.minute, plainNumber_padded h.second, fraction_fractionChars h.nanos,
    Option.bind_eq_bind, Option.bind_some]
  rfl

theorem bind_of_read {α β : Type} {o : Option α} {a : α} (h : o = some a) (f : α → Option β) :
    o.bind f = f a := by
  rw [h, Option.bind_some]

/-- Where four digits hold the year, only the offset is missing; a sign is no digit of a year. -/
theorem parseInternet?_chars {c : CivilTime} (h : c.Fits) : parseInternet? c.chars = none := by
  obtain ⟨⟨year, month, day⟩, hour, minute, second, nanos⟩ := c
  simp only [CivilTime.chars, dateChars, clockChars, List.append_assoc, List.cons_append,
    parseInternet?]
  unfold yearChars
  split
  case isTrue hyear =>
    have hfour := number_padded 4 4 (by decide) (by decide) (show year.natAbs < 10000 by omega)
    have htwo {n : Nat} (hn : n < 100) := number_padded 2 2 (by decide) (by decide) hn
    -- One step for each field and separator, in the order of the text.
    refine (bind_of_read (hfour _) _).trans ?_
    refine (bind_of_read (exactly_cons _ _) _).trans ?_
    refine (bind_of_read (htwo h.month _) _).trans ?_
    refine (bind_of_read (exactly_cons _ _) _).trans ?_
    refine (bind_of_read (htwo h.day _) _).trans ?_
    refine (if_pos (by decide)).trans ?_
    refine (bind_of_read (htwo h.hour _) _).trans ?_
    refine (bind_of_read (exactly_cons _ _) _).trans ?_
    refine (bind_of_read (htwo h.minute _) _).trans ?_
    refine (bind_of_read (exactly_cons _ _) _).trans ?_
    refine (bind_of_read (htwo h.second _) _).trans ?_
    exact bind_of_read (fraction_fractionChars h.nanos) _
  case isFalse =>
    split <;> rfl

theorem daysInMonth_le (year : Int) (month : Nat) : daysInMonth year month ≤ 31 := by
  unfold daysInMonth
  split_ifs <;> decide

theorem fits_ofInstant (t : Instant) : (CivilTime.ofInstant t).Fits := by
  have hvalid := Date.isValid_ofDays t.days
  have hday := daysInMonth_le (Date.ofDays t.days).year (Date.ofDays t.days).month
  simp only [Date.isValid, Bool.and_eq_true, decide_eq_true_eq] at hvalid
  have hnanos := t.nanos_lt
  constructor <;> simp only [CivilTime.ofInstant] <;> omega

/-- A civil time within the bounds of its fields is a time of the instant they add up to. Second 60
is a leap second and stands for the nanoseconds past the last second. -/
theorem toInstant?_eq_some {c : CivilTime} {t : Instant} (hdate : c.date.isValid)
    (hyear : -262143 ≤ c.date.year ∧ c.date.year ≤ 262142) (hclock : c.hour < 24 ∧ c.minute < 60)
    (hseconds : c.date.toDays * 86400 +
      (c.hour * 3600 + c.minute * 60 + min c.second 59 : Nat) = t.seconds)
    (hnanos : c.second ≤ 59 ∧ t.nanos = c.nanos ∨
      c.second = 60 ∧ t.nanos = c.nanos + 1000000000) :
    c.toInstant? 0 = some t := by
  have hsecond : c.second ≤ 60 := by omega
  have hleap : (if c.second = 60 then c.nanos + 1000000000 else c.nanos) = t.nanos := by
    split <;> omega
  rw [CivilTime.toInstant?, if_pos (by simp [hdate, hyear, hclock, hsecond])]
  simp only [Int.sub_zero, hseconds, hleap]
  rw [Instant.ofParts?, dif_pos ⟨t.inRange, t.nanos_lt⟩]

/-- A leap second that is not at the end of a minute has the text of the next second. -/
def Instant.asWritten (t : Instant) : Instant :=
  if h : t.nanos < 1000000000 ∨ t.seconds % 60 = 59 then t
  else
    have hnext : minSeconds ≤ t.seconds + 1 ∧ t.seconds + 1 ≤ maxSeconds := by
      have hrange := t.inRange
      unfold minSeconds maxSeconds at *
      omega
    have hnanos : t.nanos - 1000000000 < 2000000000 := by
      have hnanos := t.nanos_lt
      omega
    ⟨t.seconds + 1, t.nanos - 1000000000, hnext, hnanos⟩

theorem Instant.asWritten_cases (t : Instant) :
    (t.nanos < 1000000000 ∨ t.seconds % 60 = 59) ∧ t.asWritten = t ∨
      ¬ (t.nanos < 1000000000 ∨ t.seconds % 60 = 59) ∧ t.asWritten.seconds = t.seconds + 1 ∧
        t.asWritten.nanos = t.nanos - 1000000000 := by
  unfold asWritten
  split
  case isTrue h => exact .inl ⟨h, rfl⟩
  case isFalse h => exact .inr ⟨h, rfl, rfl⟩

theorem Instant.asWritten_eq_self_iff (t : Instant) :
    t.asWritten = t ↔ t.nanos < 1000000000 ∨ t.seconds % 60 = 59 := by
  obtain ⟨h, heq⟩ | ⟨h, hseconds, -⟩ := t.asWritten_cases
  · exact iff_of_true heq h
  · refine iff_of_false (fun heq => ?_) h
    rw [heq] at hseconds
    omega

theorem toInstant?_ofInstant (t : Instant) :
    (CivilTime.ofInstant t).toInstant? 0 = some t.asWritten := by
  have hnanos := t.nanos_lt
  have hwritten : t.asWritten.seconds = t.seconds ∧ t.asWritten.nanos = t.nanos ∧
        (t.nanos < 1000000000 ∨ t.seconds % 60 = 59) ∨
      t.asWritten.seconds = t.seconds + 1 ∧ t.asWritten.nanos = t.nanos - 1000000000 ∧
        ¬ (t.nanos < 1000000000 ∨ t.seconds % 60 = 59) := by
    obtain ⟨h, heq⟩ | ⟨h, hseconds, hnanos⟩ := t.asWritten_cases
    · rw [heq]
      exact .inl ⟨rfl, rfl, h⟩
    · exact .inr ⟨hseconds, hnanos, h⟩
  have hyear := Date.year_ofDays (n := t.days)
    (Int.ediv_le_ediv (by decide) t.inRange.1) (Int.ediv_le_ediv (by decide) t.inRange.2)
  refine toInstant?_eq_some (Date.isValid_ofDays t.days) hyear ?clock ?seconds ?nanos
  all_goals simp only [CivilTime.ofInstant]
  case clock => omega
  case seconds =>
    rw [Date.toDays_ofDays, Instant.days]
    omega
  case nanos => omega

theorem Instant.parse?_chars (t : Instant) : Instant.parse? t.chars = some t.asWritten := by
  have hfits := fits_ofInstant t
  rw [Instant.parse?, Instant.chars, parseInternet?_chars hfits]
  exact (parsePlain?_chars hfits).trans (toInstant?_ofInstant t)

end BoundSql.Calendar

namespace BoundSql

/-- The text of an instant is read as the instant that it was written as. -/
theorem Value.toInstant_toText (t : Calendar.Instant) :
    Value.toInstant (.text t.toText) = .ok t.asWritten := by
  rw [toInstant, Calendar.Instant.toText, String.toList_ofList, t.parse?_chars]
  rfl

/-- Reading an instant as a text and the text as an instant gives the instant as it is written, and
so does a column that is scanned as a text first and as a time afterwards. It is the same instant
exactly if it lies in no leap second or in one at the end of a minute; any other leap second comes
back as the next second. -/
theorem times_survive_text (t : Calendar.Instant) :
    (∃ s : String,
      FromValue.ofValue (.time t) = .ok s ∧
        FromValue.ofValue (.text s) = (.ok t.asWritten : Except ConvertError Calendar.Instant) ∧
        SlotKind.string.scan (.time t) = .ok (.text s) ∧
        SlotKind.time.scan (.text s) = .ok (.time t.asWritten)) ∧
    (t.asWritten = t ↔ t.nanos < 1000000000 ∨ t.seconds % 60 = 59) ∧
    (t.asWritten ≠ t → t.asWritten.seconds = t.seconds + 1 ∧
      t.asWritten.nanos = t.nanos - 1000000000) := by
  have hread := Value.toInstant_toText t
  refine ⟨⟨t.toText, rfl, hread, rfl, ?_⟩, t.asWritten_eq_self_iff, fun hmoved => ?_⟩
  · simp only [SlotKind.scan, Value.isNull, hread]
    rfl
  · obtain ⟨-, heq⟩ | ⟨-, hseconds, hnanos⟩ := t.asWritten_cases
    · exact absurd heq hmoved
    · exact ⟨hseconds, hnanos⟩

/-- Half past the leap second of 2016-12-31 12:00:30. -/
def leapAtThirty : Calendar.Instant := ⟨1483185630, 1500000000, by decide, by decide⟩

/-- It has the text of half past the next second. -/
theorem leap_at_thirty_is_moved :
    leapAtThirty.toText = "2016-12-31 12:00:31.500" ∧
    ¬ ∀ t : Calendar.Instant, ∃ s : String, FromValue.ofValue (.time t) = .ok s ∧
      FromValue.ofValue (.text s) = (.ok t : Except ConvertError Calendar.Instant) := by
  refine ⟨by decide +kernel, fun h => ?_⟩
  obtain ⟨s, hs, hread⟩ := h leapAtThirty
  obtain rfl : leapAtThirty.toText = s := Except.ok.inj hs
  have hsame := Except.ok.inj ((Value.toInstant_toText leapAtThirty).symm.trans hread)
  exact absurd ((Calendar.Instant.asWritten_eq_self_iff leapAtThirty).mp hsame) (by decide)

end BoundSql
