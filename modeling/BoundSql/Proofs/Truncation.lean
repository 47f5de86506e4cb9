import BoundSql.Log.Sink
import Mathlib.Tactic.Common

/-!
# Messages cut between characters

The search for a place to cut ends where a character starts or the text ends, and passes no such
place on its way back from the limit. Fronts of one text are ordered by their bytes as they are by
their characters, so what stands before the cut is the longest front that fits.
-/
namespace BoundSql

namespace Text

/-- The longest front of a text, in whole characters, that has at most `limit` bytes. -/
structure LongestFront (limit : Nat) (s front : String) : Prop where
  starts : front.toList <+: s.toList
  fits : front.utf8ByteSize ≤ limit
  longest {other : String} (hstarts : other.toList <+: s.toList)
    (hfits : other.utf8ByteSize ≤ limit) : other.toList <+: front.toList

variable {s front other : String} {limit : Nat}

theorem exists_rest (h : front.toList <+: s.toList) : ∃ rest : String, s = front ++ rest := by
  obtain ⟨cs, hcs⟩ := h
  refine ⟨String.ofList cs, ?_⟩
  rw [← String.toList_inj, String.toList_append, String.toList_ofList, hcs]

/-- A front ends at a boundary. -/
theorem isValid_of_starts (h : front.toList <+: s.toList) :
    String.Pos.Raw.IsValid s ⟨front.utf8ByteSize⟩ := by
  obtain ⟨rest, hrest⟩ := exists_rest h
  exact String.Pos.Raw.isValid_iff_exists_append.mpr ⟨front, rest, hrest, rfl⟩

theorem starts_of_bytes_le (hfront : front.toList <+: s.toList) (hother : other.toList <+: s.toList)
    (hbytes : other.utf8ByteSize ≤ front.utf8ByteSize) : other.toList <+: front.toList := by
  obtain h | h := List.prefix_or_prefix_of_prefix hother hfront
  · exact h
  · obtain ⟨rest, rfl⟩ := exists_rest h
    rw [String.utf8ByteSize_append] at hbytes
    have hrest : rest = "" := String.utf8ByteSize_eq_zero_iff.mp (by omega)
    simp only [hrest, String.append_empty, List.prefix_rfl]

theorem LongestFront.unique (hfront : LongestFront limit s front)
    (hother : LongestFront limit s other) : front = other := by
  have hle := hother.longest hfront.starts hfront.fits
  have hge := hfront.longest hother.starts hother.fits
  exact String.toList_inj.mp (hle.eq_of_length_le hge.length_le)

theorem lastBoundary_le (s : String) (i : Nat) : lastBoundary s i ≤ i := by
  induction i with
  | zero => exact Nat.le_refl 0
  | succ i ih =>
      rw [lastBoundary]
      split <;> omega

/-- No boundary is passed on the way back. -/
theorem le_lastBoundary {i : Nat} (hvalid : String.Pos.Raw.IsValid s ⟨i⟩) (h : i ≤ limit) :
    i ≤ lastBoundary s limit := by
  induction limit with
  | zero => exact h
  | succ limit ih =>
      rw [lastBoundary]
      split
      case isTrue => exact h
      case isFalse hinvalid =>
        have hne : i ≠ limit + 1 := by
          rintro rfl
          exact hinvalid (String.Pos.Raw.isValid_eq_true_iff.mpr hvalid)
        exact ih (by omega)

/-- What is kept of a text over the limit ends where the search does. -/
theorem cut_of_lt (h : limit < s.utf8ByteSize) :
    (cut limit s).toList <+: s.toList ∧ (cut limit s).utf8ByteSize = lastBoundary s limit := by
  have hsplits :=
    String.Pos.splits (s := s) ⟨⟨lastBoundary s limit⟩, isValid_lastBoundary s limit⟩
  rw [cut, if_neg (by omega)]
  constructor
  · have hwhole := congrArg String.toList hsplits.eq_append
    rw [String.toList_append] at hwhole
    exact ⟨_, hwhole.symm⟩
  · have hoffset := congrArg String.Pos.Raw.byteIdx hsplits.offset_eq_rawEndPos
    exact hoffset.symm

theorem longestFront_cut (limit : Nat) (s : String) : LongestFront limit s (cut limit s) := by
  by_cases hfits : s.utf8ByteSize ≤ limit
  · rw [cut, if_pos hfits]
    exact ⟨List.prefix_rfl, hfits, fun hstarts _ => hstarts⟩
  · obtain ⟨hstarts, hbytes⟩ := cut_of_lt (Nat.lt_of_not_le hfits)
    refine ⟨hstarts, hbytes ▸ lastBoundary_le s limit, fun hother hle => ?_⟩
    refine starts_of_bytes_le hstarts hother ?_
    rw [hbytes]
    exact le_lastBoundary (isValid_of_starts hother) hle

end Text

namespace Log

open Text (LongestFront cut lastBoundary longestFront_cut isValid_lastBoundary)

/-- A text is never cut inside a character, and what is kept is the longest front of whole
characters within the limit. A written line ends with the heading, the message, or else this front
of it and three dots, and one line feed. -/
theorem messages_are_cut_between_characters :
    (∀ (limit : Nat) (s : String),
      String.Pos.Raw.IsValid s ⟨lastBoundary s limit⟩ ∧
        ∀ front, LongestFront limit s front ↔ front = cut limit s) ∧
    ∀ (l : LineLogger) (time : String) (place : Place) (message : String), ∃ shown : String,
      l.written time place message =
        time ++ " " ++ place.fileName ++ ":" ++ Text.Digits.text place.line ++ ": " ++ l.heading
          ++ shown ++ "\n" ∧
      match l.limit with
      | none => shown = message
      | some limit =>
          if message.utf8ByteSize ≤ limit then shown = message
          else ∃ front, LongestFront limit message front ∧ shown = front ++ "..." := by
  refine ⟨fun limit s => ⟨isValid_lastBoundary s limit, fun front => ⟨fun h => ?_, ?_⟩⟩, ?_⟩
  · exact h.unique (longestFront_cut limit s)
  · rintro rfl
    exact longestFront_cut limit s
  · intro l time place message
    refine ⟨l.shown message, ?_, ?_⟩
    · simp only [LineLogger.written, LineLogger.line, String.append_assoc]
    · rw [LineLogger.shown]
      cases l.limit with
      | none => rfl
      | some limit =>
          dsimp only
          rw [Text.truncated]
          split
          case isTrue => rfl
          case isFalse => exact ⟨_, longestFront_cut limit message, rfl⟩

example : Text.truncated 2 "héllo" = "h..." := by decide

end Log

end BoundSql
