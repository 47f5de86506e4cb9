import BoundSql.Sql.Emission
import BoundSql.Sql.Field
import Mathlib.Tactic.Common

/-!
# Expanding templates

A grammar says which question marks of a template are slots, and every template has one reading by
it. Expanding writes the parts of this reading in their order, the slots numbered from the left. A
text whose question marks are doubled is written as itself wherever a template starts with it, and
leaves all arguments to what follows.
-/
namespace BoundSql.Sql

namespace Emission

variable {c : Char} {cs : List Char}

theorem template_char (hc : c ≠ '?') (es : List Emission) :
    template (c :: cs) es = (do
      char c
      template cs es) := by
  rw [template]
  all_goals simp [hc]

theorem template_mark (es : List Emission) :
    template ('?' :: '?' :: cs) es = (do
      char '?'
      template cs es) := by
  rw [template]

theorem template_slot_nil (hcs : ∀ more, cs ≠ '?' :: more) :
    template ('?' :: cs) [] = (do
      char '?'
      template cs []) := by
  rw [template]
  exact hcs

theorem template_slot_cons (hcs : ∀ more, cs ≠ '?' :: more) (e : Emission) (es : List Emission) :
    template ('?' :: cs) (e :: es) = (do
      e
      template cs es) := by
  rw [template]
  exact hcs

end Emission

namespace Template

/-- Read from the left, two question marks are one, and any other question mark is a slot. -/
inductive Reading : List Char → List Part → Prop where
  | nil : Reading [] []
  | char {c : Char} {cs : List Char} {ps : List Part} (hc : c ≠ '?') (h : Reading cs ps) :
      Reading (c :: cs) (.char c :: ps)
  | mark {cs : List Char} {ps : List Part} (h : Reading cs ps) :
      Reading ('?' :: '?' :: cs) (.char '?' :: ps)
  | slot {cs : List Char} {ps : List Part} (hcs : ∀ more, cs ≠ '?' :: more) (h : Reading cs ps) :
      Reading ('?' :: cs) (.slot :: ps)

theorem reading_parts (cs : List Char) : Reading cs (parts cs) := by
  induction cs using parts.induct with
  | case1 rest ih =>
      rw [parts]
      exact .mark ih
  | case2 rest hrest ih =>
      rw [parts]
      · exact .slot (fun more h => hrest more h) ih
      · exact fun more h => hrest more h
  | case3 c rest hpair hslot ih =>
      rw [parts]
      · exact .char (fun h => hslot h) ih
      · exact fun more h hc => hpair more h hc
      · exact fun hc => hslot hc
  | case4 => exact .nil

theorem Reading.unique {cs : List Char} {ps qs : List Part} (h : Reading cs ps)
    (h' : Reading cs qs) : ps = qs := by
  induction h generalizing qs with
  | nil =>
      cases h'
      rfl
  | char hc _ ih =>
      cases h' with
      | char _ h' => rw [ih h']
      | mark | slot => exact absurd rfl hc
  | mark _ ih =>
      cases h' with
      | char hc => exact absurd rfl hc
      | mark h' => rw [ih h']
      | slot hcs => exact absurd rfl (hcs _)
  | slot hcs _ ih =>
      cases h' with
      | char hc => exact absurd rfl hc
      | mark => exact absurd rfl (hcs _)
      | slot _ h' => rw [ih h']

/-- What a part writes. A slot whose number no argument has stays a question mark. -/
def Part.emit (excluded : List String) (args : List Arg) (number : Nat) : Part → Emission
  | .char c => Emission.char c
  | .slot => (args[number]?).elim (Emission.char '?') (Arg.emit excluded)

/-- The parts one after the other, their slots numbered from `first` on. -/
def emitParts (excluded : List String) (args : List Arg) (first : Nat) (ps : List Part) :
    List Emission :=
  ps.mapIdx fun k p => p.emit excluded args (first + (ps.take k).count .slot)

section

variable (excluded : List String) (args : List Arg) (first : Nat) (ps : List Part)

theorem emitParts_char (c : Char) :
    emitParts excluded args first (.char c :: ps) =
      Emission.char c :: emitParts excluded args first ps := by
  simp [emitParts, Part.emit]

theorem emitParts_slot :
    emitParts excluded args first (.slot :: ps) =
      Part.emit excluded args first .slot :: emitParts excluded args (first + 1) ps := by
  simp [emitParts, Nat.add_assoc, Nat.add_comm 1]

end

/-- Expanding follows the reading, whichever argument comes next. -/
theorem Reading.template_eq {cs : List Char} {ps : List Part} (h : Reading cs ps)
    (excluded : List String) (args : List Arg) (first : Nat) :
    Emission.template cs (Arg.emitAll excluded (args.drop first)) =
      (emitParts excluded args first ps).forM id := by
  induction h generalizing first with
  | nil =>
      rw [Emission.template]
      rfl
  | char hc _ ih =>
      rw [emitParts_char, Emission.template_char hc, ih]
      rfl
  | mark _ ih =>
      rw [emitParts_char, Emission.template_mark, ih]
      rfl
  | slot hcs _ ih =>
      rw [emitParts_slot, Part.emit]
      cases harg : args[first]? with
      | none =>
          have hfirst : args.length ≤ first := List.getElem?_eq_none_iff.mp harg
          have hrest := ih (first + 1)
          rw [List.drop_eq_nil_of_le (by omega), Arg.emitAll] at hrest ⊢
          rw [Emission.template_slot_nil hcs, hrest]
          rfl
      | some a =>
          obtain ⟨hfirst, rfl⟩ := List.getElem?_eq_some_iff.mp harg
          rw [List.drop_eq_getElem_cons hfirst, Arg.emitAll, Emission.template_slot_cons hcs, ih]
          rfl

end Template

theorem Writer.pushText_pushChar (w : Writer) (c : Char) (cs : List Char) :
    (w.pushChar c).pushText (String.ofList cs) = w.pushText (String.ofList (c :: cs)) := by
  simp only [Writer.pushChar, Writer.pushText, String.ofList_cons, String.append_assoc]

theorem Emission.run_template_escaped (s : String) (cs : List Char) (es : List Emission)
    (w : Writer) :
    (template ((Template.escaped s).toList ++ cs) es).run w =
      (template cs es).run (w.pushText s) := by
  obtain ⟨text, rfl⟩ : ∃ text, s = String.ofList text := ⟨s.toList, String.ofList_toList.symm⟩
  rw [Template.escaped, String.toList_ofList, String.toList_ofList]
  induction text generalizing w with
  | nil => simp [Writer.pushText]
  | cons c text ih =>
      rw [List.flatMap_cons, ← w.pushText_pushChar c text, ← ih (w.pushChar c), List.append_assoc]
      by_cases hc : c = '?'
      · rw [if_pos hc, hc, List.cons_append, List.cons_append, List.nil_append, template_mark]
        rfl
      · rw [if_neg hc, List.cons_append, List.nil_append, template_char hc]
        rfl

/-- Every template has one reading, and expanding writes its parts with the slots filled from the
left. An escaped text in front of a template is written as it is, and the rest as if it stood alone.
A column's inserted value is such a text. -/
theorem slots_are_filled_in_order :
    (∀ (format : String) (args : List Arg) (excluded : List String),
      ∃ ps : List Template.Part, (∀ qs, Template.Reading format.toList qs ↔ qs = ps) ∧
        ∀ w : Writer,
          (Emission.template format.toList (Arg.emitAll excluded args)).run w =
            ((Template.emitParts excluded args 0 ps).forM id).run w) ∧
    (∀ (s format : String) (args : List Arg) (excluded : List String) (w : Writer),
      (Emission.template (Template.escaped s ++ format).toList (Arg.emitAll excluded args)).run w =
        (Emission.template format.toList (Arg.emitAll excluded args)).run
          { w with sql := w.sql ++ s }) ∧
    ∀ (f : Field) (excluded : List String) (w : Writer),
      (f.insertedValue.emit excluded).run w =
        ((), { w with sql := w.sql ++ ("VALUES(" ++ identifier f.name ++ ")") }) := by
  refine ⟨fun format args excluded => ?reading, fun s format args excluded w => ?escaped,
    fun f excluded w => ?inserted⟩
  case reading =>
    have hreading := Template.reading_parts format.toList
    refine ⟨_, fun qs => ⟨fun h => h.unique hreading, fun h => h ▸ hreading⟩, fun w => ?_⟩
    exact congrArg (·.run w) (hreading.template_eq excluded args 0)
  case escaped =>
    rw [String.toList_append]
    exact Emission.run_template_escaped s format.toList _ w
  case inserted =>
    have hmarks : Marks.emit {} = pure () := rfl
    have h := Emission.run_template_escaped ("VALUES(" ++ identifier f.name ++ ")") [] [] w
    rw [List.append_nil, Emission.template] at h
    rw [Field.insertedValue, Field.ofTemplate, Field.emit, Arg.emitAll, hmarks, bind_pure_unit]
    exact h

end BoundSql.Sql
