import BoundSql.Proofs.Inlining
import Mathlib.Data.List.TakeWhile

/-!
# Segments

A statement is cut from left to right into quoted texts, placeholders and other characters. What is
shown of it is the same text with the literals of the arguments in place of those placeholders that
have one; the scanner's open quote, counter and run of digits come to nothing else.
-/
namespace BoundSql.Log

open Sql (NoDigit inlineFrom_unmarked span_digits)
open Sql.Template (quoteAfter)
open Text.Digits (isDigit value wordLimit)

inductive Segment where
  /-- A text with its quotes. At the end of a statement the second one can be missing. -/
  | quoted (cs : List Char)
  /-- A question mark that is a placeholder. -/
  | mark
  /-- A dollar sign that is a placeholder, with its digits. -/
  | numbered (digits : List Char)
  | other (c : Char)

namespace Segment

def text : Segment → List Char
  | quoted cs => cs
  | mark => ['?']
  | numbered digits => '$' :: digits
  | other c => [c]

/-- The question marks that count. -/
def marks : Segment → Nat
  | mark => 1
  | _ => 0

/-- The argument that a segment stands for, behind so many question marks. A number counts the
arguments from one and fits into a machine word. -/
def argument? (args : List Value) (before : Nat) : Segment → Option Value
  | mark => args[before]?
  | numbered digits =>
      if 0 < value digits ∧ value digits < wordLimit then args[value digits - 1]? else none
  | _ => none

/-- The literal of the argument, or the segment as it stands. -/
def shown (args : List Value) (before : Nat) (s : Segment) : List Char :=
  match s.argument? args before with
  | some v => v.literal.toList
  | none => s.text

def shownAll (args : List Value) (before : Nat) : List Segment → List Char
  | [] => []
  | s :: rest => s.shown args before ++ shownAll args (before + s.marks) rest

/-- The segment can be cut off in front of the rest. A quoted text ends with the next quote of its
kind, a number with its last digit, and any other character is neither a quote nor the mark of a
placeholder. -/
inductive CutOff (d : Dialect) : Segment → List Char → Prop
  | quoted {q : Char} {body : List Char} (hq : isQuote q) (hbody : q ∉ body) (rest : List Char) :
      CutOff d (.quoted (q :: (body ++ [q]))) rest
  | unclosed {q : Char} {body : List Char} (hq : isQuote q) (hbody : q ∉ body) :
      CutOff d (.quoted (q :: body)) []
  | mark (hd : d = .mysql) (rest : List Char) : CutOff d .mark rest
  | numbered {digits rest : List Char} (hd : d = .postgres) (hdigits : ∀ c ∈ digits, isDigit c)
      (hrest : NoDigit rest) : CutOff d (.numbered digits) rest
  | other {c : Char} (hc : isQuote c = false) (hmark : c ≠ d.mark) (rest : List Char) :
      CutOff d (.other c) rest

end Segment

/-- The text is cut into the segments from left to right. -/
inductive IsCut (d : Dialect) : List Char → List Segment → Prop
  | nil : IsCut d [] []
  | cons {s : Segment} {rest : List Char} {segments : List Segment} (hs : s.CutOff d rest)
      (h : IsCut d rest segments) : IsCut d (s.text ++ rest) (s :: segments)

variable {d : Dialect}

namespace Segment

/-- The placeholder whose mark stands in front of a text. -/
def placeholder (d : Dialect) (rest : List Char) : Segment :=
  match d with
  | .mysql => .mark
  | .postgres => .numbered (rest.takeWhile isDigit)

/-- The only segment that can be cut off a text. -/
def front (d : Dialect) : List Char → Segment
  | [] => .quoted []
  | c :: rest =>
      if isQuote c then
        .quoted (c :: (rest.takeWhile (· ≠ c) ++ (rest.dropWhile (· ≠ c)).take 1))
      else if c = d.mark then placeholder d rest
      else .other c

theorem not_isQuote_mark (d : Dialect) : isQuote d.mark = false := by
  cases d <;> rfl

namespace CutOff

variable {s : Segment} {rest : List Char}

theorem text_ne_nil (h : s.CutOff d rest) : s.text ≠ [] := by
  cases h <;> simp [text]

/-- The front of a quoted text is all of it up to its second quote. -/
theorem front_quoted {q : Char} {body : List Char} (hq : isQuote q) (hbody : q ∉ body)
    (rest : List Char) : front d (q :: (body ++ rest)) =
      .quoted (q :: (body ++ (rest.takeWhile (· ≠ q) ++ (rest.dropWhile (· ≠ q)).take 1))) := by
  have hne : ∀ c ∈ body, decide (c ≠ q) = true := fun c hc => by
    simpa using fun h : c = q => hbody (h ▸ hc)
  rw [front, if_pos hq, List.takeWhile_append_of_pos hne, List.dropWhile_append_of_pos hne,
    List.append_assoc]

theorem front_eq (h : s.CutOff d rest) : front d (s.text ++ rest) = s := by
  cases h with
  | @quoted q body hq hbody rest =>
      have hfront := front_quoted (d := d) hq hbody (q :: rest)
      simpa [text] using hfront
  | unclosed hq hbody =>
      have hfront := front_quoted (d := d) hq hbody []
      simpa [text] using hfront
  | mark hd rest => subst hd; rfl
  | numbered hd hdigits hrest =>
      subst hd
      simp [text, front, placeholder, isQuote, Dialect.mark, (span_digits hdigits hrest).1]
  | other hc hmark rest => simp [text, front, hc, hmark]

end CutOff

theorem exists_cutOff_placeholder (d : Dialect) (cs : List Char) :
    ∃ rest, (placeholder d cs).CutOff d rest ∧ (placeholder d cs).text ++ rest = d.mark :: cs := by
  cases d with
  | mysql => exact ⟨cs, .mark rfl cs, rfl⟩
  | postgres =>
      have hdigits : ∀ c ∈ cs.takeWhile isDigit, isDigit c := fun c hc => List.mem_takeWhile_imp hc
      have hrest : NoDigit (cs.dropWhile isDigit) := fun c hc => by
        have := List.head?_dropWhile_not isDigit cs
        rwa [Option.mem_def.mp hc] at this
      refine ⟨_, .numbered rfl hdigits hrest, ?_⟩
      rw [placeholder, text, List.cons_append, List.takeWhile_append_dropWhile]
      rfl

/-- From every text something can be cut off. -/
theorem exists_cutOff (d : Dialect) (c : Char) (cs : List Char) :
    ∃ (s : Segment) (rest : List Char), s.CutOff d rest ∧ s.text ++ rest = c :: cs := by
  by_cases hquote : isQuote c
  · by_cases hclosed : c ∈ cs
    · obtain ⟨body, rest, rfl, hbody⟩ := List.eq_append_cons_of_mem hclosed
      exact ⟨_, rest, .quoted hquote hbody rest, by simp [text]⟩
    · exact ⟨_, [], .unclosed hquote hclosed, by simp [text]⟩
  · by_cases hmark : c = d.mark
    · exact hmark ▸ ⟨_, exists_cutOff_placeholder d cs⟩
    · exact ⟨.other c, cs, .other (by simpa using hquote) hmark cs, rfl⟩

end Segment

namespace IsCut

variable {cs : List Char} {segments : List Segment}

/-- Nothing is left out, and nothing is there twice. -/
theorem flatMap_text (h : IsCut d cs segments) : segments.flatMap Segment.text = cs := by
  induction h with
  | nil => rfl
  | cons _ _ ih => rw [List.flatMap_cons, ih]

theorem exists_segments (d : Dialect) (cs : List Char) : ∃ segments, IsCut d cs segments := by
  induction hn : cs.length using Nat.strong_induction_on generalizing cs with
  | _ n ih =>
      cases cs with
      | nil => exact ⟨[], .nil⟩
      | cons c cs =>
          obtain ⟨s, rest, hs, htext⟩ := Segment.exists_cutOff d c cs
          have hpos : 0 < s.text.length := List.length_pos_iff.mpr hs.text_ne_nil
          rw [← htext, List.length_append] at hn
          obtain ⟨segments, h⟩ := ih rest.length (by omega) rest rfl
          exact ⟨s :: segments, htext ▸ .cons hs h⟩

theorem unique (h : IsCut d cs segments) {others : List Segment} (h' : IsCut d cs others) :
    others = segments := by
  induction h generalizing others with
  | nil =>
      generalize hcs : [] = cs at h'
      cases h' with
      | nil => rfl
      | cons hs _ => exact absurd (List.append_eq_nil_iff.mp hcs.symm).1 hs.text_ne_nil
  | @cons s rest segments hs h ih =>
      generalize hcs : s.text ++ rest = cs at h'
      cases h' with
      | nil => exact absurd (List.append_eq_nil_iff.mp hcs).1 hs.text_ne_nil
      | @cons s' rest' others hs' h' =>
          obtain rfl : s = s' := by rw [← hs.front_eq, hcs, hs'.front_eq]
          obtain rfl := List.append_cancel_left hcs
          rw [ih h']

end IsCut

section Scanner

variable {args : List Value} {next : Nat}

/-- In an open quote everything is copied up to the next quote of its kind. -/
theorem inlineFrom_body {q : Char} {body : List Char} (hbody : q ∉ body) (rest : List Char) :
    inlineFrom d args (some q) next (body ++ rest) =
      body ++ inlineFrom d args (some q) next rest := by
  induction body with
  | nil => rfl
  | cons c body ih =>
      rw [List.mem_cons, not_or] at hbody
      rw [List.cons_append, inlineFrom_unmarked (by simp), quoteAfter,
        if_neg (Ne.symm hbody.1), ih hbody.2, List.cons_append]

theorem inlineFrom_open {q : Char} (hq : isQuote q) (rest : List Char) :
    inlineFrom d args none next (q :: rest) = q :: inlineFrom d args (some q) next rest := by
  have hmark : q ≠ d.mark := fun h => by simp [h, Segment.not_isQuote_mark] at hq
  rw [inlineFrom_unmarked (fun _ => hmark), quoteAfter, if_pos hq]

theorem numbered?_eq (args : List Value) (digits : List Char) (before : Nat) :
    numbered? args digits = (Segment.numbered digits).argument? args before := by
  simp only [numbered?, Segment.argument?]
  by_cases hvalue : 0 < value digits ∧ value digits < wordLimit
  · have hdigits : digits ≠ [] := by
      rintro rfl
      exact absurd hvalue.1 (by decide)
    rw [if_neg (by simp [hdigits]; omega), if_pos hvalue]
  · have hnone : value digits = 0 ∨ wordLimit ≤ value digits := by omega
    rw [if_pos (by simp only [Bool.or_eq_true, decide_eq_true_eq]; tauto), if_neg hvalue]

/-- What the scanner makes of one segment, with no quote open. -/
theorem Segment.CutOff.inlineFrom_text {s : Segment} {rest : List Char} (h : s.CutOff d rest) :
    inlineFrom d args none next (s.text ++ rest) =
      s.shown args next ++ inlineFrom d args none (next + s.marks) rest := by
  cases h with
  | @quoted q body hq hbody rest =>
      have hclose : quoteAfter (some q) q = none := if_pos rfl
      have htext : (Segment.quoted (q :: (body ++ [q]))).text ++ rest =
          q :: (body ++ q :: rest) := by simp [text]
      rw [htext, inlineFrom_open hq, inlineFrom_body hbody, inlineFrom_unmarked (by simp), hclose]
      simp [shown, argument?, text, marks]
  | @unclosed q body hq hbody =>
      have hbody' := @inlineFrom_body d args next q body hbody []
      rw [List.append_nil, inlineFrom] at hbody'
      rw [text, List.append_nil, inlineFrom_open hq, hbody', inlineFrom]
      simp [shown, argument?, text]
  | mark hd rest =>
      subst hd
      rw [text, List.singleton_append, inlineFrom, if_neg (by decide), if_pos ⟨rfl, rfl⟩]
      rfl
  | numbered hd hdigits hrest =>
      subst hd
      obtain ⟨htake, hdrop⟩ := span_digits hdigits hrest
      rw [text, List.cons_append, inlineFrom, if_neg (by decide), if_neg (by decide),
        if_pos ⟨rfl, rfl⟩]
      simp only [htake, hdrop, numbered?_eq args _ next]
      rfl
  | @other c hc hmark rest =>
      have hafter : quoteAfter none c = none := by simp [quoteAfter, hc]
      rw [text, List.singleton_append, inlineFrom_unmarked (fun _ => hmark), hafter]
      rfl

/-- The scanner shows the segments one after the other. -/
theorem IsCut.inlineFrom_eq {cs : List Char} {segments : List Segment} (h : IsCut d cs segments)
    (next : Nat) : inlineFrom d args none next cs = Segment.shownAll args next segments := by
  induction h generalizing next with
  | nil => rw [inlineFrom, Segment.shownAll]
  | cons hs _ ih => rw [hs.inlineFrom_text, ih, Segment.shownAll]

end Scanner

namespace Segment

theorem shown_nil (before : Nat) (s : Segment) : s.shown [] before = s.text := by
  cases s <;> simp [shown, argument?]

theorem shownAll_nil (before : Nat) (segments : List Segment) :
    shownAll [] before segments = segments.flatMap text := by
  induction segments generalizing before with
  | nil => rfl
  | cons s segments ih => rw [shownAll, shown_nil, ih, List.flatMap_cons]

/-- Question marks beyond the arguments stand for nothing. -/
theorem shown_mark_of_le {args : List Value} {before : Nat} (h : args.length ≤ before) :
    mark.shown args before = ['?'] := by
  have hnone : mark.argument? args before = none := List.getElem?_eq_none h
  rw [shown, hnone, text]

/-- Numbers below one, beyond the arguments and beyond a machine word stand for nothing. -/
theorem shown_numbered_of_outside {args : List Value} {digits : List Char}
    (h : value digits = 0 ∨ args.length < value digits ∨ wordLimit ≤ value digits)
    (before : Nat) : (numbered digits).shown args before = '$' :: digits := by
  have hnone : (numbered digits).argument? args before = none := by
    rw [argument?]
    split
    · exact List.getElem?_eq_none (by omega)
    · rfl
  rw [shown, hnone, text]

end Segment

/-- There is exactly one way to cut a statement into segments, and they are all of it. It is shown
segment by segment: a placeholder with an argument as the literal of the argument, everything else
character by character. Without arguments a statement is shown as it is. -/
theorem answered_placeholders_alone_are_replaced (d : Dialect) (sql : String) :
    (∃ segments : List Segment,
      IsCut d sql.toList segments ∧
      (∀ others : List Segment, IsCut d sql.toList others → others = segments) ∧
      segments.flatMap Segment.text = sql.toList ∧
      ∀ args : List Value,
        inlineArgs d sql args = String.ofList (Segment.shownAll args 0 segments)) ∧
    (∀ (args : List Value) (before : Nat), args.length ≤ before →
      Segment.mark.shown args before = ['?']) ∧
    (∀ (args : List Value) (digits : List Char) (before : Nat),
      value digits = 0 ∨ args.length < value digits ∨ wordLimit ≤ value digits →
        (Segment.numbered digits).shown args before = '$' :: digits) ∧
    inlineArgs d sql [] = sql := by
  obtain ⟨segments, h⟩ := IsCut.exists_segments d sql.toList
  have hshown (args : List Value) :
      inlineArgs d sql args = String.ofList (Segment.shownAll args 0 segments) := by
    rw [inlineArgs, h.inlineFrom_eq]
  refine ⟨⟨segments, h, fun _ => h.unique, h.flatMap_text, hshown⟩,
    fun _ _ => Segment.shown_mark_of_le,
    fun _ _ before houtside => Segment.shown_numbered_of_outside houtside before, ?_⟩
  rw [hshown, Segment.shownAll_nil, h.flatMap_text, String.ofList_toList]

example : inlineArgs .postgres "$2 '$1' $1$02 $ $0 $3 \"$1" [.int 1, .text "$1"] =
    "'$1' '$1' 1'$1' $ $0 $3 \"$1" := by
  decide +kernel

end BoundSql.Log
