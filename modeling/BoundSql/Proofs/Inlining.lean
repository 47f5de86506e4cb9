import BoundSql.Log.Inline
import BoundSql.Proofs.Digits
import BoundSql.Proofs.Placeholders
import BoundSql.Sql.Supplied

/-!
# Inlining undoes placeholders

The scanner that shows a statement finds the placeholders that a fragment was written with, and no
others, as long as the texts around them close their quotes. `Shown f` says so of one fragment,
whatever arguments are there and whatever follows, if it does not prolong the last number.
-/
namespace BoundSql

/-- The character that starts a placeholder. -/
def Dialect.mark : Dialect → Char
  | .mysql => '?'
  | .postgres => '$'

namespace Sql

open Log (inlineFrom isQuote)
open Text.Digits (isDigit wordLimit)

namespace Template

/-- The quote that is open behind a character. -/
def quoteAfter : Option Char → Char → Option Char
  | some q, c => if c = q then none else some q
  | none, c => if isQuote c then some c else none

/-- What may stand behind a slot: a character, but no digit. -/
def apart : List Part → Bool
  | [] => true
  | .char c :: _ => !isDigit c
  | .slot :: _ => false

/-- With `quote` open in front, the parts close every quote. Question marks and dollar signs stand
within quotes only, slots outside only and not in front of a digit. -/
def selfContained : Option Char → List Part → Bool
  | quote, [] => quote.isNone
  | some q, .char c :: rest => selfContained (quoteAfter (some q) c) rest
  | some _, .slot :: _ => false
  | none, .char c :: rest => c ≠ '?' && c ≠ '$' && selfContained (quoteAfter none c) rest
  | none, .slot :: rest => apart rest && selfContained none rest

end Template

open Template (Part selfContained quoteAfter)

/-- A text on its own closes its quotes. -/
def closesQuotes (s : String) : Bool := selfContained none (s.toList.map .char)

/-- The scanner copies a text that is supplied like this, and finds every slot of a template. -/
def Supplied.selfContained : Supplied → Bool
  | .name s => closesQuotes (identifier s)
  | .verbatim s => closesQuotes s
  | .template format args =>
      Template.selfContained none (Template.parts format.toList) &&
        (Template.parts format.toList).count .slot ≤ args

/-- A character that the scanner copies wherever it stands. -/
def inert (c : Char) : Bool := !isQuote c && c ≠ '?' && c ≠ '$'

namespace Template

/-- No slot stands right in front of a digit. -/
def slotsApart : List Part → Bool
  | [] => true
  | .slot :: .char c :: rest => !isDigit c && slotsApart (.char c :: rest)
  | _ :: rest => slotsApart rest

variable {quote : Option Char} {cs : List Char}

theorem selfContained_append (hcs : ∀ c ∈ cs, inert c) (hquote : ∀ q ∈ quote, isQuote q)
    (rest : List Part) :
    selfContained quote (cs.map .char ++ rest) = selfContained quote rest := by
  induction cs with
  | nil => rfl
  | cons c cs ih =>
      have hcs' := ih fun c' h => hcs c' (List.mem_cons_of_mem c h)
      have hc : (isQuote c = false ∧ c ≠ '?') ∧ c ≠ '$' := by
        simpa [inert] using hcs c List.mem_cons_self
      rw [List.map_cons, List.cons_append]
      cases quote with
      | some q =>
          have hne : c ≠ q := fun h => by simp [← h, hc.1.1] at hquote
          rw [selfContained, quoteAfter, if_neg hne, hcs']
      | none => simp [selfContained, quoteAfter, hc, hcs']

theorem selfContained_quoted {q : Char} (hq : isQuote q) (hcs : ∀ c ∈ cs, inert c)
    (rest : List Part) :
    selfContained none (.char q :: (cs.map .char ++ .char q :: rest)) =
      selfContained none rest := by
  have hmark : q ≠ '?' ∧ q ≠ '$' := by
    constructor <;> (rintro rfl; exact absurd hq (by decide))
  have hclosed : quoteAfter (some q) q = none := if_pos rfl
  have hopened : quoteAfter none q = some q := if_pos hq
  rw [selfContained, hopened, selfContained_append hcs (by simpa using hq), selfContained, hclosed]
  simp [hmark]

theorem parts_char {c : Char} (hc : c ≠ '?') (rest : List Char) :
    parts (c :: rest) = .char c :: parts rest := by
  rw [parts]
  · exact fun _ h => absurd h hc
  · exact hc

/-- An escaped text is the template of itself. -/
theorem parts_escaped (s : String) : parts (escaped s).toList = s.toList.map .char := by
  rw [escaped, String.toList_ofList]
  induction s.toList with
  | nil => rw [List.flatMap_nil, parts, List.map_nil]
  | cons c cs ih =>
      rw [List.flatMap_cons, List.map_cons, ← ih]
      by_cases hc : c = '?'
      · rw [if_pos hc, hc, List.cons_append, List.singleton_append, parts]
      · rw [if_neg hc, List.singleton_append, parts_char hc]

/-- Two slots never touch, since two question marks are one character. -/
theorem apart_of_slotsApart {rest : List Char} (hne : ∀ more, rest ≠ '?' :: more)
    (h : slotsApart (.slot :: parts rest)) : apart (parts rest) ∧ slotsApart (parts rest) := by
  cases rest with
  | nil => exact ⟨by simp [parts, apart], by simp [parts, slotsApart]⟩
  | cons c rest =>
      have hc : c ≠ '?' := fun h => hne rest (by rw [h])
      rw [parts_char hc] at h ⊢
      rwa [slotsApart, Bool.and_eq_true] at h

theorem selfContained_parts (hcs : ∀ c, .char c ∈ parts cs → inert c)
    (hslots : slotsApart (parts cs)) : selfContained none (parts cs) := by
  induction cs using parts.induct with
  | case1 rest ih => exact absurd (hcs '?' (by simp [parts])) (by decide)
  | case2 rest hne ih =>
      have hparts : parts ('?' :: rest) = .slot :: parts rest := by
        rw [parts]
        exact hne
      rw [hparts] at hcs hslots ⊢
      obtain ⟨happart, hslots'⟩ := apart_of_slotsApart (fun more h => hne more h) hslots
      rw [selfContained, happart, Bool.true_and]
      exact ih (fun c h => hcs c (List.mem_cons_of_mem _ h)) hslots'
  | case3 c rest hmark hslot ih =>
      rw [parts_char hslot] at hcs hslots ⊢
      have hc := hcs c List.mem_cons_self
      rw [show Part.char c :: parts rest = [c].map Part.char ++ parts rest from rfl,
        selfContained_append (by simpa using hc) (by simp)]
      exact ih (fun c h => hcs c (List.mem_cons_of_mem _ h)) (by simpa [slotsApart] using hslots)
  | case4 => rw [parts]; rfl

end Template

section Plain

variable {s : String}

theorem closesQuotes_of_inert (h : ∀ c ∈ s.toList, inert c) : closesQuotes s := by
  have := Template.selfContained_append h (by simp : ∀ q ∈ none, isQuote q) []
  rwa [List.append_nil] at this

/-- The characters of an identifier and the quotes around it are left as they are. -/
theorem selfContained_identifier (h : ∀ c ∈ s.toList, inert c) (rest : List Part) :
    selfContained none ((identifier s).toList.map .char ++ rest) = selfContained none rest := by
  unfold identifier
  split
  · simp only [String.toList_append, List.map_append, List.append_assoc]
    exact Template.selfContained_quoted (q := '"') (by decide) h rest
  · exact Template.selfContained_append h (by simp) rest

theorem closesQuotes_identifier (h : ∀ c ∈ s.toList, inert c) : closesQuotes (identifier s) := by
  have := selfContained_identifier h []
  rwa [List.append_nil] at this

/-- A supplied text without quotes, question marks and dollar signs, if it is no template. A
template has only slots and such characters, no slot in front of a digit, and an argument for
every slot; or else it names the value to be inserted into a column. -/
inductive Supplied.Plain : Supplied → Prop where
  | name {s : String} (h : ∀ c ∈ s.toList, inert c) : Plain (.name s)
  | verbatim {s : String} (h : ∀ c ∈ s.toList, inert c) : Plain (.verbatim s)
  | template {format : String} {args : Nat}
      (hchars : ∀ c, .char c ∈ Template.parts format.toList → inert c)
      (hslots : Template.slotsApart (Template.parts format.toList))
      (hargs : (Template.parts format.toList).count .slot ≤ args) :
      Plain (.template format args)
  | insertedValue {name : String} (h : ∀ c ∈ name.toList, inert c) (args : Nat) :
      Plain (.template (Template.escaped ("VALUES(" ++ identifier name ++ ")")) args)

theorem Supplied.Plain.selfContained {x : Supplied} (h : x.Plain) : x.selfContained := by
  cases h with
  | name h => exact closesQuotes_identifier h
  | verbatim h => exact closesQuotes_of_inert h
  | template hchars hslots hargs =>
      simp only [Supplied.selfContained, Bool.and_eq_true, decide_eq_true_eq]
      exact ⟨Template.selfContained_parts hchars hslots, hargs⟩
  | @insertedValue name h args =>
      have hcount (cs : List Char) : (cs.map Part.char).count .slot = 0 := by
        simp [List.count_eq_zero]
      simp only [Supplied.selfContained, Template.parts_escaped, hcount, Nat.zero_le,
        decide_true, Bool.and_true]
      simp only [String.toList_append, List.map_append, List.append_assoc]
      rw [Template.selfContained_append (List.all_eq_true.mp (by decide)) (by simp),
        selfContained_identifier h]
      decide

end Plain

/-- What stands behind a placeholder does not prolong its number. -/
def NoDigit (rest : List Char) : Prop := ∀ c ∈ rest.head?, isDigit c = false

/-- The question marks that `n` placeholders are. -/
def questionMarks (d : Dialect) (n : Nat) : Nat :=
  match d with
  | .mysql => n
  | .postgres => 0

variable {d : Dialect} {args : List Value} {quote : Option Char} {next : Nat}

/-- Every character is copied but the mark of a placeholder outside quotes. -/
theorem inlineFrom_unmarked {c : Char} (h : quote = none → c ≠ d.mark) (rest : List Char) :
    inlineFrom d args quote next (c :: rest) =
      c :: inlineFrom d args (quoteAfter quote c) next rest := by
  cases quote with
  | some q => rw [inlineFrom, quoteAfter]
  | none =>
      have hmysql : ¬(c = '?' ∧ d = .mysql) := by
        rintro ⟨rfl, rfl⟩
        exact h rfl rfl
      have hpostgres : ¬(c = '$' ∧ d = .postgres) := by
        rintro ⟨rfl, rfl⟩
        exact h rfl rfl
      rw [inlineFrom, quoteAfter]
      by_cases hc : isQuote c
      · rw [if_pos hc, if_pos hc]
      · rw [if_neg hc, if_neg hc, if_neg hmysql, if_neg hpostgres]

theorem inlineFrom_char {c : Char} (h : quote = none → c ≠ '?' ∧ c ≠ '$') (rest : List Char) :
    inlineFrom d args quote next (c :: rest) =
      c :: inlineFrom d args (quoteAfter quote c) next rest := by
  refine inlineFrom_unmarked (fun hquote => ?_) rest
  cases d
  exacts [(h hquote).1, (h hquote).2]

theorem inlineFrom_closed {cs : List Char} (h : selfContained quote (cs.map .char))
    (rest : List Char) :
    inlineFrom d args quote next (cs ++ rest) = cs ++ inlineFrom d args none next rest := by
  induction cs generalizing quote with
  | nil =>
      cases quote with
      | none => rfl
      | some q => exact absurd h (by simp [selfContained])
  | cons c cs ih =>
      cases quote with
      | some q =>
          rw [List.map_cons, selfContained] at h
          rw [List.cons_append, inlineFrom_char (by simp), ih h, List.cons_append]
      | none =>
          rw [List.map_cons, selfContained, Bool.and_eq_true, Bool.and_eq_true,
            decide_eq_true_eq, decide_eq_true_eq] at h
          rw [List.cons_append, inlineFrom_char (fun _ => h.1), ih h.2, List.cons_append]

/-- The scanner takes a whole number, and no more. -/
theorem span_digits {ds rest : List Char} (hds : ∀ c ∈ ds, isDigit c) (hrest : NoDigit rest) :
    (ds ++ rest).takeWhile isDigit = ds ∧ (ds ++ rest).dropWhile isDigit = rest := by
  rw [List.takeWhile_append_of_pos hds, List.dropWhile_append_of_pos hds]
  cases rest with
  | nil => exact ⟨List.append_nil ds, rfl⟩
  | cons c rest =>
      have hc : isDigit c = false := hrest c rfl
      rw [List.takeWhile_cons_of_neg (by simp [hc]), List.dropWhile_cons_of_neg (by simp [hc])]
      exact ⟨List.append_nil ds, rfl⟩

theorem numbered?_toDigits {before : Nat} (hbefore : before < args.length)
    (hargs : args.length < wordLimit) :
    Log.numbered? args (Nat.toDigits 10 (before + 1)) = args[before]? := by
  have hempty : (Nat.toDigits 10 (before + 1)).isEmpty = false := by
    simp
  simp only [Log.numbered?, Text.Digits.value_toDigits, hempty]
  rw [if_neg (by simp; omega), Nat.add_sub_cancel]

/-- The scanner shows the value of a placeholder instead. -/
theorem inlineFrom_placeholder {v : Value} {before : Nat} {rest : List Char}
    (hargs : args.length < wordLimit) (hv : args[before]? = some v) (hrest : NoDigit rest) :
    inlineFrom d args none (questionMarks d before)
        ((d.placeholder (before + 1)).toList ++ rest) =
      v.literal.toList ++ inlineFrom d args none (questionMarks d (before + 1)) rest := by
  cases d with
  | mysql =>
      have hmark : (Dialect.mysql.placeholder (before + 1)).toList = ['?'] := by
        rw [Dialect.placeholder]
        rfl
      rw [hmark, List.singleton_append, inlineFrom, if_neg (by decide), if_pos ⟨rfl, rfl⟩]
      simp only [questionMarks, hv]
  | postgres =>
      have hmark : (Dialect.postgres.placeholder (before + 1)).toList ++ rest =
          '$' :: (Nat.toDigits 10 (before + 1) ++ rest) := by
        rw [Dialect.placeholder, String.toList_append, ← Nat.toList_repr]
        rfl
      have hdigits : ∀ c ∈ Nat.toDigits 10 (before + 1), isDigit c :=
        fun c hc => Text.Digits.isDigit_of_mem_toDigits hc
      obtain ⟨htake, hdrop⟩ := span_digits hdigits hrest
      have hnumber := numbered?_toDigits (List.getElem?_eq_some_iff.mp hv).1 hargs
      rw [hmark, inlineFrom, if_neg (by decide), if_neg (by decide), if_pos ⟨rfl, rfl⟩]
      simp only [htake, hdrop, hnumber, hv, questionMarks]

/-- With `quote` open in front, the scanner copies the texts of the fragment, and shows each of its
bound values in place of the placeholder. -/
def ShownFrom (quote : Option Char) (f : Fragment) : Prop :=
  ∀ (d : Dialect) (args : List Value) (before : Nat) (rest : List Char),
    args.length < wordLimit → f.args <+: args.drop before → NoDigit rest →
      inlineFrom d args quote (questionMarks d before) ((f.placed d before).toList ++ rest) =
        f.inlined.toList ++ inlineFrom d args none (questionMarks d (before + f.args.length)) rest

abbrev Shown : Fragment → Prop := ShownFrom none

/-- A fragment that can stand behind a placeholder. -/
structure Follows (f : Fragment) : Prop where
  shown : Shown f
  apart : ∀ (d : Dialect) (before : Nat) (rest : List Char), NoDigit rest →
    NoDigit ((f.placed d before).toList ++ rest)

namespace ShownFrom

variable {f g : Fragment}

theorem nil : Shown [] := by
  intro d args before rest _ _ _
  rfl

/-- The second fragment is shown behind the arguments of the first. -/
theorem append (h : ShownFrom quote f) (h' : Follows g) : ShownFrom quote (f ++ g) := by
  intro d args before rest hargs hheld hrest
  rw [Fragment.args_append] at hheld
  have hf : f.args <+: args.drop before := (List.prefix_append _ _).trans hheld
  -- The values of `g` are held right behind those of `f`.
  have hg : g.args <+: args.drop (before + f.args.length) := by
    obtain ⟨behind, hbehind⟩ := hheld
    exact ⟨behind, by rw [← List.drop_drop, ← hbehind, List.append_assoc, List.drop_left]⟩
  rw [Fragment.placed_append, Fragment.inlined_append, Fragment.args_append, List.length_append,
    String.toList_append, String.toList_append, List.append_assoc, List.append_assoc,
    h d args before _ hargs hf (h'.apart d _ rest hrest),
    h'.shown d args _ rest hargs hg hrest, Nat.add_assoc]

/-- Behind a text there may be anything. -/
theorem text_append {s : String} (hs : selfContained quote (s.toList.map .char)) (h : Shown g) :
    ShownFrom quote (Fragment.text s ++ g) := by
  intro d args before rest hargs hheld hrest
  have hplaced : (Fragment.text s ++ g).placed d before = s ++ g.placed d before := rfl
  have hinlined : (Fragment.text s ++ g).inlined = s ++ g.inlined := rfl
  have hgargs : (Fragment.text s ++ g).args = g.args := rfl
  rw [hgargs] at hheld
  rw [hplaced, hinlined, hgargs, String.toList_append, String.toList_append, List.append_assoc,
    List.append_assoc, inlineFrom_closed hs, h d args before rest hargs hheld hrest]

theorem text {s : String} (hs : closesQuotes s) : Shown (Fragment.text s) := by
  have h := text_append hs nil
  rwa [List.append_nil] at h

theorem ident {name : String} (hname : closesQuotes (identifier name)) :
    Shown (Fragment.ident name) :=
  text hname

theorem bound (v : Value) : Shown (Fragment.bound v) := by
  intro d args before rest hargs hheld hrest
  have hplaced : (Fragment.bound v).placed d before = d.placeholder (before + 1) :=
    String.append_empty
  have hinlined : (Fragment.bound v).inlined = v.literal := String.append_empty
  have hv : args[before]? = some v := by
    obtain ⟨behind, hbehind⟩ := hheld
    rw [← Nat.add_zero before, ← List.getElem?_drop, ← hbehind]
    rfl
  rw [hplaced, hinlined]
  exact inlineFrom_placeholder hargs hv hrest

theorem ite {p : Prop} [Decidable p] (h : p → Shown f) (h' : ¬p → Shown g) :
    Shown (if p then f else g) := by
  split
  · exact h ‹_›
  · exact h' ‹_›

end ShownFrom

/-- A text that can stand behind a placeholder whatever comes next. -/
def isKeyword (s : String) : Bool := closesQuotes s && s.toList.head?.any (!isDigit ·)

namespace Follows

variable {f g : Fragment}

theorem nil : Follows [] where
  shown := .nil
  apart _ _ _ hrest := hrest

theorem text_append {s : String} (hs : isKeyword s) (h : Shown g) :
    Follows (Fragment.text s ++ g) := by
  rw [isKeyword, Bool.and_eq_true, Option.any_eq_true] at hs
  obtain ⟨hclosed, c, hc, hdigit⟩ := hs
  refine ⟨.text_append hclosed h, fun d before rest _ c' hc' => ?_⟩
  have hplaced : (Fragment.text s ++ g).placed d before = s ++ g.placed d before := rfl
  rw [hplaced, String.toList_append, List.append_assoc, List.head?_append, hc] at hc'
  obtain rfl : c = c' := Option.some.inj hc'
  simpa using hdigit

theorem text {s : String} (hs : isKeyword s) : Follows (Fragment.text s) := by
  have h := text_append hs .nil
  rwa [List.append_nil] at h

theorem append (h : Follows f) (h' : Follows g) : Follows (f ++ g) := by
  refine ⟨h.shown.append h', fun d before rest hrest => ?_⟩
  rw [Fragment.placed_append, String.toList_append, List.append_assoc]
  exact h.apart d before _ (h'.apart d _ rest hrest)

theorem ite {p : Prop} [Decidable p] (h : p → Follows f) (h' : ¬p → Follows g) :
    Follows (if p then f else g) := by
  split
  · exact h ‹_›
  · exact h' ‹_›

end Follows

section Clauses

variable {f : Fragment} {fs : List Fragment} {keyword separator : String}

theorem ShownFrom.parenthesized (h : Shown f) : Shown f.parenthesized := by
  unfold Fragment.parenthesized
  rw [List.append_assoc]
  exact .text_append (by decide) (h.append (.text (by decide)))

theorem ShownFrom.separated (hseparator : isKeyword separator) (h : ∀ f ∈ fs, Shown f) :
    Shown (Fragment.separated separator fs) := by
  induction fs with
  | nil => exact .nil
  | cons f fs ih =>
      have hf := h f List.mem_cons_self
      have hfs := ih fun g hg => h g (List.mem_cons_of_mem f hg)
      cases fs with
      | nil => exact hf
      | cons g fs =>
          rw [Fragment.separated, List.append_assoc]
          · exact hf.append (.text_append hseparator hfs)
          · simp

theorem Follows.listClause (hkeyword : isKeyword keyword) (h : ∀ f ∈ fs, Shown f) :
    Follows (Sql.listClause keyword fs) :=
  .ite (fun _ => .nil) (fun _ => .text_append hkeyword (.separated (by decide) h))

theorem Follows.numberClause (hkeyword : isKeyword keyword) (n : Option Int64) :
    Follows (Sql.numberClause keyword n) := by
  cases n with
  | none => exact .nil
  | some n => exact .text_append hkeyword (.bound (.int n))

theorem ShownFrom.valueList (vs : List Value) : Shown (Sql.valueList vs) := by
  refine .ite (fun _ => .text (by decide)) (fun _ => .parenthesized (.separated (by decide) ?_))
  intro f hf
  obtain ⟨v, -, rfl⟩ := List.mem_map.mp hf
  exact .bound v

theorem Follows.asName {name : String} (h : closesQuotes (identifier name)) :
    Follows (Fragment.asName name) :=
  .text_append (by decide) (.ident h)

theorem Follows.asNameOf {name : String} (h : closesQuotes (identifier name)) (own : String) :
    Follows (Sql.asNameOf name own) :=
  .ite (fun _ => .nil) (fun _ => .asName h)

/-- A name in front of what belongs to it. -/
theorem ShownFrom.owned {hidden : Bool} {owner name : String}
    (howner : closesQuotes (identifier owner)) (hname : closesQuotes (identifier name)) :
    Shown ((if hidden then [] else Fragment.ident owner ++ Fragment.text ".")
      ++ Fragment.ident name) := by
  cases hidden with
  | true => exact .ident hname
  | false => exact (ShownFrom.ident howner).append (.text_append (by decide) (.ident hname))

theorem Follows.marks (m : Marks) : Follows m.order := by
  obtain ⟨_, direction, nulls⟩ := m
  refine append ?_ ?_
  · rcases direction with _ | (_ | _)
    exacts [.nil, .text (by decide), .text (by decide)]
  · rcases nulls with _ | (_ | _)
    exacts [.nil, .text (by decide), .text (by decide)]

theorem ShownFrom.char_append {c : Char} (hc : quote = none → c ≠ '?' ∧ c ≠ '$')
    (h : ShownFrom (quoteAfter quote c) f) :
    ShownFrom quote (.text (String.singleton c) :: f) := by
  intro d args before rest hargs hheld hrest
  have hplaced : Fragment.placed d before (.text (String.singleton c) :: f) =
      String.singleton c ++ f.placed d before := rfl
  have hinlined : Fragment.inlined (.text (String.singleton c) :: f) =
      String.singleton c ++ f.inlined := rfl
  rw [hplaced, hinlined, String.toList_append, String.toList_append, String.toList_singleton,
    List.singleton_append, List.singleton_append, List.cons_append, List.cons_append,
    inlineFrom_char hc]
  exact congrArg (c :: ·) (h d args before rest hargs hheld hrest)

theorem noDigit_filled {ps : List Part} (hps : Template.apart ps) (d : Dialect) (before : Nat)
    {rest : List Char} (hrest : NoDigit rest) :
    NoDigit (((Template.filled ps fs).placed d before).toList ++ rest) := by
  match ps with
  | [] => exact hrest
  | .char c :: ps =>
      intro c' hc'
      have hplaced : (Template.filled (.char c :: ps) fs).placed d before =
          String.singleton c ++ (Template.filled ps fs).placed d before := rfl
      rw [hplaced, String.toList_append, String.toList_singleton] at hc'
      obtain rfl : c = c' := Option.some.inj hc'
      simpa [Template.apart] using hps
  | .slot :: _ => exact absurd hps (by simp [Template.apart])

/-- A template is shown if it has a filling for every slot. -/
theorem ShownFrom.filled {ps : List Part} (hps : selfContained quote ps)
    (hcount : ps.count .slot ≤ fs.length) (h : ∀ f ∈ fs, Shown f) :
    ShownFrom quote (Template.filled ps fs) := by
  induction ps generalizing quote fs with
  | nil =>
      cases quote with
      | none => exact .nil
      | some q => exact absurd hps (by simp [selfContained])
  | cons p ps ih =>
      cases p with
      | char c =>
          have hrest : selfContained (quoteAfter quote c) ps ∧
              (quote = none → c ≠ '?' ∧ c ≠ '$') := by
            cases quote with
            | some q => exact ⟨hps, by simp⟩
            | none =>
                simp only [selfContained, Bool.and_eq_true, decide_eq_true_eq] at hps
                exact ⟨hps.2, fun _ => hps.1⟩
          have hchar : (Part.char c :: ps).count .slot = ps.count .slot := by simp
          exact .char_append hrest.2 (ih hrest.1 (hchar ▸ hcount) h)
      | slot =>
          cases quote with
          | some q => exact absurd hps (by simp [selfContained])
          | none =>
              rw [selfContained, Bool.and_eq_true] at hps
              rw [List.count_cons_self] at hcount
              match fs with
              | [] => simp at hcount
              | f :: fs =>
                  have hf := h f List.mem_cons_self
                  have hfs := ih hps.2 (Nat.le_of_succ_le_succ hcount) fun g hg =>
                    h g (List.mem_cons_of_mem f hg)
                  exact hf.append ⟨hfs, fun d before _ => noDigit_filled hps.1 d before⟩

/-- A caller's template with its arguments rendered. -/
theorem ShownFrom.expanded {format : String}
    (hformat : (Supplied.template format fs.length).selfContained) (h : ∀ f ∈ fs, Shown f) :
    Shown (Template.expanded format fs) := by
  simp only [Supplied.selfContained, Bool.and_eq_true, decide_eq_true_eq] at hformat
  exact .filled hformat.1 hformat.2 h

end Clauses

end Sql

end BoundSql
