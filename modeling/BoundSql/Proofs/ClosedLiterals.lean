import BoundSql.Proofs.Segments

/-!
# Closed literals

Whatever a value holds, its literal closes the quotes that it opens and has no placeholder outside
of them. A statement whose placeholders all have arguments is therefore shown without placeholders,
and the quotes that are open behind it are those of the statement.
-/
namespace BoundSql

namespace Text.Digits

open Sql (inert)

theorem inert_of_isDigit {c : Char} (h : isDigit c) : inert c := by
  have hne (x : Char) (hx : isDigit x = false) : c ≠ x := fun hc => by simp [hc, hx] at h
  simp [inert, Log.isQuote, hne '\'' (by decide), hne '"' (by decide), hne '`' (by decide),
    hne '?' (by decide), hne '$' (by decide)]

theorem inert_of_mem_decimal {n : Nat} {c : Char} (h : c ∈ decimal n) : inert c :=
  inert_of_isDigit (isDigit_of_mem_decimal h)

theorem inert_of_mem_intDecimal {n : Int} {c : Char} (h : c ∈ intDecimal n) : inert c := by
  unfold intDecimal at h
  split at h
  · rcases List.mem_cons.mp h with rfl | h
    · decide
    · exact inert_of_mem_decimal h
  · exact inert_of_mem_decimal h

theorem inert_upperDigitChar : ∀ d < 16, inert (upperDigitChar d) := by decide

theorem inert_of_mem_upperHexByte {b : UInt8} {c : Char} (h : c ∈ upperHexByte b) : inert c := by
  have hb : b.toNat < 256 := b.toNat_lt
  rw [upperHexByte, List.mem_cons, List.mem_singleton] at h
  rcases h with rfl | rfl
  · exact inert_upperDigitChar _ (by omega)
  · exact inert_upperDigitChar _ (by omega)

end Text.Digits

namespace Number

open Sql (inert)
open Text.Digits (decimal inert_of_mem_decimal)

theorem inert_of_mem_signed {negative : Bool} {cs : List Char} (hcs : ∀ c ∈ cs, inert c) :
    ∀ c ∈ signed negative cs, inert c := by
  cases negative with
  | false => exact hcs
  | true => exact List.forall_mem_cons.mpr ⟨by decide, hcs⟩

theorem inert_of_mem_positional (d : ShortDecimal) : ∀ c ∈ d.positional, inert c := by
  have hds : ∀ c ∈ decimal d.digits, inert c := fun c hc => inert_of_mem_decimal hc
  have hzeros (n : Nat) : ∀ c ∈ List.replicate n '0', inert c := fun c hc => by
    rw [(List.mem_replicate.mp hc).2]
    decide
  unfold ShortDecimal.positional
  dsimp only
  split
  · exact List.forall_mem_append.mpr ⟨hds, hzeros _⟩
  split
  · refine List.forall_mem_append.mpr ⟨fun c hc => hds c (List.mem_of_mem_take hc), ?_⟩
    exact List.forall_mem_cons.mpr ⟨by decide, fun c hc => hds c (List.mem_of_mem_drop hc)⟩
  · refine List.forall_mem_append.mpr ⟨?_, hds⟩
    exact List.forall_mem_cons.mpr ⟨by decide, List.forall_mem_cons.mpr ⟨by decide, hzeros _⟩⟩

theorem inert_of_mem_positionalChars (x : Binary64) : ∀ c ∈ x.positionalChars, inert c := by
  unfold Binary64.positionalChars
  split
  · exact List.all_eq_true.mp (by decide)
  · exact inert_of_mem_signed (List.all_eq_true.mp (by decide))
  · exact inert_of_mem_signed (List.all_eq_true.mp (by decide))
  · exact inert_of_mem_signed (inert_of_mem_positional _)

end Number

namespace Log

open Sql (inert closesQuotes)
open Sql.Template (quoteAfter selfContained selfContained_append selfContained_quoted)

/-- The quote that is open behind a text. -/
def quoteBehind (quote : Option Char) (cs : List Char) : Option Char := cs.foldl quoteAfter quote

/-- How many times a character stands in a text outside quotes. -/
def unquoted (c : Char) : Option Char → List Char → Nat
  | _, [] => 0
  | quote, x :: xs =>
      (if quote = none ∧ x = c then 1 else 0) + unquoted c (quoteAfter quote x) xs

variable {quote : Option Char}

theorem quoteBehind_append (quote : Option Char) (cs cs' : List Char) :
    quoteBehind quote (cs ++ cs') = quoteBehind (quoteBehind quote cs) cs' :=
  List.foldl_append

theorem unquoted_append (c : Char) (quote : Option Char) (cs cs' : List Char) :
    unquoted c quote (cs ++ cs') = unquoted c quote cs + unquoted c (quoteBehind quote cs) cs' := by
  induction cs generalizing quote with
  | nil => simp [unquoted, quoteBehind]
  | cons x cs ih => simp only [List.cons_append, unquoted, ih, quoteBehind, List.foldl_cons]; omega

/-- What the scanner copies with nothing else than characters. -/
theorem selfContained_iff {cs : List Char} : selfContained quote (cs.map .char) ↔
    quoteBehind quote cs = none ∧ unquoted '?' quote cs = 0 ∧ unquoted '$' quote cs = 0 := by
  induction cs generalizing quote with
  | nil => cases quote <;> simp [selfContained, quoteBehind, unquoted]
  | cons c cs ih =>
      cases quote with
      | some q => simp [selfContained, unquoted, ih, quoteBehind]
      | none =>
          by_cases hmark : c = '?'
          · simp [selfContained, unquoted, hmark]
          by_cases hdollar : c = '$'
          · simp [selfContained, unquoted, hdollar]
          simp [selfContained, unquoted, ih, quoteBehind, hmark, hdollar]

/-- A doubled quote closes the literal and opens it again. -/
theorem selfContained_doubled (cs : List Char) (rest : List Sql.Template.Part) :
    selfContained (some '\'') ((Text.doubled '\'' cs).map .char ++ rest) =
      selfContained (some '\'') rest := by
  induction cs with
  | nil => rfl
  | cons c cs ih =>
      rw [Text.doubled, List.flatMap_cons, List.map_append, List.append_assoc]
      by_cases hc : c = '\''
      · rw [if_pos hc, ← ih]
        simp [selfContained, quoteAfter, isQuote, Text.doubled]
      · rw [if_neg hc, ← ih]
        simp [selfContained, quoteAfter, hc, Text.doubled]

theorem closesQuotes_quotedText (s : String) : closesQuotes (Text.quotedText s) := by
  rw [closesQuotes, Text.quotedText, String.toList_ofList, Text.quoted, List.cons_append,
    List.map_cons, List.map_append]
  have hbody := selfContained_doubled s.toList [.char '\'']
  simpa [selfContained, quoteAfter, isQuote] using hbody

/-- Whatever a value holds, its literal closes the quotes that it opens. -/
theorem closesQuotes_literal (v : Value) : closesQuotes v.literal := by
  cases v with
  | null => decide
  | bool b => cases b <;> decide
  | int n =>
      refine Sql.closesQuotes_of_inert fun c hc => ?_
      rw [Value.literal, Text.Digits.intText, String.toList_ofList] at hc
      exact Text.Digits.inert_of_mem_intDecimal hc
  | float x =>
      refine Sql.closesQuotes_of_inert fun c hc => ?_
      rw [Value.literal, Number.Binary64.toText, String.toList_ofList] at hc
      exact Number.inert_of_mem_positionalChars x c hc
  | text s => exact closesQuotes_quotedText s
  | bytes bs =>
      have hhex : ∀ c ∈ bs.flatMap Text.Digits.upperHexByte, inert c := fun c hc => by
        obtain ⟨b, -, hc⟩ := List.mem_flatMap.mp hc
        exact Text.Digits.inert_of_mem_upperHexByte hc
      have hquoted := selfContained_quoted (q := '\'') (by decide) hhex []
      simpa [closesQuotes, Value.literal, selfContained, quoteAfter, isQuote] using hquoted
  | time t => exact closesQuotes_quotedText t.toText
  | json j => exact closesQuotes_quotedText j.toText

/-- No placeholder stands in a literal, outside of its quotes. -/
theorem unquoted_literal (d : Dialect) (v : Value) :
    quoteBehind none v.literal.toList = none ∧ unquoted d.mark none v.literal.toList = 0 := by
  obtain ⟨hquote, hmark, hdollar⟩ := selfContained_iff.mp (closesQuotes_literal v)
  cases d with
  | mysql => exact ⟨hquote, hmark⟩
  | postgres => exact ⟨hquote, hdollar⟩

/-- Every mark outside quotes starts a placeholder that has an argument, where `quote` is open in
front and `before` marks are counted before. -/
def Answered (d : Dialect) (args : List Value) (quote : Option Char) (before : Nat)
    (cs : List Char) : Prop :=
  ∀ front rest : List Char, cs = front ++ d.mark :: rest → quoteBehind quote front = none →
    ((Segment.placeholder d rest).argument? args
      (before + unquoted d.mark quote front)).isSome

namespace Answered

variable {d : Dialect} {args : List Value} {before : Nat}

theorem append_right {cs cs' : List Char} (h : Answered d args quote before (cs ++ cs')) :
    Answered d args (quoteBehind quote cs) (before + unquoted d.mark quote cs) cs' := by
  intro front rest hcs hfront
  have hwhole := h (cs ++ front) rest (by rw [hcs, List.append_assoc])
    (by rw [quoteBehind_append, hfront])
  rwa [unquoted_append, ← Nat.add_assoc] at hwhole

theorem nil : Answered d args quote before [] := by
  intro front rest hcs
  simp at hcs

/-- Mark by mark. -/
theorem cons_iff {c : Char} {cs : List Char} : Answered d args quote before (c :: cs) ↔
    (quote = none ∧ c = d.mark →
      ((Segment.placeholder d cs).argument? args before).isSome) ∧
    Answered d args (quoteAfter quote c) (before + unquoted d.mark quote [c]) cs := by
  constructor
  · intro h
    have hcons : Answered d args quote before ([c] ++ cs) := h
    exact ⟨fun ⟨hquote, hc⟩ => h [] cs (by rw [hc]; rfl) hquote, hcons.append_right⟩
  · rintro ⟨hmark, h⟩ front rest hcs hfront
    cases front with
    | nil =>
        obtain ⟨rfl, rfl⟩ := List.cons.inj hcs
        exact hmark ⟨hfront, rfl⟩
    | cons c' front =>
        obtain ⟨rfl, rfl⟩ := List.cons.inj hcs
        have hcount : unquoted d.mark quote (c :: front) =
            unquoted d.mark quote [c] + unquoted d.mark (quoteAfter quote c) front :=
          unquoted_append d.mark quote [c] front
        rw [hcount, ← Nat.add_assoc]
        exact h front rest rfl hfront

instance decidable (d : Dialect) (args : List Value) :
    (quote : Option Char) → (before : Nat) → (cs : List Char) →
      Decidable (Answered d args quote before cs)
  | _, _, [] => .isTrue nil
  | quote, before, c :: cs =>
      have := decidable d args (quoteAfter quote c) (before + unquoted d.mark quote [c]) cs
      decidable_of_iff _ cons_iff.symm

end Answered

section Shown

variable {d : Dialect} {args : List Value}

/-- A placeholder opens no quote, and its mark is the only one in it. -/
theorem placeholder_text (d : Dialect) (cs : List Char) :
    quoteBehind none (Segment.placeholder d cs).text = none ∧
      unquoted d.mark none (Segment.placeholder d cs).text = 1 := by
  cases d with
  | mysql => exact ⟨rfl, rfl⟩
  | postgres =>
      have hdigits : ∀ c ∈ cs.takeWhile Text.Digits.isDigit, inert c := fun c hc =>
        Text.Digits.inert_of_isDigit (List.mem_takeWhile_imp hc)
      have hclosed : selfContained none ((cs.takeWhile Text.Digits.isDigit).map .char) := by
        have := selfContained_append hdigits (by simp : ∀ q ∈ none, isQuote q) []
        rwa [List.append_nil] at this
      obtain ⟨hquote, -, hmarks⟩ := selfContained_iff.mp hclosed
      constructor
      · exact hquote
      · change 1 + unquoted '$' none (cs.takeWhile Text.Digits.isDigit) = 1
        rw [hmarks]

/-- What is shown leaves the quotes open that were open, and has no mark outside quotes. -/
theorem shown_closed {quote : Option Char} {before : Nat} {cs : List Char}
    (h : Answered d args quote before cs) :
    quoteBehind quote (inlineFrom d args quote before cs) = quoteBehind quote cs ∧
      unquoted d.mark quote (inlineFrom d args quote before cs) = 0 := by
  -- A placeholder takes its digits at once, so the characters behind it are some later ones.
  induction hn : cs.length using Nat.strong_induction_on generalizing quote before cs with
  | _ n ih =>
      obtain _ | ⟨c, rest⟩ := cs
      · rw [inlineFrom]
        exact ⟨rfl, rfl⟩
      by_cases hmark : quote = none ∧ c = d.mark
      · obtain ⟨rfl, rfl⟩ := hmark
        obtain ⟨more, hcut, htext⟩ := Segment.exists_cutOff_placeholder d rest
        obtain ⟨hquote, hcount⟩ := placeholder_text d rest
        obtain ⟨v, hv⟩ := Option.isSome_iff_exists.mp ((Answered.cons_iff.mp h).1 ⟨rfl, rfl⟩)
        obtain ⟨hclosed, hliteral⟩ := unquoted_literal d v
        have hshown : inlineFrom d args none before (d.mark :: rest) = v.literal.toList ++
            inlineFrom d args none (before + (Segment.placeholder d rest).marks) more := by
          rw [← htext, hcut.inlineFrom_text, Segment.shown, hv]
        have hmore : Answered d args none (before + (Segment.placeholder d rest).marks) more := by
          rw [← htext] at h
          have hbehind := h.append_right
          rw [hquote, hcount] at hbehind
          cases d with
          | mysql => exact hbehind
          -- The numbers of PostgreSQL do not depend on what stands before.
          | postgres => exact hbehind
        have hlength : more.length < n := by
          have hne := List.length_pos_of_ne_nil hcut.text_ne_nil
          rw [← htext, List.length_append] at hn
          omega
        obtain ⟨hquotes, hmarks⟩ := ih _ hlength hmore rfl
        rw [hshown, quoteBehind_append, unquoted_append, hclosed, hliteral, hquotes, hmarks,
          ← htext, quoteBehind_append, hquote]
        exact ⟨rfl, rfl⟩
      · have hnone : unquoted d.mark quote [c] = 0 := by simp [unquoted, hmark]
        have hrest := (Answered.cons_iff.mp h).2
        rw [hnone, Nat.add_zero] at hrest
        obtain ⟨hquotes, hmarks⟩ := ih rest.length (by simp [← hn]) hrest rfl
        rw [Sql.inlineFrom_unmarked fun hquote hc => hmark ⟨hquote, hc⟩]
        exact ⟨hquotes, by simp [unquoted, hmark, hmarks]⟩

/-- A text without marks outside quotes is shown as it is. -/
theorem inlineFrom_of_unquoted {quote : Option Char} {before : Nat} {cs : List Char}
    (h : unquoted d.mark quote cs = 0) : inlineFrom d args quote before cs = cs := by
  induction cs generalizing quote with
  | nil => rw [inlineFrom]
  | cons c cs ih =>
      have hmark : ¬(quote = none ∧ c = d.mark) := fun hmark => by simp [unquoted, hmark] at h
      rw [unquoted, if_neg hmark, Nat.zero_add] at h
      rw [Sql.inlineFrom_unmarked fun hquote hc => hmark ⟨hquote, hc⟩]
      exact congrArg (c :: ·) (ih h)

/-- Values do not break out of their literals: a statement whose placeholders all have arguments is
shown without placeholders, so that showing it again changes nothing, and it ends within a quote if
and only if the statement does, within the same. -/
theorem literals_stay_closed {sql : String} (h : Answered d args none 0 sql.toList) :
    (∀ others, inlineArgs d (inlineArgs d sql args) others = inlineArgs d sql args) ∧
      quoteBehind none (inlineArgs d sql args).toList = quoteBehind none sql.toList ∧
      unquoted d.mark none (inlineArgs d sql args).toList = 0 ∧
      ∀ v : Value, quoteBehind none v.literal.toList = none ∧
        ∀ d : Dialect, unquoted d.mark none v.literal.toList = 0 := by
  obtain ⟨hquotes, hmarks⟩ := shown_closed h
  have htext : (inlineArgs d sql args).toList = inlineFrom d args none 0 sql.toList := by
    rw [inlineArgs, String.toList_ofList]
  rw [← htext] at hquotes hmarks
  refine ⟨fun others => ?_, hquotes, hmarks, fun v => ?_⟩
  · rw [inlineArgs, inlineFrom_of_unquoted hmarks, String.ofList_toList]
  · exact ⟨(unquoted_literal .mysql v).1, fun d => (unquoted_literal d v).2⟩

/-- A text of placeholders and quotes, right behind a quoted segment, in front of an open quote. -/
theorem lookalikes_stay_closed :
    Answered .postgres [.text "$1 or '$2'", .bytes [255]] none 0
        "SELECT 'a'$2, $1$2 FROM \"$9".toList ∧
      inlineArgs .postgres "SELECT 'a'$2, $1$2 FROM \"$9" [.text "$1 or '$2'", .bytes [255]] =
        "SELECT 'a'X'FF', '$1 or ''$2'''X'FF' FROM \"$9" ∧
      inlineArgs .postgres "SELECT 'a'X'FF', '$1 or ''$2'''X'FF' FROM \"$9" [.null] =
        "SELECT 'a'X'FF', '$1 or ''$2'''X'FF' FROM \"$9" ∧
      quoteBehind none "SELECT 'a'X'FF', '$1 or ''$2'''X'FF' FROM \"$9".toList = some '"' := by
  have hanswered : Answered .postgres [.text "$1 or '$2'", .bytes [255]] none 0
      "SELECT 'a'$2, $1$2 FROM \"$9".toList := by decide +kernel
  have hshown : inlineArgs .postgres "SELECT 'a'$2, $1$2 FROM \"$9"
      [.text "$1 or '$2'", .bytes [255]] =
        "SELECT 'a'X'FF', '$1 or ''$2'''X'FF' FROM \"$9" := by decide +kernel
  obtain ⟨hagain, hquotes, -⟩ := literals_stay_closed hanswered
  rw [hshown] at hagain hquotes
  exact ⟨hanswered, hshown, hagain [.null], hquotes.trans (by decide +kernel)⟩

end Shown

end Log

end BoundSql
