import BoundSql.Proofs.BooleanStructure
import BoundSql.Proofs.Emission

/-!
# Empty groups

A group without members writes nothing, but whatever it stands in does not notice: a connective next
to it, a NOT in front of it and the keyword of its clause are written all the same. So a predicate
is rendered to an expression exactly if no group in it is empty, and to nothing exactly if it is an
empty group, or the only member of such a predicate without a NOT.
-/
namespace BoundSql.Sql

variable {α : Type}

/-- Atoms joined by AND and OR, with NOT and parentheses. -/
inductive IsExpression : List (Token α) → Prop
  | atom (a : α) : IsExpression [.atom a]
  | not {ts : List (Token α)} (h : IsExpression ts) : IsExpression (.not :: ts)
  | join (c : Connective) {ts ts' : List (Token α)} (h : IsExpression ts) (h' : IsExpression ts') :
      IsExpression (ts ++ .connective c :: ts')
  | parens {ts : List (Token α)} (h : IsExpression ts) : IsExpression (.lparen :: (ts ++ [.rparen]))

/-- Nothing is rendered: an empty group, or a group without a NOT whose only member is of this
kind. -/
def Predicate.vanishes : Predicate → Bool
  | .group _ _ [] _ => true
  | .group negated _ [p] _ => !negated && p.vanishes
  | _ => false

namespace Token

/-- The parentheses that are open. -/
def opened (stack : List (Pending α)) : Nat := stack.countP fun w => w.precedence = 0

theorem opened_cons_of_pos {w : Pending α} (h : 0 < w.precedence) (stack : List (Pending α)) :
    opened (w :: stack) = opened stack := by
  have hw : w.precedence ≠ 0 := by omega
  simp [opened, hw]

theorem opened_paren (stack : List (Pending α)) : opened (.paren :: stack) = opened stack + 1 := by
  simp [opened, Pending.precedence]

theorem precedence_pos (c : Connective) : 0 < c.precedence := by
  cases c <;> decide

theorem opened_not (stack : List (Pending α)) : opened (.not :: stack) = opened stack :=
  opened_cons_of_pos (w := .not) (Nat.succ_pos 2) stack

theorem opened_left (c : Connective) (e : Expr α) (stack : List (Pending α)) :
    opened (.left c e :: stack) = opened stack :=
  opened_cons_of_pos (w := .left c e) (precedence_pos c) stack

/-- No parenthesis is closed by an operand. -/
theorem opened_reduce {p : Nat} (hp : 0 < p) (stack : List (Pending α)) (e : Expr α) :
    opened (reduce p stack e).1 = opened stack := by
  induction stack generalizing e with
  | nil => rfl
  | cons w stack ih =>
      by_cases hw : p ≤ w.precedence
      · rw [reduce, if_pos hw, ih, opened_cons_of_pos (by omega)]
      · rw [reduce, if_neg hw]

/-- All is applied, up to the last open parenthesis. -/
theorem reduce_one (stack : List (Pending α)) (e : Expr α) :
    (opened stack = 0 ∧ ∃ e', reduce 1 stack e = ([], e')) ∨
      ∃ rest e', opened stack = opened rest + 1 ∧ reduce 1 stack e = (.paren :: rest, e') := by
  induction stack generalizing e with
  | nil => exact .inl ⟨rfl, e, rfl⟩
  | cons w stack ih =>
      by_cases hw : 1 ≤ w.precedence
      · rw [reduce, if_pos hw, opened_cons_of_pos hw]
        exact ih _
      · cases w with
        | not => exact absurd (Nat.succ_pos 2) hw
        | left c e => exact absurd (precedence_pos c) hw
        | paren => exact .inr ⟨stack, e, opened_paren stack, rfl⟩

theorem operator_rparen {stack : List (Pending α)} {n : Nat} (h : opened stack = n + 1)
    (e : Expr α) (ts : List (Token α)) : ∃ stack' e',
      operator stack e (.rparen :: ts) = operator stack' e' ts ∧ opened stack' = n := by
  obtain ⟨hnone, -⟩ | ⟨rest, e', hopened, hreduce⟩ := reduce_one stack e
  · omega
  · exact ⟨rest, e', by simp only [operator, hreduce], by omega⟩

theorem operator_nil {stack : List (Pending α)} (h : opened stack = 0) (e : Expr α) :
    ∃ e', operator stack e [] = some e' := by
  obtain ⟨-, e', hreduce⟩ | ⟨rest, e', hopened, -⟩ := reduce_one stack e
  · exact ⟨e', by simp only [operator, hreduce]⟩
  · omega

end Token

/-- Behind an expression the reader is where an operator can come, with the parentheses open that
have been open in front of it. -/
theorem IsExpression.operand {ts : List (Token α)} (h : IsExpression ts)
    (stack : List (Pending α)) (rest : List (Token α)) : ∃ stack' e,
      Token.operand stack (ts ++ rest) = Token.operator stack' e rest ∧
        Token.opened stack' = Token.opened stack := by
  induction h generalizing stack rest with
  | atom a => exact ⟨stack, .atom a, rfl, rfl⟩
  | not h ih =>
      obtain ⟨stack', e, hread, hopened⟩ := ih (.not :: stack) rest
      exact ⟨stack', e, hread, hopened.trans (Token.opened_not stack)⟩
  | @join c ts ts' h h' ih ih' =>
      obtain ⟨stack₁, e₁, hread, hopened⟩ := ih stack (.connective c :: ts' ++ rest)
      obtain ⟨stack₂, e₂, hread', hopened'⟩ := ih'
        (.left c (Token.reduce c.precedence stack₁ e₁).2 ::
          (Token.reduce c.precedence stack₁ e₁).1) rest
      refine ⟨stack₂, e₂, ?_, ?_⟩
      · rw [List.append_assoc, hread, List.cons_append, Token.operator]
        exact hread'
      · rw [hopened', Token.opened_left, Token.opened_reduce (Token.precedence_pos c), hopened]
  | @parens ts h ih =>
      obtain ⟨stack₁, e₁, hread, hopened⟩ := ih (.paren :: stack) (.rparen :: rest)
      obtain ⟨stack₂, e₂, hread', hopened'⟩ := Token.operator_rparen
        (hopened.trans (Token.opened_paren stack)) e₁ rest
      refine ⟨stack₂, e₂, ?_, hopened'⟩
      rw [← hread', ← hread]
      simp [Token.operand]

theorem IsExpression.read {ts : List (Token α)} (h : IsExpression ts) :
    ∃ e, Token.read ts = some e := by
  obtain ⟨stack, e, hread, hopened⟩ := h.operand [] []
  obtain ⟨e', hnil⟩ := Token.operator_nil hopened e
  rw [List.append_nil] at hread
  exact ⟨e', hread.trans hnil⟩

namespace IsExpression

variable {tss : List (List (Token α))}

theorem joined (c : Connective) (hne : tss ≠ []) (h : ∀ ts ∈ tss, IsExpression ts) :
    IsExpression (joined c tss) := by
  induction tss with
  | nil => exact absurd rfl hne
  | cons ts tss ih =>
      have hts := h ts List.mem_cons_self
      cases tss with
      | nil => exact hts
      | cons ts' tss =>
          have hrest := ih (List.cons_ne_nil _ _) fun ts hts => h ts (List.mem_cons_of_mem _ hts)
          exact hts.join c hrest

theorem negation {ts : List (Token α)} (negated : Bool) (h : IsExpression ts) :
    IsExpression (Token.negation negated ++ ts) := by
  cases negated with
  | false => exact h
  | true => exact h.not

theorem group (negated : Bool) (c : Connective) (hne : tss ≠ [])
    (h : ∀ ts ∈ tss, IsExpression ts) : IsExpression (Token.group negated c tss) := by
  have hjoined := joined c hne h
  match tss, hne with
  | [ts], _ => exact hjoined.negation negated
  | ts :: ts' :: tss, _ => exact hjoined.parens.negation negated

end IsExpression

namespace Predicate

mutual

theorem isExpression : ∀ p : Predicate, p.filled → IsExpression p.tokens
  | .template negated format args _, _ => by
      rw [tokens]
      exact (IsExpression.atom _).negation negated
  | .group negated c members _, h => by
      rw [filled, Bool.and_eq_true] at h
      have hne : tokensAll members ≠ [] := by
        cases members with
        | nil => simp at h
        | cons p rest => simp [tokensAll]
      rw [tokens]
      exact .group negated c hne (isExpression_all members h.2)
  | .flag negated term marks, _ => by
      rw [tokens]
      exact (IsExpression.atom _).negation negated

theorem isExpression_all : ∀ ps : List Predicate, filledAll ps →
    ∀ ts ∈ tokensAll ps, IsExpression ts
  | [], _ => by simp [tokensAll]
  | p :: rest, h => by
      rw [filledAll, Bool.and_eq_true] at h
      rw [tokensAll]
      intro ts hts
      obtain rfl | hts := List.mem_cons.mp hts
      · exact isExpression p h.1
      · exact isExpression_all rest h.2 ts hts

end

end Predicate

/-- No operand starts with these tokens. -/
def NoOperand (ts : List (Token α)) : Prop :=
  ∀ stack : List (Pending α), Token.operand stack ts = none

namespace NoOperand

variable {ts : List (Token α)} {tss : List (List (Token α))}

theorem not_isExpression (h : NoOperand ts) : ¬ IsExpression ts := by
  intro hts
  obtain ⟨e, hread⟩ := hts.read
  rw [Token.read, h []] at hread
  cases hread

theorem nil : NoOperand ([] : List (Token α)) := fun _ => by simp [Token.operand]

theorem rparen (ts : List (Token α)) : NoOperand (.rparen :: ts) := fun _ => by
  simp [Token.operand]

theorem connective (c : Connective) (ts : List (Token α)) : NoOperand (.connective c :: ts) :=
  fun _ => by simp [Token.operand]

theorem not (h : NoOperand ts) : NoOperand (.not :: ts) := fun stack => by
  rw [Token.operand]
  exact h _

theorem lparen (h : NoOperand ts) : NoOperand (.lparen :: ts) := fun stack => by
  rw [Token.operand]
  exact h _

theorem negation (negated : Bool) (h : NoOperand ts) :
    NoOperand (Token.negation negated ++ ts) := by
  cases negated with
  | false => exact h
  | true => exact h.not

theorem group (negated : Bool) (c : Connective)
    (h : ∀ rest : List (Token α), NoOperand rest → NoOperand (joined c tss ++ rest))
    {rest : List (Token α)} (hrest : NoOperand rest) :
    NoOperand (Token.group negated c tss ++ rest) := by
  match tss with
  | [] => exact hrest
  | [ts] =>
      rw [Token.group, List.append_assoc]
      exact (h rest hrest).negation negated
  | ts :: ts' :: tss =>
      have hmembers := h (.rparen :: rest) (.rparen rest)
      simpa [Token.group] using hmembers.lparen.negation negated

end NoOperand

namespace Predicate

mutual

theorem noOperand : ∀ p : Predicate, p.filled = false → ∀ rest : List (Token Atom),
    NoOperand rest → NoOperand (p.tokens ++ rest)
  | .template .., h => by simp [filled] at h
  | .group negated c members _, h => fun rest hrest => by
      rw [tokens]
      cases members with
      | nil => exact hrest
      | cons p ps =>
          have hmembers : filledAll (p :: ps) = false := by simpa [filled] using h
          exact .group negated c (noOperand_joined c (p :: ps) hmembers) hrest
  | .flag .., h => by simp [filled] at h

theorem noOperand_joined (c : Connective) : ∀ ps : List Predicate, filledAll ps = false →
    ∀ rest : List (Token Atom), NoOperand rest → NoOperand (joined c (tokensAll ps) ++ rest)
  | [], h => by simp [filledAll] at h
  | p :: ps, h => fun rest hrest => by
      rw [filledAll] at h
      rw [tokensAll, joined_cons, List.append_assoc]
      cases hp : p.filled with
      | false =>
          apply noOperand p hp
          cases ps with
          | nil => simpa [tokensAll] using hrest
          | cons q ps =>
              rw [tokensAll, List.flatMap_cons]
              exact .connective c _
      | true =>
          have hps : filledAll ps = false := by simpa [hp] using h
          have hnext := noOperand_joined c ps hps rest hrest
          intro stack
          obtain ⟨e, he, -⟩ := p.operand hp
          cases ps with
          | nil => simp [filledAll] at hps
          | cons q ps =>
              rw [tokensAll, joined_cons] at hnext
              rw [he, tokensAll, List.flatMap_cons, List.cons_append, List.cons_append,
                Token.operator]
              exact hnext _

end

theorem isExpression_iff (p : Predicate) : IsExpression p.tokens ↔ p.filled := by
  refine ⟨fun h => ?_, p.isExpression⟩
  by_contra hp
  have hnone := p.noOperand (Bool.eq_false_iff.mpr hp) [] .nil
  rw [List.append_nil] at hnone
  exact hnone.not_isExpression h

theorem filledAll_iff (ps : List Predicate) : filledAll ps ↔ ∀ p ∈ ps, p.filled := by
  refine ⟨fun h => ?_, filledAll_of_forall⟩
  induction ps with
  | nil => simp
  | cons p ps ih =>
      rw [filledAll, Bool.and_eq_true] at h
      exact List.forall_mem_cons.mpr ⟨h.1, ih h.2⟩

theorem isExpression_joined_iff (c : Connective) (ps : List Predicate) :
    IsExpression (joined c (tokensAll ps)) ↔ ps ≠ [] ∧ ∀ p ∈ ps, p.filled := by
  rw [← filledAll_iff]
  constructor
  · intro h
    constructor
    · rintro rfl
      rw [tokensAll] at h
      exact NoOperand.nil.not_isExpression h
    · by_contra hps
      have hnone := noOperand_joined c ps (Bool.eq_false_iff.mpr hps) [] .nil
      rw [List.append_nil] at hnone
      exact hnone.not_isExpression h
  · rintro ⟨hne, h⟩
    refine .joined c ?_ (isExpression_all ps h)
    obtain ⟨p, rest, rfl⟩ := List.exists_cons_of_ne_nil hne
    simp [tokensAll]

/-- What renders to nothing. -/
theorem tokens_eq_nil_iff : ∀ p : Predicate, p.tokens = [] ↔ p.vanishes
  | .template negated .. => by simp [tokens, vanishes]
  | .flag negated .. => by simp [tokens, vanishes]
  | .group negated c [] _ => by simp [tokens, tokensAll, Token.group, vanishes]
  | .group negated c [p] _ => by
      have hp := tokens_eq_nil_iff p
      cases negated <;> simp [tokens, tokensAll, Token.group, Token.negation, vanishes, hp]
  | .group negated c (p :: q :: ps) _ => by
      simp [tokens, tokensAll, Token.group, vanishes]

end Predicate

/-- A predicate is rendered to an expression exactly if all of its groups have members, and to
nothing exactly if it vanishes. The conditions of a clause, added one after the other, and those of
a join have their keyword as soon as there is one; behind it is an expression exactly if all groups
in all of them have members. -/
theorem empty_groups_are_written_around (p : Predicate) (ps : List Predicate) :
    (∀ (d : Dialect) (excluded : List String),
      (p.toCondition d excluded).render = Token.spelled (Atom.render d excluded) p.tokens) ∧
    (p.tokens = [] ↔ p.vanishes) ∧ (IsExpression p.tokens ↔ p.filled) ∧
    KeepsPredicates ps ∧
    (∃ ts : List (Token Atom),
      (IsExpression ts ↔ ps ≠ [] ∧ ∀ p ∈ ps, p.filled) ∧
      ∀ (d : Dialect) (keyword : String),
        Condition.clause keyword (Predicate.toConditions d [] ps) =
          if ps.isEmpty then []
          else Fragment.text (" " ++ keyword ++ " ") ++ Token.spelled (Atom.render d []) ts) ∧
    ∃ ts : List (Token Atom),
      (IsExpression ts ↔ ps ≠ [] ∧ ∀ p ∈ ps, p.filled) ∧
      ∀ (d : Dialect) (kind : JoinKind) (t : Table),
        (Join.source d ⟨kind, t, ps⟩).reference =
          Fragment.text kind.keyword ++ Fragment.text " " ++ (t.source d).reference ++
            if ps.isEmpty then []
            else Fragment.text " ON " ++ Token.spelled (Atom.render d []) ts := by
  refine ⟨fun d excluded => p.render_eq_spelled d excluded, p.tokens_eq_nil_iff,
    p.isExpression_iff, keepsPredicates ps,
    ⟨joined .and (Predicate.tokensAll ps), Predicate.isExpression_joined_iff .and ps,
      fun d keyword => ?_⟩,
    (Predicate.group false .and ps "").tokens, ?_, fun d kind t => ?_⟩
  · cases ps with
    | nil => simp [Predicate.toConditions, Condition.clause]
    | cons p ps => exact Condition.clause_eq_spelled d keyword (List.cons_ne_nil p ps)
  · rw [Predicate.isExpression_iff, Predicate.filled, ← Predicate.filledAll_iff]
    simp
  · cases ps with
    | nil => simp [Join.source]
    | cons p ps => exact Join.reference_eq_spelled d kind t (List.cons_ne_nil p ps)

/-- A select of ones under a condition. -/
def onesWhere (p : Predicate) : Select :=
  { dialect := .postgres, asName := "", fields := [.verbatim "1"],
    source := some (.base { name := "t" }), conditions := [p] }

/-- WHERE stands in front of nothing, and so do NOT and a connective. -/
theorem empty_group_dangles :
    let flag : Predicate := .flag false (.column "" "a") {}
    let empty : Predicate := .all []
    (Query.select (onesWhere empty)).compile.sql = "SELECT 1 FROM t WHERE " ∧
      (Query.select (onesWhere (.all [flag, empty]))).compile.sql =
        "SELECT 1 FROM t WHERE (a AND )" ∧
      (Query.select (onesWhere (Predicate.all [empty]).negate)).compile.sql =
        "SELECT 1 FROM t WHERE NOT " ∧
      (¬ ∀ p : Predicate, p.tokens = [] ∨ IsExpression p.tokens) ∧
      ¬ ∀ (d : Dialect) (ps : List Predicate),
        Condition.clause "WHERE" (Predicate.toConditions d [] ps) = [] ∨
          Condition.conjunction (Predicate.toConditions d [] ps) ≠ [] := by
  intro flag empty
  refine ⟨?_, ?_, ?_, fun h => ?_, fun h => ?_⟩
  · rw [Query.compile_eq]
    decide +kernel
  · rw [Query.compile_eq]
    decide +kernel
  · rw [Query.compile_eq]
    decide +kernel
  · have hdangles := h (.all [flag, empty])
    rw [Predicate.tokens_eq_nil_iff, Predicate.isExpression_iff] at hdangles
    exact absurd hdangles (by decide +kernel)
  · obtain hclause | hempty := h .postgres [empty]
    · cases hclause
    · exact hempty rfl

end BoundSql.Sql
