import BoundSql.Proofs.Precedence
import BoundSql.Sql.Change
import BoundSql.Sql.Insert
import BoundSql.Sql.Predicate

/-!
# Boolean structure survives rendering

A predicate is rendered without parentheses that it does not need. Reading the rendered tokens by
precedence gives an expression with the value of the predicate all the same, whatever its atoms are.
-/
namespace BoundSql.Sql

/-- A predicate that is no group, without its negation. -/
inductive Atom where
  | template (format : String) (args : List Arg)
  | flag (term : Term) (marks : Marks)

def Atom.render (d : Dialect) (excluded : List String) : Atom → Fragment
  | .template format args => Template.expanded format (Arg.renderAll d excluded args)
  | .flag term marks => term.render excluded ++ marks.order

namespace Token

variable {α : Type}

/-- How a token is written. -/
def spell (write : α → Fragment) : Token α → Fragment
  | .not => Fragment.text "NOT "
  | .connective c => Fragment.text (Condition.separator c)
  | .lparen => Fragment.text "("
  | .rparen => Fragment.text ")"
  | .atom a => write a

def spelled (write : α → Fragment) (ts : List (Token α)) : Fragment := ts.flatMap (spell write)

def negation (negated : Bool) : List (Token α) := if negated then [.not] else []

/-- A group: nothing, its only member, or its members in parentheses. -/
def group (negated : Bool) (c : Connective) : List (List (Token α)) → List (Token α)
  | [] => []
  | [ts] => negation negated ++ ts
  | several => negation negated ++ .lparen :: (joined c several ++ [.rparen])

end Token

namespace Predicate

mutual

/-- The value of a predicate, given that of its atoms. -/
def value (v : Atom → Bool) : Predicate → Bool
  | .template negated format args _ => negated ^^ v (.template format args)
  | .group negated c members _ => negated ^^ c.applyAll (values v members)
  | .flag negated term marks => negated ^^ v (.flag term marks)

def values (v : Atom → Bool) : List Predicate → List Bool
  | [] => []
  | p :: rest => p.value v :: values v rest

end

mutual

/-- Every group has a member, at every depth. -/
def filled : Predicate → Bool
  | .template .. => true
  | .group _ _ members _ => !members.isEmpty && filledAll members
  | .flag .. => true

def filledAll : List Predicate → Bool
  | [] => true
  | p :: rest => p.filled && filledAll rest

end

mutual

/-- The tokens that a predicate is rendered to. -/
def tokens : Predicate → List (Token Atom)
  | .template negated format args _ => Token.negation negated ++ [.atom (.template format args)]
  | .group negated c members _ => Token.group negated c (tokensAll members)
  | .flag negated term marks => Token.negation negated ++ [.atom (.flag term marks)]

def tokensAll : List Predicate → List (List (Token Atom))
  | [] => []
  | p :: rest => p.tokens :: tokensAll rest

end

end Predicate

namespace Token

variable {α : Type} (write : α → Fragment)

theorem spelled_append (ts ts' : List (Token α)) :
    spelled write (ts ++ ts') = spelled write ts ++ spelled write ts' :=
  List.flatMap_append

theorem spelled_cons (t : Token α) (ts : List (Token α)) :
    spelled write (t :: ts) = t.spell write ++ spelled write ts :=
  List.flatMap_cons

theorem spelled_atom (a : α) : spelled write [.atom a] = write a := List.append_nil _

theorem spelled_negation (negated : Bool) :
    spelled write (negation negated) = Condition.negation negated := by
  cases negated <;> rfl

theorem spelled_joined (c : Connective) (tss : List (List (Token α))) :
    spelled write (joined c tss) =
      Fragment.separated (Condition.separator c) (tss.map (spelled write)) := by
  induction tss with
  | nil => rfl
  | cons ts tss ih =>
      cases tss with
      | nil => rfl
      | cons ts' tss =>
          rw [joined, spelled_append, spelled_cons, ih]
          · simp only [List.map_cons, Fragment.separated, List.append_assoc]
            rfl
          · simp

/-- A group is spelled as a condition of its members is rendered. -/
theorem spelled_group (negated : Bool) (c : Connective) (tss : List (List (Token α))) :
    spelled write (group negated c tss) =
      match tss.map (spelled write) with
      | [] => []
      | [member] => Condition.negation negated ++ member
      | several => Condition.negation negated ++
          (Fragment.separated (Condition.separator c) several).parenthesized := by
  match tss with
  | [] => rfl
  | [ts] => exact (spelled_append write _ _).trans (by rw [spelled_negation]; rfl)
  | ts :: ts' :: tss =>
      have hjoined := spelled_joined write c (ts :: ts' :: tss)
      rw [group, spelled_append, spelled_cons, spelled_append, hjoined, spelled_negation]
      · simp only [List.map_cons, Fragment.parenthesized, List.append_assoc]
        rfl
      · simp
      · simp

end Token

namespace Predicate

variable (d : Dialect) (excluded : List String)

mutual

theorem render_eq_spelled : ∀ p : Predicate,
    (p.toCondition d excluded).render = Token.spelled (Atom.render d excluded) p.tokens
  | .template negated format args _ => by
      rw [toCondition, tokens, Condition.render, Token.spelled_append, Token.spelled_negation,
        Token.spelled_atom]
      rfl
  | .group negated c members _ => by
      rw [toCondition, tokens, Condition.render, renderAll_eq_spelled members]
      exact (Token.spelled_group _ negated c (tokensAll members)).symm
  | .flag negated term marks => by
      rw [toCondition, tokens, Condition.render, Token.spelled_append, Token.spelled_negation,
        Token.spelled_atom]
      rfl

theorem renderAll_eq_spelled : ∀ ps : List Predicate,
    Condition.renderAll (toConditions d excluded ps) =
      (tokensAll ps).map (Token.spelled (Atom.render d excluded))
  | [] => by
      rw [toConditions, tokensAll, Condition.renderAll]
      rfl
  | p :: rest => by
      rw [toConditions, tokensAll, Condition.renderAll, render_eq_spelled p,
        renderAll_eq_spelled rest, List.map_cons]

end

end Predicate

namespace Operand

variable {α : Type} {ts : List (Token α)} {tss : List (List (Token α))} {e : Expr α}
  {es : List (Expr α)}

theorem read (h : Operand ts e) : Token.read ts = some e := by
  calc Token.read ts = Token.operand [] (ts ++ []) := by rw [List.append_nil]; rfl
    _ = some e := h [] []

theorem negation (negated : Bool) (h : Operand ts e) : ∃ e' : Expr α,
    Operand (Token.negation negated ++ ts) e' ∧ ∀ v, e'.eval v = (negated ^^ e.eval v) := by
  cases negated with
  | false => exact ⟨e, h, fun v => (Bool.false_xor _).symm⟩
  | true => exact ⟨.not e, h.not, fun v => (Bool.true_xor _).symm⟩

/-- A group with members is an operand with the value of the group. -/
theorem group (negated : Bool) (c : Connective) (h : List.Forall₂ Operand tss es)
    (hne : tss ≠ []) : ∃ e : Expr α, Operand (Token.group negated c tss) e ∧
      ∀ v, e.eval v = (negated ^^ c.applyAll (es.map (·.eval v))) := by
  cases h with
  | nil => exact absurd rfl hne
  | @cons ts e tss es h hs =>
      have hmembers : Operand
          (if tss.isEmpty then ts else .lparen :: (joined c (ts :: tss) ++ [.rparen]))
          (joinAll c e es) := by
        cases hs with
        | nil => exact h
        | cons h' hs => exact parens c h (.cons h' hs)
      have hgroup : Token.group negated c (ts :: tss) = Token.negation negated ++
          (if tss.isEmpty then ts else .lparen :: (joined c (ts :: tss) ++ [.rparen])) := by
        cases tss <;> rfl
      obtain ⟨e', he', heval⟩ := hmembers.negation negated
      refine ⟨e', hgroup ▸ he', fun v => ?_⟩
      rw [heval, eval_joinAll]

end Operand

namespace Predicate

mutual

theorem operand : ∀ p : Predicate, p.filled →
    ∃ e : Expr Atom, Operand p.tokens e ∧ ∀ v, e.eval v = p.value v
  | .template negated format args _, _ => by
      rw [tokens]
      obtain ⟨e, he, heval⟩ := (Operand.atom (Atom.template format args)).negation negated
      exact ⟨e, he, fun v => by rw [heval, value]; rfl⟩
  | .group negated c members _, h => by
      rw [filled, Bool.and_eq_true] at h
      obtain ⟨es, hes, heval⟩ := operands members h.2
      have hne : tokensAll members ≠ [] := by
        cases members with
        | nil => simp at h
        | cons p rest => simp [tokensAll]
      rw [tokens]
      obtain ⟨e, he, hvalue⟩ := Operand.group negated c hes hne
      exact ⟨e, he, fun v => by rw [hvalue, heval, value]⟩
  | .flag negated term marks, _ => by
      rw [tokens]
      obtain ⟨e, he, heval⟩ := (Operand.atom (Atom.flag term marks)).negation negated
      exact ⟨e, he, fun v => by rw [heval, value]; rfl⟩

theorem operands : ∀ ps : List Predicate, filledAll ps →
    ∃ es : List (Expr Atom), List.Forall₂ Operand (tokensAll ps) es ∧
      ∀ v, es.map (·.eval v) = values v ps
  | [], _ => ⟨[], by rw [tokensAll]; exact .nil, fun v => by rw [values]; rfl⟩
  | p :: rest, h => by
      rw [filledAll, Bool.and_eq_true] at h
      obtain ⟨e, he, heval⟩ := operand p h.1
      obtain ⟨es, hes, hevals⟩ := operands rest h.2
      refine ⟨e :: es, ?_, fun v => ?_⟩
      · rw [tokensAll]
        exact .cons he hes
      · rw [values, List.map_cons, heval, hevals]

end

theorem filledAll_of_forall {ps : List Predicate} (h : ∀ p ∈ ps, p.filled) : filledAll ps := by
  induction ps with
  | nil => rfl
  | cons p rest ih =>
      rw [filledAll, h p List.mem_cons_self, Bool.true_and]
      exact ih fun q hq => h q (List.mem_cons_of_mem p hq)

theorem applyAll_values (v : Atom → Bool) (ps : List Predicate) :
    Connective.and.applyAll (values v ps) = ps.all (·.value v) := by
  induction ps with
  | nil => rfl
  | cons p rest ih =>
      rw [values, List.all_cons, ← ih]
      rfl

end Predicate

/-- Read by precedence, the tokens are an expression with this value, whatever the atoms are. -/
def ReadsAs (ts : List (Token Atom)) (value : (Atom → Bool) → Bool) : Prop :=
  ∃ e : Expr Atom, Token.read ts = some e ∧ ∀ v, e.eval v = value v

theorem Predicate.readsAs {p : Predicate} (h : p.filled) : ReadsAs p.tokens (p.value ·) := by
  obtain ⟨e, he, heval⟩ := p.operand h
  exact ⟨e, he.read, heval⟩

theorem Predicate.joined_readsAs {ps : List Predicate} (hne : ps ≠ []) (h : ∀ p ∈ ps, p.filled) :
    ReadsAs (joined .and (tokensAll ps)) fun v => ps.all (·.value v) := by
  obtain ⟨es, hes, heval⟩ := operands ps (filledAll_of_forall h)
  obtain ⟨p, rest, rfl⟩ := List.exists_cons_of_ne_nil hne
  rw [tokensAll] at hes ⊢
  obtain _ | ⟨he, hes⟩ := hes
  refine ⟨_, Operand.read_joined .and he hes, fun v => ?_⟩
  rw [Operand.eval_joinAll, heval, applyAll_values]

theorem Condition.clause_eq_spelled (d : Dialect) (keyword : String) {ps : List Predicate}
    (hne : ps ≠ []) : Condition.clause keyword (Predicate.toConditions d [] ps) =
      Fragment.text (" " ++ keyword ++ " ") ++
        Token.spelled (Atom.render d []) (joined .and (Predicate.tokensAll ps)) := by
  have hempty : (Predicate.toConditions d [] ps).isEmpty = false := by
    obtain ⟨p, rest, rfl⟩ := List.exists_cons_of_ne_nil hne
    rw [Predicate.toConditions, List.isEmpty_cons]
  have hseparator : Condition.separator .and = " AND " := by rfl
  rw [Condition.clause, hempty, Condition.conjunction, Predicate.renderAll_eq_spelled,
    Token.spelled_joined, hseparator]
  rfl

theorem Join.reference_eq_spelled (d : Dialect) (kind : JoinKind) (t : Table)
    {ps : List Predicate} (hne : ps ≠ []) : (Join.source d ⟨kind, t, ps⟩).reference =
      Fragment.text kind.keyword ++ Fragment.text " " ++ (t.source d).reference ++
        (Fragment.text " ON " ++
          Token.spelled (Atom.render d []) (Predicate.group false .and ps "").tokens) := by
  have hgroup := (Predicate.group false .and ps "").render_eq_spelled d []
  rw [Predicate.toCondition] at hgroup
  have hempty : ps.isEmpty = false := by simpa using hne
  rw [Join.source, hgroup, hempty]
  rfl

/-- A step that adds a predicate to a list, taken for one predicate after the other. -/
theorem foldl_adds {γ : Type} {step : γ → Predicate → γ} (list : γ → List Predicate)
    (hstep : ∀ q p, list (step q p) = list q ++ [p]) (q : γ) (ps : List Predicate) :
    list (ps.foldl step q) = list q ++ ps := by
  induction ps generalizing q with
  | nil => exact (List.append_nil _).symm
  | cons p ps ih => rw [List.foldl_cons, ih, hstep, List.append_assoc, List.singleton_append]

/-- The lists that WHERE, HAVING and the condition on a conflict's assignments are rendered from
hold the predicates in the order of the calls. -/
def KeepsPredicates (ps : List Predicate) : Prop :=
  (∀ q : Select, (ps.foldl (fun q p => q.apply (.condition p)) q).conditions = q.conditions ++ ps ∧
    (ps.foldl (fun q p => q.apply (.having p)) q).having = q.having ++ ps) ∧
  (∀ q : Update, (ps.foldl (fun q p => q.apply (.condition p)) q).conditions = q.conditions ++ ps) ∧
  (∀ q : Delete, (ps.foldl (fun q p => q.apply (.condition p)) q).conditions = q.conditions ++ ps) ∧
  ∀ q : Insert, (ps.foldl (fun q p => q.apply (.resolution p)) q).resolution = q.resolution ++ ps

theorem keepsPredicates (ps : List Predicate) : KeepsPredicates ps :=
  ⟨fun q => ⟨foldl_adds Select.conditions (fun _ _ => rfl) q ps,
      foldl_adds Select.having (fun _ _ => rfl) q ps⟩,
    fun q => foldl_adds Update.conditions (fun _ _ => rfl) q ps,
    fun q => foldl_adds Delete.conditions (fun _ _ => rfl) q ps,
    fun q => foldl_adds Insert.resolution (fun _ _ => rfl) q ps⟩

/-- Reading a rendered predicate by precedence gives the predicate's own value, if all of its groups
have members. Reading the conditions of a clause, added one after the other, or those of a join
gives their conjunction. -/
theorem boolean_structure_survives :
    (∀ p : Predicate, p.filled → ReadsAs p.tokens (p.value ·) ∧
      ∀ (d : Dialect) (excluded : List String),
        (p.toCondition d excluded).render = Token.spelled (Atom.render d excluded) p.tokens) ∧
    ∀ ps : List Predicate, ps ≠ [] → (∀ p ∈ ps, p.filled) → KeepsPredicates ps ∧
      (∃ ts : List (Token Atom), ReadsAs ts (fun v => ps.all (·.value v)) ∧
        ∀ (d : Dialect) (keyword : String),
          Condition.clause keyword (Predicate.toConditions d [] ps) =
            Fragment.text (" " ++ keyword ++ " ") ++ Token.spelled (Atom.render d []) ts) ∧
      ∃ ts : List (Token Atom), ReadsAs ts (fun v => ps.all (·.value v)) ∧
        ∀ (d : Dialect) (kind : JoinKind) (t : Table),
          (Join.source d ⟨kind, t, ps⟩).reference =
            Fragment.text kind.keyword ++ Fragment.text " " ++ (t.source d).reference ++
              (Fragment.text " ON " ++ Token.spelled (Atom.render d []) ts) := by
  refine ⟨fun p h => ⟨p.readsAs h, fun d excluded => p.render_eq_spelled d excluded⟩, ?_⟩
  intro ps hne h
  refine ⟨keepsPredicates ps, ⟨_, Predicate.joined_readsAs hne h, fun d keyword =>
    Condition.clause_eq_spelled d keyword hne⟩, _, ?_, fun d kind t =>
    Join.reference_eq_spelled d kind t hne⟩
  have hfilled : (Predicate.group false .and ps "").filled := by
    rw [Predicate.filled, Predicate.filledAll_of_forall h, Bool.and_true]
    simpa using hne
  obtain ⟨e, he, heval⟩ := Predicate.readsAs hfilled
  refine ⟨e, he, fun v => ?_⟩
  calc e.eval v = Predicate.value v (.group false .and ps "") := heval v
    _ = ps.all (·.value v) := by
          rw [Predicate.value, Predicate.applyAll_values, Bool.false_xor]

/-- The conditions `(NOT (a AND b) OR c) AND d`. -/
theorem negated_group_survives :
    let flag (name : String) : Predicate := .flag false (.column "" name) {}
    let p : Predicate := .any [(Predicate.all [flag "a", flag "b"]).negate, .all [flag "c"]]
    ReadsAs p.tokens (p.value ·) ∧
      ∃ ts : List (Token Atom), ReadsAs ts fun v => [p, flag "d"].all (·.value v) := by
  intro flag p
  have hp : p.filled := by rfl
  have hall : ∀ q ∈ [p, flag "d"], q.filled := by
    intro q hq
    rw [List.mem_cons, List.mem_singleton] at hq
    rcases hq with rfl | rfl
    · exact hp
    · rfl
  obtain ⟨-, ⟨ts, hts, -⟩, -⟩ := boolean_structure_survives.2 [p, flag "d"] (List.cons_ne_nil _ _)
    hall
  exact ⟨(boolean_structure_survives.1 p hp).1, ts, hts⟩

end BoundSql.Sql
