import BoundSql.Proofs.Emission

/-!
# The structure of set operations

A select with its members is a tree whose leaves are selects up to HAVING. Its rendering is a list
of tokens over such selects, and a grammar with parentheses around members reads the tree back from
them. What follows a part never starts with a token that the part could still take, which is why
there is no other reading.
-/
namespace BoundSql.Sql

/-- What belongs to the combined result of a select and its members. -/
structure Tail where
  orderBy : List Field := []
  limit : Option Int64 := none
  offset : Option Int64 := none

inductive SetToken (α : Type) where
  | core (a : α)
  | operator (o : SetOperator)
  | lparen
  | rparen
  | orderBy (fs : List Field)
  | limit (n : Int64)
  | offset (n : Int64)

inductive SetTree (α : Type) where
  | node (core : α) (members : List (SetOperator × SetTree α)) (tail : Tail)

variable {α β : Type}

namespace Tail

def isEmpty (t : Tail) : Bool := t.orderBy.isEmpty && t.limit.isNone && t.offset.isNone

/-- The list of ORDER BY, if there is any. -/
def order? (t : Tail) : Option (List Field) := if t.orderBy.isEmpty then none else some t.orderBy

def tokens (t : Tail) : List (SetToken α) :=
  (t.order?.map .orderBy).toList ++ ((t.limit.map .limit).toList ++ (t.offset.map .offset).toList)

theorem orderBy_eq (t : Tail) : t.orderBy = t.order?.getD [] := by
  unfold order?
  split
  case isTrue h => exact List.isEmpty_iff.mp h
  case isFalse => rfl

theorem eq_of_parts {t t' : Tail} (horder : t.order? = t'.order?) (hlimit : t.limit = t'.limit)
    (hoffset : t.offset = t'.offset) : t = t' := by
  have hlist : t.orderBy = t'.orderBy := by rw [orderBy_eq, orderBy_eq, horder]
  cases t
  cases t'
  simp only [mk.injEq]
  exact ⟨hlist, hlimit, hoffset⟩

theorem eq_empty_of_isEmpty {t : Tail} (h : t.isEmpty) : t = {} := by
  obtain ⟨orderBy, limit, offset⟩ := t
  simpa [isEmpty, and_assoc] using h

end Tail

namespace SetTree

def isPlain : SetTree α → Bool
  | .node _ members tail => tail.isEmpty && members.isEmpty

mutual

/-- A member stands in parentheses if it has a tail or members of its own. -/
def tokens : SetTree α → List (SetToken α)
  | .node core members tail => .core core :: (tokensAll members ++ tail.tokens)

def tokensAll : List (SetOperator × SetTree α) → List (SetToken α)
  | [] => []
  | (o, t) :: rest =>
      .operator o :: ((if t.isPlain then t.tokens else .lparen :: (t.tokens ++ [.rparen]))
        ++ tokensAll rest)

end

end SetTree

mutual

/-- A core, its members behind their operators, and a tail. -/
inductive IsCompound : List (SetToken α) → SetTree α → Prop where
  | mk (c : α) {ts : List (SetToken α)} {ms : List (SetOperator × SetTree α)}
      (h : AreMembers ts ms) (tail : Tail) :
      IsCompound (.core c :: (ts ++ tail.tokens)) (.node c ms tail)

/-- A core alone, or a compound in parentheses. -/
inductive IsMember : List (SetToken α) → SetTree α → Prop where
  | core (c : α) : IsMember [.core c] (.node c [] {})
  | compound {ts : List (SetToken α)} {t : SetTree α} (h : IsCompound ts t) :
      IsMember (.lparen :: (ts ++ [.rparen])) t

inductive AreMembers : List (SetToken α) → List (SetOperator × SetTree α) → Prop where
  | nil : AreMembers [] []
  | cons (o : SetOperator) {ts ts' : List (SetToken α)} {t : SetTree α}
      {ms : List (SetOperator × SetTree α)} (h : IsMember ts t) (h' : AreMembers ts' ms) :
      AreMembers (.operator o :: (ts ++ ts')) ((o, t) :: ms)

end

theorem IsMember.of_isPlain {t : SetTree α} (h : t.isPlain) : IsMember t.tokens t := by
  obtain ⟨core, members, tail⟩ := t
  rw [SetTree.isPlain, Bool.and_eq_true] at h
  obtain rfl := tail.eq_empty_of_isEmpty h.1
  obtain rfl := List.isEmpty_iff.mp h.2
  rw [SetTree.tokens, SetTree.tokensAll]
  exact .core core

mutual

/-- The grammar reads a tree from its tokens. -/
theorem SetTree.isCompound_tokens : ∀ t : SetTree α, IsCompound t.tokens t
  | .node core members tail => by
      rw [SetTree.tokens]
      exact .mk core (SetTree.areMembers_tokensAll members) tail

theorem SetTree.areMembers_tokensAll : ∀ ms : List (SetOperator × SetTree α),
    AreMembers (SetTree.tokensAll ms) ms
  | [] => by
      rw [SetTree.tokensAll]
      exact .nil
  | (o, t) :: rest => by
      have ht := SetTree.isCompound_tokens t
      rw [SetTree.tokensAll]
      refine .cons o ?_ (SetTree.areMembers_tokensAll rest)
      split
      case isTrue hplain => exact .of_isPlain hplain
      case isFalse => exact .compound ht

end

/-- The parts of a compound come with increasing rank. -/
@[simp] def SetToken.rank : SetToken α → Nat
  | .core _ => 0
  | .lparen => 0
  | .operator _ => 1
  | .orderBy _ => 2
  | .limit _ => 3
  | .offset _ => 4
  | .rparen => 5

/-- What comes next has a rank above `k`, if anything does. -/
def Above (k : Nat) (ts : List (SetToken α)) : Prop := ∀ t ∈ ts.head?, k < t.rank

section Optional

variable {k : Nat} {f : β → SetToken α} {o o' : Option β} {r r' : List (SetToken α)}

theorem Above.of_le {l : Nat} (h : Above k r) (hl : l ≤ k) : Above l r :=
  fun t ht => Nat.lt_of_le_of_lt hl (h t ht)

theorem Above.optional (hf : ∀ b, k < (f b).rank) (h : Above k r) :
    Above k ((o.map f).toList ++ r) := by
  cases o with
  | none => exact h
  | some b =>
      intro t ht
      obtain rfl : f b = t := Option.some.inj ht
      exact hf b

/-- Whether an optional token is there can be seen from its rank. -/
theorem optional_unique (hf : f.Injective) (hrank : ∀ b, (f b).rank = k) (hr : Above k r)
    (hr' : Above k r') (h : (o.map f).toList ++ r = (o'.map f).toList ++ r') :
    o = o' ∧ r = r' := by
  have hne {b : β} {r s : List (SetToken α)} (hr : Above k r) : r ≠ f b :: s := by
    rintro rfl
    exact absurd (hr (f b) rfl) (hrank b ▸ Nat.lt_irrefl k)
  cases o with
  | none =>
      cases o' with
      | none => exact ⟨rfl, h⟩
      | some b' => exact absurd h (hne hr)
  | some b =>
      cases o' with
      | none => exact absurd h.symm (hne hr')
      | some b' =>
          obtain ⟨hb, hrest⟩ := List.cons.inj h
          exact ⟨congrArg some (hf hb), hrest⟩

end Optional

theorem Tail.above_tokens (t : Tail) {r : List (SetToken α)} (hr : Above 1 r) :
    Above 1 (t.tokens ++ r) := by
  rw [Tail.tokens, List.append_assoc, List.append_assoc]
  exact .optional (by simp) (.optional (by simp) (.optional (by simp) hr))

theorem Tail.unique {t t' : Tail} {r r' : List (SetToken α)} (hr : Above 4 r) (hr' : Above 4 r')
    (h : t.tokens ++ r = t'.tokens ++ r') : t = t' ∧ r = r' := by
  simp only [Tail.tokens, List.append_assoc] at h
  -- What follows LIMIT ranks above it, and what follows ORDER BY above that.
  have habove2 (t : Tail) {r : List (SetToken α)} (hr : Above 4 r) :
      Above 2 ((t.limit.map .limit).toList ++ ((t.offset.map .offset).toList ++ r)) :=
    .optional (by simp) (.optional (by simp) (hr.of_le (by decide)))
  have habove3 (t : Tail) {r : List (SetToken α)} (hr : Above 4 r) :
      Above 3 ((t.offset.map .offset).toList ++ r) :=
    .optional (by simp) (hr.of_le (by decide))
  obtain ⟨horder, h⟩ := optional_unique (fun _ _ => SetToken.orderBy.inj) (fun _ => rfl)
    (habove2 t hr) (habove2 t' hr') h
  obtain ⟨hlimit, h⟩ := optional_unique (fun _ _ => SetToken.limit.inj) (fun _ => rfl)
    (habove3 t hr) (habove3 t' hr') h
  obtain ⟨hoffset, h⟩ := optional_unique (fun _ _ => SetToken.offset.inj) (fun _ => rfl) hr hr' h
  exact ⟨Tail.eq_of_parts horder hlimit hoffset, h⟩

mutual

/-- A compound ends where nothing follows that could belong to it. -/
theorem IsCompound.unique {t t' : SetTree α} {r r' : List (SetToken α)} :
    ∀ {ts ts' : List (SetToken α)}, IsCompound ts t → IsCompound ts' t' → Above 4 r → Above 4 r' →
      ts ++ r = ts' ++ r' → t = t' ∧ r = r'
  | _, _, .mk c hms tail, .mk c' hms' tail', hr, hr', h => by
      simp only [List.cons_append, List.append_assoc] at h
      obtain ⟨hc, h⟩ := List.cons.inj h
      obtain ⟨rfl, h⟩ := hms.unique hms' (tail.above_tokens (hr.of_le (by decide)))
        (tail'.above_tokens (hr'.of_le (by decide))) h
      obtain ⟨htail, hrest⟩ := Tail.unique hr hr' h
      exact ⟨by rw [SetToken.core.inj hc, htail], hrest⟩

/-- A member shows itself where it ends. -/
theorem IsMember.unique {t t' : SetTree α} {r r' : List (SetToken α)} :
    ∀ {ts ts' : List (SetToken α)}, IsMember ts t → IsMember ts' t' →
      ts ++ r = ts' ++ r' → t = t' ∧ r = r'
  | _, _, .core c, .core c', h => by
      obtain ⟨hc, h⟩ := List.cons.inj h
      exact ⟨by rw [SetToken.core.inj hc], h⟩
  | _, _, .core c, .compound ht', h => by
      exact absurd (List.cons.inj h).1 (by simp)
  | _, _, .compound ht, .core c', h => by
      exact absurd (List.cons.inj h).1 (by simp)
  | _, _, .compound ht, .compound ht', h => by
      simp only [List.cons_append, List.append_assoc] at h
      -- The closing parenthesis ends the compound, whatever comes behind it.
      have hrparen (r : List (SetToken α)) : Above 4 ([.rparen] ++ r) := by
        intro t ht
        obtain rfl : .rparen = t := Option.some.inj ht
        simp
      obtain ⟨rfl, h⟩ := ht.unique ht' (hrparen r) (hrparen r') (List.cons.inj h).2
      exact ⟨rfl, List.append_cancel_left h⟩

theorem AreMembers.unique {ms ms' : List (SetOperator × SetTree α)} {r r' : List (SetToken α)} :
    ∀ {ts ts' : List (SetToken α)}, AreMembers ts ms → AreMembers ts' ms' → Above 1 r →
      Above 1 r' → ts ++ r = ts' ++ r' → ms = ms' ∧ r = r'
  | _, _, .nil, .nil, _, _, h => ⟨rfl, h⟩
  | _, _, .nil, .cons o' _ _, hr, _, h => by
      obtain rfl : r = _ := h
      exact absurd (hr (.operator o') rfl) (by simp)
  | _, _, .cons o _ _, .nil, _, hr', h => by
      obtain rfl : _ = r' := h
      exact absurd (hr' (.operator o) rfl) (by simp)
  | _, _, .cons o ht hms, .cons o' ht' hms', hr, hr', h => by
      simp only [List.cons_append, List.append_assoc] at h
      obtain ⟨ho, h⟩ := List.cons.inj h
      obtain ⟨rfl, h⟩ := ht.unique ht' h
      obtain ⟨rfl, h⟩ := hms.unique hms' hr hr' h
      exact ⟨by rw [SetToken.operator.inj ho], h⟩

end

/-- The grammar reads nothing but the tree from its tokens. -/
theorem SetTree.isCompound_tokens_iff {t t' : SetTree α} : IsCompound t.tokens t' ↔ t' = t := by
  constructor
  · intro h
    have hnothing : Above (α := α) 4 [] := fun t ht => absurd ht (by simp)
    exact (h.unique t.isCompound_tokens hnothing hnothing rfl).1
  · rintro rfl
    exact t'.isCompound_tokens

/-- A select up to HAVING. -/
def Select.core (s : Select) : Select :=
  { s with ctes := [], orderBy := [], limit := none, offset := none, members := [] }

def Select.tail (s : Select) : Tail := ⟨s.orderBy, s.limit, s.offset⟩

mutual

/-- A select and its members, each with its own tail. -/
def Select.tree : Select → SetTree Select
  | s@{ members, .. } => .node s.core (Member.trees members) s.tail

def Member.trees : List Member → List (SetOperator × SetTree Select)
  | [] => []
  | ⟨operator, query⟩ :: rest => (operator, query.tree) :: Member.trees rest

end

/-- The fragment of a token. -/
def SetToken.spell (d : Dialect) : SetToken Select → Fragment
  | .core s => (s.compound d).core
  | .operator o => Fragment.text (" " ++ o.keyword ++ " ")
  | .lparen => Fragment.text "("
  | .rparen => Fragment.text ")"
  | .orderBy fs => Fragment.text " ORDER BY " ++ Fragment.separated ", " (Field.renderAll d [] fs)
  | .limit n => Fragment.text " LIMIT " ++ Fragment.bound (.int n)
  | .offset n => Fragment.text " OFFSET " ++ Fragment.bound (.int n)

def SetToken.spelled (d : Dialect) (ts : List (SetToken Select)) : Fragment :=
  ts.flatMap (SetToken.spell d)

@[simp] theorem SetToken.spelled_append (d : Dialect) (ts ts' : List (SetToken Select)) :
    spelled d (ts ++ ts') = spelled d ts ++ spelled d ts' :=
  List.flatMap_append

@[simp] theorem SetToken.spelled_cons (d : Dialect) (t : SetToken Select)
    (ts : List (SetToken Select)) : spelled d (t :: ts) = t.spell d ++ spelled d ts :=
  List.flatMap_cons

namespace Select

theorem tree_eq (s : Select) : s.tree = .node s.core (Member.trees s.members) s.tail := by
  cases s
  rw [tree]

theorem core_compound (d : Dialect) (s : Select) :
    (s.core.compound d).core = (s.compound d).core := by
  cases s
  rw [core, compound, compound]
  rfl

theorem tail_compound (d : Dialect) (s : Select) :
    (s.compound d).tail = SetToken.spelled d s.tail.tokens := by
  have horder : listClause " ORDER BY " (Field.renderAll d [] s.orderBy) =
      SetToken.spelled d (s.tail.order?.map .orderBy).toList := by
    unfold listClause Tail.order?
    rw [Field.renderAll_isEmpty]
    change _ = SetToken.spelled d
      (Option.map _ (if s.orderBy.isEmpty then none else some s.orderBy)).toList
    split
    · rfl
    · exact (List.append_nil _).symm
  have hlimit : numberClause " LIMIT " s.limit =
      SetToken.spelled d (s.limit.map .limit).toList := by
    cases s.limit <;> rfl
  have hoffset : numberClause " OFFSET " s.offset =
      SetToken.spelled d (s.offset.map .offset).toList := by
    cases s.offset <;> rfl
  rw [Tail.tokens, SetToken.spelled_append, SetToken.spelled_append, ← horder]
  cases s
  rw [compound, tail, ← hlimit, ← hoffset, ← List.append_assoc]
  rfl

theorem isPlain_tree (d : Dialect) (s : Select) : s.tree.isPlain = (s.compound d).isPlain := by
  have hmembers (ms : List Member) : (Member.trees ms).isEmpty = ms.isEmpty := by
    obtain _ | ⟨⟨_, _⟩, _⟩ := ms <;> rw [Member.trees] <;> rfl
  cases s
  rw [tree, compound]
  simp only [SetTree.isPlain, Compound.isPlain, hmembers, Member.compounds_isEmpty, tail,
    Tail.isEmpty, append_isEmpty, listClause_isEmpty, numberClause_isEmpty,
    Field.renderAll_isEmpty]

end Select

mutual

/-- Without WITH, a select is the spelling of its tree. -/
theorem Select.spelled_tree (d : Dialect) :
    ∀ s : Select, SetToken.spelled d s.tree.tokens = (s.compound d).body
  | s@{ members, .. } => by
      rw [Compound.body_eq, Select.members_compound, ← Select.core_compound, Select.tail_compound,
        ← Member.spelled_trees d members, Select.tree_eq, SetTree.tokens, SetToken.spelled_cons,
        SetToken.spelled_append, SetToken.spell, List.append_assoc]

theorem Member.spelled_trees (d : Dialect) : ∀ ms : List Member,
    SetToken.spelled d (SetTree.tokensAll (Member.trees ms)) =
      Compound.bodyAll (Member.compounds d ms)
  | [] => by
      rw [Member.trees, SetTree.tokensAll, Member.compounds, Compound.bodyAll]
      rfl
  | ⟨operator, query⟩ :: rest => by
      rw [Member.trees, SetTree.tokensAll, Member.compounds, Compound.bodyAll,
        Select.isPlain_tree d query, SetToken.spelled_cons, SetToken.spelled_append,
        Member.spelled_trees d rest, List.append_assoc]
      congr 2
      split
      · exact Select.spelled_tree d query
      · rw [SetToken.spelled_cons, SetToken.spelled_append, Select.spelled_tree d query,
          Fragment.parenthesized, List.append_assoc]
        rfl

end

/-- Behind WITH, a select is written as the tokens of its tree, and the grammar reads the tree back
from them and no other: the members with their operators, and each tail at its own query. -/
theorem set_structure_survives (s : Select) :
    (∀ d : Dialect, Emits d (Query.select s).emit
      (Definition.clause (s.compound d).definitions ++ SetToken.spelled d s.tree.tokens)) ∧
    ∀ t : SetTree Select, IsCompound s.tree.tokens t ↔ t = s.tree := by
  refine ⟨fun d => ?_, fun t => SetTree.isCompound_tokens_iff⟩
  rw [Select.spelled_tree, Query.emit]
  exact (Select.writes d s).emit

end BoundSql.Sql
