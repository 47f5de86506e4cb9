/-!
# First of a name

Adding to a list keeps at most one element of each name, the one that came first.
-/
namespace BoundSql.Sql

variable {α : Type}

/-- An element whose name is taken is dropped. -/
def addNew (name : α → String) (xs : List α) (x : α) : List α :=
  if xs.any (fun y => name y = name x) then xs else xs ++ [x]

/-- Elements are added one after the other, so the first of a name wins among the new ones too. -/
def addAllNew (name : α → String) (xs ys : List α) : List α := ys.foldl (addNew name) xs

section Lemmas

variable {name : α → String} {xs ys : List α}

/-- An element of a name that is there changes nothing, any other goes to the end. -/
theorem addNew_cases (name : α → String) (xs : List α) (x : α) :
    (∃ y ∈ xs, name y = name x) ∧ addNew name xs x = xs ∨
      (∀ y ∈ xs, name y ≠ name x) ∧ addNew name xs x = xs ++ [x] := by
  unfold addNew
  split
  case isTrue h => exact .inl ⟨by simpa using h, rfl⟩
  case isFalse h => exact .inr ⟨by simpa using h, rfl⟩

theorem addAllNew_append (xs ys zs : List α) :
    addAllNew name xs (ys ++ zs) = addAllNew name (addAllNew name xs ys) zs :=
  List.foldl_append

/-- What was there stays in front. -/
theorem prefix_addAllNew (xs ys : List α) : xs <+: addAllNew name xs ys := by
  induction ys generalizing xs with
  | nil => exact List.prefix_rfl
  | cons y ys ih =>
      refine List.IsPrefix.trans ?_ (ih (addNew name xs y))
      unfold addNew
      split
      · exact List.prefix_rfl
      · exact List.prefix_append xs [y]

/-- The order is kept. -/
theorem addAllNew_sublist (xs ys : List α) : (addAllNew name xs ys).Sublist (xs ++ ys) := by
  induction ys generalizing xs with
  | nil => exact (List.append_nil xs).symm ▸ List.Sublist.refl xs
  | cons y ys ih =>
      refine (ih (addNew name xs y)).trans ?_
      rw [List.append_cons xs y ys]
      refine List.Sublist.append ?_ (List.Sublist.refl ys)
      unfold addNew
      split
      · exact List.sublist_append_left xs [y]
      · exact List.Sublist.refl (xs ++ [y])

/-- Adding never brings a name in twice. -/
theorem nodup_addAllNew (h : (xs.map name).Nodup) (ys : List α) :
    ((addAllNew name xs ys).map name).Nodup := by
  induction ys generalizing xs with
  | nil => exact h
  | cons y ys ih =>
      refine ih ?_
      obtain ⟨-, hy⟩ | ⟨hnew, hy⟩ := addNew_cases name xs y
      · rwa [hy]
      · rw [hy, List.map_append, List.nodup_append]
        refine ⟨h, by simp, fun n hn m hm hnm => ?_⟩
        obtain ⟨z, hz, rfl⟩ := List.mem_map.mp hn
        exact hnew z hz (hnm.trans (List.mem_singleton.mp hm))

/-- Of each name the first is kept. -/
theorem find?_addAllNew (xs ys : List α) (n : String) :
    (addAllNew name xs ys).find? (name · = n) = (xs ++ ys).find? (name · = n) := by
  induction ys generalizing xs with
  | nil => rw [List.append_nil]; rfl
  | cons y ys ih =>
      refine (ih (addNew name xs y)).trans ?_
      rw [List.append_cons xs y ys, List.find?_append, @List.find?_append α _ (xs ++ [y])]
      congr 1
      obtain ⟨⟨z, hz, hzy⟩, h⟩ | ⟨-, h⟩ := addNew_cases name xs y
      · rw [h, List.find?_append]
        cases hfound : xs.find? (name · = n) with
        | some z => rfl
        | none =>
            -- `y` is not the first of its name, so its name is not `n`.
            have hzn := List.find?_eq_none.mp hfound z hz
            simp only [decide_eq_true_eq] at hzn
            simp [← hzy, hzn]
      · rw [h]

/-- Exactly the names that were offered are there. -/
theorem mem_map_addAllNew {n : String} :
    n ∈ (addAllNew name xs ys).map name ↔ n ∈ (xs ++ ys).map name := by
  have hfind (zs : List α) : n ∈ zs.map name ↔ (zs.find? (name · = n)).isSome := by simp
  rw [hfind, hfind, find?_addAllNew]

/-- Elements of different names are all kept. -/
theorem addAllNew_of_nodup (h : ((xs ++ ys).map name).Nodup) :
    addAllNew name xs ys = xs ++ ys := by
  induction ys generalizing xs with
  | nil => exact (List.append_nil xs).symm
  | cons y ys ih =>
      have hadd : addNew name xs y = xs ++ [y] := by
        obtain ⟨⟨z, hz, hzy⟩, -⟩ | ⟨-, hy⟩ := addNew_cases name xs y
        · rw [List.map_append, List.nodup_append] at h
          exact absurd hzy (h.2.2 _ (List.mem_map_of_mem hz) _ (by simp))
        · exact hy
      rw [List.append_cons] at h ⊢
      rw [← ih h, ← hadd]
      rfl

/-- What is offered a second time changes nothing. -/
theorem addAllNew_of_mem (h : ∀ y ∈ ys, name y ∈ xs.map name) : addAllNew name xs ys = xs := by
  induction ys with
  | nil => rfl
  | cons y ys ih =>
      have hadd : addNew name xs y = xs := by
        obtain ⟨-, hy⟩ | ⟨hnew, -⟩ := addNew_cases name xs y
        · exact hy
        · obtain ⟨z, hz, hzy⟩ := List.mem_map.mp (h y List.mem_cons_self)
          exact absurd hzy (hnew z hz)
      calc addAllNew name xs (y :: ys)
          = addAllNew name (addNew name xs y) ys := rfl
        _ = addAllNew name xs ys := by rw [hadd]
        _ = xs := ih fun z hz => h z (List.mem_cons_of_mem y hz)

/-- Adding what was added to a list adds what was there, and then the rest. -/
theorem addAllNew_addAllNew (xs ys zs : List α) :
    addAllNew name xs (addAllNew name ys zs) = addAllNew name (addAllNew name xs ys) zs := by
  induction zs generalizing ys with
  | nil => rfl
  | cons z zs ih =>
      refine (ih (addNew name ys z)).trans (congrArg (addAllNew name · zs) ?_)
      obtain ⟨⟨y, hy, hyz⟩, hadd⟩ | ⟨-, hadd⟩ := addNew_cases name ys z
      · have hmem : name z ∈ (addAllNew name xs ys).map name :=
          mem_map_addAllNew.mpr (List.mem_map.mpr ⟨y, List.mem_append_right xs hy, hyz⟩)
        have hkeep : addAllNew name (addAllNew name xs ys) [z] = addAllNew name xs ys :=
          addAllNew_of_mem (by simpa using hmem)
        rw [hadd]
        exact hkeep.symm
      · rw [hadd]
        exact addAllNew_append xs ys [z]

/-- Some of the names are added as they are without the others. -/
theorem filter_addAllNew (p : String → Bool) (xs ys : List α) :
    (addAllNew name xs ys).filter (fun x => p (name x)) =
      addAllNew name (xs.filter fun x => p (name x)) (ys.filter fun x => p (name x)) := by
  induction ys generalizing xs with
  | nil => rfl
  | cons y ys ih =>
      refine (ih (addNew name xs y)).trans ?_
      obtain ⟨⟨z, hz, hzy⟩, hadd⟩ | ⟨hnew, hadd⟩ := addNew_cases name xs y
      · rw [hadd, List.filter_cons]
        split
        case isFalse => rfl
        case isTrue hp =>
          have hmem : name y ∈ (xs.filter fun x => p (name x)).map name :=
            List.mem_map.mpr ⟨z, List.mem_filter.mpr ⟨hz, by rwa [hzy]⟩, hzy⟩
          have hy : addAllNew name (xs.filter fun x => p (name x)) [y] =
              xs.filter fun x => p (name x) := addAllNew_of_mem (by simpa using hmem)
          exact congrArg (addAllNew name · _) hy.symm
      · rw [hadd, List.filter_append, List.filter_cons, List.filter_cons, List.filter_nil]
        split
        case isFalse => rw [List.append_nil]
        case isTrue =>
          have hy : addNew name (xs.filter fun x => p (name x)) y =
              (xs.filter fun x => p (name x)) ++ [y] := by
            obtain ⟨⟨z, hz, hzy⟩, -⟩ | ⟨-, hy⟩ :=
              addNew_cases name (xs.filter fun x => p (name x)) y
            · exact absurd hzy (hnew z (List.mem_filter.mp hz).1)
            · exact hy
          exact congrArg (addAllNew name · _) hy.symm

/-- A map that keeps names commutes with adding. -/
theorem map_addAllNew {β : Type} {name' : β → String} {f : α → β}
    (hname : ∀ x, name' (f x) = name x) (xs ys : List α) :
    (addAllNew name xs ys).map f = addAllNew name' (xs.map f) (ys.map f) := by
  induction ys generalizing xs with
  | nil => rfl
  | cons y ys ih =>
      refine (ih (addNew name xs y)).trans (congrArg (addAllNew name' · (ys.map f)) ?_)
      unfold addNew
      simp only [List.any_map, Function.comp_def, hname]
      split <;> simp

end Lemmas

end BoundSql.Sql
