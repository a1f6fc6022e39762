import Mathlib.Data.List.Forall2
import SchemaSampler.Members

namespace SchemaSampler

/-!
# Laws of members — lists sorted by key are determined by their look-ups

* `sorted_insertMember` — an insertion keeps a list sorted.
* `forall₂_of_sorted`, `eq_of_sorted` — two sorted lists with related look-ups are related member by
  member, and those with the same look-ups are equal.
* `findMember?_insertAll` — look-up after many insertions: the last one under a key counts.
* `sortMembers_of_sorted` — sorting a sorted list changes nothing.
* `insertMember_comm`, `insertAll_perm` — insertions under different keys can change places, and
  those under new keys add their members to the others.
-/

/-- The keys ascend strictly. -/
def SortedMembers {α : Type} (members : List (String × α)) : Prop :=
  members.Pairwise fun a b => a.1 < b.1

/-- Inserts members in turn. -/
def insertAll {α : Type} (members sorted : List (String × α)) : List (String × α) :=
  members.foldl (fun out (key, v) => insertMember key v out) sorted

section

variable {α : Type} {members sorted sorted' : List (String × α)} {key : String}

theorem sortMembers_eq_insertAll (members : List (String × α)) :
    sortMembers members = insertAll members [] := rfl

@[simp] theorem insertAll_nil (sorted : List (String × α)) : insertAll [] sorted = sorted := rfl

@[simp] theorem insertAll_cons (m : String × α) (members sorted : List (String × α)) :
    insertAll (m :: members) sorted = insertAll members (insertMember m.1 m.2 sorted) := rfl

/-! ### Order -/

/-- An insertion brings in no other member. -/
theorem mem_insertMember {value : α} {m : String × α} (h : m ∈ insertMember key value sorted) :
    m = (key, value) ∨ m ∈ sorted := by
  induction sorted with
  | nil =>
    rw [insertMember, List.mem_singleton] at h
    exact .inl h
  | cons head rest ih =>
    obtain ⟨k, v⟩ := head
    unfold insertMember at h
    split at h
    · simpa using h
    · split at h
      · rcases List.mem_cons.mp h with h | h
        · exact .inl h
        · exact .inr (by simp [h])
      · rcases List.mem_cons.mp h with h | h
        · exact .inr (by simp [h])
        · rcases ih h with h | h
          · exact .inl h
          · exact .inr (by simp [h])

/-- An insertion keeps a list sorted. -/
theorem sorted_insertMember (h : SortedMembers sorted) (key : String) (value : α) :
    SortedMembers (insertMember key value sorted) := by
  induction sorted with
  | nil => exact List.pairwise_singleton _ _
  | cons head rest ih =>
    obtain ⟨k, v⟩ := head
    obtain ⟨first, others⟩ := List.pairwise_cons.mp h
    unfold insertMember
    split
    · rename_i below
      refine List.pairwise_cons.mpr ⟨fun m member => ?_, h⟩
      rcases List.mem_cons.mp member with rfl | member
      · exact below
      · exact String.lt_trans below (first m member)
    · split
      · rename_i same
        subst same
        exact List.pairwise_cons.mpr ⟨first, others⟩
      · rename_i not_below differs
        refine List.pairwise_cons.mpr ⟨fun m member => ?_, ih others⟩
        rcases mem_insertMember member with rfl | member
        · exact Std.lt_of_le_of_ne (String.not_lt.mp not_below) (Ne.symm differs)
        · exact first m member

/-- Insertions keep a list sorted. -/
theorem sorted_insertAll (h : SortedMembers sorted) (members : List (String × α)) :
    SortedMembers (insertAll members sorted) := by
  induction members generalizing sorted with
  | nil => exact h
  | cons m rest ih => exact ih (sorted_insertMember h m.1 m.2)

/-- Sorting makes a sorted list. -/
theorem sorted_sortMembers (members : List (String × α)) : SortedMembers (sortMembers members) :=
  sorted_insertAll .nil members

/-! ### Look-ups -/

/-- A key that no member has is not found. -/
theorem findMember?_eq_none (h : ∀ m ∈ members, m.1 ≠ key) : findMember? key members = none := by
  induction members with
  | nil => rfl
  | cons m rest ih =>
    rw [findMember?, if_neg (h m (by simp)), ih fun m' member => h m' (by simp [member])]

/-- The key in front is found. -/
@[simp] theorem findMember?_head (m : String × α) (rest : List (String × α)) :
    findMember? m.1 (m :: rest) = some m.2 := by
  rw [findMember?, if_pos rfl]

/-- A key below the one in front of a sorted list is not found. -/
theorem findMember?_below {m : String × α} {rest : List (String × α)}
    (h : SortedMembers (m :: rest)) (below : key < m.1) : findMember? key (m :: rest) = none := by
  refine findMember?_eq_none fun x member => (String.ne_of_lt ?_).symm
  rcases List.mem_cons.mp member with rfl | member
  · exact below
  · exact String.lt_trans below ((List.pairwise_cons.mp h).1 x member)

/-- What is found is a member. -/
theorem mem_of_findMember? {v : α} (h : findMember? key members = some v) : (key, v) ∈ members := by
  induction members with
  | nil => cases h
  | cons m rest ih =>
    rw [findMember?] at h
    split at h
    · rename_i same
      cases h
      exact List.mem_cons.mpr (.inl (by rw [← same]))
    · exact List.mem_cons.mpr (.inr (ih h))

/-- Each member of a sorted list is found. -/
theorem findMember?_of_mem {m : String × α} (h : SortedMembers members) (member : m ∈ members) :
    findMember? m.1 members = some m.2 := by
  induction members with
  | nil => cases member
  | cons first rest ih =>
    obtain ⟨before, others⟩ := List.pairwise_cons.mp h
    rcases List.mem_cons.mp member with rfl | member
    · exact findMember?_head _ _
    · rw [findMember?, if_neg (String.ne_of_lt (before m member))]
      exact ih others member

/-- Two sorted lists in which related values are found under every key are related member by
    member. -/
theorem forall₂_of_sorted {β : Type} {R : α → β → Prop} {sorted' : List (String × β)}
    (h : SortedMembers sorted) (h' : SortedMembers sorted')
    (agree : ∀ key, Option.Rel R (findMember? key sorted) (findMember? key sorted')) :
    List.Forall₂ (fun m m' => m.1 = m'.1 ∧ R m.2 m'.2) sorted sorted' := by
  induction sorted generalizing sorted' with
  | nil =>
    cases sorted' with
    | nil => exact .nil
    | cons m rest =>
      have found := agree m.1
      rw [findMember?_head] at found
      cases found
  | cons m rest ih =>
    obtain ⟨first, others⟩ := List.pairwise_cons.mp h
    cases sorted' with
    | nil =>
      have found := agree m.1
      rw [findMember?_head] at found
      cases found
    | cons m' rest' =>
      obtain ⟨first', others'⟩ := List.pairwise_cons.mp h'
      -- The smaller of the two first keys would be found in one list only.
      have same : m.1 = m'.1 := by
        apply String.le_antisymm
        · rw [← String.not_lt]
          intro below
          have found := agree m'.1
          rw [findMember?_head, findMember?_below h below] at found
          cases found
        · rw [← String.not_lt]
          intro below
          have found := agree m.1
          rw [findMember?_head, findMember?_below h' below] at found
          cases found
      have value : R m.2 m'.2 := by
        have found := agree m.1
        rw [findMember?_head, same, findMember?_head] at found
        cases found with
        | some related => exact related
      refine .cons ⟨same, value⟩ (ih others others' fun key => ?_)
      by_cases hkey : m.1 = key
      · rw [findMember?_eq_none fun x member =>
            hkey ▸ (String.ne_of_lt (first x member)).symm,
          findMember?_eq_none fun x member =>
            hkey ▸ same ▸ (String.ne_of_lt (first' x member)).symm]
        exact .none
      · have found := agree key
        rwa [findMember?, if_neg hkey, findMember?, if_neg (same ▸ hkey)] at found

/-- Two sorted lists in which the same is found under every key are equal. -/
theorem eq_of_sorted (h : SortedMembers sorted) (h' : SortedMembers sorted')
    (agree : ∀ key, findMember? key sorted = findMember? key sorted') : sorted = sorted' := by
  have each := forall₂_of_sorted (R := Eq) h h' fun key => by
    rw [agree key]
    cases findMember? key sorted' with
    | none => exact .none
    | some v => exact .some rfl
  clear h h' agree
  induction each with
  | nil => rfl
  | cons head _ ih => rw [ih, Prod.ext head.1 head.2]

/-- Look-up after an insertion. -/
theorem findMember?_insertMember (key other : String) (value : α) (sorted : List (String × α)) :
    findMember? other (insertMember key value sorted) =
      if other = key then some value else findMember? other sorted := by
  by_cases h : other = key
  · rw [if_pos h, h, findMember?_insertMember_self]
  · rw [if_neg h, findMember?_insertMember_of_ne h]

/-- Look-up in a list that is put together. -/
theorem findMember?_append (key : String) (front back : List (String × α)) :
    findMember? key (front ++ back) = (findMember? key front).or (findMember? key back) := by
  induction front with
  | nil => rfl
  | cons m rest ih =>
    rw [List.cons_append, findMember?, findMember?]
    split
    · rfl
    · exact ih

/-- After many insertions the last one under a key counts. -/
theorem findMember?_insertAll (key : String) (members sorted : List (String × α)) :
    findMember? key (insertAll members sorted) =
      (findMember? key members.reverse).or (findMember? key sorted) := by
  induction members generalizing sorted with
  | nil => rfl
  | cons m rest ih =>
    rw [insertAll_cons, ih, findMember?_insertMember, List.reverse_cons, findMember?_append]
    cases findMember? key rest.reverse with
    | some v => rfl
    | none =>
      rw [Option.none_or, Option.none_or, findMember?, findMember?]
      by_cases h : key = m.1
      · rw [if_pos h, if_pos h.symm]
        rfl
      · rw [if_neg h, if_neg (Ne.symm h)]
        rfl

/-- In a list without repeated keys the order does not matter for a look-up. -/
theorem findMember?_reverse (h : members.Pairwise fun a b => a.1 ≠ b.1) (key : String) :
    findMember? key members.reverse = findMember? key members := by
  induction members with
  | nil => rfl
  | cons m rest ih =>
    obtain ⟨first, others⟩ := List.pairwise_cons.mp h
    rw [List.reverse_cons, findMember?_append, ih others, findMember?, findMember?, findMember?]
    split
    · rename_i same
      rw [findMember?_eq_none fun x member => same ▸ (first x member).symm]
      rfl
    · exact Option.or_none

theorem SortedMembers.distinct (h : SortedMembers members) :
    members.Pairwise fun a b => a.1 ≠ b.1 :=
  h.imp String.ne_of_lt

/-- Each member of a sorted list of insertions is one of those inserted. -/
theorem mem_insertAll {m : String × α} (h : m ∈ insertAll members sorted) :
    m ∈ members ∨ m ∈ sorted := by
  induction members generalizing sorted with
  | nil => exact .inr h
  | cons head rest ih =>
    rcases ih h with member | member
    · exact .inl (by simp [member])
    · rcases mem_insertMember member with rfl | member
      · exact .inl (by simp)
      · exact .inr member

/-! ### Orders of insertion -/

/-- Insertions under different keys can change places. -/
theorem insertMember_comm {other : String} (differ : key ≠ other) (value value' : α)
    (members : List (String × α)) :
    insertMember key value (insertMember other value' members) =
      insertMember other value' (insertMember key value members) := by
  -- The list need not be sorted: each of the two goes past the other or stays in front of it.
  induction members with
  | nil => grind [insertMember]
  | cons m rest ih => grind [insertMember]

/-- A member under a new key is added to the others. -/
theorem insertMember_perm (new : findMember? key members = none) (value : α) :
    (insertMember key value members).Perm ((key, value) :: members) := by
  induction members with
  | nil => exact .refl _
  | cons m rest ih =>
    rw [findMember?] at new
    split at new
    · cases new
    · rename_i differs
      unfold insertMember
      split
      · exact .refl _
      · rw [if_neg (Ne.symm differs)]
        exact ((ih new).cons m).trans (.swap _ _ _)

/-- Members under new keys are added to the others. -/
theorem insertAll_perm (away : ∀ m ∈ members, findMember? m.1 sorted = none)
    (distinct : members.Pairwise fun m m' => m.1 ≠ m'.1) :
    (insertAll members sorted).Perm (sorted ++ members) := by
  induction members generalizing sorted with
  | nil => rw [insertAll_nil, List.append_nil]
  | cons m rest ih =>
    rw [List.pairwise_cons] at distinct
    have others : ∀ m' ∈ rest, findMember? m'.1 (insertMember m.1 m.2 sorted) = none := by
      intro m' member
      rw [findMember?_insertMember_of_ne (distinct.1 m' member).symm]
      exact away m' (List.mem_cons_of_mem m member)
    have first := insertMember_perm (away m List.mem_cons_self) m.2
    rw [insertAll_cons]
    refine (ih others distinct.2).trans ((first.append_right rest).trans ?_)
    exact List.perm_middle.symm

end

end SchemaSampler
