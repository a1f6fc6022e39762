namespace SchemaSampler

/-!
# Members — lists sorted by key

The members of an object are a list of pairs with strictly ascending keys, which are compared by
code point.  `insertMember` keeps such a list in order and `findMember?` looks a key up.
-/

/-- Puts a member under a key of a list sorted by key, in the place of an earlier one. -/
def insertMember {α : Type} (key : String) (value : α) : List (String × α) → List (String × α)
  | [] => [(key, value)]
  | (k, v) :: rest =>
    if key < k then (key, value) :: (k, v) :: rest
    else if key = k then (key, value) :: rest
    else (k, v) :: insertMember key value rest

/-- The list sorted by key that holds the last member given for each key. -/
def sortMembers {α : Type} (members : List (String × α)) : List (String × α) :=
  members.foldl (fun sorted (k, v) => insertMember k v sorted) []

/-- The member under a key. -/
def findMember? {α : Type} (key : String) : List (String × α) → Option α
  | [] => none
  | (k, v) :: rest => if k = key then some v else findMember? key rest

/-! ### Look-up after an insertion -/

/-- The key just inserted is there with its value. -/
theorem findMember?_insertMember_self {α : Type} (key : String) (value : α)
    (members : List (String × α)) :
    findMember? key (insertMember key value members) = some value := by
  induction members with
  | nil => simp [insertMember, findMember?]
  | cons member rest ih =>
    obtain ⟨k, v⟩ := member
    unfold insertMember
    split
    · simp [findMember?]
    · split
      · simp [findMember?]
      · rename_i h
        simp [findMember?, Ne.symm h, ih]

/-- All other keys stay as they were. -/
theorem findMember?_insertMember_of_ne {α : Type} {key other : String} (h : other ≠ key)
    (value : α) (members : List (String × α)) :
    findMember? other (insertMember key value members) = findMember? other members := by
  induction members with
  | nil => simp [insertMember, findMember?, Ne.symm h]
  | cons member rest ih =>
    obtain ⟨k, v⟩ := member
    unfold insertMember
    split
    · simp [findMember?, Ne.symm h]
    · split
      · rename_i hk
        subst hk
        simp [findMember?, Ne.symm h]
      · simp [findMember?, ih]

end SchemaSampler
