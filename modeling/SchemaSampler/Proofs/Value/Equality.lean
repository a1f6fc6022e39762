import SchemaSampler.Proofs.Binary64.Equal
import SchemaSampler.Proofs.Lists
import SchemaSampler.Value.Equality

namespace SchemaSampler.Value

/-!
# Equality of values is an equivalence

Also of numbers: NaN equals itself, and the two zeros are equal.  Equal values are of one kind and
have equal contents (`beq_iff_equal`), which is how proofs take them apart; that two values which
are equal to a third one are equal (`beq_of_common`) gives the rest.
-/

/-! ### Every value equals itself -/

mutual

/-- Every value is the same as itself, by recursion on the value. -/
theorem same_refl : (v : Value) → same v v = true
  | .undefined => by simp [same]
  | .null => by simp [same]
  | .bool _ => by simp [same]
  | .number x => by rw [same, Binary64.same_self]
  | .bigint _ => by simp [same]
  | .string _ => by simp [same]
  | .date _ => by simp [same]
  | .symbol _ => by simp [same]
  | .array items => by rw [same, sameAll_refl items]
  | .set items => by rw [same, sameAll_refl items]
  | .object members => by rw [same, sameMembers_refl members]
  | .map entries => by rw [same, sameEntries_refl entries]
  | .function _ => by simp [same]
  | .promise result => by rw [same, same_refl result]

/-- The same for the elements of a list. -/
theorem sameAll_refl : (vs : List Value) → sameAll vs vs = true
  | [] => by rw [sameAll]
  | v :: vs => by rw [sameAll, same_refl v, sameAll_refl vs, Bool.and_self]

/-- The same for the members of an object. -/
theorem sameMembers_refl : (members : List (String × Value)) → sameMembers members members = true
  | [] => by rw [sameMembers]
  | (key, v) :: members => by
    rw [sameMembers, beq_self_eq_true, same_refl v, sameMembers_refl members, Bool.and_self,
      Bool.and_self]

/-- The same for the entries of a map. -/
theorem sameEntries_refl : (entries : List (Value × Value)) → sameEntries entries entries = true
  | [] => by rw [sameEntries]
  | (k, v) :: entries => by
    rw [sameEntries, same_refl k, same_refl v, sameEntries_refl entries, Bool.and_self, Bool.and_self]

end

/-- Every value equals itself. -/
theorem beq_self (v : Value) : (v == v) = true := same_refl v

/-! ### Contents -/

/-- Equality of values is what `==` stands for. -/
theorem same_eq_beq (a b : Value) : same a b = (a == b) := rfl

/-- Lists of values that are equal one by one. -/
abbrev EqualAll : List Value → List Value → Prop := List.Forall₂ fun a b => (a == b) = true

/-- Members of objects that are equal one by one. -/
abbrev EqualMembers : List (String × Value) → List (String × Value) → Prop :=
  List.Forall₂ fun m n => m.1 = n.1 ∧ (m.2 == n.2) = true

/-- Entries of maps that are equal one by one. -/
abbrev EqualEntries : List (Value × Value) → List (Value × Value) → Prop :=
  List.Forall₂ fun e f => (e.1 == f.1) = true ∧ (e.2 == f.2) = true

/-- Elements are compared one by one. -/
theorem sameAll_iff {as bs : List Value} : sameAll as bs = true ↔ EqualAll as bs := by
  induction as generalizing bs with
  | nil => cases bs <;> simp [sameAll]
  | cons a as ih =>
    cases bs with
    | nil => simp [sameAll]
    | cons b bs => rw [sameAll, Bool.and_eq_true, ih, same_eq_beq, EqualAll, List.forall₂_cons]

/-- Members are compared one by one, by name and value. -/
theorem sameMembers_iff {as bs : List (String × Value)} :
    sameMembers as bs = true ↔ EqualMembers as bs := by
  induction as generalizing bs with
  | nil => cases bs <;> simp [sameMembers]
  | cons m as ih =>
    cases bs with
    | nil => simp [sameMembers]
    | cons n bs =>
      rw [sameMembers, Bool.and_eq_true, Bool.and_eq_true, beq_iff_eq, ih, same_eq_beq,
        EqualMembers, List.forall₂_cons]

/-- Entries are compared one by one, by key and value. -/
theorem sameEntries_iff {as bs : List (Value × Value)} :
    sameEntries as bs = true ↔ EqualEntries as bs := by
  induction as generalizing bs with
  | nil => cases bs <;> simp [sameEntries]
  | cons e as ih =>
    cases bs with
    | nil => simp [sameEntries]
    | cons f bs =>
      rw [sameEntries, Bool.and_eq_true, Bool.and_eq_true, ih, same_eq_beq, same_eq_beq,
        EqualEntries, List.forall₂_cons]

/-- Values of one kind with equal contents. -/
inductive Equal : Value → Value → Prop where
  | undefined : Equal undefined undefined
  | null : Equal null null
  | bool (b : Bool) : Equal (bool b) (bool b)
  | number {x y : Float} (equal : Binary64.same x y = true) : Equal (number x) (number y)
  | bigint (n : Int) : Equal (bigint n) (bigint n)
  | string (s : String) : Equal (string s) (string s)
  | date (t : Calendar.Instant) : Equal (date t) (date t)
  | symbol (s : Symbol) : Equal (symbol s) (symbol s)
  | array {as bs : List Value} (equal : EqualAll as bs) : Equal (array as) (array bs)
  | set {as bs : List Value} (equal : EqualAll as bs) : Equal (set as) (set bs)
  | object {as bs : List (String × Value)} (equal : EqualMembers as bs) :
      Equal (object as) (object bs)
  | map {as bs : List (Value × Value)} (equal : EqualEntries as bs) : Equal (map as) (map bs)
  | function {f g : Callable Value} (equal : f.identity = g.identity) :
      Equal (function f) (function g)
  | promise {a b : Value} (equal : (a == b) = true) : Equal (promise a) (promise b)

/-- Equal are the values of one kind with equal contents. -/
theorem beq_iff_equal {a b : Value} : (a == b) = true ↔ Equal a b := by
  rw [← same_eq_beq]
  constructor
  · intro h
    cases a <;> cases b <;> simp only [same, beq_iff_eq, Bool.false_eq_true, sameAll_iff,
      sameMembers_iff, sameEntries_iff] at h
    all_goals first | (constructor; assumption) | (subst h; constructor) | constructor
  · intro h
    cases h <;> simp only [same, beq_self_eq_true, sameAll_iff, sameMembers_iff, sameEntries_iff,
      beq_iff_eq]
    all_goals assumption

/-! ### An equivalence -/

/-- A value is smaller than a list of pairs with it. -/
theorem sizeOf_snd_lt {α : Type} [SizeOf α] {p : α × Value} {ps : List (α × Value)}
    (h : p ∈ ps) : sizeOf p.2 < sizeOf ps := by
  have := List.sizeOf_lt_of_mem h
  obtain ⟨k, v⟩ := p
  simp only [Prod.mk.sizeOf_spec] at this ⊢
  omega

/-- A key is smaller than a list of entries with it. -/
theorem sizeOf_fst_lt {p : Value × Value} {ps : List (Value × Value)} (h : p ∈ ps) :
    sizeOf p.1 < sizeOf ps := by
  have := List.sizeOf_lt_of_mem h
  obtain ⟨k, v⟩ := p
  simp only [Prod.mk.sizeOf_spec] at this ⊢
  omega

/-- A value that is equal to two others has equal ones in them. -/
theorem beq_of_common {a b c : Value} (hb : (a == b) = true) (hc : (a == c) = true) :
    (b == c) = true := by
  rw [beq_iff_equal] at hb hc ⊢
  -- `a` is of the kind of `b`, so of the two equalities the second has a single case left.
  cases hb with
  | undefined | null | bool _ | bigint _ | string _ | date _ | symbol _ => exact hc
  | number equal =>
    cases hc with
    | number equal' => exact .number (Binary64.same_trans (Binary64.same_symm equal) equal')
  | array equal =>
    cases hc with
    | array equal' =>
      exact .array (forall₂_of_common equal equal' fun _ _ _ member => beq_of_common)
  | set equal =>
    cases hc with
    | set equal' => exact .set (forall₂_of_common equal equal' fun _ _ _ member => beq_of_common)
  | object equal =>
    cases hc with
    | object equal' =>
      exact .object (forall₂_of_common equal equal' fun _ _ _ member h h' =>
        ⟨h.1.symm.trans h'.1, beq_of_common h.2 h'.2⟩)
  | map equal =>
    cases hc with
    | map equal' =>
      exact .map (forall₂_of_common equal equal' fun _ _ _ member h h' =>
        ⟨beq_of_common h.1 h'.1, beq_of_common h.2 h'.2⟩)
  | function equal =>
    cases hc with
    | function equal' => exact .function (equal.symm.trans equal')
  | promise equal =>
    cases hc with
    | promise equal' => exact .promise (beq_of_common equal equal')
termination_by sizeOf a
decreasing_by
  all_goals
    subst_vars
    simp_wf
  -- Elements are smaller than their list, and keys and values than the list of their pairs.
  · have := List.sizeOf_lt_of_mem member
    omega
  · have := List.sizeOf_lt_of_mem member
    omega
  · have := sizeOf_snd_lt member
    omega
  · have := sizeOf_fst_lt member
    omega
  · have := sizeOf_snd_lt member
    omega

/-- Equality goes both ways. -/
theorem beq_symm {a b : Value} (h : (a == b) = true) : (b == a) = true :=
  beq_of_common h (beq_self a)

/-- The order of the sides does not matter. -/
theorem beq_comm (a b : Value) : (a == b) = (b == a) :=
  Bool.eq_iff_iff.mpr ⟨beq_symm, beq_symm⟩

/-- Values that are equal to one value are equal. -/
theorem beq_trans {a b c : Value} (h : (a == b) = true) (h' : (b == c) = true) :
    (a == c) = true :=
  beq_of_common (beq_symm h) h'

/-- Equal values are equal to the same values. -/
theorem beq_congr {a a' b b' : Value} (ha : (a == a') = true) (hb : (b == b') = true) :
    (a == b) = (a' == b') := by
  rw [Bool.eq_iff_iff]
  constructor
  · intro h
    exact beq_trans (beq_symm ha) (beq_trans h hb)
  · intro h
    exact beq_trans ha (beq_trans h (beq_symm hb))

end SchemaSampler.Value
