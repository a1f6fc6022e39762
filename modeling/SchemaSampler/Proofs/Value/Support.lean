import SchemaSampler.Proofs.Value.Renaming
import SchemaSampler.Value.Mapping

namespace SchemaSampler

/-!
# Support — the functions that a value knows

A set of identities supports a value if every renaming that keeps the set leaves the value as it
is.  Collections are supported by what supports their parts.  The predicates and mappings that are
given as data commute with every renaming that keeps the values written into them.
-/

/-- A value that a set of identities supports: renamings that keep these leave it as it is. -/
def Value.SupportedBy (K : Identity → Prop) (v : Value) : Prop :=
  ∀ ρ : Renaming, (∀ i, K i → ρ.apply i = i) → v.rename ρ = v

namespace Value

variable {K K' : Identity → Prop}

/-- What is supported by few identities is supported by more. -/
theorem SupportedBy.mono {v : Value} (h : v.SupportedBy K) (more : ∀ i, K i → K' i) :
    v.SupportedBy K' :=
  fun ρ keeps => h ρ fun i known => keeps i (more i known)

/-- All identities together support every value. -/
theorem supported_all (v : Value) : v.SupportedBy fun _ => True := by
  intro ρ keeps
  rw [Renaming.eq_refl fun i => keeps i trivial, rename_refl]

/-- A renaming that keeps the identities of all elements changes none of them. -/
theorem map_rename {items : List Value} (h : ∀ i ∈ items, i.SupportedBy K) {ρ : Renaming}
    (keeps : ∀ i, K i → ρ.apply i = i) : items.map (rename ρ) = items := by
  rw [List.map_congr_left fun i member => h i member ρ keeps, List.map_id'']
  exact fun _ => rfl

/-- An array has the identities of its elements. -/
theorem supported_array {items : List Value} (h : ∀ i ∈ items, i.SupportedBy K) :
    SupportedBy K (array items) := by
  intro ρ keeps
  rw [rename, renameAll_eq_map, map_rename h keeps]

/-- So has a set. -/
theorem supported_set {items : List Value} (h : ∀ i ∈ items, i.SupportedBy K) :
    SupportedBy K (setOfItems items) := by
  intro ρ keeps
  rw [← setOfItems_rename, renameAll_eq_map, map_rename h keeps]

/-- An object has those of its members. -/
theorem supported_object {members : List (String × Value)}
    (h : ∀ m ∈ members, m.2.SupportedBy K) : SupportedBy K (objectOf members) := by
  intro ρ keeps
  have same : members.map (fun m => (m.1, rename ρ m.2)) = members.map id :=
    List.map_congr_left fun m member => by rw [h m member ρ keeps]; rfl
  rw [← objectOf_rename, renameMembers_eq_map, same, List.map_id]

/-- A map has those of its keys and values. -/
theorem supported_map {pairs : List (Value × Value)}
    (h : ∀ e ∈ pairs, e.1.SupportedBy K ∧ e.2.SupportedBy K) :
    SupportedBy K (mapOfPairs pairs) := by
  intro ρ keeps
  have same : pairs.map (fun e => (rename ρ e.1, rename ρ e.2)) = pairs.map id :=
    List.map_congr_left fun e member => by rw [(h e member).1 ρ keeps, (h e member).2 ρ keeps]; rfl
  rw [← mapOfPairs_rename, renameEntries_eq_map, same, List.map_id]

/-- A promise has those of what it is settled with. -/
theorem supported_promise {v : Value} (h : v.SupportedBy K) : SupportedBy K (promise v) := by
  intro ρ keeps
  rw [rename, h ρ keeps]

/-- A function that returns one value is supported by its identity and by what supports the
    value. -/
theorem supported_constant {identity : Identity} {v : Value} (known : K identity)
    (h : v.SupportedBy K) (guards : List SchemaId) :
    SupportedBy K (function ⟨identity, .constant v, guards⟩) := by
  intro ρ keeps
  rw [rename, keeps identity known, h ρ keeps]

end Value

namespace Predicate

/-- The values that a predicate compares others with are supported. -/
inductive SupportedBy (K : Identity → Prop) : Predicate → Prop where
  | always : SupportedBy K always
  | never : SupportedBy K never
  | equals {v : Value} (h : v.SupportedBy K) : SupportedBy K (equals v)
  | hasType (name : String) : SupportedBy K (hasType name)
  | leaves (divisor rest : Float) : SupportedBy K (leaves divisor rest)
  | above (bound : Float) : SupportedBy K (above bound)
  | sized (min : Nat) : SupportedBy K (sized min)
  | hasKey (key : String) : SupportedBy K (hasKey key)
  | negation {p : Predicate} (h : SupportedBy K p) : SupportedBy K (negation p)
  | all {ps : List Predicate} (h : ∀ p ∈ ps, SupportedBy K p) : SupportedBy K (all ps)
  | any {ps : List Predicate} (h : ∀ p ∈ ps, SupportedBy K p) : SupportedBy K (any ps)

/-- A conjunction holds if each predicate does. -/
theorem holdsAll_eq (ps : List Predicate) (v : Value) : holdsAll ps v = ps.all (·.holds v) := by
  induction ps with
  | nil => rfl
  | cons p rest ih => rw [holdsAll, ih, List.all_cons]

/-- A disjunction holds if some predicate does. -/
theorem holdsAny_eq (ps : List Predicate) (v : Value) : holdsAny ps v = ps.any (·.holds v) := by
  induction ps with
  | nil => rfl
  | cons p rest ih => rw [holdsAny, ih, List.any_cons]

/-- A predicate holds of a renamed value if it holds of the value. -/
theorem holds_rename {K : Identity → Prop} {p : Predicate} (h : p.SupportedBy K) (ρ : Renaming)
    (keeps : ∀ i, K i → ρ.apply i = i) (v : Value) : p.holds (v.rename ρ) = p.holds v := by
  induction h with
  | always => rfl
  | never => rfl
  | @equals expected supported =>
    have same := Value.beq_rename ρ v expected
    rw [supported ρ keeps] at same
    exact same
  | hasType name => rw [holds, holds, Value.typeName_rename]
  | leaves divisor rest => rw [holds, holds, Value.asNumber?_rename]
  | above bound => rw [holds, holds, Value.asNumber?_rename]
  | sized min => rw [holds, holds, Value.size?_rename]
  | hasKey key =>
    rw [holds, holds, Value.asObject?_rename]
    cases v.asObject? with
    | none => rfl
    | some members =>
      simp only [Option.map_some, Option.any_some, Value.renameMembers_eq_map, List.any_map]
      rfl
  | negation _ ih => rw [holds, holds, ih]
  | all _ ih =>
    rw [holds, holds, holdsAll_eq, holdsAll_eq, Bool.eq_iff_iff, List.all_eq_true,
      List.all_eq_true]
    exact ⟨fun h p member => ih p member ▸ h p member,
      fun h p member => (ih p member).symm ▸ h p member⟩
  | any _ ih =>
    rw [holds, holds, holdsAny_eq, holdsAny_eq, Bool.eq_iff_iff, List.any_eq_true,
      List.any_eq_true]
    exact ⟨fun ⟨p, member, h⟩ => ⟨p, member, ih p member ▸ h⟩,
      fun ⟨p, member, h⟩ => ⟨p, member, (ih p member).symm ▸ h⟩⟩

end Predicate

namespace Mapping

/-- The values that a mapping knows are supported. -/
def SupportedBy (K : Identity → Prop) : Mapping → Prop
  | constant v => v.SupportedBy K
  | refuseIf p _ => p.SupportedBy K
  | _ => True

/-- A mapping makes of a renamed value the renamed result. -/
theorem apply_rename {K : Identity → Prop} {m : Mapping} (h : m.SupportedBy K) (ρ : Renaming)
    (keeps : ∀ i, K i → ρ.apply i = i) (v : Value) :
    m.apply (v.rename ρ) = (m.apply v).map (Value.rename ρ) := by
  cases m with
  | identity => rfl
  | constant result =>
    show Except.ok result = Except.ok (result.rename ρ)
    rw [h ρ keeps]
  | characterCount =>
    simp only [apply, Value.asString?_rename]
    cases v.asString? <;> rfl
  | decimalText =>
    simp only [apply, Value.asNumber?_rename]
    cases v.asNumber? <;> rfl
  | kindName =>
    simp only [apply, Value.typeName_rename]
    rfl
  | singleton => rfl
  | promise => rfl
  | negative =>
    simp only [apply, Value.asNumber?_rename]
    cases v.asNumber? <;> rfl
  | member key =>
    simp only [apply, Value.asObject?_rename]
    cases v.asObject? with
    | none => rfl
    | some members =>
      simp only [Option.map_some, Option.bind_some, Value.findMember?_rename]
      cases findMember? key members <;> rfl
  | itemSet =>
    simp only [apply, Value.asArray?_rename]
    cases v.asArray? with
    | none => rfl
    | some items => exact congrArg Except.ok (Value.setOfItems_rename ρ items)
  | refuse reason => rfl
  | refuseIf p reason =>
    simp only [apply, Predicate.holds_rename h ρ keeps]
    split <;> rfl

end Mapping

end SchemaSampler
