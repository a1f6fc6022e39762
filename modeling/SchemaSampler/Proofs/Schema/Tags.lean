import SchemaSampler.Proofs.Value.Members
import SchemaSampler.Schema.Tags

namespace SchemaSampler

/-!
# Laws of tags — a table of tags names exactly the tags that the options declare

`findMember?_tagTable_iff` is the specification of `tagTable`: a tag is entered with a position
if and only if the option at the position declares it.
-/

/-- The schema of a discriminator that declares these texts. -/
inductive Schema.Spells (field : Schema) : List String → Prop where
  /-- A literal declares its text. -/
  | literal {tag : String} (h : field.shape = .literal (.string tag)) : Spells field [tag]
  /-- An enumeration declares its members. -/
  | enumeration {tags : List String} (h : field.shape = .enumeration tags) : Spells field tags

/-- An option that declares tags is an object with a field that spells them. -/
theorem Schema.declaredTags_eq_ok {discriminator : String} {option : Schema} {tags : List String}
    (h : option.declaredTags discriminator = .ok tags) :
    ∃ fields unknownKeys field, option.shape = .object fields unknownKeys ∧
      findMember? discriminator fields = some field ∧ field.Spells tags := by
  unfold declaredTags at h
  split at h
  · rename_i fields unknownKeys hshape
    split at h
    · cases h
    · rename_i field hfield
      refine ⟨fields, unknownKeys, field, hshape, hfield, ?_⟩
      split at h
      · rename_i tag hliteral
        cases h
        exact .literal hliteral
      · rename_i members hmembers
        cases h
        exact .enumeration hmembers
      · cases h
  · cases h

/-- The options that the entries of a table select, in order. -/
def TagTable.selected {α : Type} (table : TagTable) (options : List α) : List α :=
  table.filterMap fun entry => options[entry.2]?

theorem TagTable.selected_map {α β : Type} (table : TagTable) (f : α → β) (options : List α) :
    table.selected (options.map f) = (table.selected options).map f := by
  rw [selected, selected, List.map_filterMap]
  exact List.filterMap_congr fun entry _ => List.getElem?_map

/-- A table selects options only. -/
theorem TagTable.mem_of_mem_selected {α : Type} {table : TagTable} {options : List α} {a : α}
    (member : a ∈ table.selected options) : a ∈ options :=
  have ⟨_, _, found⟩ := List.mem_filterMap.mp member
  List.mem_of_getElem? found

namespace TagTable

variable {discriminator tag : String} {position p : Nat} {table table' : TagTable}
  {tags : List String} {options : List Schema}

/-- Entering tags makes them point to the position and changes nothing else. -/
theorem findMember?_enter (h : table.enter position tags = .ok table') (tag : String) :
    (tag ∈ tags → findMember? tag table = none ∧ findMember? tag table' = some position) ∧
      (tag ∉ tags → findMember? tag table' = findMember? tag table) := by
  induction tags generalizing table with
  | nil =>
    cases h
    exact ⟨fun member => absurd member List.not_mem_nil, fun _ => rfl⟩
  | cons head rest ih =>
    unfold enter at h
    split at h
    · cases h
    · rename_i new
      rw [Bool.not_eq_true, Option.isSome_eq_false_iff, Option.isNone_iff_eq_none] at new
      obtain ⟨entered, kept⟩ := ih h
      rw [findMember?_insertMember] at entered kept
      by_cases member : tag ∈ rest
      · obtain ⟨absent, found⟩ := entered member
        split at absent
        · cases absent
        · exact ⟨fun _ => ⟨absent, found⟩, fun away => absurd (by simp [member]) away⟩
      · have found := kept member
        by_cases same : tag = head
        · rw [if_pos same] at found
          exact ⟨fun _ => ⟨same ▸ new, found⟩, fun away => absurd (by simp [same]) away⟩
        · rw [if_neg same] at found
          exact ⟨fun here => absurd here (by simp [same, member]), fun _ => found⟩

/-- Entering the tags of options goes on with the table that the first option leaves. -/
theorem enterAll_cons {option : Schema}
    (h : enterAll discriminator position table (option :: options) = .ok table') :
    ∃ tags entered, option.declaredTags discriminator = .ok tags ∧
      table.enter position tags = .ok entered ∧
      enterAll discriminator (position + 1) entered options = .ok table' := by
  unfold enterAll at h
  cases htags : option.declaredTags discriminator with
  | error fault =>
    rw [htags] at h
    cases h
  | ok tags =>
    rw [htags] at h
    cases hentered : table.enter position tags with
    | error fault =>
      simp only [bind, Except.bind, hentered] at h
      cases h
    | ok entered =>
      simp only [bind, Except.bind, hentered] at h
      exact ⟨tags, entered, rfl, hentered, h⟩

/-- Entering the tags of options adds exactly what they declare. -/
theorem findMember?_enterAll_iff
    (h : enterAll discriminator position table options = .ok table') :
    findMember? tag table' = some p ↔
      findMember? tag table = some p ∨
        ∃ i option tags, options[i]? = some option ∧ p = position + i ∧
          option.declaredTags discriminator = .ok tags ∧ tag ∈ tags := by
  induction options generalizing position table with
  | nil =>
    cases h
    simp
  | cons option rest ih =>
    obtain ⟨tags, entered, htags, hentered, h⟩ := enterAll_cons h
    obtain ⟨here, elsewhere⟩ := findMember?_enter hentered tag
    rw [ih h]
    constructor
    · rintro (found | ⟨i, other, otherTags, hother, rfl, declared, member⟩)
      · by_cases member : tag ∈ tags
        · rw [(here member).2] at found
          cases found
          exact .inr ⟨0, option, tags, rfl, rfl, htags, member⟩
        · rw [elsewhere member] at found
          exact .inl found
      · exact .inr ⟨i + 1, other, otherTags, hother, by omega, declared, member⟩
    · rintro (found | ⟨i, other, otherTags, hother, rfl, declared, member⟩)
      · by_cases member : tag ∈ tags
        · rw [(here member).1] at found
          cases found
        · rw [elsewhere member]
          exact .inl found
      · cases i with
        | zero =>
          cases hother
          rw [htags] at declared
          cases declared
          exact .inl (here member).2
        | succ i => exact .inr ⟨i, other, otherTags, hother, by omega, declared, member⟩

/-- Options whose tags are entered all declare some. -/
theorem exists_declaredTags_of_enterAll
    (h : enterAll discriminator position table options = .ok table') {option : Schema}
    (member : option ∈ options) : ∃ tags, option.declaredTags discriminator = .ok tags := by
  induction options generalizing position table with
  | nil => cases member
  | cons first rest ih =>
    obtain ⟨tags, entered, htags, _, h⟩ := enterAll_cons h
    rcases List.mem_cons.mp member with rfl | member
    · exact ⟨tags, htags⟩
    · exact ih h member

/-- A table that tags were entered into stays sorted. -/
theorem sorted_enter (sorted : SortedMembers table)
    (h : table.enter position tags = .ok table') : SortedMembers table' := by
  induction tags generalizing table with
  | nil =>
    cases h
    exact sorted
  | cons head rest ih =>
    unfold enter at h
    split at h
    · cases h
    · exact ih (sorted_insertMember sorted head position) h

theorem sorted_enterAll (sorted : SortedMembers table)
    (h : enterAll discriminator position table options = .ok table') : SortedMembers table' := by
  induction options generalizing position table with
  | nil =>
    cases h
    exact sorted
  | cons option rest ih =>
    obtain ⟨tags, entered, _, hentered, h⟩ := enterAll_cons h
    exact ih (sorted_enter sorted hentered) h

end TagTable

/-- The tags of a table are in ascending order. -/
theorem sorted_tagTable {discriminator : String} {options : List Schema} {table : TagTable}
    (h : tagTable discriminator options = .ok table) : SortedMembers table :=
  TagTable.sorted_enterAll .nil h

/-- **Specification of the table of tags.** A tag has a position in the table exactly when the
    option at the position declares it. -/
theorem findMember?_tagTable_iff {discriminator tag : String} {options : List Schema}
    {table : TagTable} (h : tagTable discriminator options = .ok table) {position : Nat} :
    findMember? tag table = some position ↔
      ∃ option tags, options[position]? = some option ∧
        option.declaredTags discriminator = .ok tags ∧ tag ∈ tags := by
  rw [TagTable.findMember?_enterAll_iff h]
  constructor
  · rintro (found | ⟨i, option, tags, hoption, rfl, declared, member⟩)
    · cases found
    · rw [Nat.zero_add]
      exact ⟨option, tags, hoption, declared, member⟩
  · rintro ⟨option, tags, hoption, declared, member⟩
    exact .inr ⟨position, option, tags, hoption, (Nat.zero_add _).symm, declared, member⟩

/-- The entries of a table of tags are found in it. -/
theorem findMember?_of_mem_tagTable {discriminator tag : String} {options : List Schema}
    {table : TagTable} (h : tagTable discriminator options = .ok table) {position : Nat}
    (member : (tag, position) ∈ table) : findMember? tag table = some position := by
  have distinct := (sorted_tagTable h).distinct
  clear h
  induction table with
  | nil => cases member
  | cons entry rest ih =>
    obtain ⟨first, others⟩ := List.pairwise_cons.mp distinct
    rcases List.mem_cons.mp member with rfl | member
    · exact findMember?_head (tag, position) rest
    · rw [findMember?, if_neg (first _ member)]
      exact ih member others

end SchemaSampler
