import Mathlib.Data.List.Forall2
import Mathlib.Data.List.Induction
import Mathlib.Data.List.Nodup
import SchemaSampler.Proofs.Schema.Tags

namespace SchemaSampler

/-!
# Faults of tags — when options have no table, and which fault is reported

The options of a discriminated union have a table if and only if each of them declares tags and no
tag is declared twice (`exists_tagTable_iff`).  Otherwise the fault reported is the first in order
of declaration (`tagTable_eq_error_iff`).

The invariant of both loops is `TagTable.Holds`: the tags in the table are those seen so far.  It
tells how the loops go on for options without a fault, and where they stop for a fault.  That there
is always a first fault unless all tags are distinct is shown for the options alone
(`distinctTags_or_firstFault`), so that both statements are equivalences.
-/

/-- An option is an object that declares these tags for the discriminator. -/
def Schema.Declares (discriminator : String) (option : Schema) (tags : List String) : Prop :=
  ∃ fields unknownKeys field, option.shape = .object fields unknownKeys ∧
    findMember? discriminator fields = some field ∧ field.Spells tags

/-- Each option declares tags, in order, and no tag is declared twice. -/
def DistinctTags (discriminator : String) (options : List Schema) (tags : List (List String)) :
    Prop :=
  List.Forall₂ (Schema.Declares discriminator) options tags ∧ tags.flatten.Nodup

/-- A fault of an option that stands after options with certain tags. -/
inductive FaultAfter (discriminator : String) (seen : List String) (option : Schema) :
    TagFault → Prop where
  /-- The option is not an object. -/
  | notObject (other : ∀ fields unknownKeys, option.shape ≠ .object fields unknownKeys) :
      FaultAfter discriminator seen option (.notObject option.typeName)
  /-- The option has no such field. -/
  | undeclared {fields : List (String × Schema)} {unknownKeys : UnknownKeys}
      (shape : option.shape = .object fields unknownKeys)
      (absent : findMember? discriminator fields = none) :
      FaultAfter discriminator seen option (.undeclared discriminator)
  /-- The field is neither a literal text nor an enumeration. -/
  | notTextual {fields : List (String × Schema)} {unknownKeys : UnknownKeys} {field : Schema}
      (shape : option.shape = .object fields unknownKeys)
      (declared : findMember? discriminator fields = some field)
      (other : ∀ tags, ¬ field.Spells tags) :
      FaultAfter discriminator seen option (.notTextual discriminator field.typeName)
  /-- A tag of the option was declared before, and none of those in front of it was. -/
  | repeated {front back : List String} {tag : String}
      (declared : option.Declares discriminator (front ++ tag :: back))
      (distinct : (seen ++ front).Nodup) (again : tag ∈ seen ++ front) :
      FaultAfter discriminator seen option (.repeated tag)

/-- The first fault of options in order: all options before the faulty one are without a fault. -/
def FirstFault (discriminator : String) (options : List Schema) (fault : TagFault) : Prop :=
  ∃ before option after tags, options = before ++ option :: after ∧
    DistinctTags discriminator before tags ∧ FaultAfter discriminator tags.flatten option fault

/-! ### The options alone -/

section Options

variable {discriminator : String} {option : Schema} {options : List Schema} {tags : List String}

/-- The tags that an option declares are the ones that are read off it. -/
theorem Schema.declaredTags_eq_ok_iff :
    option.declaredTags discriminator = .ok tags ↔ option.Declares discriminator tags := by
  constructor
  · exact declaredTags_eq_ok
  · rintro ⟨fields, unknownKeys, field, hshape, hfield, spells⟩
    unfold declaredTags
    rw [hshape]
    simp only [hfield]
    cases spells with
    | literal h => simp only [h]
    | enumeration h => simp only [h]

/-- An option declares tags unless it is at fault by itself. -/
theorem Schema.declares_or_faultAfter (discriminator : String) (seen : List String)
    (option : Schema) :
    (∃ tags, option.Declares discriminator tags) ∨
      ∃ fault, FaultAfter discriminator seen option fault := by
  by_cases object : ∃ fields unknownKeys, option.shape = .object fields unknownKeys
  · obtain ⟨fields, unknownKeys, hshape⟩ := object
    cases hfield : findMember? discriminator fields with
    | none => exact .inr ⟨_, .undeclared hshape hfield⟩
    | some field =>
      by_cases spells : ∃ tags, field.Spells tags
      · obtain ⟨tags, spells⟩ := spells
        exact .inl ⟨tags, fields, unknownKeys, field, hshape, hfield, spells⟩
      · exact .inr ⟨_, .notTextual hshape hfield (not_exists.mp spells)⟩
  · exact .inr ⟨_, .notObject fun fields unknownKeys hshape =>
      object ⟨fields, unknownKeys, hshape⟩⟩

/-- Of tags that are not all distinct there is a first one that was seen before. -/
theorem exists_first_repeated {seen : List String} (distinct : seen.Nodup)
    (tags : List String) :
    (seen ++ tags).Nodup ∨ ∃ front tag back, tags = front ++ tag :: back ∧
      (seen ++ front).Nodup ∧ tag ∈ seen ++ front := by
  induction tags using List.reverseRecOn with
  | nil => exact .inl (by rwa [List.append_nil])
  | append_singleton tags tag ih =>
    -- The last tag matters only if all tags in front of it are new.
    rcases ih with new | ⟨front, first, back, rfl, new, again⟩
    · by_cases again : tag ∈ seen ++ tags
      · exact .inr ⟨tags, tag, [], rfl, new, again⟩
      · rw [← List.append_assoc, ← List.concat_eq_append]
        exact .inl (new.concat again)
    · exact .inr ⟨front, first, back ++ [tag], by simp, new, again⟩

/-- The tags of all options are distinct, or there is a first fault. -/
theorem distinctTags_or_firstFault (discriminator : String) (options : List Schema) :
    (∃ tags, DistinctTags discriminator options tags) ∨
      ∃ fault, FirstFault discriminator options fault := by
  induction options using List.reverseRecOn with
  | nil => exact .inl ⟨[], .nil, List.nodup_nil⟩
  | append_singleton options option ih =>
    rcases ih with ⟨tags, declared, distinct⟩ |
      ⟨fault, before, first, after, tags, rfl, free, faulty⟩
    · -- The last option is the only one that may be at fault.
      have faulty {fault : TagFault} (h : FaultAfter discriminator tags.flatten option fault) :
          FirstFault discriminator (options ++ [option]) fault :=
        ⟨options, option, [], tags, rfl, ⟨declared, distinct⟩, h⟩
      rcases option.declares_or_faultAfter discriminator tags.flatten with
        ⟨last, spelled⟩ | ⟨fault, h⟩
      · rcases exists_first_repeated distinct last with new | ⟨front, tag, back, rfl, new, again⟩
        · refine .inl ⟨tags ++ [last], List.rel_append declared (.cons spelled .nil), ?_⟩
          rwa [List.flatten_append, List.flatten_singleton]
        · exact .inr ⟨_, faulty (.repeated spelled new again)⟩
      · exact .inr ⟨fault, faulty h⟩
    · exact .inr ⟨fault, before, first, after ++ [option], tags, by simp, free, faulty⟩

end Options

/-! ### The loops -/

namespace TagTable

variable {discriminator tag : String} {position : Nat} {table table' : TagTable}
  {seen tags : List String} {options : List Schema}

/-- The tags of a table are those seen so far. -/
def Holds (table : TagTable) (seen : List String) : Prop :=
  ∀ tag, (findMember? tag table).isSome ↔ tag ∈ seen

/-- A tag that was not seen before is one more afterwards. -/
theorem Holds.insert (holds : table.Holds seen) (tag : String) (position : Nat) :
    Holds (insertMember tag position table) (seen ++ [tag]) := by
  intro other
  rw [findMember?_insertMember, List.mem_append, List.mem_singleton]
  by_cases same : other = tag
  · simp [same]
  · simp [same, holds other]

/-- Tags are entered one after the other. -/
theorem enter_cons_of_not_mem (holds : table.Holds seen) (new : tag ∉ seen) (position : Nat)
    (tags : List String) :
    table.enter position (tag :: tags) =
      enter position (insertMember tag position table) tags := by
  rw [enter, if_neg]
  rwa [holds tag]

/-- Distinct tags that were not seen before are all entered. -/
theorem exists_enter (holds : table.Holds seen) (distinct : (seen ++ tags).Nodup)
    (position : Nat) :
    ∃ table', (∀ rest, table.enter position (tags ++ rest) = enter position table' rest) ∧
      Holds table' (seen ++ tags) := by
  induction tags generalizing table seen with
  | nil => exact ⟨table, fun _ => rfl, by rwa [List.append_nil]⟩
  | cons tag tags ih =>
    rw [List.append_cons] at distinct
    have new : tag ∉ seen := fun again =>
      (List.nodup_append.mp distinct.of_append_left).2.2 tag again tag (by simp) rfl
    obtain ⟨table', entered, holds'⟩ := ih (holds.insert tag position) distinct
    refine ⟨table', fun rest => ?_, by rwa [List.append_cons]⟩
    rw [List.cons_append, enter_cons_of_not_mem holds new]
    exact entered rest

/-- The first tag that was seen before is reported. -/
theorem enter_repeated (holds : table.Holds seen) {front : List String}
    (distinct : (seen ++ front).Nodup) (again : tag ∈ seen ++ front) (back : List String) :
    table.enter position (front ++ tag :: back) = .error (.repeated tag) := by
  obtain ⟨table', entered, holds'⟩ := exists_enter holds distinct position
  rw [entered, enter, if_pos]
  rwa [holds' tag]

/-- Options are entered one after the other. -/
theorem enterAll_cons_of_declares {option : Schema}
    (declared : option.Declares discriminator tags) (options : List Schema) :
    enterAll discriminator position table (option :: options) =
      table.enter position tags >>= fun entered =>
        enterAll discriminator (position + 1) entered options := by
  rw [enterAll, Schema.declaredTags_eq_ok_iff.mpr declared]
  rfl

/-- Options without a fault are all entered. -/
theorem exists_enterAll {declared : List (List String)}
    (each : List.Forall₂ (Schema.Declares discriminator) options declared)
    (holds : table.Holds seen) (distinct : (seen ++ declared.flatten).Nodup) (position : Nat) :
    ∃ position' table', (∀ rest, enterAll discriminator position table (options ++ rest) =
      enterAll discriminator position' table' rest) ∧ Holds table' (seen ++ declared.flatten) := by
  induction each generalizing position table seen with
  | nil => exact ⟨position, table, fun _ => rfl, by simpa using holds⟩
  | @cons option tags options declared first _ ih =>
    rw [List.flatten_cons, ← List.append_assoc] at distinct ⊢
    obtain ⟨entered, goes_on, holds'⟩ := exists_enter holds distinct.of_append_left position
    obtain ⟨position', table', others, holds''⟩ := ih holds' distinct (position + 1)
    refine ⟨position', table', fun rest => ?_, holds''⟩
    -- With no further tags, entering those of the first option ends in the table found.
    have whole := goes_on []
    rw [List.append_nil, enter] at whole
    rw [List.cons_append, enterAll_cons_of_declares first, whole]
    exact others rest

/-- A fault ends the run. -/
theorem enterAll_of_faultAfter {option : Schema} {fault : TagFault}
    (holds : table.Holds seen) (faulty : FaultAfter discriminator seen option fault)
    (rest : List Schema) :
    enterAll discriminator position table (option :: rest) = .error fault := by
  -- Three of the faults are found before any tag is entered.
  have stops (h : option.declaredTags discriminator = .error fault) :
      enterAll discriminator position table (option :: rest) = .error fault := by
    rw [enterAll, h]
    rfl
  cases faulty with
  | notObject other =>
    apply stops
    unfold Schema.declaredTags
    split
    · exact absurd ‹_› (other _ _)
    · rfl
  | undeclared shape absent =>
    apply stops
    unfold Schema.declaredTags
    rw [shape]
    simp only [absent]
  | @notTextual fields unknownKeys field shape declared other =>
    apply stops
    unfold Schema.declaredTags
    rw [shape]
    simp only [declared]
    split
    · exact absurd (.literal ‹_›) (other _)
    · exact absurd (.enumeration ‹_›) (other _)
    · rfl
  | repeated declared distinct again =>
    rw [enterAll_cons_of_declares declared, enter_repeated holds distinct again]
    rfl

end TagTable

/-! ### Tables -/

section Tables

variable {discriminator : String} {options : List Schema} {table : TagTable} {fault : TagFault}
  {tags : List (List String)}

theorem TagTable.holds_nil : Holds [] [] := fun _ => by simp [findMember?]

/-- Options with distinct tags have a table, which holds their tags. -/
theorem DistinctTags.exists_tagTable (h : DistinctTags discriminator options tags) :
    ∃ table, tagTable discriminator options = .ok table ∧ table.Holds tags.flatten := by
  obtain ⟨_, table, entered, holds⟩ := TagTable.exists_enterAll h.1 TagTable.holds_nil h.2 0
  refine ⟨table, ?_, holds⟩
  rw [tagTable, ← List.append_nil options, entered]
  rfl

/-- The first fault is the one reported. -/
theorem FirstFault.tagTable_eq (h : FirstFault discriminator options fault) :
    tagTable discriminator options = .error fault := by
  obtain ⟨before, option, after, tags, rfl, ⟨declared, distinct⟩, faulty⟩ := h
  obtain ⟨_, table, entered, holds⟩ :=
    TagTable.exists_enterAll declared TagTable.holds_nil distinct 0
  rw [tagTable, entered]
  exact TagTable.enterAll_of_faultAfter holds faulty after

/-- **When there is a table.** Options have a table of tags exactly when each declares tags and all
    of these are distinct. -/
theorem exists_tagTable_iff :
    (∃ table, tagTable discriminator options = .ok table) ↔
      ∃ tags, DistinctTags discriminator options tags := by
  constructor
  · rintro ⟨table, htable⟩
    refine (distinctTags_or_firstFault discriminator options).resolve_right ?_
    rintro ⟨fault, first⟩
    rw [first.tagTable_eq] at htable
    cases htable
  · rintro ⟨tags, h⟩
    obtain ⟨table, htable, _⟩ := h.exists_tagTable
    exact ⟨table, htable⟩

/-- **Which fault is reported.** There is no table for the reason of the first fault in order of
    declaration. -/
theorem tagTable_eq_error_iff :
    tagTable discriminator options = .error fault ↔ FirstFault discriminator options fault := by
  refine ⟨fun refused => ?_, FirstFault.tagTable_eq⟩
  rcases distinctTags_or_firstFault discriminator options with ⟨tags, h⟩ | ⟨first, h⟩
  · obtain ⟨table, htable, _⟩ := h.exists_tagTable
    rw [refused] at htable
    cases htable
  · have same := h.tagTable_eq
    rw [refused] at same
    cases same
    exact h

/-- The keys of a table are the tags declared, in ascending order. -/
theorem DistinctTags.perm_tagTable (h : DistinctTags discriminator options tags)
    (htable : tagTable discriminator options = .ok table) :
    (table.map Prod.fst).Perm tags.flatten := by
  obtain ⟨_, there, holds⟩ := h.exists_tagTable
  cases htable.symm.trans there
  have keys : (table.map Prod.fst).Nodup :=
    List.pairwise_map.mpr (sorted_tagTable htable).distinct
  refine (List.perm_ext_iff_of_nodup keys h.2).mpr fun tag => ?_
  rw [← holds tag, Option.isSome_iff_exists, List.mem_map]
  constructor
  · rintro ⟨⟨_, position⟩, member, rfl⟩
    exact ⟨position, findMember?_of_mem_tagTable htable member⟩
  · rintro ⟨position, found⟩
    exact ⟨(tag, position), mem_of_findMember? found, rfl⟩

end Tables

end SchemaSampler
