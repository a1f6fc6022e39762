import Mathlib.Data.List.SplitBy
import SchemaSampler.Proofs.Lists
import SchemaSampler.Proofs.Text.Numeral
import SchemaSampler.Strategy.Path

namespace SchemaSampler

/-!
# Texts of paths — a text that leads to one place

The text of a step begins with a mark, a point or an opening bracket.  As long as no name holds a
mark, there is none further on, so the text of a path is cut in front of the marks into the texts of
its steps.  A name in parentheses that is written like one of the other steps would be taken for it;
apart from these names a step is known by its text.

* `Path.splitAtMarks_flatten` — cutting in front of the marks undoes putting texts in a row.
* `PathStep.ofChars?_text` — a step is read back from its text.
* `Path.ofText?_text` — so a path is read back from its text.

Messages write the outermost schema as a point (`Path.display`), and a point is also the text of a
single member without a name.
-/

/-- The characters that the text of a step begins with. -/
def Path.isMark (c : Char) : Bool := c == '.' || c == '['

/-- Cuts a text in front of each mark. -/
def Path.splitAtMarks (cs : List Char) : List (List Char) := cs.splitBy fun _ c => !isMark c

namespace PathStep

/-- The name of a member that no other step can be taken for: it holds no mark and is none of the
    names in parentheses. -/
def IsPlainName (name : String) : Prop :=
  '.' ∉ name.toList ∧ '[' ∉ name.toList ∧
    name ∉ ["(key)", "(value)", "(return type)", "(resolved type)"]

/-- A step to a member has a plain name. -/
def IsPlain (step : PathStep) : Prop := ∀ name, step = property name → IsPlainName name

/-- Reads a step. -/
def ofChars? : List Char → Option PathStep
  | '.' :: rest =>
    let name := String.ofList rest
    if name = "(key)" then some key
    else if name = "(value)" then some value
    else if name = "(return type)" then some returnType
    else if name = "(resolved type)" then some resolvedType
    else some (property name)
  | '[' :: rest =>
    match Text.takeDigits Text.decimalValue? rest with
    | (ds, [']']) => some (index (Text.ofDigits 10 ds))
    | (_, ['*', ']']) => some element
    | _ => none
  | _ => none

end PathStep

/-- Reads a path. -/
def Path.ofText? (text : String) : Option Path :=
  ((splitAtMarks text.toList).mapM PathStep.ofChars?).map Path.mk

/-! ### Cutting -/

/-- A text that begins with a mark and holds no other. -/
def Path.IsPiece (cs : List Char) : Prop :=
  ∃ mark rest, cs = mark :: rest ∧ isMark mark = true ∧ rest.any isMark = false

/-- Pieces in a row are cut into these pieces. -/
theorem Path.splitAtMarks_flatten {pieces : List (List Char)}
    (h : ∀ piece ∈ pieces, IsPiece piece) : splitAtMarks pieces.flatten = pieces := by
  refine List.splitBy_flatten ?_ ?_ ?_
  · intro empty
    obtain ⟨_, _, ⟨⟩, _⟩ := h [] empty
  · intro piece member
    obtain ⟨mark, rest, rfl, -, unmarked⟩ := h piece member
    rw [List.any_eq_false] at unmarked
    refine List.Pairwise.isChain (List.pairwise_cons.mpr ⟨fun c there => ?_, ?_⟩)
    · simp [unmarked c there]
    · refine List.pairwise_of_forall_mem_list fun b _ c there => ?_
      simp [unmarked c there]
  · refine List.Pairwise.isChain (List.pairwise_of_forall_mem_list fun a ha b hb => ?_)
    obtain ⟨_, _, rfl, -, -⟩ := h a ha
    obtain ⟨mark, _, rfl, marked, -⟩ := h b hb
    exact ⟨by simp, by simp, by simp [marked]⟩

/-! ### Steps -/

namespace PathStep

variable {step : PathStep}

/-- The digits of a number hold no mark. -/
theorem isMark_digitChar {d : Nat} (h : d < 10) : Path.isMark d.digitChar = false := by
  have all : ∀ d < 10, Path.isMark (Nat.digitChar d) = false := by decide
  exact all d h

theorem toList_text_index (position : Nat) :
    (index position).text.toList = '[' :: (Nat.toDigits 10 position ++ [']']) := by
  simp [text]

theorem toList_text_property (name : String) :
    (property name).text.toList = '.' :: name.toList := by
  simp [text]

theorem isPiece_text (plain : step.IsPlain) : Path.IsPiece step.text.toList := by
  cases step with
  | property name =>
    obtain ⟨no_point, no_bracket, -⟩ := plain name rfl
    refine ⟨'.', name.toList, toList_text_property name, rfl, ?_⟩
    refine List.any_eq_false.mpr fun c member => ?_
    have other : c ≠ '.' ∧ c ≠ '[' :=
      ⟨fun same => no_point (same ▸ member), fun same => no_bracket (same ▸ member)⟩
    simp [Path.isMark, other]
  | index position =>
    obtain ⟨ds, written, small, -⟩ := Text.exists_digits (by decide : 1 < 10) position
    refine ⟨'[', _, toList_text_index position, rfl, ?_⟩
    rw [written, List.any_append, Bool.or_eq_false_iff]
    refine ⟨List.any_eq_false.mpr fun c member => ?_, rfl⟩
    obtain ⟨d, there, rfl⟩ := List.mem_map.mp member
    simp [isMark_digitChar (small d there)]
  | element => exact ⟨'[', ['*', ']'], rfl, rfl, rfl⟩
  | key => exact ⟨'.', "(key)".toList, rfl, rfl, rfl⟩
  | value => exact ⟨'.', "(value)".toList, rfl, rfl, rfl⟩
  | returnType => exact ⟨'.', "(return type)".toList, rfl, rfl, rfl⟩
  | resolvedType => exact ⟨'.', "(resolved type)".toList, rfl, rfl, rfl⟩

theorem toList_text_ne_nil (step : PathStep) : step.text.toList ≠ [] := by
  cases step with
  | property name => simp [toList_text_property]
  | index position => simp [toList_text_index]
  | element | key | value | returnType | resolvedType => decide

/-- A step is read back from its text. -/
theorem ofChars?_text (plain : step.IsPlain) : ofChars? step.text.toList = some step := by
  cases step with
  | property name =>
    obtain ⟨-, -, other⟩ := plain name rfl
    simp only [List.mem_cons, List.not_mem_nil, or_false, not_or] at other
    obtain ⟨not_key, not_value, not_return, not_resolved⟩ := other
    rw [toList_text_property, ofChars?, String.ofList_toList]
    simp only [not_key, not_value, not_return, not_resolved, if_false]
  | index position =>
    obtain ⟨ds, written, small, value⟩ := Text.exists_digits (by decide : 1 < 10) position
    have taken :
        Text.takeDigits Text.decimalValue? (ds.map Nat.digitChar ++ [']']) = (ds, [']']) := by
      refine Text.takeDigits_append (fun d member => ?_) fun c last => ?_
      · exact Text.decimalValue?_digitChar (small d member)
      · cases last
        rfl
    rw [toList_text_index, written, ofChars?, taken]
    simp only [value]
  | element | key | value | returnType | resolvedType => rfl

end PathStep

/-! ### Paths -/

namespace Path

variable {p : Path}

theorem toList_text (p : Path) :
    p.text.toList = (p.steps.map fun step => step.text.toList).flatten := by
  have joined : ∀ texts : List (List Char), [].intercalate texts = texts.flatten := by
    intro texts
    induction texts with
    | nil => rfl
    | cons first rest ih =>
      cases rest with
      | nil => simp
      | cons second rest => simp [List.intercalate_cons_cons, ih]
  rw [text, String.toList_intercalate, List.map_map]
  exact joined _

/-- A path is read back from its text. -/
theorem ofText?_text (plain : ∀ step ∈ p.steps, step.IsPlain) : ofText? p.text = some p := by
  have pieces : ∀ piece ∈ p.steps.map fun step => step.text.toList, IsPiece piece := by
    intro piece member
    obtain ⟨step, there, rfl⟩ := List.mem_map.mp member
    exact PathStep.isPiece_text (plain step there)
  have read : (p.steps.map fun step => step.text.toList).mapM PathStep.ofChars? = some p.steps := by
    refine mapM_eq_some_iff.mpr (List.forall₂_map_left_iff.mpr (List.forall₂_same.mpr ?_))
    exact fun step member => PathStep.ofChars?_text (plain step member)
  rw [ofText?, toList_text, splitAtMarks_flatten pieces, read]
  rfl

/-- Only the outermost place has no text. -/
theorem text_eq_empty_iff : p.text = "" ↔ p.steps = [] := by
  rw [← String.toList_inj, toList_text, String.toList_empty, List.flatten_eq_nil_iff]
  constructor
  · intro empty
    cases there : p.steps with
    | nil => rfl
    | cons step rest =>
      have blank : step.text.toList = [] := empty _ (by simp [there])
      exact absurd blank step.toList_text_ne_nil
  · intro root
    simp [root]

theorem steps_foldl_into (p : Path) (steps : List PathStep) :
    (steps.foldl into p).steps = p.steps ++ steps := by
  induction steps generalizing p with
  | nil => rw [List.foldl_nil, List.append_nil]
  | cons step rest ih =>
    rw [List.foldl_cons, ih, into, List.append_assoc]
    rfl

/-- **A text leads to one place.**  Two sequences of steps from the outermost schema whose names are
    plain are the same if their paths have the same text, whatever else the names hold.  Whatever the
    names, a path is that of the outermost schema exactly if it has no text, and only if it has no
    steps. -/
theorem text_leads_to_one_place (steps steps' : List PathStep) :
    let path (steps : List PathStep) : Path := steps.foldl into root
    ((∀ step ∈ steps, step.IsPlain) → (∀ step ∈ steps', step.IsPlain) →
      (path steps).text = (path steps').text → steps = steps') ∧
    ((path steps).isRoot = true ↔ (path steps).text = "") ∧
    ((path steps).isRoot = true ↔ steps = []) := by
  intro path
  have all (steps : List PathStep) : (path steps).steps = steps := steps_foldl_into root steps
  have isRoot_iff : (path steps).isRoot = true ↔ steps = [] := by
    rw [isRoot, all, List.isEmpty_iff]
  refine ⟨fun plain plain' same => ?_, ?_, isRoot_iff⟩
  · have read : ofText? (path steps).text = some (path steps) :=
      ofText?_text fun step member => plain step (all steps ▸ member)
    have read' : ofText? (path steps').text = some (path steps') :=
      ofText?_text fun step member => plain' step (all steps' ▸ member)
    rw [same, read'] at read
    rw [← all steps, ← all steps', Option.some.inj read]
  · rw [isRoot_iff, text_eq_empty_iff, all]

/-- A name without characters, one with a bracket that is closed only, and one that lacks a
    parenthesis to be that of another step. -/
theorem text_leads_to_one_place_names :
    let path (steps : List PathStep) : Path := steps.foldl into root
    let steps : List PathStep := [.property "", .property "]*", .index 12, .property "(key", .key]
    let steps' : List PathStep := ["", "]*"].map .property ++ [.index 12, .property "(key", .key]
    (∀ step ∈ steps, step.IsPlain) ∧ (path steps).text = "..]*[12].(key.(key)" ∧
      (path steps').text = "..]*[12].(key.(key)" ∧ steps = steps' := by
  intro path steps steps'
  have plain : ∀ step ∈ steps, step.IsPlain := by
    simp [steps, PathStep.IsPlain, PathStep.IsPlainName]
  have written : (path steps).text = "..]*[12].(key.(key)" := by decide
  have written' : (path steps').text = "..]*[12].(key.(key)" := by decide
  exact ⟨plain, written, written',
    (text_leads_to_one_place steps steps').1 plain plain (written.trans written'.symm)⟩

end Path

end SchemaSampler
