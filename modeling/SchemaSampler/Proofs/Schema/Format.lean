import SchemaSampler.Proofs.Pattern.Language
import SchemaSampler.Strategy.FormatSampler

namespace SchemaSampler.Format

/-!
# Texts of formats — sampled texts have the format

The formats that are given by a pattern are sampled from a narrower pattern.  For each of them
what the narrower pattern spells is spelled by the wider one, and an e-mail address moreover has
no two points in a row.
-/

open CharSet Pattern

variable {s : List Char}

theorem samplable_uuidPattern : uuidPattern.Samplable := by decide

theorem samplable_ulidPattern : ulidPattern.Samplable := by decide

theorem samplable_cuidShape : cuidShape.Samplable := by decide

theorem samplable_cuid2Shape : cuid2Shape.Samplable := by decide

theorem samplable_emailShape : emailShape.Samplable := by decide

theorem samplable_urlShape : urlShape.Samplable := by decide

/-! ### Identifiers -/

/-- What is generated has no blanks and no dashes after the first letter, as the pattern asks. -/
theorem spells_cuidPattern (h : cuidShape.Spells s) : cuidPattern.Spells s := by
  obtain ⟨_, b, rfl, hc, rest⟩ := spells_chain_cons.mp h
  obtain ⟨a, _, rfl, digits, last⟩ := spells_chain_cons.mp rest
  obtain rfl := spells_chain_nil.mp last
  obtain ⟨each, enough, _⟩ := spells_times_one_iff.mp digits
  refine spells_chain_cons.mpr ⟨_, _, rfl, hc, spells_chain_cons.mpr ⟨_, _, rfl, ?_, .empty⟩⟩
  refine spells_times_one_iff.mpr ⟨fun c member => ?_, by omega, by simp⟩
  have apart : (digit.union small).Apart (blank.union (.single '-')) := by decide
  rw [has_complement, apart.has (each c member)]
  rfl

/-- What is generated for the second version has small letters and digits only. -/
theorem spells_cuid2Pattern (h : cuid2Shape.Spells s) : cuid2Pattern.Spells s := by
  obtain ⟨_, b, rfl, first, rest⟩ := spells_chain_cons.mp h
  obtain ⟨a, _, rfl, digits, last⟩ := spells_chain_cons.mp rest
  obtain rfl := spells_chain_nil.mp last
  obtain ⟨c, rfl, letter⟩ := spells_one_iff.mp first
  obtain ⟨each, _, _⟩ := spells_times_one_iff.mp digits
  refine spells_times_one_iff.mpr ⟨fun d member => ?_, by simp, by simp⟩
  have within : small.Within (digit.union small) := by decide
  rw [List.append_nil, List.singleton_append, List.mem_cons] at member
  rcases member with rfl | member
  · exact within.has letter
  · exact each d member

/-! ### E-mail addresses -/

/-- The characters of a local part other than points. -/
def localSet : CharSet := lowerAlphanumeric.union (.ofList ['_', '+', '-'])

/-- A text without points. -/
def Pointless (s : List Char) : Prop := '.' ∉ s

/-- Texts over a set of characters without the point have none. -/
theorem pointless_of_has {S : CharSet} (lacks : S.has '.' = false)
    (each : ∀ c ∈ s, S.has c = true) : Pointless s := by
  intro member
  rw [each '.' member] at lacks
  cases lacks

/-- Characters other than the point at the start do not matter. -/
theorem hasDoublePoint_append {a b : List Char} (h : Pointless a) :
    hasDoublePoint (a ++ b) = hasDoublePoint b := by
  induction a with
  | nil => rfl
  | cons c a ih =>
    have other : c ≠ '.' := fun same => h (by simp [same])
    have rest : Pointless a := fun member => h (by simp [member])
    rw [List.cons_append, hasDoublePoint]
    · exact ih rest
    · intro tail same
      exact absurd same other

/-- A point that another character follows is not a double one. -/
theorem hasDoublePoint_point {c : Char} (other : c ≠ '.') (s : List Char) :
    hasDoublePoint ('.' :: c :: s) = hasDoublePoint (c :: s) := by
  rw [hasDoublePoint]
  intro _ _ same
  exact other (List.cons.inj same).1

/-- A label of a host name with the point behind it. -/
structure IsLabel (s : List Char) : Prop where
  /-- The label, which begins with a letter or digit. -/
  split : ∃ c a, s = c :: a ++ ['.'] ∧ lowerAlphanumeric.has c = true ∧
    ∀ d ∈ a, labelSet.has d = true

/-- A label matches the part of the pattern for what stands before a point. -/
theorem IsLabel.spells (h : IsLabel s) : (chain [one alphanumeric,
    atLeast 0 (one (alphanumeric.union (.single '-'))), text "."]).Spells s := by
  obtain ⟨c, a, rfl, first, rest⟩ := h.split
  have start : lowerAlphanumeric.Within alphanumeric := by decide
  have inside : labelSet.Within (alphanumeric.union (.single '-')) := by decide
  refine spells_chain_cons.mpr ⟨[c], a ++ ['.'], rfl, .one (start.has first), ?_⟩
  refine spells_chain_cons.mpr ⟨a, ['.'], rfl, spells_times_one_iff.mpr ⟨?_, by simp, by simp⟩, ?_⟩
  · exact fun d member => inside.has (rest d member)
  · exact spells_chain_cons.mpr ⟨['.'], [], rfl, spells_text_iff.mpr rfl, .empty⟩

/-- A label in front of something that has no points in a row and begins with none. -/
theorem IsLabel.hasDoublePoint (h : IsLabel s) {c : Char} (other : c ≠ '.') (b : List Char) :
    Format.hasDoublePoint (s ++ c :: b) = Format.hasDoublePoint (c :: b) := by
  obtain ⟨d, a, rfl, first, rest⟩ := h.split
  have pointless : Pointless (d :: a) := by
    refine pointless_of_has (S := labelSet) (by decide) fun e member => ?_
    rcases List.mem_cons.mp member with rfl | member
    · exact (by decide : lowerAlphanumeric.Within labelSet).has first
    · exact rest e member
  rw [List.append_assoc, hasDoublePoint_append pointless]
  exact hasDoublePoint_point other b

/-- The pattern of a label of a host name with the point behind it. -/
def labelShape : List Pattern := [one lowerAlphanumeric, between 0 10 (one labelSet), text "."]

/-- What is generated for a label is one. -/
theorem isLabel_of_spells (h : (chain labelShape).Spells s) : IsLabel s := by
  obtain ⟨_, _, rfl, first, h⟩ := spells_chain_cons.mp h
  obtain ⟨a, _, rfl, rest, h⟩ := spells_chain_cons.mp h
  obtain ⟨_, _, rfl, point, h⟩ := spells_chain_cons.mp h
  obtain rfl := spells_chain_nil.mp h
  obtain rfl := spells_text_iff.mp point
  obtain ⟨c, rfl, letter⟩ := spells_one_iff.mp first
  exact ⟨c, a, rfl, letter, (spells_times_one_iff.mp rest).1⟩

/-- The parts of a sampled e-mail address: a local part, labels, and a last label of letters. -/
structure EmailParts (s : List Char) : Prop where
  /-- The parts. -/
  split : ∃ c name labels last, s = (c :: name) ++ '@' :: (labels.flatten ++ last) ∧
    lowerAlphanumeric.has c = true ∧ (∀ d ∈ c :: name, localSet.has d = true) ∧ labels ≠ [] ∧
    (∀ l ∈ labels, IsLabel l) ∧ (∀ d ∈ last, small.has d = true) ∧ 2 ≤ last.length

/-- An address is generated from a local part, labels and a last label. -/
theorem emailParts_of_spells (h : emailShape.Spells s) : EmailParts s := by
  obtain ⟨_, _, rfl, first, h⟩ := spells_chain_cons.mp h
  obtain ⟨name, _, rfl, rest, h⟩ := spells_chain_cons.mp h
  obtain ⟨_, _, rfl, at_sign, h⟩ := spells_chain_cons.mp h
  obtain ⟨l, _, rfl, start, h⟩ := spells_chain_cons.mp h
  obtain ⟨l', _, rfl, inside, h⟩ := spells_chain_cons.mp h
  obtain ⟨l'', _, rfl, point, h⟩ := spells_chain_cons.mp h
  obtain ⟨_, _, rfl, further, h⟩ := spells_chain_cons.mp h
  obtain ⟨last, _, rfl, ending, h⟩ := spells_chain_cons.mp h
  obtain rfl := spells_chain_nil.mp h
  obtain ⟨c, rfl, letter⟩ := spells_one_iff.mp first
  obtain rfl := spells_text_iff.mp at_sign
  have label := isLabel_of_spells (spells_chain_cons.mpr ⟨_, _, rfl, start,
    spells_chain_cons.mpr ⟨_, _, rfl, inside, spells_chain_cons.mpr ⟨_, _, rfl, point, .empty⟩⟩⟩)
  obtain ⟨pieces, rfl, each, _, _⟩ := spells_times_iff.mp further
  obtain ⟨letters, enough, _⟩ := spells_times_one_iff.mp ending
  refine ⟨c, name, (l ++ (l' ++ (l'' ++ []))) :: pieces, last, ?_, letter, ?_, by simp, ?_,
    letters, enough⟩
  · simp [List.append_assoc]
  · intro d member
    rcases List.mem_cons.mp member with rfl | member
    · exact (by decide : lowerAlphanumeric.Within localSet).has letter
    · exact (spells_times_one_iff.mp rest).1 d member
  · intro l member
    rcases List.mem_cons.mp member with rfl | member
    · exact label
    · exact isLabel_of_spells (each l member)

/-- Labels end in one point each and go on with a letter or a digit. -/
theorem hasDoublePoint_labels {labels : List (List Char)} {last : List Char}
    (each : ∀ l ∈ labels, IsLabel l) (letters : ∀ d ∈ last, small.has d = true)
    (enough : 2 ≤ last.length) : hasDoublePoint (labels.flatten ++ last) = false := by
  have last_alone : hasDoublePoint last = false := by
    have := hasDoublePoint_append (b := []) (pointless_of_has (S := small) (by decide) letters)
    rwa [List.append_nil] at this
  induction labels with
  | nil => exact last_alone
  | cons label rest ih =>
    rw [List.flatten_cons, List.append_assoc]
    have later := ih fun l member => each l (by simp [member])
    -- What follows a label begins with another label or with the last one.
    obtain ⟨c, b, follows, other⟩ : ∃ c b, rest.flatten ++ last = c :: b ∧ c ≠ '.' := by
      cases rest with
      | nil =>
        cases last with
        | nil => cases enough
        | cons c b =>
          refine ⟨c, b, rfl, ?_⟩
          rintro rfl
          cases letters '.' (by simp)
      | cons next rest =>
        obtain ⟨c, a, rfl, start, _⟩ := (each next (by simp)).split
        refine ⟨c, _, rfl, ?_⟩
        rintro rfl
        cases start
    rw [follows, (each label (by simp)).hasDoublePoint other, ← follows]
    exact later

/-- So a generated address has no two points in a row, which the format forbids. -/
theorem EmailParts.pointed (h : EmailParts s) : hasDoublePoint s = false := by
  obtain ⟨c, name, labels, last, rfl, _, characters, _, each, letters, enough⟩ := h.split
  have pointless : Pointless (c :: name ++ ['@']) := by
    refine pointless_of_has (S := localSet.union (.single '@')) (by decide) fun d member => ?_
    rw [has_union, Bool.or_eq_true]
    rcases List.mem_append.mp member with member | member
    · exact .inl (characters d member)
    · rw [List.mem_singleton.mp member]
      exact .inr rfl
  have split : c :: name ++ '@' :: (labels.flatten ++ last) =
      (c :: name ++ ['@']) ++ (labels.flatten ++ last) := by simp
  rw [split, hasDoublePoint_append pointless]
  exact hasDoublePoint_labels each letters enough

/-- A generated address matches the pattern of the format. -/
theorem EmailParts.spells (h : EmailParts s) : emailPattern.Spells s := by
  obtain ⟨c, name, labels, last, rfl, _, characters, nonempty, each, letters, enough⟩ := h.split
  have ending : localSet.Within (alphanumeric.union (.ofList ['_', '+', '-'])) := by decide
  have inside : localSet.Within
    ((alphanumeric.union (.ofList ['_', '+', '-'])).union (.ofList ['\'', '.'])) := by decide
  obtain ⟨front, back, hname⟩ : ∃ front back, c :: name = front ++ [back] :=
    ⟨_, _, (List.dropLast_concat_getLast (List.cons_ne_nil c name)).symm⟩
  rw [hname] at characters ⊢
  rw [List.append_assoc]
  refine spells_chain_cons.mpr ⟨front, _, rfl, spells_times_one_iff.mpr ⟨?_, by simp, by simp⟩, ?_⟩
  · exact fun d member => inside.has (characters d (by simp [member]))
  refine spells_chain_cons.mpr ⟨[back], _, rfl, .one (ending.has (characters back (by simp))), ?_⟩
  refine spells_chain_cons.mpr ⟨['@'], _, rfl, spells_text_iff.mpr rfl, ?_⟩
  refine spells_chain_cons.mpr ⟨labels.flatten, last, rfl, spells_times_iff.mpr ⟨labels, rfl,
    fun l member => (each l member).spells, List.length_pos_iff.mpr nonempty, by simp⟩, ?_⟩
  refine spells_chain_cons.mpr ⟨last, [], by simp, spells_times_one_iff.mpr
    ⟨fun d member => ?_, enough, by simp⟩, .empty⟩
  exact (by decide : small.Within letter).has (letters d member)

/-! ### Web addresses -/

/-- The characters of a sampled host. -/
def hostSet : CharSet := labelSet.union (.single '.')

/-- The characters of a sampled path. -/
def pathSet : CharSet := (alphanumeric.union (.ofList ['_', '-'])).union (.single '/')

/-- The parts of a sampled web address: an `s` or none, a host, and a path that may be missing. -/
structure UrlParts (s : List Char) : Prop where
  /-- The parts. -/
  split : ∃ secure host path, s = 'h' :: (['t', 't', 'p'] ++ secure) ++
      ([':', '/', '/'] ++ (host ++ path)) ∧ (∀ c ∈ secure, c = 's') ∧ host ≠ [] ∧
    (∀ c ∈ host, hostSet.has c = true) ∧ (∀ c ∈ path, pathSet.has c = true) ∧
    ∀ c rest, path = c :: rest → c = '/'

/-- Characters of labels may stand in a host. -/
theorem has_host_of_label {c : Char} (h : labelSet.has c = true) : hostSet.has c = true := by
  rw [hostSet, has_union, h, Bool.true_or]

/-- Small letters may stand in a label. -/
theorem has_label_of_small {c : Char} (h : small.has c = true) : labelSet.has c = true :=
  (by decide : small.Within labelSet).has h

/-- The characters of one more label of a host, with the point in front of it. -/
theorem has_host_of_label_spells
    (h : (chain [text ".", one small, between 0 10 (one labelSet)]).Spells s) :
    ∀ c ∈ s, hostSet.has c = true := by
  obtain ⟨_, _, rfl, point, h⟩ := spells_chain_cons.mp h
  obtain ⟨_, _, rfl, first, h⟩ := spells_chain_cons.mp h
  obtain ⟨a, _, rfl, rest, h⟩ := spells_chain_cons.mp h
  obtain rfl := spells_chain_nil.mp h
  obtain rfl := spells_text_iff.mp point
  obtain ⟨d, rfl, letter⟩ := spells_one_iff.mp first
  intro c member
  have cases_of : c = '.' ∨ c = d ∨ c ∈ a := by simpa using member
  rcases cases_of with rfl | rfl | member
  · decide
  · exact has_host_of_label (has_label_of_small letter)
  · exact has_host_of_label ((spells_times_one_iff.mp rest).1 c member)

/-- The characters of one step of a path, with the stroke in front of it. -/
theorem path_of_step_spells
    (h : (chain [text "/", between 0 10 (one (alphanumeric.union (.ofList ['_', '-'])))]).Spells s) :
    (∀ c ∈ s, pathSet.has c = true) ∧ ∃ rest, s = '/' :: rest := by
  obtain ⟨_, _, rfl, stroke, h⟩ := spells_chain_cons.mp h
  obtain ⟨a, _, rfl, rest, h⟩ := spells_chain_cons.mp h
  obtain rfl := spells_chain_nil.mp h
  obtain rfl := spells_text_iff.mp stroke
  refine ⟨fun c member => ?_, _, rfl⟩
  have cases_of : c = '/' ∨ c ∈ a := by simpa using member
  rcases cases_of with rfl | member
  · decide
  · rw [pathSet, has_union, (spells_times_one_iff.mp rest).1 c member, Bool.true_or]

/-- An address on the web is generated from a scheme, a host and a path. -/
theorem urlParts_of_spells (h : urlShape.Spells s) : UrlParts s := by
  obtain ⟨_, _, rfl, http, h⟩ := spells_chain_cons.mp h
  obtain ⟨_, _, rfl, secure, h⟩ := spells_chain_cons.mp h
  obtain ⟨_, _, rfl, slashes, h⟩ := spells_chain_cons.mp h
  obtain ⟨_, _, rfl, first, h⟩ := spells_chain_cons.mp h
  obtain ⟨name, _, rfl, rest, h⟩ := spells_chain_cons.mp h
  obtain ⟨_, _, rfl, further, h⟩ := spells_chain_cons.mp h
  obtain ⟨_, _, rfl, point, h⟩ := spells_chain_cons.mp h
  obtain ⟨last, _, rfl, ending, h⟩ := spells_chain_cons.mp h
  obtain ⟨_, _, rfl, path, h⟩ := spells_chain_cons.mp h
  obtain rfl := spells_chain_nil.mp h
  obtain rfl := spells_text_iff.mp http
  obtain rfl := spells_text_iff.mp slashes
  obtain rfl := spells_text_iff.mp point
  obtain ⟨c, rfl, letter⟩ := spells_one_iff.mp first
  obtain ⟨marks, rfl, each_mark, _, _⟩ := spells_times_iff.mp secure
  obtain ⟨labels, rfl, each_label, _, _⟩ := spells_times_iff.mp further
  obtain ⟨steps, rfl, each_step, _, _⟩ := spells_times_iff.mp path
  refine ⟨marks.flatten, c :: (name ++ labels.flatten ++ '.' :: last), steps.flatten, ?_, ?_,
    by simp, ?_, ?_, ?_⟩
  · simp [List.append_assoc]
  · intro d member
    obtain ⟨mark, hmark, member⟩ := List.mem_flatten.mp member
    obtain rfl := spells_text_iff.mp (each_mark mark hmark)
    simpa using member
  · intro d member
    have cases_of : d = c ∨ d ∈ name ∨ d ∈ labels.flatten ∨ d = '.' ∨ d ∈ last := by
      simpa using member
    rcases cases_of with rfl | member | member | rfl | member
    · exact has_host_of_label (has_label_of_small letter)
    · exact has_host_of_label ((spells_times_one_iff.mp rest).1 d member)
    · obtain ⟨label, hlabel, member⟩ := List.mem_flatten.mp member
      exact has_host_of_label_spells (each_label label hlabel) d member
    · decide
    · exact has_host_of_label (has_label_of_small ((spells_times_one_iff.mp ending).1 d member))
  · intro d member
    obtain ⟨step, hstep, member⟩ := List.mem_flatten.mp member
    exact (path_of_step_spells (each_step step hstep)).1 d member
  · intro d tail same
    cases steps with
    | nil => cases same
    | cons step steps =>
      obtain ⟨_, begins, rfl⟩ := path_of_step_spells (each_step step (by simp))
      exact (List.cons.inj same).1.symm

/-- It matches the pattern of the format. -/
theorem UrlParts.spells (h : UrlParts s) : urlPattern.Spells s := by
  obtain ⟨secure, host, path, rfl, marks, nonempty, hosts, paths, stroke⟩ := h.split
  have host_apart : hostSet.Apart (blank.union (.ofList ['/', '?', '#'])) := by decide
  have path_apart : pathSet.Apart blank := by decide
  refine spells_chain_cons.mpr ⟨['h'], _, rfl, .one (by decide), ?_⟩
  refine spells_chain_cons.mpr ⟨['t', 't', 'p'] ++ secure, _, rfl,
    spells_times_one_iff.mpr ⟨fun c member => ?_, by simp, by simp⟩, ?_⟩
  · have cases_of : c = 't' ∨ c = 'p' ∨ c = 's' := by
      rcases List.mem_append.mp member with member | member
      · simp only [List.mem_cons, List.not_mem_nil, or_false, or_self_left] at member
        rcases member with rfl | rfl
        · exact .inl rfl
        · exact .inr (.inl rfl)
      · exact .inr (.inr (marks c member))
    rcases cases_of with rfl | rfl | rfl <;> decide
  refine spells_chain_cons.mpr ⟨[':', '/', '/'], _, rfl, spells_text_iff.mpr rfl, ?_⟩
  refine spells_chain_cons.mpr ⟨host, path, rfl, spells_times_one_iff.mpr ⟨fun c member => ?_,
    List.length_pos_iff.mpr nonempty, by simp⟩, ?_⟩
  · rw [has_complement, host_apart.has (hosts c member)]
    rfl
  refine spells_chain_cons.mpr ⟨path, [], by simp, ?_, .empty⟩
  cases path with
  | nil => exact spells_times_iff.mpr ⟨[], rfl, by simp, by simp, by simp⟩
  | cons c rest =>
    obtain rfl := stroke c rest rfl
    refine spells_times_iff.mpr ⟨['/' :: rest], by simp, fun a member => ?_, by simp, by simp⟩
    obtain rfl := List.mem_singleton.mp member
    refine spells_chain_cons.mpr ⟨['/'], rest, rfl, .one (by decide), ?_⟩
    refine spells_chain_cons.mpr ⟨rest, [], by simp, spells_times_one_iff.mpr
      ⟨fun d member => ?_, by simp, by simp⟩, .empty⟩
    rw [has_complement, path_apart.has (paths d (by simp [member]))]
    rfl

end SchemaSampler.Format
