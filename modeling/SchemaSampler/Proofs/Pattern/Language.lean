import SchemaSampler.Proofs.Random.Yields
import SchemaSampler.Random.Text

namespace SchemaSampler

/-!
# The language of a pattern — what is sampled from a pattern matches it

`Pattern.Spells` says which texts a pattern without anchors stands for.

* `yields_ofPattern` — a sampled text is one of them, if the pattern can be sampled at all.
* `isMatch_whole` — such a text as a whole is matched.  The matcher follows the patterns that the
  rest may still have to match, so what a pattern spells after a character has to be spelled by
  one of its successors (`exists_after`).
-/

namespace CharSet

variable {s t : CharSet} {c : Char}

/-- Each range of the first set lies inside a range of the second. -/
def Within (s t : CharSet) : Prop := ∀ r ∈ s.ranges, ∃ q ∈ t.ranges, q.1 ≤ r.1 ∧ r.2 ≤ q.2

instance (s t : CharSet) : Decidable (s.Within t) := by
  unfold Within
  infer_instance

/-- A set within another one has only characters of the other one. -/
theorem Within.has (h : s.Within t) (member : s.has c = true) : t.has c = true := by
  obtain ⟨r, hr, covered⟩ := List.any_eq_true.mp member
  obtain ⟨q, hq, low, high⟩ := h r hr
  refine List.any_eq_true.mpr ⟨q, hq, ?_⟩
  simp only [covers, Bool.and_eq_true, decide_eq_true_eq] at covered ⊢
  omega

/-- No range of the first set meets a range of the second. -/
def Apart (s t : CharSet) : Prop := ∀ r ∈ s.ranges, ∀ q ∈ t.ranges, r.2 < q.1 ∨ q.2 < r.1

instance (s t : CharSet) : Decidable (s.Apart t) := by
  unfold Apart
  infer_instance

/-- Sets that are apart have no character in common. -/
theorem Apart.has (h : s.Apart t) (member : s.has c = true) : t.has c = false := by
  obtain ⟨r, hr, covered⟩ := List.any_eq_true.mp member
  rw [← Bool.not_eq_true]
  intro other
  obtain ⟨q, hq, covered'⟩ := List.any_eq_true.mp other
  have := h r hr q hq
  simp only [covers, Bool.and_eq_true, decide_eq_true_eq] at covered covered'
  omega

/-- A set with ranges of characters only, which are not empty. -/
def Inhabited (s : CharSet) : Prop :=
  s.ranges ≠ [] ∧ ∀ r ∈ s.ranges, r.1 ≤ r.2 ∧ (r.2 < 0xd800 ∨ 0xdfff < r.1 ∧ r.2 < 0x110000)

instance (s : CharSet) : Decidable s.Inhabited := by
  unfold Inhabited
  infer_instance

end CharSet

namespace Pattern

/-- The texts that a pattern without anchors stands for. -/
inductive Spells : Pattern → List Char → Prop where
  | empty : Spells empty []
  | one {set : CharSet} {c : Char} (h : set.has c = true) : Spells (one set) [c]
  | seq {p q : Pattern} {a b : List Char} (first : Spells p a) (second : Spells q b) :
      Spells (seq p q) (a ++ b)
  | left {p q : Pattern} {a : List Char} (h : Spells p a) : Spells (alt p q) a
  | right {p q : Pattern} {a : List Char} (h : Spells q a) : Spells (alt p q) a
  | done {p : Pattern} {max : Option Nat} : Spells (times p 0 max) []
  | more {p : Pattern} {min : Nat} {max : Option Nat} {a b : List Char} (room : max ≠ some 0)
      (head : Spells p a) (tail : Spells (times p (min - 1) (max.map (· - 1))) b) :
      Spells (times p min max) (a ++ b)

variable {p q : Pattern} {a b s : List Char} {min : Nat} {max : Option Nat} {set : CharSet}

/-- A repetition stands for the texts put together of pieces of the right number. -/
theorem spells_times_iff :
    Spells (times p min max) s ↔ ∃ pieces : List (List Char), s = pieces.flatten ∧
      (∀ a ∈ pieces, p.Spells a) ∧ min ≤ pieces.length ∧ ∀ m ∈ max, pieces.length ≤ m := by
  constructor
  · intro h
    generalize hp : times p min max = r at h
    induction h generalizing min max with
    | done =>
      cases hp
      exact ⟨[], rfl, by simp, Nat.le_refl 0, fun _ _ => Nat.zero_le _⟩
    | @more p' min' max' a b room head _ _ ih =>
      cases hp
      obtain ⟨pieces, rfl, each, enough, few⟩ := ih rfl
      refine ⟨a :: pieces, rfl, ?_, ?_, ?_⟩
      · intro piece member
        rcases List.mem_cons.mp member with rfl | member
        · exact head
        · exact each piece member
      · rw [List.length_cons]
        omega
      · intro m hm
        obtain rfl : max' = some m := hm
        have := few (m - 1) rfl
        have positive : m ≠ 0 := fun zero => room (by rw [zero])
        rw [List.length_cons]
        omega
    | _ => cases hp
  · rintro ⟨pieces, rfl, each, enough, few⟩
    induction pieces generalizing min max with
    | nil =>
      obtain rfl := Nat.le_zero.mp enough
      exact .done
    | cons a rest ih =>
      rw [List.length_cons] at enough few
      refine .more ?_ (each a (by simp)) (ih (fun b member => each b (by simp [member])) ?_ ?_)
      · rintro rfl
        have := few 0 rfl
        omega
      · omega
      · intro m hm
        obtain ⟨m', rfl, rfl⟩ := Option.map_eq_some_iff.mp hm
        have := few m' rfl
        omega

/-- A repetition of one character of a set. -/
theorem spells_times_one_iff :
    Spells (times (one set) min max) s ↔
      (∀ c ∈ s, set.has c = true) ∧ min ≤ s.length ∧ ∀ m ∈ max, s.length ≤ m := by
  rw [spells_times_iff]
  constructor
  · rintro ⟨pieces, rfl, each, enough, few⟩
    have single : ∀ a ∈ pieces, ∃ c, a = [c] ∧ set.has c = true := by
      intro a member
      cases each a member with
      | one h => exact ⟨_, rfl, h⟩
    have lengths : pieces.flatten.length = pieces.length := by
      clear each enough few
      induction pieces with
      | nil => rfl
      | cons a rest ih =>
        obtain ⟨c, rfl, _⟩ := single a (by simp)
        rw [List.flatten_cons, List.length_append, ih fun a member => single a (by simp [member])]
        simp [Nat.add_comm]
    rw [lengths]
    refine ⟨fun c member => ?_, enough, few⟩
    obtain ⟨a, ha, hc⟩ := List.mem_flatten.mp member
    obtain ⟨d, rfl, hd⟩ := single a ha
    rwa [List.mem_singleton.mp hc]
  · rintro ⟨each, enough, few⟩
    refine ⟨s.map fun c => [c], ?_, ?_, by simpa using enough, by simpa using few⟩
    · clear each enough few
      induction s with
      | nil => rfl
      | cons c rest ih =>
        rw [List.map_cons, List.flatten_cons, ← ih]
        rfl
    · intro a member
      obtain ⟨c, hc, rfl⟩ := List.mem_map.mp member
      exact .one (each c hc)

/-- The empty pattern matches the empty text. -/
theorem spells_empty_iff : Spells empty s ↔ s = [] := by
  constructor
  · rintro ⟨⟩
    rfl
  · rintro rfl
    exact .empty

/-- A sequence matches a text that splits in two. -/
theorem spells_seq_iff : Spells (seq p q) s ↔ ∃ a b, s = a ++ b ∧ p.Spells a ∧ q.Spells b := by
  constructor
  · intro h
    cases h with
    | seq first second => exact ⟨_, _, rfl, first, second⟩
  · rintro ⟨a, b, rfl, first, second⟩
    exact .seq first second

/-- A set of characters matches one of them. -/
theorem spells_one_iff : Spells (one set) s ↔ ∃ c, s = [c] ∧ set.has c = true := by
  constructor
  · intro h
    cases h with
    | one h => exact ⟨_, rfl, h⟩
  · rintro ⟨c, rfl, h⟩
    exact .one h

/-- The set of one character has no other. -/
theorem has_single {c d : Char} (h : (CharSet.single c).has d = true) : d = c := by
  simp only [CharSet.has, CharSet.single, CharSet.covers, List.any_cons, List.any_nil,
    Bool.or_false, Bool.and_eq_true, decide_eq_true_eq] at h
  exact Char.toNat_inj.mp (by omega)

/-- It has that one. -/
theorem has_single_self (c : Char) : (CharSet.single c).has c = true := by
  simp [CharSet.has, CharSet.single, CharSet.covers]

/-- A given text stands for itself. -/
theorem spells_text_iff {t : String} : (text t).Spells s ↔ s = t.toList := by
  unfold text
  induction t.toList generalizing s with
  | nil => exact spells_empty_iff
  | cons c rest ih =>
    rw [List.foldr_cons, spells_seq_iff]
    constructor
    · rintro ⟨a, b, rfl, first, second⟩
      obtain ⟨d, rfl, h⟩ := spells_one_iff.mp first
      rw [has_single h, ih.mp second]
      rfl
    · rintro rfl
      exact ⟨[c], rest, rfl, .one (has_single_self c), ih.mpr rfl⟩

/-- A chain of no patterns matches the empty text. -/
theorem spells_chain_nil : (chain []).Spells s ↔ s = [] := spells_empty_iff

/-- A chain of patterns matches a text that splits into a part for the first and one for the others.
    -/
theorem spells_chain_cons {ps : List Pattern} :
    (chain (p :: ps)).Spells s ↔ ∃ a b, s = a ++ b ∧ p.Spells a ∧ (chain ps).Spells b :=
  spells_seq_iff

/-! ### Sampling -/

/-- A pattern without anchors whose sets and repetitions leave something to choose. -/
def Samplable : Pattern → Prop
  | empty => True
  | atStart | atEnd => False
  | one set => set.Inhabited
  | seq p q | alt p q => Samplable p ∧ Samplable q
  | times p min max => Samplable p ∧ min ≤ max.getD min

instance decidableSamplable : (p : Pattern) → Decidable p.Samplable
  | empty => isTrue trivial
  | atStart | atEnd => isFalse id
  | one set => inferInstanceAs (Decidable set.Inhabited)
  | seq p q | alt p q =>
    have := decidableSamplable p
    have := decidableSamplable q
    inferInstanceAs (Decidable (_ ∧ _))
  | times p _ _ =>
    have := decidableSamplable p
    inferInstanceAs (Decidable (_ ∧ _))

/-- A valid code makes a character of that code. -/
theorem toNat_ofNat {n : Nat} (h : n.isValidChar) : (Char.ofNat n).toNat = n := by
  rw [Char.ofNat, dif_pos h]
  rfl

/-- A sampled character is in the set. -/
theorem yields_ofSet (h : set.Inhabited) : (Sampler.ofSet set).Yields fun c => set.has c = true := by
  obtain ⟨nonempty, valid⟩ := h
  obtain ⟨range, ranges, hranges⟩ := List.exists_cons_of_ne_nil nonempty
  simp only [Sampler.ofSet, hranges]
  refine (Sampler.yields_element range ranges).bind fun r hr => ?_
  rw [← hranges] at hr
  obtain ⟨ordered, characters⟩ := valid r hr
  refine (Sampler.yields_between ordered).bind fun n hn => Sampler.yields_pure ?_
  have isValid : n.isValidChar := by
    simp only [Nat.isValidChar]
    omega
  refine List.any_eq_true.mpr ⟨r, hr, ?_⟩
  rw [toNat_ofNat isValid]
  simp only [CharSet.covers, Bool.and_eq_true, decide_eq_true_eq]
  exact hn

/-- **Sampled texts are spelled by the pattern.** -/
theorem yields_ofPattern (h : p.Samplable) : (Sampler.ofPattern p).Yields p.Spells := by
  induction p with
  | empty => exact Sampler.yields_pure .empty
  | atStart | atEnd => exact h.elim
  | one set => exact (yields_ofSet h).bind fun c hc => Sampler.yields_pure (.one hc)
  | seq p q ihp ihq =>
    exact (ihp h.1).bind fun a ha => (ihq h.2).bind fun b hb => Sampler.yields_pure (.seq ha hb)
  | alt p q ihp ihq =>
    refine (Sampler.yields_upTo _).bind fun ticket _ => ?_
    split
    · exact (ihp h.1).imp fun _ => .left
    · exact (ihq h.2).imp fun _ => .right
  | times p min max ih =>
    have room : min ≤ max.getD (min + Sampler.unboundedExtra) := by
      have := h.2
      cases max <;> simp at this ⊢
      exact this
    refine (Sampler.yields_list (ih h.1) room).bind fun pieces hpieces => Sampler.yields_pure ?_
    obtain ⟨enough, few, each⟩ := hpieces
    refine spells_times_iff.mpr ⟨pieces, rfl, each, enough, ?_⟩
    rintro m ⟨⟩
    exact few

/-! ### Matching -/

/-- A pattern that matches the empty text is known to. -/
theorem nullable_of_spells (h : p.Spells []) (start stop : Bool) :
    p.nullable start stop = true := by
  generalize hs : ([] : List Char) = s at h
  induction h with
  | empty => rfl
  | one => cases hs
  | seq _ _ ihp ihq =>
    obtain ⟨rfl, rfl⟩ := List.append_eq_nil_iff.mp hs.symm
    simp [nullable, ihp rfl, ihq rfl]
  | left _ ih => simp [nullable, ih hs]
  | right _ ih => simp [nullable, ih hs]
  | done => simp [nullable]
  | more _ _ _ ih =>
    obtain ⟨rfl, rfl⟩ := List.append_eq_nil_iff.mp hs.symm
    simp [nullable, ih rfl]

/-- What is left of a pattern in front of another one. -/
def andThen (p q : Pattern) : Pattern := if p = empty then q else seq p q

/-- The shortcuts in putting patterns together do not change what is matched. -/
theorem spells_andThen_iff : (andThen p q).Spells s ↔ (seq p q).Spells s := by
  unfold andThen
  split
  · rename_i hp
    subst hp
    rw [spells_seq_iff]
    constructor
    · exact fun h => ⟨[], s, rfl, .empty, h⟩
    · rintro ⟨a, b, rfl, first, second⟩
      rw [spells_empty_iff.mp first]
      exact second
  · rfl

/-- The first piece that is not empty begins with the first character. -/
theorem exists_first_piece {pieces : List (List Char)} {c : Char} (h : pieces.flatten = c :: s) :
    ∃ k a rest, pieces = List.replicate k [] ++ (c :: a) :: rest ∧ s = a ++ rest.flatten := by
  induction pieces with
  | nil => cases h
  | cons piece rest ih =>
    rw [List.flatten_cons] at h
    cases piece with
    | nil =>
      obtain ⟨k, a, rest', rfl, rfl⟩ := ih h
      exact ⟨k + 1, a, rest', rfl, rfl⟩
    | cons d a =>
      obtain ⟨rfl, rfl⟩ := List.cons.inj h
      exact ⟨0, a, rest, rfl, rfl⟩

/-- What a pattern spells after a character is spelled by one of its successors. -/
theorem exists_after {c : Char} (h : p.Spells (c :: s)) (start : Bool) :
    ∃ p' ∈ after start c p, p'.Spells s := by
  induction p generalizing s with
  | empty => cases spells_empty_iff.mp h
  | atStart | atEnd => cases h
  | one set =>
    obtain ⟨d, same, has⟩ := spells_one_iff.mp h
    cases same
    exact ⟨empty, by simp [after, has], .empty⟩
  | seq p q ihp ihq =>
    obtain ⟨a, b, same, first, second⟩ := spells_seq_iff.mp h
    cases a with
    | nil =>
      obtain rfl : c :: s = b := same
      obtain ⟨p', member, spelled⟩ := ihq second
      exact ⟨p', by simp [after, nullable_of_spells first, member], spelled⟩
    | cons d a =>
      obtain ⟨rfl, rfl⟩ := List.cons.inj same
      obtain ⟨p', member, spelled⟩ := ihp first
      refine ⟨andThen p' q, ?_, spells_andThen_iff.mpr (.seq spelled second)⟩
      exact List.mem_append_left _ (List.mem_map.mpr ⟨p', member, rfl⟩)
  | alt p q ihp ihq =>
    cases h with
    | left h =>
      obtain ⟨p', member, spelled⟩ := ihp h
      exact ⟨p', List.mem_append_left _ member, spelled⟩
    | right h =>
      obtain ⟨p', member, spelled⟩ := ihq h
      exact ⟨p', List.mem_append_right _ member, spelled⟩
  | times p min max ih =>
    obtain ⟨pieces, same, each, enough, few⟩ := spells_times_iff.mp h
    obtain ⟨k, a, rest, rfl, rfl⟩ := exists_first_piece same.symm
    obtain ⟨p', member, spelled⟩ := ih (each (c :: a) (by simp))
    rw [List.length_append, List.length_replicate, List.length_cons] at enough few
    have room : max ≠ some 0 := by
      rintro rfl
      have := few 0 rfl
      omega
    -- Only a piece that may be empty can have come up empty before the character.
    have remaining : (if p.nullable start false then 0 else min - 1) ≤ rest.length := by
      by_cases may_be_empty : p.nullable start false = true
      · rw [if_pos may_be_empty]
        exact Nat.zero_le _
      · have none_empty : k = 0 := by
          cases k with
          | zero => rfl
          | succ k => exact absurd (nullable_of_spells (each [] (by simp)) _ _) may_be_empty
        rw [if_neg may_be_empty]
        omega
    have rest_spelled : (times p (if p.nullable start false then 0 else min - 1)
        (max.map (· - 1))).Spells rest.flatten := by
      refine spells_times_iff.mpr ⟨rest, rfl, fun b hb => each b (by simp [hb]), remaining, ?_⟩
      intro m hm
      obtain ⟨m', rfl, rfl⟩ := Option.map_eq_some_iff.mp hm
      have := few m' rfl
      omega
    refine ⟨_, ?_, spells_andThen_iff.mpr (.seq spelled rest_spelled)⟩
    simp only [after, if_neg room]
    exact List.mem_map.mpr ⟨p', member, rfl⟩

/-- The end of the text, which a pattern that covers the whole text has to reach. -/
def toEnd : Pattern := seq atEnd empty

/-- The patterns followed through a text reach its end if one of them spells the rest. -/
theorem begins_of_spells {ps : List Pattern} (h : p.Spells s) (member : andThen p toEnd ∈ ps)
    (start : Bool) : begins start ps s = true := by
  induction s generalizing p ps start with
  | nil =>
    refine List.any_eq_true.mpr ⟨_, member, ?_⟩
    unfold andThen toEnd
    split <;> simp [nullable, nullable_of_spells h]
  | cons c s ih =>
    obtain ⟨p', hafter, spelled⟩ := exists_after h start
    have successor : andThen p' toEnd ∈ (ps.flatMap (after start c)).eraseDups := by
      refine List.mem_eraseDups.mpr (List.mem_flatMap.mpr ⟨_, member, ?_⟩)
      have not_empty : p ≠ empty := by
        rintro rfl
        cases spells_empty_iff.mp h
      rw [andThen, if_neg not_empty]
      exact List.mem_append_left _ (List.mem_map.mpr ⟨p', hafter, rfl⟩)
    rw [begins, ih spelled successor, Bool.and_true, Bool.or_eq_true, Bool.not_eq_true']
    exact .inr (List.isEmpty_eq_false_iff_exists_mem.mpr ⟨_, member⟩)

/-- **Texts that a pattern spells are matched as a whole.** -/
theorem isMatch_whole {text : String} (h : p.Spells text.toList) : p.whole.isMatch text = true := by
  have begins_here : begins true [p.whole] text.toList = true := by
    generalize text.toList = s at h
    cases s with
    | nil =>
      simp [begins, whole, chain, nullable, nullable_of_spells h]
    | cons c s =>
      obtain ⟨p', hafter, spelled⟩ := exists_after h true
      have successor : andThen p' toEnd ∈
          ([p.whole].flatMap (after true c)).eraseDups := by
        refine List.mem_eraseDups.mpr (List.mem_flatMap.mpr ⟨_, List.mem_singleton.mpr rfl, ?_⟩)
        simp only [whole, chain, List.foldr_cons, List.foldr_nil, after, List.map_nil, nullable,
          if_true, List.nil_append]
        exact List.mem_append_left _ (List.mem_map.mpr ⟨p', hafter, rfl⟩)
      rw [begins, begins_of_spells spelled successor]
      simp
  unfold isMatch
  cases htext : text.toList with
  | nil => rwa [htext] at begins_here
  | cons c s =>
    rw [htext] at begins_here
    rw [search, begins_here, Bool.true_or]

end Pattern

end SchemaSampler
