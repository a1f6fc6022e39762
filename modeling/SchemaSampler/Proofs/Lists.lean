import Mathlib.Data.List.Forall2
import Mathlib.Data.List.Perm.Basic

namespace SchemaSampler

/-!
# Lists — runs over lists and lists that correspond

* `mapM_eq_some_iff` — a run over a list that may have no result, element by element.
* `forall₂_of_mem_left`, `exists_of_mem_right`, `exists_of_mem_left` — what membership says about
  two lists that correspond; `forall₂_of_common` — two lists that correspond to one list.
* `rel_bind`, `rel_map`, `rel_mapM` — related runs have related results; `rel_none_iff`,
  `rel_some_iff` — what one of two related results says about the other; `rel_mapM_perm` — a run in
  another order.
* `foldlM_induction` — what each step of a run that may fail keeps, the run keeps;
  `exists_foldlM` — a run comes to an end if each step does.
* `findSome?_cons_eq_or`, `findSome?_flatMap` — the first result along a list that is put together.
* `nodup_eraseDups` — a list without its repetitions.
-/

variable {α β γ : Type}

/-- A run over a list ends when it ends at every element. -/
theorem mapM_eq_some_iff {f : α → Option β} {as : List α} {bs : List β} :
    as.mapM f = some bs ↔ List.Forall₂ (fun a b => f a = some b) as bs := by
  induction as generalizing bs with
  | nil =>
    rw [List.mapM_nil]
    constructor
    · rintro ⟨⟩
      exact .nil
    · rintro ⟨⟩
      rfl
  | cons a as ih =>
    rw [List.mapM_cons]
    constructor
    · intro h
      obtain ⟨b, hb, h⟩ := Option.bind_eq_some_iff.mp h
      obtain ⟨rest, hrest, h⟩ := Option.bind_eq_some_iff.mp h
      cases h
      exact .cons hb (ih.mp hrest)
    · rintro ⟨⟩
      rename_i b rest hb hrest
      rw [hb, ih.mpr hrest]
      rfl

/-- What holds at every element with its position holds at every element with some position. -/
theorem forall₂_of_zipIdx {R : α × Nat → β → Prop} {as : List α} {bs : List β} {start : Nat}
    (h : List.Forall₂ R (as.zipIdx start) bs) :
    List.Forall₂ (fun a b => ∃ i, R (a, i) b) as bs := by
  induction as generalizing bs start with
  | nil =>
    cases h
    exact .nil
  | cons a as ih =>
    rw [List.zipIdx_cons] at h
    cases h with
    | cons head tail => exact .cons ⟨start, head⟩ (ih tail)

/-- What holds at every element with any position holds at every element with its position. -/
theorem forall₂_zipIdx {R : α × Nat → β → Prop} {as : List α} {bs : List β} {start : Nat}
    (h : List.Forall₂ (fun a b => ∀ i, R (a, i) b) as bs) :
    List.Forall₂ R (as.zipIdx start) bs := by
  induction h generalizing start with
  | nil => exact .nil
  | cons head _ ih =>
    rw [List.zipIdx_cons]
    exact .cons (head start) ih

/-- A run over a list ends if it ends at each element. -/
theorem isSome_mapM {f : α → Option β} {as : List α} (h : ∀ a ∈ as, (f a).isSome) :
    (as.mapM f).isSome := by
  induction as with
  | nil => rfl
  | cons a as ih =>
    obtain ⟨b, hb⟩ := Option.isSome_iff_exists.mp (h a (by simp))
    obtain ⟨bs, hbs⟩ := Option.isSome_iff_exists.mp (ih fun a' ha => h a' (by simp [ha]))
    rw [List.mapM_cons, hb, hbs]
    rfl

/-- Each result of a run over a list is related to the element it came from. -/
theorem forall₂_of_mapM {f : α → Option β} {R : α → γ → Prop} {S : β → γ → Prop} {as : List α}
    {bs : List β} {cs : List γ} (run : as.mapM f = some bs) (h : List.Forall₂ R as cs)
    (step : ∀ a b c, f a = some b → R a c → S b c) : List.Forall₂ S bs cs := by
  rw [mapM_eq_some_iff] at run
  induction h generalizing bs with
  | nil =>
    cases run
    exact .nil
  | cons hc _ ih =>
    cases run with
    | cons hb rest => exact .cons (step _ _ _ hb hc) (ih rest)

/-- What follows from a relation for the elements of the first list. -/
theorem forall₂_of_mem_left {R S : α → β → Prop} {as : List α} {bs : List β}
    (h : List.Forall₂ R as bs) (step : ∀ a b, a ∈ as → R a b → S a b) : List.Forall₂ S as bs := by
  induction h with
  | nil => exact .nil
  | cons head _ ih =>
    exact .cons (step _ _ (by simp) head) (ih fun a b member => step a b (by simp [member]))

/-- Each element of the second list belongs to one of the first. -/
theorem exists_of_mem_right {R : α → β → Prop} {as : List α} {bs : List β}
    (h : List.Forall₂ R as bs) {b : β} (member : b ∈ bs) : ∃ a ∈ as, R a b := by
  induction h with
  | nil => simp at member
  | cons head _ ih =>
    rcases List.mem_cons.mp member with rfl | member
    · exact ⟨_, by simp, head⟩
    · obtain ⟨a, ha, related⟩ := ih member
      exact ⟨a, by simp [ha], related⟩

/-- Each element of the first list belongs to one of the second. -/
theorem exists_of_mem_left {R : α → β → Prop} {as : List α} {bs : List β}
    (h : List.Forall₂ R as bs) {a : α} (member : a ∈ as) : ∃ b ∈ bs, R a b :=
  exists_of_mem_right h.flip member

/-- Lists whose corresponding elements have one image have the same images. -/
theorem map_eq_map {f : α → γ} {g : β → γ} {as : List α} {bs : List β}
    (h : List.Forall₂ (fun a b => g b = f a) as bs) : bs.map g = as.map f := by
  induction h with
  | nil => rfl
  | cons head _ ih => rw [List.map_cons, List.map_cons, head, ih]

/-- Lists that correspond to one list correspond to each other. -/
theorem forall₂_of_common {R : α → β → Prop} {S : α → γ → Prop} {T : β → γ → Prop} {as : List α}
    {bs : List β} {cs : List γ} (h : List.Forall₂ R as bs) (h' : List.Forall₂ S as cs)
    (step : ∀ a b c, a ∈ as → R a b → S a c → T b c) : List.Forall₂ T bs cs := by
  induction h generalizing cs with
  | nil =>
    cases h'
    exact .nil
  | cons head _ ih =>
    cases h' with
    | cons head' rest' =>
      exact .cons (step _ _ _ (by simp) head head')
        (ih rest' fun a b c member => step a b c (by simp [member]))

/-- Elements that correspond stand at the same position. -/
theorem forall₂_zipIdx_both {R : α → β → Prop} {as : List α} {bs : List β}
    (h : List.Forall₂ R as bs) (start : Nat) :
    List.Forall₂ (fun a b => R a.1 b.1 ∧ a.2 = b.2) (as.zipIdx start) (bs.zipIdx start) := by
  induction h generalizing start with
  | nil => exact .nil
  | cons head _ ih =>
    rw [List.zipIdx_cons, List.zipIdx_cons]
    exact .cons ⟨head, rfl⟩ (ih (start + 1))

/-- Elements that correspond are paired with the same elements of another list. -/
theorem forall₂_zip_right {R : α → β → Prop} {S : γ × α → γ × β → Prop} {as : List α}
    {bs : List β} {cs : List γ} (h : List.Forall₂ R as bs)
    (step : ∀ c ∈ cs, ∀ a b, R a b → S (c, a) (c, b)) :
    List.Forall₂ S (cs.zip as) (cs.zip bs) := by
  induction h generalizing cs with
  | nil =>
    rw [List.zip_nil_right, List.zip_nil_right]
    exact .nil
  | cons head _ ih =>
    cases cs with
    | nil => exact .nil
    | cons c cs =>
      exact .cons (step c (by simp) _ _ head) (ih fun c member => step c (by simp [member]))

/-- The first result along a list is that of the head or else the first along the tail. -/
theorem findSome?_cons_eq_or (f : α → Option β) (a : α) (as : List α) :
    (a :: as).findSome? f = (f a).or (as.findSome? f) := by
  rw [List.findSome?_cons]
  cases f a <;> rfl

/-- The first result along lists in a row is the first one among their first results. -/
theorem findSome?_flatMap (f : β → Option γ) (g : α → List β) (as : List α) :
    (as.flatMap g).findSome? f = as.findSome? fun a => (g a).findSome? f := by
  induction as with
  | nil => rfl
  | cons a as ih => rw [List.flatMap_cons, List.findSome?_append, findSome?_cons_eq_or, ih]

/-- A list whose repetitions are erased has none. -/
theorem nodup_eraseDups [BEq α] [LawfulBEq α] : ∀ as : List α, as.eraseDups.Nodup
  | [] => by simp
  | a :: as => by
    rw [List.eraseDups_cons, List.nodup_cons, List.mem_eraseDups]
    exact ⟨by simp, nodup_eraseDups _⟩
termination_by as => as.length
decreasing_by exact Nat.lt_succ_of_le (List.length_filter_le _ _)

/-! ### Runs that may fail -/

section Runs

variable {ε : Type} {f : β → α → Except ε β} {b c : β} {as : List α}

theorem foldlM_cons_eq_ok_iff {a : α} :
    (a :: as).foldlM f b = .ok c ↔ ∃ next, f b a = .ok next ∧ as.foldlM f next = .ok c := by
  rw [List.foldlM_cons]
  cases h : f b a with
  | error e => exact iff_of_false nofun nofun
  | ok next => exact ⟨fun run => ⟨next, rfl, run⟩, fun ⟨_, same, run⟩ => Except.ok.inj same ▸ run⟩

/-- What each step keeps of the elements gone through so far, a run has of all of them. -/
theorem foldlM_induction {motive : List α → β → Prop} (start : motive [] b)
    (step : ∀ seen b a next, motive seen b → f b a = .ok next → motive (seen ++ [a]) next)
    (run : as.foldlM f b = .ok c) : motive as c := by
  have onward : ∀ as seen b, motive seen b → as.foldlM f b = .ok c → motive (seen ++ as) c := by
    intro as
    induction as with
    | nil =>
      rintro seen b kept ⟨⟩
      rwa [List.append_nil]
    | cons a as ih =>
      intro seen b kept run
      obtain ⟨next, first, rest⟩ := foldlM_cons_eq_ok_iff.mp run
      rw [List.append_cons]
      exact ih _ next (step seen b a next kept first) rest
  exact onward as [] b start run

/-- A run comes to an end if each step does, given what the steps keep. -/
theorem exists_foldlM {motive : β → Prop} (start : motive b)
    (step : ∀ b a, a ∈ as → motive b → ∃ next, f b a = .ok next ∧ motive next) :
    ∃ c, as.foldlM f b = .ok c ∧ motive c := by
  induction as generalizing b with
  | nil => exact ⟨b, rfl, start⟩
  | cons a as ih =>
    obtain ⟨next, first, kept⟩ := step b a (by simp) start
    obtain ⟨c, rest, still⟩ := ih kept fun b a member => step b a (by simp [member])
    exact ⟨c, foldlM_cons_eq_ok_iff.mpr ⟨next, first, rest⟩, still⟩

end Runs

/-! ### Related results -/

/-- Going on with related results. -/
theorem rel_bind {α' β' : Type} {R : α → α' → Prop} {S : β → β' → Prop} {o : Option α}
    {o' : Option α'} {f : α → Option β} {g : α' → Option β'} (h : Option.Rel R o o')
    (next : ∀ a a', R a a' → Option.Rel S (f a) (g a')) : Option.Rel S (o >>= f) (o' >>= g) := by
  cases h with
  | none => exact .none
  | some related => exact next _ _ related

/-- Runs over related lists have related results. -/
theorem rel_mapM {α' β' : Type} {R : β → β' → Prop} {f : α → Option β} {g : α' → Option β'}
    {as : List α} {as' : List α'}
    (h : List.Forall₂ (fun a a' => Option.Rel R (f a) (g a')) as as') :
    Option.Rel (List.Forall₂ R) (as.mapM f) (as'.mapM g) := by
  induction h with
  | nil => exact .some .nil
  | cons head _ ih =>
    rw [List.mapM_cons, List.mapM_cons]
    exact rel_bind head fun b b' hb => rel_bind ih fun bs bs' hbs => .some (.cons hb hbs)

/-- Runs over a list and its image. -/
theorem rel_mapM_map {α' β' : Type} {R : β → β' → Prop} {f : α → Option β}
    {g : α' → Option β'} {change : α → α'} {as : List α}
    (h : ∀ a ∈ as, Option.Rel R (f a) (g (change a))) :
    Option.Rel (List.Forall₂ R) (as.mapM f) ((as.map change).mapM g) := by
  refine rel_mapM ?_
  rw [List.forall₂_map_right_iff, List.forall₂_same]
  exact h

theorem rel_map {α' β' : Type} {R : α → α' → Prop} {S : β → β' → Prop} {o : Option α}
    {o' : Option α'} {f : α → β} {g : α' → β'} (h : Option.Rel R o o')
    (next : ∀ a a', R a a' → S (f a) (g a')) : Option.Rel S (o.map f) (o'.map g) := by
  cases h with
  | none => exact .none
  | some related => exact .some (next _ _ related)

theorem rel_none_iff {α' : Type} {R : α → α' → Prop} {o : Option α'} :
    Option.Rel R none o ↔ o = none := by
  constructor
  · rintro ⟨⟩
    rfl
  · rintro rfl
    exact .none

theorem rel_some_iff {α' : Type} {R : α → α' → Prop} {a : α} {o : Option α'} :
    Option.Rel R (some a) o ↔ ∃ a', o = some a' ∧ R a a' := by
  constructor
  · intro h
    cases h with
    | some related => exact ⟨_, rfl, related⟩
  · rintro ⟨a', rfl, related⟩
    exact .some related

/-- A run over the same elements in another order has the same results in that order. -/
theorem rel_mapM_perm {f : α → Option β} {as as' : List α} (perm : as.Perm as') :
    Option.Rel List.Perm (as.mapM f) (as'.mapM f) := by
  have reorder {as as' : List α} (perm : as.Perm as') {bs : List β} (run : as.mapM f = some bs) :
      ∃ bs', as'.mapM f = some bs' ∧ bs.Perm bs' := by
    obtain ⟨bs', each, same⟩ := List.perm_comp_forall₂ perm.symm (mapM_eq_some_iff.mp run)
    exact ⟨bs', mapM_eq_some_iff.mpr each, same.symm⟩
  cases run : as.mapM f with
  | some bs => exact rel_some_iff.mpr (reorder perm run)
  | none =>
    -- A run in the other order that ended would end in this order as well.
    refine rel_none_iff.mpr (Option.eq_none_iff_forall_ne_some.mpr fun bs' run' => ?_)
    obtain ⟨bs, there, -⟩ := reorder perm.symm run'
    rw [run] at there
    cases there

end SchemaSampler
