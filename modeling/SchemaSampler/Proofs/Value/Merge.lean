import SchemaSampler.Proofs.Value.Congruence
import SchemaSampler.Proofs.Value.Sorted

namespace SchemaSampler.Value

/-!
# Laws of merging — what several values come to does not depend on the order

Merging is idempotent, commutative and associative on sorted values, where a merge that fails makes
every further one fail (`merge_self`, `merge_comm`, `merge_assoc`).  Two objects are merged key by
key (`KeyByKey`), so that each law of objects is the law of the members under each key.

A value is below another one if merging it in changes nothing (`Below`).  The merge of two values is
then their least upper bound (`below_merge_iff`), and it exists if they have an upper bound
(`exists_merge`).
-/

variable {a b c u w : Value}

/-! ### Three ways to merge -/

/-- What is merged when values are: members, elements or the whole. -/
inductive Mode where
  | members
  | elements
  | whole

/-- What is merged of a value. -/
def mode : Value → Mode
  | object _ => .members
  | array _ => .elements
  | _ => .whole

/-- Objects are what is merged member by member. -/
theorem exists_object (h : a.mode = .members) : ∃ members, a = object members := by
  cases a <;> cases h
  exact ⟨_, rfl⟩

/-- Arrays are what is merged element by element. -/
theorem exists_array (h : a.mode = .elements) : ∃ items, a = array items := by
  cases a <;> cases h
  exact ⟨_, rfl⟩

/-- How two values merge. -/
inductive Merged : Value → Value → Value → Prop where
  /-- Two objects merge member by member. -/
  | object {left right out : List (String × Value)} (merges : mergeMembers left right = some out) :
      Merged (object left) (object right) (object out)
  /-- Two arrays merge element by element. -/
  | array {left right out : List Value} (merges : mergeAll left right = some out) :
      Merged (array left) (array right) (array out)
  /-- Other values merge when they are equal. -/
  | whole {a b : Value} (mode : a.mode = .whole) (equal : (a == b) = true) : Merged a b a

/-- A value that is merged as a whole merges with what equals it. -/
theorem merge_whole (h : a.mode = .whole) (b : Value) :
    merge a b = if a == b then some a else none := by
  refine merge_eq_of_ne ?_ ?_
  · rintro l r rfl
    cases h
  · rintro l r rfl
    cases h

/-- Equal values are merged in one way. -/
theorem mode_congr (equal : (a == b) = true) : b.mode = a.mode := by
  cases beq_iff_equal.mp equal <;> rfl

/-- A merger is what the rules make it. -/
theorem merge_eq_some_iff : merge a b = some w ↔ Merged a b w := by
  constructor
  · intro h
    unfold merge at h
    split at h
    · obtain ⟨out, merges, rfl⟩ := Option.map_eq_some_iff.mp h
      exact .object merges
    · obtain ⟨out, merges, rfl⟩ := Option.map_eq_some_iff.mp h
      exact .array merges
    · rename_i not_objects not_arrays
      split at h
      · rename_i equal
        cases h
        -- Equal objects would be merged as objects, and equal arrays as arrays.
        refine .whole ?_ equal
        cases beq_iff_equal.mp equal with
        | object => exact absurd rfl (not_objects _ _ rfl)
        | array => exact absurd rfl (not_arrays _ _ rfl)
        | _ => rfl
      · cases h
  · intro h
    cases h with
    | object merges => rw [merge, merges, Option.map_some]
    | array merges => rw [merge, merges, Option.map_some]
    | whole mode equal => rw [merge_whole mode, if_pos equal]

/-- Values merge with values of their mode only. -/
theorem mode_of_merge (h : merge a b = some w) : b.mode = a.mode ∧ w.mode = a.mode := by
  cases merge_eq_some_iff.mp h with
  | object => exact ⟨rfl, rfl⟩
  | array => exact ⟨rfl, rfl⟩
  | whole _ equal => exact ⟨mode_congr equal, rfl⟩

/-- Values that are merged in different ways do not go together. -/
theorem merge_eq_none (differ : b.mode ≠ a.mode) : merge a b = none :=
  Option.eq_none_iff_forall_ne_some.mpr fun _ merges => differ (mode_of_merge merges).1

/-! ### Objects, key by key -/

/-- What two members under one key come to, either of which may be missing. -/
def joined : Option Value → Option Value → Option (Option Value)
  | some a, some b => (merge a b).map some
  | a, none => some a
  | none, b => some b

/-- What is on the left only is kept. -/
@[simp] theorem joined_none_right (x : Option Value) : joined x none = some x := by
  cases x <;> rfl

/-- What is on the right only is kept. -/
@[simp] theorem joined_none_left (y : Option Value) : joined none y = some y := by
  cases y <;> rfl

/-- What is on both sides is merged. -/
@[simp] theorem joined_some (a b : Value) : joined (some a) (some b) = (merge a b).map some := rfl

/-- An outcome for objects is told key by key: what is found under each key, or a key under which
    there is a conflict. -/
structure KeyByKey (outcome : Option (List (String × Value)))
    (under : String → Option (Option Value)) : Prop where
  /-- The result is sorted and has under each key what it should. -/
  found {out : List (String × Value)} : outcome = some out →
    SortedMembers out ∧ ∀ key, under key = some (findMember? key out)
  /-- Without a conflict there is a result. -/
  ends : (∀ key, ∃ x, under key = some x) → ∃ out, outcome = some out

section Objects

variable {left right members : List (String × Value)} {key : String} {v merged : Value}
  {outcome outcome' : Option (List (String × Value))}
  {under under' : String → Option (Option Value)}

/-- Once the first member of the right object is merged into the left one, only the others are
    left to be joined. -/
theorem joined_insertMember (hr : SortedMembers ((key, v) :: right))
    (h : joined (findMember? key left) (some v) = some (some merged)) :
    (fun k => joined (findMember? k (insertMember key merged left)) (findMember? k right)) =
      fun k => joined (findMember? k left) (findMember? k ((key, v) :: right)) := by
  funext k
  rw [findMember?_insertMember, findMember?]
  by_cases same : k = key
  · subst same
    have later : findMember? k right = none := findMember?_eq_none fun m member =>
      (String.ne_of_lt ((List.pairwise_cons.mp hr).1 m member)).symm
    rw [if_pos rfl, if_pos rfl, later, h]
    rfl
  · rw [if_neg same, if_neg (Ne.symm same)]

/-- Two objects are merged key by key. -/
theorem keyByKey_mergeMembers (hl : SortedMembers left) (hr : SortedMembers right) :
    KeyByKey (mergeMembers left right)
      fun key => joined (findMember? key left) (findMember? key right) := by
  -- The members of the right object are merged in one by one, each into another left object.
  induction right generalizing left with
  | nil =>
    refine ⟨?_, fun _ => ⟨left, rfl⟩⟩
    rintro out ⟨⟩
    exact ⟨hl, fun key => joined_none_right _⟩
  | cons m rest ih =>
    obtain ⟨key, v⟩ := m
    have rest_sorted := (List.pairwise_cons.mp hr).2
    have go_on {merged : Value} (h : joined (findMember? key left) (some v) = some (some merged)) :
        KeyByKey (mergeMembers (insertMember key merged left) rest) fun k =>
          joined (findMember? k left) (findMember? k ((key, v) :: rest)) := by
      rw [← joined_insertMember hr h]
      exact ih (sorted_insertMember hl key merged) rest_sorted
    rw [mergeMembers]
    cases there : findMember? key left with
    | none => exact go_on (by rw [there]; rfl)
    | some existing =>
      simp only
      cases merges : merge existing v with
      | none =>
        -- The first key of the right object is one under which there is a conflict.
        refine ⟨nofun, fun each => ?_⟩
        obtain ⟨x, conflict⟩ := each key
        rw [there, findMember?, if_pos rfl, joined_some, merges] at conflict
        cases conflict
      | some merged => exact go_on (by rw [there, joined_some, merges]; rfl)

/-- Related members under each key are related members of the results. -/
theorem KeyByKey.rel {R : Value → Value → Prop} (h : KeyByKey outcome under)
    (h' : KeyByKey outcome' under')
    (each : ∀ key, Option.Rel (Option.Rel R) (under key) (under' key)) :
    Option.Rel (List.Forall₂ fun m m' => m.1 = m'.1 ∧ R m.2 m'.2) outcome outcome' := by
  cases outcome with
  | none =>
    -- There is a conflict under the same key on the other side.
    cases outcome' with
    | none => exact .none
    | some out' =>
      obtain ⟨-, found'⟩ := h'.found rfl
      obtain ⟨out, impossible⟩ := h.ends fun key => by
        have related := each key
        rw [found' key] at related
        cases related_eq : under key with
        | none => rw [related_eq] at related; cases related
        | some x => exact ⟨x, rfl⟩
      cases impossible
  | some out =>
    obtain ⟨sorted, found⟩ := h.found rfl
    obtain ⟨out', rfl⟩ := h'.ends fun key => by
      have related := each key
      rw [found key, rel_some_iff] at related
      obtain ⟨x, there, -⟩ := related
      exact ⟨x, there⟩
    obtain ⟨sorted', found'⟩ := h'.found rfl
    refine .some (forall₂_of_sorted sorted sorted' fun key => ?_)
    have related := each key
    rw [found key, found' key] at related
    cases related with
    | some related => exact related

/-- Outcomes that are told alike are the same. -/
theorem KeyByKey.eq (h : KeyByKey outcome under) (h' : KeyByKey outcome' under) :
    outcome = outcome' := by
  have related := h.rel (R := Eq) h' fun key => by
    rcases under key with _ | _ | x
    · exact .none
    · exact .some .none
    · exact .some (.some rfl)
  cases related with
  | none => rfl
  | some each =>
    refine congrArg some ?_
    clear h h'
    induction each with
    | nil => rfl
    | cons head _ ih => rw [ih, Prod.ext head.1 head.2]

/-- The result goes on to what is told key by key of it. -/
theorem KeyByKey.bind {next : List (String × Value) → Option (List (String × Value))}
    {go_on : String → Option Value → Option (Option Value)} (h : KeyByKey outcome under)
    (then_told : ∀ out, SortedMembers out →
      KeyByKey (next out) fun key => go_on key (findMember? key out)) :
    KeyByKey (outcome.bind next) fun key => (under key).bind (go_on key) := by
  constructor
  · intro out run
    obtain ⟨first, ran, second⟩ := Option.bind_eq_some_iff.mp run
    obtain ⟨sorted, found⟩ := h.found ran
    obtain ⟨sorted', found'⟩ := (then_told first sorted).found second
    exact ⟨sorted', fun key => by rw [found key, Option.bind_some, found' key]⟩
  · intro each
    obtain ⟨first, ran⟩ := h.ends fun key => by
      obtain ⟨x, there⟩ := each key
      obtain ⟨y, there, -⟩ := Option.bind_eq_some_iff.mp there
      exact ⟨y, there⟩
    obtain ⟨sorted, found⟩ := h.found ran
    rw [ran, Option.bind_some]
    refine (then_told first sorted).ends fun key => ?_
    obtain ⟨x, there⟩ := each key
    rw [found key, Option.bind_some] at there
    exact ⟨x, there⟩

end Objects

/-! ### Members under one key -/

/-- Joining goes either way if merging does. -/
theorem joined_comm {x y : Option Value}
    (h : ∀ a b, x = some a → y = some b → EqualOption (merge a b) (merge b a)) :
    Option.Rel EqualOption (joined x y) (joined y x) := by
  -- A member that has no other to meet stays as it is.
  cases x with
  | none =>
    rw [joined_none_left, joined_none_right]
    cases y with
    | none => exact .some .none
    | some b => exact .some (.some (beq_self b))
  | some a =>
    cases y with
    | none => exact .some (.some (beq_self a))
    | some b => exact rel_map (h a b rfl rfl) fun _ _ equal => .some equal

/-- Joining three may start with either two if merging may. -/
theorem joined_assoc {x y z : Option Value}
    (h : ∀ a b c, x = some a → y = some b → z = some c →
      (merge a b).bind (merge · c) = (merge b c).bind (merge a ·)) :
    (joined x y).bind (joined · z) = (joined y z).bind (joined x ·) := by
  -- If one of the three is missing, the other two are joined on both sides.
  cases x with
  | none =>
    rw [joined_none_left, Option.bind_some]
    cases joined y z with
    | none => rfl
    | some d => exact (joined_none_left d).symm
  | some a =>
    cases y with
    | none => rw [joined_none_left, joined_none_right, Option.bind_some, Option.bind_some]
    | some b =>
      cases z with
      | none =>
        rw [joined_none_right, Option.bind_some]
        cases joined (some a) (some b) with
        | none => rfl
        | some d => exact joined_none_right d
      | some c =>
        -- All three meet, first the left ones and first the right ones.
        have both := congrArg (Option.map some) (h a b c rfl rfl rfl)
        rw [joined_some, joined_some]
        cases hab : merge a b <;> cases hbc : merge b c <;> rw [hab, hbc] at both <;> exact both

/-! ### Arrays, element by element -/

section Arrays

variable {as bs cs : List Value}

/-- Elements are merged position by position. -/
theorem mergeAll_cons (a b : Value) (as bs : List Value) :
    mergeAll (a :: as) (b :: bs) =
      (merge a b).bind fun head => (mergeAll as bs).map (head :: ·) := by
  rw [mergeAll]
  cases merge a b with
  | none => rfl
  | some head => cases mergeAll as bs <;> rfl

/-- Elements go together with themselves if each does. -/
theorem mergeAll_self (h : ∀ a ∈ as, merge a a = some a) : mergeAll as as = some as := by
  induction as with
  | nil => rfl
  | cons a as ih =>
    have rest := ih fun a member => h a (List.mem_cons_of_mem _ member)
    rw [mergeAll_cons, h a List.mem_cons_self, rest]
    rfl

/-- Merging elements goes either way if it does for each two of them. -/
theorem mergeAll_comm (h : ∀ a ∈ as, ∀ b ∈ bs, EqualOption (merge a b) (merge b a)) :
    Option.Rel EqualAll (mergeAll as bs) (mergeAll bs as) := by
  induction as generalizing bs with
  | nil =>
    cases bs with
    | nil => exact .some .nil
    | cons b bs => exact .none
  | cons a as ih =>
    cases bs with
    | nil => exact .none
    | cons b bs =>
      rw [mergeAll_cons, mergeAll_cons]
      refine rel_bind (h a List.mem_cons_self b List.mem_cons_self) fun d d' head => ?_
      have rest := ih fun a ha b hb => h a (List.mem_cons_of_mem _ ha) b (List.mem_cons_of_mem _ hb)
      exact rel_map rest fun _ _ each => .cons head each

/-- What goes on with the head and with the rest goes on with both. -/
theorem bind_cons {next : List Value → Option (List Value)} {k : Value → Option Value}
    {ks : List Value → Option (List Value)}
    (apart : ∀ d ds, next (d :: ds) = (k d).bind fun x => (ks ds).map (x :: ·))
    (head : Option Value) (rest : Option (List Value)) :
    (head.bind fun d => rest.map (d :: ·)).bind next =
      (head.bind k).bind fun x => (rest.bind ks).map (x :: ·) := by
  cases head with
  | none => rfl
  | some d =>
    rw [Option.bind_some, Option.bind_some]
    cases rest with
    | none => exact (Option.bind_fun_none _).symm
    | some ds => exact apart d ds

/-- Merging three lists may start with either two if it may for each three elements. -/
theorem mergeAll_assoc (h : ∀ a ∈ as, ∀ b ∈ bs, ∀ c ∈ cs,
      (merge a b).bind (merge · c) = (merge b c).bind (merge a ·)) :
    (mergeAll as bs).bind (mergeAll · cs) = (mergeAll bs cs).bind (mergeAll as ·) := by
  induction as generalizing bs cs with
  | nil =>
    cases bs with
    | nil => cases cs <;> rfl
    | cons b bs =>
      cases cs with
      | nil => rfl
      | cons c cs =>
        rw [mergeAll_cons]
        cases merge b c with
        | none => rfl
        | some d => cases mergeAll bs cs <;> rfl
  | cons a as ih =>
    cases bs with
    | nil => cases cs <;> rfl
    | cons b bs =>
      cases cs with
      | nil =>
        rw [mergeAll_cons]
        cases merge a b with
        | none => rfl
        | some d => cases mergeAll as bs <;> rfl
      | cons c cs =>
        have head := h a List.mem_cons_self b List.mem_cons_self c List.mem_cons_self
        have rest := @ih bs cs fun a ha b hb c hc => h a (List.mem_cons_of_mem _ ha)
          b (List.mem_cons_of_mem _ hb) c (List.mem_cons_of_mem _ hc)
        rw [mergeAll_cons a b, mergeAll_cons b c,
          bind_cons fun d ds => mergeAll_cons d c ds cs,
          bind_cons fun d ds => mergeAll_cons a d as ds, head, rest]

end Arrays

/-! ### The laws -/

/-- Every sorted value merges with itself to itself. -/
theorem merge_self (h : a.Sorted) : merge a a = some a := by
  induction h with
  | @intro v members _parts ih =>
    rw [merge_eq_some_iff]
    cases v
    case object ms =>
      -- Under each key a member meets itself, which is a part of the object.
      have sorted := members ms rfl
      have told := keyByKey_mergeMembers sorted sorted
      have each : ∀ key, joined (findMember? key ms) (findMember? key ms) =
          some (findMember? key ms) := by
        intro key
        cases there : findMember? key ms with
        | none => rfl
        | some x =>
          rw [joined_some, ih x (List.mem_map_of_mem (mem_of_findMember? there))]
          rfl
      obtain ⟨out, merges⟩ := told.ends fun key => ⟨_, each key⟩
      obtain ⟨sorted', found⟩ := told.found merges
      obtain rfl : out = ms := eq_of_sorted sorted' sorted fun key =>
        Option.some.inj ((found key).symm.trans (each key))
      exact .object merges
    case array items => exact .array (mergeAll_self ih)
    all_goals exact .whole rfl (beq_self _)

/-- The order of two sorted values does not matter to what they merge to. -/
theorem merge_comm (ha : a.Sorted) (hb : b.Sorted) : EqualOption (merge a b) (merge b a) := by
  induction ha generalizing b with
  | @intro v members _parts ih =>
    by_cases same : b.mode = v.mode
    · have wholes (whole : v.mode = .whole) : EqualOption (merge v b) (merge b v) := by
        rw [merge_whole whole, merge_whole (same.trans whole)]
        by_cases equal : (v == b) = true
        · rw [if_pos equal, if_pos (beq_symm equal)]
          exact .some equal
        · rw [if_neg equal, if_neg fun equal' => equal (beq_symm equal')]
          exact .none
      cases v
      case object left =>
        obtain ⟨right, rfl⟩ := exists_object same
        have hl := members left rfl
        obtain ⟨hr, each⟩ := sorted_object.mp hb
        rw [merge, merge]
        refine rel_map ((keyByKey_mergeMembers hl hr).rel (keyByKey_mergeMembers hr hl)
          fun key => joined_comm fun x y hx hy => ?_)
          fun _ _ equal => beq_iff_equal.mpr (.object equal)
        exact ih x (List.mem_map_of_mem (mem_of_findMember? hx)) (each _ (mem_of_findMember? hy))
      case array left =>
        obtain ⟨right, rfl⟩ := exists_array same
        rw [merge, merge]
        exact rel_map (mergeAll_comm fun x hx y hy => ih x hx (sorted_array.mp hb y hy))
          fun _ _ equal => beq_iff_equal.mpr (.array equal)
      all_goals exact wholes rfl
    · -- Neither order brings values of different modes together.
      rw [merge_eq_none same, merge_eq_none (Ne.symm same)]
      exact .none

/-- Three values merge only if they have one mode. -/
theorem modes_of_merges (h : (merge a b).bind (merge · c) = some w ∨
      (merge b c).bind (merge a ·) = some w) : b.mode = a.mode ∧ c.mode = a.mode := by
  rcases h with run | run
  · obtain ⟨d, first, second⟩ := Option.bind_eq_some_iff.mp run
    obtain ⟨hb, hd⟩ := mode_of_merge first
    exact ⟨hb, (mode_of_merge second).1.trans hd⟩
  · obtain ⟨d, first, second⟩ := Option.bind_eq_some_iff.mp run
    obtain ⟨hc, hd⟩ := mode_of_merge first
    have hb := hd.symm.trans (mode_of_merge second).1
    exact ⟨hb, hc.trans hb⟩

/-- Outcomes of which neither is there are the same. -/
theorem eq_of_forall_ne_some {α : Type} {o o' : Option α}
    (h : ∀ w, ¬(o = some w ∨ o' = some w)) : o = o' := by
  rw [Option.eq_none_iff_forall_ne_some.mpr fun w there => h w (.inl there),
    Option.eq_none_iff_forall_ne_some.mpr fun w there => h w (.inr there)]

/-- Values that are merged as a whole merge in turn if they are equal in turn. -/
theorem merge_assoc_whole (ha : a.mode = .whole) (hb : b.mode = .whole) (c : Value) :
    (merge a b).bind (merge · c) = (merge b c).bind (merge a ·) := by
  rw [merge_whole ha b, merge_whole hb c]
  by_cases equal : (a == b) = true
  · rw [if_pos equal, Option.bind_some, merge_whole ha, ← beq_congr equal (beq_self c)]
    split
    · rw [Option.bind_some, merge_whole ha, if_pos equal]
    · rfl
  · rw [if_neg equal]
    split
    · rw [Option.bind_some, merge_whole ha, if_neg equal]
      rfl
    · rfl

/-- Merging three objects may start with either two if it may under each name. -/
theorem mergeMembers_assoc {left middle right : List (String × Value)} (hl : SortedMembers left)
    (hm : SortedMembers middle) (hr : SortedMembers right)
    (h : ∀ key a b c, findMember? key left = some a → findMember? key middle = some b →
      findMember? key right = some c →
        (merge a b).bind (merge · c) = (merge b c).bind (merge a ·)) :
    (mergeMembers left middle).bind (mergeMembers · right) =
      (mergeMembers middle right).bind (mergeMembers left ·) := by
  have told : KeyByKey ((mergeMembers left middle).bind (mergeMembers · right)) fun key =>
      (joined (findMember? key left) (findMember? key middle)).bind
        (joined · (findMember? key right)) :=
    (keyByKey_mergeMembers hl hm).bind fun out sorted => keyByKey_mergeMembers sorted hr
  have told' : KeyByKey ((mergeMembers middle right).bind (mergeMembers left ·)) fun key =>
      (joined (findMember? key middle) (findMember? key right)).bind
        (joined (findMember? key left) ·) :=
    (keyByKey_mergeMembers hm hr).bind fun out sorted => keyByKey_mergeMembers hl sorted
  rw [funext fun key => joined_assoc (h key)] at told
  exact told.eq told'

/-- Merging the contents in turn is merging the values in turn. -/
theorem bind_map_of_merge {α : Type} {make : α → Value} {f g : Option α} {k k' : α → Option α}
    {l l' : Value → Option Value} (same : f.bind k = g.bind k')
    (hl : ∀ x, l (make x) = (k x).map make) (hl' : ∀ x, l' (make x) = (k' x).map make) :
    (f.map make).bind l = (g.map make).bind l' := by
  have made := congrArg (Option.map make) same
  rw [Option.map_bind, Option.map_bind] at made
  rw [Option.bind_map, Option.bind_map, show l ∘ make = _ from funext hl,
    show l' ∘ make = _ from funext hl']
  exact made

/-- The grouping of three sorted values does not matter to what they merge to, nor to whether they
    merge. -/
theorem merge_assoc (ha : a.Sorted) (hb : b.Sorted) (hc : c.Sorted) :
    (merge a b).bind (merge · c) = (merge b c).bind (merge a ·) := by
  induction ha generalizing b c with
  | @intro v members _parts ih =>
    by_cases same : b.mode = v.mode ∧ c.mode = v.mode
    · obtain ⟨same, same'⟩ := same
      cases v
      case object left =>
        obtain ⟨middle, rfl⟩ := exists_object same
        obtain ⟨right, rfl⟩ := exists_object same'
        obtain ⟨hm, each⟩ := sorted_object.mp hb
        obtain ⟨hr, each'⟩ := sorted_object.mp hc
        rw [merge, merge]
        refine bind_map_of_merge (mergeMembers_assoc (members left rfl) hm hr ?_)
          (fun x => by rw [merge]) fun x => by rw [merge]
        intro key x y z hx hy hz
        exact ih x (List.mem_map_of_mem (mem_of_findMember? hx))
          (each _ (mem_of_findMember? hy)) (each' _ (mem_of_findMember? hz))
      case array left =>
        obtain ⟨middle, rfl⟩ := exists_array same
        obtain ⟨right, rfl⟩ := exists_array same'
        rw [merge, merge]
        refine bind_map_of_merge (mergeAll_assoc fun x hx y hy z hz => ?_)
          (fun x => by rw [merge]) fun x => by rw [merge]
        exact ih x hx (sorted_array.mp hb y hy) (sorted_array.mp hc z hz)
      all_goals exact merge_assoc_whole rfl same c
    · -- A result in one of the groupings would be one of values of one mode.
      exact eq_of_forall_ne_some fun w run => same (modes_of_merges run)

/-! ### What sorted values merge to is sorted -/

/-- Merged elements are sorted if each merger is. -/
theorem mergeAll_sorted {as bs out : List Value}
    (h : ∀ a ∈ as, ∀ b ∈ bs, ∀ w, merge a b = some w → w.Sorted)
    (merges : mergeAll as bs = some out) : ∀ w ∈ out, w.Sorted := by
  induction as generalizing bs out with
  | nil =>
    cases bs with
    | nil => cases merges; nofun
    | cons b bs => cases merges
  | cons a as ih =>
    cases bs with
    | nil => cases merges
    | cons b bs =>
      rw [mergeAll_cons] at merges
      obtain ⟨d, head, others⟩ := Option.bind_eq_some_iff.mp merges
      obtain ⟨ds, rest, rfl⟩ := Option.map_eq_some_iff.mp others
      intro w member
      rcases List.mem_cons.mp member with rfl | member
      · exact h a List.mem_cons_self b List.mem_cons_self w head
      · exact ih (fun a ha b hb => h a (List.mem_cons_of_mem _ ha) b (List.mem_cons_of_mem _ hb))
          rest w member

/-- A merger of sorted values is sorted. -/
theorem sorted_of_merge (ha : a.Sorted) (hb : b.Sorted) (h : merge a b = some w) :
    w.Sorted := by
  induction ha generalizing b w with
  | @intro v members parts_sorted ih =>
    cases merge_eq_some_iff.mp h with
    | whole => exact .intro members parts_sorted
    | array merges => exact sorted_array.mpr (mergeAll_sorted (fun x hx y hy w =>
        ih x hx (sorted_array.mp hb y hy)) merges)
    | @object left right out merges =>
      obtain ⟨hr, each⟩ := sorted_object.mp hb
      obtain ⟨sorted, found⟩ := (keyByKey_mergeMembers (members left rfl) hr).found merges
      -- A member of the result comes from one of the objects, or is what two members merge to.
      refine sorted_object.mpr ⟨sorted, fun m member => ?_⟩
      have under := found m.1
      rw [findMember?_of_mem sorted member] at under
      cases hx : findMember? m.1 left with
      | none =>
        rw [hx, joined_none_left] at under
        exact each _ (mem_of_findMember? (Option.some.inj under))
      | some x =>
        have x_part : x ∈ (object left).parts := List.mem_map_of_mem (mem_of_findMember? hx)
        cases hy : findMember? m.1 right with
        | none =>
          rw [hx, hy, joined_none_right] at under
          obtain rfl : x = m.2 := Option.some.inj (Option.some.inj under)
          exact parts_sorted _ x_part
        | some y =>
          rw [hx, hy, joined_some] at under
          obtain ⟨d, met, same⟩ := Option.map_eq_some_iff.mp under
          obtain rfl : d = m.2 := Option.some.inj same
          exact ih x x_part (each _ (mem_of_findMember? hy)) met

/-! ### The order -/

/-- A value is below another one if merging it in changes nothing. -/
def Below (a u : Value) : Prop := EqualOption (merge a u) (some u)

/-- Equality of values that may be missing goes both ways. -/
theorem EqualOption.symm {o o' : Option Value} (h : EqualOption o o') : EqualOption o' o := by
  cases h with
  | none => exact .none
  | some equal => exact .some (beq_symm equal)

/-- And it is passed on. -/
theorem EqualOption.trans {o o' o'' : Option Value} (h : EqualOption o o')
    (h' : EqualOption o' o'') : EqualOption o o'' := by
  cases h with
  | none => exact h'
  | some equal =>
    cases h' with
    | some equal' => exact .some (beq_trans equal equal')

/-- And everything is equal to itself. -/
theorem EqualOption.refl (o : Option Value) : EqualOption o o := by
  cases o with
  | none => exact .none
  | some v => exact .some (beq_self v)

/-- A value is merged into equal outcomes. -/
theorem EqualOption.merge_into {o o' : Option Value} (h : EqualOption o o') (a : Value) :
    EqualOption (o.bind (merge a ·)) (o'.bind (merge a ·)) :=
  rel_bind h fun _ _ equal => merge_congr _ (beq_self a) equal

/-- A sorted value is below itself. -/
theorem below_self (h : a.Sorted) : a.Below a := by
  rw [Below, merge_self h]
  exact .some (beq_self a)

/-- Values that are below each other are equal. -/
theorem Below.antisymm (ha : a.Sorted) (hb : b.Sorted) (h : a.Below b) (h' : b.Below a) :
    (a == b) = true := by
  have both : EqualOption (some a) (some b) := h'.symm.trans ((merge_comm hb ha).trans h)
  cases both with
  | some equal => exact equal

/-- What two values merge to is above both. -/
theorem below_of_merge (ha : a.Sorted) (hb : b.Sorted) (merges : merge a b = some w) :
    a.Below w ∧ b.Below w := by
  have absorbed {x y z : Value} (hx : x.Sorted) (hy : y.Sorted) (merges : merge x y = some z) :
      merge x z = some z := by
    -- Merging `x` twice is merging it once.
    have again := merge_assoc hx hx hy
    rw [merge_self hx, Option.bind_some, merges, Option.bind_some] at again
    exact again.symm
  constructor
  · rw [Below, absorbed ha hb merges]
    exact .refl _
  · -- In the other order the two merge to an equal value.
    have swapped := merge_comm ha hb
    rw [merges] at swapped
    obtain ⟨w', merges', equal⟩ := rel_some_iff.mp swapped
    have same : EqualOption (merge b w) (merge b w') := merge_congr w (beq_self b) equal
    rw [absorbed hb ha merges'] at same
    exact same.trans (.some (beq_symm equal))

/-- What two values merge to is their least upper bound. -/
theorem below_merge_iff (ha : a.Sorted) (hb : b.Sorted) (hu : u.Sorted)
    (merges : merge a b = some w) : w.Below u ↔ a.Below u ∧ b.Below u := by
  have hw := sorted_of_merge ha hb merges
  have assoc : merge w u = (merge b u).bind (merge a ·) := by
    rw [← merge_assoc ha hb hu, merges, Option.bind_some]
  constructor
  · intro h
    -- Both values are below `w`, and what is below `w` is below what `w` is below.
    have through {x : Value} (hx : x.Sorted) (below : x.Below w) : x.Below u := by
      have here : EqualOption ((merge x w).bind (merge · u)) (merge w u) :=
        rel_bind below fun _ _ equal => merge_congr u equal (beq_self u)
      rw [merge_assoc hx hw hu] at here
      exact ((h.merge_into x).symm.trans here).trans h
    obtain ⟨left, right⟩ := below_of_merge ha hb merges
    exact ⟨through ha left, through hb right⟩
  · rintro ⟨left, right⟩
    rw [Below, assoc]
    exact (right.merge_into a).trans left

/-- Values with an upper bound merge. -/
theorem exists_merge (ha : a.Sorted) (hb : b.Sorted) (hu : u.Sorted) (left : a.Below u)
    (right : b.Below u) : ∃ w, merge a b = some w := by
  have bound : EqualOption ((merge a b).bind (merge · u)) (some u) := by
    rw [merge_assoc ha hb hu]
    exact (right.merge_into a).trans left
  cases merges : merge a b with
  | some w => exact ⟨w, rfl⟩
  | none =>
    rw [merges] at bound
    cases bound

end SchemaSampler.Value
