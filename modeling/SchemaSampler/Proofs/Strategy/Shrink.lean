import SchemaSampler.Strategy.Shrink

namespace SchemaSampler

/-!
# Shrinking — what a monitored tree shows

A monitored tree walks its source past candidates that are not accepted, and the walk may run out
with the source at such a candidate.  So the shown value need not belong to the present value of
the source; but it always belongs to a value that the source showed before.

* `MonitoredTree.settle_cases`, `MonitoredTree.call_cases` — what a walk and what a call come to.
* `MonitoredTree.Run.origin` — by induction over the calls, where a shown value comes from.
-/

namespace MonitoredTree

variable {τ α β : Type} {steps : TreeSteps τ α} {accept : α → Option β}
  {tree after : MonitoredTree τ β} {patience : Nat} {answer : Bool}

/-! ### One call -/

/-- The tree shows what the acceptance makes of the present value of the source. -/
def InStep (steps : TreeSteps τ α) (accept : α → Option β) (tree : MonitoredTree τ β) : Prop :=
  accept (steps.current tree.source) = some tree.shown

/-- A walk that found an accepted value leaves the tree in step with its source, and one that ran
    out leaves it showing what it showed. -/
theorem settle_cases (h : settle steps accept patience tree = some (answer, after)) :
    answer = true ∧ after.InStep steps accept ∨ answer = false ∧ after.shown = tree.shown := by
  -- The source moves on while the shown value stays, so the induction is over all trees.
  induction patience generalizing tree with
  | zero => cases h
  | succ patience ih =>
    unfold settle at h
    split at h
    · rename_i image accepted
      cases h
      exact .inl ⟨rfl, accepted⟩
    · split at h
      · have settled := ih h
        exact settled
      · cases h
        exact .inr ⟨rfl, rfl⟩

/-- The two things that a tree can be asked for. -/
inductive Call where
  /-- A simpler value. -/
  | simplify
  /-- A more complicated value. -/
  | complicate
deriving DecidableEq, Repr

/-- The answer to a call and the tree after it. -/
def call (steps : TreeSteps τ α) (accept : α → Option β) (patience : Nat)
    (tree : MonitoredTree τ β) : Call → Option (Bool × MonitoredTree τ β)
  | .simplify => simplify steps accept patience tree
  | .complicate => complicate steps accept patience tree

theorem step_cases {move : τ → Bool × τ}
    (h : step steps accept move patience tree = some (answer, after)) :
    answer = true ∧ after.InStep steps accept ∨ answer = false ∧ after.shown = tree.shown := by
  unfold step at h
  split at h
  · have settled := settle_cases h
    exact settled
  · cases h
    exact .inr ⟨rfl, rfl⟩

/-- **One call.** It is answered by yes and leaves the tree in step with its source, or by no and
    leaves it showing what it showed. -/
theorem call_cases {c : Call} (h : call steps accept patience tree c = some (answer, after)) :
    answer = true ∧ after.InStep steps accept ∨ answer = false ∧ after.shown = tree.shown := by
  cases c <;> exact step_cases h

/-! ### Runs of calls -/

/-- Calls on a tree that all return, one after the other, with the answer to each and the tree after
    it. -/
inductive Run (steps : TreeSteps τ α) (accept : α → Option β) :
    MonitoredTree τ β → List (Bool × MonitoredTree τ β) → Prop where
  | nil {tree : MonitoredTree τ β} : Run steps accept tree []
  | cons {tree after : MonitoredTree τ β} {answer : Bool} {patience : Nat}
      {answers : List (Bool × MonitoredTree τ β)} (c : Call)
      (returns : call steps accept patience tree c = some (answer, after))
      (rest : Run steps accept after answers) : Run steps accept tree ((answer, after) :: answers)

/-- The trees of a run: the one before the first call and those after each call. -/
def trees (tree : MonitoredTree τ β) (answers : List (Bool × MonitoredTree τ β)) :
    List (MonitoredTree τ β) :=
  tree :: answers.map Prod.snd

variable {answers : List (Bool × MonitoredTree τ β)}

/-- Each call of a run is a call on the tree before it. -/
theorem Run.call_at (run : Run steps accept tree answers) {i : Nat} {before : MonitoredTree τ β}
    (place : (trees tree answers)[i]? = some before)
    (answered : answers[i]? = some (answer, after)) :
    ∃ c patience, call steps accept patience before c = some (answer, after) := by
  induction run generalizing i with
  | nil => cases answered
  | cons c returns _ ih =>
    cases i with
    | zero =>
      cases place
      cases answered
      exact ⟨c, _, returns⟩
    | succ i => exact ih place answered

/-- What a tree of a run shows was shown at the start, or an earlier tree was in step with its
    source when it came to show it. -/
theorem Run.origin (run : Run steps accept tree answers) {i : Nat} {shows : MonitoredTree τ β}
    (place : (trees tree answers)[i]? = some shows) :
    shows.shown = tree.shown ∨ ∃ j ≤ i, ∃ earlier : MonitoredTree τ β,
      (trees tree answers)[j]? = some earlier ∧
        accept (steps.current earlier.source) = some shows.shown := by
  induction run generalizing i with
  | nil =>
    cases i with
    | zero =>
      cases place
      exact .inl rfl
    | succ i => cases place
  | @cons tree after answer patience answers c returns _ ih =>
    cases i with
    | zero =>
      cases place
      exact .inl rfl
    | succ i =>
      rcases ih (i := i) place with same | ⟨j, before, earlier, found, origin⟩
      · -- nothing new since the first call, so it depends on what that call came to
        rcases call_cases returns with ⟨_, in_step⟩ | ⟨_, kept⟩
        · refine .inr ⟨1, Nat.le_add_left 1 i, after, rfl, ?_⟩
          rw [same]
          exact in_step
        · exact .inl (same.trans kept)
      · exact .inr ⟨j + 1, Nat.succ_le_succ before, earlier, found, origin⟩

/-- **What a monitored tree shows.** In a run of calls on a tree that starts with an accepted value,
    the tree shows after each call that is answered by yes what becomes of the present value of its
    source, after each other call what it showed before, and at any time what becomes of a value
    that its source showed at that time or after an earlier call. -/
theorem run_shows {source : τ} {image : β} (start : accept (steps.current source) = some image)
    (run : Run steps accept ⟨source, image⟩ answers) :
    (∀ (i : Nat) (before : MonitoredTree τ β) (answer : Bool) (after : MonitoredTree τ β),
      (trees ⟨source, image⟩ answers)[i]? = some before → answers[i]? = some (answer, after) →
        (answer = true → accept (steps.current after.source) = some after.shown) ∧
          (answer = false → after.shown = before.shown)) ∧
      ∀ (i : Nat) (shows : MonitoredTree τ β), (trees ⟨source, image⟩ answers)[i]? = some shows →
        ∃ j ≤ i, ∃ earlier : MonitoredTree τ β, (trees ⟨source, image⟩ answers)[j]? = some earlier ∧
          accept (steps.current earlier.source) = some shows.shown := by
  constructor
  · intro i before answer after place answered
    obtain ⟨c, patience, returns⟩ := run.call_at place answered
    rcases call_cases returns with ⟨rfl, in_step⟩ | ⟨rfl, kept⟩
    · exact ⟨fun _ => in_step, by rintro ⟨⟩⟩
    · exact ⟨by rintro ⟨⟩, fun _ => kept⟩
  · intro i shows place
    rcases run.origin place with same | origin
    · refine ⟨0, Nat.zero_le i, ⟨source, image⟩, rfl, ?_⟩
      rw [same]
      exact start
    · exact origin

/-- Halves a number; the second component is the number before, which the steps back climb up to. -/
def halving : TreeSteps (Nat × Nat) Nat where
  current t := t.1
  simplify t := if t.1 = 0 then (false, t) else (true, t.1 / 2, t.1)
  complicate t := if t.1 + 1 < t.2 then (true, t.1 + 1, t.2) else (false, t)

/-- Accepts even numbers and makes tenfold of them. -/
def evenTenfold (n : Nat) : Option Nat :=
  if n % 2 = 0 then some (10 * n) else none

/-- Six is halved to three, which is odd, so four is shown; four is halved to two; and when two is
    halved to one the source runs out at this odd number, while the tree goes on showing two. -/
theorem run_shows_halving :
    let answers : List (Bool × MonitoredTree (Nat × Nat) Nat) :=
      [(true, ⟨(4, 6), 40⟩), (true, ⟨(2, 4), 20⟩), (false, ⟨(1, 2), 20⟩), (false, ⟨(1, 2), 20⟩)]
    evenTenfold (halving.current (6, 6)) = some 60 ∧
      Run halving evenTenfold ⟨(6, 6), 60⟩ answers ∧ evenTenfold 1 = none ∧
        ∃ j ≤ 3, ∃ earlier : MonitoredTree (Nat × Nat) Nat,
          (trees ⟨(6, 6), 60⟩ answers)[j]? = some earlier ∧
            evenTenfold (halving.current earlier.source) = some 20 := by
  intro answers
  have start : evenTenfold (halving.current (6, 6)) = some 60 := by decide
  have first : call halving evenTenfold 2 ⟨(6, 6), 60⟩ .simplify = some (true, ⟨(4, 6), 40⟩) := rfl
  have second : call halving evenTenfold 2 ⟨(4, 6), 40⟩ .simplify = some (true, ⟨(2, 4), 20⟩) := rfl
  have third : call halving evenTenfold 2 ⟨(2, 4), 20⟩ .simplify = some (false, ⟨(1, 2), 20⟩) := rfl
  have fourth : call halving evenTenfold 2 ⟨(1, 2), 20⟩ .complicate = some (false, ⟨(1, 2), 20⟩) :=
    rfl
  have run : Run halving evenTenfold ⟨(6, 6), 60⟩ answers :=
    .cons _ first (.cons _ second (.cons _ third (.cons _ fourth .nil)))
  exact ⟨start, run, by decide, (run_shows start run).2 3 _ rfl⟩

end MonitoredTree

end SchemaSampler
