import SchemaSampler.Proofs.Strategy.Search
import SchemaSampler.Proofs.Value.Equality

namespace SchemaSampler

/-!
# Small domains — sets that cannot be filled

The elements of a set are drawn one after the other and equal ones are dropped, so a set never gets
larger than there are unequal values to draw.  If a schema asks for more, its monitor rejects every
candidate and the breaker ends each draw: the first as soon as it may trip, and every later one
after one more candidate.

* `Draw.Ready` — the states that the draws from a strategy lead through, with anything else in
  between.
* `Strategy.candidate_small_set` — one candidate is rejected, by the pigeonhole principle.
* `Breaker.seek_all_rejected` — where a search ends if every candidate is rejected.
* `Draw.search_small_set`, `Draw.Ready.small_set` — one draw, and by induction all of them.
-/

/-! ### Compilation -/

section Compilation

variable {config : Config} {resolver : Resolver} {item : Schema} {items : Strategy}
  {bounds : SizeBounds} {least greatest : Nat}

/-- A least number of elements that the greatest is not below is where the sizes start, if the sum
    that stands in for a missing greatest number fits a machine word. -/
theorem Config.exists_sizeRange (given : bounds.min = some least)
    (most : ∀ max, bounds.max = some max → least ≤ max)
    (fits : least + config.maxExtraLength < Config.wordSize) :
    config.sizeOverflows bounds = false ∧
      ∃ greatest, config.sizeRange bounds = .ok (least, greatest) := by
  constructor
  · simp [sizeOverflows, given, fits]
  · refine ⟨bounds.max.getD (least + config.maxExtraLength), ?_⟩
    rw [Config.sizeRange, given, Option.getD_some, Nat.mod_eq_of_lt fits]
    refine if_neg (not_lt.mpr ?_)
    cases above : bounds.max with
    | none => exact Nat.le_add_right least _
    | some max => exact most max above

/-- The sizes start at the least number of elements. -/
theorem Config.fst_sizeRange {range : Nat × Nat} (given : bounds.min = some least)
    (counted : config.sizeRange bounds = .ok range) : range.1 = least := by
  simp only [Config.sizeRange, given, Option.getD_some] at counted
  split at counted <;> cases counted
  rfl

/-- A set of at least one element is drawn with a monitor of its size. -/
theorem compileInput_set {id : SchemaId} {cell : Cell} {path : Path} (free : resolver id = none)
    (compiled : (compileInput config resolver item (1 :: cell) (path.into .element)).outcome =
      .ok items)
    (fits : config.sizeOverflows bounds = false)
    (range : config.sizeRange bounds = .ok (least, greatest)) (asks : 0 < least) :
    (compileInput config resolver (.node id (.set item bounds)) cell path).outcome =
      .ok (config.monitor cell path (.sized least) (.set items least greatest)) := by
  have counted : (Compiled.lift path (config.sizeRange bounds)).outcome =
      .ok (least, greatest) := by
    rw [range]
    rfl
  rw [compileInput_free free, Compiled.outcome_bind rfl, compileShape,
    Compiled.outcome_bind compiled, fits, Compiled.outcome_bind rfl,
    Compiled.outcome_bind counted]
  simp only
  rw [if_neg asks.ne']
  rfl

/-- The strategy of a set of at least one element has a monitor of its size. -/
theorem exists_of_compileInput_set {id : SchemaId} {cell : Cell} {path : Path}
    {strategy : Strategy} (free : resolver id = none)
    (compiled : (compileInput config resolver item (1 :: cell) (path.into .element)).outcome =
      .ok items)
    (given : bounds.min = some least) (asks : 0 < least)
    (built : (compileInput config resolver (.node id (.set item bounds)) cell path).outcome =
      .ok strategy) :
    ∃ greatest,
      strategy = config.monitor cell path (.sized least) (.set items least greatest) := by
  have node := built
  rw [compileInput_free free, Compiled.outcome_bind rfl, compileShape,
    Compiled.outcome_bind compiled] at node
  obtain ⟨⟨⟩, unbroken, node⟩ := Compiled.bind_ok node
  obtain ⟨⟨min, greatest⟩, counted, node⟩ := Compiled.bind_ok node
  have range := Compiled.lift_ok counted
  obtain rfl : min = least := Config.fst_sizeRange given range
  simp only [if_neg asks.ne'] at node
  cases node
  exact ⟨greatest, rfl⟩

end Compilation

/-! ### Draws with other draws in between -/

/-- Two memories have the same contents in certain cells. -/
structure Memory.AgreesOn (A : Cell → Prop) (m m' : Memory) : Prop where
  tally : ∀ cell, A cell → m.tally cell = m'.tally cell
  turn : ∀ cell, A cell → m.turn cell = m'.turn cell

theorem Memory.AgreesOn.refl (A : Cell → Prop) (m : Memory) : m.AgreesOn A m :=
  ⟨fun _ _ => rfl, fun _ _ => rfl⟩

theorem Memory.AgreesOn.trans {A : Cell → Prop} {m m' m'' : Memory} (h : m.AgreesOn A m')
    (h' : m'.AgreesOn A m'') : m.AgreesOn A m'' :=
  ⟨fun cell own => (h.tally cell own).trans (h'.tally cell own),
    fun cell own => (h.turn cell own).trans (h'.turn cell own)⟩

theorem Memory.AgreesOn.mono {A B : Cell → Prop} {m m' : Memory} (h : m.AgreesOn B m')
    (fewer : ∀ cell, A cell → B cell) : m.AgreesOn A m' :=
  ⟨fun cell own => h.tally cell (fewer cell own), fun cell own => h.turn cell (fewer cell own)⟩

/-- Another tally in a cell elsewhere makes no difference. -/
theorem Memory.agreesOn_setTally {A : Cell → Prop} {cell : Cell} (foreign : ¬ A cell) (m : Memory)
    (t : Tally) : (m.setTally cell t).AgreesOn A m := by
  refine ⟨fun other own => ?_, fun _ _ => rfl⟩
  rw [Memory.tally_setTally, if_neg]
  rintro rfl
  exact foreign own

namespace Draw

variable {A : Cell → Prop} {around : Surroundings} {draw : Draw Value} {number : Nat}
  {p q : Progress} {v : Value}

/-- The states in which a draw that keeps its memory in certain cells can be repeated, after a
    number of earlier times.  Before the first time these cells are blank, and then they are as the
    last time left them; all else may have changed in between. -/
inductive Ready (A : Cell → Prop) (around : Surroundings) (draw : Draw Value) :
    (number : Nat) → Progress → Prop where
  | first {p : Progress} (blank : p.memory.AgreesOn A .blank) : Ready A around draw 0 p
  | next {number : Nat} {p q : Progress} (before : Ready A around draw number p)
      (same : q.memory.AgreesOn A (draw.run around p).2.memory) :
      Ready A around draw (number + 1) q

/-- What else changes does not matter. -/
theorem Ready.of_agrees (h : Ready A around draw number p) (same : q.memory.AgreesOn A p.memory) :
    Ready A around draw number q := by
  cases h with
  | first blank => exact .first (same.trans blank)
  | next before left => exact .next before (same.trans left)

/-- A value that a draw gives some time. -/
def Gives (A : Cell → Prop) (around : Surroundings) (draw : Draw Value) (v : Value) : Prop :=
  ∃ number p, Ready A around draw number p ∧ (draw.run around p).1 = .ok v

/-- A draw gives a value each time. -/
def NeverMisses (A : Cell → Prop) (around : Surroundings) (draw : Draw Value) : Prop :=
  ∀ number p, Ready A around draw number p → ∃ v, (draw.run around p).1 = .ok v

/-- Of any values that a draw gives, at most `n` are pairwise unequal. -/
def TakesAtMost (A : Cell → Prop) (around : Surroundings) (draw : Draw Value) (n : Nat) : Prop :=
  ∀ vs : List Value, Value.DistinctElements vs → (∀ v ∈ vs, Gives A around draw v) → vs.length ≤ n

/-- Repetitions of a draw that never misses give values of the draw, which can go on afterwards. -/
theorem NeverMisses.replicate (never : NeverMisses A around draw) (count : Nat)
    (ready : Ready A around draw number p) :
    ∃ vs q, (Draw.replicate draw count).run around p = (.ok vs, q) ∧
      (∀ v ∈ vs, Gives A around draw v) ∧ ∃ later, Ready A around draw later q := by
  induction count generalizing number p with
  | zero => exact ⟨[], p, rfl, by simp, number, ready⟩
  | succ count ih =>
    obtain ⟨v, returned⟩ := never number p ready
    have after : Ready A around draw (number + 1) (draw.run around p).2 := .next ready (.refl A _)
    obtain ⟨vs, q, others, given, later⟩ := ih after
    have first : draw.run around p = (.ok v, (draw.run around p).2) := Prod.ext returned rfl
    refine ⟨v :: vs, q, ?_, ?_, later⟩
    · rw [Draw.replicate, run_bind, first]
      simp only
      rw [run_bind, others]
      rfl
    · intro u member
      rcases List.mem_cons.mp member with rfl | member
      · exact ⟨number, p, ready, returned⟩
      · exact given u member

end Draw

/-! ### Candidates -/

namespace Strategy

open Draw

variable {A : Cell → Prop} {around : Surroundings} {items : Strategy} {m n number : Nat}
  {p : Progress}

/-- **One candidate.** A set of more elements than there are unequal items is not found; the items
    can be drawn again afterwards. -/
theorem candidate_small_set (max : Nat) (never : NeverMisses A around items.draw)
    (few : TakesAtMost A around items.draw n) (more : n < m) (monitor : Monitor)
    (asks : monitor.acceptance = .sized m) (ready : Ready A around items.draw number p) :
    ∃ q, (candidate monitor (Strategy.set items m max).draw).run around p = (.ok none, q) ∧
      ∃ later, Ready A around items.draw later q := by
  -- Asking for the number of items changes no memory.
  obtain ⟨vs, q, drawn, given, later⟩ := never.replicate
    (Sampler.between m max around.choices p.question).1
    (p := { p with question := (Sampler.between m max around.choices p.question).2 })
    (ready.of_agrees (.refl A _))
  have small : (Value.elementsOf vs).length ≤ n :=
    few _ (Value.distinct_elementsOf vs) fun v member =>
      given v (Value.mem_of_mem_elementsOf member)
  have set : (Strategy.set items m max).draw.run around p =
      (.ok (.set (Value.elementsOf vs)), q) := by
    rw [Strategy.draw, run_bind, run_sample]
    simp only
    rw [run_bind, drawn]
    rfl
  refine ⟨q, ?_, later⟩
  rw [candidate, run_bind, set]
  simp only [asks, judge]
  rw [if_neg (by omega)]
  rfl

end Strategy

/-! ### Searches -/

/-- **One search without acceptances.** If every candidate of a source is rejected, in the states
    that the source goes through, then a search with a positive rate ends with the first candidate
    at which the breaker may trip, and leaves the source in such a state. -/
theorem Breaker.seek_all_rejected {σ ε β : Type} {b : Breaker} {next : σ → Attempt ε β × σ}
    {R : σ → Prop} (positive : 0 < b.minSuccessRate)
    (rejected : ∀ s, R s → (next s).1 = .ok none ∧ R (next s).2) {patience trials : Nat}
    (enough : max b.minTrials (trials + 1) ≤ trials + patience) {s : σ} (start : R s) :
    ∃ s', R s' ∧ b.seek next patience ⟨trials, 0⟩ s =
      (.tripped ⟨max b.minTrials (trials + 1), 0⟩, ⟨max b.minTrials (trials + 1), 0⟩, s') := by
  -- The trials grow along with the source, which keeps the invariant `R` from state to state.
  induction patience generalizing trials s with
  | zero => omega
  | succ patience ih =>
    obtain ⟨nothing, after⟩ := rejected s start
    have trips := tripped_without_successes positive (Nat.succ_pos trials)
    by_cases late : b.minTrials ≤ trials + 1
    · have asked : next s = (.ok none, (next s).2) := Prod.ext nothing rfl
      refine ⟨(next s).2, after, ?_⟩
      rw [max_eq_right late, seek, asked]
      simp only [Tally.record, Option.isSome_none, Bool.false_eq_true, if_false]
      rw [if_pos (trips.mpr late)]
    · have waits : b.tripped (Tally.record ⟨trials, 0⟩ false) = false :=
        Bool.eq_false_iff.mpr fun tripped => late (trips.mp tripped)
      have same : max b.minTrials (trials + 1) = max b.minTrials (trials + 1 + 1) := by omega
      rw [seek_rejected nothing waits, same]
      have enough : max b.minTrials (trials + 1 + 1) ≤ trials + 1 + patience := by omega
      exact ih enough after

/-- The candidates that have been tried when a number of draws is over. -/
def Breaker.triedAfter (b : Breaker) : (number : Nat) → Nat
  | 0 => 0
  | number + 1 => max 1 b.minTrials + number

/-- Each draw tries candidates until the breaker may trip, and at least one. -/
theorem Breaker.triedAfter_succ (b : Breaker) (number : Nat) :
    max b.minTrials (b.triedAfter number + 1) = b.triedAfter (number + 1) := by
  cases number <;> simp only [triedAfter] <;> omega

/-! ### Draws -/

namespace Draw

variable {around : Surroundings} {items : Strategy} {m n number count : Nat} {p : Progress}
  {breaker : Breaker} {cell : Cell} (positive : 0 < breaker.minSuccessRate)
  (patient : max 1 breaker.minTrials ≤ around.patience)
  (never : NeverMisses (Cell.Owns (1 :: cell)) around items.draw)
  (few : TakesAtMost (Cell.Owns (1 :: cell)) around items.draw n) (more : n < m)

include positive patient never few more

/-- **One draw.** Where the earlier draws have tried their candidates and items can be drawn, the
    next draw of a set of too many elements is refused, and the items can be drawn again. -/
theorem search_small_set (greatest : Nat) (path : Path)
    (tally : p.memory.tally cell = ⟨breaker.triedAfter number, 0⟩)
    (ready : Ready (Cell.Owns (1 :: cell)) around items.draw count p) :
    let monitor : Monitor := ⟨cell, path, breaker, .sized m⟩
    let drawn := (search monitor (Strategy.set items m greatest).draw).run around p
    drawn.1 = .error (.refused (.infeasible path (breaker.triedAfter (number + 1)) 0)) ∧
      drawn.2.memory.tally cell = ⟨breaker.triedAfter (number + 1), 0⟩ ∧
      ∃ later, Ready (Cell.Owns (1 :: cell)) around items.draw later drawn.2 := by
  intro monitor drawn
  -- What all states of the search have in common is that items can be drawn.
  let next := (candidate monitor (Strategy.set items m greatest).draw).run around
  have rejected : ∀ s, (∃ count, Ready (Cell.Owns (1 :: cell)) around items.draw count s) →
      (next s).1 = .ok none ∧ ∃ later, Ready (Cell.Owns (1 :: cell)) around items.draw later
        (next s).2 := by
    rintro s ⟨count, ready⟩
    obtain ⟨q, found, later⟩ :=
      Strategy.candidate_small_set greatest never few more monitor rfl ready
    rw [show next s = (.ok none, q) from found]
    exact ⟨rfl, later⟩
  have enough : max breaker.minTrials (breaker.triedAfter number + 1) ≤
      breaker.triedAfter number + around.patience := by
    cases number <;> simp only [Breaker.triedAfter] <;> omega
  obtain ⟨q, ⟨later, ready⟩, found⟩ :=
    Breaker.seek_all_rejected positive rejected enough ⟨count, ready⟩
  rw [Breaker.triedAfter_succ] at found
  -- The tally of the set lies outside of the memory of its items.
  have foreign : ¬ Cell.Owns (1 :: cell) cell := fun own => by
    have longer := own.suffix.length_le
    simp at longer
  have ended : drawn = (.error (.refused (.infeasible path (breaker.triedAfter (number + 1)) 0)),
      { q with
        memory := q.memory.setTally cell ⟨breaker.triedAfter (number + 1), 0⟩
        log := .tripped (.infeasible path (breaker.triedAfter (number + 1)) 0) :: q.log }) := by
    simp only [drawn, run_search, monitor, tally]
    rw [found]
    rfl
  rw [ended]
  refine ⟨rfl, (Memory.tally_setTally _ _ _ _).trans (if_pos rfl), later, ?_⟩
  exact ready.of_agrees (Memory.agreesOn_setTally foreign _ _)

/-- **All draws.** After any number of draws of a set of too many elements, its tally shows all
    their candidates and no acceptance, and the items can be drawn again. -/
theorem Ready.small_set {greatest : Nat} {path : Path}
    (ready : Ready cell.Owns around
      (search ⟨cell, path, breaker, .sized m⟩ (Strategy.set items m greatest).draw) number p) :
    p.memory.tally cell = ⟨breaker.triedAfter number, 0⟩ ∧
      ∃ count, Ready (Cell.Owns (1 :: cell)) around items.draw count p := by
  have inside : ∀ other, Cell.Owns (1 :: cell) other → cell.Owns other :=
    fun _ => Cell.Owns.of_child Nat.one_pos
  induction ready with
  | first blank => exact ⟨blank.tally cell cell.owns_self, 0, .first (blank.mono inside)⟩
  | next _ same ih =>
    obtain ⟨tally, count, ready⟩ := ih
    obtain ⟨_, tried, later, ready⟩ :=
      search_small_set positive patient never few more greatest path tally ready
    exact ⟨(same.tally cell cell.owns_self).trans tried, later, ready.of_agrees (same.mono inside)⟩

end Draw

namespace Schema

open Draw

variable {config : Config} {item : Schema} {items : Strategy} {bounds : SizeBounds}
  {around : Surroundings} {m n : Nat} {cell : Cell} {path : Path}

/-- **Sets over few values.** Let a set schema ask for more elements than its items take unequal
    values, and let no draw of an item miss.  The schema compiles if the sum that stands in for a
    missing greatest number fits a machine word.  Where it compiles, with a positive rate, no draw
    of the set gives a value: each is refused at the set, the first after as many candidates as the
    breaker waits for, but at least one, and every later one after one more. -/
theorem small_set_refused (id : SchemaId)
    (compiled : (compileInput config Resolver.empty item (1 :: cell) (path.into .element)).outcome =
      .ok items)
    (least : bounds.min = some m) (most : ∀ max, bounds.max = some max → m ≤ max)
    (positive : 0 < config.minSuccessRate) (patient : max 1 config.minTrials ≤ around.patience)
    (never : NeverMisses (Cell.Owns (1 :: cell)) around items.draw)
    (few : TakesAtMost (Cell.Owns (1 :: cell)) around items.draw n) (more : n < m) :
    let outcome :=
      (compileInput config Resolver.empty (.node id (.set item bounds)) cell path).outcome
    (m + config.maxExtraLength < Config.wordSize → ∃ strategy, outcome = .ok strategy) ∧
      ∀ strategy, outcome = .ok strategy →
        ∀ number p, Ready cell.Owns around strategy.draw number p →
          p.memory.tally cell =
            ⟨if number = 0 then 0 else max 1 config.minTrials + number - 1, 0⟩ ∧
          (strategy.draw.run around p).1 =
            .error (.refused (.infeasible path (max 1 config.minTrials + number) 0)) ∧
          (strategy.draw.run around p).2.memory.tally cell =
            ⟨max 1 config.minTrials + number, 0⟩ := by
  intro outcome
  have asks : 0 < m := Nat.zero_lt_of_lt more
  refine ⟨fun fits => ?_, fun strategy built number p ready => ?_⟩
  · obtain ⟨fits, greatest, range⟩ := Config.exists_sizeRange least most fits
    exact ⟨_, compileInput_set rfl compiled fits range asks⟩
  obtain ⟨greatest, rfl⟩ := exists_of_compileInput_set rfl compiled least asks built
  have positive : 0 < config.breaker.minSuccessRate := positive
  have patient : max 1 config.breaker.minTrials ≤ around.patience := patient
  obtain ⟨tally, count, ready⟩ := Ready.small_set positive patient never few more ready
  obtain ⟨refused, tried, _⟩ :=
    search_small_set positive patient never few more greatest path tally ready
  refine ⟨tally.trans ?_, refused, tried⟩
  cases number <;> rfl

/-- No three booleans are pairwise unequal, so a set of three is never found.  With two candidates
    before the breaker may trip, the first draw is refused after two and the second after one
    more. -/
theorem small_set_refused_booleans :
    let config : Config := { Config.standard with minTrials := 2 }
    let around : Surroundings := ⟨fun _ _ => 0, fun _ => none, 1, 2⟩
    let items : Strategy := .sample (.bool <$> Sampler.bool)
    (compileInput config Resolver.empty (.node 0 .boolean) [1] (Path.root.into .element)).outcome =
        .ok items ∧
      NeverMisses (Cell.Owns [1]) around items.draw ∧
      TakesAtMost (Cell.Owns [1]) around items.draw 2 ∧
      ∃ strategy, (compileInput config Resolver.empty
          (.node 1 (.set (.node 0 .boolean) ⟨some 3, none⟩)) [] .root).outcome = .ok strategy ∧
        let first := strategy.draw.run around (.start 0)
        first.1 = .error (.refused (.infeasible .root 2 0)) ∧
          (strategy.draw.run around first.2).1 = .error (.refused (.infeasible .root 3 0)) := by
  intro config around items
  have never : NeverMisses (Cell.Owns [1]) around items.draw := fun _ _ _ => ⟨_, rfl⟩
  have few : TakesAtMost (Cell.Owns [1]) around items.draw 2 := by
    intro vs distinct given
    obtain ⟨bs, rfl⟩ : vs ∈ Set.range (List.map Value.bool) := by
      rw [Set.range_list_map]
      intro v member
      obtain ⟨_, p, _, returned⟩ := given v member
      cases returned
      exact ⟨_, rfl⟩
    have nodup : bs.Nodup := by
      refine (List.pairwise_map.mp distinct).imp ?_
      rintro a b differ rfl
      rw [Value.beq_self] at differ
      cases differ
    rw [List.length_map]
    exact nodup.length_le_card
  have compiled : (compileInput config Resolver.empty (.node 0 .boolean) [1]
      (Path.root.into .element)).outcome = .ok items := rfl
  have least : SizeBounds.min ⟨some 3, none⟩ = some 3 := rfl
  obtain ⟨compiles, refused⟩ := small_set_refused 1 compiled least (by rintro max ⟨⟩) (by decide)
    (by decide) never few (by decide)
  obtain ⟨strategy, built⟩ := compiles (by decide)
  have start : Ready (Cell.Owns []) around strategy.draw 0 (.start 0) := .first (.refl _ _)
  exact ⟨compiled, never, few, strategy, built, (refused strategy built 0 _ start).2.1,
    (refused strategy built 1 _ (.next start (.refl _ _))).2.1⟩

end Schema

end SchemaSampler
