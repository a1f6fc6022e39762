import Mathlib.Data.List.Forall2
import SchemaSampler.Proofs.Random.Yields
import SchemaSampler.Proofs.Value.Collection
import SchemaSampler.Proofs.Value.Members
import SchemaSampler.Strategy.Draw

namespace SchemaSampler

/-!
# What draws yield

`Draw.Yields` says that every value a draw comes to has a property, whatever the choices are and
whatever happened before.  There is one lemma for each form of strategy; the lemma of a monitor
says that what it lets through passed its test (`yields_monitored`).
-/

namespace Draw

variable {α β : Type}

/-- The outcome of a draw and what it changes. -/
def run (d : Draw α) (around : Surroundings) (p : Progress) : Except Miss α × Progress := d around p

/-- A draw that goes on with what another one comes to makes the other one first, and misses with
    it. -/
theorem run_bind (d : Draw α) (f : α → Draw β) (around : Surroundings) (p : Progress) :
    run (d >>= f) around p =
      match run d around p with
      | (.ok a, p') => run (f a) around p'
      | (.error miss, p') => (.error miss, p') := by
  show (d >>= f) around p = _
  simp only [run]
  rcases h : d around p with ⟨_ | a, p'⟩
  · simp only [bind, ReaderT.bind, ExceptT.bind, ExceptT.mk, StateT.bind, ExceptT.bindCont, h]
    rfl
  · simp only [bind, ReaderT.bind, ExceptT.bind, ExceptT.mk, StateT.bind, ExceptT.bindCont, h]

/-- A question to the choices changes nothing but the number of the next question. -/
theorem run_sample (sampler : Sampler α) (around : Surroundings) (p : Progress) :
    run (sample sampler) around p =
      (.ok (sampler around.choices p.question).1,
        { p with question := (sampler around.choices p.question).2 }) := rfl

/-- A serial number is handed out once. -/
theorem run_fresh (around : Surroundings) (p : Progress) :
    run fresh around p = (.ok p.serial, { p with serial := p.serial + 1 }) := rfl

/-- A turn of a cell comes to the number of the turns before. -/
theorem run_turn (cell : Cell) (around : Surroundings) (p : Progress) :
    run (turn cell) around p =
      (.ok (p.memory.turn cell),
        { p with memory := p.memory.setTurn cell (p.memory.turn cell + 1) }) := rfl

/-- A test takes a turn, which gives it a place of its own, and stalls where the parse has no
    outcome. -/
theorem run_test (cell : Cell) (schema : Schema) (v : Value) (around : Surroundings)
    (p : Progress) :
    run (test cell schema v) around p =
      (match schema.parse around.definitions around.depth [.trial cell (p.memory.turn cell)] v with
        | some outcome => .ok outcome
        | none => .error .stalled,
        { p with memory := p.memory.setTurn cell (p.memory.turn cell + 1) }) := by
  show (match schema.parse around.definitions around.depth [.trial cell (p.memory.turn cell)] v with
      | some outcome => pure outcome
      | none => throw .stalled : ExceptT Miss (StateM Progress) (Except ParseError Value))
    { p with memory := p.memory.setTurn cell (p.memory.turn cell + 1) } = _
  cases schema.parse around.definitions around.depth [.trial cell (p.memory.turn cell)] v <;> rfl

/-- The test of one candidate of a monitor. -/
def candidate (monitor : Monitor) (source : Draw Value) : Draw (Option Value) := do
  judge monitor.cell monitor.acceptance (← source)

/-- The outcome of a search from the way it ended. -/
def outcomeOf (path : Path) : Ending Miss Value → Except Miss Value
  | .accepted v => .ok v
  | .tripped t => .error (.refused (.infeasible path t.trials t.successes))
  | .refused miss => .error miss
  | .stalled => .error .stalled

/-- Only a search that ended with an accepted candidate comes to a value. -/
theorem accepted_of_outcomeOf {path : Path} {ending : Ending Miss Value} {v : Value}
    (h : outcomeOf path ending = .ok v) : ending = .accepted v := by
  cases ending <;> cases h
  rfl

/-- What the end of a search adds to the log. -/
def eventsOf (path : Path) : Ending Miss Value → List Event
  | .tripped t => [.tripped (.infeasible path t.trials t.successes)]
  | _ => []

/-- A search comes to what its breaker says, and remembers the tally that the breaker left. -/
theorem run_search (monitor : Monitor) (source : Draw Value) (around : Surroundings)
    (p : Progress) :
    run (search monitor source) around p =
      let found := monitor.breaker.seek (run (candidate monitor source) around) around.patience
        (p.memory.tally monitor.cell) p
      (outcomeOf monitor.path found.1,
        { found.2.2 with
          memory := found.2.2.memory.setTally monitor.cell found.2.1
          log := eventsOf monitor.path found.1 ++ found.2.2.log }) := by
  show search monitor source around p = _
  have folded : (do judge monitor.cell monitor.acceptance (← source) : Draw (Option Value)) around =
      run (candidate monitor source) around := rfl
  unfold search
  simp only [folded]
  simp only [bind, ExceptT.bind, ExceptT.mk, StateT.bind, ExceptT.bindCont, get, getThe,
    MonadStateOf.get, liftM, monadLift, MonadLift.monadLift, ExceptT.lift, StateT.get, pure,
    Functor.map, StateT.map]
  rcases monitor.breaker.seek (run (candidate monitor source) around) around.patience
    (p.memory.tally monitor.cell) p with ⟨ending, tally, p'⟩
  cases ending <;> rfl

/-! ### Yields -/

/-- Every value that a draw comes to has a property. -/
def Yields (d : Draw α) (around : Surroundings) (Q : α → Prop) : Prop :=
  ∀ p a, (run d around p).1 = .ok a → Q a

variable {d : Draw α} {around : Surroundings} {Q Q' : α → Prop} {R : β → Prop}

/-- A weaker property is one of every value, too. -/
theorem Yields.imp (h : d.Yields around Q) (weaker : ∀ a, Q a → Q' a) : d.Yields around Q' :=
  fun p a returns => weaker a (h p a returns)

/-- Two properties hold together. -/
theorem Yields.and (h : d.Yields around Q) (h' : d.Yields around Q') :
    d.Yields around fun a => Q a ∧ Q' a :=
  fun p a returns => ⟨h p a returns, h' p a returns⟩

/-- What is given without a draw has the property if it does. -/
theorem yields_pure {a : α} (h : Q a) : Yields (pure a) around Q := by
  rintro p a ⟨⟩
  exact h

/-- A draw that misses comes to no value at all. -/
theorem yields_throw (miss : Miss) : Yields (throw miss) around Q := by
  rintro p a ⟨⟩

/-- Going on with a value of which a property is known. -/
theorem Yields.bind {f : α → Draw β} (h : d.Yields around Q)
    (next : ∀ a, Q a → (f a).Yields around R) : Yields (d >>= f) around R := by
  intro p b returns
  rw [run_bind] at returns
  rcases hd : run d around p with ⟨_ | a, p'⟩
  · rw [hd] at returns
    cases returns
  · rw [hd] at returns
    exact next a (h p a (by rw [hd])) p' b returns

/-- What a sampler gives to all choices is drawn. -/
theorem yields_sample {sampler : Sampler α} (h : sampler.Yields Q) :
    Yields (sample sampler) around Q := by
  rintro p a ⟨⟩
  exact h around.choices p.question

theorem yields_fresh : Yields fresh around fun _ => True := fun _ _ _ => trivial

/-- Repeated draws come to as many values, each with the property. -/
theorem yields_replicate (h : d.Yields around Q) (n : Nat) :
    Yields (replicate d n) around fun items => items.length = n ∧ ∀ a ∈ items, Q a := by
  induction n with
  | zero => exact yields_pure ⟨rfl, by simp⟩
  | succ n ih =>
    refine h.bind fun a ha => ih.bind fun rest hrest => yields_pure ⟨by simp [hrest.1], ?_⟩
    intro b member
    rcases List.mem_cons.mp member with rfl | member
    · exact ha
    · exact hrest.2 b member

/-- A key and a value that are drawn one after the other have their properties. -/
theorem yields_pair {key value : Draw Value} {K V : Value → Prop} (hkey : key.Yields around K)
    (hvalue : value.Yields around V) :
    Yields (pair key value) around fun e => K e.1 ∧ V e.2 :=
  hkey.bind fun _ hk => hvalue.bind fun _ hv => yields_pure ⟨hk, hv⟩

/-! ### Searches -/

/-- What a monitor lets through passed its test. -/
def Admits (around : Surroundings) (cell : Cell) : Acceptance → (v image : Value) → Prop
  | .accepted schema, v, image =>
    image = v ∧ ∃ n w,
      schema.parse around.definitions around.depth [.trial cell n] v = some (.ok w)
  | .parsed schema, v, image =>
    ∃ n, schema.parse around.definitions around.depth [.trial cell n] v = some (.ok image)
  | .sized min, v, image => image = v ∧ ∃ elements, v = .set elements ∧ min ≤ elements.length

/-- The outcome of a test is that of the parse at the place of the turn. -/
theorem yields_test (cell : Cell) (schema : Schema) (v : Value) :
    Yields (test cell schema v) around fun outcome =>
      ∃ n, schema.parse around.definitions around.depth [.trial cell n] v = some outcome := by
  intro p outcome returns
  rw [run_test] at returns
  refine ⟨p.memory.turn cell, ?_⟩
  split at returns
  · rename_i found
    rw [found]
    cases returns
    rfl
  · cases returns

/-- A candidate becomes something only if the acceptance admits it. -/
theorem yields_judge (cell : Cell) (acceptance : Acceptance) (v : Value) :
    Yields (judge cell acceptance v) around fun image? =>
      ∀ image, image? = some image → Admits around cell acceptance v image := by
  cases acceptance with
  | accepted schema =>
    refine (yields_test cell schema v).bind fun outcome ⟨n, returns⟩ => ?_
    cases outcome with
    | ok w =>
      refine yields_pure ?_
      rintro image ⟨⟩
      exact ⟨rfl, n, w, returns⟩
    | error e =>
      refine yields_pure ?_
      rintro image ⟨⟩
  | parsed schema =>
    refine (yields_test cell schema v).bind fun outcome ⟨n, returns⟩ => ?_
    cases outcome with
    | ok w =>
      refine yields_pure ?_
      rintro image ⟨⟩
      exact ⟨n, returns⟩
    | error e =>
      refine yields_pure ?_
      rintro image ⟨⟩
  | sized min =>
    cases v with
    | set elements =>
      show Yields (pure (if min ≤ elements.length then some (Value.set elements) else none)) around _
      refine yields_pure ?_
      intro image same
      split at same
      · cases same
        exact ⟨rfl, elements, rfl, ‹_›⟩
      · cases same
    | _ =>
      refine yields_pure ?_
      rintro image ⟨⟩

/-- A search that ended with a value had a candidate that became it. -/
theorem exists_of_seek {σ ε β : Type} {breaker : Breaker}
    {next : σ → Except ε (Option β) × σ} {patience : Nat} {tally : Tally} {source : σ} {image : β}
    (h : (breaker.seek next patience tally source).1 = .accepted image) :
    ∃ source', (next source').1 = .ok (some image) := by
  induction patience generalizing tally source with
  | zero => cases h
  | succ patience ih =>
    unfold Breaker.seek at h
    rcases hnext : next source with ⟨_ | found, after⟩
    · rw [hnext] at h
      cases h
    · rw [hnext] at h
      simp only at h
      split at h
      · cases h
      · cases found with
        | none => exact ih h
        | some v =>
          cases h
          exact ⟨source, by rw [hnext]⟩

/-- What a monitored source yields passed the monitor's test. -/
theorem yields_search {monitor : Monitor} {source : Draw Value} {Q : Value → Prop}
    (h : source.Yields around Q) :
    Yields (search monitor source) around fun image =>
      ∃ v, Q v ∧ Admits around monitor.cell monitor.acceptance v image := by
  intro p image returns
  rw [run_search] at returns
  obtain ⟨p', found⟩ := exists_of_seek (accepted_of_outcomeOf returns)
  have each : (candidate monitor source).Yields around fun image? =>
      ∀ image, image? = some image →
        ∃ v, Q v ∧ Admits around monitor.cell monitor.acceptance v image :=
    h.bind fun v hv => (yields_judge _ _ v).imp fun image? admits image same =>
      ⟨v, hv, admits image same⟩
  exact each p' _ found image rfl

end Draw

/-! ### Strategies -/

namespace Strategy

open Draw

variable {around : Surroundings} {Q K V : Value → Prop}

/-- An array has a number of elements in the range, all of them drawn for the items. -/
theorem yields_array {item : Strategy} (h : item.draw.Yields around Q) {min max : Nat}
    (range : min ≤ max) :
    (draw (.array item min max)).Yields around fun v =>
      ∃ items, v = .array items ∧ min ≤ items.length ∧ items.length ≤ max ∧ ∀ i ∈ items, Q i := by
  refine (yields_sample (Sampler.yields_between range)).bind fun n hn => ?_
  refine (Draw.yields_replicate h n).bind fun items hitems => Draw.yields_pure ?_
  exact ⟨items, rfl, by omega, by omega, hitems.2⟩

/-- A set is made of at most so many drawn elements; equal ones have merged. -/
theorem yields_set {item : Strategy} (h : item.draw.Yields around Q) {min max : Nat}
    (range : min ≤ max) :
    (draw (.set item min max)).Yields around fun v =>
      ∃ items, v = Value.setOfItems items ∧ items.length ≤ max ∧ ∀ i ∈ items, Q i := by
  refine (yields_sample (Sampler.yields_between range)).bind fun n hn => ?_
  refine (Draw.yields_replicate h n).bind fun items hitems => Draw.yields_pure ?_
  exact ⟨items, rfl, by omega, hitems.2⟩

/-- Members are drawn in the order of the fields, each under the name of its field. -/
theorem yields_members {γ : Type} {N : γ → String} {P : γ → Value → Prop} {goals : List γ}
    {fields : List (String × Strategy)}
    (h : List.Forall₂ (fun g f => f.1 = N g ∧ f.2.draw.Yields around (P g)) goals fields) :
    (drawMembers fields).Yields around
      (List.Forall₂ (fun g m => m.1 = N g ∧ P g m.2) goals) := by
  induction h with
  | nil => exact Draw.yields_pure .nil
  | cons head _ ih =>
    exact head.2.bind fun v hv => ih.bind fun others hothers =>
      Draw.yields_pure (.cons ⟨head.1, hv⟩ hothers)

/-- The slots are drawn in order. -/
theorem yields_all {γ : Type} {P : γ → Value → Prop} {goals : List γ} {slots : List Strategy}
    (h : List.Forall₂ (fun g slot => slot.draw.Yields around (P g)) goals slots) :
    (drawAll slots).Yields around (List.Forall₂ P goals) := by
  induction h with
  | nil => exact Draw.yields_pure .nil
  | cons head _ ih =>
    exact head.bind fun v hv => ih.bind fun others hothers =>
      Draw.yields_pure (.cons hv hothers)

/-- No further elements are drawn without a strategy for them. -/
theorem yields_further {rest : Option Strategy} {maxExtra : Nat}
    (h : ∀ strategy, rest = some strategy → strategy.draw.Yields around Q) :
    (drawFurther rest maxExtra).Yields around fun items =>
      (rest = none → items = []) ∧ ∀ i ∈ items, Q i := by
  cases rest with
  | none => exact Draw.yields_pure ⟨fun _ => rfl, by simp⟩
  | some strategy =>
    refine (yields_sample (Sampler.yields_between (Nat.zero_le maxExtra))).bind fun n _ => ?_
    refine (Draw.yields_replicate (h strategy rfl) n).imp fun items hitems => ⟨?_, hitems.2⟩
    rintro ⟨⟩

/-- A tuple has an element for each slot, and the further ones after them. -/
theorem yields_tuple {γ : Type} {P : γ → Value → Prop} {goals : List γ} {slots : List Strategy}
    {rest : Option Strategy} {maxExtra : Nat}
    (hslots : List.Forall₂ (fun g slot => slot.draw.Yields around (P g)) goals slots)
    (hrest : ∀ strategy, rest = some strategy → strategy.draw.Yields around Q) :
    (draw (.tuple slots rest maxExtra)).Yields around fun v =>
      ∃ items further, v = .array (items ++ further) ∧ List.Forall₂ P goals items ∧
        (rest = none → further = []) ∧ ∀ i ∈ further, Q i := by
  refine (yields_all hslots).bind fun items hitems => ?_
  refine (yields_further hrest).bind fun further hfurther => Draw.yields_pure ?_
  exact ⟨items, further, rfl, hitems, hfurther.1, hfurther.2⟩

/-- An object is made of the drawn members, of which a later one replaces an earlier one of its
    name. -/
theorem yields_object {γ : Type} {N : γ → String} {P : γ → Value → Prop} {goals : List γ}
    {fields : List (String × Strategy)}
    (h : List.Forall₂ (fun g f => f.1 = N g ∧ f.2.draw.Yields around (P g)) goals fields) :
    (draw (.object fields)).Yields around fun v =>
      ∃ members, v = Value.objectOf members ∧
        List.Forall₂ (fun g m => m.1 = N g ∧ P g m.2) goals members :=
  (yields_members h).bind fun members hmembers => Draw.yields_pure ⟨members, rfl, hmembers⟩

/-- A record has members of drawn keys that are texts. -/
theorem yields_record {key value : Strategy} {max : Nat} (hkey : key.draw.Yields around K)
    (hvalue : value.draw.Yields around V) :
    (draw (.record key value max)).Yields around fun v =>
      ∃ members, v = Value.objectOf members ∧ ∀ m ∈ members, K (.string m.1) ∧ V m.2 := by
  refine (yields_sample (Sampler.yields_between (Nat.zero_le max))).bind fun n _ => ?_
  refine (Draw.yields_replicate (yields_pair hkey hvalue) n).bind fun pairs hpairs =>
    Draw.yields_pure ⟨textMembers pairs, rfl, ?_⟩
  intro m member
  obtain ⟨⟨k, v⟩, hpair, same⟩ := List.mem_filterMap.mp member
  obtain ⟨name, hname, rfl⟩ := Option.map_eq_some_iff.mp same
  have := hpairs.2 (k, v) hpair
  cases k <;> cases hname
  exact this

/-- A map is made of the drawn entries. -/
theorem yields_map {key value : Strategy} {max : Nat} (hkey : key.draw.Yields around K)
    (hvalue : value.draw.Yields around V) :
    (draw (.map key value max)).Yields around fun v =>
      ∃ pairs, v = Value.mapOfPairs pairs ∧ ∀ e ∈ pairs, K e.1 ∧ V e.2 := by
  refine (yields_sample (Sampler.yields_between (Nat.zero_le max))).bind fun n _ => ?_
  refine (Draw.yields_replicate (yields_pair hkey hvalue) n).bind fun pairs hpairs =>
    Draw.yields_pure ⟨pairs, rfl, hpairs.2⟩

/-- A drawn function gives one drawn value to every call. -/
theorem yields_function {result : Strategy} (h : result.draw.Yields around Q) :
    (draw (.function result)).Yields around fun v =>
      ∃ serial w, v = .function ⟨.made serial, .constant w, []⟩ ∧ Q w :=
  h.bind fun w hw => yields_fresh.bind fun serial _ => Draw.yields_pure ⟨serial, w, rfl, hw⟩

/-- A drawn promise is settled with a drawn value. -/
theorem yields_promise {inner : Strategy} (h : inner.draw.Yields around Q) :
    (draw (.promise inner)).Yields around fun v => ∃ w, v = .promise w ∧ Q w :=
  h.bind fun w hw => Draw.yields_pure ⟨w, rfl, hw⟩

/-- A ticket falls to one of the options, or to none. -/
theorem yields_drawAt {options : List (Nat × Strategy)} {ticket : Nat}
    (h : ∀ option ∈ options, option.2.draw.Yields around Q) :
    (drawAt options ticket).Yields around Q := by
  induction options generalizing ticket with
  | nil => exact yields_throw _
  | cons option rest ih =>
    obtain ⟨weight, strategy⟩ := option
    show Draw.Yields (if ticket < weight then draw strategy else drawAt rest (ticket - weight))
      around Q
    split
    · exact h (weight, strategy) (by simp)
    · exact ih fun option member => h option (by simp [member])

/-- A property of all options is one of the union, whatever the weights are. -/
theorem yields_union {options : List (Nat × Strategy)}
    (h : ∀ option ∈ options, option.2.draw.Yields around Q) :
    (draw (.union options)).Yields around Q :=
  (yields_sample (Sampler.yields_upTo _)).bind fun _ _ => yields_drawAt h

/-- The same for options of one weight each. -/
theorem yields_oneOf {options : List Strategy}
    (h : ∀ option ∈ options, option.draw.Yields around Q) :
    (draw (.oneOf options)).Yields around Q := by
  refine yields_union fun option member => ?_
  obtain ⟨strategy, hstrategy, rfl⟩ := List.mem_map.mp member
  exact h strategy hstrategy

/-- A strategy for one value draws that value. -/
theorem yields_just {v : Value} (h : Q v) : (draw (.just v)).Yields around Q :=
  yields_sample (Sampler.yields_pure h)

theorem yields_symbol : (draw .symbol).Yields around fun v => ∃ s, v = .symbol s :=
  yields_fresh.bind fun _ _ => Draw.yields_pure ⟨_, rfl⟩

/-- What a monitored strategy yields passed the monitor's test. -/
theorem yields_monitored {monitor : Monitor} {source : Strategy}
    (h : source.draw.Yields around Q) :
    (draw (.monitored monitor source)).Yields around fun image =>
      ∃ v, Q v ∧ Admits around monitor.cell monitor.acceptance v image :=
  yields_search h

end Strategy

end SchemaSampler
