import SchemaSampler.Proofs.Strategy.Cells
import SchemaSampler.Proofs.Strategy.Yields

namespace SchemaSampler

/-!
# Locality — a draw depends on the memory of its strategy only

Two states of drawing that agree on the memory of a strategy (`Progress.AgreesOn`) lead to the same
outcome, and to states that agree again (`Strategy.Within.local`).  So what one strategy remembers
has no influence on another, and a run can be replayed where more is remembered.
-/

/-- Two states in which the next question, the next serial number and the memory of certain cells
    are the same. -/
structure Progress.AgreesOn (A : Cell → Prop) (p q : Progress) : Prop where
  question : p.question = q.question
  serial : p.serial = q.serial
  tally : ∀ cell, A cell → p.memory.tally cell = q.memory.tally cell
  turn : ∀ cell, A cell → p.memory.turn cell = q.memory.turn cell

/-! ### Memory -/

section Changes

variable {A : Cell → Prop} {p q : Progress} {cell other : Cell}

/-- A tally is remembered for its cell, and no other cell changes. -/
theorem Memory.tally_setTally (m : Memory) (cell other : Cell) (t : Tally) :
    (m.setTally cell t).tally other = if other = cell then t else m.tally other := by
  unfold Memory.setTally Memory.tally
  by_cases same : other = cell
  · subst same
    rw [if_pos rfl, CellMap.find?_put_self]
    rfl
  · rw [if_neg same, CellMap.find?_put_of_ne _ same]

/-- A number of turns is remembered for its cell, and no other cell changes. -/
theorem Memory.turn_setTurn (m : Memory) (cell other : Cell) (n : Nat) :
    (m.setTurn cell n).turn other = if other = cell then n else m.turn other := by
  unfold Memory.setTurn Memory.turn
  by_cases same : other = cell
  · subst same
    rw [if_pos rfl, CellMap.find?_put_self]
    rfl
  · rw [if_neg same, CellMap.find?_put_of_ne _ same]

theorem Progress.AgreesOn.refl (A : Cell → Prop) (p : Progress) : p.AgreesOn A p :=
  ⟨rfl, rfl, fun _ _ => rfl, fun _ _ => rfl⟩

/-- The same tally put into the same cell. -/
theorem Progress.AgreesOn.setTally (h : p.AgreesOn A q) (cell : Cell) (t : Tally)
    (log log' : List Event) :
    Progress.AgreesOn A { p with memory := p.memory.setTally cell t, log := log }
      { q with memory := q.memory.setTally cell t, log := log' } := by
  refine ⟨h.question, h.serial, fun other own => ?_, h.turn⟩
  simp only [Memory.tally_setTally]
  split
  · rfl
  · exact h.tally other own

/-- The same number of turns put into the same cell. -/
theorem Progress.AgreesOn.setTurn (h : p.AgreesOn A q) (cell : Cell) (n : Nat) :
    Progress.AgreesOn A { p with memory := p.memory.setTurn cell n }
      { q with memory := q.memory.setTurn cell n } := by
  refine ⟨h.question, h.serial, h.tally, fun other own => ?_⟩
  simp only [Memory.turn_setTurn]
  split
  · rfl
  · exact h.turn other own

/-- A tally put into another cell makes no difference. -/
theorem Progress.AgreesOn.setTally_right (h : p.AgreesOn A q) (foreign : ¬ A cell) (t : Tally)
    (log : List Event) :
    p.AgreesOn A { q with memory := q.memory.setTally cell t, log := log } := by
  refine ⟨h.question, h.serial, fun other own => ?_, h.turn⟩
  have differs : other ≠ cell := fun same => foreign (same ▸ own)
  rw [Memory.tally_setTally, if_neg differs, h.tally other own]

/-- A number of turns put into another cell makes no difference. -/
theorem Progress.AgreesOn.setTurn_right (h : p.AgreesOn A q) (foreign : ¬ A cell) (n : Nat) :
    p.AgreesOn A { q with memory := q.memory.setTurn cell n } := by
  refine ⟨h.question, h.serial, h.tally, fun other own => ?_⟩
  have differs : other ≠ cell := fun same => foreign (same ▸ own)
  rw [Memory.turn_setTurn, if_neg differs, h.turn other own]

end Changes

/-! ### Draws -/

namespace Draw

variable {α β : Type} {A : Cell → Prop} {around : Surroundings} {d : Draw α}

/-- States that agree on certain cells lead to the same outcome and to states that agree again. -/
def Local (A : Cell → Prop) (around : Surroundings) (d : Draw α) : Prop :=
  ∀ p q : Progress, p.AgreesOn A q →
    (d.run around p).1 = (d.run around q).1 ∧
      (d.run around p).2.AgreesOn A (d.run around q).2

/-- What is given without a draw depends on no memory. -/
theorem local_pure (a : α) : Local A around (pure a) := fun _ _ agree => ⟨rfl, agree⟩

/-- Nor does a draw that misses. -/
theorem local_throw (miss : Miss) : Local A around (throw miss : Draw α) :=
  fun _ _ agree => ⟨rfl, agree⟩

/-- One local draw after the other. -/
theorem Local.bind {f : α → Draw β} (h : d.Local A around) (next : ∀ a, (f a).Local A around) :
    Local A around (d >>= f) := by
  intro p q agree
  obtain ⟨same, agree⟩ := h p q agree
  rw [run_bind, run_bind]
  rcases hp : d.run around p with ⟨_ | a, p'⟩ <;> rcases hq : d.run around q with ⟨_ | b, q'⟩ <;>
    rw [hp, hq] at same agree <;> cases same
  · exact ⟨rfl, agree⟩
  · exact next a p' q' agree

/-- Questions to the choices leave the memory alone. -/
theorem local_sample (sampler : Sampler α) : Local A around (sample sampler) := by
  intro p q agree
  rw [run_sample, run_sample, agree.question]
  exact ⟨rfl, rfl, agree.serial, agree.tally, agree.turn⟩

/-- So do serial numbers, which agree on both sides. -/
theorem local_fresh : Local A around fresh := by
  intro p q agree
  rw [run_fresh, run_fresh, agree.serial]
  exact ⟨rfl, agree.question, rfl, agree.tally, agree.turn⟩

/-- A turn depends on its cell only. -/
theorem local_turn {cell : Cell} (own : A cell) : Local A around (turn cell) := by
  intro p q agree
  rw [run_turn, run_turn, agree.turn cell own]
  exact ⟨rfl, agree.setTurn cell _⟩

/-- So does the next value of a cycle. -/
theorem local_next {cell : Cell} (own : A cell) (values : List Value) :
    Local A around (next cell values) :=
  (local_turn own).bind fun _ => local_pure _

/-- A test depends on the cell that numbers it. -/
theorem local_test {cell : Cell} (own : A cell) (schema : Schema) (v : Value) :
    Local A around (test cell schema v) := by
  intro p q agree
  rw [run_test, run_test, agree.turn cell own]
  exact ⟨rfl, agree.setTurn cell _⟩

/-- So does what becomes of a candidate. -/
theorem local_judge {cell : Cell} (own : A cell) (acceptance : Acceptance) (v : Value) :
    Local A around (judge cell acceptance v) := by
  cases acceptance with
  | accepted schema =>
    refine (local_test own schema v).bind fun outcome => ?_
    cases outcome <;> exact local_pure _
  | parsed schema =>
    refine (local_test own schema v).bind fun outcome => ?_
    cases outcome <;> exact local_pure _
  | sized min => cases v <;> exact local_pure _

/-- Repeated draws are as local as one of them. -/
theorem local_replicate (h : d.Local A around) (n : Nat) : Local A around (replicate d n) := by
  induction n with
  | zero => exact local_pure []
  | succ n ih => exact h.bind fun _ => ih.bind fun _ => local_pure _

/-- A key and a value are drawn one after the other. -/
theorem local_pair {key value : Draw Value} (hkey : key.Local A around)
    (hvalue : value.Local A around) : Local A around (pair key value) :=
  hkey.bind fun _ => hvalue.bind fun _ => local_pure _

/-- Searches through sources that go on alike end alike. -/
theorem seek_agrees {σ ε γ : Type} {R : σ → σ → Prop} (breaker : Breaker)
    {next : σ → Except ε (Option γ) × σ}
    (alike : ∀ p q, R p q → (next p).1 = (next q).1 ∧ R (next p).2 (next q).2) (patience : Nat)
    (tally : Tally) {p q : σ} (related : R p q) :
    (breaker.seek next patience tally p).1 = (breaker.seek next patience tally q).1 ∧
      (breaker.seek next patience tally p).2.1 = (breaker.seek next patience tally q).2.1 ∧
        R (breaker.seek next patience tally p).2.2 (breaker.seek next patience tally q).2.2 := by
  induction patience generalizing tally p q with
  | zero => exact ⟨rfl, rfl, related⟩
  | succ patience ih =>
    obtain ⟨same, related⟩ := alike p q related
    unfold Breaker.seek
    rcases hp : next p with ⟨_ | image, p'⟩ <;> rcases hq : next q with ⟨_ | image', q'⟩ <;>
      rw [hp, hq] at same related <;> cases same
    · exact ⟨rfl, rfl, related⟩
    · simp only
      split
      · exact ⟨rfl, rfl, related⟩
      · cases image with
        | some v => exact ⟨rfl, rfl, related⟩
        | none => exact ih _ related

/-- A search depends on the cell of its monitor and on what its candidates depend on. -/
theorem local_search {monitor : Monitor} {source : Draw Value} (own : A monitor.cell)
    (h : source.Local A around) : Local A around (search monitor source) := by
  intro p q agree
  have alike : (candidate monitor source).Local A around :=
    h.bind fun v => local_judge own monitor.acceptance v
  obtain ⟨ending, tally, agree'⟩ := seek_agrees monitor.breaker alike around.patience
    (p.memory.tally monitor.cell) agree
  rw [agree.tally _ own] at ending tally agree'
  rw [run_search, run_search, agree.tally _ own]
  simp only
  rw [ending, tally]
  exact ⟨rfl, agree'.setTally _ _ _ _⟩

end Draw

/-! ### Strategies -/

namespace Strategy

open Draw

variable {A : Cell → Prop} {around : Surroundings}

/-- The members of an object are drawn in order. -/
theorem local_members {fields : List (String × Strategy)}
    (h : ∀ f ∈ fields, f.2.draw.Local A around) : (drawMembers fields).Local A around := by
  induction fields with
  | nil => exact local_pure []
  | cons field rest ih =>
    refine (h field (by simp)).bind fun v => ?_
    exact (ih fun f member => h f (by simp [member])).bind fun _ => local_pure _

/-- The slots of a tuple are drawn in order. -/
theorem local_all {slots : List Strategy} (h : ∀ slot ∈ slots, slot.draw.Local A around) :
    (drawAll slots).Local A around := by
  induction slots with
  | nil => exact local_pure []
  | cons slot rest ih =>
    refine (h slot (by simp)).bind fun v => ?_
    exact (ih fun slot member => h slot (by simp [member])).bind fun _ => local_pure _

/-- The further elements of a tuple are repeated draws. -/
theorem local_further {rest : Option Strategy} {maxExtra : Nat}
    (h : ∀ further, rest = some further → further.draw.Local A around) :
    (drawFurther rest maxExtra).Local A around := by
  cases rest with
  | none => exact local_pure []
  | some further => exact (local_sample _).bind fun n => local_replicate (h further rfl) n

/-- A ticket falls to one of the options. -/
theorem local_drawAt {options : List (Nat × Strategy)} {ticket : Nat}
    (h : ∀ option ∈ options, option.2.draw.Local A around) :
    (drawAt options ticket).Local A around := by
  induction options generalizing ticket with
  | nil => exact local_throw _
  | cons option rest ih =>
    obtain ⟨weight, strategy⟩ := option
    show Local A around (if ticket < weight then draw strategy else drawAt rest (ticket - weight))
    split
    · exact h (weight, strategy) (by simp)
    · exact ih fun option member => h option (by simp [member])

/-- **Draws are local.** What a strategy draws depends on its own memory only. -/
theorem Within.local {strategy : Strategy} (within : strategy.Within A) :
    strategy.draw.Local A around := by
  induction within with
  | sample sampler => exact local_sample sampler
  | symbol => exact local_fresh.bind fun _ => local_pure _
  | cycle own => exact local_next own _
  | array _ ih | set _ ih =>
    exact (local_sample _).bind fun n => (local_replicate ih n).bind fun _ => local_pure _
  | object _ ih => exact (local_members ih).bind fun _ => local_pure _
  | tuple _ _ ih ih' =>
    exact (local_all ih).bind fun _ => (local_further ih').bind fun _ => local_pure _
  | record _ _ ih ih' | map _ _ ih ih' =>
    exact (local_sample _).bind fun n =>
      (local_replicate (local_pair ih ih') n).bind fun _ => local_pure _
  | function _ ih => exact ih.bind fun _ => local_fresh.bind fun _ => local_pure _
  | promise _ ih => exact ih.bind fun _ => local_pure _
  | union _ ih => exact (local_sample _).bind fun ticket => local_drawAt ih
  | monitored own _ ih => exact local_search own ih
  | derived _ _ ih ih' => exact ih.bind ih'

end Strategy

end SchemaSampler
