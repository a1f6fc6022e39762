import SchemaSampler.Random.Choice

namespace SchemaSampler.Sampler

/-!
# What samplers yield

`Sampler.Yields` says that all results of a sampler have a property, whatever the choices are.  It
passes through the operations that samplers are put together with.  `Sampler.Reaches` says of one
result that some choices lead to it.
-/

variable {α β : Type} {s : Sampler α} {Q Q' : α → Prop} {R : β → Prop}

/-- Whatever the choices are, the result has a property. -/
def Yields (s : Sampler α) (Q : α → Prop) : Prop :=
  ∀ (choices : Choices) (question : Nat), Q (s choices question).1

/-- A weaker property is one of every sampled value, too. -/
theorem Yields.imp (h : s.Yields Q) (weaker : ∀ a, Q a → Q' a) : s.Yields Q' :=
  fun choices question => weaker _ (h choices question)

/-- A sampler that asks nothing gives the one value. -/
theorem yields_pure {a : α} (h : Q a) : Yields (pure a) Q := fun _ _ => h

/-- Going on with a sampled value of which a property is known. -/
theorem Yields.bind {f : α → Sampler β} (h : s.Yields Q) (next : ∀ a, Q a → (f a).Yields R) :
    Yields (s >>= f) R :=
  fun choices question => next _ (h choices question) choices _

/-- A function is applied to what is sampled. -/
theorem Yields.map {f : α → β} (h : s.Yields Q) (image : ∀ a, Q a → R (f a)) :
    Yields (f <$> s) R :=
  fun choices question => image _ (h choices question)

/-! ### Numbers -/

/-- A number up to a last one is not greater than it. -/
theorem yields_upTo (last : Nat) : Yields (upTo last) (· ≤ last) :=
  fun choices question => Nat.le_of_lt_succ (choices question last).isLt

/-- A number between two ends lies between them, if they are in order. -/
theorem yields_between {lo hi : Nat} (h : lo ≤ hi) :
    Yields (between lo hi) fun n => lo ≤ n ∧ n ≤ hi := by
  refine (yields_upTo (hi - lo)).bind fun n hn => yields_pure ?_
  omega

/-- The same for integers. -/
theorem yields_intBetween {lo hi : Int} (h : lo ≤ hi) :
    Yields (intBetween lo hi) fun n => lo ≤ n ∧ n ≤ hi := by
  refine (yields_upTo (hi - lo).toNat).bind fun n hn => yields_pure ?_
  omega

theorem yields_bool : Yields bool fun _ => True := fun _ _ => trivial

/-! ### Lists -/

/-- An element is one of those to choose from. -/
theorem yields_element (first : α) (others : List α) :
    Yields (element first others) (· ∈ first :: others) := by
  refine (yields_upTo others.length).bind fun n hn => yields_pure ?_
  have inside : n < (first :: others).length := by
    rw [List.length_cons]
    omega
  rw [List.getD_eq_getElem?_getD, List.getElem?_eq_getElem inside]
  exact List.getElem_mem inside

/-- Repeated sampling gives as many values, each with the property. -/
theorem yields_replicate (h : s.Yields Q) (n : Nat) :
    Yields (replicate s n) fun items => items.length = n ∧ ∀ a ∈ items, Q a := by
  induction n with
  | zero => exact yields_pure ⟨rfl, by simp⟩
  | succ n ih =>
    refine h.bind fun a ha => ih.bind fun rest hrest => yields_pure ⟨by simp [hrest.1], ?_⟩
    intro b member
    rcases List.mem_cons.mp member with rfl | member
    · exact ha
    · exact hrest.2 b member

/-- A list has a length in the range, and elements with the property. -/
theorem yields_list (h : s.Yields Q) {lo hi : Nat} (range : lo ≤ hi) :
    Yields (list s lo hi) fun items =>
      lo ≤ items.length ∧ items.length ≤ hi ∧ ∀ a ∈ items, Q a := by
  refine (yields_between range).bind fun n hn => (yields_replicate h n).imp fun items hitems => ?_
  exact ⟨by rw [hitems.1]; exact hn.1, by rw [hitems.1]; exact hn.2, hitems.2⟩

/-! ### Weights -/

/-- A ticket falls to one of the options. -/
theorem mem_of_at? {options : Weighted α} {ticket : Nat} {a : α}
    (h : options.at? ticket = some a) : a ∈ options.map Prod.snd := by
  induction options generalizing ticket with
  | nil => cases h
  | cons option rest ih =>
    rw [Weighted.at?] at h
    split at h
    · cases h
      simp
    · simp [ih h]

/-- A property of all weighted options, and of what stands in for them if there are none, is one of
    the choice among them. -/
theorem yields_weighted {options : Weighted (Sampler α)} {otherwise : Sampler α}
    (each : ∀ option ∈ options.map Prod.snd, Yields option Q) (rest : otherwise.Yields Q) :
    Yields (weighted options otherwise) Q := by
  refine (yields_upTo _).bind fun ticket _ => ?_
  cases h : options.at? ticket with
  | none => exact rest
  | some option => exact each option (mem_of_at? h)

/-- The weights add up. -/
theorem total_cons (option : Nat × α) (rest : Weighted α) :
    Weighted.total (option :: rest) = option.1 + Weighted.total rest := rfl

/-- A ticket below the sum of the weights falls to an option. -/
theorem isSome_at? {options : Weighted α} {ticket : Nat} (h : ticket < options.total) :
    (options.at? ticket).isSome := by
  induction options generalizing ticket with
  | nil => simp [Weighted.total] at h
  | cons option rest ih =>
    rw [Weighted.at?]
    split
    · rfl
    · rw [total_cons] at h
      exact ih (by omega)

/-- If some option has a weight, `otherwise` does not come up. -/
theorem yields_weighted_of_pos {options : Weighted (Sampler α)} {otherwise : Sampler α}
    (positive : 0 < options.total) (each : ∀ option ∈ options.map Prod.snd, Yields option Q) :
    Yields (weighted options otherwise) Q := by
  refine (yields_upTo _).bind fun ticket below => ?_
  cases h : options.at? ticket with
  | none =>
    have some_option : (options.at? ticket).isSome = true := isSome_at? (by omega)
    rw [h] at some_option
    cases some_option
  | some option => exact each option (mem_of_at? h)

/-! ### Results that come up

`Sampler.Reaches` is the other side of `Sampler.Yields`: a result that some choices lead to,
wherever the questions start. -/

/-- Whichever question is the first, some choices lead to a result. -/
def Reaches (s : Sampler α) (a : α) : Prop :=
  ∀ question, ∃ choices : Choices, (s choices question).1 = a

/-- What a sampler reaches is reached through a function, too. -/
theorem Reaches.map {a : α} (h : s.Reaches a) (f : α → β) :
    Reaches (s >>= fun a => pure (f a)) (f a) := by
  intro question
  obtain ⟨choices, reached⟩ := h question
  exact ⟨choices, congrArg f reached⟩

/-- What all results have in common, the results that come up have. -/
theorem Yields.of_reaches {a : α} (h : s.Yields Q) (reached : s.Reaches a) : Q a := by
  obtain ⟨choices, rfl⟩ := reached 0
  exact h choices 0

end SchemaSampler.Sampler
