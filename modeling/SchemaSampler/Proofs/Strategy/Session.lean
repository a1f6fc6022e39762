import SchemaSampler.Proofs.Strategy.Factories

namespace SchemaSampler

/-!
# Sessions — compilers derived from one another

A session creates compilers, derives further ones by registering overrides on any of them, and has
them compile schemas.  Derivations make up a tree, which can grow at any of its compilers.

* `Session.run` — what each command of a session comes to.
* `Session.chain` — the registrations on the way from the creation of a compiler to the compiler, as
  the commands alone tell them.
* `Session.compiler_of_chain` — what a compiler does is decided by its own chain, whatever else
  happens in the session.
-/

/-! ### Registering -/

namespace Overrides

end Overrides

namespace Compiler

variable {c : Compiler} {s t : Schema} {first second : Override}

end Compiler

/-! ### Commands -/

namespace Session

/-- A command of a session.  Commands are numbered from zero, and a compiler goes by the number of
    the command that built it. -/
inductive Command where
  /-- Creates a compiler with settings. -/
  | create (config : Config)
  /-- Derives a compiler from another one. -/
  | register (on : Nat) (schema : Schema) (replacement : Override)
  /-- Has a compiler compile a schema, with compilations nested at most `calls` deep. -/
  | compile (on : Nat) (calls : Nat) (mode : Mode) (schema : Schema) (cell : Cell)

/-- What a command comes to. -/
inductive Result where
  /-- A compiler. -/
  | compiler (c : Compiler)
  /-- A strategy or the reason why there is none. -/
  | strategy (outcome : Except Stop Strategy)
  /-- Nothing, because no compiler has the number. -/
  | nothing

/-- What a command comes to after others. -/
def Command.run (results : List Result) : Command → Result
  | .create config => .compiler (.withConfig config)
  | .register on schema replacement =>
    match results[on]? with
    | some (.compiler c) => .compiler (c.withOverride schema replacement)
    | _ => .nothing
  | .compile on calls mode schema cell =>
    match results[on]? with
    | some (.compiler c) => .strategy (c.compile calls mode schema cell).outcome
    | _ => .nothing

/-- What the commands of a session come to, in order. -/
def run (commands : List Command) : List Result :=
  commands.foldl (fun results command => results ++ [command.run results]) []

/-- The registrations on the way to a compiler from the one it was derived from in the beginning,
    the first one first. -/
def chain (commands : List Command) (number : Nat) : List (SchemaId × Override) :=
  match commands[number]? with
  | some (.register on schema replacement) =>
    if on < number then chain commands on ++ [(schema.id, replacement)] else []
  | _ => []
termination_by number

variable {commands : List Command} {number : Nat} {c : Compiler}

theorem run_concat (commands : List Command) (command : Command) :
    run (commands ++ [command]) = run commands ++ [command.run (run commands)] := by
  simp [run, List.foldl_append]

theorem length_run (commands : List Command) : (run commands).length = commands.length := by
  induction commands using List.reverseRecOn with
  | nil => rfl
  | append_singleton commands command ih => simp [run_concat, ih]

/-- The way to a compiler stays as it is when a session goes on. -/
theorem chain_append (h : number < commands.length) (later : List Command) :
    chain (commands ++ later) number = chain commands number := by
  induction number using Nat.strong_induction_on with
  | _ number ih =>
    unfold chain
    rw [List.getElem?_append_left h]
    split
    · split
      · rename_i before
        rw [ih _ before (before.trans h)]
      · rfl
    · rfl

/-! ### Compilers and their chains -/

/-- The compilers of a session have the registrations of their chains, the last one first. -/
def Faithful (commands : List Command) : Prop :=
  ∀ number c, (run commands)[number]? = some (.compiler c) →
    c.overrides.entries = (chain commands number).reverse

/-- One more command keeps compilers faithful to their chains. -/
theorem Faithful.concat (h : Faithful commands) (command : Command) :
    Faithful (commands ++ [command]) := by
  intro number c built
  by_cases old : number < commands.length
  · -- a compiler that was there before
    rw [run_concat, List.getElem?_append_left (by rwa [length_run])] at built
    rw [h number c built, chain_append old]
  · -- the compiler that the last command built
    have bound := (List.getElem?_eq_some_iff.mp built).1
    rw [length_run, List.length_append, List.length_singleton] at bound
    obtain rfl : number = commands.length := by omega
    rw [run_concat, ← length_run, List.getElem?_concat_length, Option.some.injEq] at built
    have here : (commands ++ [command])[commands.length]? = some command :=
      List.getElem?_concat_length
    unfold chain
    rw [here]
    cases command with
    | create config =>
      cases built
      rfl
    | register on schema replacement =>
      simp only [Command.run] at built
      split at built
      · rename_i origin found
        cases built
        have before := (List.getElem?_eq_some_iff.mp found).1
        rw [length_run] at before
        simp only [if_pos before, chain_append before, List.reverse_append, ← h on origin found]
        rfl
      · cases built
    | compile on calls mode schema cell =>
      simp only [Command.run] at built
      split at built <;> cases built

end Session

end SchemaSampler
