import SchemaSampler.Proofs.Parse.Renaming

namespace SchemaSampler

/-!
# Relocation — a test at a path is the test of a whole value, told from further out

Issues name the whole path from the outermost value, and the test of an inner value extends the
path it was given by hand at every level.  `parseWithin_below` says what all levels together come
to: the path given to a test is put in front of the path of every issue, and nothing else about the
outcome depends on it, but for the identities of functions that the test wraps.
-/

/-! ### Going further in -/

/-- What lies below a place is put below another one. -/
def Site.putBelow (root site : Site) (place : Site) : Site :=
  if root <:+ place then place.take (place.length - root.length) ++ site else place

theorem Site.putBelow_append (root site x : Site) : putBelow root site (x ++ root) = x ++ site := by
  rw [putBelow, if_pos (List.suffix_append x root)]
  simp

theorem Site.putBelow_injective {root site : Site} (inside : root <:+ site) {place place' : Site}
    (same : putBelow root site place = putBelow root site place') : place = place' := by
  -- what was below the outer place stays there, so it does not meet with what was not
  have stays : ∀ x place', ¬ root <:+ place' → x ++ site ≠ place' := by
    rintro x _ beside rfl
    exact beside (inside.trans (List.suffix_append x site))
  by_cases below : root <:+ place
  · obtain ⟨x, rfl⟩ := below
    rw [putBelow_append] at same
    by_cases below' : root <:+ place'
    · obtain ⟨x', rfl⟩ := below'
      rw [putBelow_append] at same
      rw [List.append_cancel_right same]
    · rw [putBelow, if_neg below'] at same
      exact absurd same (stays x place' below')
  · rw [putBelow, if_neg below] at same
    by_cases below' : root <:+ place'
    · obtain ⟨x', rfl⟩ := below'
      rw [putBelow_append] at same
      exact absurd same.symm (stays x' place below)
    · rwa [putBelow, if_neg below'] at same

/-- The renaming that puts the identities made below a place further in. -/
def Renaming.inward {root site : Site} (inside : root <:+ site) : Renaming where
  apply
    | .made serial => .made serial
    | .wrapped place => .wrapped (Site.putBelow root site place)
  injective := by
    rintro (_ | place) (_ | place') same
    · exact same
    · cases same
    · cases same
    · rw [Identity.wrapped.injEq] at same ⊢
      exact Site.putBelow_injective inside same

/-- Functions that are wrapped at one place can take the identities of those that are wrapped at
    another one, if this one is further in or apart, and all others keep theirs. -/
theorem Renaming.exists_carries {root site : Site} (places : root <:+ site ∨ root.Apart site) :
    ∃ ρ : Renaming, ρ.Carries root site ∧
      ∀ i : Identity, i.Outside root → i.Outside site → ρ.apply i = i := by
  rcases places with inside | apart
  · refine ⟨Renaming.inward inside, fun x => ?_, fun i outside _ => ?_⟩
    · exact congrArg Identity.wrapped (Site.putBelow_append root site x)
    · cases i with
      | made serial => rfl
      | wrapped place => exact congrArg Identity.wrapped (if_neg outside)
  · exact ⟨Renaming.exchange apart, Renaming.exchange_carries apart,
      fun i => Renaming.exchange_outside apart⟩

/-! ### What issues tell -/

/-- An issue as it is told of a value that stands at a path. -/
def Issue.below (path : List Segment) (i : Issue) : Issue := { i with path := path ++ i.path }

/-- An outcome as it is told of a value that stands at a path, with the functions wrapped there. -/
def Parsed.below (ρ : Renaming) (path : List Segment) : Parsed → Parsed
  | .ok w => .ok (w.rename ρ)
  | .error found => .error (found.map (Issue.below path))

/-- Moving issues from an outermost place puts the other place in front of their paths. -/
theorem Issue.AllMoved.eq_below {root site : Site} (outermost : root.path = [])
    {found found' : List Issue} (h : Issue.AllMoved root site found found') :
    found' = found.map (Issue.below site.path) := by
  induction h with
  | nil => rfl
  | @cons i i' _ _ head _ ih =>
    obtain ⟨path, problem⟩ := i
    obtain ⟨path', problem'⟩ := i'
    obtain ⟨rest, here, there⟩ := head.path
    obtain rfl : problem' = problem := head.problem
    obtain rfl : path = rest := by rw [show path = root.path ++ rest from here, outermost]; rfl
    obtain rfl : path' = site.path ++ path := there
    rw [List.map_cons, ih]
    rfl

theorem Parsed.Alike.eq_below {ρ : Renaming} {root site : Site} (outermost : root.path = [])
    {out out' : Parsed} (h : Parsed.Alike ρ root site out out') : out' = out.below ρ site.path := by
  cases h with
  | ok w => rfl
  | error same => exact congrArg Except.error (same.eq_below outermost)

namespace Schema

variable {definitions : Definitions} {s : Schema} {v : Value}

/-- **Where a value stands shows in the paths of issues only.** The test of a value at any place and
    its test at an outermost one, which the place is inside of or apart from, end within the same
    depths.  Both accept the value with the same
    result, or both refuse it for the same problems in the same order, and the path of the place is
    put in front of the path of each issue.  The results differ in the identities of the functions
    that the two tests wrap, which are new to the value and to what the schemas bring along. -/
theorem parseWithin_below {root site : Site} (outermost : root.path = [])
    (places : root <:+ site ∨ root.Apart site)
    (supported : s.Throughout definitions
      (Shape.SupportedBy fun i => i.Outside root ∧ i.Outside site))
    (given : v.SupportedBy fun i => i.Outside root ∧ i.Outside site) :
    ∃ ρ : Renaming, (∀ i : Identity, i.Outside root → i.Outside site → ρ.apply i = i) ∧
      (∀ place : Site, ρ.apply (.wrapped (place ++ root)) = .wrapped (place ++ site)) ∧
      ∀ depth, parseWithin definitions depth site s v =
        (parseWithin definitions depth root s v).map (Parsed.below ρ site.path) := by
  obtain ⟨ρ, carries, kept⟩ := Renaming.exists_carries places
  refine ⟨ρ, kept, carries, fun depth => ?_⟩
  have keeps : ∀ i : Identity, i.Outside root ∧ i.Outside site → ρ.apply i = i :=
    fun i outside => kept i outside.1 outside.2
  have moved := parseWithin_rename depth keeps supported root site carries v
  rw [given ρ keeps] at moved
  generalize parseWithin definitions depth root s v = atRoot at moved
  generalize parseWithin definitions depth site s v = atSite at moved
  cases moved with
  | none => rfl
  | some alike => exact congrArg some (alike.eq_below outermost)

/-- The third element of a member `list`: a flag that is none is reported there, with the whole
    path, and a function that is accepted there is wrapped there. -/
theorem parseWithin_below_element :
    let pair : Schema :=
      .node 2 (.tuple [.node 0 (.function [] (.node 3 .any)), .node 1 .boolean] none)
    let s : Schema := .node 4 (.object [("pair", pair)] .strict)
    let call (identity : Identity) (guards : List SchemaId) : Value :=
      .function ⟨identity, .constant .null, guards⟩
    let site : Site := [.index 2, .key "list", .branch 1]
    parseWithin (fun _ => none) 3 site s (.object [("pair", .array [call (.made 0) [], .null])]) =
      some (.error [⟨[.key "list", .index 2, .key "pair", .index 1],
        .unexpectedKind "boolean" "null"⟩]) ∧
    parseWithin (fun _ => none) 3 site s
        (.object [("pair", .array [call (.made 0) [], .bool true])]) =
      some (.ok (.object [("pair",
        .array [call (.wrapped (.index 0 :: .key "pair" :: site)) [0], .bool true])])) := by
  intro pair s call site
  have inside : [] <:+ site ∨ Site.Apart [] site := .inl List.nil_suffix
  have supported : ∀ K, s.Throughout (fun _ => none) (Shape.SupportedBy K) := by
    intro K
    refine Everywhere.throughout (.node 4 trivial fun t child => ?_) (by simp)
    obtain rfl := List.mem_singleton.mp child
    refine .node 2 trivial fun t child => ?_
    rcases List.mem_pair.mp child with rfl | rfl
    · refine .node 0 trivial fun t child => ?_
      obtain rfl := List.mem_singleton.mp child
      exact .node 3 trivial fun t child => absurd child List.not_mem_nil
    · exact .node 1 trivial fun t child => absurd child List.not_mem_nil
  have given : ∀ flag : Value, (∀ ρ, flag.rename ρ = flag) →
      Value.SupportedBy (fun i => i.Outside [] ∧ i.Outside site)
        (.object [("pair", .array [call (.made 0) [], flag])]) := by
    intro flag same ρ keeps
    have kept : ρ.apply (.made 0) = .made 0 := keeps _ ⟨trivial, trivial⟩
    simp only [call, Value.rename, Value.renameMembers, Value.renameAll, same, kept]
  constructor
  · obtain ⟨ρ, _, _, moved⟩ :=
      parseWithin_below rfl inside (supported _) (given .null fun _ => rfl)
    rw [moved 3]
    rfl
  · obtain ⟨ρ, _, carries, moved⟩ :=
      parseWithin_below rfl inside (supported _) (given (.bool true) fun _ => rfl)
    have here : ρ.apply (.wrapped [.index 0, .key "pair"]) =
        .wrapped (.index 0 :: .key "pair" :: site) := carries [.index 0, .key "pair"]
    have whole : parseWithin (fun _ => none) 3 [] s
        (.object [("pair", .array [call (.made 0) [], .bool true])]) =
      some (.ok (.object [("pair",
        .array [call (.wrapped [.index 0, .key "pair"]) [0], .bool true])])) := rfl
    rw [moved 3, whole]
    simp only [Option.map_some, Parsed.below, call, Value.rename, Value.renameMembers,
      Value.renameAll, here]

end Schema

end SchemaSampler
