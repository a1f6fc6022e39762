import SchemaSampler.Proofs.Calendar.Timestamp
import SchemaSampler.Proofs.Net.Address
import SchemaSampler.Proofs.Schema.Format

namespace SchemaSampler.Format

/-!
# Laws of the samplers of formats — sampled texts have the format

* Identifiers, e-mail addresses and URLs are sampled from a pattern that spells no more than the
  pattern of the format (`yields_isMatch`).
* Internet addresses and timestamps are read back as they were written.
* `yields_holds` — whatever the choices are, a text sampled for a format has it.
-/

open CharSet Pattern

/-! ### Patterns -/

/-- A text sampled from a shape that is matched by a pattern. -/
theorem yields_isMatch {shape pattern : Pattern} (samplable : shape.Samplable)
    (narrower : ∀ s, shape.Spells s → pattern.Spells s) :
    (Sampler.ofPattern shape).Yields fun s => pattern.whole.isMatch (String.ofList s) = true :=
  (yields_ofPattern samplable).imp fun s spelled =>
    isMatch_whole (by rw [String.toList_ofList]; exact narrower s spelled)

/-- Addresses are generated without two points in a row. -/
theorem yields_email :
    (Sampler.ofPattern emailShape).Yields fun s => email.holds (String.ofList s) = true := by
  refine (yields_ofPattern samplable_emailShape).imp fun s spelled => ?_
  have parts := emailParts_of_spells spelled
  have matched : emailPattern.whole.isMatch (String.ofList s) = true :=
    isMatch_whole (by rw [String.toList_ofList]; exact parts.spells)
  have starts : s.head? ≠ some '.' := by
    obtain ⟨c, name, labels, last, rfl, letter, _⟩ := parts.split
    intro same
    cases same
    cases letter
  rw [holds, String.toList_ofList, parts.pointed, matched]
  simp [starts]

/-! ### Internet addresses -/

/-- An address of four numbers is one of the fourth version. -/
theorem yields_addressV4 : addressV4.Yields fun s => Net.isV4 s = true := by
  have octet := Sampler.yields_upTo 255
  exact octet.bind fun a ha => octet.bind fun b hb => octet.bind fun c hc => octet.bind fun d hd =>
    Sampler.yields_pure (Net.isV4_textV4 ha hb hc hd)

/-- An address of eight groups is one of the sixth version. -/
theorem yields_addressV6 : addressV6.Yields fun s => Net.isV6 s = true :=
  (Sampler.yields_replicate (Sampler.yields_upTo 0xffff) 8).bind fun _ groups =>
    Sampler.yields_pure (Net.isV6_textV6 groups.2 groups.1)

/-- The version that was asked for is generated. -/
theorem yields_address (version : IpVersion) :
    (sampler (ip version)).Yields fun s => isAddress version s = true := by
  cases version with
  | v4 => exact yields_addressV4
  | v6 => exact yields_addressV6
  | any =>
    refine (Sampler.yields_bool).bind fun four _ => ?_
    cases four with
    | true => exact yields_addressV4.imp fun s h => by rw [isAddress, h, Bool.true_or]
    | false => exact yields_addressV6.imp fun s h => by rw [isAddress, h, Bool.or_true]

/-! ### Timestamps -/

/-- A zone that a timestamp is written with: two digits each, and only where one is allowed. -/
def ZoneFits (allowOffset : Bool) (zone : Option Calendar.Offset) : Prop :=
  (zone.isSome → allowOffset = true) ∧
    ∀ z, zone = some z → z.hours < 10 ^ 2 ∧ z.minutes < 10 ^ 2

/-- The hours and minutes of an offset have two digits. -/
theorem yields_offset : offset.Yields fun z => z.hours < 10 ^ 2 ∧ z.minutes < 10 ^ 2 :=
  Sampler.yields_bool.bind fun ahead _ => (Sampler.yields_upTo 23).bind fun hours hh =>
    (Sampler.yields_upTo 59).bind fun minutes hm =>
      Sampler.yields_pure ⟨by simp only; omega, by simp only; omega⟩

/-- What follows a drawn zone. -/
theorem yields_zoned {α : Type} {Q : α → Prop} {rest : Option Calendar.Offset → Sampler α}
    {allowOffset : Bool} (next : ∀ zone, ZoneFits allowOffset zone → (rest zone).Yields Q) :
    Sampler.Yields (do
      if allowOffset && (← Sampler.bool) then rest (← some <$> offset) else rest (← pure none)) Q := by
  refine Sampler.yields_bool.bind fun drawn _ => ?_
  by_cases there : (allowOffset && drawn) = true
  · rw [if_pos there]
    have allowed : allowOffset = true := by
      rw [Bool.and_eq_true] at there
      exact there.1
    refine (yields_offset.map (f := some) fun z hz => ?_).bind next
    refine ⟨fun _ => allowed, ?_⟩
    rintro _ ⟨⟩
    exact hz
  · rw [if_neg there]
    exact next none ⟨nofun, nofun⟩

/-- A generated timestamp has the fraction and the zone that the format asks for. -/
theorem yields_timestamp (allowOffset : Bool) (precision : Option Nat) :
    (timestamp allowOffset precision).Yields fun s =>
      Calendar.isTimestamp allowOffset precision s = true := by
  have inYears : firstMilli ≤ lastMilli := by decide
  have year_zero : (-62162035200000 : Int) ≤ firstMilli := by decide
  refine (Sampler.yields_intBetween inYears).bind fun millis hmillis => ?_
  refine (Sampler.yields_upTo 999999).bind fun subMillis below => ?_
  have written : ∀ places zone, (∀ p, precision = some p → p = places) → ZoneFits allowOffset zone →
      Calendar.isTimestamp allowOffset precision
        (Calendar.timestampText millis subMillis places zone) = true :=
    fun places zone fits hzone => Calendar.isTimestamp_timestampText
      ⟨Int.le_trans year_zero hmillis.1, hmillis.2⟩ below hzone.1 hzone.2 fits
  cases precision with
  | none =>
    exact (Sampler.yields_element 0 [3]).bind fun places _ => yields_zoned fun zone hzone =>
      Sampler.yields_pure (written places zone nofun hzone)
  | some places =>
    exact yields_zoned fun zone hzone => Sampler.yields_pure
      (written places zone (fun _ same => (Option.some.inj same).symm) hzone)

/-! ### All formats -/

/-- A text sampled for a format has it. -/
theorem yields_holds (format : Format) :
    format.sampler.Yields fun s => format.holds (String.ofList s) = true := by
  have whole (s : List Char) : (String.ofList s).toList = s := String.toList_ofList
  cases format with
  | email => exact yields_email
  | url => exact yields_isMatch samplable_urlShape fun s h => (urlParts_of_spells h).spells
  | uuid => exact yields_isMatch samplable_uuidPattern fun _ h => h
  | ulid => exact yields_isMatch samplable_ulidPattern fun _ h => h
  | cuid => exact yields_isMatch samplable_cuidShape fun _ h => spells_cuidPattern h
  | cuid2 => exact yields_isMatch samplable_cuid2Shape fun _ h => spells_cuid2Pattern h
  | datetime allowOffset precision =>
    exact (yields_timestamp allowOffset precision).imp fun s h => by rwa [holds, whole]
  | ip version => exact (yields_address version).imp fun s h => by rwa [holds, whole]

end SchemaSampler.Format
