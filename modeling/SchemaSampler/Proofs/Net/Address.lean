import SchemaSampler.Net.Address
import SchemaSampler.Proofs.Text.Numeral

namespace SchemaSampler.Net

/-!
# Laws of internet addresses — written addresses are read back

* `isV4_textV4` — the text of a version 4 address is one.
* `isV6_textV6` — the text of a version 6 address is one, whether it is written in full, with a run
  of zeros left out, or with a version 4 address at the end.
-/

open Text

/-! ### Version 4 -/

/-- What follows a number is no digit. -/
def StopsDigits (value? : Char → Option Nat) (rest : List Char) : Prop :=
  ∀ c, rest.head? = some c → value? c = none

/-- Digits stop at the end. -/
theorem stopsDigits_nil (value? : Char → Option Nat) : StopsDigits value? [] := by
  rintro c ⟨⟩

/-- Digits stop at what is none. -/
theorem stopsDigits_cons {value? : Char → Option Nat} {c : Char} (h : value? c = none)
    (rest : List Char) : StopsDigits value? (c :: rest) := by
  rintro d ⟨⟩
  exact h

/-- The digits of a number up to 255 are as a reader wants them: there are one to three and no
    leading zero. -/
theorem octet_digits {n : Nat} (h : n ≤ 255) : ∃ ds : List Nat,
    Decimal.digits n = ds.map Nat.digitChar ∧ (∀ d ∈ ds, d < 10) ∧ ofDigits 10 ds = n ∧
      (ds.isEmpty || ds.length > 3 || (ds.length > 1 && ds.head? == some 0)) = false := by
  have all : ∀ n < 256, let ds := (Decimal.digits n).filterMap decimalValue?
      Decimal.digits n = ds.map Nat.digitChar ∧ (∀ d ∈ ds, d < 10) ∧ ofDigits 10 ds = n ∧
        (ds.isEmpty || ds.length > 3 || (ds.length > 1 && ds.head? == some 0)) = false := by
    decide +kernel
  exact ⟨_, all n (by omega)⟩

/-- A written octet is read. -/
theorem readOctet_digits {n : Nat} (h : n ≤ 255) {rest : List Char}
    (stop : StopsDigits decimalValue? rest) :
    readOctet (Decimal.digits n ++ rest) = some (n, rest) := by
  obtain ⟨ds, written, each, value, shape⟩ := octet_digits h
  rw [readOctet, written,
    takeDigits_append (fun d member => decimalValue?_digitChar (each d member)) stop]
  simp only [value]
  rw [if_neg]
  simp only [Bool.or_eq_false_iff, decide_eq_false_iff_not] at shape
  simp [shape]
  omega

/-- A mark is read if it comes first. -/
theorem readMark_cons (mark : Char) (rest : List Char) : readMark mark (mark :: rest) = some rest := by
  rw [readMark, if_pos rfl]

/-- A written address of four octets is read. -/
theorem readV4_textV4 {a b c d : Nat} (ha : a ≤ 255) (hb : b ≤ 255) (hc : c ≤ 255) (hd : d ≤ 255)
    {rest : List Char} (stop : StopsDigits decimalValue? rest) :
    readV4 (textV4 a b c d ++ rest) = some ([a, b, c, d], rest) := by
  have point : ∀ rest, StopsDigits decimalValue? ('.' :: rest) := stopsDigits_cons (by decide)
  simp only [readV4, textV4, List.append_assoc, List.cons_append]
  rw [readOctet_digits ha (point _)]
  simp only [Option.bind_eq_bind, Option.bind_some, readMark_cons]
  rw [readOctet_digits hb (point _)]
  simp only [Option.bind_some, readMark_cons]
  rw [readOctet_digits hc (point _)]
  simp only [Option.bind_some, readMark_cons]
  rw [readOctet_digits hd stop, Option.bind_some]

/-- The text of a version 4 address is one. -/
theorem isV4_textV4 {a b c d : Nat} (ha : a ≤ 255) (hb : b ≤ 255) (hc : c ≤ 255) (hd : d ≤ 255) :
    isV4 (textV4 a b c d) = true := by
  have read := readV4_textV4 ha hb hc hd (stopsDigits_nil decimalValue?)
  rw [List.append_nil] at read
  rw [isV4, read]
  rfl

/-! ### Groups -/

/-- The digits of a group. -/
theorem group_digits {g : Nat} (h : g ≤ 0xffff) : ∃ ds : List Nat,
    groupText g = ds.map Nat.digitChar ∧ (∀ d ∈ ds, d < 16) ∧ ds ≠ [] ∧ ds.length ≤ 4 := by
  obtain ⟨ds, written, each, _⟩ := exists_digits (by decide : 1 < 16) g
  have lengths : (Nat.toDigits 16 g).length = ds.length := by rw [written, List.length_map]
  have short := (Nat.length_toDigits_le_iff (n := g) (k := 4) (by decide : 1 < 16) (by decide)).mpr
    (by omega)
  have some_digit := @Nat.length_toDigits_pos 16 g
  refine ⟨ds, written, each, List.length_pos_iff.mp (by omega), by omega⟩

/-- The end of a group: the end of the text or a colon. -/
def EndsGroup (rest : List Char) : Prop := rest = [] ∨ ∃ tail, rest = ':' :: tail

/-- Digits stop where a group ends. -/
theorem EndsGroup.stops {value? : Char → Option Nat} {rest : List Char} (h : EndsGroup rest)
    (colon : value? ':' = none) : StopsDigits value? rest := by
  rcases h with rfl | ⟨tail, rfl⟩
  · exact stopsDigits_nil value?
  · exact stopsDigits_cons colon tail

/-- A reader of groups takes a written group. -/
theorem readGroup_groupText {g : Nat} (h : g ≤ 0xffff) {rest : List Char} (ends : EndsGroup rest) :
    ∃ n, readGroup (groupText g ++ rest) = some (n, rest) := by
  obtain ⟨ds, written, each, nonempty, short⟩ := group_digits h
  refine ⟨ofDigits 16 ds, ?_⟩
  rw [readGroup, written, takeDigits_append (fun d member => hexValue?_digitChar (each d member))
    (ends.stops (by decide))]
  have : ds.isEmpty = false := by simpa using nonempty
  simp only [this]
  rw [if_neg]
  simp
  omega

/-- No mark is read where another character comes first. -/
theorem readMark_eq_none {mark : Char} {rest : List Char} (h : rest.head? ≠ some mark) :
    readMark mark rest = none := by
  cases rest with
  | nil => rfl
  | cons c rest => rw [readMark, if_neg fun same => h (by rw [same]; rfl)]

/-- What is left after the decimal digits at the front of a group begins with no point. -/
theorem takeDigits_pointless {cs rest : List Char} (pointless : '.' ∉ cs) (ends : EndsGroup rest) :
    (takeDigits decimalValue? (cs ++ rest)).2.head? ≠ some '.' := by
  induction cs with
  | nil =>
    rcases ends with rfl | ⟨tail, rfl⟩
    · simp [takeDigits]
    · simp [takeDigits, show decimalValue? ':' = none by decide]
  | cons c cs ih =>
    rw [List.cons_append, takeDigits]
    cases decimalValue? c with
    | none =>
      simp only [List.head?_cons, ne_eq, Option.some.injEq]
      rintro rfl
      exact pointless (by simp)
    | some d => exact ih fun member => pointless (by simp [member])

/-- A written group is no version 4 address: no point follows its digits. -/
theorem readV4_groupText {g : Nat} (h : g ≤ 0xffff) {rest : List Char} (ends : EndsGroup rest) :
    readV4 (groupText g ++ rest) = none := by
  have pointless : '.' ∉ groupText g := by
    obtain ⟨ds, written, each, _⟩ := group_digits h
    have all : ∀ d < 16, Nat.digitChar d ≠ '.' := by decide
    rw [written, List.mem_map]
    rintro ⟨d, member, same⟩
    exact all d (each d member) same
  have left := takeDigits_pointless pointless ends
  rw [readV4]
  cases hread : readOctet (groupText g ++ rest) with
  | none => rfl
  | some octet =>
    have rest_eq : octet.2 = (takeDigits decimalValue? (groupText g ++ rest)).2 := by
      rw [readOctet] at hread
      simp only at hread
      split at hread
      · cases hread
      · cases hread
        rfl
    simp only [Option.bind_eq_bind, Option.bind_some]
    rw [readMark_eq_none (by rwa [rest_eq])]
    rfl

/-! ### Rows of groups -/

/-- Something that no group and no version 4 address begins with. -/
def NoGroup (text : List Char) : Prop := readV4 text = none ∧ readGroup text = none

/-- There is no group at the end. -/
theorem noGroup_nil : NoGroup [] := by
  constructor <;> decide

/-- There is none at a colon. -/
theorem noGroup_colon (tail : List Char) : NoGroup (':' :: tail) := by
  have front : ∀ value? : Char → Option Nat, value? ':' = none →
      takeDigits value? (':' :: tail) = ([], ':' :: tail) := by
    intro value? none_there
    simp [takeDigits, none_there]
  constructor
  · rw [readV4, readOctet, front decimalValue? (by decide)]
    rfl
  · rw [readGroup, front hexValue? (by decide)]
    rfl

/-- Where no group follows, none is read. -/
theorem readGroups_none {limit : Nat} {first : Bool} {text inner : List Char}
    (separated : readSeparated first text = some inner ∨ readSeparated first text = none)
    (none_there : NoGroup inner) : readGroups limit first text = (0, false, text) := by
  cases limit with
  | zero => rfl
  | succ limit =>
    rw [readGroups]
    rcases separated with separated | separated
    · rw [separated]
      simp only [none_there.1, none_there.2, ite_self]
    · rw [separated]

/-- What may follow a row of groups: the end of the text or the mark of a left out run. -/
def EndsRow (tail : List Char) : Prop := tail = [] ∨ ∃ back, tail = ':' :: ':' :: back

/-- Where a row ends, a group does. -/
theorem EndsRow.endsGroup {tail : List Char} (h : EndsRow tail) : EndsGroup tail := by
  rcases h with rfl | ⟨back, rfl⟩
  · exact Or.inl rfl
  · exact Or.inr ⟨_, rfl⟩

/-- No group follows the end of a row. -/
theorem EndsRow.readGroups {tail : List Char} (h : EndsRow tail) (limit : Nat) (first : Bool) :
    readGroups limit first tail = (0, false, tail) := by
  rcases h with rfl | ⟨back, rfl⟩
  · cases first with
    | true => exact readGroups_none (Or.inl rfl) noGroup_nil
    | false => exact readGroups_none (Or.inr rfl) noGroup_nil
  · cases first with
    | true => exact readGroups_none (Or.inl rfl) (noGroup_colon _)
    | false => exact readGroups_none (Or.inl rfl) (noGroup_colon back)

/-- Groups with a colon in front of each. -/
def colonGroups (groups : List Nat) : List Char := groups.flatMap fun g => ':' :: groupText g

/-- The groups after the first one stand behind colons. -/
theorem joinGroups_cons (g : Nat) (groups : List Nat) :
    joinGroups (g :: groups) = groupText g ++ colonGroups groups := by
  induction groups generalizing g with
  | nil => simp [joinGroups, colonGroups]
  | cons g' groups ih =>
    rw [joinGroups, ih g']
    · simp [colonGroups]
    · simp

/-- A group ends at the next colon, or where the row does. -/
theorem endsGroup_colonGroups (groups : List Nat) {tail : List Char} (ends : EndsRow tail) :
    EndsGroup (colonGroups groups ++ tail) := by
  cases groups with
  | nil => exact ends.endsGroup
  | cons g groups => exact Or.inr ⟨_, rfl⟩

/-- A reader of groups takes a written group and goes on behind it. -/
theorem readGroups_groupText {limit g : Nat} {first : Bool} {text rest : List Char} (h : g ≤ 0xffff)
    (separated : readSeparated first text = some (groupText g ++ rest)) (ends : EndsGroup rest) :
    readGroups (limit + 1) first text =
      let (count, v4, rest) := readGroups limit false rest
      (count + 1, v4, rest) := by
  obtain ⟨n, read⟩ := readGroup_groupText h ends
  rw [readGroups, separated]
  simp only [readV4_groupText h ends, ite_self, read]

/-- Groups behind colons are read to the end of the row. -/
theorem readGroups_colonGroups {groups : List Nat} (small : ∀ g ∈ groups, g ≤ 0xffff) {limit : Nat}
    (room : groups.length ≤ limit) {tail : List Char} (ends : EndsRow tail) :
    readGroups limit false (colonGroups groups ++ tail) = (groups.length, false, tail) := by
  induction groups generalizing limit with
  | nil => exact ends.readGroups limit false
  | cons g groups ih =>
    obtain ⟨limit, rfl⟩ : ∃ less, limit = less + 1 := ⟨limit - 1, by simp at room; omega⟩
    have separated : readSeparated false (colonGroups (g :: groups) ++ tail) =
        some (groupText g ++ (colonGroups groups ++ tail)) := by
      simp [readSeparated, colonGroups, readMark_cons]
    rw [readGroups_groupText (small g (by simp)) separated (endsGroup_colonGroups groups ends),
      ih (fun g member => small g (by simp [member])) (by simpa using room)]
    rfl

/-- The groups of a row are read, up to its end. -/
theorem readGroups_joinGroups {groups : List Nat} (small : ∀ g ∈ groups, g ≤ 0xffff) {limit : Nat}
    (room : groups.length ≤ limit) {tail : List Char} (ends : EndsRow tail) :
    readGroups limit true (joinGroups groups ++ tail) = (groups.length, false, tail) := by
  cases groups with
  | nil => exact ends.readGroups limit true
  | cons g groups =>
    obtain ⟨limit, rfl⟩ : ∃ less, limit = less + 1 := ⟨limit - 1, by simp at room; omega⟩
    rw [joinGroups_cons, List.append_assoc, readGroups_groupText (small g (by simp)) rfl
      (endsGroup_colonGroups groups ends),
      readGroups_colonGroups (fun g member => small g (by simp [member])) (by simpa using room) ends]
    rfl

/-! ### Version 6 -/

/-- The longest run of zeros lies inside the row. -/
theorem longestZeroRun_le (start : Nat) (groups : List Nat) :
    (longestZeroRun start groups).1 + (longestZeroRun start groups).2 ≤ start + groups.length := by
  induction groups generalizing start with
  | nil => exact Nat.le_refl _
  | cons g groups ih =>
    have later := ih (start + 1)
    have here : zeroRun (g :: groups) ≤ (g :: groups).length :=
      (List.takeWhile_sublist _).length_le
    rw [longestZeroRun]
    simp only
    split
    · simpa using here
    · simp only [List.length_cons]
      omega

/-- A row with a run of at least two groups left out is an address. -/
theorem isV6_leftOut {front back : List Nat} (smallFront : ∀ g ∈ front, g ≤ 0xffff)
    (smallBack : ∀ g ∈ back, g ≤ 0xffff) (room : front.length + back.length < 8) :
    isV6 (joinGroups front ++ "::".toList ++ joinGroups back) = true := by
  have readFront := @readGroups_joinGroups front smallFront 8 (by omega)
    (':' :: ':' :: joinGroups back) (Or.inr ⟨_, rfl⟩)
  have readBack := @readGroups_joinGroups back smallBack (7 - front.length) (by omega) []
    (Or.inl rfl)
  rw [List.append_nil] at readBack
  rw [isV6, List.append_assoc, show "::".toList ++ joinGroups back = ':' :: ':' :: joinGroups back
    from rfl, readFront]
  simp only
  rw [if_neg (by omega), readBack]
  rfl

/-- A row of eight groups is an address. -/
theorem isV6_full {groups : List Nat} (small : ∀ g ∈ groups, g ≤ 0xffff)
    (full : groups.length = 8) : isV6 (joinGroups groups) = true := by
  have read := @readGroups_joinGroups groups small 8 (by omega) [] (Or.inl rfl)
  rw [List.append_nil] at read
  rw [isV6, read]
  simp [full]

/-- An address of version 4 as one of version 6. -/
theorem isV6_mapped {a b c d : Nat} (ha : a ≤ 255) (hb : b ≤ 255) (hc : c ≤ 255) (hd : d ≤ 255) :
    isV6 ("::ffff:".toList ++ textV4 a b c d) = true := by
  have mark : readGroups 8 true (':' :: ':' :: (groupText 0xffff ++ ':' :: textV4 a b c d)) =
      (0, false, ':' :: ':' :: (groupText 0xffff ++ ':' :: textV4 a b c d)) :=
    readGroups_none (Or.inl rfl) (noGroup_colon _)
  have read := readV4_textV4 ha hb hc hd (stopsDigits_nil decimalValue?)
  rw [List.append_nil] at read
  have back : readGroups 7 true (groupText 0xffff ++ ':' :: textV4 a b c d) = (3, true, []) := by
    rw [readGroups_groupText (by decide) rfl (Or.inr ⟨_, rfl⟩), readGroups]
    simp only [readSeparated, Bool.false_eq_true, if_false, readMark_cons, read]
    rfl
  rw [isV6, show "::ffff:".toList ++ textV4 a b c d =
    ':' :: ':' :: (groupText 0xffff ++ ':' :: textV4 a b c d) from rfl, mark]
  simp [back]

/-- Eight groups are an address, however many zeros are left out. -/
theorem isV6_joinShort {groups : List Nat} (small : ∀ g ∈ groups, g ≤ 0xffff)
    (full : groups.length = 8) : isV6 (joinShort groups) = true := by
  have inside := longestZeroRun_le 0 groups
  rw [joinShort]
  simp only
  split
  · refine isV6_leftOut (fun g member => small g (List.mem_of_mem_take member))
      (fun g member => small g (List.mem_of_mem_drop member)) ?_
    simp only [List.length_take, List.length_drop]
    omega
  · exact isV6_full small full

/-- The text of a version 6 address is one. -/
theorem isV6_textV6 {groups : List Nat} (small : ∀ g ∈ groups, g ≤ 0xffff)
    (full : groups.length = 8) : isV6 (textV6 groups) = true := by
  unfold textV6
  split
  · rename_i high low
    have highSmall : high ≤ 0xffff := small high (by simp)
    have lowSmall : low ≤ 0xffff := small low (by simp)
    split
    · exact isV6_mapped (by omega) (by omega) (by omega) (by omega)
    · exact isV6_joinShort small full
  · exact isV6_joinShort small full

end SchemaSampler.Net
