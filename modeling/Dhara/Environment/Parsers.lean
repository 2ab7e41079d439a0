import Dhara.JsonText.Numbers

/-!
# Numbers and durations in texts

What the standard library makes of a text: `strings.TrimSpace`,
`strconv.Atoi` and `time.ParseDuration`, with the conversions of fixed width
that follow them.

A plain integer is a text of digits with an optional sign.  It may be too
large for any machine type, so `plainInteger` reads it as an `Int`.
-/

namespace Dhara.Environment

open Dhara.JsonText

variable {value : Int}

/-! ## Machine integers -/

/-- The conversion to a signed integer of the given width. -/
def wrap (width : Nat) (value : Int) : Int :=
  value.bmod (2 ^ width)

/-- The integer is one of the given width. -/
def Fits (width : Nat) (value : Int) : Prop :=
  -(2 ^ width) ≤ value * 2 ∧ value * 2 < 2 ^ width

instance (width : Nat) (value : Int) : Decidable (Fits width value) :=
  inferInstanceAs (Decidable (_ ∧ _))

theorem wrap_of_fits
    {width : Nat} (fits : Fits width value) :
    wrap width value = value := by
  rcases fits with ⟨low, high⟩
  apply Int.bmod_eq_of_le_mul_two
  · simpa using low
  · simpa using high

theorem fits_wrap (width : Nat) (value : Int) :
    Fits width (wrap width value) := by
  have positive : 0 < 2 ^ width := Nat.two_pow_pos width
  have low : -((2 ^ width : Nat) / 2 : Int) ≤ value.bmod (2 ^ width) :=
    Int.le_bmod positive
  have high : value.bmod (2 ^ width) < ((2 ^ width : Nat) + 1 : Int) / 2 :=
    Int.bmod_lt positive
  have cast : ((2 ^ width : Nat) : Int) = 2 ^ width := by simp
  rw [cast] at low high
  unfold Fits wrap
  generalize value.bmod (2 ^ width) = result at *
  generalize (2 ^ width : Int) = modulus at *
  constructor <;> omega

/-- The conversion differs by a multiple of the modulus. -/
theorem wrap_eq_iff
    {width : Nat} {result : Int} (fits : Fits width result) :
    wrap width value = result ↔ (2 ^ width : Int) ∣ value - result := by
  have cast : ((2 ^ width : Nat) : Int) = 2 ^ width := by simp
  constructor
  · intro equal
    subst result
    have divides : ((2 ^ width : Nat) : Int) ∣ wrap width value - value :=
      Int.dvd_bmod_sub_self
    rw [cast] at divides
    rw [← Int.neg_sub]
    exact Int.dvd_neg.mpr divides
  · rintro ⟨count, equal⟩
    have shifted : value = result + ((2 ^ width : Nat) : Int) * count := by
      rw [cast]
      omega
    rw [shifted, wrap, Int.add_mul_bmod_self_left]
    exact wrap_of_fits fits

/-! ## Plain integers -/

/-- One or more digits. -/
def plainDigits (bytes : GoString) : Option Nat :=
  if bytes ≠ [] ∧ bytes.all isDigit = true then some (digits bytes)
  else none

/-- An optional sign and digits. -/
def plainInteger : GoString → Option Int
  | 43 :: rest => (plainDigits rest).map fun value => Int.ofNat value
  | 45 :: rest => (plainDigits rest).map fun value => -Int.ofNat value
  | bytes => (plainDigits bytes).map fun value => Int.ofNat value

/-- `strconv.Atoi`. -/
def atoi (text : GoString) : Option Int :=
  (plainInteger text).filter fun value => decide (Fits 64 value)

/-! ## White space -/

/-- The characters that `unicode.IsSpace` accepts. -/
def spaces : List GoString :=
  [[9], [10], [11], [12], [13], [32], [0xC2, 0x85], [0xC2, 0xA0],
    [0xE1, 0x9A, 0x80], [0xE2, 0x80, 0x80], [0xE2, 0x80, 0x81],
    [0xE2, 0x80, 0x82], [0xE2, 0x80, 0x83], [0xE2, 0x80, 0x84],
    [0xE2, 0x80, 0x85], [0xE2, 0x80, 0x86], [0xE2, 0x80, 0x87],
    [0xE2, 0x80, 0x88], [0xE2, 0x80, 0x89], [0xE2, 0x80, 0x8A],
    [0xE2, 0x80, 0xA8], [0xE2, 0x80, 0xA9], [0xE2, 0x80, 0xAF],
    [0xE2, 0x81, 0x9F], [0xE3, 0x80, 0x80]]

/-- Drop leading words of a list, at most so many. -/
def dropWords (words : List GoString) : Nat → GoString → GoString
  | 0, bytes => bytes
  | count + 1, bytes =>
      match words.find? fun word => word.isPrefixOf bytes with
      | some word => dropWords words count (bytes.drop word.length)
      | none => bytes

/-- `strings.TrimSpace`. -/
def trimSpace (text : GoString) : GoString :=
  let start := dropWords spaces text.length text
  (dropWords (spaces.map List.reverse) start.length start.reverse).reverse

/-! ## Durations -/

/-- `unitMap`. -/
def unitOf (name : GoString) : Option Nat :=
  if name = ascii "ns" then some 1
  else if name = ascii "us" ∨ name = [0xC2, 0xB5, 115] ∨
      name = [0xCE, 0xBC, 115] then some 1000
  else if name = ascii "ms" then some 1000000
  else if name = ascii "s" then some 1000000000
  else if name = ascii "m" then some 60000000000
  else if name = ascii "h" then some 3600000000000
  else none

/-- `leadingInt`: it fails beyond the largest magnitude of a duration. -/
def leadingInt (bytes : GoString) : Option (Nat × GoString) :=
  if digits (bytes.takeWhile isDigit) ≤ 2 ^ 63 then
    some (digits (bytes.takeWhile isDigit), bytes.dropWhile isDigit)
  else
    none

/-- A byte that is part of the name of a unit. -/
def isUnitByte (byte : UInt8) : Bool :=
  byte ≠ 46 && !isDigit byte

section ParseDuration

/- The nanoseconds that float64 arithmetic makes of the digits after a point
and a unit. -/
variable (fraction : GoString → Nat → Nat)

/-- The digits after a point, and what follows. -/
def leadingFraction : GoString → GoString × GoString
  | 46 :: rest => (rest.takeWhile isDigit, rest.dropWhile isDigit)
  | rest => ([], rest)

/-- One number with its unit, and what follows. -/
def parseComponent (bytes : GoString) : Option (Nat × GoString) :=
  (leadingInt bytes).bind fun (whole, rest) =>
    let (part, rest) := leadingFraction rest
    if bytes.takeWhile isDigit = [] ∧ part = [] then
      none
    else
      (unitOf (rest.takeWhile isUnitByte)).bind fun unit =>
        if 2 ^ 63 / unit < whole then
          none
        else
          let value :=
            if digits part = 0 then whole * unit
            else whole * unit + fraction part unit
          if 2 ^ 63 < value then none
          else some (value, rest.dropWhile isUnitByte)

/-- The sum of the components, in unsigned arithmetic. -/
def parseComponents : Nat → Nat → GoString → Option Nat
  | _, total, [] => some total
  | 0, _, _ :: _ => none
  | count + 1, total, byte :: rest =>
      (parseComponent fraction (byte :: rest)).bind fun (value, more) =>
        let sum := (total + value) % 2 ^ 64
        if 2 ^ 63 < sum then none else parseComponents count sum more

/-- A duration without its sign. -/
def parseMagnitude (bytes : GoString) : Option Nat :=
  if bytes = ascii "0" then some 0
  else if bytes = [] then none
  else parseComponents fraction bytes.length 0 bytes

/-- `time.ParseDuration`, in nanoseconds. -/
def parseDuration : GoString → Option Int
  | 45 :: rest =>
      (parseMagnitude fraction rest).map fun value => -Int.ofNat value
  | 43 :: rest =>
      ((parseMagnitude fraction rest).filter fun value =>
        decide (value < 2 ^ 63)).map Int.ofNat
  | rest =>
      ((parseMagnitude fraction rest).filter fun value =>
        decide (value < 2 ^ 63)).map Int.ofNat

end ParseDuration

/-! ## What is trimmed -/

/-- The bytes are bytes of spaces. -/
def SpaceBytes (bytes : GoString) : Prop :=
  ∀ byte ∈ bytes, byte ∈ spaces.flatten

theorem dropWords_split
    (words : List GoString) (count : Nat) (bytes : GoString) :
    ∃ dropped,
      bytes = dropped ++ dropWords words count bytes ∧
        ∀ byte ∈ dropped, byte ∈ words.flatten := by
  induction count generalizing bytes with
  | zero => exact ⟨[], rfl, by simp⟩
  | succ count induction =>
      rw [dropWords]
      split
      · rename_i word found
        have known := List.mem_of_find?_eq_some found
        have leads := List.find?_some found
        rcases List.isPrefixOf_iff_prefix.mp leads with ⟨rest, equal⟩
        subst bytes
        rw [List.drop_left]
        rcases induction rest with ⟨dropped, split, others⟩
        refine ⟨word ++ dropped, ?_, ?_⟩
        · rw [List.append_assoc, ← split]
        · intro byte member
          rcases List.mem_append.mp member with first | later
          · exact List.mem_flatten.mpr ⟨word, known, first⟩
          · exact others byte later
      · exact ⟨[], rfl, by simp⟩

theorem trimSpace_split (text : GoString) :
    ∃ lead trail,
      text = lead ++ trimSpace text ++ trail ∧ SpaceBytes lead ∧
        SpaceBytes trail := by
  let start := dropWords spaces text.length text
  rcases dropWords_split spaces text.length text with
    ⟨lead, first, leading⟩
  rcases dropWords_split (spaces.map List.reverse) start.length
      start.reverse with
    ⟨trail, last, trailing⟩
  refine ⟨lead, trail.reverse, ?_, leading, ?_⟩
  · have whole := congrArg List.reverse last
    rw [List.reverse_reverse, List.reverse_append] at whole
    rw [List.append_assoc]
    calc
      text = lead ++ start := first
      _ = lead ++ (trimSpace text ++ trail.reverse) := by
        rw [whole]
        rfl
  · intro byte member
    rw [List.mem_reverse] at member
    rcases List.mem_flatten.mp (trailing byte member) with
      ⟨word, known, inside⟩
    rcases List.mem_map.mp known with ⟨space, mem, equal⟩
    subst word
    exact List.mem_flatten.mpr ⟨space, mem, List.mem_reverse.mp inside⟩

/-! ## Durations without a unit -/

section Plain

variable {fraction : GoString → Nat → Nat} {bytes trail : GoString}

/-- No byte of a space starts or continues a number or names a unit. -/
theorem space_byte
    {byte : UInt8} (space : byte ∈ spaces.flatten) :
    isDigit byte = false ∧ isUnitByte byte = true ∧ byte ≠ 43 ∧
      byte ≠ 45 ∧ byte ≠ 46 ∧ byte ≠ 104 ∧ byte ≠ 109 ∧ byte ≠ 115 := by
  revert byte
  decide +kernel

theorem unitOf_spaces
    (blank : SpaceBytes bytes) :
    unitOf bytes = none := by
  have absent :
      ∀ {byte : UInt8}, (byte = 104 ∨ byte = 109 ∨ byte = 115) →
        byte ∉ bytes := by
    intro byte letter member
    have excluded := space_byte (blank byte member)
    rcases letter with same | same | same <;> simp [same] at excluded
  unfold unitOf
  split_ifs with nano micro milli one minute hour
  · exact (absent (Or.inr (Or.inr rfl)) (by rw [nano]; decide)).elim
  · rcases micro with same | same | same
    all_goals
      exact (absent (Or.inr (Or.inr rfl)) (by rw [same]; decide)).elim
  · exact (absent (Or.inr (Or.inr rfl)) (by rw [milli]; decide)).elim
  · exact (absent (Or.inr (Or.inr rfl)) (by rw [one]; decide)).elim
  · exact (absent (Or.inr (Or.inl rfl)) (by rw [minute]; decide)).elim
  · exact (absent (Or.inl rfl) (by rw [hour]; decide)).elim
  · rfl

theorem SpaceBytes.takeWhile_unit
    (blank : SpaceBytes bytes) :
    bytes.takeWhile isUnitByte = bytes := by
  have kept :
      (bytes ++ []).takeWhile isUnitByte = bytes ++ [].takeWhile isUnitByte :=
    List.takeWhile_append_of_pos fun byte member =>
      (space_byte (blank byte member)).2.1
  simpa using kept

theorem SpaceBytes.digits_split
    (all : bytes.all isDigit = true) (blank : SpaceBytes trail) :
    (bytes ++ trail).takeWhile isDigit = bytes ∧
      (bytes ++ trail).dropWhile isDigit = trail := by
  rw [List.all_eq_true] at all
  rw [List.takeWhile_append_of_pos all, List.dropWhile_append_of_pos all]
  cases trail with
  | nil => simp
  | cons byte rest =>
      have solid := (space_byte (blank byte List.mem_cons_self)).1
      simp [solid]

theorem SpaceBytes.leadingFraction
    (blank : SpaceBytes bytes) :
    leadingFraction bytes = ([], bytes) := by
  unfold Environment.leadingFraction
  split
  · rename_i rest
    have excluded := space_byte (blank 46 List.mem_cons_self)
    simp at excluded
  · rfl

/-- Digits without a unit are no duration, except for zero. -/
theorem parseMagnitude_plain
    {value : Nat} (plain : plainDigits bytes = some value)
    (blank : SpaceBytes trail) :
    parseMagnitude fraction (bytes ++ trail) = none ∨
      parseMagnitude fraction (bytes ++ trail) = some 0 ∧ value = 0 := by
  unfold plainDigits at plain
  split_ifs at plain with shape
  rcases shape with ⟨nonempty, all⟩
  have equal := Option.some.inj plain
  rcases SpaceBytes.digits_split all blank with ⟨taken, dropped⟩
  by_cases zero : bytes ++ trail = ascii "0"
  · right
    rw [parseMagnitude, if_pos zero]
    refine ⟨rfl, ?_⟩
    rw [zero] at taken
    rw [← equal, ← taken]
    decide
  · left
    have component : parseComponent fraction (bytes ++ trail) = none := by
      unfold parseComponent leadingInt
      rw [taken, dropped]
      split_ifs with bounded
      · rw [Option.bind_some]
        dsimp only
        rw [blank.leadingFraction]
        dsimp only
        rw [if_neg (fun empty => nonempty empty.1), blank.takeWhile_unit,
          unitOf_spaces blank]
        rfl
      · rfl
    have present : bytes ++ trail ≠ [] := by simp [nonempty]
    rw [parseMagnitude, if_neg zero, if_neg present]
    cases shape : bytes ++ trail with
    | nil => exact (present shape).elim
    | cons first rest =>
        rw [shape] at component
        rw [List.length_cons, parseComponents, component]
        rfl

theorem parseDuration_unsigned
    {first : UInt8} {rest : GoString} (plus : first ≠ 43)
    (minus : first ≠ 45) :
    parseDuration fraction (first :: rest) =
      ((parseMagnitude fraction (first :: rest)).filter fun value =>
        decide (value < 2 ^ 63)).map Int.ofNat := by
  unfold parseDuration
  split
  · rename_i same
    exact (minus (List.cons.inj same).1).elim
  · rename_i same
    exact (plus (List.cons.inj same).1).elim
  · rfl

/-- A text that starts with a space is no duration. -/
theorem parseDuration_space
    {first : UInt8} {rest : GoString} (space : first ∈ spaces.flatten) :
    parseDuration fraction (first :: rest) = none := by
  rcases space_byte space with
    ⟨digit, _, plus, minus, point, _, _, _⟩
  have component : parseComponent fraction (first :: rest) = none := by
    unfold parseComponent leadingInt
    have taken : (first :: rest).takeWhile isDigit = [] := by
      simp [digit]
    have dropped : (first :: rest).dropWhile isDigit = first :: rest := by
      simp [digit]
    have part : leadingFraction (first :: rest) = ([], first :: rest) := by
      unfold leadingFraction
      split
      · rename_i same
        exact (point (List.cons.inj same).1).elim
      · rfl
    rw [taken, dropped, if_pos (by decide), Option.bind_some]
    dsimp only
    rw [part]
    exact if_pos ⟨rfl, rfl⟩
  have unsigned : parseMagnitude fraction (first :: rest) = none := by
    have different : first :: rest ≠ ascii "0" := by
      intro same
      rw [(List.cons.inj same).1] at digit
      revert digit
      decide
    rw [parseMagnitude, if_neg different, if_neg (by simp),
      List.length_cons, parseComponents, component]
    rfl
  rw [parseDuration_unsigned plus minus, unsigned]
  rfl

/-- An integer in spaces is no duration, except for zero. -/
theorem parseDuration_plain
    {lead core : GoString} (plain : plainInteger core = some value)
    (leading : SpaceBytes lead) (trailing : SpaceBytes trail) :
    parseDuration fraction (lead ++ core ++ trail) = none ∨
      parseDuration fraction (lead ++ core ++ trail) = some 0 ∧
        value = 0 := by
  cases lead with
  | cons first rest =>
      exact Or.inl (parseDuration_space (leading first List.mem_cons_self))
  | nil =>
      rw [List.nil_append]
      unfold plainInteger at plain
      split at plain
      · rename_i rest
        rcases Option.map_eq_some_iff.mp plain with
          ⟨magnitude, unsigned, equal⟩
        rw [List.cons_append, parseDuration]
        rcases parseMagnitude_plain unsigned trailing with
          absent | ⟨zero, same⟩
        · rw [absent]
          exact Or.inl rfl
        · rw [zero, ← equal, same]
          exact Or.inr ⟨rfl, rfl⟩
      · rename_i rest
        rcases Option.map_eq_some_iff.mp plain with
          ⟨magnitude, unsigned, equal⟩
        rw [List.cons_append, parseDuration]
        rcases parseMagnitude_plain unsigned trailing with
          absent | ⟨zero, same⟩
        · rw [absent]
          exact Or.inl rfl
        · rw [zero, ← equal, same]
          exact Or.inr ⟨rfl, rfl⟩
      · rename_i positive negative
        rcases Option.map_eq_some_iff.mp plain with
          ⟨magnitude, unsigned, equal⟩
        cases core with
        | nil => cases unsigned
        | cons first rest =>
            have plus : first ≠ 43 := by
              rintro rfl
              exact positive rest rfl
            have minus : first ≠ 45 := by
              rintro rfl
              exact negative rest rfl
            rw [List.cons_append, parseDuration_unsigned plus minus,
              ← List.cons_append]
            rcases parseMagnitude_plain unsigned trailing with
              absent | ⟨zero, same⟩
            · rw [absent]
              exact Or.inl rfl
            · rw [zero, ← equal, same]
              exact Or.inr ⟨rfl, rfl⟩

end Plain

end Dhara.Environment
