import Dhara.Text

/-!
# JSON strings

A string literal is a body between two quotes.  `isBody` is what the scanner
of `encoding/json` lets pass, and `unquote` is what the body stands for:
escapes are replaced, and a byte that is not UTF-8 becomes U+FFFD.
-/

namespace Dhara.JsonText

variable {value : GoString} {first second : UInt8} {rune : Nat}
  {bytes more char body : GoString} {byte : UInt8}

/-- The quote. -/
def quote : UInt8 := 34

/-- The backslash. -/
def backslash : UInt8 := 92

/-- The letter that starts an escaped code unit. -/
def unitLetter : UInt8 := 117

/-! ## Characters -/

/-- The value of a hexadecimal digit. -/
def hexValue (byte : UInt8) : Option Nat :=
  if 48 ≤ byte ∧ byte ≤ 57 then some (byte.toNat - 48)
  else if 97 ≤ byte ∧ byte ≤ 102 then some (byte.toNat - 87)
  else if 65 ≤ byte ∧ byte ≤ 70 then some (byte.toNat - 55)
  else none

/-- Four hexadecimal digits. -/
def hexUnit (first second third fourth : UInt8) : Option Nat := do
  let a ← hexValue first
  let b ← hexValue second
  let c ← hexValue third
  let d ← hexValue fourth
  return ((a * 16 + b) * 16 + c) * 16 + d

/-- The code unit is half of a surrogate pair. -/
def isSurrogate (unit : Nat) : Bool :=
  0xD800 ≤ unit ∧ unit < 0xE000

/-- The character of a surrogate pair. -/
def surrogatePair (high low : Nat) : Option Nat :=
  if 0xD800 ≤ high ∧ high < 0xDC00 ∧ 0xDC00 ≤ low ∧ low < 0xE000 then
    some (0x10000 + (high - 0xD800) * 0x400 + (low - 0xDC00))
  else
    none

/-- The UTF-8 bytes of a character. -/
def encodeRune (rune : Nat) : GoString :=
  if rune < 0x80 then
    [UInt8.ofNat rune]
  else if rune < 0x800 then
    [UInt8.ofNat (0xC0 + rune / 0x40), UInt8.ofNat (0x80 + rune % 0x40)]
  else if rune < 0x10000 then
    [UInt8.ofNat (0xE0 + rune / 0x1000),
      UInt8.ofNat (0x80 + rune / 0x40 % 0x40),
      UInt8.ofNat (0x80 + rune % 0x40)]
  else
    [UInt8.ofNat (0xF0 + rune / 0x40000),
      UInt8.ofNat (0x80 + rune / 0x1000 % 0x40),
      UInt8.ofNat (0x80 + rune / 0x40 % 0x40),
      UInt8.ofNat (0x80 + rune % 0x40)]

/-- U+FFFD. -/
def replacement : GoString :=
  [0xEF, 0xBF, 0xBD]

/-- The character of an escape with one letter. -/
def simpleEscape (letter : UInt8) : Option UInt8 :=
  if letter = quote ∨ letter = backslash ∨ letter = 47 then some letter
  else if letter = 98 then some 8
  else if letter = 102 then some 12
  else if letter = 110 then some 10
  else if letter = 114 then some 13
  else if letter = 116 then some 9
  else none

/-! ## Literals -/

/-- The bytes the scanner accepts between the quotes. -/
def isBody : Bool → GoString → Bool
  | escaped, [] => !escaped
  | true, _ :: rest => isBody false rest
  | false, byte :: rest =>
      if byte = quote ∨ byte < 0x20 then false
      else isBody (byte = backslash) rest

/-- The code unit of an escape, and what follows. -/
def escapedUnit : GoString → Option (Nat × GoString)
  | a :: b :: c :: d :: rest => (hexUnit a b c d).map (·, rest)
  | _ => none

/-- The second half of a surrogate pair. -/
def lowSurrogate (high : Nat) : GoString → Option (Nat × GoString)
  | slash :: letter :: rest =>
      if slash = backslash ∧ letter = unitLetter then
        (escapedUnit rest).bind fun (low, more) =>
          (surrogatePair high low).map (·, more)
      else
        none
  | _ => none

/-- What an escape stands for, after its backslash, and what follows. -/
def nextEscape : GoString → Option (GoString × GoString)
  | [] => none
  | letter :: rest =>
      if letter = unitLetter then
        (escapedUnit rest).map fun (unit, more) =>
          if isSurrogate unit then
            match lowSurrogate unit more with
            | some (rune, last) => (encodeRune rune, last)
            | none => (replacement, more)
          else
            (encodeRune unit, more)
      else
        (simpleEscape letter).map fun char => ([char], rest)

/-- A character that is not ASCII, and what follows. -/
def nextRune (first : UInt8) (rest : GoString) : GoString × GoString :=
  match rest with
  | [] => (replacement, rest)
  | second :: more =>
      if isPair first second then
        ([first, second], more)
      else
        match more with
        | [] => (replacement, rest)
        | third :: more =>
            if isTriple first second third then
              ([first, second, third], more)
            else
              match more with
              | [] => (replacement, rest)
              | fourth :: more =>
                  if isQuad first second third fourth then
                    ([first, second, third, fourth], more)
                  else
                    (replacement, rest)

/-- The first character of a body, and what follows. -/
def nextChar (first : UInt8) (rest : GoString) :
    Option (GoString × GoString) :=
  if first = backslash then nextEscape rest
  else if first < 0x80 then some ([first], rest)
  else some (nextRune first rest)

/-- What a body stands for, if it has at most so many characters. -/
def unquoteWithin : Nat → GoString → Option GoString
  | _, [] => some []
  | 0, _ :: _ => none
  | count + 1, first :: rest =>
      (nextChar first rest).bind fun (char, more) =>
        (unquoteWithin count more).map (char ++ ·)

/-- `unquote`: what the body of a literal stands for. -/
def unquote (body : GoString) : Option GoString :=
  unquoteWithin body.length body

/-- The bytes are a literal of the string. -/
def StringLiteral (literal value : GoString) : Prop :=
  ∃ body,
    literal = quote :: (body ++ [quote]) ∧ isBody false body = true ∧
      unquote body = some value

/-! ## Decoded strings are UTF-8 -/

/-- The bytes of one character. -/
inductive Rune : GoString → Prop where
  | one {first : UInt8} (small : first < 0x80) : Rune [first]
  | pair {first second : UInt8} (valid : isPair first second = true) :
      Rune [first, second]
  | triple {first second third : UInt8}
      (valid : isTriple first second third = true) :
      Rune [first, second, third]
  | quad {first second third fourth : UInt8}
      (valid : isQuad first second third fourth = true) :
      Rune [first, second, third, fourth]

/-- The bytes are characters one after the other. -/
inductive WellEncoded : GoString → Prop where
  | nil : WellEncoded []
  | cons {char rest : GoString} (rune : Rune char)
      (more : WellEncoded rest) : WellEncoded (char ++ rest)

theorem isPair_encode
    (low : 0x80 ≤ rune) (high : rune < 0x800) :
    isPair (UInt8.ofNat (0xC0 + rune / 0x40))
      (UInt8.ofNat (0x80 + rune % 0x40)) = true := by
  simp only [isPair, isTail, Bool.and_eq_true, decide_eq_true_eq,
    UInt8.le_iff_toNat_le, UInt8.toNat_ofNat', UInt8.reduceToNat]
  omega

theorem isTriple_encode
    (low : 0x800 ≤ rune) (high : rune < 0x10000)
    (plain : ¬ (0xD800 ≤ rune ∧ rune < 0xE000)) :
    isTriple (UInt8.ofNat (0xE0 + rune / 0x1000))
      (UInt8.ofNat (0x80 + rune / 0x40 % 0x40))
      (UInt8.ofNat (0x80 + rune % 0x40)) = true := by
  simp only [isTriple, isTail, Bool.and_eq_true, Bool.or_eq_true,
    decide_eq_true_eq, beq_iff_eq, ← UInt8.toNat_inj,
    UInt8.le_iff_toNat_le, UInt8.toNat_ofNat', UInt8.reduceToNat]
  omega

theorem isQuad_encode
    (low : 0x10000 ≤ rune) (high : rune < 0x110000) :
    isQuad (UInt8.ofNat (0xF0 + rune / 0x40000))
      (UInt8.ofNat (0x80 + rune / 0x1000 % 0x40))
      (UInt8.ofNat (0x80 + rune / 0x40 % 0x40))
      (UInt8.ofNat (0x80 + rune % 0x40)) = true := by
  simp only [isQuad, isTail, Bool.and_eq_true, Bool.or_eq_true,
    decide_eq_true_eq, beq_iff_eq, ← UInt8.toNat_inj,
    UInt8.le_iff_toNat_le, UInt8.toNat_ofNat', UInt8.reduceToNat]
  omega

theorem rune_replacement : Rune replacement :=
  .triple (by decide)

theorem rune_encodeRune
    (bounded : rune < 0x110000)
    (plain : isSurrogate rune = false) : Rune (encodeRune rune) := by
  simp only [isSurrogate, decide_eq_false_iff_not] at plain
  unfold encodeRune
  split_ifs with one two three
  · apply Rune.one
    rw [UInt8.lt_iff_toNat_lt, UInt8.toNat_ofNat']
    simp only [UInt8.reduceToNat]
    omega
  · exact .pair (isPair_encode (by omega) two)
  · exact .triple (isTriple_encode (by omega) three plain)
  · exact .quad (isQuad_encode (by omega) bounded)

theorem rune_simpleEscape
    {letter char : UInt8} (escape : simpleEscape letter = some char) :
    Rune [char] := by
  apply Rune.one
  unfold simpleEscape at escape
  split_ifs at escape with same
  · cases escape
    rcases same with same | same | same <;> rw [same] <;> decide
  all_goals
    cases escape
    decide

theorem hexValue_lt {value : Nat}
    (known : hexValue byte = some value) : value < 16 := by
  simp only [hexValue, UInt8.le_iff_toNat_le, UInt8.reduceToNat]
    at known
  split_ifs at known with digit lower upper
  all_goals
    cases known
    omega

theorem escapedUnit_lt
    {unit : Nat} (escape : escapedUnit bytes = some (unit, more)) :
    unit < 0x10000 := by
  unfold escapedUnit at escape
  split at escape
  · simp only [hexUnit, Option.bind_eq_bind, Option.pure_def,
      Option.map_eq_some_iff, Option.bind_eq_some_iff,
      Prod.mk.injEq] at escape
    rcases escape with
      ⟨_, ⟨a, first, b, second, c, third, d, fourth, equal⟩, same, _⟩
    have := hexValue_lt first
    have := hexValue_lt second
    have := hexValue_lt third
    have := hexValue_lt fourth
    cases equal
    omega
  · cases escape

theorem rune_surrogatePair
    {high low : Nat} (pair : surrogatePair high low = some rune) :
    Rune (encodeRune rune) := by
  unfold surrogatePair at pair
  split_ifs at pair with valid
  have equal := Option.some.inj pair
  apply rune_encodeRune
  · omega
  · simp only [isSurrogate, decide_eq_false_iff_not]
    omega

theorem rune_nextEscape
    (escape : nextEscape bytes = some (char, more)) : Rune char := by
  unfold nextEscape at escape
  split at escape
  · cases escape
  · rename_i letter rest
    split_ifs at escape with unitEscape
    · rcases Option.map_eq_some_iff.mp escape with
        ⟨⟨unit, after⟩, read, equal⟩
      have small := escapedUnit_lt read
      dsimp only at equal
      split_ifs at equal with half
      · split at equal
        · rename_i rune last paired
          cases equal
          unfold lowSurrogate at paired
          split at paired
          · split_ifs at paired
            rcases Option.bind_eq_some_iff.mp paired with
              ⟨⟨low, left⟩, _, pair⟩
            rcases Option.map_eq_some_iff.mp pair with
              ⟨found, valid, same⟩
            cases same
            exact rune_surrogatePair valid
          · cases paired
        · cases equal
          exact rune_replacement
      · cases equal
        exact rune_encodeRune (by omega) (by simpa using half)
    · rcases Option.map_eq_some_iff.mp escape with
        ⟨single, simple, equal⟩
      cases equal
      exact rune_simpleEscape simple

theorem rune_nextRune
    (first : UInt8) (rest : GoString) : Rune (nextRune first rest).1 := by
  unfold nextRune
  split
  · exact rune_replacement
  · split_ifs with pair
    · exact .pair pair
    · split
      · exact rune_replacement
      · split_ifs with triple
        · exact .triple triple
        · split
          · exact rune_replacement
          · split_ifs with quad
            · exact .quad quad
            · exact rune_replacement

theorem rune_nextChar
    {rest : GoString}
    (next : nextChar first rest = some (char, more)) : Rune char := by
  unfold nextChar at next
  split_ifs at next with escape small
  · exact rune_nextEscape next
  · cases next
    exact .one small
  · have equal := congrArg Prod.fst (Option.some.inj next)
    rw [← show (nextRune first rest).1 = char from equal]
    exact rune_nextRune first rest

theorem wellEncoded_unquoteWithin
    {count : Nat} (decoded : unquoteWithin count body = some value) :
    WellEncoded value := by
  induction count generalizing body value with
  | zero =>
      cases body with
      | nil =>
          cases decoded
          exact .nil
      | cons first rest => cases decoded
  | succ count induction =>
      cases body with
      | nil =>
          cases decoded
          exact .nil
      | cons first rest =>
          rcases Option.bind_eq_some_iff.mp decoded with
            ⟨⟨char, more⟩, next, decoded⟩
          rcases Option.map_eq_some_iff.mp decoded with
            ⟨later, inner, equal⟩
          subst value
          exact .cons (rune_nextChar next) (induction inner)

/-- What the body of a literal stands for is well-formed UTF-8. -/
theorem wellEncoded_unquote
    (decoded : unquote body = some value) :
    WellEncoded value :=
  wellEncoded_unquoteWithin decoded

/-! ## A literal for every string -/

/-- A hexadecimal digit. -/
def hexLetter (value : Nat) : UInt8 :=
  if value < 10 then UInt8.ofNat (48 + value)
  else UInt8.ofNat (87 + value)

/-- A byte of a string in the body of a literal. -/
def escapeByte (byte : UInt8) : GoString :=
  if byte = quote ∨ byte = backslash ∨ byte < 0x20 then
    [backslash, unitLetter, 48, 48, hexLetter (byte.toNat / 16),
      hexLetter (byte.toNat % 16)]
  else
    [byte]

/-- A literal of the string. -/
def literalOf (value : GoString) : GoString :=
  quote :: (value.flatMap escapeByte ++ [quote])

theorem hexValue_hexLetter {value : Nat} (small : value < 16) :
    hexValue (hexLetter value) = some value := by
  revert small
  revert value
  decide

theorem escapeByte_large (large : 0x80 ≤ byte) :
    escapeByte byte = [byte] := by
  apply if_neg
  rw [UInt8.le_iff_toNat_le] at large
  simp only [quote, backslash, ← UInt8.toNat_inj, UInt8.lt_iff_toNat_lt,
    UInt8.reduceToNat] at large ⊢
  omega

/-- The characters beyond ASCII are told apart by their first byte. -/
theorem isPair_false_of_isTriple
    {third : UInt8} (triple : isTriple first second third = true) :
    isPair first second = false := by
  simp only [isTriple, isPair, isTail, Bool.and_eq_true, Bool.or_eq_true,
    Bool.and_eq_false_iff, decide_eq_true_eq, decide_eq_false_iff_not,
    beq_iff_eq, ← UInt8.toNat_inj, UInt8.le_iff_toNat_le,
    UInt8.reduceToNat] at triple ⊢
  omega

theorem isTriple_false_of_isQuad
    {third fourth : UInt8} (quad : isQuad first second third fourth = true) :
    isPair first second = false ∧ isTriple first second third = false := by
  simp only [isQuad, isTriple, isPair, isTail, Bool.and_eq_true,
    Bool.or_eq_true, Bool.and_eq_false_iff, Bool.or_eq_false_iff,
    decide_eq_true_eq, decide_eq_false_iff_not, beq_iff_eq,
    beq_eq_false_iff_ne, ne_eq, ← UInt8.toNat_inj,
    UInt8.le_iff_toNat_le, UInt8.reduceToNat] at quad ⊢
  omega

/-- Every byte of a character beyond ASCII is. -/
theorem Rune.large
    {rest : GoString} (rune : Rune (first :: second :: rest)) :
    ∀ byte ∈ first :: second :: rest, 0x80 ≤ byte := by
  simp only [List.mem_cons, UInt8.le_iff_toNat_le, UInt8.reduceToNat]
  intro byte member
  cases rune with
  | pair valid =>
      simp only [isPair, isTail, Bool.and_eq_true, decide_eq_true_eq,
        UInt8.le_iff_toNat_le, UInt8.reduceToNat] at valid
      rcases member with equal | equal | impossible
      · rw [equal]
        omega
      · rw [equal]
        omega
      · cases impossible
  | triple valid =>
      simp only [isTriple, isTail, Bool.and_eq_true, Bool.or_eq_true,
        decide_eq_true_eq, beq_iff_eq, ← UInt8.toNat_inj,
        UInt8.le_iff_toNat_le, UInt8.reduceToNat] at valid
      simp only [List.mem_cons, List.not_mem_nil, or_false] at member
      rcases member with equal | equal | equal
      all_goals
        rw [equal]
        omega
  | quad valid =>
      simp only [isQuad, isTail, Bool.and_eq_true, Bool.or_eq_true,
        decide_eq_true_eq, beq_iff_eq, ← UInt8.toNat_inj,
        UInt8.le_iff_toNat_le, UInt8.reduceToNat] at valid
      simp only [List.mem_cons, List.not_mem_nil, or_false] at member
      rcases member with equal | equal | equal | equal
      all_goals
        rw [equal]
        omega

theorem nextChar_rune
    (rune : Rune (first :: second :: body)) (rest : GoString) :
    nextChar first (second :: (body ++ rest)) =
      some (first :: second :: body, rest) := by
  have large := rune.large first (by simp)
  have plain : first ≠ backslash := by
    intro same
    rw [same] at large
    exact absurd large (by decide)
  have notSmall : ¬ first < 0x80 := UInt8.not_lt.mpr large
  unfold nextChar
  rw [if_neg plain, if_neg notSmall]
  cases rune with
  | pair valid => simp [nextRune, valid]
  | triple valid =>
      simp [nextRune, valid, isPair_false_of_isTriple valid]
  | quad valid =>
      simp [nextRune, valid, isTriple_false_of_isQuad valid]

theorem nextChar_escapeByte
    (small : byte < 0x80) (rest : GoString) :
    ∃ first body,
      escapeByte byte ++ rest = first :: (body ++ rest) ∧
        nextChar first (body ++ rest) = some ([byte], rest) := by
  unfold escapeByte
  split_ifs with special
  · refine ⟨_, _, rfl, ?_⟩
    have bound : byte.toNat < 0x80 := UInt8.lt_iff_toNat_lt.mp small
    have unit :
        hexUnit 48 48 (hexLetter (byte.toNat / 16))
          (hexLetter (byte.toNat % 16)) = some byte.toNat := by
      have zero : hexValue 48 = some 0 := by decide
      simp only [hexUnit, zero,
        hexValue_hexLetter (show byte.toNat / 16 < 16 by omega),
        hexValue_hexLetter (show byte.toNat % 16 < 16 by omega),
        Option.bind_eq_bind, Option.bind_some, Option.pure_def,
        Option.some.injEq]
      omega
    have plain : isSurrogate byte.toNat = false := by
      simp only [isSurrogate, decide_eq_false_iff_not]
      omega
    have itself : encodeRune byte.toNat = [byte] := by
      simp [encodeRune, bound]
    simp [nextChar, nextEscape, escapedUnit, unit, plain, itself]
  · refine ⟨byte, [], rfl, ?_⟩
    simp only [not_or] at special
    simp [nextChar, special.2.1, small]

theorem flatMap_escapeByte
    (large : ∀ byte ∈ bytes, 0x80 ≤ byte) :
    bytes.flatMap escapeByte = bytes := by
  induction bytes with
  | nil => rfl
  | cons byte rest induction =>
      rw [List.flatMap_cons, escapeByte_large (large byte (by simp)),
        induction fun other member =>
          large other (List.mem_cons_of_mem byte member)]
      rfl

/-- The body of a literal starts with a character of its string. -/
theorem nextChar_escape
    (rune : Rune char) (rest : GoString) :
    ∃ first body,
      char.flatMap escapeByte ++ rest = first :: (body ++ rest) ∧
        nextChar first (body ++ rest) = some (char, rest) := by
  match char, rune with
  | [first], .one small => simpa using nextChar_escapeByte small rest
  | first :: second :: body, rune =>
      rw [flatMap_escapeByte rune.large]
      exact ⟨first, second :: body, rfl, nextChar_rune rune rest⟩

theorem unquoteWithin_escape
    (encoded : WellEncoded value) {count : Nat}
    (enough : (value.flatMap escapeByte).length ≤ count) :
    unquoteWithin count (value.flatMap escapeByte) = some value := by
  induction encoded generalizing count with
  | nil => simp [unquoteWithin]
  | cons rune more induction =>
      rename_i char rest
      rw [List.flatMap_append] at enough ⊢
      rcases nextChar_escape rune (rest.flatMap escapeByte) with
        ⟨first, body, starts, next⟩
      rw [starts] at enough ⊢
      cases count with
      | zero => simp at enough
      | succ count =>
          simp only [List.length_cons, List.length_append] at enough
          have later :
              unquoteWithin count (rest.flatMap escapeByte) = some rest :=
            induction (by omega)
          simp [unquoteWithin, next, later]

theorem isBody_append
    {escaped : Bool} {left : GoString}
    (first : isBody escaped left = true) (right : GoString) :
    isBody escaped (left ++ right) = isBody false right := by
  induction left generalizing escaped with
  | nil =>
      cases escaped with
      | true => cases first
      | false => rfl
  | cons byte rest induction =>
      cases escaped with
      | true => exact induction first
      | false =>
          simp only [List.cons_append, isBody] at first ⊢
          split_ifs at first ⊢
          exact induction first

theorem isBody_hexLetter {value : Nat} (small : value < 16)
    (rest : GoString) :
    isBody false (hexLetter value :: rest) = isBody false rest := by
  have plain :
      ∀ value, value < 16 →
        ¬ (hexLetter value = quote ∨ hexLetter value < 0x20) ∧
          hexLetter value ≠ backslash := by
    decide
  rcases plain value small with ⟨printable, unescaped⟩
  simp [isBody, printable, unescaped]

theorem isBody_escapeByte (byte : UInt8) :
    isBody false (escapeByte byte) = true := by
  unfold escapeByte
  split_ifs with special
  · have bound := byte.toNat_lt
    change isBody false
      (hexLetter 0 :: hexLetter 0 :: hexLetter (byte.toNat / 16) ::
        hexLetter (byte.toNat % 16) :: []) = true
    rw [isBody_hexLetter (by decide), isBody_hexLetter (by decide),
      isBody_hexLetter (by omega), isBody_hexLetter (by omega)]
    rfl
  · simp only [not_or] at special
    simp [isBody, special]

/-- Every well-formed string has a literal. -/
theorem stringLiteral_literalOf
    (encoded : WellEncoded value) :
    StringLiteral (literalOf value) value := by
  refine ⟨value.flatMap escapeByte, rfl, ?_,
    unquoteWithin_escape encoded (Nat.le_refl _)⟩
  clear encoded
  induction value with
  | nil => rfl
  | cons byte rest induction =>
      rw [List.flatMap_cons, isBody_append (isBody_escapeByte byte),
        induction]

end Dhara.JsonText
