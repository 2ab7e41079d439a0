import Dhara.Text
import Mathlib.Algebra.Order.Group.Nat
import Mathlib.Tactic.Ring

/-!
# JSON numbers

`parseNumber` reads a number token as a decimal fraction, by the grammar of
JSON.  `nearest` is `strconv.ParseFloat`: the nearest 64-bit floating point
number, ties to even, or nothing if that is beyond the largest one.

The smallest positive number is the unit: a decimal is scaled by it, cut to
the 53 leading binary digits, and these digits, added to the multiple of 2⁵²
that counts the ones cut off, are the bit pattern.
-/

namespace Dhara.JsonText

variable {bytes : GoString} {token : GoString} {value : Nat}

/-- A decimal digit. -/
def isDigit (byte : UInt8) : Bool :=
  48 ≤ byte && byte ≤ 57

/-- A byte of a number token. -/
def isNumberByte (byte : UInt8) : Bool :=
  isDigit byte || byte == 43 || byte == 45 || byte == 46 ||
    byte == 69 || byte == 101

/-- The value of decimal digits. -/
def digits (bytes : GoString) : Nat :=
  bytes.foldl (fun value byte => 10 * value + (byte.toNat - 48)) 0

/-- The value of the digits of an exponent, which is read up to 10000. -/
def exponentDigits (bytes : GoString) : Nat :=
  bytes.foldl
    (fun value byte =>
      if value < 10000 then 10 * value + (byte.toNat - 48) else value)
    0

/-- A decimal fraction. -/
structure Decimal where
  negative : Bool
  mantissa : Nat
  exponent : Int
deriving DecidableEq

/-- The digits of an exponent. -/
def parseExponentDigits (bytes : GoString) : Option Nat :=
  if bytes ≠ [] ∧ bytes.all isDigit then some (exponentDigits bytes)
  else none

/-- An optional exponent, up to the end of the token. -/
def parseExponent : GoString → Option Int
  | [] => some 0
  | mark :: rest =>
      if mark = 101 ∨ mark = 69 then
        match rest with
        | 43 :: rest => (parseExponentDigits rest).map Int.ofNat
        | 45 :: rest =>
            (parseExponentDigits rest).map fun value => -Int.ofNat value
        | rest => (parseExponentDigits rest).map Int.ofNat
      else
        none

/-- An optional fraction, and what follows. -/
def parseFraction : GoString → Option (GoString × GoString)
  | 46 :: rest =>
      if rest.takeWhile isDigit = [] then none
      else some (rest.takeWhile isDigit, rest.dropWhile isDigit)
  | rest => some ([], rest)

/-- A number without its sign. -/
def parseUnsigned (negative : Bool) (bytes : GoString) :
    Option Decimal :=
  let whole := bytes.takeWhile isDigit
  if whole = [] ∨ (whole.head? = some 48 ∧ whole ≠ [48]) then
    none
  else
    (parseFraction (bytes.dropWhile isDigit)).bind fun (fraction, rest) =>
      (parseExponent rest).map fun exponent =>
        ⟨negative, digits (whole ++ fraction), exponent - fraction.length⟩

/-- A number token. -/
def parseNumber : GoString → Option Decimal
  | 45 :: rest => parseUnsigned true rest
  | bytes => parseUnsigned false bytes

/-! ## Rounding -/

/-- The quotient, rounded to the nearest integer, ties to even. -/
def roundHalfEven (numerator denominator : Nat) : Nat :=
  let quotient := numerator / denominator
  let remainder := numerator % denominator
  if denominator < 2 * remainder ∨
      (denominator = 2 * remainder ∧ quotient % 2 = 1) then
    quotient + 1
  else
    quotient

/-- The binary digits of a fraction beyond the leading 53. -/
def excess (numerator denominator : Nat) : Nat :=
  Nat.log2 (numerator / denominator) - 52

/-- The bit pattern nearest to a fraction of the smallest number. -/
def nearestBits (numerator denominator : Nat) : Nat :=
  excess numerator denominator * 2 ^ 52 +
    roundHalfEven numerator (denominator * 2 ^ excess numerator denominator)

/-- The smallest positive number is this negative power of two. -/
def unitExponent : Nat := 1074

/-- The bit pattern of infinity. -/
def infinityBits : Nat := 2047 * 2 ^ 52

/-- The nearest floating point number. -/
def nearest (decimal : Decimal) : Option (BitVec 64) :=
  let bits :=
    nearestBits
      (decimal.mantissa * 10 ^ decimal.exponent.toNat * 2 ^ unitExponent)
      (10 ^ (-decimal.exponent).toNat)
  if bits < infinityBits then
    some (BitVec.ofNat 64 (if decimal.negative then 2 ^ 63 + bits else bits))
  else
    none

/-- `convertNumber`: the number a token stands for. -/
def parseFloat (token : GoString) : Option (BitVec 64) :=
  (parseNumber token).bind nearest

example :
    parseFloat (ascii "9007199254740993") =
      parseFloat (ascii "9007199254740992") := by
  decide +kernel

example : parseFloat (ascii "-2.5e0") = some 0xC004000000000000 := by
  decide +kernel

example : parseFloat (ascii "1e400") = none := by
  decide +kernel

/-! ## Integer literals -/

/-- An integer literal: its sign and its absolute value. -/
structure Literal where
  negative : Bool
  absolute : Nat
deriving DecidableEq

/-- Digits without a leading zero. -/
def parseDigits (bytes : GoString) : Option Nat :=
  if bytes = [] ∨ (bytes.head? = some 48 ∧ bytes ≠ [48]) ∨
      bytes.all isDigit = false then
    none
  else
    some (digits bytes)

/-- A token without a fraction and an exponent. -/
def parseInteger : GoString → Option Literal
  | 45 :: rest => (parseDigits rest).map (.mk true)
  | bytes => (parseDigits bytes).map (.mk false)

/-- The integer of a literal. -/
def Literal.exact (literal : Literal) : Int :=
  if literal.negative then -literal.absolute else literal.absolute

/-- The nearest floating point number, with the sign of the literal. -/
def Literal.rounded (literal : Literal) : Option (BitVec 64) :=
  nearest ⟨literal.negative, literal.absolute, 0⟩

theorem parseUnsigned_of_parseDigits
    {absolute : Nat} (parsed : parseDigits bytes = some absolute)
    (negative : Bool) :
    parseUnsigned negative bytes = some ⟨negative, absolute, 0⟩ := by
  unfold parseDigits at parsed
  split_ifs at parsed with shape
  cases parsed
  rw [not_or, not_or, Bool.not_eq_false] at shape
  rcases shape with ⟨nonempty, plain, all⟩
  rw [List.all_eq_true] at all
  have whole : bytes.takeWhile isDigit = bytes := by
    have kept :
        (bytes ++ []).takeWhile isDigit = bytes ++ [].takeWhile isDigit :=
      List.takeWhile_append_of_pos all
    simpa using kept
  have others : bytes.dropWhile isDigit = [] := by
    have dropped : (bytes ++ []).dropWhile isDigit = [].dropWhile isDigit :=
      List.dropWhile_append_of_pos all
    simpa using dropped
  have valid : ¬ (bytes = [] ∨ (bytes.head? = some 48 ∧ bytes ≠ [48])) :=
    not_or.mpr ⟨nonempty, plain⟩
  simp [parseUnsigned, whole, others, if_neg valid, parseFraction,
    parseExponent]

/-- A literal is decoded to the nearest number. -/
theorem parseFloat_of_parseInteger
    {literal : Literal} (parsed : parseInteger token = some literal) :
    parseFloat token = literal.rounded := by
  unfold parseInteger at parsed
  split at parsed
  · rcases Option.map_eq_some_iff.mp parsed with
      ⟨absolute, unsigned, equal⟩
    subst literal
    rw [parseFloat, parseNumber, parseUnsigned_of_parseDigits unsigned,
      Option.bind_some, Literal.rounded]
  · rename_i bytes positive
    rcases Option.map_eq_some_iff.mp parsed with
      ⟨absolute, unsigned, equal⟩
    subst literal
    have number : parseNumber token = parseUnsigned false token := by
      unfold parseNumber
      split
      · exact (positive _ rfl).elim
      · rfl
    rw [parseFloat, number, parseUnsigned_of_parseDigits unsigned,
      Option.bind_some, Literal.rounded]

/-! ## Tokens -/

theorem isNumberByte_of_isDigit {byte : UInt8} (digit : isDigit byte = true) :
    isNumberByte byte = true := by
  simp [isNumberByte, digit]

theorem parseExponentDigits_all
    (parsed : parseExponentDigits bytes = some value) :
    ∀ byte ∈ bytes, isNumberByte byte = true := by
  unfold parseExponentDigits at parsed
  split_ifs at parsed with shape
  intro byte member
  exact isNumberByte_of_isDigit (List.all_eq_true.mp shape.2 byte member)

theorem parseExponent_all
    {value : Int} (parsed : parseExponent bytes = some value) :
    ∀ byte ∈ bytes, isNumberByte byte = true := by
  unfold parseExponent at parsed
  split at parsed
  · simp
  · rename_i mark rest
    split_ifs at parsed with marked
    have first : isNumberByte mark = true := by
      rcases marked with same | same <;> rw [same] <;> decide
    have others : ∀ byte ∈ rest, isNumberByte byte = true := by
      split at parsed
      · rcases Option.map_eq_some_iff.mp parsed with ⟨_, inner, _⟩
        exact List.forall_mem_cons.mpr
          ⟨by decide, parseExponentDigits_all inner⟩
      · rcases Option.map_eq_some_iff.mp parsed with ⟨_, inner, _⟩
        exact List.forall_mem_cons.mpr
          ⟨by decide, parseExponentDigits_all inner⟩
      · rcases Option.map_eq_some_iff.mp parsed with ⟨_, inner, _⟩
        exact parseExponentDigits_all inner
    exact List.forall_mem_cons.mpr ⟨first, others⟩

theorem takeWhile_all :
    ∀ byte ∈ bytes.takeWhile isDigit, isNumberByte byte = true :=
  fun byte member =>
    isNumberByte_of_isDigit
      (List.all_eq_true.mp List.all_takeWhile byte member)

theorem all_of_takeWhile
    (rest : ∀ byte ∈ bytes.dropWhile isDigit, isNumberByte byte = true) :
    ∀ byte ∈ bytes, isNumberByte byte = true := by
  intro byte member
  rw [← List.takeWhile_append_dropWhile (p := isDigit) (l := bytes),
    List.mem_append] at member
  rcases member with digit | other
  · exact takeWhile_all byte digit
  · exact rest byte other

theorem parseFraction_all
    {fraction rest : GoString}
    (parsed : parseFraction bytes = some (fraction, rest))
    (others : ∀ byte ∈ rest, isNumberByte byte = true) :
    ∀ byte ∈ bytes, isNumberByte byte = true := by
  unfold parseFraction at parsed
  split at parsed
  · split_ifs at parsed
    cases parsed
    exact List.forall_mem_cons.mpr ⟨by decide, all_of_takeWhile others⟩
  · cases parsed
    exact others

theorem parseUnsigned_token
    {negative : Bool} {decimal : Decimal}
    (parsed : parseUnsigned negative bytes = some decimal) :
    (∃ first rest, bytes = first :: rest ∧ isDigit first = true) ∧
      ∀ byte ∈ bytes, isNumberByte byte = true := by
  unfold parseUnsigned at parsed
  dsimp only at parsed
  split_ifs at parsed with shape
  rcases Option.bind_eq_some_iff.mp parsed with
    ⟨⟨fraction, rest⟩, split, parsed⟩
  rcases Option.map_eq_some_iff.mp parsed with ⟨exponent, read, _⟩
  constructor
  · cases bytes with
    | nil => exact (shape (Or.inl rfl)).elim
    | cons first rest =>
        refine ⟨first, rest, rfl, ?_⟩
        by_contra other
        exact shape (Or.inl (by simp [List.takeWhile, other]))
  · exact all_of_takeWhile (parseFraction_all split (parseExponent_all read))

/-- A number token starts with its sign or a digit. -/
theorem parseNumber_token
    {decimal : Decimal} (parsed : parseNumber token = some decimal) :
    (∃ first rest,
      token = first :: rest ∧ (first = 45 ∨ isDigit first = true)) ∧
      ∀ byte ∈ token, isNumberByte byte = true := by
  unfold parseNumber at parsed
  split at parsed
  · rename_i rest
    exact ⟨⟨45, rest, rfl, Or.inl rfl⟩,
      List.forall_mem_cons.mpr ⟨by decide, (parseUnsigned_token parsed).2⟩⟩
  · rcases parseUnsigned_token parsed with
      ⟨⟨first, rest, equal, digit⟩, others⟩
    exact ⟨⟨first, rest, equal, Or.inr digit⟩, others⟩

/-! ## A token for every number -/

/-- The decimal digits of a number, at most so many, before others. -/
def writeDigitsWithin : Nat → Nat → GoString → GoString
  | 0, _, rest => rest
  | count + 1, value, rest =>
      if value < 10 then UInt8.ofNat (48 + value) :: rest
      else
        writeDigitsWithin count (value / 10)
          (UInt8.ofNat (48 + value % 10) :: rest)

/-- The decimal digits of a number. -/
def writeDigits (value : Nat) : GoString :=
  writeDigitsWithin (value + 1) value []

/-- The multiple of the smallest number that a bit pattern stands for. -/
def magnitude (bits : Nat) : Nat :=
  if bits / 2 ^ 52 = 0 then bits
  else (2 ^ 52 + bits % 2 ^ 52) * 2 ^ (bits / 2 ^ 52 - 1)

/-- A token of a multiple of the smallest decimal that is needed. -/
def signedToken (negative : Bool) (scaled : Nat) : GoString :=
  (if negative then [45] else []) ++ (writeDigits scaled ++ ascii "e-1074")

/-- The exact decimal fraction of a number. -/
def tokenOf (value : BitVec 64) : GoString :=
  signedToken (decide (2 ^ 63 ≤ value.toNat))
    (magnitude (value.toNat % 2 ^ 63) * 5 ^ unitExponent)

theorem digit_of_lt (small : value < 10) :
    isDigit (UInt8.ofNat (48 + value)) = true ∧
      (UInt8.ofNat (48 + value)).toNat - 48 = value := by
  revert small
  revert value
  decide

theorem writeDigitsWithin_all
    (count value : Nat) {rest : GoString}
    (others : ∀ byte ∈ rest, isDigit byte = true) :
    ∀ byte ∈ writeDigitsWithin count value rest, isDigit byte = true := by
  fun_induction writeDigitsWithin count value rest with
  | case1 => exact others
  | case2 count value rest small =>
      exact List.forall_mem_cons.mpr ⟨(digit_of_lt small).1, others⟩
  | case3 count value rest large induction =>
      apply induction
      exact List.forall_mem_cons.mpr
        ⟨(digit_of_lt (Nat.mod_lt _ (by decide))).1, others⟩

theorem writeDigits_all (value : Nat) :
    ∀ byte ∈ writeDigits value, isDigit byte = true :=
  writeDigitsWithin_all _ value (by simp)

theorem digits_cons (byte : UInt8) (rest : GoString) :
    digits (byte :: rest) =
      (byte.toNat - 48) * 10 ^ rest.length + digits rest := by
  have shifted :
      ∀ start,
        rest.foldl (fun value byte => 10 * value + (byte.toNat - 48))
            start =
          start * 10 ^ rest.length + digits rest := by
    unfold digits
    induction rest with
    | nil => simp
    | cons next rest induction =>
        intro start
        rw [List.foldl_cons, List.foldl_cons, induction,
          induction (10 * 0 + (next.toNat - 48)), List.length_cons]
        ring
  rw [digits, List.foldl_cons, shifted, Nat.mul_zero, Nat.zero_add]

theorem digits_writeDigitsWithin
    {count : Nat} (bounded : value < count) (rest : GoString) :
    digits (writeDigitsWithin count value rest) =
      value * 10 ^ rest.length + digits rest := by
  fun_induction writeDigitsWithin count value rest with
  | case1 => cases bounded
  | case2 count value rest small =>
      rw [digits_cons, (digit_of_lt small).2]
  | case3 count value rest large induction =>
      rw [induction (by omega), digits_cons,
        (digit_of_lt (Nat.mod_lt _ (by decide))).2, List.length_cons]
      conv_rhs => rw [← Nat.div_add_mod value 10]
      ring

theorem digits_writeDigits (value : Nat) :
    digits (writeDigits value) = value := by
  rw [writeDigits, digits_writeDigitsWithin (Nat.lt_succ_self value)]
  simp [digits]

theorem writeDigitsWithin_head
    {count : Nat} (bounded : value < count) (rest : GoString) :
    ∃ first others,
      writeDigitsWithin count value rest = first :: others ∧
        (value ≠ 0 → first ≠ 48) := by
  fun_induction writeDigitsWithin count value rest with
  | case1 => cases bounded
  | case2 count value rest small =>
      refine ⟨_, _, rfl, ?_⟩
      clear bounded
      revert small
      revert value
      decide
  | case3 count value rest large induction =>
      rcases induction (by omega) with ⟨first, others, equal, nonzero⟩
      exact ⟨first, others, equal, fun _ => nonzero (by omega)⟩

theorem writeDigits_head (value : Nat) :
    ∃ first rest,
      writeDigits value = first :: rest ∧ (value ≠ 0 → first ≠ 48) :=
  writeDigitsWithin_head (Nat.lt_succ_self value) []

theorem parseUnsigned_writeDigits (negative : Bool) (value : Nat) :
    parseUnsigned negative (writeDigits value ++ ascii "e-1074") =
      some ⟨negative, value, -unitExponent⟩ := by
  rcases writeDigits_head value with ⟨first, rest, equal, nonzero⟩
  have whole :
      (writeDigits value ++ ascii "e-1074").takeWhile isDigit =
        writeDigits value := by
    rw [List.takeWhile_append_of_pos (writeDigits_all value)]
    simp [ascii, isDigit]
  have others :
      (writeDigits value ++ ascii "e-1074").dropWhile isDigit =
        ascii "e-1074" := by
    rw [List.dropWhile_append_of_pos (writeDigits_all value)]
    simp [ascii, isDigit]
  have shape :
      ¬ (writeDigits value = [] ∨
        ((writeDigits value).head? = some 48 ∧
          writeDigits value ≠ [48])) := by
    by_cases zero : value = 0
    · subst value
      decide
    · simp [equal, nonzero zero]
  have fraction :
      parseFraction (ascii "e-1074") = some ([], ascii "e-1074") := by
    decide
  have exponent : parseExponent (ascii "e-1074") = some (-1074) := by
    decide
  simp only [parseUnsigned, whole, others, if_neg shape, fraction,
    exponent, Option.bind_some, Option.map_some, List.append_nil,
    digits_writeDigits]
  rfl

theorem parseNumber_signedToken (negative : Bool) (scaled : Nat) :
    parseNumber (signedToken negative scaled) =
      some ⟨negative, scaled, -unitExponent⟩ := by
  rw [← parseUnsigned_writeDigits, signedToken]
  cases negative with
  | true => rfl
  | false =>
      rcases writeDigits_head scaled with ⟨first, rest, equal, _⟩
      have digit :=
        writeDigits_all scaled first (by rw [equal]; exact List.mem_cons_self)
      rw [equal]
      change parseNumber (first :: (rest ++ ascii "e-1074")) = _
      unfold parseNumber
      split
      · rename_i same
        have sign : first = 45 := (List.cons.inj same).1
        rw [sign] at digit
        exact absurd digit (by decide)
      · rfl

/-- A multiple of the divisor is not rounded. -/
theorem roundHalfEven_mul
    {factor denominator : Nat} (positive : 0 < denominator) :
    roundHalfEven (factor * denominator) denominator = factor := by
  simp [roundHalfEven, positive]
  omega

theorem log2_shifted
    {leading shift : Nat} (low : 2 ^ 52 ≤ leading)
    (high : leading < 2 ^ 53) :
    Nat.log2 (leading * 2 ^ shift) = 52 + shift := by
  have positive : 0 < 2 ^ shift := Nat.two_pow_pos shift
  have nonzero : leading * 2 ^ shift ≠ 0 := by
    have := Nat.mul_pos (show 0 < leading by omega) positive
    omega
  rw [Nat.log2_eq_iff nonzero]
  constructor
  · rw [Nat.pow_add]
    exact Nat.mul_le_mul_right _ low
  · rw [show 52 + shift + 1 = 53 + shift by omega, Nat.pow_add]
    exact Nat.mul_lt_mul_of_pos_right high positive

/-- The leading digits of a magnitude, and how many are cut off. -/
theorem magnitude_split (bits : Nat) :
    ∃ leading,
      magnitude bits = leading * 2 ^ (Nat.log2 (magnitude bits) - 52) ∧
        (Nat.log2 (magnitude bits) - 52) * 2 ^ 52 + leading = bits := by
  unfold magnitude
  split_ifs with small
  · have none : Nat.log2 bits - 52 = 0 := by
      by_cases zero : bits = 0
      · subst bits
        decide
      · have short : Nat.log2 bits < 52 :=
          (Nat.log2_lt zero).mpr (by omega)
        omega
    exact ⟨bits, by simp [none], by simp [none]⟩
  · have shifted :
        Nat.log2 ((2 ^ 52 + bits % 2 ^ 52) * 2 ^ (bits / 2 ^ 52 - 1)) =
          52 + (bits / 2 ^ 52 - 1) :=
      log2_shifted (by omega) (by omega)
    refine ⟨2 ^ 52 + bits % 2 ^ 52, ?_, ?_⟩
    · rw [shifted, Nat.add_sub_cancel_left]
    · rw [shifted, Nat.add_sub_cancel_left]
      omega

/-- The bit pattern of a magnitude is found again. -/
theorem nearestBits_magnitude
    (bits : Nat) {denominator : Nat} (positive : 0 < denominator) :
    nearestBits (magnitude bits * denominator) denominator = bits := by
  rcases magnitude_split bits with ⟨leading, equal, whole⟩
  have cut :
      excess (magnitude bits * denominator) denominator =
        Nat.log2 (magnitude bits) - 52 := by
    rw [excess, Nat.mul_div_cancel _ positive]
  rw [nearestBits, cut]
  generalize Nat.log2 (magnitude bits) - 52 = shift at equal whole
  have grouped :
      magnitude bits * denominator = leading * (denominator * 2 ^ shift) := by
    rw [equal]
    ring
  rw [grouped, roundHalfEven_mul
    (Nat.mul_pos positive (Nat.two_pow_pos shift)), whole]

theorem nearestBits_scaled (bits power : Nat) :
    nearestBits (magnitude bits * 5 ^ power * 10 ^ 0 * 2 ^ power)
      (10 ^ power) = bits := by
  rw [Nat.pow_zero, Nat.mul_one, Nat.mul_assoc, ← Nat.mul_pow]
  exact nearestBits_magnitude bits (Nat.pow_pos (by decide))

theorem nearest_scaled (negative : Bool) (bits : Nat) :
    nearest
        ⟨negative, magnitude bits * 5 ^ unitExponent, -unitExponent⟩ =
      if bits < infinityBits then
        some (BitVec.ofNat 64 (if negative then 2 ^ 63 + bits else bits))
      else
        none := by
  have up : (-(unitExponent : Int)).toNat = 0 := by omega
  have down : (- -(unitExponent : Int)).toNat = unitExponent := by omega
  simp only [nearest, up, down, nearestBits_scaled]

/-- Every number below infinity has a token. -/
theorem parseFloat_tokenOf
    {value : BitVec 64}
    (finite : value.toNat % 2 ^ 63 < infinityBits) :
    parseFloat (tokenOf value) = some value := by
  rw [parseFloat, tokenOf, parseNumber_signedToken, Option.bind_some,
    nearest_scaled, if_pos finite, Option.some.injEq]
  apply BitVec.eq_of_toNat_eq
  have bound := value.isLt
  rw [BitVec.toNat_ofNat]
  split_ifs with negative
  · simp only [decide_eq_true_eq] at negative
    omega
  · simp only [decide_eq_true_eq] at negative
    omega

/-- A token never stands for an infinity. -/
theorem parseFloat_finite
    {value : BitVec 64} (parsed : parseFloat token = some value) :
    value.toNat % 2 ^ 63 < infinityBits := by
  rcases Option.bind_eq_some_iff.mp parsed with ⟨decimal, _, rounded⟩
  unfold nearest at rounded
  dsimp only at rounded
  have infinite : infinityBits < 2 ^ 63 := by decide
  generalize nearestBits _ _ = bits at rounded
  split_ifs at rounded with finite negative
  · rw [← Option.some.inj rounded, BitVec.toNat_ofNat]
    omega
  · rw [← Option.some.inj rounded, BitVec.toNat_ofNat]
    omega

end Dhara.JsonText
