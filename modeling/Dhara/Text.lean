import Mathlib.Data.List.Basic
import Mathlib.Data.Int.Basic

/-!
# Go strings and PostgreSQL text

A Go string is a sequence of arbitrary bytes.  A text column of PostgreSQL
holds only well-formed UTF-8 without a NUL byte, and counts its length in
characters.  `Text` is a byte sequence together with the proof that the
server accepts it, so a stored text never has to be checked again.
-/

namespace Dhara

/-- A Go string: arbitrary bytes. -/
abbrev GoString := List UInt8

/-- An ASCII literal of the source. -/
def ascii (literal : String) : GoString :=
  literal.toList.map fun char => UInt8.ofNat char.toNat

/-- `strconv.Itoa`, and the `%d` verb. -/
def itoa (value : Int) : GoString :=
  ascii (toString value)

/-! ## UTF-8 -/

/-- A continuation byte. -/
def isTail (byte : UInt8) : Bool :=
  0x80 ≤ byte && byte ≤ 0xBF

/-- A two-byte character. -/
def isPair (first second : UInt8) : Bool :=
  0xC2 ≤ first && first ≤ 0xDF && isTail second

/-- A three-byte character, without overlong forms and surrogates. -/
def isTriple (first second third : UInt8) : Bool :=
  isTail third &&
    ((first == 0xE0 && 0xA0 ≤ second && second ≤ 0xBF) ||
      (0xE1 ≤ first && first ≤ 0xEC && isTail second) ||
      (first == 0xED && 0x80 ≤ second && second ≤ 0x9F) ||
      (0xEE ≤ first && first ≤ 0xEF && isTail second))

/-- A four-byte character, up to the last code point. -/
def isQuad (first second third fourth : UInt8) : Bool :=
  isTail third && isTail fourth &&
    ((first == 0xF0 && 0x90 ≤ second && second ≤ 0xBF) ||
      (0xF1 ≤ first && first ≤ 0xF3 && isTail second) ||
      (first == 0xF4 && 0x80 ≤ second && second ≤ 0x8F))

/-- The number of characters, or `none` if the bytes are not UTF-8. -/
def runeCount : GoString → Option Nat
  | [] => some 0
  | first :: rest =>
      if first < 0x80 then
        (runeCount rest).map (· + 1)
      else
        match rest with
        | [] => none
        | second :: rest =>
            if isPair first second then
              (runeCount rest).map (· + 1)
            else
              match rest with
              | [] => none
              | third :: rest =>
                  if isTriple first second third then
                    (runeCount rest).map (· + 1)
                  else
                    match rest with
                    | [] => none
                    | fourth :: rest =>
                        if isQuad first second third fourth then
                          (runeCount rest).map (· + 1)
                        else
                          none

/-- The bytes form a text the server stores. -/
def isText (bytes : GoString) : Bool :=
  (runeCount bytes).isSome && !bytes.contains 0

/-- A stored text value. -/
structure Text where
  bytes : GoString
  valid : isText bytes = true
deriving DecidableEq

@[ext]
theorem Text.ext
    {left right : Text} (equal : left.bytes = right.bytes) :
    left = right := by
  cases left
  cases right
  cases equal
  rfl

/-! ## Texts the code builds -/

theorem runeCount_append
    (left right : GoString) {before : Nat}
    (counted : runeCount left = some before) :
    runeCount (left ++ right) =
      (runeCount right).map fun after => after + before := by
  generalize rightCount : runeCount right = last
  fun_induction runeCount left generalizing before with
  | case1 =>
      simp only [Option.some.injEq] at counted
      subst before
      simp [rightCount]
  | case2 first rest small induction =>
      simp only [Option.map_eq_some_iff] at counted
      rcases counted with ⟨count, earlier, equal⟩
      subst before
      rw [List.cons_append]
      unfold runeCount
      simp only [small, if_true, induction earlier, Option.map_map,
        Function.comp_def, Nat.add_assoc]
  | case4 first large second rest pair induction =>
      simp only [Option.map_eq_some_iff] at counted
      rcases counted with ⟨count, earlier, equal⟩
      subst before
      rw [List.cons_append, List.cons_append]
      unfold runeCount
      simp only [large, pair, if_true, if_false, induction earlier,
        Option.map_map, Function.comp_def, Nat.add_assoc]
  | case6 first large second noPair third rest triple induction =>
      simp only [Option.map_eq_some_iff] at counted
      rcases counted with ⟨count, earlier, equal⟩
      subst before
      rw [List.cons_append, List.cons_append, List.cons_append]
      unfold runeCount
      simp only [large, noPair, triple, if_true, if_false,
        Bool.false_eq_true, induction earlier, Option.map_map,
        Function.comp_def, Nat.add_assoc]
  | case8 first large second noPair third noTriple fourth rest quad
      induction =>
      simp only [Option.map_eq_some_iff] at counted
      rcases counted with ⟨count, earlier, equal⟩
      subst before
      rw [List.cons_append, List.cons_append, List.cons_append,
        List.cons_append]
      unfold runeCount
      simp only [large, noPair, noTriple, quad, if_true, if_false,
        Bool.false_eq_true, induction earlier, Option.map_map,
        Function.comp_def, Nat.add_assoc]
  | _ => cases counted

theorem runeCount_le_length
    {bytes : GoString} {count : Nat}
    (counted : runeCount bytes = some count) :
    count ≤ bytes.length := by
  fun_induction runeCount bytes generalizing count with
  | case1 =>
      simp only [Option.some.injEq] at counted
      simp [← counted]
  | case2 first rest small induction =>
      rcases Option.map_eq_some_iff.mp counted with
        ⟨before, earlier, equal⟩
      have shorter := induction earlier
      simp only [List.length_cons]
      omega
  | case4 first large second rest pair induction =>
      rcases Option.map_eq_some_iff.mp counted with
        ⟨before, earlier, equal⟩
      have shorter := induction earlier
      simp only [List.length_cons]
      omega
  | case6 first large second noPair third rest triple induction =>
      rcases Option.map_eq_some_iff.mp counted with
        ⟨before, earlier, equal⟩
      have shorter := induction earlier
      simp only [List.length_cons]
      omega
  | case8 first large second noPair third noTriple fourth rest quad
      induction =>
      rcases Option.map_eq_some_iff.mp counted with
        ⟨before, earlier, equal⟩
      have shorter := induction earlier
      simp only [List.length_cons]
      omega
  | _ => cases counted

/-- After a text, whatever is appended decides. -/
theorem isText_append
    {left : GoString} (leftText : isText left = true)
    (right : GoString) : isText (left ++ right) = isText right := by
  simp only [isText, Bool.and_eq_true, Option.isSome_iff_exists,
    Bool.not_eq_true', List.contains_eq_mem, decide_eq_false_iff_not]
    at leftText
  rcases leftText with ⟨⟨before, counted⟩, clean⟩
  simp [isText, runeCount_append left right counted, clean]

/-- Printable ASCII is a text. -/
theorem isText_of_ascii
    {bytes : GoString}
    (plain : ∀ byte ∈ bytes, 0 < byte ∧ byte < 0x80) :
    isText bytes = true := by
  have counted : ∃ count, runeCount bytes = some count := by
    induction bytes with
    | nil => exact ⟨0, rfl⟩
    | cons first rest induction =>
        rcases induction fun byte member =>
            plain byte (List.mem_cons_of_mem first member) with
          ⟨count, counted⟩
        refine ⟨count + 1, ?_⟩
        unfold runeCount
        rw [if_pos (plain first (by simp)).2, counted]
        rfl
  rcases counted with ⟨count, counted⟩
  have clean : (0 : UInt8) ∉ bytes := by
    intro member
    exact absurd (plain 0 member).1 (by decide)
  simp [isText, counted, clean]

theorem isText_ascii
    {literal : String}
    (plain : ∀ char ∈ literal.toList, 0 < char.toNat ∧ char.toNat < 128) :
    isText (ascii literal) = true := by
  apply isText_of_ascii
  intro byte member
  simp only [ascii, List.mem_map] at member
  rcases member with ⟨char, occurs, equal⟩
  subst byte
  have bounds := plain char occurs
  rw [UInt8.lt_iff_toNat_lt, UInt8.lt_iff_toNat_lt, UInt8.toNat_ofNat']
  simp only [UInt8.reduceToNat]
  omega

theorem repr_digits
    {number : Nat} {char : Char} (member : char ∈ number.repr.toList) :
    48 ≤ char.toNat ∧ char.toNat ≤ 57 := by
  rw [Nat.toList_repr] at member
  have digit := Nat.isDigit_of_mem_toDigits (by decide) (by decide) member
  simpa using Char.isDigit_iff_toNat.mp digit

theorem isText_itoa (value : Int) : isText (itoa value) = true := by
  have digits :
      ∀ number : Nat, ∀ char ∈ number.repr.toList,
        0 < char.toNat ∧ char.toNat < 128 := by
    intro number char member
    have bounds := repr_digits member
    omega
  apply isText_ascii
  intro char member
  cases value with
  | ofNat number => exact digits number char member
  | negSucc number =>
      change char ∈ ("-" ++ (number + 1).repr).toList at member
      rw [String.toList_append, List.mem_append] at member
      rcases member with sign | digit
      · have equal : char = '-' := by simpa using sign
        subst char
        decide
      · exact digits (number + 1) char digit

/-- A natural number is written with digits. -/
theorem itoa_digits
    {number : Nat} {byte : UInt8} (member : byte ∈ itoa number) :
    48 ≤ byte.toNat ∧ byte.toNat ≤ 57 := by
  change byte ∈ (number.repr.toList.map _) at member
  rcases List.mem_map.mp member with ⟨char, occurs, equal⟩
  have bounds := repr_digits occurs
  rw [← equal, UInt8.toNat_ofNat']
  omega

theorem itoa_ne_nil (number : Nat) : itoa number ≠ [] := by
  change number.repr.toList.map _ ≠ []
  rw [Nat.toList_repr]
  simp

theorem itoa_inj
    {first second : Nat} (same : itoa first = itoa second) :
    first = second := by
  have decoded :
      ∀ number : Nat,
        (itoa number).map (fun byte => Char.ofNat byte.toNat) =
          Nat.toDigits 10 number := by
    intro number
    change (number.repr.toList.map _).map _ = _
    rw [← Nat.toList_repr, List.map_map]
    nth_rewrite 2 [← List.map_id number.repr.toList]
    apply List.map_congr_left
    intro char member
    have bounds := repr_digits member
    have small : char.toNat % 256 = char.toNat := by omega
    change Char.ofNat (UInt8.ofNat char.toNat).toNat = char
    rw [UInt8.toNat_ofNat', small, Char.ofNat_toNat]
  have digits := congrArg (List.map fun byte => Char.ofNat byte.toNat) same
  rw [decoded, decoded] at digits
  have values := congrArg (fun chars => Nat.ofDigitChars 10 chars 0) digits
  simpa [Nat.ofDigitChars_toDigits] using values

/-! ## Timestamps -/

/-- One second, in the nanoseconds of a Go duration. -/
def second : Int := 1000000000

/-- Microseconds since the Unix epoch. -/
abbrev Time := Int

/-- A decimal number padded with zeros. -/
def pad (width : Nat) (value : Int) : GoString :=
  List.replicate (width - (itoa value).length) 48 ++ itoa value

/-- Year, month and day of a number of days since the Unix epoch. -/
def civilFromDays (days : Int) : Int × Int × Int :=
  let shifted := days + 719468
  let era := shifted / 146097
  let dayOfEra := shifted % 146097
  let yearOfEra :=
    (dayOfEra - dayOfEra / 1460 + dayOfEra / 36524 - dayOfEra / 146096) / 365
  let dayOfYear :=
    dayOfEra - (365 * yearOfEra + yearOfEra / 4 - yearOfEra / 100)
  let shiftedMonth := (5 * dayOfYear + 2) / 153
  let day := dayOfYear - (153 * shiftedMonth + 2) / 5 + 1
  let month :=
    if shiftedMonth < 10 then shiftedMonth + 3 else shiftedMonth - 9
  let year := yearOfEra + era * 400 + (if month ≤ 2 then 1 else 0)
  (year, month, day)

/-- `t.UTC().Format(time.RFC3339)`. -/
def formatRFC3339 (time : Time) : GoString :=
  let seconds := time / 1000000
  let clock := seconds % 86400
  let date := civilFromDays (seconds / 86400)
  pad 4 date.1 ++ ascii "-" ++ pad 2 date.2.1 ++ ascii "-" ++
    pad 2 date.2.2 ++ ascii "T" ++ pad 2 (clock / 3600) ++ ascii ":" ++
    pad 2 (clock / 60 % 60) ++ ascii ":" ++ pad 2 (clock % 60) ++
    ascii "Z"

theorem isText_pad (width : Nat) (value : Int) :
    isText (pad width value) = true := by
  have zeros : isText (List.replicate (width - (itoa value).length) 48) =
      true := by
    apply isText_of_ascii
    intro byte member
    rw [List.eq_of_mem_replicate member]
    decide
  rw [pad, isText_append zeros, isText_itoa]

theorem isText_formatRFC3339 (time : Time) :
    isText (formatRFC3339 time) = true := by
  have literals :
      ∀ literal ∈ ["-", "T", ":", "Z"], isText (ascii literal) = true := by
    decide +kernel
  simp only [formatRFC3339, List.append_assoc, isText_append, isText_pad,
    literals, List.mem_cons, true_or, or_true]

example :
    formatRFC3339 1700000000000000 = ascii "2023-11-14T22:13:20Z" := by
  decide

end Dhara
