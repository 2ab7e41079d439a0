import Dhara.JsonText.Numbers
import Dhara.JsonText.Strings

/-!
# JSON texts

The decoder is the scanner of `encoding/json`: it reads one byte after the
other, keeps a stack of the arrays and objects that are open, and refuses
texts that are nested too deeply.

A text is decoded to a tree in which strings are unquoted, numbers are still
tokens, and objects have all their members in the order of the text.

`Reads` says that the scanner reads a text as a tree wherever a value is
expected.  It composes along arrays and objects, which is what a printer
needs in order to be read back.
-/

namespace Dhara.JsonText

variable {texts : List GoString} {depth : Nat} {text : GoString}
  {byte : UInt8}

/-- A decoded text. -/
inductive Tree where
  | null
  | bool (value : Bool)
  | number (token : GoString)
  | string (value : GoString)
  | array (items : List Tree)
  | object (members : List (GoString × Tree))

/-! ## The scanner -/

/-- An open array or object, with what is complete of it. -/
inductive Frame where
  | items (done : List Tree)
  | key (done : List (GoString × Tree))
  | member (done : List (GoString × Tree)) (key : GoString)

/-- Where the scanner is.  In a `fresh` container nothing was read yet. -/
inductive Mode where
  | start (fresh : Bool)
  | colon
  | string (body : GoString) (escaped : Bool)
  | number (token : GoString)
  | word (rest : GoString) (value : Tree)
  | finished (value : Tree)

/-- The state of the scanner. -/
structure Scanner where
  stack : List Frame
  mode : Mode

/-- The separators and brackets. -/
def comma : UInt8 := 44

@[inherit_doc comma]
def colon : UInt8 := 58

@[inherit_doc comma]
def openBracket : UInt8 := 91

@[inherit_doc comma]
def closeBracket : UInt8 := 93

@[inherit_doc comma]
def openBrace : UInt8 := 123

@[inherit_doc comma]
def closeBrace : UInt8 := 125

/-- White space between tokens. -/
def isSpace (byte : UInt8) : Bool :=
  byte == 32 || byte == 9 || byte == 10 || byte == 13

/-- `maxNestingDepth`. -/
def maxNestingDepth : Nat := 10000

/-- `pushParseState`. -/
def push (stack : List Frame) (frame : Frame) : Option Scanner :=
  if stack.length < maxNestingDepth then
    some ⟨frame :: stack, .start true⟩
  else
    none

/-- The first byte of a value. -/
def startValue (stack : List Frame) (byte : UInt8) : Option Scanner :=
  if byte = openBrace then push stack (.key [])
  else if byte = openBracket then push stack (.items [])
  else if byte = quote then some ⟨stack, .string [] false⟩
  else if byte = 45 ∨ isDigit byte then some ⟨stack, .number [byte]⟩
  else if byte = 116 then
    some ⟨stack, .word (ascii "rue") (.bool true)⟩
  else if byte = 102 then
    some ⟨stack, .word (ascii "alse") (.bool false)⟩
  else if byte = 110 then some ⟨stack, .word (ascii "ull") .null⟩
  else none

/-- A byte where a value or a key is expected. -/
def stepStart (stack : List Frame) (fresh : Bool) (byte : UInt8) :
    Option Scanner :=
  if isSpace byte then
    some ⟨stack, .start fresh⟩
  else
    match stack with
    | .key done :: rest =>
        if byte = quote then some ⟨stack, .string [] false⟩
        else if byte = closeBrace ∧ fresh then
          some ⟨rest, .finished (.object done)⟩
        else none
    | .items done :: rest =>
        if byte = closeBracket ∧ fresh then
          some ⟨rest, .finished (.array done)⟩
        else startValue stack byte
    | _ => startValue stack byte

/-- A byte after a value. -/
def stepFinished (stack : List Frame) (value : Tree) (byte : UInt8) :
    Option Scanner :=
  if isSpace byte then
    some ⟨stack, .finished value⟩
  else
    match stack with
    | .items done :: rest =>
        if byte = comma then
          some ⟨.items (done ++ [value]) :: rest, .start false⟩
        else if byte = closeBracket then
          some ⟨rest, .finished (.array (done ++ [value]))⟩
        else none
    | .member done key :: rest =>
        if byte = comma then
          some ⟨.key (done ++ [(key, value)]) :: rest, .start false⟩
        else if byte = closeBrace then
          some ⟨rest, .finished (.object (done ++ [(key, value)]))⟩
        else none
    | _ => none

/-- The end of a string: a key or a value. -/
def closeString (stack : List Frame) (value : GoString) : Scanner :=
  match stack with
  | .key done :: rest => ⟨.member done value :: rest, .colon⟩
  | _ => ⟨stack, .finished (.string value)⟩

/-- A byte of a string. -/
def stepString (stack : List Frame) (body : GoString) (escaped : Bool)
    (byte : UInt8) : Option Scanner :=
  if escaped then some ⟨stack, .string (body ++ [byte]) false⟩
  else if byte = quote then (unquote body).map (closeString stack)
  else if byte < 0x20 then none
  else some ⟨stack, .string (body ++ [byte]) (byte = backslash)⟩

/-- A byte of a number, or the one after it. -/
def stepNumber (stack : List Frame) (token : GoString) (byte : UInt8) :
    Option Scanner :=
  if isNumberByte byte then some ⟨stack, .number (token ++ [byte])⟩
  else if (parseNumber token).isSome then
    stepFinished stack (.number token) byte
  else none

/-- A byte of `true`, `false` or `null`. -/
def stepWord (stack : List Frame) (rest : GoString) (value : Tree)
    (byte : UInt8) : Option Scanner :=
  match rest with
  | [] => none
  | [last] => if byte = last then some ⟨stack, .finished value⟩ else none
  | next :: more =>
      if byte = next then some ⟨stack, .word more value⟩ else none

/-- One byte. -/
def step (scanner : Scanner) (byte : UInt8) : Option Scanner :=
  match scanner.mode with
  | .start fresh => stepStart scanner.stack fresh byte
  | .colon =>
      if isSpace byte then some scanner
      else if byte = colon then some ⟨scanner.stack, .start false⟩
      else none
  | .string body escaped => stepString scanner.stack body escaped byte
  | .number token => stepNumber scanner.stack token byte
  | .word rest value => stepWord scanner.stack rest value byte
  | .finished value => stepFinished scanner.stack value byte

/-- Bytes one after the other. -/
def scan (scanner : Scanner) (bytes : GoString) : Option Scanner :=
  bytes.foldlM step scanner

/-- The end of the text. -/
def finish (scanner : Scanner) : Option Tree :=
  match scanner with
  | ⟨[], .finished value⟩ => some value
  | ⟨[], .number token⟩ =>
      if (parseNumber token).isSome then some (.number token) else none
  | _ => none

/-- The tree of a JSON text. -/
def decode (text : GoString) : Option Tree :=
  (scan ⟨[], .start false⟩ text).bind finish

@[simp]
theorem scan_nil (scanner : Scanner) : scan scanner [] = some scanner :=
  rfl

@[simp]
theorem scan_cons (scanner : Scanner) (byte : UInt8) (rest : GoString) :
    scan scanner (byte :: rest) =
      (step scanner byte).bind fun next => scan next rest :=
  rfl

theorem scan_append (scanner : Scanner) (left right : GoString) :
    scan scanner (left ++ right) =
      (scan scanner left).bind fun next => scan next right := by
  rw [scan, List.foldlM_append]
  rfl

/-! ## Reading a value back -/

/-- The scanner has read the value, or is at the end of its token. -/
def Mode.Settled (value : Tree) : Mode → Prop
  | .finished read => read = value
  | .number token =>
      (parseNumber token).isSome = true ∧ value = .number token
  | _ => False

/-- A value is expected, not a key. -/
def Expecting : List Frame → Prop
  | .key _ :: _ => False
  | _ => True

/-- Wherever a value is expected, the text is read as this one. -/
def Reads (text : GoString) (value : Tree) (depth : Nat) : Prop :=
  ∀ stack fresh, Expecting stack →
    stack.length + depth ≤ maxNestingDepth →
      ∃ mode,
        scan ⟨stack, .start fresh⟩ text = some ⟨stack, mode⟩ ∧
          mode.Settled value

variable {stack : List Frame} {value : Tree}

theorem Mode.Settled.step
    {mode : Mode} (settled : mode.Settled value)
    (separator : isNumberByte byte = false) :
    step ⟨stack, mode⟩ byte = stepFinished stack value byte := by
  cases mode with
  | finished read =>
      cases settled
      rfl
  | number token =>
      rcases settled with ⟨valid, equal⟩
      subst value
      simp [JsonText.step, stepNumber, separator, valid]
  | _ => exact settled.elim

theorem Mode.Settled.finish
    {mode : Mode} (settled : mode.Settled value) :
    finish ⟨[], mode⟩ = some value := by
  cases mode with
  | finished read =>
      cases settled
      rfl
  | number token =>
      rcases settled with ⟨valid, equal⟩
      subst value
      simp [JsonText.finish, valid]
  | _ => exact settled.elim

/-- A text that is read as a value is decoded to it. -/
theorem Reads.decode
    (reads : Reads text value depth) (shallow : depth ≤ maxNestingDepth) :
    decode text = some value := by
  rcases reads [] false True.intro (by simpa using shallow) with
    ⟨mode, scanned, settled⟩
  rw [JsonText.decode, scanned, Option.bind_some, settled.finish]

/-- The first byte of a value is not taken for anything else. -/
theorem stepStart_value
    (expecting : Expecting stack) (solid : isSpace byte = false)
    (opens : byte ≠ closeBracket) (fresh : Bool) :
    stepStart stack fresh byte = startValue stack byte := by
  unfold stepStart
  rw [if_neg (by simp [solid])]
  match stack, expecting with
  | [], _ => rfl
  | .items done :: rest, _ => simp [opens]
  | .member done key :: rest, _ => rfl

/-- The body of a string. -/
theorem scan_body
    {escaped : Bool} {body read : GoString}
    (valid : isBody escaped body = true) :
    scan ⟨stack, .string read escaped⟩ body =
      some ⟨stack, .string (read ++ body) false⟩ := by
  induction body generalizing escaped read with
  | nil =>
      cases escaped with
      | true => cases valid
      | false => simp
  | cons byte rest induction =>
      cases escaped with
      | true =>
          have later :
              scan ⟨stack, .string (read ++ [byte]) false⟩ rest =
                some ⟨stack, .string (read ++ [byte] ++ rest) false⟩ :=
            induction valid
          simpa [step, stepString] using later
      | false =>
          simp only [isBody] at valid
          split_ifs at valid with special
          rw [not_or] at special
          have later :
              scan ⟨stack, .string (read ++ [byte]) (byte = backslash)⟩
                  rest =
                some ⟨stack, .string (read ++ [byte] ++ rest) false⟩ :=
            induction valid
          simpa [step, stepString, special] using later

/-- A string literal, up to its closing quote. -/
theorem scan_literal
    {literal value : GoString} (read : StringLiteral literal value)
    {scanner : Scanner}
    (opened : step scanner quote = some ⟨stack, .string [] false⟩) :
    scan scanner literal = some (closeString stack value) := by
  rcases read with ⟨body, equal, valid, decoded⟩
  subst literal
  rw [scan_cons, opened, Option.bind_some, scan_append,
    scan_body valid, Option.bind_some]
  simp [step, stepString, decoded]

theorem reads_string
    {literal value : GoString} (read : StringLiteral literal value)
    (depth : Nat) : Reads literal (.string value) depth := by
  intro stack fresh expecting _
  have opened :
      step ⟨stack, .start fresh⟩ quote = some ⟨stack, .string [] false⟩ :=
    stepStart_value expecting (by decide) (by decide) fresh
  refine ⟨.finished (.string value), ?_, rfl⟩
  rw [scan_literal read opened]
  match stack, expecting with
  | [], _ => rfl
  | .items done :: rest, _ => rfl
  | .member done key :: rest, _ => rfl

theorem scan_number
    {read bytes : GoString}
    (valid : ∀ byte ∈ bytes, isNumberByte byte = true) :
    scan ⟨stack, .number read⟩ bytes =
      some ⟨stack, .number (read ++ bytes)⟩ := by
  induction bytes generalizing read with
  | nil => simp
  | cons byte rest induction =>
      have later :
          scan ⟨stack, .number (read ++ [byte])⟩ rest =
            some ⟨stack, .number (read ++ [byte] ++ rest)⟩ :=
        induction fun other member =>
          valid other (List.mem_cons_of_mem byte member)
      simpa [step, stepNumber, valid byte (by simp)] using later

/-- A sign or a digit starts nothing but a number. -/
theorem numberStart
    {first : UInt8} (starts : first = 45 ∨ isDigit first = true) :
    isSpace first = false ∧ first ≠ closeBracket ∧ first ≠ openBrace ∧
      first ≠ openBracket ∧ first ≠ quote := by
  simp only [isDigit, isSpace, closeBracket, openBrace, openBracket,
    quote, Bool.and_eq_true, Bool.or_eq_false_iff, beq_eq_false_iff_ne,
    decide_eq_true_eq, ne_eq, ← UInt8.toNat_inj, UInt8.le_iff_toNat_le,
    UInt8.reduceToNat] at starts ⊢
  omega

theorem reads_number
    {token : GoString} {decimal : Decimal}
    (parsed : parseNumber token = some decimal) (depth : Nat) :
    Reads token (.number token) depth := by
  intro stack fresh expecting _
  rcases parseNumber_token parsed with
    ⟨⟨first, rest, equal, starts⟩, valid⟩
  subst token
  have opened :
      step ⟨stack, .start fresh⟩ first = some ⟨stack, .number [first]⟩ := by
    rcases numberStart starts with ⟨solid, apart, brace, bracket, plain⟩
    change stepStart stack fresh first = _
    rw [stepStart_value expecting solid apart, startValue, if_neg brace,
      if_neg bracket, if_neg plain, if_pos starts]
  refine ⟨.number (first :: rest), ?_, by simp [parsed], rfl⟩
  rw [scan_cons, opened, Option.bind_some, scan_number fun byte member =>
    valid byte (List.mem_cons_of_mem first member)]
  rfl

theorem scan_word
    (stack : List Frame) (value : Tree) (first : UInt8)
    (rest : GoString) :
    scan ⟨stack, .word (first :: rest) value⟩ (first :: rest) =
      some ⟨stack, .finished value⟩ := by
  induction rest generalizing first with
  | nil => simp [step, stepWord]
  | cons second rest induction =>
      rw [scan_cons]
      simpa [step, stepWord] using induction second

/-- One of the three words. -/
theorem reads_word
    {first second : UInt8} {rest : GoString} (solid : isSpace first = false)
    (opens : first ≠ closeBracket)
    (started :
      ∀ stack,
        startValue stack first = some ⟨stack, .word (second :: rest) value⟩)
    (depth : Nat) : Reads (first :: second :: rest) value depth := by
  intro stack fresh expecting _
  refine ⟨.finished value, ?_, rfl⟩
  rw [scan_cons]
  change (stepStart stack fresh first).bind _ = _
  rw [stepStart_value expecting solid opens, started, Option.bind_some,
    scan_word]

theorem reads_null (depth : Nat) : Reads (ascii "null") .null depth :=
  reads_word (by decide) (by decide) (fun _ => rfl) depth

theorem reads_true (depth : Nat) :
    Reads (ascii "true") (.bool true) depth :=
  reads_word (by decide) (by decide) (fun _ => rfl) depth

theorem reads_false (depth : Nat) :
    Reads (ascii "false") (.bool false) depth :=
  reads_word (by decide) (by decide) (fun _ => rfl) depth

/-! ## Arrays and objects -/

/-- The items of an open array, up to its bracket. -/
theorem scan_items
    (shallow : stack.length + 1 + depth ≤ maxNestingDepth)
    {values : List Tree}
    (reads :
      List.Forall₂ (fun text value => Reads text value depth) texts values)
    (done : List Tree) (fresh : Bool) (nonempty : texts ≠ []) :
    scan ⟨.items done :: stack, .start fresh⟩
        (List.intercalate [comma] texts ++ [closeBracket]) =
      some ⟨stack, .finished (.array (done ++ values))⟩ := by
  induction reads generalizing done fresh with
  | nil => exact (nonempty rfl).elim
  | cons first rest induction =>
      rename_i text value texts values
      rcases first (.items done :: stack) fresh True.intro
          (by simpa [Nat.add_comm] using shallow) with
        ⟨mode, scanned, settled⟩
      cases rest with
      | nil =>
          rw [List.intercalate_singleton, scan_append, scanned,
            Option.bind_some, scan_cons, settled.step (by decide)]
          rfl
      | cons second others =>
          rw [List.intercalate_cons_cons, List.append_assoc,
            List.append_assoc, scan_append, scanned, Option.bind_some,
            scan_append, scan_cons, settled.step (by decide)]
          have closed := induction (done ++ [value]) false (by simp)
          simpa [stepFinished, isSpace, comma] using closed

/-- A container is opened where a value is expected. -/
theorem step_open
    (expecting : Expecting stack)
    (shallow : stack.length + (depth + 1) ≤ maxNestingDepth) (fresh : Bool) :
    step ⟨stack, .start fresh⟩ openBracket =
        some ⟨.items [] :: stack, .start true⟩ ∧
      step ⟨stack, .start fresh⟩ openBrace =
        some ⟨.key [] :: stack, .start true⟩ := by
  have room : stack.length < maxNestingDepth := by omega
  constructor
  · change stepStart stack fresh openBracket = _
    rw [stepStart_value expecting (by decide) (by decide)]
    simp [startValue, push, room, openBracket, openBrace]
  · change stepStart stack fresh openBrace = _
    rw [stepStart_value expecting (by decide) (by decide)]
    simp [startValue, push, room]

theorem reads_array
    {values : List Tree}
    (reads :
      List.Forall₂ (fun text value => Reads text value depth) texts values) :
    Reads
      ([openBracket] ++ List.intercalate [comma] texts ++ [closeBracket])
      (.array values) (depth + 1) := by
  intro stack fresh expecting shallow
  refine ⟨.finished (.array values), ?_, rfl⟩
  rw [List.append_assoc, List.singleton_append, scan_cons,
    (step_open expecting shallow fresh).1, Option.bind_some]
  cases reads with
  | nil => rfl
  | cons first rest =>
      exact scan_items (by omega) (.cons first rest) [] true (by simp)

/-- The text of one member. -/
structure ReadsMember (depth : Nat) (text : GoString)
    (member : GoString × Tree) : Prop where
  read :
    ∃ literal value,
      text = literal ++ [colon] ++ value ∧
        StringLiteral literal member.1 ∧ Reads value member.2 depth

/-- A member of an open object, up to the end of its value. -/
theorem ReadsMember.scan
    {member : GoString × Tree} (reads : ReadsMember depth text member)
    (shallow : stack.length + 1 + depth ≤ maxNestingDepth)
    (done : List (GoString × Tree)) (fresh : Bool) :
    ∃ mode,
      scan ⟨.key done :: stack, .start fresh⟩ text =
          some ⟨.member done member.1 :: stack, mode⟩ ∧
        mode.Settled member.2 := by
  rcases reads.read with ⟨literal, value, equal, named, valued⟩
  rcases valued (.member done member.1 :: stack) false True.intro
      (by simpa [Nat.add_comm] using shallow) with
    ⟨mode, scanned, settled⟩
  refine ⟨mode, ?_, settled⟩
  have opened :
      step ⟨.key done :: stack, .start fresh⟩ quote =
        some ⟨.key done :: stack, .string [] false⟩ := by
    cases fresh <;> rfl
  have separated :
      step ⟨.member done member.1 :: stack, .colon⟩ colon =
        some ⟨.member done member.1 :: stack, .start false⟩ :=
    rfl
  subst text
  rw [List.append_assoc, scan_append, scan_literal named opened,
    Option.bind_some, List.singleton_append, scan_cons]
  change (step ⟨.member done member.1 :: stack, .colon⟩ colon).bind _ = _
  rw [separated, Option.bind_some, scanned]

/-- The members of an open object, up to its brace. -/
theorem scan_members
    (shallow : stack.length + 1 + depth ≤ maxNestingDepth)
    {members : List (GoString × Tree)}
    (reads : List.Forall₂ (ReadsMember depth) texts members)
    (done : List (GoString × Tree)) (fresh : Bool) (nonempty : texts ≠ []) :
    scan ⟨.key done :: stack, .start fresh⟩
        (List.intercalate [comma] texts ++ [closeBrace]) =
      some ⟨stack, .finished (.object (done ++ members))⟩ := by
  induction reads generalizing done fresh with
  | nil => exact (nonempty rfl).elim
  | cons first rest induction =>
      rename_i text member texts members
      rcases first.scan shallow done fresh with ⟨mode, scanned, settled⟩
      cases rest with
      | nil =>
          rw [List.intercalate_singleton, scan_append, scanned,
            Option.bind_some, scan_cons, settled.step (by decide)]
          rfl
      | cons second others =>
          rw [List.intercalate_cons_cons, List.append_assoc,
            List.append_assoc, scan_append, scanned, Option.bind_some,
            scan_append, scan_cons, settled.step (by decide)]
          have closed := induction (done ++ [member]) false (by simp)
          simpa [stepFinished, isSpace, comma] using closed

theorem reads_object
    {members : List (GoString × Tree)}
    (reads : List.Forall₂ (ReadsMember depth) texts members) :
    Reads ([openBrace] ++ List.intercalate [comma] texts ++ [closeBrace])
      (.object members) (depth + 1) := by
  intro stack fresh expecting shallow
  refine ⟨.finished (.object members), ?_, rfl⟩
  rw [List.append_assoc, List.singleton_append, scan_cons,
    (step_open expecting shallow fresh).2, Option.bind_some]
  cases reads with
  | nil => rfl
  | cons first rest =>
      exact scan_members (by omega) (.cons first rest) [] true (by simp)

/-! ## What is decoded -/

/-- A tree of tokens and strings of a text, with its nesting bounded. -/
inductive Tree.Valid : Nat → Tree → Prop where
  | null {depth : Nat} : Valid depth .null
  | bool {depth : Nat} {value : Bool} : Valid depth (.bool value)
  | number {depth : Nat} {token : GoString}
      (parsed : (parseNumber token).isSome = true) :
      Valid depth (.number token)
  | string {depth : Nat} {value : GoString}
      (encoded : WellEncoded value) : Valid depth (.string value)
  | array {depth : Nat} {items : List Tree}
      (valid : ∀ item ∈ items, Valid depth item) :
      Valid (depth + 1) (.array items)
  | object {depth : Nat} {members : List (GoString × Tree)}
      (keys : ∀ member ∈ members, WellEncoded member.1)
      (valid : ∀ member ∈ members, Valid depth member.2) :
      Valid (depth + 1) (.object members)

/-- The members of an open object are valid. -/
def ValidMembers (depth : Nat) (done : List (GoString × Tree)) : Prop :=
  ∀ member ∈ done, WellEncoded member.1 ∧ member.2.Valid depth

theorem ValidMembers.concat
    {done : List (GoString × Tree)} (valid : ValidMembers depth done)
    {key : GoString} (encoded : WellEncoded key) (next : value.Valid depth) :
    ValidMembers depth (done ++ [(key, value)]) := by
  intro member mem
  rcases List.mem_append.mp mem with old | new
  · exact valid member old
  · rw [List.mem_singleton] at new
    subst member
    exact ⟨encoded, next⟩

theorem ValidMembers.object
    {done : List (GoString × Tree)} (valid : ValidMembers depth done) :
    (Tree.object done).Valid (depth + 1) :=
  .object (fun member mem => (valid member mem).1)
    fun member mem => (valid member mem).2

/-- What is complete of an open container is valid. -/
def Frame.Valid (depth : Nat) : Frame → Prop
  | .items done => ∀ item ∈ done, item.Valid depth
  | .key done => ValidMembers depth done
  | .member done name => ValidMembers depth done ∧ WellEncoded name

/-- The containers leave room for the depth. -/
inductive ValidStack : Nat → List Frame → Prop where
  | nil : ValidStack maxNestingDepth []
  | cons {depth : Nat} {frame : Frame} {rest : List Frame}
      (valid : frame.Valid depth) (below : ValidStack (depth + 1) rest) :
      ValidStack depth (frame :: rest)

/-- What the scanner has read is valid. -/
def Mode.Valid (depth : Nat) : Mode → Prop
  | .word _ value => value.Valid depth
  | .finished value => value.Valid depth
  | _ => True

/-- The invariant of the scanner. -/
def Scanner.Valid (scanner : Scanner) : Prop :=
  ∃ depth, ValidStack depth scanner.stack ∧ scanner.mode.Valid depth

section

variable (valid : ValidStack depth stack)

include valid

theorem ValidStack.length :
    depth + stack.length = maxNestingDepth := by
  induction valid with
  | nil => rfl
  | cons _ _ induction =>
      simp only [List.length_cons]
      omega

variable {next : Scanner}

theorem push_valid {frame : Frame}
    (empty : ∀ depth, frame.Valid depth)
    (pushed : push stack frame = some next) :
    next.Valid := by
  unfold push at pushed
  split_ifs at pushed with room
  cases pushed
  have sum := valid.length
  cases depth with
  | zero => omega
  | succ depth => exact ⟨depth, .cons (empty depth) valid, True.intro⟩

theorem startValue_valid
    (started : startValue stack byte = some next) : next.Valid := by
  unfold startValue at started
  split_ifs at started
  · apply push_valid valid _ started
    intro depth
    simp [Frame.Valid, ValidMembers]
  · apply push_valid valid _ started
    intro depth
    simp [Frame.Valid]
  all_goals
    cases started
    refine ⟨depth, valid, ?_⟩
    constructor

theorem stepStart_valid {fresh : Bool}
    (stepped : stepStart stack fresh byte = some next) : next.Valid := by
  unfold stepStart at stepped
  split at stepped
  · cases stepped
    exact ⟨depth, valid, True.intro⟩
  · split at stepped
    · rename_i done rest
      split_ifs at stepped
      · cases stepped
        exact ⟨depth, valid, True.intro⟩
      · cases stepped
        cases valid with
        | cons frame below => exact ⟨depth + 1, below, frame.object⟩
    · rename_i done rest
      split_ifs at stepped
      · cases stepped
        cases valid with
        | cons frame below => exact ⟨depth + 1, below, .array frame⟩
      · exact startValue_valid valid stepped
    · exact startValue_valid valid stepped

theorem stepFinished_valid (read : value.Valid depth)
    (stepped : stepFinished stack value byte = some next) :
    next.Valid := by
  unfold stepFinished at stepped
  split at stepped
  · cases stepped
    exact ⟨depth, valid, read⟩
  · split at stepped
    · rename_i done rest
      cases valid with
      | cons frame below =>
          have items : ∀ item ∈ done ++ [value], item.Valid depth := by
            intro item mem
            rcases List.mem_append.mp mem with old | new
            · exact frame item old
            · rw [List.mem_singleton] at new
              exact new ▸ read
          split_ifs at stepped
          · cases stepped
            exact ⟨depth, .cons items below, True.intro⟩
          · cases stepped
            exact ⟨depth + 1, below, .array items⟩
    · rename_i done key rest
      cases valid with
      | cons frame below =>
          have members := frame.1.concat frame.2 read
          split_ifs at stepped
          · cases stepped
            exact ⟨depth, .cons members below, True.intro⟩
          · cases stepped
            exact ⟨depth + 1, below, members.object⟩
    · cases stepped

theorem closeString_valid {value : GoString}
    (encoded : WellEncoded value) :
    (closeString stack value).Valid := by
  unfold closeString
  split
  · cases valid with
    | cons frame below =>
        exact ⟨depth, .cons ⟨frame, encoded⟩ below, True.intro⟩
  · exact ⟨depth, valid, .string encoded⟩

end

/-- One byte keeps the invariant. -/
theorem step_valid
    {scanner : Scanner} (valid : scanner.Valid)
    (stepped : step scanner byte = some next) : next.Valid := by
  rcases scanner with ⟨stack, mode⟩
  rcases valid with ⟨depth, stacked, read⟩
  cases mode with
  | start fresh => exact stepStart_valid stacked stepped
  | colon =>
      simp only [step] at stepped
      split_ifs at stepped
      · cases stepped
        exact ⟨depth, stacked, True.intro⟩
      · cases stepped
        exact ⟨depth, stacked, True.intro⟩
  | string body escaped =>
      simp only [step, stepString] at stepped
      split_ifs at stepped
      · cases stepped
        exact ⟨depth, stacked, True.intro⟩
      · rcases Option.map_eq_some_iff.mp stepped with
          ⟨value, decoded, equal⟩
        subst next
        exact closeString_valid stacked (wellEncoded_unquote decoded)
      · cases stepped
        exact ⟨depth, stacked, True.intro⟩
  | number token =>
      simp only [step, stepNumber] at stepped
      split_ifs at stepped with digit parsed
      · cases stepped
        exact ⟨depth, stacked, True.intro⟩
      · exact stepFinished_valid stacked (.number parsed) stepped
  | word rest value =>
      simp only [step, stepWord] at stepped
      split at stepped
      · cases stepped
      · split_ifs at stepped
        cases stepped
        exact ⟨depth, stacked, read⟩
      · split_ifs at stepped
        cases stepped
        exact ⟨depth, stacked, read⟩
  | finished value => exact stepFinished_valid stacked read stepped

/-- A whole text keeps the invariant. -/
theorem scan_valid
    {scanner last : Scanner} (valid : scanner.Valid)
    (scanned : scan scanner text = some last) : last.Valid := by
  induction text generalizing scanner with
  | nil =>
      cases scanned
      exact valid
  | cons byte rest induction =>
      rw [scan_cons] at scanned
      rcases Option.bind_eq_some_iff.mp scanned with
        ⟨next, stepped, later⟩
      exact induction (step_valid valid stepped) later

theorem decode_valid
    {tree : Tree} (decoded : decode text = some tree) :
    tree.Valid maxNestingDepth := by
  rcases Option.bind_eq_some_iff.mp decoded with ⟨last, scanned, ended⟩
  have start : Scanner.Valid ⟨[], .start false⟩ :=
    ⟨maxNestingDepth, .nil, True.intro⟩
  rcases scan_valid start scanned with ⟨depth, stacked, read⟩
  unfold finish at ended
  split at ended
  · cases ended
    cases stacked
    exact read
  · split_ifs at ended with parsed
    cases ended
    exact .number parsed
  · cases ended

end Dhara.JsonText
