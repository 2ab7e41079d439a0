import Dhara.Store.Canonical
import Dhara.Store.Creation

/-!
# Integer payloads under one idempotency key

A payload is stored exactly, but it is hashed after `json.Unmarshal` has
rounded its numbers to floating point.  Two payloads of integer literals that
differ are told apart by `Create` exactly when they still differ after the
rounding.
-/

namespace Dhara.Store

open Dhara.JsonText
open Dhara.Transaction

/-! ## Exact and rounded values -/

/-- The value of a payload whose numbers are integer literals. -/
def exactValue (payload : GoString) : Option (Value Int) :=
  textValue (fun token => (parseInteger token).map Literal.exact) payload

/-- The value with the nearest number for every integer literal. -/
def roundedValue (payload : GoString) : Option (Value (BitVec 64)) :=
  textValue (fun token => (parseInteger token).bind Literal.rounded) payload

/--
Every literal of the two payloads has a nearest number, and the payloads
differ when they are replaced by these.
-/
def Distinguished (first second : GoString) : Prop :=
  ∃ left right,
    roundedValue first = some left ∧ roundedValue second = some right ∧
      left ≠ right

theorem roundedValue_eq
    {payload : GoString} {value : Value Int}
    (exact : exactValue payload = some value) :
    roundedValue payload = textValue parseFloat payload := by
  have denoted : (exactValue payload).isSome = true := by
    rw [exact]
    rfl
  apply textValue_congr _ denoted
  intro token known
  rw [Option.isSome_map] at known
  rcases Option.isSome_iff_exists.mp known with ⟨literal, parsed⟩
  rw [parsed, Option.bind_some, parseFloat_of_parseInteger parsed]

section Bytes

variable {platform : Platform}

theorem unmarshal_of_canonicalizeJSON
    {input bytes : GoString}
    (written : canonicalizeJSON platform input = some bytes) :
    ∃ json, platform.unmarshal input = some json := by
  rcases Option.bind_eq_some_iff.mp written with ⟨json, read, _⟩
  exact ⟨json, read⟩

/-- A payload has canonical bytes if it has a rounded value. -/
theorem unmarshal_eq_some_iff
    (encodes : platform.Encodes) {payload : GoString}
    {value : Value Int} (exact : exactValue payload = some value)
    {rounded : Value (BitVec 64)} :
    roundedValue payload = some rounded ↔
      ∃ json,
        platform.unmarshal payload = some json ∧ json.denote = rounded := by
  rw [roundedValue_eq exact, ← unmarshal_denote, encodes.unmarshal,
    Option.map_eq_some_iff]

/-- The canonical bytes differ exactly if the rounded values do. -/
theorem canonicalizeJSON_ne_iff
    (encodes : platform.Encodes) {first second : GoString}
    {left right : Value Int} (firstExact : exactValue first = some left)
    (secondExact : exactValue second = some right) :
    (∃ one two,
      canonicalizeJSON platform first = some one ∧
        canonicalizeJSON platform second = some two ∧ one ≠ two) ↔
      Distinguished first second := by
  constructor
  · rintro ⟨one, two, firstBytes, secondBytes, different⟩
    rcases unmarshal_of_canonicalizeJSON firstBytes with
      ⟨firstJson, firstRead⟩
    rcases unmarshal_of_canonicalizeJSON secondBytes with
      ⟨secondJson, secondRead⟩
    refine ⟨firstJson.denote, secondJson.denote,
      (unmarshal_eq_some_iff encodes firstExact).mpr
        ⟨firstJson, firstRead, rfl⟩,
      (unmarshal_eq_some_iff encodes secondExact).mpr
        ⟨secondJson, secondRead, rfl⟩, ?_⟩
    intro same
    have bytes :=
      (canonicalizeJSON_eq_iff encodes firstRead secondRead).mpr same
    rw [firstBytes, secondBytes, Option.some.injEq] at bytes
    exact different bytes
  · rintro ⟨one, two, firstRounded, secondRounded, different⟩
    rcases (unmarshal_eq_some_iff encodes firstExact).mp firstRounded with
      ⟨firstJson, firstRead, firstDenote⟩
    rcases (unmarshal_eq_some_iff encodes secondExact).mp
        secondRounded with
      ⟨secondJson, secondRead, secondDenote⟩
    refine ⟨_, _, canonicalizeJSON_eq_some encodes firstRead,
      canonicalizeJSON_eq_some encodes secondRead, ?_⟩
    intro same
    apply different
    rw [← firstDenote, ← secondDenote,
      ← canonicalizeJSON_eq_iff encodes firstRead secondRead,
      canonicalizeJSON_eq_some encodes firstRead,
      canonicalizeJSON_eq_some encodes secondRead, same]

end Bytes

/-! ## The second call -/

/--
Two payloads of integer literals have different canonical bytes exactly if
they differ after rounding, and then alone a second `Create` with the type and
the key of a stored first payload is refused as a conflict.  Whether their
exact values differ does not matter.
-/
theorem integer_payloads_conflict_iff
    (platform : Platform) (encodes : platform.Encodes)
    (collisionFree : Function.Injective platform.sum256)
    {first second : GoString} {left right : Value Int}
    (firstExact : exactValue first = some left)
    (secondExact : exactValue second = some right) :
    ((∃ one two,
      canonicalizeJSON platform first = some one ∧
        canonicalizeJSON platform second = some two ∧ one ≠ two) ↔
      Distinguished first second) ∧
    ∀ db row task answers,
      Holds db task row →
        hashPayload platform first = some row.payloadHash →
        task.payload = second → task.Fits →
        (∀ payloadHash, ∃ encoded,
          (task.insertArgs payloadHash).encode platform = .ok encoded) →
        (∀ position, (answers position).fault = none) →
          ((execute platform ⟨.create task, answers⟩ db).result =
              .created task (.error .taskConflict) ↔
            Distinguished first second) := by
  have bytes := canonicalizeJSON_ne_iff encodes firstExact secondExact
  refine ⟨bytes, ?_⟩
  intro db row task answers holds hashed payload fits accepted quiet
  rw [execute_create_held quiet holds fits fun hash _ => accepted hash,
    payload, ← bytes]
  rcases Option.map_eq_some_iff.mp hashed with ⟨one, firstBytes, hash⟩
  cases secondBytes : canonicalizeJSON platform second with
  | none =>
      rw [hashPayload, secondBytes]
      constructor
      · intro impossible
        cases impossible
      · rintro ⟨_, two, _, impossible, _⟩
        cases impossible
  | some two =>
      rw [hashPayload, secondBytes, Option.map_some]
      dsimp only
      rw [← hash]
      split_ifs with same
      · constructor
        · intro impossible
          cases impossible
        · rintro ⟨_, _, firstSame, secondSame, different⟩
          rw [firstBytes] at firstSame
          cases firstSame
          cases secondSame
          exact (different (collisionFree same)).elim
      · constructor
        · intro _
          refine ⟨one, two, firstBytes, rfl, ?_⟩
          intro equal
          exact same (congrArg platform.sum256 equal)
        · intro _
          rfl

/-! ## Large and small integers -/

/-- A payload with an integer. -/
def idPayload (number : String) : GoString :=
  ascii "\x7b\"id\":" ++ ascii number ++ ascii "\x7d"

/-- A task with a key and an integer in its payload. -/
def idTask (number : String) : TaskRow :=
  { emailTask (idPayload number) with idempotencyKey := some (ascii "k") }

/-- The database after `Create` of the task alone. -/
def createdId (number : String) : Database :=
  (execute plainPlatform ⟨.create (idTask number), calm 7 0⟩ .empty).link.db

/-- The integer of a payload. -/
def idOf {Number : Type} : Value Number → Option Number
  | .object members =>
      match members (ascii "id") with
      | some (.number number) => some number
      | _ => none
  | _ => none

theorem exactValue_large_ne :
    exactValue (idPayload "9007199254740993") ≠
      exactValue (idPayload "9007199254740992") := by
  intro same
  have read := congrArg (fun value => value.bind idOf) same
  revert read
  decide +kernel

/-- Two large integers that differ are taken for the same payload. -/
theorem large_ids_taken_for_replay :
    (exactValue (idPayload "9007199254740993")).isSome = true ∧
      (exactValue (idPayload "9007199254740992")).isSome = true ∧
      exactValue (idPayload "9007199254740993") ≠
        exactValue (idPayload "9007199254740992") ∧
      (canonicalizeJSON plainPlatform
        (idPayload "9007199254740993")).isSome = true ∧
      canonicalizeJSON plainPlatform (idPayload "9007199254740993") =
        canonicalizeJSON plainPlatform (idPayload "9007199254740992") ∧
      (execute plainPlatform
          ⟨.create (idTask "9007199254740992"), calm 8 0⟩
          (createdId "9007199254740993")).result.creation
          TaskRow.payload =
        some (idPayload "9007199254740993", .ok false) := by
  refine ⟨by decide +kernel, by decide +kernel, exactValue_large_ne, ?_⟩
  decide +kernel

theorem idTask_fits (number : String) : (idTask number).Fits := by
  constructor
  · show (ascii "email").length ≤ 100
    decide
  · rintro key present
    cases present
    decide

theorem idTask_accepted (payloadHash : GoString) :
    ∃ encoded,
      ((idTask "2").insertArgs payloadHash).encode plainPlatform =
        .ok encoded := by
  have stored : storable (idPayload "2") = true := by
    decide +kernel
  have converted :
      toJsonb plainPlatform (idPayload "2") = .ok (idPayload "2") := by
    simp only [toJsonb, plainPlatform, stored, if_true]
  simp only [InsertArgs.encode, TaskRow.insertArgs, idTask, emailTask,
    converted]
  exact ⟨_, rfl⟩

/-- The row that was created for an integer. -/
theorem createdId_holds :
    ∃ row,
      Holds (createdId "1") (idTask "2") row ∧
        hashPayload plainPlatform (idPayload "1") = some row.payloadHash := by
  have found :
      ((createdId "1").find 7).any (fun row =>
        decide
          (row.type.bytes = (idTask "2").type ∧
            row.idempotencyKey.map Text.bytes = (idTask "2").idempotencyKey ∧
            hashPayload plainPlatform (idPayload "1") =
              some row.payloadHash)) = true := by
    decide +kernel
  rcases (Option.any_eq_true _ _).mp found with ⟨row, stored, checked⟩
  rw [decide_eq_true_eq] at checked
  rcases checked with ⟨typed, keyed, hashed⟩
  have present := (Database.find_eq_some_iff.mp stored).1
  exact ⟨row, ⟨present, ⟨typed, keyed⟩, by decide⟩, hashed⟩

/-- Small integers that differ are a conflict. -/
theorem small_ids_conflict :
    (execute plainPlatform ⟨.create (idTask "2"), calm 8 0⟩
        (createdId "1")).result =
      .created (idTask "2") (.error .taskConflict) := by
  have firstSome : (exactValue (idPayload "1")).isSome = true := by
    decide +kernel
  have secondSome : (exactValue (idPayload "2")).isSome = true := by
    decide +kernel
  rcases Option.isSome_iff_exists.mp firstSome with ⟨left, firstExact⟩
  rcases Option.isSome_iff_exists.mp secondSome with ⟨right, secondExact⟩
  have settled :=
    integer_payloads_conflict_iff plainPlatform plainPlatform_encodes
      Function.injective_id firstExact secondExact
  have different :
      (canonicalizeJSON plainPlatform (idPayload "1")).isSome = true ∧
        (canonicalizeJSON plainPlatform (idPayload "2")).isSome = true ∧
        canonicalizeJSON plainPlatform (idPayload "1") ≠
          canonicalizeJSON plainPlatform (idPayload "2") := by
    decide +kernel
  rcases Option.isSome_iff_exists.mp different.1 with ⟨one, first⟩
  rcases Option.isSome_iff_exists.mp different.2.1 with ⟨two, second⟩
  rcases createdId_holds with ⟨row, holds, hashed⟩
  apply (settled.2 _ row _ _ holds hashed rfl (idTask_fits "2")
    idTask_accepted fun _ => rfl).mpr
  apply settled.1.mp
  refine ⟨one, two, first, second, ?_⟩
  intro same
  apply different.2.2
  rw [first, second, same]

end Dhara.Store
