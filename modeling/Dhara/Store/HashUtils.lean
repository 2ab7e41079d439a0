import Dhara.Text
import Mathlib.Data.List.Sort

/-!
# Payload hashing

`hashPayload` decodes a JSON payload, writes it back in a canonical form with
sorted object keys, and hashes the result.  The functions of the Go standard
library it calls, and the JSONB conversion of the server, are parameters.
-/

namespace Dhara.Store

/-- A decoded JSON value, as `json.Unmarshal` stores it in an `any`. -/
inductive Json where
  | null
  | bool (value : Bool)
  | number (value : BitVec 64)
  | string (value : GoString)
  | array (items : List Json)
  | object (members : List (GoString × Json))

/--
The library functions the store depends on.

`unmarshal` is `json.Unmarshal` into an `any`, and fails with `none`.
`marshalString` and `marshalNumber` are `json.Marshal` on the two scalar
types with a non-trivial rendering.  `jsonb` is the value the server stores
for a payload, if it accepts it.
-/
structure Platform where
  unmarshal : GoString → Option Json
  marshalString : GoString → GoString
  marshalNumber : BitVec 64 → Option GoString
  sum256 : GoString → GoString
  jsonb : GoString → Option GoString

section Canonicalize

variable (platform : Platform)

/-- The canonical rendering of an object's members, in key order. -/
def renderMembers (members : List (GoString × GoString)) : GoString :=
  List.intercalate (ascii ",")
    ((members.insertionSort fun first second =>
      first.1 ≤ second.1).map fun member =>
        platform.marshalString member.1 ++ ascii ":" ++ member.2)

mutual

/-- `canonicalize`.  The errors of nested values are discarded. -/
def canonicalize : Json → Option GoString
  | .object members =>
      some
        (ascii "\x7b" ++
          renderMembers platform (canonicalizeMembers members) ++
          ascii "\x7d")
  | .array items =>
      some
        (ascii "[" ++
          List.intercalate (ascii ",") (canonicalizeItems items) ++
          ascii "]")
  | .null => some (ascii "null")
  | .bool true => some (ascii "true")
  | .bool false => some (ascii "false")
  | .number value => platform.marshalNumber value
  | .string value => some (platform.marshalString value)

/-- The canonical renderings of the items of an array. -/
def canonicalizeItems : List Json → List GoString
  | [] => []
  | item :: rest =>
      (canonicalize item).getD [] :: canonicalizeItems rest

/-- The members of an object with their values rendered. -/
def canonicalizeMembers :
    List (GoString × Json) → List (GoString × GoString)
  | [] => []
  | (key, value) :: rest =>
      (key, (canonicalize value).getD []) :: canonicalizeMembers rest

end

/-- `canonicalizeJSON`. -/
def canonicalizeJSON (input : GoString) : Option GoString :=
  (platform.unmarshal input).bind (canonicalize platform)

/-- `hashPayload`. -/
def hashPayload (payload : GoString) : Option GoString :=
  (canonicalizeJSON platform payload).map platform.sum256

end Canonicalize

/--
A platform for concrete runs: every payload is one string, rendered and hashed
as itself.
-/
def echoPlatform : Platform where
  unmarshal := fun input => some (.string input)
  marshalString := id
  marshalNumber := fun _ => none
  sum256 := id
  jsonb := some

end Dhara.Store
