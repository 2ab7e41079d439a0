import Dhara.JsonText.Values
import Dhara.Store.HashUtils

/-!
# Canonical payloads

`canonicalizeJSON` is compared with equality of JSON values.  The decoder is
that of `encoding/json`; of its encoder only what it promises is assumed,
that the literal of a decoded string or number is read back as that string or
number.

The canonical bytes are read back as the decoded value, so that no two values
have the same bytes, and they depend on the value alone, since the members of
an object are sorted.
-/

namespace Dhara.Store

open Dhara.JsonText

variable {depth : Nat} {json : Json} {tree : Tree}

/-! ## Decoded payloads -/

mutual

/-- The value of a tree in an `any`.  A number out of range is an error. -/
def ofTree : Tree → Option Json
  | .null => some .null
  | .bool value => some (.bool value)
  | .number token => (parseFloat token).map .number
  | .string value => some (.string value)
  | .array items => (ofItems items).map .array
  | .object members =>
      (ofMembers members).map fun values => .object (assignAll values)

/-- The values of the items of an array. -/
def ofItems : List Tree → Option (List Json)
  | [] => some []
  | item :: rest =>
      (ofTree item).bind fun value => (ofItems rest).map (value :: ·)

/-- The members of an object, one after the other. -/
def ofMembers :
    List (GoString × Tree) → Option (List (GoString × Json))
  | [] => some []
  | (key, item) :: rest =>
      (ofTree item).bind fun value =>
        (ofMembers rest).map ((key, value) :: ·)

end

/-- `json.Unmarshal` into an `any`. -/
def unmarshal (text : GoString) : Option Json :=
  (decode text).bind ofTree

mutual

/-- The JSON value of decoded data. -/
def Json.denote : Json → Value (BitVec 64)
  | .null => .null
  | .bool value => .bool value
  | .number value => .number value
  | .string value => .string value
  | .array items => .array (denoteAll items)
  | .object members => .object fun key => (denoteEach members).lookup key

/-- The JSON values of the items of an array. -/
def denoteAll : List Json → List (Value (BitVec 64))
  | [] => []
  | item :: rest => item.denote :: denoteAll rest

/-- The JSON values of the members of an object. -/
def denoteEach :
    List (GoString × Json) → List (GoString × Value (BitVec 64))
  | [] => []
  | (key, item) :: rest => (key, item.denote) :: denoteEach rest

end

theorem denoteAll_eq_map (items : List Json) :
    denoteAll items = items.map Json.denote := by
  induction items with
  | nil => rfl
  | cons item rest induction => rw [denoteAll, induction, List.map_cons]

theorem denoteEach_eq_map (members : List (GoString × Json)) :
    denoteEach members =
      members.map fun member => (member.1, member.2.denote) := by
  induction members with
  | nil => rfl
  | cons member rest induction =>
      rw [denoteEach, induction, List.map_cons]

/-- What `json.Unmarshal` leaves in an `any`. -/
inductive Json.Decoded : Nat → Json → Prop where
  | null {depth : Nat} : Decoded depth .null
  | bool {depth : Nat} {value : Bool} : Decoded depth (.bool value)
  | number {depth : Nat} {token : GoString} {value : BitVec 64}
      (parsed : parseFloat token = some value) :
      Decoded depth (.number value)
  | string {depth : Nat} {value : GoString}
      (encoded : WellEncoded value) : Decoded depth (.string value)
  | array {depth : Nat} {items : List Json}
      (decoded : ∀ item ∈ items, Decoded depth item) :
      Decoded (depth + 1) (.array items)
  | object {depth : Nat} {members : List (GoString × Json)}
      (unique : UniqueKeys members)
      (keys : ∀ member ∈ members, WellEncoded member.1)
      (decoded : ∀ member ∈ members, Decoded depth member.2) :
      Decoded (depth + 1) (.object members)

theorem mem_ofItems
    {items : List Tree} {values : List Json}
    (decoded : ofItems items = some values) {value : Json}
    (mem : value ∈ values) : ∃ item ∈ items, ofTree item = some value := by
  induction items generalizing values with
  | nil =>
      cases decoded
      cases mem
  | cons item rest induction =>
      rcases Option.bind_eq_some_iff.mp decoded with
        ⟨first, read, decoded⟩
      rcases Option.map_eq_some_iff.mp decoded with
        ⟨others, later, equal⟩
      subst values
      rcases List.mem_cons.mp mem with same | mem
      · exact ⟨item, List.mem_cons_self, same ▸ read⟩
      · rcases induction later mem with ⟨item, itemMem, read⟩
        exact ⟨item, List.mem_cons_of_mem _ itemMem, read⟩

theorem mem_ofMembers
    {members : List (GoString × Tree)}
    {values : List (GoString × Json)}
    (decoded : ofMembers members = some values)
    {value : GoString × Json} (mem : value ∈ values) :
    ∃ member ∈ members,
      member.1 = value.1 ∧ ofTree member.2 = some value.2 := by
  induction members generalizing values with
  | nil =>
      cases decoded
      cases mem
  | cons member rest induction =>
      rcases Option.bind_eq_some_iff.mp decoded with
        ⟨first, read, decoded⟩
      rcases Option.map_eq_some_iff.mp decoded with
        ⟨others, later, equal⟩
      subst values
      rcases List.mem_cons.mp mem with same | mem
      · subst value
        exact ⟨member, List.mem_cons_self, rfl, read⟩
      · rcases induction later mem with ⟨member, memberMem, read⟩
        exact ⟨member, List.mem_cons_of_mem _ memberMem, read⟩

theorem ofTree_decoded
    (valid : tree.Valid depth)
    (read : ofTree tree = some json) : json.Decoded depth := by
  induction valid generalizing json with
  | null =>
      cases read
      exact .null
  | bool =>
      cases read
      exact .bool
  | number =>
      rcases Option.map_eq_some_iff.mp read with ⟨value, parsed, equal⟩
      subst json
      exact .number parsed
  | string encoded =>
      cases read
      exact .string encoded
  | array _ induction =>
      rcases Option.map_eq_some_iff.mp read with ⟨values, items, equal⟩
      subst json
      apply Json.Decoded.array
      intro value mem
      rcases mem_ofItems items mem with ⟨item, itemMem, itemRead⟩
      exact induction item itemMem itemRead
  | object keys _ induction =>
      rcases Option.map_eq_some_iff.mp read with
        ⟨values, members, equal⟩
      subst json
      apply Json.Decoded.object (uniqueKeys_assignAll values)
      · intro value mem
        rcases mem_ofMembers members (mem_assignAll mem) with
          ⟨member, memberMem, same, _⟩
        exact same ▸ keys member memberMem
      · intro value mem
        rcases mem_ofMembers members (mem_assignAll mem) with
          ⟨member, memberMem, _, memberRead⟩
        exact induction member memberMem memberRead

theorem unmarshal_decoded
    {text : GoString} (read : unmarshal text = some json) :
    json.Decoded maxNestingDepth := by
  rcases Option.bind_eq_some_iff.mp read with ⟨tree, decoded, read⟩
  exact ofTree_decoded (decode_valid decoded) read

theorem ofItems_denote
    {items : List Tree}
    (denoted :
      ∀ item ∈ items,
        (ofTree item).map Json.denote = item.denote parseFloat) :
    (ofItems items).map denoteAll = denoteItems parseFloat items := by
  induction items with
  | nil => rfl
  | cons item rest induction =>
      have first := denoted item List.mem_cons_self
      have later := induction fun other mem => denoted other (.tail item mem)
      rw [ofItems, denoteItems, ← first, ← later]
      cases ofTree item <;> cases ofItems rest <;> rfl

theorem ofMembers_denote
    {members : List (GoString × Tree)}
    (denoted :
      ∀ member ∈ members,
        (ofTree member.2).map Json.denote = member.2.denote parseFloat) :
    (ofMembers members).map denoteEach =
      denoteMembers parseFloat members := by
  induction members with
  | nil => rfl
  | cons member rest induction =>
      have first := denoted member List.mem_cons_self
      have later :=
        induction fun other mem => denoted other (.tail member mem)
      rw [ofMembers, denoteMembers, ← first, ← later]
      cases ofTree member.2 <;> cases ofMembers rest <;> rfl

/-- Assigning the members of an object makes the last one count. -/
theorem denote_object (values : List (GoString × Json)) :
    (Json.object (assignAll values)).denote =
      .object fun key => (denoteEach values).reverse.lookup key := by
  rw [Json.denote]
  congr 1
  funext key
  rw [denoteEach_eq_map, denoteEach_eq_map, ← List.map_reverse,
    lookup_map _ Json.denote, lookup_map _ Json.denote, lookup_assignAll]

theorem ofTree_denote
    (valid : tree.Valid depth) :
    (ofTree tree).map Json.denote = tree.denote parseFloat := by
  induction valid with
  | null => rfl
  | bool => rfl
  | @number _ token _ =>
      rw [ofTree, Tree.denote]
      cases parseFloat token <;> rfl
  | string => rfl
  | @array _ items _ induction =>
      rw [ofTree, Tree.denote, ← ofItems_denote induction]
      cases ofItems items <;> rfl
  | @object _ members _ _ induction =>
      rw [ofTree, Tree.denote, ← ofMembers_denote induction]
      cases ofMembers members with
      | none => rfl
      | some values => exact congrArg some (denote_object values)

/-- `json.Unmarshal` leaves the value that the text stands for. -/
theorem unmarshal_denote (text : GoString) :
    (unmarshal text).map Json.denote = textValue parseFloat text := by
  unfold unmarshal textValue
  cases decoded : decode text with
  | none => rfl
  | some tree => exact ofTree_denote (decode_valid decoded)

/-! ## Reading the canonical bytes -/

/-- The encoder writes literals that are read back. -/
structure Platform.Encodes (platform : Platform) : Prop where
  unmarshal : platform.unmarshal = Store.unmarshal
  marshalString :
    ∀ literal value, StringLiteral literal value →
      StringLiteral (platform.marshalString value) value
  marshalNumber :
    ∀ token value, parseFloat token = some value →
      ∃ written,
        platform.marshalNumber value = some written ∧
          parseFloat written = some value

/--
The decoder is that of `encoding/json`, and `JSONB` accepts of what it decodes
the texts that it can represent.
-/
structure Platform.Documented (platform : Platform) : Prop where
  unmarshal : platform.unmarshal = Store.unmarshal
  jsonb :
    ∀ payload, (Store.unmarshal payload).isSome = true →
      (platform.jsonb payload).isSome = storable payload

section Canonical

variable {platform : Platform} {left right : Json}

/-- The bytes of a nested value, whose error is discarded. -/
def childBytes (platform : Platform) (json : Json) : GoString :=
  (canonicalize platform json).getD []

theorem canonicalizeItems_eq_map (items : List Json) :
    canonicalizeItems platform items = items.map (childBytes platform) := by
  induction items with
  | nil => rfl
  | cons item rest induction =>
      rw [canonicalizeItems, induction, List.map_cons, childBytes]

theorem canonicalizeMembers_eq_map (members : List (GoString × Json)) :
    canonicalizeMembers platform members =
      members.map fun member =>
        (member.1, childBytes platform member.2) := by
  induction members with
  | nil => rfl
  | cons member rest induction =>
      rw [canonicalizeMembers, induction, List.map_cons, childBytes]

/-- The bytes of a member. -/
def memberBytes (platform : Platform) (member : GoString × Json) :
    GoString :=
  platform.marshalString member.1 ++ [colon] ++ childBytes platform member.2

/-- The members of an object in the order of their keys. -/
def sortMembers (members : List (GoString × Json)) :
    List (GoString × Json) :=
  members.insertionSort fun first second => first.1 ≤ second.1

theorem renderMembers_eq (members : List (GoString × Json)) :
    renderMembers platform (canonicalizeMembers platform members) =
      List.intercalate [comma]
        ((sortMembers members).map (memberBytes platform)) := by
  rw [renderMembers, canonicalizeMembers_eq_map,
    ← List.map_insertionSort
      (fun first second : GoString × Json => first.1 ≤ second.1)]
  · rw [List.map_map]
    rfl
  · intro first _ second _
    rfl

/-- The value is written, and its bytes are read back as it. -/
def Json.ReadsBack (platform : Platform) (json : Json) (depth : Nat) :
    Prop :=
  ∃ tree,
    canonicalize platform json = some (childBytes platform json) ∧
      Reads (childBytes platform json) tree depth ∧
        tree.denote parseFloat = some json.denote

theorem Json.ReadsBack.of_written
    {bytes : GoString} (written : canonicalize platform json = some bytes)
    (reads : Reads bytes tree depth)
    (denoted : tree.denote parseFloat = some json.denote) :
    json.ReadsBack platform depth := by
  have same : childBytes platform json = bytes := by
    rw [childBytes, written, Option.getD_some]
  rw [Json.ReadsBack, same]
  exact ⟨tree, written, reads, denoted⟩

/-- Choices for the elements of a list are a list. -/
theorem exists_forall₂
    {Item Choice : Type} {relation : Item → Choice → Prop}
    {items : List Item}
    (choices : ∀ item ∈ items, ∃ choice, relation item choice) :
    ∃ list, List.Forall₂ relation items list := by
  induction items with
  | nil => exact ⟨[], .nil⟩
  | cons item rest induction =>
      rcases choices item List.mem_cons_self with ⟨choice, first⟩
      rcases induction fun other mem => choices other (.tail item mem) with
        ⟨list, later⟩
      exact ⟨choice :: list, .cons first later⟩

theorem readsBack_array
    {items : List Json}
    (induction : ∀ item ∈ items, item.ReadsBack platform depth) :
    (Json.array items).ReadsBack platform (depth + 1) := by
  rcases exists_forall₂ induction with ⟨trees, chosen⟩
  have written :
      canonicalize platform (.array items) =
        some
          ([openBracket] ++
            List.intercalate [comma] (items.map (childBytes platform)) ++
            [closeBracket]) := by
    rw [canonicalize, canonicalizeItems_eq_map]
    rfl
  have denoted :
      denoteItems parseFloat trees = some (items.map Json.denote) := by
    apply denoteItems_of_forall₂
    rw [List.forall₂_map_right_iff]
    exact (chosen.imp fun _ _ read => read.2.2).flip
  have reads :
      List.Forall₂ (fun text tree => Reads text tree depth)
        (items.map (childBytes platform)) trees := by
    rw [List.forall₂_map_left_iff]
    exact chosen.imp fun _ _ read => read.2.1
  apply Json.ReadsBack.of_written written (reads_array reads)
  rw [Tree.denote, Json.denote, denoteAll_eq_map, denoted]
  rfl

theorem readsMember
    (encodes : platform.Encodes) {member : GoString × Json}
    (encoded : WellEncoded member.1)
    (reads : member.2.ReadsBack platform depth) :
    ∃ named : GoString × Tree,
      ReadsMember depth (memberBytes platform member) named ∧
        named.1 = member.1 ∧
          named.2.denote parseFloat = some member.2.denote := by
  rcases reads with ⟨tree, _, reads, denoted⟩
  have literal := encodes.marshalString _ _ (stringLiteral_literalOf encoded)
  exact ⟨(member.1, tree), ⟨_, _, rfl, literal, reads⟩, rfl, denoted⟩

theorem readsBack_object
    (encodes : platform.Encodes) {members : List (GoString × Json)}
    (unique : UniqueKeys members)
    (keys : ∀ member ∈ members, WellEncoded member.1)
    (induction : ∀ member ∈ members, member.2.ReadsBack platform depth) :
    (Json.object members).ReadsBack platform (depth + 1) := by
  have sorted : (sortMembers members).Perm members :=
    List.perm_insertionSort _ members
  have written :
      canonicalize platform (.object members) =
        some
          ([openBrace] ++
            List.intercalate [comma]
              ((sortMembers members).map (memberBytes platform)) ++
            [closeBrace]) := by
    rw [canonicalize, renderMembers_eq]
    rfl
  rcases exists_forall₂ fun member mem =>
      readsMember encodes (keys member (sorted.mem_iff.mp mem))
        (induction member (sorted.mem_iff.mp mem)) with
    ⟨named, chosen⟩
  have reads :
      List.Forall₂ (ReadsMember depth)
        ((sortMembers members).map (memberBytes platform)) named := by
    rw [List.forall₂_map_left_iff]
    exact chosen.imp fun _ _ read => read.1
  have denoted :
      denoteMembers parseFloat named =
        some
          ((sortMembers members).map fun member =>
            (member.1, member.2.denote)) := by
    apply denoteMembers_of_forall₂
    rw [List.forall₂_map_right_iff]
    exact (chosen.imp fun _ _ read => read.2).flip
  apply Json.ReadsBack.of_written written (reads_object reads)
  rw [Tree.denote, Json.denote, denoted, Option.map_some]
  congr 2
  funext key
  have same := (List.reverse_perm (sortMembers members)).trans sorted
  rw [denoteEach_eq_map, ← List.map_reverse, lookup_map _ Json.denote,
    lookup_map _ Json.denote,
    (unique.perm same.symm).lookup_perm same]

/-- What was decoded is written without an error and read back. -/
theorem Json.Decoded.readsBack
    (encodes : platform.Encodes)
    (decoded : json.Decoded depth) : json.ReadsBack platform depth := by
  induction decoded with
  | @null depth =>
      exact .of_written rfl (reads_null depth) rfl
  | @bool depth value =>
      cases value with
      | true => exact .of_written rfl (reads_true depth) rfl
      | false => exact .of_written rfl (reads_false depth) rfl
  | @number depth token value parsed =>
      rcases encodes.marshalNumber token value parsed with
        ⟨bytes, marshalled, again⟩
      rcases Option.bind_eq_some_iff.mp again with ⟨decimal, valid, _⟩
      have written : canonicalize platform (.number value) = some bytes :=
        marshalled
      apply Json.ReadsBack.of_written written (reads_number valid depth)
      rw [Tree.denote, again]
      rfl
  | @string depth value encoded =>
      exact .of_written rfl
        (reads_string
          (encodes.marshalString _ _ (stringLiteral_literalOf encoded))
          depth)
        rfl
  | array _ induction => exact readsBack_array induction
  | object unique keys _ induction =>
      exact readsBack_object encodes unique keys induction

/-! ## The bytes of equal values -/

theorem map_eq_map_of_imp
    {Item Image Other : Type} {change : Item → Image}
    {other : Item → Other} {left right : List Item}
    (determined :
      ∀ one ∈ left, ∀ two ∈ right,
        change one = change two → other one = other two)
    (same : left.map change = right.map change) :
    left.map other = right.map other := by
  induction left generalizing right with
  | nil =>
      cases right with
      | nil => rfl
      | cons _ _ => cases same
  | cons one rest induction =>
      cases right with
      | nil => cases same
      | cons two others =>
          rw [List.map_cons, List.map_cons, List.cons.injEq] at same
          rw [List.map_cons, List.map_cons,
            determined one List.mem_cons_self two List.mem_cons_self same.1,
            induction
              (fun one oneMem two twoMem =>
                determined one (.tail _ oneMem) two (.tail _ twoMem))
              same.2]

theorem lookup_denote
    {left right : List (GoString × Json)}
    (same : (Json.object left).denote = (Json.object right).denote)
    (key : GoString) :
    (left.lookup key).map Json.denote =
      (right.lookup key).map Json.denote := by
  rw [Json.denote, Json.denote, Value.object.injEq] at same
  rw [← lookup_map, ← lookup_map, ← denoteEach_eq_map, ← denoteEach_eq_map]
  exact congrFun same key

theorem renderMembers_congr
    {left right : List (GoString × Json)} (first : UniqueKeys left)
    (second : UniqueKeys right)
    (determined :
      ∀ one ∈ left, ∀ two ∈ right,
        one.2.denote = two.2.denote →
          childBytes platform one.2 = childBytes platform two.2)
    (same : (Json.object left).denote = (Json.object right).denote) :
    renderMembers platform (canonicalizeMembers platform left) =
      renderMembers platform (canonicalizeMembers platform right) := by
  rw [canonicalizeMembers_eq_map, canonicalizeMembers_eq_map,
    renderMembers, renderMembers,
    (first.map (childBytes platform)).insertionSort_eq
      (second.map (childBytes platform)) _ fun one other => one ≤ other]
  intro key
  have denoted := lookup_denote same key
  rw [lookup_map, lookup_map]
  cases one : left.lookup key with
  | none =>
      cases two : right.lookup key with
      | none => rfl
      | some other =>
          rw [one, two] at denoted
          cases denoted
  | some item =>
      cases two : right.lookup key with
      | none =>
          rw [one, two] at denoted
          cases denoted
      | some other =>
          rw [one, two] at denoted
          exact congrArg some
            (determined (key, item) (first.lookup_iff.mp one)
              (key, other) (second.lookup_iff.mp two)
              (Option.some.inj denoted))

/-- The bytes of decoded data depend on its value alone. -/
theorem Json.Decoded.canonicalize_congr
    (first : left.Decoded depth) {other : Nat} (second : right.Decoded other)
    (same : left.denote = right.denote) :
    canonicalize platform left = canonicalize platform right := by
  induction first generalizing right other with
  | null =>
      cases second with
      | null => rfl
      | _ => cases same
  | bool =>
      cases second with
      | bool =>
          cases same
          rfl
      | _ => cases same
  | number =>
      cases second with
      | number =>
          cases same
          rfl
      | _ => cases same
  | string =>
      cases second with
      | string =>
          cases same
          rfl
      | _ => cases same
  | @array _ items _ induction =>
      cases second with
      | @array _ others decoded =>
          rw [Json.denote, Json.denote, denoteAll_eq_map,
            denoteAll_eq_map, Value.array.injEq] at same
          have bytes :
              items.map (childBytes platform) =
                others.map (childBytes platform) := by
            apply map_eq_map_of_imp _ same
            intro one oneMem two twoMem equal
            rw [childBytes, childBytes,
              induction one oneMem (decoded two twoMem) equal]
          rw [canonicalize, canonicalize, canonicalizeItems_eq_map,
            canonicalizeItems_eq_map, bytes]
      | _ => cases same
  | @object _ members unique _ _ induction =>
      cases second with
      | @object _ others distinct _ decoded =>
          rw [canonicalize, canonicalize,
            renderMembers_congr unique distinct _ same]
          intro one oneMem two twoMem equal
          rw [childBytes, childBytes,
            induction one oneMem (decoded two twoMem) equal]
      | _ => cases same

/-! ## Payload hashes -/

theorem unmarshal_childBytes
    (encodes : platform.Encodes) (decoded : json.Decoded maxNestingDepth) :
    ∃ again,
      unmarshal (childBytes platform json) = some again ∧
        again.denote = json.denote := by
  rcases decoded.readsBack encodes with ⟨tree, _, reads, denoted⟩
  have whole := unmarshal_denote (childBytes platform json)
  rw [textValue, reads.decode (Nat.le_refl _), Option.bind_some,
    denoted] at whole
  exact Option.map_eq_some_iff.mp whole

theorem canonicalizeJSON_eq_some
    (encodes : platform.Encodes) {input : GoString}
    (read : platform.unmarshal input = some json) :
    canonicalizeJSON platform input = some (childBytes platform json) := by
  rw [encodes.unmarshal] at read
  rcases (unmarshal_decoded read).readsBack encodes with
    ⟨_, written, _, _⟩
  rw [canonicalizeJSON, encodes.unmarshal, read, Option.bind_some, written]

theorem canonicalizeJSON_eq_iff
    (encodes : platform.Encodes) {first second : GoString}
    (firstRead : platform.unmarshal first = some left)
    (secondRead : platform.unmarshal second = some right) :
    canonicalizeJSON platform first = canonicalizeJSON platform second ↔
      left.denote = right.denote := by
  rw [canonicalizeJSON_eq_some encodes firstRead,
    canonicalizeJSON_eq_some encodes secondRead, Option.some.injEq]
  rw [encodes.unmarshal] at firstRead secondRead
  constructor
  · intro same
    rcases unmarshal_childBytes encodes (unmarshal_decoded firstRead) with
      ⟨one, oneRead, oneDenote⟩
    rcases unmarshal_childBytes encodes
        (unmarshal_decoded secondRead) with
      ⟨two, twoRead, twoDenote⟩
    rw [same, twoRead, Option.some.injEq] at oneRead
    rw [← oneDenote, ← twoDenote, oneRead]
  · intro same
    rw [childBytes, childBytes,
      (unmarshal_decoded firstRead).canonicalize_congr
        (unmarshal_decoded secondRead) same]

theorem hashPayload_eq_iff
    (encodes : platform.Encodes)
    (collisionFree : Function.Injective platform.sum256)
    {first second : GoString}
    (firstRead : platform.unmarshal first = some left)
    (secondRead : platform.unmarshal second = some right) :
    hashPayload platform first = hashPayload platform second ↔
      left.denote = right.denote := by
  rw [← canonicalizeJSON_eq_iff encodes firstRead secondRead, hashPayload,
    hashPayload, (Option.map_injective collisionFree).eq_iff]

end Canonical

/--
For payloads that `json.Unmarshal` accepts, the canonical bytes are equal
exactly when the JSON values are, and so are the hashes if the hash has no
collisions.  The canonical bytes are a payload of the same value, and
canonical themselves.
-/
theorem canonical_bytes_iff_same_value
    (platform : Platform) (encodes : platform.Encodes) :
    (∀ text,
      (platform.unmarshal text).map Json.denote = textValue parseFloat text) ∧
    (∀ first second left right,
      platform.unmarshal first = some left →
        platform.unmarshal second = some right →
          (canonicalizeJSON platform first =
              canonicalizeJSON platform second ↔
            left.denote = right.denote) ∧
          (Function.Injective platform.sum256 →
            (hashPayload platform first = hashPayload platform second ↔
              left.denote = right.denote))) ∧
    ∀ input json, platform.unmarshal input = some json →
      ∃ bytes again,
        canonicalizeJSON platform input = some bytes ∧
          platform.unmarshal bytes = some again ∧
            again.denote = json.denote ∧
              canonicalizeJSON platform bytes = some bytes := by
  refine ⟨?_, ?_, ?_⟩
  · intro text
    rw [encodes.unmarshal, unmarshal_denote]
  · intro first second left right firstRead secondRead
    exact
      ⟨canonicalizeJSON_eq_iff encodes firstRead secondRead,
        fun collisionFree =>
          hashPayload_eq_iff encodes collisionFree firstRead secondRead⟩
  · intro input json read
    have decoded : json.Decoded maxNestingDepth := by
      rw [encodes.unmarshal] at read
      exact unmarshal_decoded read
    rcases unmarshal_childBytes encodes decoded with
      ⟨again, againRead, same⟩
    rw [← encodes.unmarshal] at againRead
    have written := canonicalizeJSON_eq_some encodes read
    refine ⟨_, again, written, againRead, same, ?_⟩
    rw [(canonicalizeJSON_eq_iff encodes againRead read).mpr same, written]

/-- The digits of the integral part of a number, with its sign. -/
def wholeToken (value : BitVec 64) : GoString :=
  (if 2 ^ 63 ≤ value.toNat then ascii "-" else []) ++
    writeDigits (magnitude (value.toNat % 2 ^ 63) / 2 ^ unitExponent)

/-- A token of a number, that of an integer where there is one. -/
def numberToken (value : BitVec 64) : GoString :=
  if parseFloat (wholeToken value) = some value then wholeToken value
  else tokenOf value

/-- A platform whose encoder writes plain literals. -/
def plainPlatform : Platform where
  unmarshal := unmarshal
  marshalString := literalOf
  marshalNumber := fun value =>
    if value.toNat % 2 ^ 63 < infinityBits then some (numberToken value)
    else none
  sum256 := id
  jsonb := fun text => if storable text then some text else none

theorem plainPlatform_encodes : plainPlatform.Encodes where
  unmarshal := rfl
  marshalString := by
    rintro literal value ⟨body, _, _, decoded⟩
    exact stringLiteral_literalOf (wellEncoded_unquote decoded)
  marshalNumber := by
    intro token value parsed
    have finite := parseFloat_finite parsed
    refine ⟨numberToken value, if_pos finite, ?_⟩
    unfold numberToken
    split_ifs with whole
    · exact whole
    · exact parseFloat_tokenOf finite

theorem plainPlatform_documented : plainPlatform.Documented where
  unmarshal := rfl
  jsonb := by
    intro payload _
    cases stored : storable payload <;> simp [plainPlatform, stored]

/-- A payload and another spelling of it. -/
def spelledPayload : GoString :=
  ascii "\x7b\"b\":[2.0,null],\"a\":0,\"a\":\"x\"\x7d"

@[inherit_doc spelledPayload]
def respelledPayload : GoString :=
  ascii " \x7b \"a\" : \"\\u0078\", \"b\" : [20E-1, null] \x7d "

/-- Another order, other escapes and other numerals are the same value. -/
theorem respelled_payload_same_value :
    ∃ left right,
      plainPlatform.unmarshal spelledPayload = some left ∧
        plainPlatform.unmarshal respelledPayload = some right ∧
          left.denote = right.denote := by
  have firstRead : (plainPlatform.unmarshal spelledPayload).isSome := by
    decide +kernel
  have secondRead : (plainPlatform.unmarshal respelledPayload).isSome := by
    decide +kernel
  have same :
      canonicalizeJSON plainPlatform spelledPayload =
        canonicalizeJSON plainPlatform respelledPayload := by
    decide +kernel
  rcases Option.isSome_iff_exists.mp firstRead with ⟨left, first⟩
  rcases Option.isSome_iff_exists.mp secondRead with ⟨right, second⟩
  exact ⟨left, right, first, second,
    ((canonical_bytes_iff_same_value plainPlatform
      plainPlatform_encodes).2.1 _ _ left right first second).1.mp same⟩

end Dhara.Store
