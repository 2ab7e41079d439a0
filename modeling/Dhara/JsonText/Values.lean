import Dhara.JsonText.Decoder
import Mathlib.Data.List.Forall2
import Mathlib.Data.List.Induction
import Mathlib.Data.List.Sort

/-!
# JSON values

Two texts stand for the same value when their trees do.  An object is the
finite map from its keys to their values, so the order of its members is
lost, and the last member of a key is the one that counts.  What a number
token stands for is a parameter.

Objects are stored as association lists in which no key appears twice.  Such
a list is determined by its map once it is sorted.

`storable` says which of the texts that are decoded `JSONB` represents.
-/

namespace Dhara.JsonText

/-- A JSON value, with objects as maps. -/
inductive Value (Number : Type) where
  | null
  | bool (value : Bool)
  | number (value : Number)
  | string (value : GoString)
  | array (items : List (Value Number))
  | object (members : GoString → Option (Value Number))

section Meaning

variable {Number : Type} (read : GoString → Option Number)

mutual

/-- The value of a tree, if its numbers have one. -/
def Tree.denote : Tree → Option (Value Number)
  | .null => some .null
  | .bool value => some (.bool value)
  | .number token => (read token).map .number
  | .string value => some (.string value)
  | .array items => (denoteItems items).map .array
  | .object members =>
      (denoteMembers members).map fun values =>
        .object fun key => values.reverse.lookup key

/-- The values of the items of an array. -/
def denoteItems : List Tree → Option (List (Value Number))
  | [] => some []
  | item :: rest =>
      item.denote.bind fun value =>
        (denoteItems rest).map (value :: ·)

/-- The values of the members of an object. -/
def denoteMembers :
    List (GoString × Tree) → Option (List (GoString × Value Number))
  | [] => some []
  | (key, item) :: rest =>
      item.denote.bind fun value =>
        (denoteMembers rest).map ((key, value) :: ·)

end

theorem denoteItems_of_forall₂
    {items : List Tree} {values : List (Value Number)}
    (denoted :
      List.Forall₂ (fun item value => item.denote read = some value)
        items values) :
    denoteItems read items = some values := by
  induction denoted with
  | nil => rfl
  | cons first _ induction =>
      rw [denoteItems, first, induction]
      rfl

theorem denoteMembers_of_forall₂
    {members : List (GoString × Tree)}
    {values : List (GoString × Value Number)}
    (denoted :
      List.Forall₂
        (fun member value =>
          member.1 = value.1 ∧ member.2.denote read = some value.2)
        members values) :
    denoteMembers read members = some values := by
  induction denoted with
  | nil => rfl
  | @cons member value _ _ first _ induction =>
      rcases member with ⟨key, item⟩
      rcases value with ⟨name, value⟩
      rcases first with ⟨same, denoted⟩
      change key = name at same
      subst name
      rw [denoteMembers, denoted, induction]
      rfl

section Readers

variable
    {First Second : Type} {read : GoString → Option First}
    {one other : GoString → Option Second}

theorem denoteItems_congr
    {items : List Tree}
    (agree :
      ∀ item ∈ items, (item.denote read).isSome = true →
        item.denote one = item.denote other)
    (denoted : (denoteItems read items).isSome = true) :
    denoteItems one items = denoteItems other items := by
  induction items with
  | nil => rfl
  | cons item rest induction =>
      rw [denoteItems] at denoted
      rcases Option.isSome_iff_exists.mp denoted with ⟨values, denoted⟩
      rcases Option.bind_eq_some_iff.mp denoted with
        ⟨value, first, denoted⟩
      rcases Option.map_eq_some_iff.mp denoted with ⟨others, later, _⟩
      rw [denoteItems, denoteItems,
        agree item List.mem_cons_self (by rw [first]; rfl),
        induction (fun item mem => agree item (.tail _ mem))
          (by rw [later]; rfl)]

theorem denoteMembers_congr
    {members : List (GoString × Tree)}
    (agree :
      ∀ member ∈ members, (member.2.denote read).isSome = true →
        member.2.denote one = member.2.denote other)
    (denoted : (denoteMembers read members).isSome = true) :
    denoteMembers one members = denoteMembers other members := by
  induction members with
  | nil => rfl
  | cons member rest induction =>
      rw [denoteMembers] at denoted
      rcases Option.isSome_iff_exists.mp denoted with ⟨values, denoted⟩
      rcases Option.bind_eq_some_iff.mp denoted with
        ⟨value, first, denoted⟩
      rcases Option.map_eq_some_iff.mp denoted with ⟨others, later, _⟩
      rw [denoteMembers, denoteMembers,
        agree member List.mem_cons_self (by rw [first]; rfl),
        induction (fun member mem => agree member (.tail _ mem))
          (by rw [later]; rfl)]

/-- Only the tokens of a tree matter for its value. -/
theorem Tree.Valid.denote_congr
    {depth : Nat} {tree : Tree} (valid : tree.Valid depth)
    (agree : ∀ token, (read token).isSome = true → one token = other token)
    (denoted : (tree.denote read).isSome = true) :
    tree.denote one = tree.denote other := by
  induction valid with
  | null => rfl
  | bool => rfl
  | number =>
      rw [Tree.denote, Option.isSome_map] at denoted
      rw [Tree.denote, Tree.denote, agree _ denoted]
  | string => rfl
  | array _ induction =>
      rw [Tree.denote, Option.isSome_map] at denoted
      rw [Tree.denote, Tree.denote, denoteItems_congr induction denoted]
  | object _ _ induction =>
      rw [Tree.denote, Option.isSome_map] at denoted
      rw [Tree.denote, Tree.denote, denoteMembers_congr induction denoted]

end Readers

/-- The value a text stands for. -/
def textValue (text : GoString) : Option (Value Number) :=
  (decode text).bind (Tree.denote read)

/-- Only the tokens of a text matter for its value. -/
theorem textValue_congr
    {First Second : Type} {read : GoString → Option First}
    {one other : GoString → Option Second}
    (agree : ∀ token, (read token).isSome = true → one token = other token)
    {text : GoString} (denoted : (textValue read text).isSome = true) :
    textValue one text = textValue other text := by
  unfold textValue at denoted ⊢
  cases decoded : decode text with
  | none => rfl
  | some tree =>
      rw [decoded] at denoted
      exact (decode_valid decoded).denote_congr agree denoted

end Meaning

/-! ## Association lists -/

section Members

variable {Key Item : Type}

variable {members left right : List (Key × Item)}

/-- No key appears twice. -/
def UniqueKeys (members : List (Key × Item)) : Prop :=
  (members.map Prod.fst).Nodup

theorem UniqueKeys.perm
    (unique : UniqueKeys left) (same : left.Perm right) : UniqueKeys right :=
  (same.map Prod.fst).nodup_iff.mp unique

theorem UniqueKeys.map
    {Other : Type} (unique : UniqueKeys members) (change : Item → Other) :
    UniqueKeys (members.map fun member => (member.1, change member.2)) := by
  simpa [UniqueKeys, Function.comp_def] using unique

/-- In such a list a key is that of one member. -/
theorem UniqueKeys.eq
    (unique : UniqueKeys members) {left right : Key × Item}
    (first : left ∈ members) (second : right ∈ members)
    (same : left.1 = right.1) :
    left = right :=
  List.inj_on_of_nodup_map unique first second same

variable [BEq Key]

/-- Assignment to a key of a map. -/
def assign (members : List (Key × Item)) (member : Key × Item) :
    List (Key × Item) :=
  members.filter (fun other => other.1 != member.1) ++ [member]

/-- The map after all assignments. -/
def assignAll (members : List (Key × Item)) : List (Key × Item) :=
  members.foldl assign []

theorem assignAll_concat
    (members : List (Key × Item)) (member : Key × Item) :
    assignAll (members ++ [member]) = assign (assignAll members) member := by
  simp [assignAll]

theorem mem_assignAll
    {member : Key × Item}
    (mem : member ∈ assignAll members) : member ∈ members := by
  induction members using List.reverseRecOn with
  | nil => exact mem
  | append_singleton members last induction =>
      rw [assignAll_concat] at mem
      rcases List.mem_append.mp mem with old | new
      · exact List.mem_append_left _ (induction (List.mem_filter.mp old).1)
      · exact List.mem_append_right _ new

variable [LawfulBEq Key]

theorem UniqueKeys.lookup_iff
    (unique : UniqueKeys members) {key : Key} {item : Item} :
    members.lookup key = some item ↔ (key, item) ∈ members := by
  constructor
  · intro found
    rcases List.lookup_eq_some_iff.mp found with
      ⟨before, after, equal, _⟩
    rw [equal]
    simp
  · intro mem
    cases found : members.lookup key with
    | none =>
        rw [List.lookup_eq_none_iff] at found
        simpa using found _ mem
    | some other =>
        rcases List.lookup_eq_some_iff.mp found with
          ⟨before, after, equal, _⟩
        have otherMem : (key, other) ∈ members := by
          rw [equal]
          simp
        exact congrArg some (congrArg Prod.snd (unique.eq otherMem mem rfl))

theorem UniqueKeys.lookup_perm
    (unique : UniqueKeys left) (same : left.Perm right) (key : Key) :
    left.lookup key = right.lookup key := by
  ext item
  rw [unique.lookup_iff, (unique.perm same).lookup_iff, same.mem_iff]

theorem lookup_map
    {Other : Type} (members : List (Key × Item)) (change : Item → Other)
    (key : Key) :
    (members.map fun member => (member.1, change member.2)).lookup key =
      (members.lookup key).map change := by
  induction members with
  | nil => rfl
  | cons member rest induction =>
      rcases member with ⟨name, item⟩
      by_cases same : key = name
      · subst name
        simp
      · simpa [List.lookup_cons, beq_false_of_ne same] using induction

/-- The members in the order of their keys are determined by the map. -/
theorem UniqueKeys.insertionSort_eq
    (first : UniqueKeys left) (second : UniqueKeys right)
    (same : ∀ key, left.lookup key = right.lookup key) (le : Key → Key → Prop)
    [DecidableRel le] [Std.Total le] [IsTrans Key le] [Std.Antisymm le] :
    left.insertionSort (fun one other => le one.1 other.1) =
      right.insertionSort (fun one other => le one.1 other.1) := by
  have permuted : left.Perm right := by
    rw [List.perm_ext_iff_of_nodup (first.of_map _) (second.of_map _)]
    rintro ⟨key, item⟩
    rw [← first.lookup_iff, ← second.lookup_iff, same]
  have total : Std.Total fun one other : Key × Item => le one.1 other.1 :=
    ⟨fun one other => Std.Total.total one.1 other.1⟩
  have transitive : IsTrans (Key × Item) fun one other => le one.1 other.1 :=
    ⟨fun _ _ _ => IsTrans.trans _ _ _⟩
  apply List.Perm.eq_of_pairwise _
    (List.pairwise_insertionSort _ left)
    (List.pairwise_insertionSort _ right)
    (((List.perm_insertionSort _ left).trans permuted).trans
      (List.perm_insertionSort _ right).symm)
  intro one other oneMem otherMem below above
  apply first.eq
    ((List.perm_insertionSort _ left).mem_iff.mp oneMem)
    (permuted.mem_iff.mpr
      ((List.perm_insertionSort _ right).mem_iff.mp otherMem))
  exact Std.Antisymm.antisymm _ _ below above

theorem lookup_filter
    (members : List (Key × Item)) {key other : Key}
    (different : other ≠ key) :
    (members.filter fun member => member.1 != key).lookup other =
      members.lookup other := by
  induction members with
  | nil => rfl
  | cons member rest induction =>
      rcases member with ⟨name, item⟩
      by_cases same : name = key
      · subst name
        simpa [List.lookup_cons, beq_false_of_ne different] using induction
      · by_cases found : other = name
        · subst name
          simp [same]
        · simpa [List.lookup_cons, same, beq_false_of_ne found]
            using induction

theorem lookup_assign
    (members : List (Key × Item)) (member : Key × Item) (key : Key) :
    (assign members member).lookup key =
      if key == member.1 then some member.2 else members.lookup key := by
  rcases member with ⟨name, item⟩
  rw [assign, List.lookup_append]
  by_cases same : key = name
  · subst name
    have absent :
        (members.filter fun other => other.1 != key).lookup key =
          none := by
      rw [List.lookup_eq_none_iff]
      intro other mem
      have different := (List.mem_filter.mp mem).2
      exact bne_iff_ne.mpr (bne_iff_ne.mp different).symm
    rw [absent]
    simp
  · rw [lookup_filter members same]
    simp [List.lookup_cons, beq_false_of_ne same]

theorem uniqueKeys_assign
    (unique : UniqueKeys members)
    (member : Key × Item) : UniqueKeys (assign members member) := by
  rw [UniqueKeys, assign, List.map_append, List.nodup_append]
  refine ⟨?_, by simp, ?_⟩
  · exact unique.sublist (List.filter_sublist.map Prod.fst)
  · intro key old other new
    rcases List.mem_map.mp old with ⟨kept, mem, equal⟩
    rw [List.map_singleton, List.mem_singleton] at new
    rw [← equal, new]
    simpa using (List.mem_filter.mp mem).2

theorem uniqueKeys_assignAll (members : List (Key × Item)) :
    UniqueKeys (assignAll members) := by
  induction members using List.reverseRecOn with
  | nil => exact List.nodup_nil
  | append_singleton members member induction =>
      rw [assignAll_concat]
      exact uniqueKeys_assign induction member

/-- The last member of a key counts. -/
theorem lookup_assignAll (members : List (Key × Item)) (key : Key) :
    (assignAll members).lookup key = members.reverse.lookup key := by
  induction members using List.reverseRecOn with
  | nil => rfl
  | append_singleton members member induction =>
      rcases member with ⟨name, item⟩
      rw [assignAll_concat, lookup_assign, induction,
        List.reverse_append, List.reverse_singleton,
        List.singleton_append, List.lookup_cons]
      by_cases same : key = name
      · simp [same]
      · simp [beq_false_of_ne same]

end Members

/-! ## Texts that JSONB stores -/

/--
Every escaped code unit is a character other than U+0000, or half of a
surrogate pair.  The flag says that the first half was just read.
-/
def wellEscaped : Bool → GoString → Bool
  | high, 92 :: 117 :: a :: b :: c :: d :: rest =>
      match hexUnit a b c d with
      | none => false
      | some unit =>
          if isSurrogate unit then
            if unit < 0xDC00 then !high && wellEscaped true rest
            else high && wellEscaped false rest
          else
            !high && unit != 0 && wellEscaped false rest
  | high, 92 :: _ :: rest => !high && wellEscaped false rest
  | high, _ :: rest => !high && wellEscaped false rest
  | high, [] => !high

/-- The exponent of a number token. -/
def tokenExponent (token : GoString) : Int :=
  match token.dropWhile fun byte => byte ≠ 101 ∧ byte ≠ 69 with
  | _ :: 45 :: rest => -digits rest
  | _ :: 43 :: rest => digits rest
  | _ :: rest => digits rest
  | [] => 0

/--
The decimal places of a number token, if `NUMERIC` has as many and reads its
exponent.
-/
def numeric (token : GoString) : Option Int :=
  let fraction := ((token.dropWhile (· ≠ 46)).drop 1).takeWhile isDigit
  let places := fraction.length - tokenExponent token
  if places ≤ 16383 ∧ tokenExponent token ≤ 1073741823 then some places
  else none

/-- The decoded text can be stored. -/
def storable (text : GoString) : Bool :=
  isText text && wellEscaped false text && (textValue numeric text).isSome

example :
    ["[1.5e-2,\"\\ud83d\\ude00\"]", "[\"\\u0000\"]", "[\"\\ud800\"]",
      "[1e-16384]"].map (fun text => storable (ascii text)) =
      [true, false, false, false] := by
  decide +kernel

end Dhara.JsonText
