import DropFile.General.Utf8
import DropFile.Streams
import Mathlib.Data.List.Forall2
import Mathlib.Data.List.Lex

/-!
# `nlohmann::json`

The values of the JSON library and the accessors that the program uses.  What
the library parses and prints is a parameter, as is the conversion of a
floating-point number to a `std::size_t` and the texts of its exceptions.
-/

namespace DropFile.JsonObjects

open DropFile.General.Utf8
open DropFile.Streams

/-- A JSON value.  The members of an object are ordered by their keys. -/
inductive Json where
  | null
  | boolean (value : Bool)
  | unsigned (value : UInt64)
  | integer (value : Int64)
  | float (bits : UInt64)
  | string (value : Bytes)
  | array (elements : List Json)
  | object (members : List (Bytes × Json))

structure JsonLibrary where
  /-- `json::parse`, or the text of its `parse_error`. -/
  parse : Bytes → Except Bytes Json
  /-- `dump()`, or the text of its `type_error` for an invalid string. -/
  dump : Json → Except Bytes Bytes
  /-- `static_cast<std::size_t>` of a number. -/
  sizeOfFloat : UInt64 → UInt64
  /-- The text of the `type_error` for a value of the wrong type. -/
  typeError : (expected : String) → Json → Bytes

def jsonException (what : Bytes) : Exception :=
  ⟨.json, what⟩

/-- Throw what the library throws. -/
def orJsonException {α : Type} : Except Bytes α → Except Exception α
  | .ok value => .ok value
  | .error what => .error (jsonException what)

namespace Json

/-- The member of an object with a key. -/
def find (json : Json) (key : Bytes) : Option Json :=
  match json with
  | object members => members.lookup key
  | _ => none

/-- `json.contains(key)`. -/
def contains (json : Json) (key : Bytes) : Bool :=
  (json.find key).isSome

/-- The members after `members[key] = value`. -/
def assignMember (key : Bytes) (value : Json) :
    List (Bytes × Json) → List (Bytes × Json)
  | [] => [(key, value)]
  | (other, old) :: rest =>
      if key = other then
        (key, value) :: rest
      else if key < other then
        (key, value) :: (other, old) :: rest
      else
        (other, old) :: assignMember key value rest

/-- `json[key] = value` for an object; null becomes an object first. -/
def assign (json : Json) (key : Bytes) (value : Json) : Json :=
  match json with
  | object members => object (assignMember key value members)
  | _ => object [(key, value)]

/-- `json == text` for a string literal. -/
def equals (json : Json) (text : String) : Bool :=
  match json with
  | string value => value = ascii text
  | _ => false

def isString : Json → Bool
  | string _ => true
  | _ => false

def isNumberUnsigned : Json → Bool
  | unsigned _ => true
  | _ => false

def isBoolean : Json → Bool
  | boolean _ => true
  | _ => false

end Json

namespace JsonLibrary

variable (library : JsonLibrary)

/-- `json[key]`, which adds a null for a key that is missing. -/
def index (json : Json) (key : Bytes) : Except Exception Json :=
  match json with
  | .object members => .ok ((members.lookup key).getD .null)
  | .null => .ok .null
  | other => .error (jsonException (library.typeError "object" other))

/-- `json.get<std::string>()`. -/
def getString (json : Json) : Except Exception Bytes :=
  match json with
  | .string value => .ok value
  | other => .error (jsonException (library.typeError "string" other))

/-- `json.get<bool>()`. -/
def getBool (json : Json) : Except Exception Bool :=
  match json with
  | .boolean value => .ok value
  | other => .error (jsonException (library.typeError "boolean" other))

/-- `json.get<std::size_t>()`, which converts every kind of number. -/
def getSize (json : Json) : Except Exception Nat :=
  match json with
  | .unsigned value => .ok value.toNat
  | .integer value => .ok value.toUInt64.toNat
  | .float bits => .ok (library.sizeOfFloat bits).toNat
  | other => .error (jsonException (library.typeError "number" other))

/-- `json[key].get<std::string>()`. -/
def stringAt (json : Json) (key : Bytes) : Except Exception Bytes := do
  library.getString (← library.index json key)

/-- `json[key].get<bool>()`. -/
def boolAt (json : Json) (key : Bytes) : Except Exception Bool := do
  library.getBool (← library.index json key)

/-- `json[key].get<std::size_t>()`. -/
def sizeAt (json : Json) (key : Bytes) : Except Exception Nat := do
  library.getSize (← library.index json key)

theorem sizeAt_lt
    {json : Json} {key : Bytes} {size : Nat}
    (isSize : library.sizeAt json key = .ok size) :
    size < sizeModulus := by
  rcases ok_of_bind isSize with ⟨value, -, isSize⟩
  cases value with
  | unsigned value =>
      cases isSize
      exact value.toNat_lt
  | integer value =>
      cases isSize
      exact value.toUInt64.toNat_lt
  | float bits =>
      cases isSize
      exact (library.sizeOfFloat bits).toNat_lt
  | null => cases isSize
  | boolean _ => cases isSize
  | string _ => cases isSize
  | array _ => cases isSize
  | object _ => cases isSize

theorem index_throwsJson (json : Json) (key : Bytes) :
    ThrowsOnly (· = .json) (library.index json key) := by
  cases json with
  | object _ => exact .ok _
  | null => exact .ok _
  | boolean _ => exact .error rfl
  | unsigned _ => exact .error rfl
  | integer _ => exact .error rfl
  | float _ => exact .error rfl
  | string _ => exact .error rfl
  | array _ => exact .error rfl

theorem getString_throwsJson (json : Json) :
    ThrowsOnly (· = .json) (library.getString json) := by
  cases json with
  | string _ => exact .ok _
  | null => exact .error rfl
  | boolean _ => exact .error rfl
  | unsigned _ => exact .error rfl
  | integer _ => exact .error rfl
  | float _ => exact .error rfl
  | array _ => exact .error rfl
  | object _ => exact .error rfl

theorem getBool_throwsJson (json : Json) :
    ThrowsOnly (· = .json) (library.getBool json) := by
  cases json with
  | boolean _ => exact .ok _
  | null => exact .error rfl
  | string _ => exact .error rfl
  | unsigned _ => exact .error rfl
  | integer _ => exact .error rfl
  | float _ => exact .error rfl
  | array _ => exact .error rfl
  | object _ => exact .error rfl

theorem getSize_throwsJson (json : Json) :
    ThrowsOnly (· = .json) (library.getSize json) := by
  cases json with
  | unsigned _ => exact .ok _
  | integer _ => exact .ok _
  | float _ => exact .ok _
  | null => exact .error rfl
  | boolean _ => exact .error rfl
  | string _ => exact .error rfl
  | array _ => exact .error rfl
  | object _ => exact .error rfl

end JsonLibrary

/-! ## Members -/

theorem lookup_member
    (key other : Bytes) (value : Json) (members : List (Bytes × Json)) :
    ((key, value) :: members).lookup other =
      if other = key then some value else members.lookup other := by
  rw [List.lookup_cons]
  by_cases same : other = key
  · rw [if_pos same, beq_iff_eq.2 same]
  · rw [if_neg same, beq_eq_false_iff_ne.2 same]

theorem lookup_assignMember
    (key other : Bytes) (value : Json) (members : List (Bytes × Json)) :
    (Json.assignMember key value members).lookup other =
      if other = key then some value else members.lookup other := by
  induction members with
  | nil => exact lookup_member key other value []
  | cons first rest inductionHypothesis =>
      obtain ⟨name, old⟩ := first
      rw [Json.assignMember]
      by_cases isName : key = name
      · subst isName
        rw [if_pos rfl, lookup_member, lookup_member]
        split_ifs <;> rfl
      · rw [if_neg isName]
        by_cases before : key < name
        · rw [if_pos before, lookup_member]
        · rw [if_neg before, lookup_member, inductionHypothesis,
            lookup_member]
          by_cases same : other = key
          · rw [if_pos same, if_pos same, same, if_neg isName]
          · rw [if_neg same, if_neg same]

@[simp]
theorem find_assign
    (json : Json) (key other : Bytes) (value : Json) :
    (json.assign key value).find other =
      if other = key then some value else json.find other := by
  cases json with
  | object members => exact lookup_assignMember key other value members
  | null => exact lookup_member key other value []
  | boolean _ => exact lookup_member key other value []
  | unsigned _ => exact lookup_member key other value []
  | integer _ => exact lookup_member key other value []
  | float _ => exact lookup_member key other value []
  | string _ => exact lookup_member key other value []
  | array _ => exact lookup_member key other value []

theorem index_of_find
    (library : JsonLibrary) {json value : Json} {key : Bytes}
    (found : json.find key = some value) :
    library.index json key = .ok value := by
  cases json with
  | object members =>
      rw [Json.find] at found
      rw [JsonLibrary.index, found, Option.getD_some]
  | null => cases found
  | boolean _ => cases found
  | unsigned _ => cases found
  | integer _ => cases found
  | float _ => cases found
  | string _ => cases found
  | array _ => cases found

/-! ## Text -/

/-- Every string of the value is valid, the keys included. -/
inductive Json.Utf8 : Json → Prop where
  | null : Utf8 .null
  | boolean (value : Bool) : Utf8 (.boolean value)
  | unsigned (value : UInt64) : Utf8 (.unsigned value)
  | integer (value : Int64) : Utf8 (.integer value)
  | float (bits : UInt64) : Utf8 (.float bits)
  | string {value : Bytes} : IsUtf8 value → Utf8 (.string value)
  | array {elements : List Json} :
      (∀ element ∈ elements, Utf8 element) → Utf8 (.array elements)
  | object {members : List (Bytes × Json)} :
      (∀ member ∈ members, IsUtf8 member.1) →
      (∀ member ∈ members, Utf8 member.2) → Utf8 (.object members)

/--
Every object is a `std::map`: its keys are different, and they ascend in the
order of the strings.
-/
inductive Json.Ordered : Json → Prop where
  | null : Ordered .null
  | boolean (value : Bool) : Ordered (.boolean value)
  | unsigned (value : UInt64) : Ordered (.unsigned value)
  | integer (value : Int64) : Ordered (.integer value)
  | float (bits : UInt64) : Ordered (.float bits)
  | string (value : Bytes) : Ordered (.string value)
  | array {elements : List Json} :
      (∀ element ∈ elements, Ordered element) → Ordered (.array elements)
  | object {members : List (Bytes × Json)} :
      (members.map Prod.fst).Pairwise (· < ·) →
      (∀ member ∈ members, Ordered member.2) → Ordered (.object members)

/-- The values that printing and parsing cannot change in any way. -/
def Json.isPlain (json : Json) : Bool :=
  json.isString || json.isNumberUnsigned || json.isBoolean

/-- What a member can be after it was printed and parsed. -/
def RereadMember (member other : Bytes × Json) : Prop :=
  other.1 = member.1 ∧ (member.2.isPlain = true → other.2 = member.2)

/-- The object that is parsed has the same keys and plain values. -/
def Json.Reread (json again : Json) : Prop :=
  ∀ members, json = .object members →
    ∃ others, again = .object others ∧
      List.Forall₂ RereadMember members others

namespace JsonLibrary

/-- Parsed strings are valid, and printing fails for no other reason. -/
structure Utf8Contract (library : JsonLibrary) : Prop where
  utf8_of_parse :
    ∀ {text json}, library.parse text = .ok json → json.Utf8
  dumps : ∀ {json}, json.Utf8 → ∃ text, library.dump json = .ok text

/-- Parsing makes ordered values, and it undoes printing on them. -/
structure RoundTripContract (library : JsonLibrary) : Prop extends
    Utf8Contract library where
  ordered_of_parse :
    ∀ {text json}, library.parse text = .ok json → json.Ordered
  parses :
    ∀ {json text}, json.Ordered → json.Utf8 →
      library.dump json = .ok text →
      ∃ again, library.parse text = .ok again ∧ json.Reread again

end JsonLibrary

theorem mem_assignMember
    {key : Bytes} {value : Json} {members : List (Bytes × Json)}
    {member : Bytes × Json}
    (isMember : member ∈ Json.assignMember key value members) :
    member = (key, value) ∨ member ∈ members := by
  induction members with
  | nil => exact Or.inl (List.mem_singleton.1 isMember)
  | cons first rest inductionHypothesis =>
      rcases first with ⟨name, old⟩
      rw [Json.assignMember] at isMember
      split_ifs at isMember with same before
      · rcases List.mem_cons.1 isMember with isNew | isOld
        · exact Or.inl isNew
        · exact Or.inr (List.mem_cons_of_mem _ isOld)
      · exact List.mem_cons.1 isMember
      · rcases List.mem_cons.1 isMember with isFirst | isLater
        · exact Or.inr (List.mem_cons.2 (Or.inl isFirst))
        · rcases inductionHypothesis isLater with isNew | isOld
          · exact Or.inl isNew
          · exact Or.inr (List.mem_cons_of_mem _ isOld)

/-- Every member after an assignment is the new one or was there before. -/
theorem exists_members_assign
    (json : Json) (key : Bytes) (value : Json) :
    ∃ members, json.assign key value = .object members ∧
      ∀ member ∈ members, member = (key, value) ∨
        ∃ old, json = .object old ∧ member ∈ old := by
  cases json with
  | object old =>
      refine ⟨_, rfl, ?_⟩
      intro member isMember
      rcases mem_assignMember isMember with isNew | isOld
      · exact Or.inl isNew
      · exact Or.inr ⟨old, rfl, isOld⟩
  | null =>
      exact ⟨_, rfl, fun _ isMember =>
        Or.inl (List.mem_singleton.1 isMember)⟩
  | boolean _ =>
      exact ⟨_, rfl, fun _ isMember =>
        Or.inl (List.mem_singleton.1 isMember)⟩
  | unsigned _ =>
      exact ⟨_, rfl, fun _ isMember =>
        Or.inl (List.mem_singleton.1 isMember)⟩
  | integer _ =>
      exact ⟨_, rfl, fun _ isMember =>
        Or.inl (List.mem_singleton.1 isMember)⟩
  | float _ =>
      exact ⟨_, rfl, fun _ isMember =>
        Or.inl (List.mem_singleton.1 isMember)⟩
  | string _ =>
      exact ⟨_, rfl, fun _ isMember =>
        Or.inl (List.mem_singleton.1 isMember)⟩
  | array _ =>
      exact ⟨_, rfl, fun _ isMember =>
        Or.inl (List.mem_singleton.1 isMember)⟩

theorem Json.Utf8.assign
    {json value : Json} {key : Bytes}
    (utf8 : json.Utf8)
    (keyUtf8 : IsUtf8 key)
    (valueUtf8 : value.Utf8) :
    (json.assign key value).Utf8 := by
  rcases exists_members_assign json key value with ⟨members, same, known⟩
  rw [same]
  apply Json.Utf8.object
  · intro member isMember
    rcases known member isMember with rfl | ⟨old, rfl, isOld⟩
    · exact keyUtf8
    · cases utf8 with
      | object keys values => exact keys member isOld
  · intro member isMember
    rcases known member isMember with rfl | ⟨old, rfl, isOld⟩
    · exact valueUtf8
    · cases utf8 with
      | object keys values => exact values member isOld

/-- An assignment keeps the keys in their order. -/
theorem pairwise_assignMember
    {members : List (Bytes × Json)}
    (ascending : (members.map Prod.fst).Pairwise (· < ·))
    (key : Bytes) (value : Json) :
    ((Json.assignMember key value members).map Prod.fst).Pairwise
      (· < ·) := by
  induction members with
  | nil => exact List.pairwise_singleton _ _
  | cons first rest inductionHypothesis =>
      rcases first with ⟨name, old⟩
      rw [List.map_cons, List.pairwise_cons] at ascending
      rw [Json.assignMember]
      split_ifs with same before
      · subst same
        exact List.pairwise_cons.2 ascending
      · rw [List.map_cons, List.map_cons, List.pairwise_cons,
          List.forall_mem_cons]
        refine ⟨⟨before, ?_⟩, List.pairwise_cons.2 ascending⟩
        intro other isLater
        exact List.lt_trans before (ascending.1 other isLater)
      · have after : name < key :=
          (List.le_iff_lt_or_eq.1 (List.not_lt.1 before)).resolve_right
            (Ne.symm same)
        rw [List.map_cons, List.pairwise_cons]
        refine ⟨?_, inductionHypothesis ascending.2⟩
        intro other isLater
        rcases List.mem_map.1 isLater with ⟨member, isMember, rfl⟩
        rcases mem_assignMember isMember with rfl | isOld
        · exact after
        · exact ascending.1 _ (List.mem_map_of_mem isOld)

theorem Json.Ordered.assign
    {json value : Json}
    (ordered : json.Ordered)
    (key : Bytes)
    (valueOrdered : value.Ordered) :
    (json.assign key value).Ordered := by
  have single : (Json.object [(key, value)]).Ordered :=
    .object (List.pairwise_singleton _ _) (by simpa using valueOrdered)
  cases ordered with
  | @object members ascending values =>
      apply Json.Ordered.object (pairwise_assignMember ascending key value)
      intro member isMember
      rcases mem_assignMember isMember with rfl | isOld
      · exact valueOrdered
      · exact values member isOld
  | null => exact single
  | boolean _ => exact single
  | unsigned _ => exact single
  | integer _ => exact single
  | float _ => exact single
  | string _ => exact single
  | array _ => exact single

/-- Whatever is in the object is plain. -/
def Json.AllPlain (json : Json) : Prop :=
  ∀ members, json = .object members →
    ∀ member ∈ members, member.2.isPlain = true

/-- Invalid strings are not printed, and nothing is not a value. -/
structure JsonLibrary.StrictContract (library : JsonLibrary) : Prop extends
    RoundTripContract library where
  utf8_of_dump :
    ∀ {members text}, (Json.object members).AllPlain →
      library.dump (.object members) = .ok text →
      (Json.object members).Utf8
  nothing : ∀ json, library.parse [] ≠ .ok json

theorem Json.AllPlain.assign
    {json value : Json}
    (allPlain : json.AllPlain)
    (key : Bytes)
    (isPlain : value.isPlain = true) :
    (json.assign key value).AllPlain := by
  rcases exists_members_assign json key value with ⟨members, same, known⟩
  rw [same]
  rintro _ ⟨⟩ member isMember
  rcases known member isMember with rfl | ⟨old, rfl, isOld⟩
  · exact isPlain
  · exact allPlain old rfl member isOld

theorem lookup_of_reread
    {members others : List (Bytes × Json)} {key : Bytes} {value : Json}
    (related : List.Forall₂ RereadMember members others)
    (found : members.lookup key = some value)
    (isPlain : value.isPlain = true) :
    others.lookup key = some value := by
  induction related with
  | nil => cases found
  | @cons member other _ _ both _ inductionHypothesis =>
      rcases member with ⟨name, old⟩
      rcases other with ⟨otherName, new⟩
      rcases both with ⟨sameName, sameValue⟩
      dsimp only at sameName sameValue
      rw [sameName]
      rw [lookup_member] at found ⊢
      split_ifs at found ⊢
      · cases found
        rw [sameValue isPlain]
      · exact inductionHypothesis found

/-- A plain member is read back as it was. -/
theorem Json.Reread.find
    {json again value : Json} {key : Bytes}
    (reread : json.Reread again)
    (found : json.find key = some value)
    (isPlain : value.isPlain = true) :
    again.find key = some value := by
  cases json with
  | object members =>
      rcases reread members rfl with ⟨others, rfl, related⟩
      exact lookup_of_reread related found isPlain
  | null => cases found
  | boolean _ => cases found
  | unsigned _ => cases found
  | integer _ => cases found
  | float _ => cases found
  | string _ => cases found
  | array _ => cases found

/-- An object of plain values is read back as it was. -/
theorem Json.Reread.eq
    {members : List (Bytes × Json)} {again : Json}
    (reread : (Json.object members).Reread again)
    (allPlain : (Json.object members).AllPlain) :
    again = .object members := by
  have plain := allPlain members rfl
  rcases reread members rfl with ⟨others, rfl, related⟩
  congr 1
  clear reread allPlain
  induction related with
  | nil => rfl
  | cons both _ inductionHypothesis =>
      rw [List.forall_mem_cons] at plain
      rw [inductionHypothesis plain.2,
        Prod.ext both.1 (both.2 plain.1)]

end DropFile.JsonObjects
