import DropFile.JsonObjects
import Mathlib.Data.Nat.Digits.Lemmas

/-!
# A library for flat objects

A printer and a parser that satisfy what is assumed of `nlohmann::json`.  They
know objects whose members are strings, booleans and unsigned numbers; every
other member becomes a null.  Messages of the program look as they do with the
real library, as long as their strings hold no control characters.
-/

namespace DropFile.FlatJson

open DropFile.General.Utf8
open DropFile.Streams
open DropFile.JsonObjects

/-! ## Strings -/

def escape (byte : UInt8) : Bytes :=
  if byte = 34 ∨ byte = 92 then [92, byte] else [byte]

def quote (text : Bytes) : Bytes :=
  34 :: (text.flatMap escape ++ [34])

/-- The string up to its closing quotation mark, and what follows. -/
def unquote : (escaped : Bool) → Bytes → Option (Bytes × Bytes)
  | _, [] => none
  | true, byte :: rest =>
      (unquote false rest).map fun (text, rest) => (byte :: text, rest)
  | false, byte :: rest =>
      if byte = 34 then
        some ([], rest)
      else if byte = 92 then
        unquote true rest
      else
        (unquote false rest).map fun (text, rest) => (byte :: text, rest)

theorem unquote_escape (byte : UInt8) (rest : Bytes) :
    unquote false (escape byte ++ rest) =
      (unquote false rest).map fun (text, rest) =>
        (byte :: text, rest) := by
  rw [escape]
  split_ifs with special
  · rfl
  · rw [not_or] at special
    rw [List.singleton_append, unquote, if_neg special.1,
      if_neg special.2]

theorem unquote_quote (text rest : Bytes) :
    unquote false (text.flatMap escape ++ 34 :: rest) =
      some (text, rest) := by
  induction text with
  | nil => rfl
  | cons byte text inductionHypothesis =>
      rw [List.flatMap_cons, List.append_assoc, unquote_escape,
        inductionHypothesis]
      rfl

/-! ## Numbers -/

def digit (value : Nat) : UInt8 :=
  UInt8.ofNat (48 + value)

def isDigit (byte : UInt8) : Bool :=
  48 ≤ byte && byte ≤ 57

def printNumber (value : Nat) : Bytes :=
  if value = 0 then [48] else ((Nat.digits 10 value).map digit).reverse

def readNumber (text : Bytes) : Nat :=
  Nat.ofDigits 10 (text.reverse.map fun byte => byte.toNat - 48)

theorem digit_spec :
    ∀ value < 10, isDigit (digit value) = true ∧
      (digit value).toNat - 48 = value := by
  decide

theorem isDigit_printNumber (value : Nat) :
    ∀ byte ∈ printNumber value, isDigit byte = true := by
  intro byte member
  rw [printNumber] at member
  split_ifs at member
  · rw [List.mem_singleton.1 member]
    rfl
  · rw [List.mem_reverse, List.mem_map] at member
    rcases member with ⟨place, isPlace, rfl⟩
    exact (digit_spec place (Nat.digits_lt_base (by decide) isPlace)).1

theorem readNumber_printNumber (value : Nat) :
    readNumber (printNumber value) = value := by
  rw [readNumber, printNumber]
  split_ifs with zero
  · rw [zero]
    rfl
  · rw [List.reverse_reverse, List.map_map]
    have same : (Nat.digits 10 value).map
        ((fun byte : UInt8 => byte.toNat - 48) ∘ digit) =
          Nat.digits 10 value := by
      conv_rhs => rw [← List.map_id (Nat.digits 10 value)]
      apply List.map_congr_left
      intro place isPlace
      exact (digit_spec place (Nat.digits_lt_base (by decide) isPlace)).2
    rw [same, Nat.ofDigits_digits]

/-! ## Values -/

def printValue : Json → Bytes
  | .string value => quote value
  | .unsigned value => printNumber value.toNat
  | .boolean true => ascii "true"
  | .boolean false => ascii "false"
  | _ => ascii "null"

def parseNumber (text : Bytes) : Option (Json × Bytes) :=
  let digits := text.takeWhile isDigit
  if digits ≠ [] ∧ readNumber digits < sizeModulus then
    some (.unsigned (UInt64.ofNat (readNumber digits)),
      text.dropWhile isDigit)
  else
    none

/-- A value and what follows it. -/
def parseValue (text : Bytes) : Option (Json × Bytes) :=
  match text with
  | [] => none
  | first :: rest =>
      if first = 34 then
        (unquote false rest).map fun (value, rest) => (.string value, rest)
      else if first = 116 then
        some (.boolean true, rest.drop 3)
      else if first = 102 then
        some (.boolean false, rest.drop 4)
      else if first = 110 then
        some (.null, rest.drop 3)
      else
        parseNumber text

/-- A value as the printer shows it. -/
def flattened (json : Json) : Json :=
  if json.isPlain then json else .null

theorem printNumber_ne_nil (value : Nat) : printNumber value ≠ [] := by
  intro none
  have same := readNumber_printNumber value
  rw [none] at same
  rw [printNumber, ← same] at none
  cases none

theorem parseNumber_printNumber
    (value : UInt64) {next : UInt8} (rest : Bytes)
    (ends : isDigit next = false) :
    parseNumber (printNumber value.toNat ++ next :: rest) =
      some (.unsigned value, next :: rest) := by
  have digits := isDigit_printNumber value.toNat
  have taken : (printNumber value.toNat ++ next :: rest).takeWhile
      isDigit = printNumber value.toNat := by
    rw [List.takeWhile_append_of_pos digits, List.takeWhile_cons_of_neg
      (by simp [ends]), List.append_nil]
  have dropped : (printNumber value.toNat ++ next :: rest).dropWhile
      isDigit = next :: rest := by
    rw [List.dropWhile_append_of_pos digits, List.dropWhile_cons_of_neg
      (by simp [ends])]
  have fits : value.toNat < sizeModulus := value.toNat_lt
  rw [parseNumber, taken, dropped, readNumber_printNumber,
    if_pos ⟨printNumber_ne_nil _, fits⟩, UInt64.ofNat_toNat]

theorem parseValue_digit
    {first : UInt8} (rest : Bytes)
    (startsNumber : isDigit first = true) :
    parseValue (first :: rest) = parseNumber (first :: rest) := by
  have different (other : UInt8) (noDigit : isDigit other = false) :
      first ≠ other := by
    intro same
    rw [same, noDigit] at startsNumber
    cases startsNumber
  rw [parseValue, if_neg (different 34 rfl), if_neg (different 116 rfl),
    if_neg (different 102 rfl), if_neg (different 110 rfl)]

theorem parseValue_printValue
    (json : Json) {next : UInt8} (rest : Bytes)
    (ends : isDigit next = false) :
    parseValue (printValue json ++ next :: rest) =
      some (flattened json, next :: rest) := by
  cases json with
  | string value =>
      rw [printValue, quote, List.cons_append, parseValue, if_pos rfl,
        List.append_assoc, List.singleton_append, unquote_quote]
      rfl
  | unsigned value =>
      have parsed := parseNumber_printNumber value rest ends
      rcases List.exists_cons_of_ne_nil (printNumber_ne_nil value.toNat)
        with ⟨first, more, split⟩
      have startsNumber : isDigit first = true := by
        apply isDigit_printNumber value.toNat
        rw [split]
        exact List.mem_cons_self
      rw [split, List.cons_append] at parsed
      rw [printValue, split, List.cons_append,
        parseValue_digit _ startsNumber, parsed]
      rfl
  | boolean value => cases value <;> rfl
  | null => rfl
  | integer _ => rfl
  | float _ => rfl
  | array _ => rfl
  | object _ => rfl

/-! ## Objects -/

def printMember (member : Bytes × Json) : Bytes :=
  quote member.1 ++ 58 :: printValue member.2

/-- The members and the closing bracket. -/
def printMembers : List (Bytes × Json) → Bytes
  | [] => [125]
  | [member] => printMember member ++ [125]
  | member :: rest => printMember member ++ 44 :: printMembers rest

/-- A member and what follows it. -/
def parseMember (text : Bytes) : Option ((Bytes × Json) × Bytes) := do
  let (key, rest) ← unquote false (text.drop 1)
  let (value, rest) ← parseValue (rest.drop 1)
  pure ((key, value), rest)

/-- Every member takes more than one byte, so the length bounds them. -/
def parseMembers : (count : Nat) → Bytes → Option (List (Bytes × Json))
  | 0, _ => none
  | count + 1, text => do
      let (member, rest) ← parseMember text
      match rest with
      | [] => none
      | next :: rest =>
          if next = 44 then
            let members ← parseMembers count rest
            pure (member :: members)
          else if next = 125 ∧ rest = [] then
            pure [member]
          else
            none

def flattenedMember (member : Bytes × Json) : Bytes × Json :=
  (member.1, flattened member.2)

theorem parseMember_printMember
    (member : Bytes × Json) {next : UInt8} (rest : Bytes)
    (ends : isDigit next = false) :
    parseMember (printMember member ++ next :: rest) =
      some (flattenedMember member, next :: rest) := by
  have keyRead : unquote false
      ((printMember member ++ next :: rest).drop 1) =
        some (member.1, 58 :: (printValue member.2 ++ next :: rest)) := by
    rw [printMember, quote, List.cons_append, List.cons_append,
      List.drop_succ_cons, List.drop_zero, List.append_assoc,
      List.append_assoc, List.singleton_append]
    exact unquote_quote _ _
  rw [parseMember, keyRead]
  show (do
    let (value, rest) ← parseValue (printValue member.2 ++ next :: rest)
    pure ((member.1, value), rest)) = _
  rw [parseValue_printValue member.2 rest ends]
  rfl

theorem parseMembers_printMembers
    (members : List (Bytes × Json)) {count : Nat}
    (some : members ≠ [])
    (enough : members.length ≤ count) :
    parseMembers count (printMembers members) =
      .some (members.map flattenedMember) := by
  induction members generalizing count with
  | nil => exact absurd rfl some
  | cons member rest inductionHypothesis =>
      cases count with
      | zero => cases enough
      | succ count =>
          cases rest with
          | nil =>
              rw [printMembers, parseMembers,
                parseMember_printMember member [] rfl]
              rfl
          | cons second others =>
              have later := inductionHypothesis (List.cons_ne_nil _ _)
                (Nat.le_of_succ_le_succ enough)
              rw [printMembers, parseMembers,
                parseMember_printMember member _ rfl]
              · show (do
                  let members ← parseMembers count
                    (printMembers (second :: others))
                  pure (flattenedMember member :: members)) = _
                rw [later]
                rfl
              · exact fun nothing => List.cons_ne_nil _ _ nothing

theorem length_le_printMembers (members : List (Bytes × Json)) :
    members.length ≤ (printMembers members).length := by
  induction members with
  | nil => exact Nat.zero_le _
  | cons member rest inductionHypothesis =>
      cases rest with
      | nil =>
          rw [printMembers, List.length_append]
          exact Nat.le_add_left _ _
      | cons second others =>
          rw [printMembers, List.length_append, List.length_cons,
            List.length_cons (a := 44)]
          · omega
          · exact fun nothing => List.cons_ne_nil _ _ nothing

def printObject (members : List (Bytes × Json)) : Bytes :=
  123 :: printMembers members

def parseObject (text : Bytes) : Option (List (Bytes × Json)) :=
  if text = [123, 125] then some []
  else parseMembers text.length (text.drop 1)

theorem printMembers_ne
    {members : List (Bytes × Json)}
    (some : members ≠ []) :
    printMembers members ≠ [125] := by
  intro same
  rcases List.exists_cons_of_ne_nil some with ⟨member, rest, rfl⟩
  cases rest with
  | nil => cases same
  | cons second others =>
      rw [printMembers] at same
      · cases same
      · exact fun nothing => List.cons_ne_nil _ _ nothing

theorem parseObject_printObject (members : List (Bytes × Json)) :
    parseObject (printObject members) =
      some (members.map flattenedMember) := by
  by_cases none : members = []
  · subst none
    rfl
  · have different : printObject members ≠ [123, 125] := by
      intro same
      exact printMembers_ne none (List.cons.inj same).2
    have enough := length_le_printMembers members
    rw [parseObject, if_neg different]
    exact parseMembers_printMembers members none
      (Nat.le_succ_of_le enough)

/-! ## The library -/

/-- A flat value with valid strings. -/
def isValid : Json → Bool
  | .null => true
  | .boolean _ => true
  | .unsigned _ => true
  | .string value => decide (IsUtf8 value)
  | _ => false

def isValidMember (member : Bytes × Json) : Bool :=
  decide (IsUtf8 member.1) && isValid member.2

def assignAll (json : Json) (members : List (Bytes × Json)) : Json :=
  members.foldl (fun json member => json.assign member.1 member.2) json

/-- The object with these members, the last one of each key. -/
def collect (members : List (Bytes × Json)) : Json :=
  assignAll (.object []) members

def flatLibrary : JsonLibrary where
  parse text :=
    if text = ascii "null" then
      .ok .null
    else
      match parseObject text with
      | none => .error (ascii "parse error")
      | some members =>
          if members.all isValidMember then .ok (collect members)
          else .error (ascii "parse error: ill-formed UTF-8 byte")
  dump json :=
    match json with
    | .object members =>
        if (members.map flattenedMember).all isValidMember then
          .ok (printObject members)
        else
          .error (ascii "invalid UTF-8 byte")
    | _ => .ok (ascii "null")
  sizeOfFloat _ := 0
  typeError expected _ := ascii ("type must be " ++ expected)

theorem utf8_of_isValid
    {json : Json}
    (valid : isValid json = true) :
    json.Utf8 := by
  cases json with
  | null => exact .null
  | boolean value => exact .boolean value
  | unsigned value => exact .unsigned value
  | string value => exact .string (of_decide_eq_true valid)
  | integer _ => cases valid
  | float _ => cases valid
  | array _ => cases valid
  | object _ => cases valid

theorem isValid_flattened
    {json : Json}
    (utf8 : json.Utf8) :
    isValid (flattened json) = true := by
  cases utf8 with
  | string isUtf8 => exact decide_eq_true isUtf8
  | null => rfl
  | boolean _ => rfl
  | unsigned _ => rfl
  | integer _ => rfl
  | float _ => rfl
  | array _ => rfl
  | object _ _ => rfl

theorem all_isValid_of_utf8
    {members : List (Bytes × Json)}
    (utf8 : (Json.object members).Utf8) :
    (members.map flattenedMember).all isValidMember = true := by
  rw [List.all_eq_true]
  intro member isMember
  rcases List.mem_map.1 isMember with ⟨original, isOriginal, rfl⟩
  cases utf8 with
  | object keys values =>
      rw [isValidMember, Bool.and_eq_true]
      exact ⟨decide_eq_true (keys original isOriginal),
        isValid_flattened (values original isOriginal)⟩

theorem rereadMember_flattenedMember (member : Bytes × Json) :
    RereadMember member (flattenedMember member) :=
  ⟨rfl, fun isPlain => if_pos isPlain⟩

/-- What every assignment keeps, the collected object has. -/
theorem collect_induction
    {property : Json → Prop} {members : List (Bytes × Json)}
    (empty : property (.object []))
    (assigned : ∀ json, property json → ∀ member ∈ members,
      property (json.assign member.1 member.2)) :
    property (collect members) := by
  rw [collect]
  generalize Json.object [] = start at empty
  induction members generalizing start with
  | nil => exact empty
  | cons member rest inductionHypothesis =>
      rw [assignAll, List.foldl_cons]
      apply inductionHypothesis
      · intro json holds other isLater
        exact assigned json holds other (List.mem_cons_of_mem _ isLater)
      · exact assigned start empty member List.mem_cons_self

theorem assignMember_append
    {members : List (Bytes × Json)} {key : Bytes}
    (after : ∀ member ∈ members, member.1 < key)
    (value : Json) :
    Json.assignMember key value members = members ++ [(key, value)] := by
  induction members with
  | nil => rfl
  | cons first rest inductionHypothesis =>
      rw [List.forall_mem_cons] at after
      have different : key ≠ first.1 := by
        rintro rfl
        exact List.lt_irrefl _ after.1
      rw [Json.assignMember, if_neg different,
        if_neg (List.lt_asymm after.1), inductionHypothesis after.2,
        List.cons_append]

/-- Members whose keys ascend are an object already. -/
theorem collect_of_ascending
    {members : List (Bytes × Json)}
    (ascending : (members.map Prod.fst).Pairwise (· < ·)) :
    collect members = .object members := by
  have collects : ∀ before rest : List (Bytes × Json),
      ((before ++ rest).map Prod.fst).Pairwise (· < ·) →
      assignAll (.object before) rest = .object (before ++ rest) := by
    intro before rest
    induction rest generalizing before with
    | nil =>
        intro _
        rw [List.append_nil]
        rfl
    | cons member rest inductionHypothesis =>
        intro ordered
        have after : ∀ earlier ∈ before, earlier.1 < member.1 := by
          rw [List.map_append, List.pairwise_append] at ordered
          intro earlier isBefore
          exact ordered.2.2 _ (List.mem_map_of_mem isBefore) _
            List.mem_cons_self
        rw [List.append_cons] at ordered
        rw [assignAll, List.foldl_cons, Json.assign,
          assignMember_append after]
        exact (inductionHypothesis _ ordered).trans
          (by rw [List.append_cons before member rest])
  exact collects [] members ascending

theorem utf8_of_parse
    {text : Bytes} {json : Json}
    (parsed : flatLibrary.parse text = .ok json) :
    json.Utf8 := by
  rw [flatLibrary] at parsed
  dsimp only at parsed
  split_ifs at parsed
  · cases parsed
    exact .null
  · cases members : parseObject text with
    | none =>
        rw [members] at parsed
        cases parsed
    | some members =>
        rw [members] at parsed
        dsimp only at parsed
        split_ifs at parsed with valid
        cases parsed
        rw [List.all_eq_true] at valid
        apply collect_induction
        · exact .object (by simp) (by simp)
        · intro json utf8 member isMember
          have both := valid member isMember
          rw [isValidMember, Bool.and_eq_true] at both
          exact utf8.assign (of_decide_eq_true both.1)
            (utf8_of_isValid both.2)

theorem ordered_of_isValid
    {json : Json}
    (valid : isValid json = true) :
    json.Ordered := by
  cases json with
  | null => exact .null
  | boolean value => exact .boolean value
  | unsigned value => exact .unsigned value
  | string value => exact .string value
  | integer _ => cases valid
  | float _ => cases valid
  | array _ => cases valid
  | object _ => cases valid

theorem ordered_of_parse
    {text : Bytes} {json : Json}
    (parsed : flatLibrary.parse text = .ok json) :
    json.Ordered := by
  rw [flatLibrary] at parsed
  dsimp only at parsed
  split_ifs at parsed
  · cases parsed
    exact .null
  · cases members : parseObject text with
    | none =>
        rw [members] at parsed
        cases parsed
    | some members =>
        rw [members] at parsed
        dsimp only at parsed
        split_ifs at parsed with valid
        cases parsed
        rw [List.all_eq_true] at valid
        apply collect_induction
        · exact .object List.Pairwise.nil (by simp)
        · intro json ordered member isMember
          have both := valid member isMember
          rw [isValidMember, Bool.and_eq_true] at both
          exact ordered.assign member.1 (ordered_of_isValid both.2)

theorem parse_printObject
    {members : List (Bytes × Json)}
    (ascending : (members.map Prod.fst).Pairwise (· < ·))
    (valid : (members.map flattenedMember).all isValidMember = true) :
    flatLibrary.parse (printObject members) =
      .ok (.object (members.map flattenedMember)) := by
  have different : printObject members ≠ ascii "null" := by
    intro same
    exact absurd (List.cons.inj same).1 (by decide)
  rw [flatLibrary]
  dsimp only
  rw [if_neg different, parseObject_printObject]
  dsimp only
  rw [if_pos valid, collect_of_ascending]
  rw [List.map_map]
  exact ascending

theorem reread_flattened (members : List (Bytes × Json)) :
    (Json.object members).Reread
      (.object (members.map flattenedMember)) := by
  rintro _ ⟨⟩
  refine ⟨_, rfl, ?_⟩
  rw [List.forall₂_map_right_iff, List.forall₂_same]
  intro member isMember
  exact rereadMember_flattenedMember member

/-- The library keeps what is assumed of the real one. -/
theorem flatLibrary_contract : flatLibrary.RoundTripContract where
  utf8_of_parse := utf8_of_parse
  dumps := by
    intro json utf8
    cases json with
    | object members =>
        exact ⟨_, if_pos (all_isValid_of_utf8 utf8)⟩
    | null => exact ⟨_, rfl⟩
    | boolean _ => exact ⟨_, rfl⟩
    | unsigned _ => exact ⟨_, rfl⟩
    | integer _ => exact ⟨_, rfl⟩
    | float _ => exact ⟨_, rfl⟩
    | string _ => exact ⟨_, rfl⟩
    | array _ => exact ⟨_, rfl⟩
  ordered_of_parse := ordered_of_parse
  parses := by
    intro json text ordered utf8 dumped
    cases json with
    | object members =>
        have valid := all_isValid_of_utf8 utf8
        have ascending : (members.map Prod.fst).Pairwise (· < ·) := by
          cases ordered with
          | object ascending _ => exact ascending
        have printed : flatLibrary.dump (.object members) =
            .ok (printObject members) :=
          if_pos valid
        cases dumped.symm.trans printed
        exact ⟨_, parse_printObject ascending valid,
          reread_flattened members⟩
    | null =>
        cases dumped
        exact ⟨.null, rfl, fun _ impossible => by cases impossible⟩
    | boolean _ =>
        cases dumped
        exact ⟨.null, rfl, fun _ impossible => by cases impossible⟩
    | unsigned _ =>
        cases dumped
        exact ⟨.null, rfl, fun _ impossible => by cases impossible⟩
    | integer _ =>
        cases dumped
        exact ⟨.null, rfl, fun _ impossible => by cases impossible⟩
    | float _ =>
        cases dumped
        exact ⟨.null, rfl, fun _ impossible => by cases impossible⟩
    | string _ =>
        cases dumped
        exact ⟨.null, rfl, fun _ impossible => by cases impossible⟩
    | array _ =>
        cases dumped
        exact ⟨.null, rfl, fun _ impossible => by cases impossible⟩

theorem utf8_of_all_isValid
    {members : List (Bytes × Json)}
    (allPlain : (Json.object members).AllPlain)
    (valid : (members.map flattenedMember).all isValidMember = true) :
    (Json.object members).Utf8 := by
  rw [List.all_eq_true] at valid
  have both (member : Bytes × Json) (isMember : member ∈ members) :
      IsUtf8 member.1 ∧ member.2.Utf8 := by
    have isValid :=
      valid (flattenedMember member) (List.mem_map_of_mem isMember)
    have plain := allPlain members rfl member isMember
    rw [isValidMember, flattenedMember, flattened, if_pos plain,
      Bool.and_eq_true] at isValid
    exact ⟨of_decide_eq_true isValid.1, utf8_of_isValid isValid.2⟩
  exact .object (fun member isMember => (both member isMember).1)
    fun member isMember => (both member isMember).2

theorem flatLibrary_strict : flatLibrary.StrictContract where
  toRoundTripContract := flatLibrary_contract
  utf8_of_dump := by
    intro members text allPlain dumped
    rw [flatLibrary] at dumped
    dsimp only at dumped
    split_ifs at dumped with valid
    exact utf8_of_all_isValid allPlain valid
  nothing := by
    intro json parsed
    cases parsed

/-- What the library prints. -/
def flatText (json : Json) : Bytes :=
  (flatLibrary.dump json).toOption.getD []

end DropFile.FlatJson
