import AgentTelepathy.Foundation.GoJson

/-!
# Plain data in Go

The values that `json.Marshal` takes apart by reflection: scalars, slices, maps,
structs with their field tags, and pointers. Strings are bytes, and what is not UTF-8
in them is replaced. What is read into an `interface{}` is such a value again, and
writing it by reflection is writing it as a generic value.
-/

namespace Foundation

namespace GoJson

/-- The field of a struct, by its tag `json:"name,omitempty"`. -/
structure Field where
  name : String
  omitEmpty : Bool
deriving DecidableEq

/-- A value of plain data. Nil pointers, slices, maps and interfaces are `nil`; a
`float32` is given by the decimal that is written for it, if it is finite. -/
inductive GoValue where
  | nil
  | bool (b : Bool)
  | int (n : ℤ)
  | float64 (x : Float64)
  | float32 (decimal : Option Decimal)
  | string (s : Bytes)
  | byteSlice (data : Bytes)
  | slice (items : List GoValue)
  | map (members : List (Bytes × GoValue))
  | struct (fields : List (Field × GoValue))
  | pointer (v : GoValue)

/-! ### Strings -/

/-- The runes from a byte on, of which so many belong to the last rune. -/
def runesFrom : ℕ → Bytes → List Char
  | _, [] => []
  | k + 1, _ :: bs => runesFrom k bs
  | 0, b :: bs =>
    match (b :: bs).toByteArray.utf8DecodeChar? 0 with
    | some c => c :: runesFrom (c.utf8Size - 1) bs
    | none => '\ufffd' :: runesFrom 0 bs

/-- `for _, r := range s`; a byte of no rune is U+FFFD. -/
def runes (s : Bytes) : List Char := runesFrom 0 s

theorem runesFrom_append (front : Bytes) (bs : Bytes) :
    runesFrom front.length (front ++ bs) = runesFrom 0 bs := by
  induction front with
  | nil => rfl
  | cons b front ih => rw [List.length_cons, List.cons_append, runesFrom, ih]

theorem runes_bytes (cs : List Char) : runes (bytes cs) = cs := by
  induction cs with
  | nil => rfl
  | cons c cs ih =>
    rw [bytes, List.flatMap_cons, runes]
    have decoded :
        (String.utf8EncodeChar c ++ bytes cs).toByteArray.utf8DecodeChar? 0 = some c := by
      rw [List.toByteArray_append]
      exact ByteArray.utf8DecodeChar?_utf8EncodeChar_append
    obtain ⟨b, front, encoded⟩ := List.exists_cons_of_length_pos
      (show 0 < (String.utf8EncodeChar c).length by
        rw [String.length_utf8EncodeChar]
        exact c.utf8Size_pos)
    have size : c.utf8Size - 1 = front.length := by
      rw [← String.length_utf8EncodeChar, encoded, List.length_cons, Nat.add_sub_cancel]
    rw [encoded] at decoded ⊢
    rw [List.cons_append] at decoded ⊢
    change runesFrom 0 (b :: (front ++ bytes cs)) = _
    rw [runesFrom, decoded]
    dsimp only
    rw [size, runesFrom_append]
    exact congrArg (c :: ·) ih

/-- The units that are written for a string. -/
def stringUnits (s : Bytes) : List UInt16 := units (String.ofList (runes s))

theorem stringUnits_bytes (s : String) : stringUnits (bytes s.toList) = units s := by
  rw [stringUnits, runes_bytes, String.ofList_toList]

/-! ### Writing -/

/-- `isEmptyValue`, by which `omitempty` leaves a field out. -/
def isEmptyValue : GoValue → Bool
  | .nil => true
  | .bool b => !b
  | .int n => n = 0
  | .float64 x => x = Float64.zero false ∨ x = Float64.zero true
  | .float32 d => d.any fun d => d.digits = 0
  | .string s => s.isEmpty
  | .byteSlice data => data.isEmpty
  | .slice items => items.isEmpty
  | .map members => members.isEmpty
  | .struct _ | .pointer _ => false

mutual

/-- `json.Marshal(v)`; nothing for numbers that are not finite. -/
def marshalValue : GoValue → Option Document
  | .nil => some .null
  | .bool b => some (.bool b)
  | .int n => some (.num ⟨decide (n < 0), n.natAbs, 0⟩)
  | .float64 (.finite b) => some (.num (Decimal.shortest b))
  | .float64 _ => none
  | .float32 d => d.map .num
  | .string s => some (.str (stringUnits s))
  | .byteSlice data => some (.str (units (Base64.encode data)))
  | .slice items => (marshalItems items).map .arr
  | .map members => (marshalMembers members).map fun encoded =>
    -- `slices.SortFunc(sv, func(i, j) { return strings.Compare(i.ks, j.ks) })`
    .obj ((encoded.insertionSort fun p q => p.1.map UInt8.toNat ≤ q.1.map UInt8.toNat).map
      fun p => (stringUnits p.1, p.2))
  | .struct fields => (marshalFields fields).map .obj
  | .pointer v => marshalValue v

/-- `json.Marshal` of every item. -/
def marshalItems : List GoValue → Option (List Document)
  | [] => some []
  | v :: l => (marshalValue v).bind fun v => (marshalItems l).map (v :: ·)

/-- `json.Marshal` of every value of a map. -/
def marshalMembers : List (Bytes × GoValue) → Option (List (Bytes × Document))
  | [] => some []
  | (k, v) :: l => (marshalValue v).bind fun v => (marshalMembers l).map ((k, v) :: ·)

/-- `json.Marshal` of every field that is not left out. -/
def marshalFields : List (Field × GoValue) → Option (List (List UInt16 × Document))
  | [] => some []
  | (field, v) :: l =>
    if field.omitEmpty && isEmptyValue v then marshalFields l
    else (marshalValue v).bind fun v => (marshalFields l).map ((units field.name, v) :: ·)

end

mutual

/-- A generic value by its dynamic types. -/
def ofGeneric : Generic → GoValue
  | .null => .nil
  | .bool b => .bool b
  | .num x => .float64 (.finite x)
  | .str s => .string (bytes s.toList)
  | .arr l => .slice (ofGenericItems l)
  | .obj l => .map (ofGenericMembers l)

/-- The items of an `[]interface{}`. -/
def ofGenericItems : List Generic → List GoValue
  | [] => []
  | v :: l => ofGeneric v :: ofGenericItems l

/-- The members of a `map[string]interface{}`. -/
def ofGenericMembers : List (String × Generic) → List (Bytes × GoValue)
  | [] => []
  | (k, v) :: l => (bytes k.toList, ofGeneric v) :: ofGenericMembers l

end

/-- The encoded members of a generic map, in the order of their keys. -/
theorem sort_encoded (l : List (String × Generic)) :
    ((l.map fun p => (bytes p.1.toList, marshal p.2)).insertionSort
      fun p q => p.1.map UInt8.toNat ≤ q.1.map UInt8.toNat).map (fun p => (stringUnits p.1, p.2)) =
    JsonTree.relabelMembers Decimal.shortest units
      (JsonTree.byCode CodeUnits.utf8.code (JsonTree.sortMembers CodeUnits.utf8.code l)) := by
  have order (s : String) : (bytes s.toList).map UInt8.toNat = CodeUnits.utf8.code s := by
    rw [← code_utf8_ofList, String.ofList_toList]
  rw [JsonTree.relabelMembers_eq_map, JsonTree.sortMembers_eq_map, JsonTree.byCode_map,
    JsonTree.byCode, List.map_map, ← List.map_insertionSort (fun p q : String × Generic =>
      CodeUnits.utf8.code p.1 ≤ CodeUnits.utf8.code q.1) _ _ l
      fun p _ q _ => (by simp only [order]), List.map_map]
  refine List.map_congr_left fun p _ => ?_
  simp only [Function.comp_apply, stringUnits_bytes]
  rfl

mutual

/-- By reflection a generic value is written as such. -/
theorem marshalValue_ofGeneric : ∀ v : Generic, marshalValue (ofGeneric v) = some (marshal v)
  | .null | .bool _ | .num _ => rfl
  | .str s => congrArg (fun us => some (JsonTree.str us)) (stringUnits_bytes s)
  | .arr l => by
    rw [ofGeneric, marshalValue, marshalItems_ofGenericItems l]
    rfl
  | .obj l => by
    rw [ofGeneric, marshalValue, marshalMembers_ofGenericMembers l, Option.map_some, sort_encoded]
    rfl

theorem marshalItems_ofGenericItems : ∀ l : List Generic, marshalItems (ofGenericItems l) =
    some (JsonTree.relabelItems Decimal.shortest units (JsonTree.sortItems CodeUnits.utf8.code l))
  | [] => rfl
  | v :: l => by
    rw [ofGenericItems, marshalItems, marshalValue_ofGeneric v, marshalItems_ofGenericItems l]
    rfl

theorem marshalMembers_ofGenericMembers : ∀ l : List (String × Generic),
    marshalMembers (ofGenericMembers l) = some (l.map fun p => (bytes p.1.toList, marshal p.2))
  | [] => rfl
  | (k, v) :: l => by
    rw [ofGenericMembers, marshalMembers, marshalValue_ofGeneric v,
      marshalMembers_ofGenericMembers l]
    rfl

end

end GoJson

end Foundation
