import AgentTelepathy.Foundation.Base64
import AgentTelepathy.Foundation.Dialect
import AgentTelepathy.Foundation.Dict

/-!
# Writers that loop over sorted keys

An encoder that writes bytes sorts the keys of an object, looks up the value of each,
and writes a comma after every member but the last. What it writes is the text of the
sorted value in UTF-8.
-/

namespace Foundation

open JsonText

/-- Text in UTF-8. -/
def bytes (cs : List Char) : Bytes := cs.flatMap String.utf8EncodeChar

theorem code_utf8_ofList (cs : List Char) :
    CodeUnits.utf8.code (String.ofList cs) = (bytes cs).map UInt8.toNat := by
  rw [CodeUnits.code, String.toList_ofList, bytes, List.map_flatMap]
  rfl

theorem bytes_injective : Function.Injective bytes := by
  intro x y same
  have codes : CodeUnits.utf8.code (String.ofList x) = CodeUnits.utf8.code (String.ofList y) := by
    rw [code_utf8_ofList, code_utf8_ofList, same]
  exact String.ofList_injective (CodeUnits.code_injective codes)

@[simp] theorem bytes_append (x y : List Char) : bytes (x ++ y) = bytes x ++ bytes y :=
  List.flatMap_append

namespace SortedWriter

/-- The loop over items, which writes a comma unless the index is the last. -/
def writeAll {α : Type*} (write : α → Bytes) (items : List α) (out : Bytes) : Bytes :=
  items.zipIdx.foldl (fun out p =>
    if p.2 + 1 < items.length then out ++ write p.1 ++ bytes [','] else out ++ write p.1) out

theorem writeAll_eq {α : Type*} (write : α → Bytes) (items : List α) (out : Bytes) :
    writeAll write items out = out ++ (bytes [',']).intercalate (items.map write) :=
  JsonTree.foldl_separated _ _ _ _

/-- Keys in the order of their code units. -/
def sortKeys (form : CodeUnits) (keys : List String) : List String :=
  keys.insertionSort fun j k => form.code j ≤ form.code k

/-- The keys in the order of the sorted members. -/
theorem sortKeys_keys {α : Type*} (form : CodeUnits) (l : List (String × JsonTree α)) :
    sortKeys form (l.map Prod.fst) = (JsonTree.byCode form.code l).map Prod.fst := by
  refine (List.map_insertionSort (fun p q : String × JsonTree α => form.code p.1 ≤ form.code q.1) _
    Prod.fst l fun _ _ _ _ => ?_).symm
  exact Iff.rfl

/-- A member is found under its key. -/
theorem lookup_of_mem {l : List (String × Bytes)} (nodup : (l.map Prod.fst).Nodup) {k : String}
    {v : Bytes} (member : (k, v) ∈ l) : l.lookup k = some v :=
  (Dict.get?_eq_some_iff (d := ⟨l, nodup⟩)).mpr member

variable (esc : Escaping)

theorem bytes_brackets (left right : Char) (items : List (List Char)) :
    bytes (left :: ([','].intercalate items ++ [right])) =
      bytes [left] ++ (bytes [',']).intercalate (items.map bytes) ++ bytes [right] := by
  rw [← List.singleton_append, bytes_append, bytes_append, List.append_assoc]
  congr 2
  exact JsonTree.flatMap_intercalate _ _ _

/-- The text of an array, its items written already. -/
theorem bytes_arr (l : List (JsonTree (List Char))) :
    bytes (JsonTree.render esc (.arr l)) = bytes ['['] ++
      (bytes [',']).intercalate (l.map fun v => bytes (JsonTree.render esc v)) ++ bytes [']'] := by
  rw [JsonTree.render_arr, bytes_brackets, List.map_map]
  rfl

theorem bytes_obj (l : List (String × JsonTree (List Char))) :
    bytes (JsonTree.render esc (.obj l)) = bytes ['{'] ++
      (bytes [',']).intercalate (l.map fun p => bytes (JsonTree.member esc p)) ++ bytes ['}'] := by
  rw [JsonTree.render_obj, bytes_brackets, List.map_map]
  rfl

/-- The members of an object, sorted and written, are those that the loop over the
sorted keys writes. -/
theorem writeAll_members {form : CodeUnits} {l : List (String × JsonTree (List Char))}
    (nodup : (l.map Prod.fst).Nodup) :
    writeAll (fun k => bytes (JsonTree.quoted esc k) ++ bytes [':'] ++
        ((l.map fun p => (p.1, bytes (JsonTree.render esc p.2))).lookup k).getD [])
      (sortKeys form (l.map Prod.fst)) (bytes ['{']) ++ bytes ['}'] =
    bytes (JsonTree.render esc (.obj (JsonTree.byCode form.code l))) := by
  have write : ∀ p ∈ JsonTree.byCode form.code l, bytes (JsonTree.quoted esc p.1) ++ bytes [':'] ++
      ((l.map fun p => (p.1, bytes (JsonTree.render esc p.2))).lookup p.1).getD [] =
      bytes (JsonTree.member esc p) := by
    intro p member
    have here := List.mem_map_of_mem (f := fun p : String × JsonTree (List Char) =>
      (p.1, bytes (JsonTree.render esc p.2))) ((JsonTree.perm_byCode form.code l).mem_iff.mp member)
    have keys : (l.map fun p => (p.1, bytes (JsonTree.render esc p.2))).map Prod.fst =
        l.map Prod.fst := by simp [Function.comp_def]
    rw [lookup_of_mem (keys ▸ nodup) here, JsonTree.member, ← List.singleton_append, bytes_append,
      bytes_append, List.append_assoc]
    rfl
  rw [writeAll_eq, sortKeys_keys, List.map_map, bytes_obj]
  exact congrArg (fun members => bytes ['{'] ++ (bytes [',']).intercalate members ++ bytes ['}'])
    (List.map_congr_left write)

/-! ### A writer for every dialect -/

variable {ν : Type*} (d : Dialect ν)

mutual

/-- Write a value by its sorted keys. -/
def write : JsonTree ν → Bytes
  | .obj l =>
    let values := writeMembers l
    writeAll (fun k => bytes (JsonTree.quoted d.escaping k) ++ bytes [':'] ++
      (values.lookup k).getD [])
      (sortKeys d.form (l.map Prod.fst)) (bytes ['{']) ++ bytes ['}']
  | .arr l => writeAll id (writeItems l) (bytes ['[']) ++ bytes [']']
  | .null => bytes (d.text .null)
  | .bool b => bytes (d.text (.bool b))
  | .num x => bytes (d.text (.num x))
  | .str s => bytes (d.text (.str s))

/-- Write every item. -/
def writeItems : List (JsonTree ν) → List Bytes
  | [] => []
  | v :: l => write v :: writeItems l

/-- Write every value, under its key. -/
def writeMembers : List (String × JsonTree ν) → List (String × Bytes)
  | [] => []
  | (k, v) :: l => (k, write v) :: writeMembers l

end

mutual

/-- The writer writes the text of its dialect. -/
theorem write_eq : ∀ v : JsonTree ν, v.Distinct → write d v = bytes (d.text v)
  | .null, _ | .bool _, _ | .num _, _ | .str _, _ => by rw [write]
  | .arr l, h => by
    rw [write, writeAll_eq, List.map_id, writeItems_eq l h]
    exact (bytes_arr _ _).symm
  | .obj l, h => by
    have keys : (JsonTree.sortMembers d.form.code (JsonTree.mapMembers d.number l)).map Prod.fst =
        l.map Prod.fst := by
      simp [JsonTree.sortMembers_eq_map, JsonTree.mapMembers_eq_map, Function.comp_def]
    rw [write, writeMembers_eq l h.2, ← keys]
    exact writeAll_members d.escaping (keys ▸ h.1)

theorem writeItems_eq : ∀ l : List (JsonTree ν), JsonTree.ItemsPass { keys := List.Nodup } l →
    writeItems d l = (JsonTree.sortItems d.form.code (JsonTree.mapItems d.number l)).map
      fun v => bytes (JsonTree.render d.escaping v)
  | [], _ => rfl
  | v :: l, h => by
    rw [writeItems, write_eq v h.1, writeItems_eq l h.2]
    rfl

theorem writeMembers_eq : ∀ l : List (String × JsonTree ν),
    JsonTree.MembersPass { keys := List.Nodup } l → writeMembers d l =
      (JsonTree.sortMembers d.form.code (JsonTree.mapMembers d.number l)).map
        fun p => (p.1, bytes (JsonTree.render d.escaping p.2))
  | [], _ => rfl
  | (k, v) :: l, h => by
    rw [writeMembers, write_eq v h.2.1, writeMembers_eq l h.2.2]
    rfl

end

end SortedWriter

end Foundation
