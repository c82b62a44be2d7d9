import AgentTelepathy.Foundation.JsonTree

/-!
# Dialects of canonical JSON

A dialect is a way to write canonical JSON: the encoding form in whose order the keys
stand, the escaping of strings and the text of numbers. Two dialects write a value
alike exactly if they agree on its numbers, on its strings and on the order of the
keys of its objects. Within one dialect that writes every number as a token of its
own, the text determines the value up to the order of members.
-/

namespace Foundation

open JsonText

/-- A way to write canonical JSON. -/
structure Dialect (ν : Type*) where
  form : CodeUnits
  escaping : Escaping
  number : ν → List Char

namespace JsonTree

variable {ν : Type*}

/-- Two values are equal up to the order of object members. -/
def Same (v w : JsonTree ν) : Prop :=
  sort CodeUnits.codePoints.code v = sort CodeUnits.codePoints.code w

mutual

/-- Forms with one order sort alike. -/
theorem sort_eq_of_ordered {form : CodeUnits} (ordered : form.Ordered) :
    ∀ v : JsonTree ν, sort form.code v = sort CodeUnits.codePoints.code v
  | .null | .bool _ | .num _ | .str _ => rfl
  | .arr l => congrArg JsonTree.arr (sortItems_eq_of_ordered ordered l)
  | .obj l => by
    have order : (fun p q : String × JsonTree ν => form.code p.1 ≤ form.code q.1) =
        fun p q => CodeUnits.codePoints.code p.1 ≤ CodeUnits.codePoints.code q.1 := by
      funext p q
      rw [ordered.code_le_iff, CodeUnits.ordered_codePoints.code_le_iff]
    rw [sort, sort, sortMembers_eq_of_ordered ordered l, byCode, byCode]
    congr 2

theorem sortItems_eq_of_ordered {form : CodeUnits} (ordered : form.Ordered) :
    ∀ l : List (JsonTree ν), sortItems form.code l = sortItems CodeUnits.codePoints.code l
  | [] => rfl
  | v :: l => by
    rw [sortItems, sortItems, sort_eq_of_ordered ordered v, sortItems_eq_of_ordered ordered l]

theorem sortMembers_eq_of_ordered {form : CodeUnits} (ordered : form.Ordered) :
    ∀ l : List (String × JsonTree ν),
      sortMembers form.code l = sortMembers CodeUnits.codePoints.code l
  | [] => rfl
  | (k, v) :: l => by
    rw [sortMembers, sortMembers, sort_eq_of_ordered ordered v, sortMembers_eq_of_ordered ordered l]

end

end JsonTree

namespace Dialect

variable {ν μ : Type*}

/-- The canonical text of a value. -/
def text (d : Dialect ν) (v : JsonTree ν) : List Char :=
  JsonTree.render d.escaping (JsonTree.sort d.form.code (v.map d.number))

/-- The text of every number in a value is a token. -/
abbrev Tokens (d : Dialect ν) (v : JsonTree ν) : Prop :=
  v.Passes { number := fun x => JsonTree.IsToken (d.number x) }

variable {d : Dialect ν} {e : Dialect μ}

/-- The text of every number in a value is a word. -/
abbrev Words (d : Dialect ν) (v : JsonTree ν) : Prop :=
  v.Passes { number := fun x => JsonTree.IsWord (d.number x) }

theorem Tokens.words {v : JsonTree ν} (tokens : d.Tokens v) : d.Words v :=
  JsonTree.Passes.imp tokens ⟨fun _ => JsonTree.IsToken.isWord, fun _ _ => trivial,
    fun _ _ => trivial⟩

theorem words_sort {v : JsonTree ν} (words : d.Words v) :
    (JsonTree.sort d.form.code (v.map d.number)).Words :=
  (JsonTree.passes_sort (fun _ _ _ => Iff.rfl) _).mpr (JsonTree.passes_map v |>.mpr words)

/-- Texts of two dialects are equal exactly if the sorted values are, with the same texts of
numbers, and no string tells the escapings apart. -/
theorem text_eq_iff {v : JsonTree ν} {w : JsonTree μ} (hv : d.Words v) (hw : e.Words w) :
    d.text v = e.text w ↔
      JsonTree.sort d.form.code (v.map d.number) = JsonTree.sort e.form.code (w.map e.number) ∧
      v.Passes { string := JsonTree.Alike d.escaping e.escaping } := by
  rw [text, text, JsonTree.render_eq_iff (words_sort hv) (words_sort hw),
    JsonTree.passes_sort (fun _ _ _ => Iff.rfl), JsonTree.passes_map]
  rfl

/-- The strings of a value are tested apart from its numbers and keys. -/
theorem passes_and_strings_iff {v : JsonTree ν} {number : ν → Prop} {string : String → Prop}
    {keys : List String → Prop} :
    v.Passes { number := number, keys := keys } ∧ v.Passes { string := string } ↔
      v.Passes { number := number, string := string, keys := keys } := by
  constructor
  · rintro ⟨parts, strings⟩
    exact (parts.and strings).imp ⟨fun _ h => h.1, fun _ h => h.2, fun _ h => h.1⟩
  · intro all
    exact ⟨all.imp ⟨fun _ h => h, fun _ _ => trivial, fun _ h => h⟩,
      all.imp ⟨fun _ _ => trivial, fun _ h => h, fun _ _ => trivial⟩⟩

/-- Two dialects write a value alike exactly if they agree on all its parts. -/
theorem text_eq_text_iff {e : Dialect ν} {v : JsonTree ν} (distinct : v.Distinct) (hd : d.Tokens v)
    (he : e.Tokens v) : d.text v = e.text v ↔ v.Passes
      { number := fun x => d.number x = e.number x
        string := JsonTree.Alike d.escaping e.escaping
        keys := JsonTree.SameOrder d.form.code e.form.code } := by
  rw [text_eq_iff hd.words he.words,
    JsonTree.sort_map_eq_iff CodeUnits.code_injective CodeUnits.code_injective _ _ v distinct]
  exact passes_and_strings_iff

/-- Every number is written as a token of its own. -/
structure Lawful (d : Dialect ν) : Prop where
  token : ∀ x, JsonTree.IsToken (d.number x)
  injective : Function.Injective d.number

theorem Lawful.tokens (lawful : d.Lawful) (v : JsonTree ν) : d.Tokens v :=
  JsonTree.passes_of_forall ⟨lawful.token, fun _ => trivial, fun _ => trivial⟩ v

/-- The text determines the value up to the order of members. -/
theorem Lawful.text_eq_iff (lawful : d.Lawful) {v w : JsonTree ν} :
    d.text v = d.text w ↔ JsonTree.sort d.form.code v = JsonTree.sort d.form.code w := by
  have alike : v.Passes { string := JsonTree.Alike d.escaping d.escaping } :=
    JsonTree.passes_of_forall ⟨fun _ => trivial, fun _ _ _ => rfl, fun _ => trivial⟩ v
  rw [Dialect.text_eq_iff (lawful.tokens v).words (lawful.tokens w).words, JsonTree.sort_map,
    JsonTree.sort_map]
  exact ⟨fun h => JsonTree.map_inj lawful.injective _ _ h.1, fun h => ⟨by rw [h], alike⟩⟩

end Dialect

/-! ### Python -/

namespace Json

mutual

/-- A JSON value as a tree of numerals. -/
def tree : Json → JsonTree Numeral
  | .null => .null
  | .bool b => .bool b
  | .int n => .num (.inl n)
  | .float x => .num (.inr x)
  | .str s => .str s
  | .arr l => .arr (treeItems l)
  | .obj l => .obj (treeMembers l)

/-- The items of an array as trees. -/
def treeItems : List Json → List (JsonTree Numeral)
  | [] => []
  | v :: l => tree v :: treeItems l

/-- The members of an object as trees. -/
def treeMembers : List (String × Json) → List (String × JsonTree Numeral)
  | [] => []
  | (k, v) :: l => (k, tree v) :: treeMembers l

end

theorem treeItems_eq_map (l : List Json) : treeItems l = l.map tree := by
  induction l with
  | nil => rfl
  | cons v l ih => rw [treeItems, ih, List.map_cons]

theorem treeMembers_eq_map (l : List (String × Json)) :
    treeMembers l = l.map fun p => (p.1, tree p.2) := by
  induction l with
  | nil => rfl
  | cons p l ih => rw [treeMembers, ih, List.map_cons]

mutual

theorem tree_sortKeys : ∀ v : Json, v.sortKeys.tree = JsonTree.sort CodeUnits.codePoints.code v.tree
  | .null | .bool _ | .int _ | .float _ | .str _ => rfl
  | .arr l => congrArg JsonTree.arr (treeItems_sortItems l)
  | .obj l => by
    have sorted (m : List (String × Json)) : treeMembers (sortByKey m) =
        JsonTree.byCode CodeUnits.codePoints.code (treeMembers m) := by
      rw [treeMembers_eq_map, treeMembers_eq_map, sortByKey, JsonTree.byCode]
      exact List.map_insertionSort _ _ _ m fun p _ q _ =>
        CodeUnits.ordered_codePoints.code_le_iff.symm
    rw [sortKeys, tree, tree, JsonTree.sort, sorted, treeMembers_sortMembers l]

theorem treeItems_sortItems :
    ∀ l : List Json,
      treeItems (sortItems l) = JsonTree.sortItems CodeUnits.codePoints.code (treeItems l)
  | [] => rfl
  | v :: l => by
    rw [sortItems, treeItems, treeItems, JsonTree.sortItems, tree_sortKeys v, treeItems_sortItems l]

theorem treeMembers_sortMembers :
    ∀ l : List (String × Json),
      treeMembers (sortMembers l) = JsonTree.sortMembers CodeUnits.codePoints.code (treeMembers l)
  | [] => rfl
  | (k, v) :: l => by
    rw [sortMembers, treeMembers, treeMembers, JsonTree.sortMembers, tree_sortKeys v,
      treeMembers_sortMembers l]

end

mutual

/-- A tree of numerals as a JSON value. -/
def ofTree : JsonTree Numeral → Json
  | .null => .null
  | .bool b => .bool b
  | .num x => x.toJson
  | .str s => .str s
  | .arr l => .arr (ofTreeItems l)
  | .obj l => .obj (ofTreeMembers l)

/-- The items of an array as JSON values. -/
def ofTreeItems : List (JsonTree Numeral) → List Json
  | [] => []
  | v :: l => ofTree v :: ofTreeItems l

/-- The members of an object as JSON values. -/
def ofTreeMembers : List (String × JsonTree Numeral) → List (String × Json)
  | [] => []
  | (k, v) :: l => (k, ofTree v) :: ofTreeMembers l

end

theorem ofTreeMembers_eq_map (l : List (String × JsonTree Numeral)) :
    ofTreeMembers l = l.map fun p => (p.1, ofTree p.2) := by
  induction l with
  | nil => rfl
  | cons p l ih => rw [ofTreeMembers, ih, List.map_cons]

theorem ofTreeItems_eq_map (l : List (JsonTree Numeral)) : ofTreeItems l = l.map ofTree := by
  induction l with
  | nil => rfl
  | cons v l ih => rw [ofTreeItems, ih, List.map_cons]

mutual

@[simp] theorem tree_ofTree : ∀ v : JsonTree Numeral, (ofTree v).tree = v
  | .null | .bool _ | .str _ | .num (.inl _) | .num (.inr _) => rfl
  | .arr l => congrArg JsonTree.arr (treeItems_ofTreeItems l)
  | .obj l => congrArg JsonTree.obj (treeMembers_ofTreeMembers l)

theorem treeItems_ofTreeItems : ∀ l : List (JsonTree Numeral), treeItems (ofTreeItems l) = l
  | [] => rfl
  | v :: l => by rw [ofTreeItems, treeItems, tree_ofTree v, treeItems_ofTreeItems l]

theorem treeMembers_ofTreeMembers :
    ∀ l : List (String × JsonTree Numeral), treeMembers (ofTreeMembers l) = l
  | [] => rfl
  | (k, v) :: l => by rw [ofTreeMembers, treeMembers, tree_ofTree v, treeMembers_ofTreeMembers l]

end

/-- Values that are the same are the same trees. -/
theorem Same.tree {v w : Json} (same : Same v w) : JsonTree.Same v.tree w.tree := by
  rw [JsonTree.Same, ← tree_sortKeys, ← tree_sortKeys]
  exact congrArg Json.tree same

end Json

namespace Dialect

/-- The text of a number in Python. -/
def pythonNumber : Numeral → List Char
  | .inl n => intText n
  | .inr x => Float64.repr x

/-- `json.dumps(v, separators=(',',':'), sort_keys=True, ensure_ascii=False)`. -/
def python : Dialect Numeral := ⟨.codePoints, unicodeEscaping, pythonNumber⟩

/-- The text of a number is that of no other scalar, also where the number is not finite. -/
theorem isWord_pythonNumber (x : Numeral) : JsonTree.IsWord (pythonNumber x) := by
  have scalar : IsScalar x.toJson := by cases x <;> trivial
  have text : render compactStyle x.toJson = pythonNumber x := by cases x <;> rfl
  have other {v : Json} (hv : IsScalar v) (differs : x.toJson ≠ v) :
      pythonNumber x ≠ render compactStyle v := fun same =>
    differs (render_scalar_injective scalar hv (text.trans same))
  exact ⟨text ▸ render_ne_nil scalar, text ▸ render_not_isMark scalar,
    other (v := .null) trivial (by cases x <;> simp [Numeral.toJson]),
    other (v := .bool true) trivial (by cases x <;> simp [Numeral.toJson]),
    other (v := .bool false) trivial (by cases x <;> simp [Numeral.toJson])⟩

theorem words_python (v : JsonTree Numeral) : python.Words v :=
  JsonTree.passes_of_forall ⟨isWord_pythonNumber, fun _ => trivial, fun _ => trivial⟩ v

mutual

private theorem render_tree :
    ∀ v : Json, JsonTree.render unicodeEscaping (v.tree.map pythonNumber) = render compactStyle v
  | .null | .bool true | .bool false | .int _ | .float _ | .str _ | .arr [] | .obj [] => rfl
  | .arr (v :: l) => by
    rw [Json.tree, Json.treeItems, JsonTree.map, JsonTree.mapItems, JsonTree.render, render,
      render_tree v, renderItems_tree l]
  | .obj ((k, v) :: l) => by
    rw [Json.tree, Json.treeMembers, JsonTree.map, JsonTree.mapMembers, JsonTree.render, render,
      render_tree v, renderMembers_tree l]
    rfl

private theorem renderItems_tree :
    ∀ l : List Json,
      JsonTree.renderItems unicodeEscaping (JsonTree.mapItems pythonNumber (Json.treeItems l)) =
      renderItems compactStyle l
  | [] => rfl
  | v :: l => by
    rw [Json.treeItems, JsonTree.mapItems, JsonTree.renderItems, renderItems, render_tree v,
      renderItems_tree l]
    rfl

private theorem renderMembers_tree :
    ∀ l : List (String × Json),
      JsonTree.renderMembers unicodeEscaping
          (JsonTree.mapMembers pythonNumber (Json.treeMembers l)) =
        renderMembers compactStyle l
  | [] => rfl
  | (k, v) :: l => by
    rw [Json.treeMembers, JsonTree.mapMembers, JsonTree.renderMembers, renderMembers, render_tree v,
      renderMembers_tree l]
    rfl

end

theorem dumpsSorted_eq (v : Json) :
    dumpsSorted compactStyle v = String.ofList (python.text v.tree) := by
  rw [dumpsSorted, ← render_tree, Json.tree_sortKeys, ← JsonTree.sort_map]
  rfl

end Dialect

end Foundation
