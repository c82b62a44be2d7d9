import AgentTelepathy.Foundation.Dialect
import AgentTelepathy.Foundation.NumberText

/-!
# The text of a value in Python and in JavaScript

The stable text of a value in JavaScript is canonical, too: keys stand in the order of UTF-16, and
numbers have the text of the nearest double, or none. So Python and JavaScript write a value alike
exactly if they write all its numbers alike and agree on the order of the keys of its objects.
-/

namespace Foundation

open JsonText

namespace JsonTree

variable {ν μ : Type*}

mutual

/-- Change every number; one that has no image becomes null. -/
def spell (f : ν → Option μ) : JsonTree ν → JsonTree μ
  | .null => .null
  | .bool b => .bool b
  | .num x => (f x).elim .null .num
  | .str s => .str s
  | .arr l => .arr (spellItems f l)
  | .obj l => .obj (spellMembers f l)

/-- Change the numbers inside every item. -/
def spellItems (f : ν → Option μ) : List (JsonTree ν) → List (JsonTree μ)
  | [] => []
  | v :: l => spell f v :: spellItems f l

/-- Change the numbers inside every member's value. -/
def spellMembers (f : ν → Option μ) : List (String × JsonTree ν) → List (String × JsonTree μ)
  | [] => []
  | (k, v) :: l => (k, spell f v) :: spellMembers f l

end

theorem spellMembers_eq_map (f : ν → Option μ) (l : List (String × JsonTree ν)) :
    spellMembers f l = l.map fun p => (p.1, spell f p.2) := by
  induction l with
  | nil => rfl
  | cons p l ih => rw [spellMembers, ih, List.map_cons]

variable {code code' : String → List ℕ}

mutual

/-- Sorted alike after their numbers were changed: the changes agree on every number and
the orders on the keys of every object. -/
theorem sort_spell_eq_iff (inj : Function.Injective code) (inj' : Function.Injective code')
    (f : ν → μ) (g : ν → Option μ) : ∀ v : JsonTree ν, v.Distinct →
    (sort code (map f v) = sort code' (spell g v) ↔
      v.Passes { number := fun x => g x = some (f x), keys := SameOrder code code' })
  | .null, _ | .bool _, _ | .str _, _ => iff_of_true rfl trivial
  | .num x, _ => by
    change JsonTree.num (f x) = sort code' ((g x).elim .null .num) ↔ g x = some (f x)
    cases g x with
    | none => exact iff_of_false (fun same => by cases same) nofun
    | some y =>
      change JsonTree.num (f x) = .num y ↔ some y = some (f x)
      rw [JsonTree.num.injEq, Option.some.injEq, eq_comm]
  | .arr l, h => by
    rw [map, spell, sort, sort, JsonTree.arr.injEq]
    exact sortItems_spellItems_eq_iff inj inj' f g l h
  | .obj l, h => by
    rw [map, spell, sort, sort, JsonTree.obj.injEq, sortMembers_eq_map, sortMembers_eq_map,
      mapMembers_eq_map, spellMembers_eq_map, List.map_map, List.map_map]
    refine (byCode_eq_iff inj inj' h.1 (fun v => sort code (map f v))
      fun v => sort code' (spell g v)).trans ?_
    rw [and_comm]
    exact and_congr Iff.rfl (membersPass_sort_spell inj inj' f g l h.2)

theorem sortItems_spellItems_eq_iff (inj : Function.Injective code)
    (inj' : Function.Injective code') (f : ν → μ) (g : ν → Option μ) :
    ∀ l : List (JsonTree ν), ItemsPass { keys := List.Nodup } l →
      (sortItems code (mapItems f l) = sortItems code' (spellItems g l) ↔
        ItemsPass { number := fun x => g x = some (f x), keys := SameOrder code code' } l)
  | [], _ => iff_of_true rfl trivial
  | v :: l, h => by
    rw [mapItems, spellItems, sortItems, sortItems, List.cons.injEq]
    exact and_congr (sort_spell_eq_iff inj inj' f g v h.1)
      (sortItems_spellItems_eq_iff inj inj' f g l h.2)

theorem membersPass_sort_spell (inj : Function.Injective code) (inj' : Function.Injective code')
    (f : ν → μ) (g : ν → Option μ) :
    ∀ l : List (String × JsonTree ν), MembersPass { keys := List.Nodup } l →
      ((∀ p ∈ l, sort code (map f p.2) = sort code' (spell g p.2)) ↔
        MembersPass { number := fun x => g x = some (f x), keys := SameOrder code code' } l)
  | [], _ => iff_of_true (by simp) trivial
  | (k, v) :: l, h => by
    rw [List.forall_mem_cons, MembersPass, true_and]
    exact and_congr (sort_spell_eq_iff inj inj' f g v h.2.1)
      (membersPass_sort_spell inj inj' f g l h.2.2)

end

mutual

/-- The texts of numbers are words where they are there. -/
theorem words_spell {f : ν → Option (List Char)} (word : ∀ x, ∀ text ∈ f x, IsWord text) :
    ∀ v : JsonTree ν, (spell f v).Words
  | .null | .bool _ | .str _ => trivial
  | .num x => by
    rw [spell]
    cases here : f x with
    | none => trivial
    | some text => exact word x text here
  | .arr l => words_spellItems word l
  | .obj l => ⟨trivial, words_spellMembers word l⟩

theorem words_spellItems {f : ν → Option (List Char)} (word : ∀ x, ∀ text ∈ f x, IsWord text) :
    ∀ l : List (JsonTree ν), ItemsPass { number := IsWord } (spellItems f l)
  | [] => trivial
  | v :: l => ⟨words_spell word v, words_spellItems word l⟩

theorem words_spellMembers {f : ν → Option (List Char)}
    (word : ∀ x, ∀ text ∈ f x, IsWord text) :
    ∀ l : List (String × JsonTree ν), MembersPass { number := IsWord } (spellMembers f l)
  | [] => trivial
  | (_, v) :: l => ⟨trivial, words_spell word v, words_spellMembers word l⟩

end

end JsonTree

namespace Ecma

/-- The text of the double next to a number, if that is finite. -/
def spelling (x : Numeral) : Option (List Char) :=
  match x.double with
  | .inr (.finite b) => some (numberText (.finite b))
  | _ => none

theorem render_spelling (x : Numeral) :
    JsonTree.render unicodeEscaping ((spelling x).elim .null .num) = x.ecmaText := by
  rcases x with n | x
  · rw [spelling, Numeral.double, Numeral.ecmaText]
    cases Float64.ofInt n <;> rfl
  · rw [spelling, Numeral.double, Numeral.ecmaText]
    cases x <;> rfl

theorem isToken_numberText (b : Binary64) : JsonTree.IsToken (numberText (.finite b)) := by
  by_cases zero : b.mant = 0
  · rw [numberText, if_pos zero]
    exact JsonTree.isToken_intText 0
  · obtain ⟨d, reads, -⟩ := Decimal.read_ecma zero
    rw [numberText, if_neg zero]
    refine ⟨fun empty => ?_, Decimal.read_chars reads⟩
    rw [empty] at reads
    cases reads

theorem isWord_spelling (x : Numeral) : ∀ text ∈ spelling x, JsonTree.IsWord text := by
  intro text member
  unfold spelling at member
  split at member
  · obtain rfl := Option.some.inj member
    exact (isToken_numberText _).isWord
  · cases member

/-- A number has a common text exactly if it is shared. -/
theorem spelling_eq_iff (x : Numeral) : spelling x = some (Dialect.pythonNumber x) ↔ x.Shared := by
  have text := render_spelling x
  rw [← Numeral.text_eq_iff]
  cases here : spelling x with
  | some written =>
    rw [here] at text
    rw [← text, Option.some.injEq, eq_comm]
    rfl
  | none =>
    rw [here] at text
    rw [← text]
    exact iff_of_false nofun (Dialect.isWord_pythonNumber x).ne_null

theorem sort_spelling (code : String → List ℕ) (x : Numeral) :
    JsonTree.sort code ((spelling x).elim .null .num) = (spelling x).elim .null .num := by
  cases spelling x <;> rfl

theorem sortByUnits_map (l : List (String × JsonTree (List Char))) :
    sortByUnits (l.map fun p => (p.1, JsonTree.render unicodeEscaping p.2)) =
      (JsonTree.byCode CodeUnits.utf16.code l).map
        fun p => (p.1, JsonTree.render unicodeEscaping p.2) := by
  let below (p q : String × JsonTree (List Char)) : Prop :=
    CodeUnits.utf16.code p.1 ≤ CodeUnits.utf16.code q.1
  let below' (p q : String × List Char) : Prop := units p.1 ≤ units q.1
  exact (List.map_insertionSort below below'
    (fun p => (p.1, JsonTree.render unicodeEscaping p.2)) l fun _ _ _ _ => Iff.rfl).symm

mutual

theorem text_eq_render : ∀ v : Json, text v = JsonTree.render unicodeEscaping
    (JsonTree.sort CodeUnits.utf16.code (v.tree.spell spelling))
  | .null | .bool true | .bool false | .str _ => rfl
  | .int n => by
    rw [Json.tree, JsonTree.spell, sort_spelling, render_spelling]
    rfl
  | .float x => by
    rw [Json.tree, JsonTree.spell, sort_spelling, render_spelling]
    rfl
  | .arr l => by
    rw [text, Json.tree, JsonTree.spell, JsonTree.sort, JsonTree.render_arr, textItems_eq_render l]
  | .obj l => by
    rw [text, Json.tree, JsonTree.spell, JsonTree.sort, JsonTree.render_obj,
      textMembers_eq_render l, sortByUnits_map, List.map_map]
    rfl

theorem textItems_eq_render : ∀ l : List Json, textItems l =
    (JsonTree.sortItems CodeUnits.utf16.code (JsonTree.spellItems spelling (Json.treeItems l))).map
      (JsonTree.render unicodeEscaping)
  | [] => rfl
  | v :: l => by
    rw [textItems, Json.treeItems, JsonTree.spellItems, JsonTree.sortItems, List.map_cons,
      text_eq_render v, textItems_eq_render l]

theorem textMembers_eq_render : ∀ l : List (String × Json), textMembers l =
    (JsonTree.sortMembers CodeUnits.utf16.code
      (JsonTree.spellMembers spelling (Json.treeMembers l))).map
        fun p => (p.1, JsonTree.render unicodeEscaping p.2)
  | [] => rfl
  | (k, v) :: l => by
    rw [textMembers, Json.treeMembers, JsonTree.spellMembers, JsonTree.sortMembers, List.map_cons,
      text_eq_render v, textMembers_eq_render l]

end

/-- Python and JavaScript write the numbers of a value alike, and put the keys of its objects in
one order. -/
def Alike (v : Json) : Prop := v.tree.Passes
  { number := Numeral.Shared
    keys := JsonTree.SameOrder CodeUnits.codePoints.code CodeUnits.utf16.code }

/-- They write the value alike exactly then. -/
theorem python_eq_text_iff {v : Json} (distinct : v.tree.Distinct) :
    Dialect.python.text v.tree = text v ↔ Alike v := by
  have strings : (JsonTree.sort CodeUnits.codePoints.code
      (v.tree.map Dialect.pythonNumber)).Passes
        { string := JsonTree.Alike unicodeEscaping unicodeEscaping } :=
    JsonTree.passes_of_forall ⟨fun _ => trivial, fun _ _ _ => rfl, fun _ => trivial⟩ _
  have spelled : (JsonTree.sort CodeUnits.utf16.code (v.tree.spell spelling)).Words :=
    (JsonTree.passes_sort (fun _ _ _ => Iff.rfl) _).mpr
      (JsonTree.words_spell isWord_spelling v.tree)
  rw [text_eq_render, Dialect.text]
  refine (JsonTree.render_eq_iff (Dialect.words_sort (Dialect.words_python v.tree)) spelled).trans
    ((and_iff_left strings).trans ?_)
  have number : (fun x => spelling x = some (Dialect.pythonNumber x)) = Numeral.Shared :=
    funext fun x => propext (spelling_eq_iff x)
  rw [Alike, ← number]
  exact JsonTree.sort_spell_eq_iff CodeUnits.code_injective CodeUnits.code_injective _ _ _ distinct

theorem stringify_parse (v : Json) : stringify (Value.parse v) = String.ofList (text v) :=
  congrArg String.ofList (text_mapNumbers (fun x => by cases x <;> rfl) v)

end Ecma

end Foundation
