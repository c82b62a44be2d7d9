import Mathlib.Data.List.Forall2
import AgentTelepathy.Foundation.Quotient

/-!
# Schemas in JavaScript

A schema reads data: it returns a value, which may differ from the data, or throws. The schemas of
the zod library are combined from others. What the combinators do on JSON data is stated as laws of
the library; the form of a UUID is left to it, up to the characters that occur.

What a schema has returned it accepts again after `JSON.stringify` and `JSON.parse`, and returns
it as it is. This passes from schemas to those that are combined from them.
-/

namespace Foundation

/-- What a schema returns for data, unless it throws. Nothing stands for undefined. -/
abbrev Schema := Option Json → Option (Option Json)

namespace Json

/-- Whether data are a string with a property. -/
def isString (p : String → Bool) : Json → Bool
  | .str s => p s
  | _ => false

/-- Whether data are a finite number with a property. -/
def isFinite (p : ℚ → Bool) : Json → Bool
  | .int n => p n
  | .float x =>
    match x.number with
    | .rat q => p q
    | _ => false
  | _ => false

end Json

namespace Schema

/-- A schema that returns data of one kind as they are. -/
def only (kind : Json → Bool) : Schema
  | some v => if kind v then some (some v) else none
  | none => none

/-- What a schema returns for data that are defined, if that is defined, too. -/
def on (s : Schema) (v : Json) : Option Json := (s (some v)).join

def nullable (s : Schema) : Schema := fun v => if v = some .null then some v else s v

def optional (s : Schema) : Schema := fun v => if v = none then some none else s v

/-- The value stands in for undefined data as it is. -/
def default (s : Schema) (value : Json) : Schema :=
  fun v => if v = none then some (some value) else s v

def array (s : Schema) : Schema
  | some (.arr l) => (l.mapM s.on).map fun items => some (.arr items)
  | _ => none

/-- Objects with any keys but `__proto__`, which is passed over. -/
def record (s : Schema) : Schema
  | some (.obj members) =>
    ((members.filter (·.1 ≠ "__proto__")).mapM fun p => (s.on p.2).map (p.1, ·)).map
      fun members => some (.obj members)
  | _ => none

/-- The members of an object whose values are defined. -/
def present (rows : List (String × Option Json)) : List (String × Json) :=
  rows.filterMap fun row => row.2.map fun v => (row.1, v)

/-- Objects with the fields of a shape; other keys are passed over. -/
def object (shape : List (String × Schema)) : Schema
  | some (.obj members) =>
    (shape.mapM fun (field : String × Schema) =>
      (field.2 (members.lookup field.1)).map (field.1, ·)).map
        fun rows => some (.obj (present rows))
  | _ => none

/-- The schema that has the tag which the data have under a key. -/
def discriminatedUnion (key : String) (options : List (String × Schema)) : Schema
  | some (.obj members) =>
    match members.lookup key with
    | some (.str tag) => (options.lookup tag).bind fun s => s (some (.obj members))
    | _ => none
  | _ => none

end Schema

/-- The zod library. -/
structure Zod where
  isUuid : String → Bool
  string : Schema
  uuid : Schema
  /-- `number()` with further checks. -/
  number : (ℚ → Bool) → Schema
  literal : String → Schema
  enum : List String → Schema
  any : Schema
  nullable : Schema → Schema
  optional : Schema → Schema
  default : Schema → Json → Schema
  array : Schema → Schema
  /-- `record(string(), value)` -/
  record : Schema → Schema
  object : List (String × Schema) → Schema
  /-- A union by a key, with the value that each of its schemas has under the key. -/
  discriminatedUnion : String → List (String × Schema) → Schema
  isUuid_chars : ∀ s, isUuid s = true → ∀ c ∈ s.toList, c ∈ "0123456789abcdefABCDEF-".toList
  string_eq : string = .only (Json.isString fun _ => true)
  uuid_eq : uuid = .only (Json.isString isUuid)
  number_eq : ∀ check, number check = .only (Json.isFinite check)
  literal_eq : ∀ text, literal text = .only (Json.isString (· = text))
  enum_eq : ∀ texts, enum texts = .only (Json.isString (· ∈ texts))
  any_eq : any = some
  nullable_eq : ∀ s, nullable s = s.nullable
  optional_eq : ∀ s, optional s = s.optional
  default_eq : ∀ s value, default s value = s.default value
  array_eq : ∀ s, array s = s.array
  record_eq : ∀ s, record s = s.record
  object_eq : ∀ shape, object shape = .object shape
  discriminatedUnion_eq : ∀ key options,
    discriminatedUnion key options = .discriminatedUnion key options

theorem lookup_map_snd {α β : Type*} (f : α → β) (l : List (String × α)) (key : String) :
    (l.map fun p => (p.1, f p.2)).lookup key = (l.lookup key).map f := by
  induction l with
  | nil => rfl
  | cons p l ih =>
    rw [List.map_cons, List.lookup_cons, List.lookup_cons, ih]
    split <;> rfl

namespace Ecma

open Json

/-! ### Through text -/

mutual

/-- `JSON.parse(JSON.stringify(v))`: a number that is not finite becomes null, and minus zero
zero. -/
def reparsed : Json → Json
  | .null => .null
  | .bool b => .bool b
  | .int n => .int n
  | .float (.finite b) => .float (if b.mant = 0 then Float64.zero false else .finite b)
  | .float (.infinite _) | .float .nan => .null
  | .str s => .str s
  | .arr l => .arr (reparsedItems l)
  | .obj l => .obj (reparsedMembers l)

def reparsedItems : List Json → List Json
  | [] => []
  | v :: l => reparsed v :: reparsedItems l

def reparsedMembers : List (String × Json) → List (String × Json)
  | [] => []
  | (k, v) :: l => (k, reparsed v) :: reparsedMembers l

end

theorem reparsedItems_eq_map (l : List Json) : reparsedItems l = l.map reparsed := by
  induction l with
  | nil => rfl
  | cons v l ih => rw [reparsedItems, ih, List.map_cons]

theorem reparsedMembers_eq_map (l : List (String × Json)) :
    reparsedMembers l = l.map fun p => (p.1, reparsed p.2) := by
  induction l with
  | nil => rfl
  | cons p l ih => rw [reparsedMembers, ih, List.map_cons]

mutual

/-- The stable text of a value is that of what comes back. -/
theorem text_reparsed : ∀ v : Json, text (reparsed v) = text v
  | .null | .bool _ | .int _ | .str _ => by rw [reparsed]
  | .float (.infinite _) | .float .nan => rfl
  | .float (.finite b) => by
    rw [reparsed]
    split_ifs with zero
    · simp [text, numberText, Float64.zero, zero]
    · rfl
  | .arr l => by rw [reparsed, text, text, textItems_reparsedItems l]
  | .obj l => by rw [reparsed, text, text, textMembers_reparsedMembers l]

theorem textItems_reparsedItems : ∀ l : List Json, textItems (reparsedItems l) = textItems l
  | [] => rfl
  | v :: l => by
    rw [reparsedItems, textItems, textItems, text_reparsed v, textItems_reparsedItems l]

theorem textMembers_reparsedMembers :
    ∀ l : List (String × Json), textMembers (reparsedMembers l) = textMembers l
  | [] => rfl
  | (k, v) :: l => by
    rw [reparsedMembers, textMembers, textMembers, text_reparsed v, textMembers_reparsedMembers l]

end

/-- What comes back, as JavaScript keeps it, has the stable text that was signed. -/
theorem stringify_parse_reparsed (v : Json) :
    stringify (Value.parse (reparsed v)) = stringify (Value.parse v) := by
  have doubles (v : Json) : text v.toDoubles = text v := by
    refine text_mapNumbers (fun x => ?_) v
    cases x <;> rfl
  rw [stringify, stringify, Value.parse, Value.parse, doubles, doubles, text_reparsed]

theorem lookup_reparsedMembers (l : List (String × Json)) (key : String) :
    (reparsedMembers l).lookup key = (l.lookup key).map reparsed := by
  rw [reparsedMembers_eq_map, lookup_map_snd]

/-- A finite number keeps its value. -/
theorem isFinite_reparsed {check : ℚ → Bool} {v : Json} (finite : v.isFinite check = true) :
    (reparsed v).isFinite check = true := by
  cases v with
  | float x =>
    cases x with
    | finite b =>
      rw [reparsed]
      split_ifs with zero
      · simpa [isFinite, Float64.zero, Float64.number, zero] using finite
      · exact finite
    | infinite neg | nan => cases finite
  | int n => exact finite
  | _ => cases finite

end Ecma

/-! ### Safe integers -/

namespace Json

/-- The double next to a large integer is large. -/
theorem large_ofInt {n : ℤ} (large : 2 ^ 53 ≤ n.natAbs) {b : Binary64}
    (nearest : Float64.ofInt n = .finite b) : (2 : ℚ) ^ 53 ≤ b.mant * 2 ^ b.exp := by
  have low : (2 : ℚ) ^ (53 : ℤ) ≤ n.natAbs / (1 : ℕ) := by
    rw [Nat.cast_one, div_one]
    exact_mod_cast large
  exact_mod_cast Float64.zpow_le_ofRatio one_ne_zero (by decide) low nearest

/-- The double next to an integer is a safe integer exactly if the integer is one. -/
theorem isFinite_ofInt (check : ℚ → Bool) (n : ℤ) :
    (Json.float (Float64.ofInt n)).isFinite (fun q => q.den = 1 && |q| ≤ 2 ^ 53 - 1 && check q) =
      (decide (n.natAbs < 2 ^ 53) && check n) := by
  by_cases small : n.natAbs < 2 ^ 53
  · have exact' : (Float64.ofInt n).number = .rat n := Float64.isDouble_of_natAbs_le small.le
    have safe : |(n : ℚ)| ≤ 2 ^ 53 - 1 := by
      rw [← Int.cast_abs, Int.abs_eq_natAbs]
      have : (n.natAbs : ℤ) ≤ 2 ^ 53 - 1 := by omega
      exact_mod_cast this
    rw [isFinite, exact', decide_eq_true small]
    simp [safe]
  · simp only [small, decide_false, Bool.false_and, isFinite]
    cases nearest : Float64.ofInt n with
    | finite b =>
      have large := large_ofInt (not_lt.mp small) nearest
      have beyond : ¬ |(if b.neg then -1 else 1) * ((b.mant : ℚ) * 2 ^ b.exp)| ≤ 2 ^ 53 - 1 := by
        rw [abs_mul, abs_of_nonneg (a := (b.mant : ℚ) * 2 ^ b.exp) (by positivity)]
        split_ifs <;> norm_num <;> linarith
      rw [Float64.number_finite]
      dsimp only
      rw [decide_eq_false beyond, Bool.and_false, Bool.false_and]
    | infinite neg => rfl
    | nan => rfl

end Json

/-! ### Sent and read again -/

open Ecma

namespace Schema

/-- What the schema has returned it returns again, as it comes back. -/
structure Resends (s : Schema) : Prop where
  again : ∀ v w, s v = some w → s (w.map reparsed) = some (w.map reparsed)
  defined : ∀ v, s (some v) ≠ some none

theorem kind_of_only {kind : Json → Bool} {v : Option Json} {w : Json}
    (returned : only kind v = some (some w)) : kind w = true := by
  cases v with
  | none => cases returned
  | some v =>
    obtain ⟨isKind, same⟩ := Option.ite_none_right_eq_some.mp returned
    obtain rfl := Option.some.inj (Option.some.inj same)
    exact isKind

theorem resends_only {kind : Json → Bool} (kept : ∀ v, kind v = true → kind (reparsed v) = true) :
    Resends (only kind) where
  again v w returned := by
    cases v with
    | none => cases returned
    | some v =>
      obtain ⟨isKind, same⟩ := Option.ite_none_right_eq_some.mp returned
      obtain rfl := Option.some.inj same
      exact if_pos (kept v isKind)
  defined v := by
    rw [only]
    split_ifs <;> nofun

theorem resends_isString (p : String → Bool) : Resends (only (Json.isString p)) := by
  refine resends_only fun v string => ?_
  cases v with
  | str s => exact string
  | _ => cases string

theorem mapM_eq_some_iff {α β : Type*} {f : α → Option β} {l : List α} {m : List β} :
    l.mapM f = some m ↔ List.Forall₂ (fun a b => f a = some b) l m := by
  induction l generalizing m with
  | nil =>
    rw [List.forall₂_nil_left_iff, List.mapM_nil]
    exact ⟨fun same => (Option.some.inj same).symm, fun same => congrArg some same.symm⟩
  | cons a l ih =>
    simp only [List.forall₂_cons_left_iff, ← ih, List.mapM_cons, Option.pure_def,
      Option.bind_eq_bind, Option.bind_eq_some_iff, Option.some.injEq]
    exact exists_congr fun b => ⟨fun ⟨first, m', rest, same⟩ => ⟨m', first, rest, same.symm⟩,
      fun ⟨m', first, rest, same⟩ => ⟨first, m', rest, same.symm⟩⟩

/-- What a function keeps of items. -/
theorem map_eq_of_forall₂ {α β γ : Type*} {R : α → β → Prop} {f : α → γ} {g : β → γ}
    (kept : ∀ a b, R a b → g b = f a) {l : List α} {m : List β} (taken : List.Forall₂ R l m) :
    m.map g = l.map f := by
  induction taken with
  | nil => rfl
  | cons first _ ih => rw [List.map_cons, List.map_cons, kept _ _ first, ih]

/-- Items that a function takes to values which it keeps, when they are sent. -/
theorem mapM_resends {α : Type*} {f : α → Option α} {g : α → α}
    (kept : ∀ a b, f a = some b → f (g b) = some (g b)) {l m : List α} (taken : l.mapM f = some m) :
    (m.map g).mapM f = some (m.map g) := by
  rw [mapM_eq_some_iff] at taken ⊢
  induction taken with
  | nil => exact .nil
  | cons first _ ih => exact .cons (kept _ _ first) ih

theorem lookup_present_of_not_mem {rows : List (String × Option Json)} {name : String}
    (absent : name ∉ rows.map Prod.fst) : (present rows).lookup name = none := by
  induction rows with
  | nil => rfl
  | cons row rows ih =>
    obtain ⟨k, cell⟩ := row
    rw [List.map_cons, List.mem_cons, not_or] at absent
    cases cell with
    | none => exact ih absent.2
    | some v =>
      have other : (name == k) = false := beq_eq_false_iff_ne.mpr absent.1
      change ((k, v) :: present rows).lookup name = none
      rw [List.lookup_cons, other]
      exact ih absent.2

/-- What an object has under a name. -/
theorem lookup_present {rows : List (String × Option Json)} (nodup : (rows.map Prod.fst).Nodup)
    {row : String × Option Json} (member : row ∈ rows) : (present rows).lookup row.1 = row.2 := by
  induction rows with
  | nil => cases member
  | cons first rows ih =>
    obtain ⟨absent, rest⟩ := List.nodup_cons.mp nodup
    rcases List.mem_cons.mp member with rfl | later
    · obtain ⟨k, _ | v⟩ := row
      · change (present rows).lookup k = none
        exact lookup_present_of_not_mem absent
      · exact List.lookup_cons_self
    · obtain ⟨k, _ | v⟩ := first
      · exact ih rest later
      · have other : (row.1 == k) = false := by
          refine beq_eq_false_iff_ne.mpr ?_
          rintro rfl
          exact absent (List.mem_map.mpr ⟨row, later, rfl⟩)
        change ((k, v) :: present rows).lookup row.1 = row.2
        rw [List.lookup_cons, other]
        exact ih rest later

theorem Resends.on {s : Schema} (resends : Resends s) {v w : Json} (returned : s.on v = some w) :
    s.on (reparsed w) = some (reparsed w) := by
  have again := resends.again (some v) (some w) (Option.join_eq_some_iff.mp returned)
  exact Option.join_eq_some_iff.mpr again

variable {s : Schema}

theorem resends_isFinite (check : ℚ → Bool) : Resends (only (Json.isFinite check)) :=
  resends_only fun _ => isFinite_reparsed

theorem resends_some : Resends some := ⟨fun _ _ _ => rfl, fun _ => nofun⟩

theorem resends_nullable (inner : Resends s) : Resends s.nullable where
  again v w returned := by
    rw [nullable] at returned ⊢
    split_ifs at returned with null
    · rw [← Option.some.inj returned, null, Option.map_some, reparsed, if_pos rfl]
    · rw [inner.again v w returned, ite_self]
  defined v := by
    rw [nullable]
    split_ifs
    · nofun
    · exact inner.defined v

theorem resends_optional (inner : Resends s) : Resends s.optional where
  again v w returned := by
    rw [optional] at returned ⊢
    split_ifs at returned with undefined
    · rw [← Option.some.inj returned, Option.map_none, if_pos rfl]
    · split_ifs with undefined'
      · rw [undefined']
      · exact inner.again v w returned
  defined v := by
    rw [optional, if_neg (Option.some_ne_none v)]
    exact inner.defined v

/-- The value that stands in for undefined data has to pass the schema. -/
theorem resends_default {d : Json} (inner : Resends s) (passes : s (some d) = some (some d)) :
    Resends (s.default d) where
  again v w returned := by
    rw [default] at returned ⊢
    split_ifs at returned with undefined
    · rw [← Option.some.inj returned, if_neg nofun]
      exact inner.again (some d) (some d) passes
    · obtain ⟨v, rfl⟩ := Option.ne_none_iff_exists'.mp undefined
      cases w with
      | none => exact absurd returned (inner.defined v)
      | some w =>
        rw [if_neg nofun]
        exact inner.again (some v) (some w) returned
  defined v := by
    rw [default, if_neg (Option.some_ne_none v)]
    exact inner.defined v

theorem resends_array (inner : Resends s) : Resends s.array where
  again v w returned := by
    unfold array at returned
    split at returned
    · obtain ⟨items, taken, rfl⟩ := Option.map_eq_some_iff.mp returned
      have again := mapM_resends (fun _ _ => inner.on) taken
      rw [Option.map_some, reparsed, reparsedItems_eq_map, array]
      exact congrArg (Option.map _) again
    · cases returned
  defined v := by
    unfold array
    split
    · simp
    · nofun

/-- What a schema of records returns: an object without `__proto__`, whose values are those that
the inner schema returns. -/
theorem record_eq_some_iff {v w : Option Json} : record s v = some w ↔ ∃ l members,
    v = some (.obj l) ∧ w = some (.obj members) ∧
      (l.filter (·.1 ≠ "__proto__")).mapM (fun p => (s.on p.2).map (p.1, ·)) = some members := by
  unfold record
  constructor
  · intro returned
    split at returned
    · obtain ⟨members, taken, rfl⟩ := Option.map_eq_some_iff.mp returned
      exact ⟨_, members, rfl, rfl, taken⟩
    · cases returned
  · rintro ⟨l, members, rfl, rfl, taken⟩
    exact Option.map_eq_some_iff.mpr ⟨members, taken, rfl⟩

theorem plain_of_record {v : Option Json} {members : List (String × Json)}
    (returned : record s v = some (some (.obj members))) : "__proto__" ∉ members.map Prod.fst := by
  obtain ⟨l, members', -, same, taken⟩ := record_eq_some_iff.mp returned
  obtain rfl := Json.obj.inj (Option.some.inj same)
  have keys : members.map Prod.fst = (l.filter (·.1 ≠ "__proto__")).map Prod.fst := by
    refine map_eq_of_forall₂ (fun p q entry => ?_) (mapM_eq_some_iff.mp taken)
    obtain ⟨_, -, rfl⟩ := Option.map_eq_some_iff.mp entry
    rfl
  rw [keys]
  intro member
  obtain ⟨q, there, key⟩ := List.mem_map.mp member
  exact of_decide_eq_true (List.mem_filter.mp there).2 key

theorem resends_record (inner : Resends s) : Resends s.record where
  again v w returned := by
    obtain ⟨l, members, rfl, rfl, taken⟩ := record_eq_some_iff.mp returned
    have plain : ∀ p ∈ members.map fun p => (p.1, reparsed p.2), p.1 ≠ "__proto__" := by
      intro p member key
      obtain ⟨q, there, rfl⟩ := List.mem_map.mp member
      exact plain_of_record returned (List.mem_map.mpr ⟨q, there, key⟩)
    rw [Option.map_some, reparsed, reparsedMembers_eq_map, record_eq_some_iff]
    refine ⟨_, _, rfl, rfl, ?_⟩
    rw [List.filter_eq_self.mpr fun p member => decide_eq_true (plain p member)]
    refine mapM_resends (g := fun p => (p.1, reparsed p.2)) (fun p q entry => ?_) taken
    obtain ⟨_, returned, rfl⟩ := Option.map_eq_some_iff.mp entry
    exact congrArg (Option.map _) (inner.on returned)
  defined v := by
    unfold record
    split
    · simp
    · nofun

/-- An object schema returns an object, with what the schema of each name returns for what the
data have under it. -/
theorem object_eq_some_iff {shape : List (String × Schema)} {v w : Option Json} :
    object shape v = some w ↔ ∃ members rows, v = some (.obj members) ∧
      w = some (.obj (present rows)) ∧ List.Forall₂ (fun field row =>
        row.1 = field.1 ∧ field.2 (members.lookup field.1) = some row.2) shape rows := by
  have entry (members : List (String × Json)) (field : String × Schema)
      (row : String × Option Json) :
      (field.2 (members.lookup field.1)).map (field.1, ·) = some row ↔
        row.1 = field.1 ∧ field.2 (members.lookup field.1) = some row.2 := by
    rw [Option.map_eq_some_iff]
    constructor
    · rintro ⟨value, returned, rfl⟩
      exact ⟨rfl, returned⟩
    · rintro ⟨name, returned⟩
      exact ⟨row.2, returned, Prod.ext name.symm rfl⟩
  unfold object
  constructor
  · intro returned
    split at returned
    · rename_i members
      obtain ⟨rows, taken, rfl⟩ := Option.map_eq_some_iff.mp returned
      refine ⟨members, rows, rfl, rfl, ?_⟩
      simpa only [entry] using mapM_eq_some_iff.mp taken
    · cases returned
  · rintro ⟨members, rows, rfl, rfl, taken⟩
    refine Option.map_eq_some_iff.mpr ⟨rows, mapM_eq_some_iff.mpr ?_, rfl⟩
    simpa only [entry] using taken

theorem reparsedMembers_present (rows : List (String × Option Json)) :
    reparsedMembers (present rows) =
      present (rows.map fun row => (row.1, row.2.map reparsed)) := by
  induction rows with
  | nil => rfl
  | cons row rows ih =>
    obtain ⟨k, _ | v⟩ := row
    · exact ih
    · exact congrArg ((k, reparsed v) :: ·) ih

theorem resends_object {shape : List (String × Schema)} (nodup : (shape.map Prod.fst).Nodup)
    (inner : ∀ field ∈ shape, Resends field.2) : Resends (object shape) where
  again v w returned := by
    obtain ⟨members, rows, rfl, rfl, taken⟩ := object_eq_some_iff.mp returned
    have names : rows.map Prod.fst = shape.map Prod.fst :=
      map_eq_of_forall₂ (fun _ _ both => both.1) taken
    have cells : ∀ row ∈ rows, (reparsedMembers (present rows)).lookup row.1 =
        row.2.map reparsed := by
      intro row member
      rw [lookup_reparsedMembers, lookup_present (names ▸ nodup) member]
    refine object_eq_some_iff.mpr ⟨_, rows.map fun row => (row.1, row.2.map reparsed), rfl,
      congrArg (fun l => some (Json.obj l)) (reparsedMembers_present rows), ?_⟩
    -- The fields one by one; what comes back stays the whole object.
    generalize reparsedMembers (present rows) = sent at cells ⊢
    clear names nodup returned
    induction taken with
    | nil => exact .nil
    | @cons field row shape rows first _ ih =>
      refine .cons ⟨first.1, ?_⟩ (ih (fun f member => inner f (List.mem_cons_of_mem _ member))
        fun r member => cells r (List.mem_cons_of_mem _ member))
      have again := (inner field List.mem_cons_self).again _ _ first.2
      rw [← first.1, cells row List.mem_cons_self]
      exact again
  defined v returned := by
    obtain ⟨_, _, _, undefined, _⟩ := object_eq_some_iff.mp returned
    cases undefined

/-- What an object schema returns has, under the name of a field, what its schema returns. -/
theorem lookup_of_object {shape : List (String × Schema)} (nodup : (shape.map Prod.fst).Nodup)
    {v w : Option Json} (returned : object shape v = some w) {field : String × Schema}
    (member : field ∈ shape) : ∃ members members', v = some (.obj members) ∧
      w = some (.obj members') ∧
        field.2 (members.lookup field.1) = some (members'.lookup field.1) := by
  obtain ⟨members, rows, rfl, rfl, taken⟩ := object_eq_some_iff.mp returned
  have names : rows.map Prod.fst = shape.map Prod.fst :=
    map_eq_of_forall₂ (fun _ _ both => both.1) taken
  have cells : ∀ row ∈ rows, (present rows).lookup row.1 = row.2 :=
    fun row member => lookup_present (names ▸ nodup) member
  refine ⟨members, present rows, rfl, rfl, ?_⟩
  generalize present rows = sent at cells ⊢
  clear names nodup returned
  induction taken with
  | nil => cases member
  | @cons first row shape rows here _ ih =>
    rcases List.mem_cons.mp member with rfl | later
    · rw [here.2, ← here.1, cells row List.mem_cons_self]
    · exact ih later fun r member => cells r (List.mem_cons_of_mem _ member)

theorem mem_of_lookup {options : List (String × Schema)} {tag : String}
    (chosen : options.lookup tag = some s) : (tag, s) ∈ options := by
  obtain ⟨before, after, rfl, -⟩ := List.lookup_eq_some_iff.mp chosen
  simp

/-- Each schema of a union returns objects with its own tag under the key. -/
theorem resends_discriminatedUnion {key : String} {options : List (String × Schema)}
    (inner : ∀ option ∈ options, Resends option.2)
    (tagged : ∀ option ∈ options, ∀ v w, option.2 v = some w →
      ∃ members, w = some (.obj members) ∧ members.lookup key = some (.str option.1)) :
    Resends (discriminatedUnion key options) where
  again v w returned := by
    unfold discriminatedUnion at returned
    split at returned
    · split at returned
      · rename_i tag _
        obtain ⟨s, chosen, returned⟩ := Option.bind_eq_some_iff.mp returned
        have member : (tag, s) ∈ options := mem_of_lookup chosen
        obtain ⟨members, rfl, own⟩ := tagged _ member _ _ returned
        rw [Option.map_some, reparsed, discriminatedUnion, lookup_reparsedMembers, own]
        have again := (inner _ member).again _ _ returned
        rw [Option.map_some, reparsed] at again
        simpa [reparsed, chosen] using again
      · cases returned
    · cases returned
  defined v := by
    unfold discriminatedUnion
    split
    · split
      · intro returned
        obtain ⟨s, chosen, returned⟩ := Option.bind_eq_some_iff.mp returned
        exact (inner _ (mem_of_lookup chosen)).defined _ returned
      · nofun
    · nofun

/-! ### Data that are returned as they are -/

/-- The schema returns the data as they are if the condition holds, and throws otherwise. -/
def Tests (s : Schema) (v : Json) (p : Prop) : Prop := ∀ w, s (some v) = some w ↔ p ∧ w = some v

section Tests

variable {v : Json} {p q : Prop}

theorem Tests.congr (tests : Tests s v p) (same : p ↔ q) : Tests s v q := fun w =>
  (tests w).trans (and_congr same Iff.rfl)

/-- What the schema is tested on. -/
theorem Tests.on_iff (tests : Tests s v p) {w : Json} : s.on v = some w ↔ p ∧ w = v := by
  rw [Schema.on, Option.join_eq_some_iff, tests, Option.some.injEq]

theorem tests_only (kind : Json → Bool) (v : Json) : Tests (only kind) v (kind v = true) := by
  intro w
  rw [only, Option.ite_none_right_eq_some, Option.some.injEq]
  exact and_congr Iff.rfl eq_comm

theorem Tests.nullable (tests : Tests s v p) : Tests s.nullable v (v = .null ∨ p) := by
  intro w
  rw [Schema.nullable]
  split_ifs with null
  · simp [Option.some.inj null, eq_comm]
  · have defined : v ≠ .null := fun same => null (congrArg some same)
    rw [tests, or_iff_right defined]

theorem Tests.optional (tests : Tests s v p) : Tests s.optional v p := fun w => by
  rw [Schema.optional, if_neg nofun, tests]

theorem Tests.default (tests : Tests s v p) (value : Json) : Tests (s.default value) v p :=
  fun w => by rw [Schema.default, if_neg nofun, tests]

/-- Items that are taken to known ones if they pass. -/
theorem mapM_tests {α β : Type*} {f : α → Option β} {g : α → β} {p : α → Prop} {l : List α}
    {m : List β} (tests : ∀ a ∈ l, ∀ b, f a = some b ↔ p a ∧ b = g a) :
    l.mapM f = some m ↔ (∀ a ∈ l, p a) ∧ m = l.map g := by
  rw [mapM_eq_some_iff]
  induction l generalizing m with
  | nil => simp
  | cons a l ih =>
    obtain ⟨first, rest⟩ := List.forall_mem_cons.mp tests
    rw [List.forall₂_cons_left_iff, List.forall_mem_cons]
    constructor
    · rintro ⟨b, m', returned, taken, rfl⟩
      obtain ⟨passes, rfl⟩ := (first b).mp returned
      obtain ⟨others, rfl⟩ := (ih rest).mp taken
      exact ⟨⟨passes, others⟩, rfl⟩
    · rintro ⟨⟨passes, others⟩, rfl⟩
      exact ⟨g a, l.map g, (first _).mpr ⟨passes, rfl⟩, (ih rest).mpr ⟨others, rfl⟩, rfl⟩

/-- What is made of parts is returned as it is if the parts are. -/
theorem tests_of_parts {α : Type*} {parts : Option α} {known : α} {make : α → Json} {p : Prop}
    (iff : ∀ m, parts = some m ↔ p ∧ m = known) (w : Option Json) :
    parts.map (fun m => some (make m)) = some w ↔ p ∧ w = some (make known) := by
  rw [Option.map_eq_some_iff]
  constructor
  · rintro ⟨m, same, rfl⟩
    obtain ⟨passes, rfl⟩ := (iff m).mp same
    exact ⟨passes, rfl⟩
  · rintro ⟨passes, rfl⟩
    exact ⟨known, (iff known).mpr ⟨passes, rfl⟩, rfl⟩

theorem tests_array {α : Type*} {dump : α → Json} {p : α → Prop} {l : List α}
    (tests : ∀ a ∈ l, Tests s (dump a) (p a)) :
    Tests (array s) (.arr (l.map dump)) (∀ a ∈ l, p a) := by
  refine tests_of_parts fun m => ?_
  rw [List.mapM_map]
  exact mapM_tests fun a member w => (tests a member).on_iff

theorem tests_record {α : Type*} {dump : α → Json} {p : α → Prop} {l : List (String × α)}
    (plain : "__proto__" ∉ l.map Prod.fst) (tests : ∀ q ∈ l, Tests s (dump q.2) (p q.2)) :
    Tests (record s) (.obj (l.map fun q => (q.1, dump q.2))) (∀ q ∈ l, p q.2) := by
  have all : (l.map fun q => (q.1, dump q.2)).filter (·.1 ≠ "__proto__") =
      l.map fun q => (q.1, dump q.2) := by
    refine List.filter_eq_self.mpr fun q member => decide_eq_true fun same => plain ?_
    obtain ⟨entry, there, rfl⟩ := List.mem_map.mp member
    exact List.mem_map.mpr ⟨entry, there, same⟩
  refine tests_of_parts fun m => ?_
  rw [all, List.mapM_map]
  refine mapM_tests fun q member w => ?_
  rw [Function.comp_apply, Option.map_eq_some_iff]
  simp only [(tests q member).on_iff]
  constructor
  · rintro ⟨v, ⟨passes, rfl⟩, rfl⟩
    exact ⟨passes, rfl⟩
  · rintro ⟨passes, rfl⟩
    exact ⟨_, ⟨passes, rfl⟩, rfl⟩

/-- A field of data with its schema and what that tests. -/
structure Cell where
  name : String
  schema : Schema
  data : Json
  condition : Prop

/-- Data with exactly the fields of a shape. -/
theorem tests_object (cells : List Cell) (nodup : (cells.map Cell.name).Nodup)
    (tests : ∀ c ∈ cells, Tests c.schema c.data c.condition) :
    Tests (object (cells.map fun c => (c.name, c.schema)))
      (.obj (cells.map fun c => (c.name, c.data))) (∀ c ∈ cells, c.condition) := by
  let known : List (String × Option Json) := cells.map fun c => (c.name, some c.data)
  have members : present known = cells.map fun c => (c.name, c.data) := by
    rw [present, List.filterMap_map]
    exact congrFun (List.filterMap_eq_map (f := fun c : Cell => (c.name, c.data))) cells
  have found (c : Cell) (member : c ∈ cells) : (present known).lookup c.name = some c.data := by
    have names : (known.map Prod.fst).Nodup := by rwa [List.map_map]
    exact lookup_present names (List.mem_map_of_mem member)
  rw [← members]
  have parts (rows : List (String × Option Json)) :
      ((cells.map fun c => (c.name, c.schema)).mapM fun (field : String × Schema) =>
        (field.2 ((present known).lookup field.1)).map (field.1, ·)) = some rows ↔
          (∀ c ∈ cells, c.condition) ∧ rows = known := by
    rw [List.mapM_map]
    refine mapM_tests fun c member row => ?_
    rw [Function.comp_apply, found c member, Option.map_eq_some_iff]
    simp only [tests c member _]
    constructor
    · rintro ⟨v, ⟨passes, rfl⟩, rfl⟩
      exact ⟨passes, rfl⟩
    · rintro ⟨passes, rfl⟩
      exact ⟨_, ⟨passes, rfl⟩, rfl⟩
  exact tests_of_parts parts

/-- The schema of the tag is tested. -/
theorem tests_discriminatedUnion {key tag : String} {options : List (String × Schema)}
    {members : List (String × Json)} (tagged : members.lookup key = some (.str tag))
    (option : options.lookup tag = some s) (tests : Tests s (.obj members) p) :
    Tests (discriminatedUnion key options) (.obj members) p := by
  intro w
  simp only [discriminatedUnion, tagged, option, Option.bind_some]
  exact tests w

end Tests

end Schema

namespace Zod

open Schema

/-- `number().int()` with further checks, which admits safe integers. -/
def int (z : Zod) (check : ℚ → Bool) : Schema :=
  z.number fun q => q.den = 1 && |q| ≤ 2 ^ 53 - 1 && check q

variable (z : Zod) {s : Schema}

@[simp] theorem string_str (text : String) :
    z.string (some (.str text)) = some (some (.str text)) := by
  rw [z.string_eq]
  rfl

@[simp] theorem uuid_str (text : String) :
    z.uuid (some (.str text)) = if z.isUuid text then some (some (.str text)) else none := by
  rw [z.uuid_eq]
  rfl

theorem isUuid_of_uuid {v : Option Json} {text : String}
    (returned : z.uuid v = some (some (.str text))) : z.isUuid text = true := by
  rw [z.uuid_eq] at returned
  exact kind_of_only returned

@[simp] theorem enum_str (texts : List String) (text : String) :
    z.enum texts (some (.str text)) = if text ∈ texts then some (some (.str text)) else none := by
  simp [z.enum_eq, only, Json.isString]

@[simp] theorem default_some (s : Schema) (value v : Json) :
    z.default s value (some v) = s (some v) := by
  simp [z.default_eq, Schema.default]

@[simp] theorem optional_none (s : Schema) : z.optional s none = some none := by
  simp [z.optional_eq, Schema.optional]

@[simp] theorem optional_some (s : Schema) (v : Json) :
    z.optional s (some v) = s (some v) := by
  simp [z.optional_eq, Schema.optional]

theorem resends_string : Resends z.string := z.string_eq ▸ resends_isString _

theorem resends_number (check : ℚ → Bool) : Resends (z.number check) :=
  z.number_eq check ▸ resends_isFinite check

theorem resends_int (check : ℚ → Bool) : Resends (z.int check) := z.resends_number _

theorem resends_enum (texts : List String) : Resends (z.enum texts) :=
  z.enum_eq texts ▸ resends_isString _

theorem resends_any : Resends z.any := z.any_eq ▸ resends_some

theorem resends_nullable (inner : Resends s) : Resends (z.nullable s) :=
  z.nullable_eq s ▸ Schema.resends_nullable inner

theorem resends_optional (inner : Resends s) : Resends (z.optional s) :=
  z.optional_eq s ▸ Schema.resends_optional inner

theorem resends_array (inner : Resends s) : Resends (z.array s) :=
  z.array_eq s ▸ Schema.resends_array inner

theorem resends_record (inner : Resends s) : Resends (z.record s) :=
  z.record_eq s ▸ Schema.resends_record inner

theorem resends_object {shape : List (String × Schema)} (nodup : (shape.map Prod.fst).Nodup)
    (inner : ∀ field ∈ shape, Resends field.2) : Resends (z.object shape) :=
  z.object_eq shape ▸ Schema.resends_object nodup inner

theorem resends_default_string (text : String) : Resends (z.default z.string (.str text)) := by
  rw [z.default_eq, z.string_eq]
  exact resends_default (resends_isString _) rfl

/-- A literal that stands in for undefined data, too, is all that its schema returns. -/
theorem default_literal_eq {text : String} {v w : Option Json}
    (returned : z.default (z.literal text) (.str text) v = some w) : w = some (.str text) := by
  rw [z.default_eq, z.literal_eq, Schema.default] at returned
  split_ifs at returned
  · exact (Option.some.inj returned).symm
  · cases v with
    | none => cases returned
    | some v =>
      obtain ⟨isText, same⟩ := Option.ite_none_right_eq_some.mp returned
      cases v with
      | str other =>
        rw [← Option.some.inj same, of_decide_eq_true isText]
      | _ => cases isText

theorem resends_default_literal (text : String) :
    Resends (z.default (z.literal text) (.str text)) := by
  rw [z.default_eq, z.literal_eq]
  exact resends_default (resends_isString _) (if_pos (decide_eq_true rfl))

/-! What the schemas of the library test -/

section Tests

variable {v : Json} {p : Prop}

theorem tests_string (text : String) : Tests z.string (.str text) True := by
  rw [z.string_eq]
  exact (tests_only _ _).congr (iff_of_true rfl trivial)

theorem tests_uuid (text : String) : Tests z.uuid (.str text) (z.isUuid text = true) := by
  rw [z.uuid_eq]
  exact tests_only _ _

theorem tests_literal (text : String) : Tests (z.literal text) (.str text) True := by
  rw [z.literal_eq]
  exact (tests_only _ _).congr (iff_of_true (decide_eq_true rfl) trivial)

theorem tests_enum (texts : List String) (text : String) :
    Tests (z.enum texts) (.str text) (text ∈ texts) := by
  rw [z.enum_eq]
  exact (tests_only _ _).congr decide_eq_true_iff

theorem tests_any (v : Json) : Tests z.any v True := by
  rw [z.any_eq]
  exact fun w => by rw [Option.some.injEq, true_and, eq_comm]

theorem tests_number (check : ℚ → Bool) (x : Float64) :
    Tests (z.number check) (.float x) ((Json.float x).isFinite check = true) := by
  rw [z.number_eq]
  exact tests_only _ _

theorem tests_int (check : ℚ → Bool) (n : ℤ) :
    Tests (z.int check) (.float (Float64.ofInt n)) (n.natAbs < 2 ^ 53 ∧ check n = true) := by
  rw [Zod.int, z.number_eq]
  refine (tests_only _ _).congr ?_
  rw [Json.isFinite_ofInt, Bool.and_eq_true, decide_eq_true_iff]

theorem tests_default (tests : Tests s v p) (value : Json) : Tests (z.default s value) v p := by
  rw [z.default_eq]
  exact tests.default value

theorem tests_optional (tests : Tests s v p) : Tests (z.optional s) v p := by
  rw [z.optional_eq]
  exact tests.optional

/-- A field that may be null or missing, and is there. -/
theorem tests_nullish {α : Type*} {dump : α → Json} {p : α → Prop} (value : Option α)
    (proper : ∀ a, dump a ≠ .null) (tests : ∀ a, Tests s (dump a) (p a)) :
    Tests (z.optional (z.nullable s)) (value.elim .null dump) (∀ a ∈ value, p a) := by
  refine z.tests_optional ?_
  rw [z.nullable_eq]
  cases value with
  | none =>
    intro w
    have null : s.nullable (some .null) = some (some .null) := if_pos rfl
    rw [Option.elim_none, null, Option.some.injEq]
    exact ⟨fun same => ⟨nofun, same.symm⟩, fun same => same.2.symm⟩
  | some a =>
    refine (tests a).nullable.congr ?_
    rw [or_iff_right (proper a)]
    simp

theorem tests_array {α : Type*} {dump : α → Json} {p : α → Prop} (l : List α)
    (tests : ∀ a, Tests s (dump a) (p a)) :
    Tests (z.array s) (.arr (l.map dump)) (∀ a ∈ l, p a) := by
  rw [z.array_eq]
  exact Schema.tests_array fun a _ => tests a

theorem tests_record {α : Type*} {dump : α → Json} {p : α → Prop} {l : List (String × α)}
    (plain : "__proto__" ∉ l.map Prod.fst) (tests : ∀ a, Tests s (dump a) (p a)) :
    Tests (z.record s) (.obj (l.map fun q => (q.1, dump q.2))) (∀ q ∈ l, p q.2) := by
  rw [z.record_eq]
  exact Schema.tests_record plain fun q _ => tests q.2

theorem tests_object (cells : List Schema.Cell) (nodup : (cells.map Schema.Cell.name).Nodup)
    (tests : ∀ c ∈ cells, Tests c.schema c.data c.condition) :
    Tests (z.object (cells.map fun c => (c.name, c.schema)))
      (.obj (cells.map fun c => (c.name, c.data))) (∀ c ∈ cells, c.condition) := by
  rw [z.object_eq]
  exact Schema.tests_object cells nodup tests

end Tests

/-! ### A library -/

/-- The characters that stand at each place of a UUID. -/
def uuidForm : List (List Char) :=
  let hex := "0123456789abcdefABCDEF".toList
  List.replicate 8 hex ++ [['-']] ++ List.replicate 4 hex ++ [['-'], "12345678".toList] ++
    List.replicate 3 hex ++ [['-'], "89abAB".toList] ++ List.replicate 3 hex ++ [['-']] ++
      List.replicate 12 hex

/-- A UUID with a version and a variant, or the first or the last of all. -/
def hasUuidForm (s : String) : Bool :=
  s = "00000000-0000-0000-0000-000000000000" || s = "ffffffff-ffff-ffff-ffff-ffffffffffff" ||
    s.toList.length = uuidForm.length &&
      (List.zip uuidForm s.toList).all fun (allowed, c) => c ∈ allowed

theorem exists_allowed {form : List (List Char)} {cs : List Char} (length : cs.length = form.length)
    (fits : ((List.zip form cs).all fun (allowed, c) => c ∈ allowed) = true) :
    ∀ c ∈ cs, ∃ allowed ∈ form, c ∈ allowed := by
  induction cs generalizing form with
  | nil => nofun
  | cons first cs ih =>
    cases form with
    | nil => cases length
    | cons allowed form =>
      rw [List.zip_cons_cons, List.all_cons, Bool.and_eq_true, decide_eq_true_eq] at fits
      intro c member
      rcases List.mem_cons.mp member with rfl | later
      · exact ⟨allowed, List.mem_cons_self, fits.1⟩
      · obtain ⟨there, held, among⟩ := ih (Nat.succ.inj length) fits.2 c later
        exact ⟨there, List.mem_cons_of_mem _ held, among⟩

theorem hasUuidForm_chars (s : String) (form : hasUuidForm s = true) :
    ∀ c ∈ s.toList, c ∈ "0123456789abcdefABCDEF-".toList := by
  have among (l : List Char) (known : l.all (· ∈ "0123456789abcdefABCDEF-".toList) = true) :
      ∀ c ∈ l, c ∈ "0123456789abcdefABCDEF-".toList :=
    fun c member => of_decide_eq_true (List.all_eq_true.mp known c member)
  rw [hasUuidForm, Bool.or_eq_true, Bool.or_eq_true] at form
  rcases form with (first | last) | form
  · obtain rfl := of_decide_eq_true first
    exact among _ (by decide)
  · obtain rfl := of_decide_eq_true last
    exact among _ (by decide)
  · rw [Bool.and_eq_true, decide_eq_true_eq] at form
    intro c member
    obtain ⟨allowed, place, here⟩ := exists_allowed form.1 form.2 c member
    have known : (uuidForm.all fun allowed =>
        allowed.all (· ∈ "0123456789abcdefABCDEF-".toList)) = true := by decide
    exact among allowed (List.all_eq_true.mp known allowed place) c here

/-- The library with a form of UUIDs. -/
def plain (isUuid : String → Bool)
    (chars : ∀ s, isUuid s = true → ∀ c ∈ s.toList, c ∈ "0123456789abcdefABCDEF-".toList) :
    Zod where
  isUuid := isUuid
  string := only (Json.isString fun _ => true)
  uuid := only (Json.isString isUuid)
  number check := only (Json.isFinite check)
  literal text := only (Json.isString (· = text))
  enum texts := only (Json.isString (· ∈ texts))
  any := some
  nullable := Schema.nullable
  optional := Schema.optional
  default := Schema.default
  array := Schema.array
  record := Schema.record
  object := Schema.object
  discriminatedUnion := Schema.discriminatedUnion
  isUuid_chars := chars
  string_eq := rfl
  uuid_eq := rfl
  number_eq _ := rfl
  literal_eq _ := rfl
  enum_eq _ := rfl
  any_eq := rfl
  nullable_eq _ := rfl
  optional_eq _ := rfl
  default_eq _ _ := rfl
  array_eq _ := rfl
  record_eq _ := rfl
  object_eq _ := rfl
  discriminatedUnion_eq _ _ := rfl

end Zod

end Foundation
