import AgentTelepathy.Foundation.NumberText
import AgentTelepathy.Foundation.Rows
import AgentTelepathy.Schemas.Records

/-!
# What Python accepts from another library

Another library signs the canonical text of its own value, in its own dialect, and sends
the value as JSON. Python reads that into a model and checks the signature against the
canonical text of the model. So it accepts the payload exactly if the model is written
alike: no field is left out, and every field is read as a value whose dump is written as
the other library has written the field.
-/

namespace AgentTelepathy

open Foundation Dialect Reader
open JsonText (intText)
open JsonTree (Alike SameOrder present)

/-- A library that sends values with numbers of some type: the dialect it signs them in,
and what Python reads where it sends a number. -/
structure Emitter (ν : Type*) where
  dialect : Dialect ν
  numeral : ν → Numeral

namespace Emitter

variable {ν : Type*} {E : Emitter ν} {α : Type} {ambient : Ambient}

/-- What Python reads from the text that is sent for a value. -/
def received (E : Emitter ν) (v : JsonTree ν) : Json := Json.ofTree (v.map E.numeral)

/-- Python reads the payload, and writes what it has read as it was signed. -/
def Accepts (E : Emitter ν) (ambient : Ambient) (v : JsonTree ν) (p : Payload) : Prop :=
  Payload.modelValidate ambient (E.received v) = .ok p ∧
    Dialect.Agree E.dialect Dialect.python v p.modelDump.tree

/-- A field is sent, and Python reads its value there and writes it as it was signed. -/
def Matches (E : Emitter ν) (read : Reader α) (dump : α → Json) (cell : Option (JsonTree ν))
    (a : α) : Prop :=
  ∃ v, cell = some v ∧ read (E.received v) = .ok a ∧
    Dialect.Agree E.dialect Dialect.python v (dump a).tree

/-- A field of a model is sent, read and written so. -/
def Carries (E : Emitter ν) (row : String × Option (JsonTree ν)) (f : ModelField) : Prop :=
  ∃ v, row.2 = some v ∧ f.Reads (E.received v) ∧
    Dialect.Agree E.dialect Dialect.python v f.dumped.tree

theorem carries_of_iff {name name' : String} {cell : Option (JsonTree ν)} {read : Reader α}
    {dump : α → Json} {a : α} :
    E.Carries (name, cell) (.of name' read dump a) ↔ E.Matches read dump cell a := Iff.rfl

/-- The names of fields stand in one order, and are written alike. -/
structure Plain (E : Emitter ν) (names : List String) : Prop where
  order : SameOrder E.dialect.form.code Dialect.python.form.code names
  alike : ∀ k ∈ names, Alike E.dialect.escaping Dialect.python.escaping k

/-! ### Records -/

theorem received_obj (l : List (String × JsonTree ν)) :
    E.received (.obj l) = .obj (l.map fun p => (p.1, E.received p.2)) := by
  rw [received, JsonTree.map, JsonTree.mapMembers_eq_map, Json.ofTree, Json.ofTreeMembers_eq_map,
    List.map_map]
  rfl

/-- A record is read and written alike exactly if it carries every field. -/
theorem record_iff {read : Reader α} {fields : α → List ModelField}
    (describes : Describes read fields) {rows : List (String × Option (JsonTree ν))} {a : α}
    (keys : rows.map Prod.fst = (fields a).map ModelField.name)
    (nodup : ((fields a).map ModelField.name).Nodup)
    (plain : E.Plain ((fields a).map ModelField.name)) :
    read (E.received (.obj (present rows))) = .ok a ∧
        Dialect.Agree E.dialect Dialect.python (.obj (present rows))
          (.obj ((fields a).map fun f => (f.name, f.dumped.tree))) ↔
      List.Forall₂ E.Carries rows (fields a) := by
  let cells (cell : String → Option (JsonTree ν)) := (fields a).map fun f => (f.name, cell f.name)
  obtain ⟨cell, here⟩ : ∃ cell, rows = cells cell := by
    obtain ⟨cell, here⟩ := JsonTree.exists_cell (keys ▸ nodup)
    exact ⟨cell, by rw [here, keys, List.map_map]; rfl⟩
  have names : ((fields a).map fun f => (f.name, f.dumped.tree)).map Prod.fst =
      (fields a).map ModelField.name := List.map_map
  have carried : List.Forall₂ E.Carries rows (fields a) ↔
      ∀ f ∈ fields a, E.Carries (f.name, cell f.name) f := by
    rw [here, List.forall₂_map_left_iff, List.forall₂_same]
  have agreed := agree_rows_iff (d := E.dialect) (e := Dialect.python) (keys.trans names.symm)
    (names ▸ nodup) (names ▸ plain.order) (names ▸ plain.alike)
  rw [agreed, carried, here, List.forall₂_map_left_iff, List.forall₂_map_right_iff,
    List.forall₂_same]
  -- If every field is sent, the object is complete.
  have reads (all : ∀ f ∈ fields a, ∃ v, cell f.name = some v) :
      read (E.received (.obj (present (cells cell)))) = .ok a ↔
        ∀ f ∈ fields a, f.Reads (E.received ((cell f.name).getD .null)) := by
    have some' : ∀ f ∈ fields a, cell f.name = some ((cell f.name).getD .null) := by
      intro f member
      obtain ⟨v, sent⟩ := all f member
      rw [sent, Option.getD_some]
    rw [JsonTree.present_map _ some', received_obj, List.map_map]
    exact describes a fun name => E.received ((cell name).getD .null)
  constructor
  · rintro ⟨read', agree⟩ f member
    have fields' := (reads fun f member => (agree f member).imp fun v h => h.1).mp read' f member
    obtain ⟨v, sent, agree⟩ := agree f member
    rw [show cell f.name = some v from sent, Option.getD_some] at fields'
    exact ⟨v, sent, fields', agree⟩
  · intro carries
    refine ⟨(reads fun f member => (carries f member).imp fun v h => h.1).mpr fun f member => ?_,
      fun f member => (carries f member).imp fun v h => ⟨h.1, h.2.2⟩⟩
    obtain ⟨v, sent, here, -⟩ := carries f member
    rw [show cell f.name = some v from sent, Option.getD_some]
    exact here

/-- Python accepts a payload exactly as one with the fields that are sent, if it carries all
of them. -/
theorem accepts_iff {kind : String} (known : kind ∈ Payload.tags)
    {rows : List (String × Option (JsonTree ν))}
    (keys : rows.map Prod.fst = Payload.namesOf kind) (plain : E.Plain (Payload.namesOf kind))
    {p : Payload} : E.Accepts ambient (.obj (present rows)) p ↔
      p.tag = kind ∧ List.Forall₂ E.Carries rows (p.fields ambient) := by
  have tree : p.modelDump.tree =
      .obj ((p.fields ambient).map fun f => (f.name, f.dumped.tree)) := by
    rw [Payload.modelDump, Payload.modelDumpItems_eq ambient, Json.tree, Json.treeMembers_eq_map,
      List.map_map]
    rfl
  have names : ((p.fields ambient).map fun f => (f.name, f.dumped.tree)).map Prod.fst =
      Payload.namesOf p.tag := List.map_map.trans (p.names_fields ambient)
  rw [Accepts, tree]
  by_cases same : p.tag = kind
  · subst same
    rw [← p.names_fields ambient] at keys plain
    have nodup := Payload.nodup_namesOf _ known
    rw [← p.names_fields ambient] at nodup
    exact (record_iff (Payload.describes ambient) keys nodup plain).trans
      (and_iff_right rfl).symm
  · refine iff_of_false (fun accepts => same ?_) fun h => same h.1
    -- What is dumped has no field that was not sent.
    have perm := accepts.2.keys_perm
    rw [names] at perm
    refine Payload.eq_of_names_subset _ p.tag_mem _ known fun k member => ?_
    exact keys ▸ (JsonTree.keys_present_sublist rows).subset (perm.mem_iff.mpr member)

/-! ### Fields -/

section Fields

variable {s : String} {x : ν} {v : JsonTree ν} {l : List (JsonTree ν)} {n : ℤ}

@[simp] theorem received_null : E.received .null = .null := rfl

@[simp] theorem received_str : E.received (.str s) = .str s := rfl

theorem received_num : E.received (.num x) = (E.numeral x).toJson := rfl

theorem received_arr : E.received (.arr l) = .arr (l.map E.received) := by
  rw [received, JsonTree.map, JsonTree.mapItems_eq_map, Json.ofTree, Json.ofTreeItems_eq_map,
    List.map_map]
  rfl

@[simp] theorem not_matches_none {read : Reader α} {dump : α → Json} {a : α} :
    ¬ E.Matches read dump none a := by
  rintro ⟨v, sent, -⟩
  cases sent

theorem matches_some_iff {read : Reader α} {dump : α → Json} {a : α} :
    E.Matches read dump (some v) a ↔ read (E.received v) = .ok a ∧
      Dialect.Agree E.dialect Dialect.python v (dump a).tree := by
  simp [Matches]

/-- A string is its own value, if it is written alike. -/
theorem matches_str_iff {a : String} : E.Matches str .str (some (.str s)) a ↔
    a = s ∧ Alike E.dialect.escaping Dialect.python.escaping s := by
  rw [matches_some_iff, received_str, str, Json.tree, agree_str_iff]
  constructor
  · rintro ⟨-, same, alike⟩
    obtain rfl := JsonTree.str.inj same
    exact ⟨rfl, alike⟩
  · rintro ⟨rfl, alike⟩
    exact ⟨rfl, rfl, alike⟩

theorem carries_tag_iff {cell : Option (JsonTree ν)} {tag : String} :
    E.Carries ("payload_type", cell) (Payload.tagField tag) ↔
      cell = some (.str tag) ∧ Alike E.dialect.escaping Dialect.python.escaping tag := by
  rw [Payload.tagField, carries_of_iff, Matches]
  simp only [literal_eq_ok, Json.tree, agree_str_iff]
  constructor
  · rintro ⟨v, sent, -, rfl, alike⟩
    exact ⟨sent, alike⟩
  · rintro ⟨sent, alike⟩
    exact ⟨_, sent, rfl, rfl, alike⟩

/-- Base64 data must decode. -/
theorem matches_base64_iff {a : Base64Data} :
    E.Matches base64 (fun d => .str d.text) (some (.str s)) a ↔
      a.text = s ∧ Alike E.dialect.escaping Dialect.python.escaping s := by
  rw [matches_some_iff, received_str, Json.tree, agree_str_iff]
  constructor
  · rintro ⟨-, same, alike⟩
    obtain rfl := JsonTree.str.inj same
    exact ⟨rfl, alike⟩
  · rintro ⟨rfl, alike⟩
    exact ⟨base64_text a, rfl, alike⟩

theorem matches_int_iff (whole : E.numeral x = .inl n) {a : ℤ} :
    E.Matches (int ambient) .int (some (.num x)) a ↔ a = n ∧ E.dialect.number x = intText n := by
  rw [matches_some_iff, received_num, whole, Json.tree, agree_num_iff]
  change Except.ok n = Except.ok a ∧ E.dialect.number x = intText a ↔ _
  rw [Except.ok.injEq]
  constructor
  · rintro ⟨rfl, same⟩
    exact ⟨rfl, same⟩
  · rintro ⟨rfl, same⟩
    exact ⟨rfl, same⟩

theorem matches_positive_iff (whole : E.numeral x = .inl n) {kind : ErrorKind}
    {a : { n : ℕ // 0 < n }} :
    E.Matches (Reader.positive ambient kind) (fun n => .int n.1) (some (.num x)) a ↔
      a.1 = n ∧ E.dialect.number x = intText n := by
  rw [matches_some_iff, received_num, whole, Json.tree, agree_num_iff]
  have reads : Reader.positive ambient kind (Numeral.toJson (.inl n)) =
      if h : 0 < n then .ok ⟨n.toNat, by omega⟩ else fail kind := rfl
  rw [reads]
  constructor
  · rintro ⟨read, same⟩
    split_ifs at read with above
    · have value : (a.1 : ℤ) = n := by
        rw [← Except.ok.inj read]
        exact Int.toNat_of_nonneg above.le
      rw [value] at same
      exact ⟨value, same⟩
    · cases read
  · rintro ⟨rfl, same⟩
    have above : 0 < (a.1 : ℤ) := by exact_mod_cast a.2
    rw [dif_pos above]
    exact ⟨congrArg Except.ok (Subtype.ext (Int.toNat_natCast _)), same⟩

/-- A double that is sent as JavaScript writes it. -/
structure Sends (E : Emitter ν) (x : ν) (b : Binary64) : Prop where
  zero : b.mant = 0 → ∃ neg, E.dialect.number x = Float64.signed neg (Float64.digits 0)
  nonzero : b.mant ≠ 0 → E.dialect.number x =
    Float64.signed b.neg (Ecma.layout (Float64.decimal b).1 (Float64.decimal b).2)
  read : E.numeral x = Numeral.ofText (E.dialect.number x)

/-- A float must be written alike: what is sent as an integer is read as one, and a float is
never written so. -/
theorem matches_float_iff {b : Binary64} (sends : E.Sends x b) {f : Float64} :
    E.Matches (float ambient) .float (some (.num x)) f ↔ f = .finite b ∧ b.Shared := by
  have written : E.Matches (float ambient) .float (some (.num x)) f ↔
      float ambient (E.numeral x).toJson = .ok f ∧ E.dialect.number x = Float64.repr f := by
    rw [matches_some_iff, received_num, Json.tree, agree_num_iff]
    rfl
  rw [written]
  by_cases zero : b.mant = 0
  · obtain ⟨neg, text⟩ := sends.zero zero
    rw [text]
    exact iff_of_false (fun h => Float64.repr_ne_signed_digits f neg 0 h.2.symm)
      fun h => h.2.1 zero
  · have text := sends.nonzero zero
    rw [sends.read, text, Numeral.ofText_layout zero]
    -- A whole number is sent without a point, so what is read back is an integer.
    by_cases plain : b.Whole
    · refine iff_of_false (fun h => ?_) fun h => Binary64.not_whole_of_shared h.2 plain
      rw [Numeral.layout_whole zero plain] at h
      exact Float64.repr_ne_signed_digits f _ _ h.2.symm
    · rw [if_neg plain]
      change Except.ok (Float64.finite b) = Except.ok f ∧ _ ↔ _
      rw [Except.ok.injEq, ← Binary64.repr_eq_layout_iff zero]
      constructor
      · rintro ⟨rfl, same⟩
        exact ⟨rfl, same.symm⟩
      · rintro ⟨rfl, same⟩
        exact ⟨rfl, same.symm⟩

/-! An optional field -/

theorem optional_eq_ok_iff {read : Reader α} {data : Json} (proper : data ≠ .null) {a : Option α} :
    Reader.optional read data = .ok a ↔ ∃ b, a = some b ∧ read data = .ok b := by
  have given : Reader.optional read data = (read data).map some := by
    cases data with
    | null => exact absurd rfl proper
    | _ => rfl
  rw [given, map_eq_ok]
  exact exists_congr fun b => and_comm.trans (and_congr eq_comm Iff.rfl)

theorem matches_optional_iff {read : Reader α} {dump : α → Json} (proper : v ≠ .null)
    {a : Option α} :
    E.Matches (Reader.optional read) (AgentTelepathy.optional dump) (some v) a ↔
      ∃ b, a = some b ∧ E.Matches read dump (some v) b := by
  have proper' : E.received v ≠ .null := by
    cases v with
    | null => exact absurd rfl proper
    | num x => rw [received_num]; cases E.numeral x <;> simp [Numeral.toJson]
    | _ => simp [received, JsonTree.map, Json.ofTree]
  simp only [matches_some_iff, optional_eq_ok_iff proper']
  constructor
  · rintro ⟨⟨b, rfl, reads⟩, agree⟩
    exact ⟨b, rfl, reads, agree⟩
  · rintro ⟨b, rfl, reads, agree⟩
    exact ⟨⟨b, rfl, reads⟩, agree⟩

/-! Lists and dictionaries -/

theorem items_eq_ok_iff {read : Reader α} {i : ℕ} {vs : List Json} {as : List α} :
    items read i vs = .ok as ↔ List.Forall₂ (fun v a => read v = .ok a) vs as := by
  induction vs generalizing i as with
  | nil => cases as <;> simp [items]
  | cons v vs ih => cases as <;> simp [items, bind_eq_ok, functor_map_eq_ok, ih]

theorem matches_list_iff {read : Reader α} {dump : α → Json} {as : List α} :
    E.Matches (list read) (fun l => .arr (l.map dump)) (some (.arr l)) as ↔
      List.Forall₂ (fun v a => E.Matches read dump (some v) a) l as := by
  rw [matches_some_iff, received_arr, list, items_eq_ok_iff, List.forall₂_map_left_iff, Json.tree,
    Json.treeItems_eq_map, agree_arr_iff, List.map_map, List.forall₂_map_right_iff]
  simp only [matches_some_iff]
  exact forall₂_and.symm

theorem members_eq_ok_iff {read : Reader α} {dump : α → Json} {vs : List (String × Json)}
    (exact' : ∀ m ∈ vs, ∀ a, read m.2 = .ok a ↔ dump a = m.2) {as : List (String × α)} :
    members read vs = .ok as ↔ as.map (fun entry => (entry.1, dump entry.2)) = vs := by
  induction vs generalizing as with
  | nil => cases as <;> simp [members]
  | cons m vs ih =>
    obtain ⟨k, v⟩ := m
    obtain ⟨here, rest⟩ := List.forall_mem_cons.mp exact'
    rw [members, bind_eq_ok]
    simp only [bind_eq_ok, within_eq_ok, here, ih rest]
    constructor
    · rintro ⟨b, rfl, bs, rfl, same⟩
      obtain rfl := Except.ok.inj same
      rfl
    · intro same
      obtain ⟨entry, as, rfl, first, others⟩ := List.map_eq_cons_iff.mp same
      obtain ⟨rfl, value⟩ := Prod.mk.inj first
      exact ⟨entry.2, value, as, others, rfl⟩

/-- A dictionary is read as the one that is dumped as the data, where its values are. -/
theorem dict_eq_ok_iff {read : Reader α} {dump : α → Json} {vs : List (String × Json)}
    (exact' : ∀ m ∈ vs, ∀ a, read m.2 = .ok a ↔ dump a = m.2) (nodup : (vs.map Prod.fst).Nodup)
    {a : Dict String α} :
    dict read (.obj vs) = .ok a ↔ a.items.map (fun entry => (entry.1, dump entry.2)) = vs := by
  rw [dict, map_eq_ok]
  constructor
  · rintro ⟨as, read', rfl⟩
    have same := (members_eq_ok_iff exact').mp read'
    have keys : as.map Prod.fst = vs.map Prod.fst := by
      rw [← same, List.map_map]
      rfl
    rw [Dict.items_ofItems (keys ▸ nodup), same]
  · intro same
    exact ⟨a.items, (members_eq_ok_iff exact').mpr same, Dict.ofItems_items a⟩

/-- The parts of a value that are written alike: the numbers as Python writes what it reads
for them. -/
def alike (E : Emitter ν) : JsonTree.Test ν where
  number x := E.dialect.number x = pythonNumber (E.numeral x)
  string := Alike E.dialect.escaping Dialect.python.escaping
  keys := SameOrder E.dialect.form.code Dialect.python.form.code

theorem matches_dict_iff {read : Reader α} {dump : α → Json} {m : List (String × JsonTree ν)}
    (exact' : ∀ p ∈ m, ∀ a, read (E.received p.2) = .ok a ↔ dump a = E.received p.2)
    (distinct : (JsonTree.obj m).Distinct) {a : Dict String α} :
    E.Matches (dict read) (fun d => .obj (d.items.map fun entry => (entry.1, dump entry.2)))
        (some (.obj m)) a ↔
      a.items.map (fun entry => (entry.1, dump entry.2)) =
          m.map (fun p => (p.1, E.received p.2)) ∧ (JsonTree.obj m).Passes E.alike := by
  have nodup : ((m.map fun p => (p.1, E.received p.2)).map Prod.fst).Nodup := by
    rw [List.map_map]
    exact distinct.1
  have values : ∀ q ∈ m.map fun p => (p.1, E.received p.2), ∀ a,
      read q.2 = .ok a ↔ dump a = q.2 := fun q member => by
    obtain ⟨p, here, rfl⟩ := List.mem_map.mp member
    exact exact' p here
  have reads : dict read (.obj (m.map fun p => (p.1, E.received p.2))) = .ok a ↔ _ :=
    dict_eq_ok_iff values nodup
  rw [matches_some_iff, received_obj, reads]
  refine and_congr_right fun same => ?_
  rw [same, ← received_obj, received, Json.tree_ofTree]
  exact agree_map_iff distinct

end Fields

end Emitter

end AgentTelepathy
