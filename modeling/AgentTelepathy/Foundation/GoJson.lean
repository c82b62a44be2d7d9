import AgentTelepathy.Foundation.JsonDocument
import AgentTelepathy.Foundation.SortedWriter

/-!
# JSON in Go

`encoding/json` reads a document into an `interface{}`: every number becomes the
nearest `float64`, half a surrogate pair becomes U+FFFD, and a member replaces an
earlier one of its name. A number beyond the range of `float64` is an error. It
writes the shortest digits of a number, and escapes what a browser might take for
markup. What it writes for a generic value reads back as that value, up to the order
of members.
-/

namespace Foundation

namespace GoJson

open Float64 JsonText

/-- What a JSON text says. -/
abbrev Document := JsonTree Decimal (List UInt16)

/-- An `interface{}` that `json.Unmarshal` filled. -/
abbrev Generic := JsonTree Binary64

/-! ### Strings -/

/-- The code units of a character. -/
def charUnits (c : Char) : List UInt16 := (Ecma.charUnits c).map UInt16.ofNat

/-- The code units of a string. -/
def units (s : String) : List UInt16 := s.toList.flatMap charUnits

/-- The first half of a surrogate pair. -/
def IsHigh (u : UInt16) : Prop := 0xD800 ≤ u.toNat ∧ u.toNat < 0xDC00

/-- The second half of a surrogate pair. -/
def IsLow (u : UInt16) : Prop := 0xDC00 ≤ u.toNat ∧ u.toNat < 0xE000

instance (u : UInt16) : Decidable (IsHigh u) := inferInstanceAs (Decidable (_ ∧ _))

instance (u : UInt16) : Decidable (IsLow u) := inferInstanceAs (Decidable (_ ∧ _))

/-- The character of a code unit alone. -/
def unitChar (u : UInt16) : Char := if IsHigh u ∨ IsLow u then '\ufffd' else Char.ofNat u.toNat

/-- Join surrogate pairs; half a pair is replaced. -/
def readChars : List UInt16 → List Char
  | [] => []
  | [u] => [unitChar u]
  | u :: v :: rest =>
    if IsHigh u ∧ IsLow v then
      Char.ofNat (0x10000 + (u.toNat - 0xD800) * 0x400 + (v.toNat - 0xDC00)) :: readChars rest
    else unitChar u :: readChars (v :: rest)

/-- The string of a JSON text. -/
def readString (us : List UInt16) : String := String.ofList (readChars us)

/-- A unit that is not the first half of a pair is a character of its own. -/
theorem readChars_cons {u : UInt16} (alone : ¬ IsHigh u) (rest : List UInt16) :
    readChars (u :: rest) = unitChar u :: readChars rest := by
  cases rest with
  | nil => rw [readChars, readChars]
  | cons v rest => rw [readChars, if_neg fun pair => alone pair.1]

theorem toNat_char {n : ℕ} (valid : n.isValidChar) : (Char.ofNat n).toNat = n := by
  rw [Char.ofNat, dif_pos valid]
  rfl

theorem toNat_unit {n : ℕ} (small : n < 65536) : (UInt16.ofNat n).toNat = n :=
  UInt16.toNat_ofNat_of_lt' small

/-- The units of a character read as it, whatever follows. -/
theorem readChars_charUnits (c : Char) (rest : List UInt16) :
    readChars (charUnits c ++ rest) = c :: readChars rest := by
  have scalar := toNat_scalar c
  unfold charUnits Ecma.charUnits
  split_ifs with plane
  · have value := toNat_unit plane
    have plain : ¬ IsHigh (.ofNat c.toNat) ∧ ¬ IsLow (.ofNat c.toNat) := by
      rw [IsHigh, IsLow, value]
      omega
    rw [List.map_singleton, List.singleton_append, readChars_cons plain.1, unitChar,
      if_neg (by tauto), value, Char.ofNat_toNat]
  · have first := toNat_unit (n := 0xD800 + (c.toNat - 0x10000) / 0x400) (by omega)
    have second := toNat_unit (n := 0xDC00 + (c.toNat - 0x10000) % 0x400) (by omega)
    have joined : 0x10000 + (0xD800 + (c.toNat - 0x10000) / 0x400 - 0xD800) * 0x400 +
        (0xDC00 + (c.toNat - 0x10000) % 0x400 - 0xDC00) = c.toNat := by omega
    simp only [List.map_cons, List.map_nil, List.cons_append, List.nil_append]
    have pair : IsHigh (.ofNat (0xD800 + (c.toNat - 0x10000) / 0x400)) ∧
        IsLow (.ofNat (0xDC00 + (c.toNat - 0x10000) % 0x400)) := by
      rw [IsHigh, IsLow, first, second]
      omega
    rw [readChars, if_pos pair, first, second, joined, Char.ofNat_toNat]

theorem readString_units (s : String) : readString (units s) = s := by
  have chars : ∀ l : List Char, readChars (l.flatMap charUnits) = l := by
    intro l
    induction l with
    | nil => rw [List.flatMap_nil, readChars]
    | cons c l ih => rw [List.flatMap_cons, readChars_charUnits, ih]
  rw [readString, units, chars, String.ofList_toList]

theorem units_injective : Function.Injective units :=
  Function.LeftInverse.injective readString_units

/-- No part of the string is replaced, nor is U+FFFD in it. -/
def Faithful (us : List UInt16) : Prop := '\ufffd' ∉ (readString us).toList

instance (us : List UInt16) : Decidable (Faithful us) := inferInstanceAs (Decidable (¬ _))

theorem charUnits_unitChar {u : UInt16} (kept : unitChar u ≠ '\ufffd') :
    charUnits (unitChar u) = [u] := by
  unfold unitChar at kept ⊢
  split_ifs at kept ⊢ with half
  · exact absurd rfl kept
  · have small := u.toNat_lt
    have valid : u.toNat.isValidChar := by
      unfold IsHigh IsLow at half
      simp only [Nat.isValidChar]
      omega
    rw [charUnits, Ecma.charUnits, toNat_char valid, if_pos small, List.map_singleton,
      UInt16.ofNat_toNat]

/-- A string without replacements is what was read. -/
theorem units_readString {us : List UInt16} (faithful : Faithful us) :
    units (readString us) = us := by
  rw [units, readString, String.toList_ofList]
  rw [Faithful, readString, String.toList_ofList] at faithful
  induction us using readChars.induct with
  | case1 => rfl
  | case2 u =>
    rw [readChars, List.mem_singleton] at faithful
    rw [readChars, List.flatMap_singleton, charUnits_unitChar (Ne.symm faithful)]
  | case3 u v rest pair ih =>
    rw [readChars, if_pos pair, List.mem_cons, not_or] at faithful
    obtain ⟨⟨high, high'⟩, low, low'⟩ := pair
    have valid : (0x10000 + (u.toNat - 0xD800) * 0x400 + (v.toNat - 0xDC00)).isValidChar := by
      simp only [Nat.isValidChar]
      omega
    rw [readChars, if_pos ⟨⟨high, high'⟩, low, low'⟩, List.flatMap_cons, ih faithful.2, charUnits,
      Ecma.charUnits, toNat_char valid, if_neg (by omega)]
    -- The two units of the character are the two that were read.
    generalize point : 0x10000 + (u.toNat - 0xD800) * 0x400 + (v.toNat - 0xDC00) = n
    have first : 0xD800 + (n - 0x10000) / 0x400 = u.toNat := by omega
    have second : 0xDC00 + (n - 0x10000) % 0x400 = v.toNat := by omega
    simp only [first, second, List.map_cons, List.map_nil, List.cons_append, List.nil_append,
      UInt16.ofNat_toNat]
  | case4 u v rest alone ih =>
    rw [readChars, if_neg alone, List.mem_cons, not_or] at faithful
    rw [readChars, if_neg alone, List.flatMap_cons, ih faithful.2,
      charUnits_unitChar (Ne.symm faithful.1)]
    rfl

/-- The units of a string with half a pair for U+FFFD. -/
def halfUnits (s : String) : List UInt16 :=
  s.toList.flatMap fun c => if c = '\ufffd' then [0xDC00] else charUnits c

theorem readString_halfUnits (s : String) : readString (halfUnits s) = s := by
  have chars : ∀ l : List Char,
      readChars (l.flatMap fun c => if c = '\ufffd' then [0xDC00] else charUnits c) = l := by
    intro l
    induction l with
    | nil => rw [List.flatMap_nil, readChars]
    | cons c l ih =>
      rw [List.flatMap_cons]
      split_ifs with replaced
      · rw [List.singleton_append, readChars_cons (by decide), ih, replaced]
        rfl
      · rw [readChars_charUnits, ih]
  rw [readString, halfUnits, chars, String.ofList_toList]

theorem mem_charUnits {c : Char} (unit : 0xFFFD ∈ charUnits c) : c = '\ufffd' := by
  have scalar := toNat_scalar c
  obtain ⟨n, member, same⟩ := List.mem_map.mp unit
  have bound : n < 65536 := by
    unfold Ecma.charUnits at member
    split_ifs at member <;>
      simp only [List.mem_cons, List.not_mem_nil, or_false] at member <;> omega
  have value := congrArg UInt16.toNat same
  rw [toNat_unit bound] at value
  change n = 0xFFFD at value
  unfold Ecma.charUnits at member
  split_ifs at member <;> simp only [List.mem_cons, List.not_mem_nil, or_false] at member
  · exact Char.toNat_inj.mp (member.symm.trans value)
  · omega

/-- The unit 0xFFFD is in the units of U+FFFD alone. -/
theorem mem_units_iff {s : String} : 0xFFFD ∈ units s ↔ '\ufffd' ∈ s.toList := by
  constructor
  · intro unit
    obtain ⟨c, member, here⟩ := List.mem_flatMap.mp unit
    exact mem_charUnits here ▸ member
  · exact fun member => List.mem_flatMap.mpr ⟨_, member, by decide⟩

theorem notMem_halfUnits (s : String) : 0xFFFD ∉ halfUnits s := by
  intro unit
  obtain ⟨c, -, here⟩ := List.mem_flatMap.mp unit
  split_ifs at here with replaced
  · exact absurd here (by decide)
  · exact replaced (mem_charUnits here)

/-! ### Numbers -/

/-- `strconv.ParseFloat(s, 64)`; nothing where the number is out of range. -/
def parseFloat (d : Decimal) : Option Binary64 :=
  match d.toFloat with
  | .finite b => some b
  | _ => none

/-- The number has a `float64` next to it. -/
def InRange (d : Decimal) : Prop := (parseFloat d).isSome = true

instance (d : Decimal) : Decidable (InRange d) := inferInstanceAs (Decidable (_ = true))

/-- `floatEncoder`: plain between `1e-6` and `1e21`, and otherwise with an exponent. -/
def numberText (b : Binary64) : List Char :=
  signed b.neg
    (if b.mant = 0 then ['0'] else Ecma.layout (Float64.decimal b).1 (Float64.decimal b).2)

theorem parseFloat_of_toFloat {d : Decimal} {b : Binary64} (rounds : d.toFloat = .finite b) :
    parseFloat d = some b := by
  rw [parseFloat, rounds]

/-- What is written reads as the shortest decimal. -/
theorem read_numberText (b : Binary64) :
    ∃ d, Decimal.read (numberText b) = some d ∧ d.toFloat = .finite b := by
  rw [numberText]
  by_cases zero : b.mant = 0
  · have rounds := Decimal.toFloat_shortest b
    rw [Decimal.shortest, if_pos zero] at rounds
    exact ⟨_, if_pos zero ▸ Decimal.read_signed rfl, rounds⟩
  · rw [if_neg zero]
    exact Decimal.read_ecma zero

theorem isToken_numberText (b : Binary64) : JsonTree.IsToken (numberText b) := by
  obtain ⟨d, reads, -⟩ := read_numberText b
  refine ⟨fun empty => ?_, Decimal.read_chars reads⟩
  rw [empty] at reads
  exact absurd reads (by simp [Decimal.read, Decimal.readUnsigned])

theorem numberText_injective : Function.Injective numberText := by
  intro b c same
  obtain ⟨d, reads, rounds⟩ := read_numberText b
  obtain ⟨e, reads', rounds'⟩ := read_numberText c
  rw [same, reads'] at reads
  obtain rfl := Option.some.inj reads
  exact Float64.finite.inj (rounds.symm.trans rounds')

/-! ### Reading and writing -/

/-- `json.Unmarshal(raw, &generic)` up to its error, which leaves a number out. -/
def decode (raw : Document) : Generic :=
  JsonTree.merged
    (raw.relabel (fun d => (parseFloat d).getD ⟨false, 0, -1074, Binary64.normal_zero⟩) readString)

/-- `json.Unmarshal(raw, &generic)`; nothing at an error. -/
def unmarshal (raw : Document) : Option Generic :=
  if raw.Passes { number := InRange } then some (decode raw) else none

/-- `json.Marshal(generic)`, which writes maps in the order of their keys. -/
def marshal (v : Generic) : Document :=
  (JsonTree.sort CodeUnits.utf8.code v).relabel Decimal.shortest units

/-- The escapes of `json.Marshal`: no control characters, and nothing that ends a script. -/
def escaping : Escaping where
  escape := escapeWith fun c => ' ' ≤ c ∧ c ∉ ['<', '>', '&', '\u2028', '\u2029']
  unescape_escape := unescape_escapeWith fun c h => by
    have bound : ' ' ≤ c ∧ c ∉ ['<', '>', '&', '\u2028', '\u2029'] := by simpa using h
    exact not_lt.mpr bound.1

/-- The way in which `json.Marshal` writes generic values. -/
def dialect : Dialect Binary64 := ⟨.utf8, escaping, numberText⟩

theorem lawful_dialect : dialect.Lawful := ⟨isToken_numberText, numberText_injective⟩

theorem distinct_decode (raw : Document) : (decode raw).Distinct := JsonTree.distinct_merged _

/-- Numbers written for floats as other decimals, and strings as other units, are read
as the same floats and strings. -/
theorem unmarshal_relabel {number : Binary64 → Decimal} {string : String → List UInt16}
    (rounds : ∀ b, (number b).toFloat = .finite b) (reads : ∀ s, readString (string s) = s)
    {v : Generic} (distinct : v.Distinct) : unmarshal (v.relabel number string) = some v := by
  have inRange : (v.relabel number string).Passes { number := InRange } := by
    refine (JsonTree.passes_relabel number string v).mpr
      (JsonTree.passes_of_forall ⟨fun b => ?_, fun _ => trivial, fun _ => trivial⟩ v)
    exact Option.isSome_iff_exists.mpr ⟨b, parseFloat_of_toFloat (rounds b)⟩
  rw [unmarshal, if_pos inRange, decode, JsonTree.relabel_relabel]
  have number' : (fun d => (parseFloat d).getD ⟨false, 0, -1074, Binary64.normal_zero⟩) ∘ number =
      id := by
    funext b
    rw [Function.comp_apply, parseFloat_of_toFloat (rounds b)]
    rfl
  have string' : readString ∘ string = id := funext reads
  rw [number', string', JsonTree.relabel_id, JsonTree.merged_of_distinct v distinct]

theorem distinct_sort {form : CodeUnits} {v : Generic} :
    (JsonTree.sort form.code v).Distinct ↔ v.Distinct :=
  JsonTree.passes_sort (fun _ _ perm => perm.nodup_iff) v

/-- A generic value reads back, its members sorted. -/
theorem unmarshal_marshal {v : Generic} (distinct : v.Distinct) :
    unmarshal (marshal v) = some (JsonTree.sort CodeUnits.utf8.code v) :=
  unmarshal_relabel Decimal.toFloat_shortest readString_units (distinct_sort.mpr distinct)

/-! ### What decoding loses -/

/-- The order of strings by their code units. -/
def unitsCode : List UInt16 → List ℕ := List.map UInt16.toNat

theorem unitsCode_injective : Function.Injective unitsCode :=
  List.map_injective_iff.mpr fun _ _ same => UInt16.toNat_inj.mp same

/-- The JSON value that a document denotes, its numbers exact. -/
def value (raw : Document) : JsonTree ℚ (List UInt16) := raw.merged.map Decimal.value

/-- Two documents denote one value. -/
def SameValue (p q : Document) : Prop :=
  JsonTree.sort unitsCode (value p) = JsonTree.sort unitsCode (value q)

/-- Nothing that the document denotes can be lost: there are no numbers, and no string in
which something is replaced. -/
def Lossless (raw : Document) : Prop :=
  raw.merged.Passes { number := fun _ => False, string := Faithful }

/-- No numbers, and nothing that may be a replacement. -/
def Plain (v : Generic) : Prop := v.Passes (.kept fun s => '\ufffd' ∉ s.toList)

theorem givesBack {raw : Document} (lossless : Lossless raw ∨ Plain (decode raw)) :
    (decode raw).relabel Decimal.shortest units = raw.merged ∧ Plain (decode raw) :=
  JsonTree.givesBack Decimal.shortest (fun _ faithful => units_readString faithful) raw lossless

theorem lossless_iff {raw : Document} : Lossless raw ↔ Plain (decode raw) := by
  refine ⟨fun lossless => (givesBack (.inl lossless)).2, fun plain => ?_⟩
  rw [Lossless, ← (givesBack (.inr plain)).1, JsonTree.passes_relabel]
  refine JsonTree.Passes.imp plain ⟨fun _ number => number, fun s kept => ?_, fun _ _ => trivial⟩
  change '\ufffd' ∉ (readString (units s)).toList
  rwa [readString_units]

theorem value_relabel {number : Binary64 → Decimal} {string : String → List UInt16}
    (inj : Function.Injective string) {v : Generic} (distinct : v.Distinct) :
    value (v.relabel number string) = v.relabel (Decimal.value ∘ number) string := by
  rw [value, JsonTree.merged_of_distinct _ ((JsonTree.distinct_relabel number inj).mpr distinct),
    JsonTree.map_eq_relabel, JsonTree.relabel_relabel]
  rfl

/-- A lossless document has the value of every other that reads alike. -/
theorem sameValue_of_lossless {p q : Document} (lossless : Lossless p)
    (same :
      JsonTree.sort CodeUnits.utf8.code (decode p) = JsonTree.sort CodeUnits.utf8.code (decode q)) :
    SameValue p q := by
  have sorts {v : Generic} : Plain (JsonTree.sort CodeUnits.utf8.code v) ↔ Plain v :=
    JsonTree.passes_sort (fun _ _ _ => Iff.rfl) v
  have plain : Plain (decode q) := sorts.mp (same ▸ sorts.mpr (lossless_iff.mp lossless))
  rw [SameValue, value, value, ← (givesBack (.inl lossless)).1, ← (givesBack (.inr plain)).1,
    JsonTree.map_eq_relabel, JsonTree.map_eq_relabel, JsonTree.relabel_relabel,
    JsonTree.relabel_relabel]
  exact JsonTree.sort_relabel_congr units_injective unitsCode_injective (distinct_decode p)
    (distinct_decode q) same

/-- Documents that read as one value and all denote one value have no numbers and no
replacements. -/
theorem plain_of_forall {v : Generic} (distinct : v.Distinct) {p : Document}
    (same : ∀ q, unmarshal q = some v → SameValue p q) : Plain v := by
  have value' (number : Binary64 → Decimal) (string : String → List UInt16)
      (rounds : ∀ b, (number b).toFloat = .finite b) (reads : ∀ s, readString (string s) = s) :
      JsonTree.sort unitsCode (value p) =
        JsonTree.sort unitsCode (v.relabel (Decimal.value ∘ number) string) := by
    rw [← value_relabel (Function.LeftInverse.injective reads) distinct]
    exact same _ (unmarshal_relabel rounds reads distinct)
  have exact' := value' _ _ (Decimal.toFloat_quarters (Nat.zero_le 1)) readString_units
  have above := value' _ _ (Decimal.toFloat_quarters le_rfl) readString_units
  have halved := value' _ _ (Decimal.toFloat_quarters (Nat.zero_le 1)) readString_halfUnits
  -- A number would have two values.
  have numbers : v.Passes { number := fun _ => False } := by
    have split (f : Binary64 → ℚ) : v.relabel f units = (v.relabel id units).map f := by
      rw [JsonTree.map_eq_relabel, JsonTree.relabel_relabel]
      rfl
    rw [exact', split, split, JsonTree.sort_map_eq_iff unitsCode_injective unitsCode_injective _ _ _
      ((JsonTree.distinct_relabel id units_injective).mpr distinct),
      JsonTree.passes_relabel] at above
    exact above.imp ⟨fun b equal => Decimal.value_quarters_ne b equal, fun _ _ => trivial,
      fun _ _ => trivial⟩
  -- And a string with U+FFFD, two spellings.
  have strings : v.Passes { string := fun s => '\ufffd' ∉ s.toList } := by
    let t : JsonTree.Test ℚ (List UInt16) := { string := fun us => 0xFFFD ∉ us }
    have sorts (w : JsonTree ℚ (List UInt16)) : (JsonTree.sort unitsCode w).Passes t ↔ w.Passes t :=
      JsonTree.passes_sort (fun _ _ _ => Iff.rfl) w
    have half : (JsonTree.sort unitsCode (value p)).Passes t := by
      rw [halved, sorts, JsonTree.passes_relabel]
      exact JsonTree.passes_of_forall ⟨fun _ => trivial, notMem_halfUnits, fun _ => trivial⟩ v
    rw [exact', sorts, JsonTree.passes_relabel] at half
    exact half.imp ⟨fun _ _ => trivial, fun s none member => none (mem_units_iff.mpr member),
      fun _ _ => trivial⟩
  exact (numbers.and strings).imp ⟨fun _ h => h.1, fun _ h => h.2, fun _ _ => trivial⟩

end GoJson

end Foundation
