import AgentTelepathy.Foundation.SortedWriter
import AgentTelepathy.Security.Crypto

/-!
# The canonical JSON of the Rust library

`canonical_json` writes a `serde_json` value as bytes: keys in the order of their
bytes, looked up one after the other, and a comma after every item but the last.
`serde_json` writes the scalars; of its floats only is it assumed that each has a
token of its own that no integer has.
-/

namespace AgentTelepathy.Rust

open Foundation JsonText

/-- A `serde_json::Number`: an integer in the range of `i64` and `u64`, or a finite float. -/
inductive Number where
  | int (n : ℤ) (inRange : -2 ^ 63 ≤ n ∧ n < 2 ^ 64)
  | float (f : Binary64)

/-- A `serde_json::Value`; a map has one value for each key. -/
structure Value where
  tree : JsonTree Number
  distinct : tree.Distinct

/-- What `serde_json` writes for floats. -/
structure FloatText where
  text : Binary64 → List Char
  token : ∀ f, JsonTree.IsToken (text f)
  injective : Function.Injective text
  ne_integer : ∀ f n, text f ≠ intText n

/-- The texts of Python are such tokens. -/
def pythonFloats : FloatText where
  text f := Float64.repr (.finite f)
  token f := by
    have reads := Float64.read_repr f
    refine ⟨fun empty => ?_, Float64.read_chars reads⟩
    rw [empty] at reads
    exact absurd reads (by simp [Float64.read, Float64.readUnsigned])
  injective f g same := Float64.finite.inj (Float64.repr_injective same)
  ne_integer f _ := Float64.repr_ne_signed_digits (.finite f) _ _

/-! ### Scalars -/

/-- The bytes of ASCII text. -/
def ascii (cs : List Char) : Bytes := cs.map fun c => UInt8.ofNat c.toNat

/-- `HEX_DIGITS` -/
def hexDigit (n : ℕ) : Char := if n < 10 then Char.ofNat (48 + n) else Char.ofNat (87 + n)

/-- `format_escaped_str_contents`, by the table `ESCAPE`: bytes from `0x80` on stand for
themselves, also inside a character. -/
def escapeByte (b : UInt8) : Bytes :=
  if b = 0x08 then ascii ['\\', 'b']
  else if b = 0x09 then ascii ['\\', 't']
  else if b = 0x0A then ascii ['\\', 'n']
  else if b = 0x0C then ascii ['\\', 'f']
  else if b = 0x0D then ascii ['\\', 'r']
  else if b = 0x22 then ascii ['\\', '"']
  else if b = 0x5C then ascii ['\\', '\\']
  else if b < 0x20 then
    ascii ['\\', 'u', '0', '0', hexDigit (b.toNat / 16), hexDigit (b.toNat % 16)]
  else [b]

/-- `serde_json::to_vec(&Value::String(s))` -/
def stringToVec (s : String) : Bytes := ascii ['"'] ++ (utf8 s).flatMap escapeByte ++ ascii ['"']

section Encoding

variable (floats : FloatText)

/-- `serde_json::to_vec(number)` -/
def numberText : Number → List Char
  | .int n _ => intText n
  | .float f => floats.text f

/-- The loop over items, which writes a comma unless `i + 1 < len` fails. -/
def extendAll {α : Type*} (write : α → Bytes) (items : List α) (out : Bytes) : Bytes :=
  items.zipIdx.foldl (fun out p =>
    if p.2 + 1 < items.length then out ++ write p.1 ++ ascii [','] else out ++ write p.1) out

/-- `keys.sort_unstable()` -/
def sortUnstable (keys : List String) : List String :=
  keys.insertionSort fun j k => CodeUnits.utf8.code j ≤ CodeUnits.utf8.code k

mutual

/-- `canonical_json_bytes(value)` -/
def canonicalJsonBytes : JsonTree Number → Bytes
  | .obj map =>
    let values := memberBytes map
    let keys := sortUnstable (map.map Prod.fst)
    -- The key is one of the map's, so the lookup `map[*k]` finds it.
    extendAll (fun k => stringToVec k ++ ascii [':'] ++ (values.lookup k).getD []) keys
      (ascii ['{']) ++ ascii ['}']
  | .arr arr => extendAll id (itemBytes arr) (ascii ['[']) ++ ascii [']']
  | .null => ascii ['n', 'u', 'l', 'l']
  | .bool true => ascii ['t', 'r', 'u', 'e']
  | .bool false => ascii ['f', 'a', 'l', 's', 'e']
  | .num x => ascii (numberText floats x)
  | .str s => stringToVec s

/-- `canonical_json_bytes` of every item. -/
def itemBytes : List (JsonTree Number) → List Bytes
  | [] => []
  | v :: l => canonicalJsonBytes v :: itemBytes l

/-- `canonical_json_bytes` of every value, under its key. -/
def memberBytes : List (String × JsonTree Number) → List (String × Bytes)
  | [] => []
  | (k, v) :: l => (k, canonicalJsonBytes v) :: memberBytes l

end

/-- `canonical_json(value)` -/
def canonicalJson (value : Value) : Bytes := canonicalJsonBytes floats value.tree

end Encoding

/-! ### Signatures -/

/-- `general_purpose::STANDARD.decode(text)`, which accepts canonical text alone: padding
may not be missing, and the bits that are left over are zero. -/
def decode (text : String) : Option Bytes :=
  (Base64.decode true text).filter fun data => Base64.encode data = text

/-- `verify(pub_key_b64, payload, sig_b64)`; a key that is no point of the curve is refused
by the primitive. -/
def verify (dalek : Verifier) (pubKeyB64 : String) (payload : Bytes) (sigB64 : String) : Bool :=
  match decode pubKeyB64 with
  | none => false
  | some pubBytes =>
    match decode sigB64 with
    | none => false
    | some sigBytes =>
      if pubBytes.length ≠ 32 then false
      else if sigBytes.length ≠ 64 then false
      else dalek pubBytes sigBytes payload

/-! ### The bytes are those of a canonical text -/

variable {floats : FloatText}

/-- The dialect of `canonical_json`. -/
def dialect (floats : FloatText) : Dialect Number := ⟨.utf8, unicodeEscaping, numberText floats⟩

theorem lawful_dialect (floats : FloatText) : (dialect floats).Lawful where
  token x := by
    cases x with
    | int n inRange => exact JsonTree.isToken_intText n
    | float f => exact floats.token f
  injective x y same := by
    cases x with
    | int m inRange =>
      cases y with
      | int n inRange' =>
        obtain rfl := intText_injective same
        rfl
      | float f => exact absurd same.symm (floats.ne_integer f m)
    | float f =>
      cases y with
      | int n inRange => exact absurd same (floats.ne_integer f n)
      | float g => rw [floats.injective same]

theorem encode_ascii {c : Char} (small : c.toNat < 128) :
    String.utf8EncodeChar c = [UInt8.ofNat c.toNat] := by
  have bound : c.val.toNat ≤ 0x7F := Nat.le_of_lt_succ small
  rw [String.utf8EncodeChar, if_pos bound]
  rfl

theorem ascii_eq {cs : List Char} (small : ∀ c ∈ cs, c.toNat < 128) :
    ascii cs = cs.flatMap String.utf8EncodeChar := by
  induction cs with
  | nil => rfl
  | cons c cs ih =>
    obtain ⟨first, others⟩ := List.forall_mem_cons.mp small
    rw [List.flatMap_cons, ← ih others, encode_ascii first]
    rfl

theorem escapeByte_of_le {b : UInt8} (high : 128 ≤ b.toNat) : escapeByte b = [b] := by
  have low : ¬ b < 0x20 := fun below => by
    have small : b.toNat < 32 := below
    omega
  unfold escapeByte
  split_ifs <;> first | rfl | (subst b; exact absurd high (by decide))

/-- Beyond ASCII nothing is escaped. -/
theorem escape_of_le {c : Char} (high : 128 ≤ c.toNat) : unicodeEscaping.escape c = [c] := by
  have letter : letterEscape c = none := by
    unfold letterEscape
    split_ifs <;> first | rfl | (subst c; exact absurd high (by decide))
  have printable : ' ' ≤ c := by
    change 32 ≤ c.toNat
    omega
  simp [unicodeEscaping, escapeWith, letter, printable]

theorem le_of_mem_encode {c : Char} (high : 128 ≤ c.toNat) {b : UInt8}
    (member : b ∈ String.utf8EncodeChar c) : 128 ≤ b.toNat := by
  have unit : b.toNat ∈ CodeUnits.utf8Units c := List.mem_map_of_mem member
  rw [CodeUnits.utf8Units_eq, if_neg (by omega)] at unit
  split_ifs at unit <;> simp only [List.mem_cons, List.not_mem_nil, or_false] at unit <;> omega

/-- The escapes of bytes are the bytes of the escapes. -/
theorem escapeByte_encode (c : Char) : (String.utf8EncodeChar c).flatMap escapeByte =
    (unicodeEscaping.escape c).flatMap String.utf8EncodeChar := by
  by_cases small : c.toNat < 128
  · have table : ∀ n < 128, escapeByte (UInt8.ofNat n) =
        (unicodeEscaping.escape (Char.ofNat n)).flatMap String.utf8EncodeChar := by decide +kernel
    rw [encode_ascii small, List.flatMap_singleton, table _ small, Char.ofNat_toNat]
  · have high : 128 ≤ c.toNat := not_lt.mp small
    rw [escape_of_le high, List.flatMap_singleton,
      List.flatMap_congr fun b member => escapeByte_of_le (le_of_mem_encode high member),
      List.flatMap_singleton']

theorem stringToVec_eq (s : String) :
    stringToVec s = (JsonTree.quoted unicodeEscaping s).flatMap String.utf8EncodeChar := by
  have chars : utf8 s = s.toList.flatMap String.utf8EncodeChar := by
    rw [← utf8_ofList, String.ofList_toList]
  have quote : ascii ['"'] = ['"'].flatMap String.utf8EncodeChar := ascii_eq (by simp)
  rw [stringToVec, chars, quote, JsonTree.quoted, List.flatMap_assoc,
    List.flatMap_congr fun c _ => escapeByte_encode c, ← List.flatMap_assoc]
  simp

theorem extendAll_eq {α : Type*} (write : α → Bytes) (items : List α) (out : Bytes) :
    extendAll write items out = SortedWriter.writeAll write items out := rfl

mutual

/-- `canonical_json` is the writer of its dialect. -/
theorem canonicalJsonBytes_eq_write :
    ∀ v : JsonTree Number, canonicalJsonBytes floats v = SortedWriter.write (dialect floats) v
  | .null | .bool true | .bool false => by
    rw [canonicalJsonBytes, SortedWriter.write]
    exact ascii_eq (forall_mem_of_all (by decide))
  | .num x => by
    rw [canonicalJsonBytes, SortedWriter.write]
    refine ascii_eq fun c member => ?_
    exact JsonTree.toNat_lt_of_isDecimalChar (((lawful_dialect floats).token x).2 c member)
  | .str s => by
    rw [canonicalJsonBytes, SortedWriter.write]
    exact stringToVec_eq s
  | .arr l => by
    rw [canonicalJsonBytes, SortedWriter.write, extendAll_eq, itemBytes_eq_writeItems l]
    rfl
  | .obj l => by
    rw [canonicalJsonBytes, SortedWriter.write, extendAll_eq, memberBytes_eq_writeMembers l]
    simp only [stringToVec_eq]
    rfl

theorem itemBytes_eq_writeItems : ∀ l : List (JsonTree Number),
    itemBytes floats l = SortedWriter.writeItems (dialect floats) l
  | [] => rfl
  | v :: l => by
    rw [itemBytes, SortedWriter.writeItems, canonicalJsonBytes_eq_write v,
      itemBytes_eq_writeItems l]

theorem memberBytes_eq_writeMembers : ∀ l : List (String × JsonTree Number),
    memberBytes floats l = SortedWriter.writeMembers (dialect floats) l
  | [] => rfl
  | (k, v) :: l => by
    rw [memberBytes, SortedWriter.writeMembers, canonicalJsonBytes_eq_write v,
      memberBytes_eq_writeMembers l]

end

theorem canonicalJsonBytes_eq {v : JsonTree Number} (distinct : v.Distinct) :
    canonicalJsonBytes floats v = bytes ((dialect floats).text v) := by
  rw [canonicalJsonBytes_eq_write, SortedWriter.write_eq _ v distinct]

/-! ### Agreement and unambiguity -/

/-- The value that Python reads from the text of a number. -/
def Number.numeral : Number → Numeral
  | .int n _ => .inl n
  | .float f => .inr (.finite f)

/-- The value as Python holds it. -/
def Value.json (v : Value) : Json := Json.ofTree (v.tree.map Number.numeral)

/-- Whether a number is an integer. -/
def Number.IsInteger : Number → Prop
  | .int _ _ => True
  | .float _ => False

/-- On values without floats the bytes are those that Python signs, in whatever order
either holds the members of objects. -/
theorem canonicalJson_eq_canonical {v : Value} {w : Json}
    (integers : v.tree.Passes { number := Number.IsInteger }) (same : Json.Same v.json w) :
    canonicalJson floats v = canonical w := by
  have numbers (x : Number) (integer : x.IsInteger) :
      numberText floats x = Dialect.pythonNumber x.numeral := by
    cases x with
    | int n inRange => rfl
    | float f => exact integer.elim
  have order (keys : List String) :
      JsonTree.SameOrder CodeUnits.utf8.code CodeUnits.codePoints.code keys := fun j _ k _ => by
    rw [CodeUnits.ordered_utf8.code_le_iff, CodeUnits.ordered_codePoints.code_le_iff]
  -- Both write the numbers alike, and both sort by characters.
  have sorted : JsonTree.sort CodeUnits.utf8.code (v.tree.map (numberText floats)) =
      JsonTree.sort CodeUnits.codePoints.code
        (v.tree.map fun x => Dialect.pythonNumber x.numeral) := by
    rw [JsonTree.sort_map_eq_iff CodeUnits.code_injective CodeUnits.code_injective _ _ _ v.distinct]
    exact integers.imp ⟨numbers, fun _ _ => trivial, fun keys _ => order keys⟩
  have python : JsonTree.sort CodeUnits.codePoints.code
        (v.tree.map fun x => Dialect.pythonNumber x.numeral) =
      JsonTree.sort CodeUnits.codePoints.code (w.tree.map Dialect.pythonNumber) := by
    have trees : JsonTree.Same (v.tree.map Number.numeral) w.tree := by
      have here := same.tree
      rwa [Value.json, Json.tree_ofTree] at here
    rw [JsonTree.sort_map CodeUnits.codePoints.code Dialect.pythonNumber, ← trees,
      ← JsonTree.sort_map, JsonTree.map_map]
    rfl
  have texts : (dialect floats).text v.tree = Dialect.python.text w.tree :=
    congrArg (JsonTree.render unicodeEscaping) (sorted.trans python)
  rw [canonicalJson, canonicalJsonBytes_eq v.distinct, canonical_eq_bytes, texts]

/-- Keys on both sides of the surrogates, held in two orders. -/
theorem canonicalJson_eq_canonical_keys :
    canonicalJson pythonFloats ⟨.obj [("\uffff", .num (.int (2 ^ 63) (by decide))),
      ("😀", .str "\u001f")],
        ⟨by decide, trivial, trivial, trivial, trivial, trivial⟩⟩ =
      canonical (.obj [("😀", .str "\u001f"), ("\uffff", .int (2 ^ 63))]) :=
  canonicalJson_eq_canonical ⟨trivial, trivial, trivial, trivial, trivial, trivial⟩ (by decide)

/-- Equal bytes are of values that are equal as maps. -/
theorem canonicalJson_eq_iff {v w : Value} :
    canonicalJson floats v = canonicalJson floats w ↔ JsonTree.Same v.tree w.tree := by
  rw [canonicalJson, canonicalJson, canonicalJsonBytes_eq v.distinct,
    canonicalJsonBytes_eq w.distinct, bytes_injective.eq_iff, (lawful_dialect floats).text_eq_iff,
    JsonTree.Same]
  simp only [dialect, JsonTree.sort_eq_of_ordered CodeUnits.ordered_utf8]

end AgentTelepathy.Rust
