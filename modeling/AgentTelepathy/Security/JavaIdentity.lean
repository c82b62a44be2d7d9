import AgentTelepathy.Foundation.Dialect
import AgentTelepathy.Security.Crypto

/-!
# The canonical JSON of the Java library

`toCanonicalJson` copies the maps of a value into `TreeMap`s, which keep their keys in
the order of `String.compareTo`, and lets Jackson write the copy. That order is by
UTF-16 code units, and Jackson writes the digits of its `\\u` escapes in upper case.
Where neither shows, the bytes are those that Python signs.
-/

namespace AgentTelepathy.Java

open Foundation JsonText

/-- A `JsonNode` without floats; an object has one value for each name. -/
structure JsonNode where
  tree : JsonTree ℤ
  distinct : tree.Distinct

/-- The value as Python holds it. -/
def JsonNode.json (node : JsonNode) : Json := Json.ofTree (node.tree.map Sum.inl)

/-! ### Sorted copies -/

section TreeMap

variable {α : Type*}

/-- `TreeMap.put`, in the order of `String.compareTo`. -/
def put (sorted : List (String × α)) (k : String) (v : α) : List (String × α) :=
  match sorted with
  | [] => [(k, v)]
  | (j, w) :: rest =>
    -- The sign of `k.compareTo(j)`.
    if CodeUnits.utf16.code k < CodeUnits.utf16.code j then (k, v) :: (j, w) :: rest
    else if CodeUnits.utf16.code j < CodeUnits.utf16.code k then (j, w) :: put rest k v
    else (j, v) :: rest

end TreeMap

mutual

/-- `sortedCopy(obj)` -/
def sortedCopy : JsonTree ℤ → JsonTree ℤ
  | .obj map => .obj ((copyValues map).foldl (fun sorted p => put sorted p.1 p.2) [])
  | .arr list => .arr (copyItems list)
  | obj => obj

/-- `sortedCopy` of every item. -/
def copyItems : List (JsonTree ℤ) → List (JsonTree ℤ)
  | [] => []
  | item :: list => sortedCopy item :: copyItems list

/-- `sortedCopy` of every value. -/
def copyValues : List (String × JsonTree ℤ) → List (String × JsonTree ℤ)
  | [] => []
  | (k, v) :: map => (k, sortedCopy v) :: copyValues map

end

/-! ### What Jackson writes -/

/-- `HEX_CHARS` -/
def hexChar (n : ℕ) : Char := if n < 10 then Char.ofNat (48 + n) else Char.ofNat (55 + n)

/-- The escapes of Jackson: quote, backslash and control characters. -/
def jacksonEscape (c : Char) : List Char :=
  match letterEscape c with
  | some d => ['\\', d]
  | none =>
    if c < ' ' then ['\\', 'u', '0', '0', hexChar (c.toNat / 16), hexChar (c.toNat % 16)] else [c]

theorem lt_space_iff {c : Char} : c < ' ' ↔ c.toNat < 32 := Iff.rfl

theorem unescape_jacksonEscape (c : Char) (cs : List Char) :
    unescape (jacksonEscape c ++ cs) = some (c, cs) := by
  unfold jacksonEscape
  cases letter : letterEscape c with
  | some d =>
    obtain ⟨notUnit, short⟩ := shortEscape_letterEscape letter
    simp [unescape, notUnit, short]
  | none =>
    dsimp only
    split_ifs with control
    -- A control character is read back from its four hexadecimal digits.
    · have table : ∀ n < 32, FixedWidth.read 16 ['0', '0', hexChar (n / 16), hexChar (n % 16)] =
          some n := by decide
      have reads := table _ (lt_space_iff.mp control)
      have notHigh : ¬ (0xD800 ≤ c.toNat ∧ c.toNat < 0xDC00) := by
        have := lt_space_iff.mp control
        omega
      have notLow : ¬ (0xDC00 ≤ c.toNat ∧ c.toNat < 0xE000) := by
        have := lt_space_iff.mp control
        omega
      simp only [List.cons_append, List.nil_append]
      rw [unescape_unit, unescapeUnit, readUnit, reads]
      simp only [Option.map_some, Option.bind_some]
      rw [if_neg notHigh, if_neg notLow, Char.ofNat_toNat]
    · have notQuote : c ≠ '"' := by rintro rfl; exact absurd letter (by decide)
      have notBackslash : c ≠ '\\' := by rintro rfl; exact absurd letter (by decide)
      simp [unescape, notQuote, notBackslash, control]

/-- The escaping of Jackson. -/
def jacksonEscaping : Escaping := ⟨jacksonEscape, unescape_jacksonEscape⟩

/-- `MAPPER.writeValueAsString(obj)` -/
def writeValueAsString (obj : JsonTree ℤ) : String :=
  String.ofList (JsonTree.render jacksonEscaping (obj.map intText))

/-- `IdentityManager.toCanonicalJson(node)` -/
def toCanonicalJson (node : JsonNode) : Bytes := utf8 (writeValueAsString (sortedCopy node.tree))

/-! ### The copy is sorted -/

section TreeMap

variable {sorted : List (String × JsonTree ℤ)} {k : String} {v : JsonTree ℤ}

theorem put_perm (fresh : k ∉ sorted.map Prod.fst) : (put sorted k v).Perm ((k, v) :: sorted) := by
  induction sorted with
  | nil => rfl
  | cons p rest ih =>
    obtain ⟨j, w⟩ := p
    rw [List.map_cons, List.mem_cons, not_or] at fresh
    obtain ⟨other, fresh⟩ := fresh
    rw [put]
    split_ifs with less greater
    · rfl
    · exact ((ih fresh).cons (j, w)).trans (List.Perm.swap _ _ _)
    · have tie := le_antisymm (not_lt.mp greater) (not_lt.mp less)
      exact absurd (CodeUnits.code_injective tie) other

theorem put_pairwise (fresh : k ∉ sorted.map Prod.fst)
    (ordered : sorted.Pairwise fun p q => CodeUnits.utf16.code p.1 ≤ CodeUnits.utf16.code q.1) :
    (put sorted k v).Pairwise fun p q => CodeUnits.utf16.code p.1 ≤ CodeUnits.utf16.code q.1 := by
  induction sorted with
  | nil => exact List.pairwise_singleton _ _
  | cons p rest ih =>
    obtain ⟨j, w⟩ := p
    rw [List.map_cons, List.mem_cons, not_or] at fresh
    obtain ⟨other, fresh⟩ := fresh
    obtain ⟨first, further⟩ := List.pairwise_cons.mp ordered
    rw [put]
    split_ifs with less greater
    · refine List.pairwise_cons.mpr ⟨List.forall_mem_cons.mpr ⟨less.le, fun q member => ?_⟩,
        ordered⟩
      exact le_trans less.le (first q member)
    · refine List.pairwise_cons.mpr ⟨fun q member => ?_, ih fresh further⟩
      rcases List.mem_cons.mp ((put_perm fresh).mem_iff.mp member) with rfl | there
      · exact greater.le
      · exact first q there
    · have tie := le_antisymm (not_lt.mp greater) (not_lt.mp less)
      exact absurd (CodeUnits.code_injective tie) other

/-- Putting entries with distinct keys one after the other sorts them. -/
theorem foldl_put (l : List (String × JsonTree ℤ)) (nodup : (l.map Prod.fst).Nodup) :
    l.foldl (fun sorted p => put sorted p.1 p.2) [] = JsonTree.byCode CodeUnits.utf16.code l := by
  have loop : ∀ (l sorted : List (String × JsonTree ℤ)), ((sorted ++ l).map Prod.fst).Nodup →
      sorted.Pairwise (fun p q => CodeUnits.utf16.code p.1 ≤ CodeUnits.utf16.code q.1) →
      (l.foldl (fun sorted p => put sorted p.1 p.2) sorted).Perm (sorted ++ l) ∧
        (l.foldl (fun sorted p => put sorted p.1 p.2) sorted).Pairwise
          fun p q => CodeUnits.utf16.code p.1 ≤ CodeUnits.utf16.code q.1 := by
    intro l
    induction l with
    | nil => exact fun sorted _ ordered => ⟨by rw [List.append_nil]; rfl, ordered⟩
    | cons p l ih =>
      intro sorted nodup ordered
      have moved : (sorted ++ p :: l).Perm (p :: (sorted ++ l)) := List.perm_middle
      have fresh : p.1 ∉ sorted.map Prod.fst := fun member => by
        have distinct := (moved.map Prod.fst).nodup_iff.mp nodup
        rw [List.map_cons, List.nodup_cons, List.map_append] at distinct
        exact distinct.1 (List.mem_append_left _ member)
      have added : (put sorted p.1 p.2 ++ l).Perm (sorted ++ p :: l) :=
        ((put_perm fresh).append_right l).trans moved.symm
      obtain ⟨perm, pairwise⟩ := ih (put sorted p.1 p.2)
        ((added.map Prod.fst).nodup_iff.mpr nodup) (put_pairwise fresh ordered)
      exact ⟨perm.trans added, pairwise⟩
  obtain ⟨perm, ordered⟩ := loop l [] nodup List.Pairwise.nil
  exact JsonTree.eq_byCode CodeUnits.code_injective nodup ordered perm

end TreeMap

mutual

theorem sortedCopy_eq : ∀ v : JsonTree ℤ, v.Distinct → sortedCopy v = v.sort CodeUnits.utf16.code
  | .null, _ | .bool _, _ | .num _, _ | .str _, _ => rfl
  | .arr l, h => by rw [sortedCopy, JsonTree.sort, copyItems_eq l h]
  | .obj l, h => by
    have keys : (JsonTree.sortMembers CodeUnits.utf16.code l).map Prod.fst = l.map Prod.fst := by
      simp [JsonTree.sortMembers_eq_map, Function.comp_def]
    rw [sortedCopy, copyValues_eq l h.2, foldl_put _ (keys ▸ h.1), JsonTree.sort]

theorem copyItems_eq : ∀ l : List (JsonTree ℤ),
    JsonTree.ItemsPass { keys := List.Nodup } l →
      copyItems l = JsonTree.sortItems CodeUnits.utf16.code l
  | [], _ => rfl
  | v :: l, h => by rw [copyItems, JsonTree.sortItems, sortedCopy_eq v h.1, copyItems_eq l h.2]

theorem copyValues_eq : ∀ l : List (String × JsonTree ℤ),
    JsonTree.MembersPass { keys := List.Nodup } l →
      copyValues l = JsonTree.sortMembers CodeUnits.utf16.code l
  | [], _ => rfl
  | (k, v) :: l, h => by
    rw [copyValues, JsonTree.sortMembers, sortedCopy_eq v h.2.1, copyValues_eq l h.2.2]

end

/-- The dialect of `toCanonicalJson`. -/
def dialect : Dialect ℤ := ⟨.utf16, jacksonEscaping, intText⟩

/-- The dialect of Python, on integers. -/
def pythonDialect : Dialect ℤ := ⟨.codePoints, unicodeEscaping, intText⟩

theorem toCanonicalJson_eq (node : JsonNode) :
    toCanonicalJson node = utf8 (String.ofList (dialect.text node.tree)) := by
  rw [toCanonicalJson, writeValueAsString, sortedCopy_eq _ node.distinct, ← JsonTree.sort_map]
  rfl

theorem canonical_json (node : JsonNode) :
    canonical node.json = utf8 (String.ofList (pythonDialect.text node.tree)) := by
  rw [canonical, Dialect.dumpsSorted_eq, JsonNode.json, Json.tree_ofTree, Dialect.text,
    JsonTree.map_map]
  rfl

/-! ### Where the two agree -/

/-- The control characters whose code has a hexadecimal letter and that have no escape
of their own. -/
def letterCodes : List Char :=
  ['\x0b', '\x0e', '\x0f', '\x1a', '\x1b', '\x1c', '\x1d', '\x1e', '\x1f']

theorem jacksonEscape_eq_iff (c : Char) :
    jacksonEscape c = unicodeEscaping.escape c ↔ c ∉ letterCodes := by
  by_cases control : c.toNat < 32
  · have table : ∀ n < 32, jacksonEscape (Char.ofNat n) = unicodeEscaping.escape (Char.ofNat n) ↔
        Char.ofNat n ∉ letterCodes := by decide +kernel
    rw [← Char.ofNat_toNat c]
    exact table _ control
  · have raw : ' ' ≤ c := not_lt.mp fun below => control (lt_space_iff.mp below)
    have small : ∀ d ∈ letterCodes, d.toNat < 32 := forall_mem_of_all (by decide)
    refine iff_of_true ?_ fun member => control (small c member)
    unfold jacksonEscape
    simp only [unicodeEscaping, escapeWith]
    cases letterEscape c with
    | some d => rfl
    | none => simp only [not_lt.mpr raw, raw, if_false, decide_true, if_true]

/-- The bytes of `toCanonicalJson` are those that Python signs exactly if no string has a
control character with a letter in its code, and `compareTo` puts the keys of every
object in the order of their characters. -/
theorem toCanonicalJson_eq_canonical_iff (node : JsonNode) :
    toCanonicalJson node = canonical node.json ↔ node.tree.Passes
      { string := fun s => ∀ c ∈ s.toList, c ∉ letterCodes
        keys := JsonTree.SameOrder CodeUnits.utf16.code CodeUnits.codePoints.code } := by
  have token (d : Dialect ℤ) (number : d.number = intText) : d.Tokens node.tree :=
    JsonTree.passes_of_forall
      ⟨fun n => number ▸ JsonTree.isToken_intText n, fun _ => trivial, fun _ => trivial⟩ _
  rw [toCanonicalJson_eq, canonical_json, utf8_injective.eq_iff, String.ofList_inj,
    Dialect.text_eq_text_iff node.distinct (token _ rfl) (token _ rfl)]
  have strings (s : String) : JsonTree.Alike jacksonEscaping unicodeEscaping s ↔
      ∀ c ∈ s.toList, c ∉ letterCodes :=
    forall₂_congr fun c _ => jacksonEscape_eq_iff c
  constructor
  · exact fun all => all.imp ⟨fun _ _ => trivial, fun s h => (strings s).mp h, fun _ h => h⟩
  · exact fun all => all.imp ⟨fun _ _ => rfl, fun s h => (strings s).mpr h, fun _ h => h⟩

/-- The key of a surrogate pair comes first in Java and last in Python. -/
theorem toCanonicalJson_ne_canonical :
    ¬ ∀ node : JsonNode, toCanonicalJson node = canonical node.json := by
  intro agree
  let node : JsonNode := ⟨.obj [("\uffff", .num 1), ("😀", .num 2)],
    by decide, trivial, trivial, trivial, trivial, trivial⟩
  have differ : writeValueAsString (sortedCopy node.tree) ≠
      JsonText.dumpsSorted JsonText.compactStyle node.json := by decide
  exact differ (utf8_injective (agree node))

/-! ### Signatures -/

/-- `Base64.getDecoder().decode(text)` -/
def decode (text : String) : Option Bytes := Base64.decodeOpen 0 0 text.toList

/-- `IdentityManager.verify`, over the canonical bytes of the payload; what throws is caught.
The key is read from the first 32 bytes. -/
def verify (bouncyCastle : Verifier) (pubKeyB64 : String) (canonical : Bytes) (sigB64 : String) :
    Bool :=
  match decode pubKeyB64, decode sigB64 with
  | some pubBytes, some sigBytes =>
    32 ≤ pubBytes.length && bouncyCastle (pubBytes.take 32) sigBytes canonical
  | _, _ => false

end AgentTelepathy.Java
