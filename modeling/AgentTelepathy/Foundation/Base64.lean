import Mathlib.Data.Nat.Notation
import Mathlib.Tactic.Cases

/-!
# Base64

The encoder writes three bytes as four characters and pads the end. The decoder
follows CPython's `binascii.a2b_base64`: outside strict mode characters that are
not in the alphabet are skipped and decoding stops at complete padding, in
strict mode any deviation is refused. Both modes invert the encoder.
-/

namespace Foundation

/-- A byte string. -/
abbrev Bytes := List UInt8

namespace Base64

/-- The character of a six-bit value. -/
def digit (n : ℕ) : Char :=
  if n < 26 then Char.ofNat ('A'.toNat + n)
  else if n < 52 then Char.ofNat ('a'.toNat + (n - 26))
  else if n < 62 then Char.ofNat ('0'.toNat + (n - 52))
  else if n = 62 then '+'
  else '/'

/-- The six-bit value of a character of the alphabet. -/
def value? (c : Char) : Option ℕ :=
  if 'A' ≤ c ∧ c ≤ 'Z' then some (c.toNat - 'A'.toNat)
  else if 'a' ≤ c ∧ c ≤ 'z' then some (c.toNat - 'a'.toNat + 26)
  else if '0' ≤ c ∧ c ≤ '9' then some (c.toNat - '0'.toNat + 52)
  else if c = '+' then some 62
  else if c = '/' then some 63
  else none

/-- Encode bytes, three at a time. -/
def encodeChars : Bytes → List Char
  | [] => []
  | [a] => [digit (a.toNat / 4), digit (a.toNat % 4 * 16), '=', '=']
  | [a, b] =>
    [digit (a.toNat / 4), digit (a.toNat % 4 * 16 + b.toNat / 16), digit (b.toNat % 16 * 4), '=']
  | a :: b :: c :: rest =>
    digit (a.toNat / 4) :: digit (a.toNat % 4 * 16 + b.toNat / 16) ::
      digit (b.toNat % 16 * 4 + c.toNat / 64) :: digit (c.toNat % 64) :: encodeChars rest

/-- `base64.b64encode(data).decode()`. -/
def encode (data : Bytes) : String := String.ofList (encodeChars data)

/-- `binascii.a2b_base64` from a position inside a group of four: `quad` characters
of the group were read and leave the bits `left`, `pads` pads were counted, and
`padded` tells whether a pad was seen. Nothing where it raises. -/
def decodeFrom (strict : Bool) (quad left pads : ℕ) (padded : Bool) : List Char → Option Bytes
  | [] => if quad = 0 then some [] else none
  | c :: cs =>
    if c = '=' then
      if strict ∧ quad = 0 then none
      else if 2 ≤ quad ∧ 4 ≤ quad + (pads + 1) then
        if strict ∧ cs ≠ [] then none else some []
      else decodeFrom strict quad left (if 2 ≤ quad then pads + 1 else pads) true cs
    else
      match value? c with
      | none => if strict then none else decodeFrom strict quad left pads padded cs
      | some v =>
        if strict ∧ padded then none
        else
          match quad with
          | 0 => decodeFrom strict 1 v 0 padded cs
          | 1 => (decodeFrom strict 2 (v % 16) 0 padded cs).map
              (UInt8.ofNat (left * 4 + v / 16) :: ·)
          | 2 => (decodeFrom strict 3 (v % 4) 0 padded cs).map
              (UInt8.ofNat (left * 16 + v / 4) :: ·)
          | _ => (decodeFrom strict 0 0 0 padded cs).map (UInt8.ofNat (left * 64 + v) :: ·)

/-- `base64.b64decode(text)`, or with `validate=True` in strict mode; text that is
not ASCII raises. The strict mode is that of CPython 3.12.4 and later, where a pad behind
complete groups raises; the versions before accept one there. -/
def decode (strict : Bool) (text : String) : Option Bytes :=
  if text.toList.all fun c => c.toNat < 128 then decodeFrom strict 0 0 0 false text.toList else none

/-! ### Decoding inverts encoding -/

theorem value?_digit {n : ℕ} (h : n < 64) : value? (digit n) = some n := by
  have table : ∀ n < 64, value? (digit n) = some n := by decide
  exact table n h

theorem digit_ne_pad {n : ℕ} (h : n < 64) : digit n ≠ '=' := by
  have table : ∀ n < 64, digit n ≠ '=' := by decide
  exact table n h

theorem digit_ascii {n : ℕ} (h : n < 64) : (digit n).toNat < 128 := by
  have table : ∀ n < 64, (digit n).toNat < 128 := by decide
  exact table n h

section Groups

variable {strict : Bool} {x y left : ℕ} {cs : List Char}

/-- The first two characters of a group give a byte and leave four bits. -/
theorem decodeFrom_two (hx : x < 64) (hy : y < 64) :
    decodeFrom strict 0 left 0 false (digit x :: digit y :: cs) =
      (decodeFrom strict 2 (y % 16) 0 false cs).map (UInt8.ofNat (x * 4 + y / 16) :: ·) := by
  have next : decodeFrom strict 0 left 0 false (digit x :: digit y :: cs) =
      decodeFrom strict 1 x 0 false (digit y :: cs) := by
    rw [decodeFrom, if_neg (digit_ne_pad hx), value?_digit hx]
    simp
  rw [next, decodeFrom, if_neg (digit_ne_pad hy), value?_digit hy]
  simp

/-- The third character gives a byte and leaves two bits. -/
theorem decodeFrom_third (hx : x < 64) :
    decodeFrom strict 2 left 0 false (digit x :: cs) =
      (decodeFrom strict 3 (x % 4) 0 false cs).map (UInt8.ofNat (left * 16 + x / 4) :: ·) := by
  rw [decodeFrom, if_neg (digit_ne_pad hx), value?_digit hx]
  simp

/-- The fourth character gives a byte and ends the group. -/
theorem decodeFrom_fourth (hx : x < 64) :
    decodeFrom strict 3 left 0 false (digit x :: cs) =
      (decodeFrom strict 0 0 0 false cs).map (UInt8.ofNat (left * 64 + x) :: ·) := by
  rw [decodeFrom, if_neg (digit_ne_pad hx), value?_digit hx]
  simp

theorem decodeFrom_pads : decodeFrom strict 2 left 0 false ['=', '='] = some [] := by
  simp [decodeFrom]

theorem decodeFrom_pad : decodeFrom strict 3 left 0 false ['='] = some [] := by
  simp [decodeFrom]

end Groups

private theorem byte_of_eq {n : ℕ} {a : UInt8} (h : n = a.toNat) : UInt8.ofNat n = a := by
  rw [h, UInt8.ofNat_toNat]

/-- Both modes decode what the encoder writes. -/
theorem decodeFrom_encodeChars (strict : Bool) (data : Bytes) :
    decodeFrom strict 0 0 0 false (encodeChars data) = some data := by
  -- The cases are a last group of one or two bytes, and three bytes before the rest.
  induction data using encodeChars.induct with
  | case1 => rfl
  | case2 a =>
    have ha := a.toNat_lt
    have first : UInt8.ofNat (a.toNat / 4 * 4 + a.toNat % 4 * 16 / 16) = a :=
      byte_of_eq (by omega)
    rw [encodeChars, decodeFrom_two (by omega) (by omega), decodeFrom_pads, first]
    rfl
  | case3 a b =>
    have ha := a.toNat_lt
    have hb := b.toNat_lt
    have first : UInt8.ofNat (a.toNat / 4 * 4 + (a.toNat % 4 * 16 + b.toNat / 16) / 16) = a :=
      byte_of_eq (by omega)
    have second : UInt8.ofNat ((a.toNat % 4 * 16 + b.toNat / 16) % 16 * 16 +
        b.toNat % 16 * 4 / 4) = b := byte_of_eq (by omega)
    rw [encodeChars, decodeFrom_two (by omega) (by omega), decodeFrom_third (by omega),
      decodeFrom_pad, first, second]
    rfl
  | case4 a b c rest ih =>
    have ha := a.toNat_lt
    have hb := b.toNat_lt
    have hc := c.toNat_lt
    have first : UInt8.ofNat (a.toNat / 4 * 4 + (a.toNat % 4 * 16 + b.toNat / 16) / 16) = a :=
      byte_of_eq (by omega)
    have second : UInt8.ofNat ((a.toNat % 4 * 16 + b.toNat / 16) % 16 * 16 +
        (b.toNat % 16 * 4 + c.toNat / 64) / 4) = b := byte_of_eq (by omega)
    have third : UInt8.ofNat ((b.toNat % 16 * 4 + c.toNat / 64) % 4 * 64 + c.toNat % 64) = c :=
      byte_of_eq (by omega)
    rw [encodeChars, decodeFrom_two (by omega) (by omega), decodeFrom_third (by omega),
      decodeFrom_fourth (by omega), ih, first, second, third]
    rfl

/-- What holds of the alphabet and of the pad holds of every character that is written. -/
theorem forall_mem_encodeChars {p : Char → Prop} (alphabet : ∀ n < 64, p (digit n)) (pad : p '=')
    (data : Bytes) : ∀ c ∈ encodeChars data, p c := by
  induction data using encodeChars.induct with
  | case1 => simp [encodeChars]
  | case2 a =>
    have ha := a.toNat_lt
    simp only [encodeChars, List.forall_mem_cons, List.not_mem_nil, false_implies, implies_true,
      and_true]
    exact ⟨alphabet _ (by omega), alphabet _ (by omega), pad, pad⟩
  | case3 a b =>
    have ha := a.toNat_lt
    have hb := b.toNat_lt
    simp only [encodeChars, List.forall_mem_cons, List.not_mem_nil, false_implies, implies_true,
      and_true]
    exact ⟨alphabet _ (by omega), alphabet _ (by omega), alphabet _ (by omega), pad⟩
  | case4 a b c rest ih =>
    have ha := a.toNat_lt
    have hb := b.toNat_lt
    have hc := c.toNat_lt
    simp only [encodeChars, List.forall_mem_cons]
    exact ⟨alphabet _ (by omega), alphabet _ (by omega), alphabet _ (by omega),
      alphabet _ (by omega), ih⟩

theorem encodeChars_ascii (data : Bytes) : ∀ c ∈ encodeChars data, c.toNat < 128 :=
  forall_mem_encodeChars (fun _ => digit_ascii) (by decide) data

/-- `b64decode` inverts `b64encode`, with and without validation. -/
theorem decode_encode (strict : Bool) (data : Bytes) : decode strict (encode data) = some data := by
  have ascii : (encode data).toList.all (fun c => c.toNat < 128) = true := by
    rw [encode, String.toList_ofList, List.all_eq_true]
    exact fun c member => decide_eq_true (encodeChars_ascii data c member)
  rw [decode, if_pos ascii, encode, String.toList_ofList, decodeFrom_encodeChars]

theorem decodeFrom_of_strict {quad left pads : ℕ} {padded : Bool} {cs : List Char} {data : Bytes}
    (decoded : decodeFrom true quad left pads padded cs = some data) :
    decodeFrom false quad left pads padded cs = some data := by
  induction cs generalizing quad left pads padded data with
  | nil => exact decoded
  | cons c cs ih =>
    unfold decodeFrom at decoded ⊢
    by_cases pad : c = '='
    · rw [if_pos pad] at decoded ⊢
      rw [if_neg (by simp)]
      split at decoded
      · cases decoded
      · split at decoded
        next full =>
          split at decoded
          · cases decoded
          · rw [if_pos full, if_neg (by simp)]
            exact decoded
        next open_group =>
          rw [if_neg open_group]
          exact ih decoded
    · rw [if_neg pad] at decoded ⊢
      cases digit : value? c with
      | none =>
        rw [digit] at decoded
        cases decoded
      | some v =>
        rw [digit] at decoded
        dsimp only at decoded ⊢
        rw [if_neg (by simp)]
        split at decoded
        · cases decoded
        -- The character is read alike, and what follows it by induction.
        · split at decoded
          · exact ih decoded
          all_goals
            obtain ⟨rest, read, rfl⟩ := Option.map_eq_some_iff.mp decoded
            rw [ih read, Option.map_some]

/-- What is accepted strictly is decoded the same otherwise. -/
theorem decode_of_strict {text : String} {data : Bytes} (decoded : decode true text = some data) :
    decode false text = some data := by
  unfold decode at decoded ⊢
  split at decoded
  next ascii =>
    rw [if_pos ascii]
    exact decodeFrom_of_strict decoded
  next => cases decoded

/-- Only the empty string of bytes has an empty encoding. -/
theorem encode_ne_empty {bytes : Bytes} (some_byte : bytes ≠ []) : encode bytes ≠ "" := by
  intro empty
  have decoded := decode_encode false bytes
  rw [empty] at decoded
  exact some_byte (Option.some.inj decoded).symm

/-! ### Decoding without pads -/

/-- Decode from a position inside a group of four, where `quad` characters leave the bits
`left`. The last group may go without its pads; all else has to be of the alphabet. -/
def decodeOpen (quad left : ℕ) : List Char → Option Bytes
  | [] => if quad = 1 then none else some []
  | c :: cs =>
    if c = '=' then
      if quad = 2 ∧ cs = ['='] ∨ 3 ≤ quad ∧ cs = [] then some [] else none
    else
      match value? c with
      | none => none
      | some v =>
        match quad with
        | 0 => decodeOpen 1 v cs
        | 1 => (decodeOpen 2 (v % 16) cs).map (UInt8.ofNat (left * 4 + v / 16) :: ·)
        | 2 => (decodeOpen 3 (v % 4) cs).map (UInt8.ofNat (left * 16 + v / 4) :: ·)
        | _ => (decodeOpen 0 0 cs).map (UInt8.ofNat (left * 64 + v) :: ·)

/-- After a pad, strict decoding takes nothing but the pads that fill the group. -/
private theorem padded_of_strict {quad left pads : ℕ} {cs : List Char} {data : Bytes}
    (decoded : decodeFrom true quad left pads true cs = some data) (inside : quad ≠ 0) :
    data = [] ∧ quad ≠ 1 ∧ (quad = 2 → pads = 1 → cs = ['=']) := by
  induction cs generalizing pads with
  | nil =>
    rw [decodeFrom, if_neg inside] at decoded
    cases decoded
  | cons c cs ih =>
    unfold decodeFrom at decoded
    by_cases pad : c = '='
    · rw [if_pos pad, if_neg (by simp [inside])] at decoded
      by_cases full : 2 ≤ quad ∧ 4 ≤ quad + (pads + 1)
      · rw [if_pos full] at decoded
        by_cases last : cs = []
        · rw [if_neg (by simp [last])] at decoded
          refine ⟨(Option.some.inj decoded).symm, fun one => ?_, fun _ _ => by rw [pad, last]⟩
          rw [one] at full
          exact absurd full.1 (by decide)
        · rw [if_pos ⟨rfl, last⟩] at decoded
          cases decoded
      · rw [if_neg full] at decoded
        obtain ⟨empty, other, -⟩ := ih decoded
        exact ⟨empty, other, fun two one => absurd full (by simp [two, one])⟩
    · rw [if_neg pad] at decoded
      cases digit : value? c with
      | none => rw [digit] at decoded; cases decoded
      | some v => rw [digit] at decoded; cases decoded

/-- What is accepted strictly is decoded the same. -/
theorem decodeOpen_of_strict {quad left : ℕ} {cs : List Char} {data : Bytes}
    (decoded : decodeFrom true quad left 0 false cs = some data) :
    decodeOpen quad left cs = some data := by
  induction cs generalizing quad left data with
  | nil =>
    rw [decodeFrom] at decoded
    by_cases whole : quad = 0
    · rw [if_pos whole] at decoded
      rw [decodeOpen, if_neg (by rw [whole]; decide)]
      exact decoded
    · rw [if_neg whole] at decoded
      cases decoded
  | cons c cs ih =>
    unfold decodeFrom at decoded
    unfold decodeOpen
    by_cases pad : c = '='
    · rw [if_pos pad] at decoded ⊢
      by_cases outside : quad = 0
      · rw [if_pos ⟨rfl, outside⟩] at decoded
        cases decoded
      · rw [if_neg (by simp [outside])] at decoded
        by_cases full : 2 ≤ quad ∧ 4 ≤ quad + (0 + 1)
        · rw [if_pos full] at decoded
          by_cases last : cs = []
          · rw [if_neg (by simp [last])] at decoded
            rw [if_pos (.inr ⟨by omega, last⟩)]
            exact decoded
          · rw [if_pos ⟨rfl, last⟩] at decoded
            cases decoded
        · -- A pad after two characters, with another one to come.
          rw [if_neg full] at decoded
          obtain ⟨rfl, notOne, more⟩ := padded_of_strict decoded outside
          have two : quad = 2 := by omega
          rw [if_pos (.inl ⟨two, more two (by simp [two])⟩)]
    · rw [if_neg pad] at decoded ⊢
      cases digit : value? c with
      | none => rw [digit] at decoded; cases decoded
      | some v =>
        rw [digit] at decoded
        dsimp only at decoded ⊢
        rw [if_neg (by simp)] at decoded
        -- The character is read alike, and what follows it by induction.
        split at decoded
        · exact ih decoded
        all_goals
          obtain ⟨rest, read, rfl⟩ := Option.map_eq_some_iff.mp decoded
          simp [ih read]

theorem decodeOpen_encode (data : Bytes) : decodeOpen 0 0 (encode data).toList = some data := by
  rw [encode, String.toList_ofList]
  exact decodeOpen_of_strict (decodeFrom_encodeChars true data)

example : encode [84, 80] = "VFA=" ∧ decode false "V-F\nA=" = some [84, 80] ∧
    decode true "V-FA=" = none := by decide

end Base64

end Foundation
