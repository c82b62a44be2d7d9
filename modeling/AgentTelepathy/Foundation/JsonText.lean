import AgentTelepathy.Foundation.FixedWidth
import AgentTelepathy.Foundation.Json

/-!
# JSON text and its unique readability

An encoder is fixed by what it writes after a comma and after a colon and by
how it escapes the characters of a string. Every escaping that the standard
unescaping inverts gives an unambiguous encoding: a value is determined by its
text, even when the text of further values follows. With the object keys sorted
first, the text determines the value up to the order of object members.
-/

namespace Foundation

namespace JsonText

/-! ### String escapes -/

/-- Four hexadecimal digits. -/
def hex4 (n : ℕ) : List Char := FixedWidth.write 16 4 n

/-- Read the four hexadecimal digits of a `\u` escape. -/
def readUnit : List Char → Option (ℕ × List Char)
  | a :: b :: c :: d :: cs => (FixedWidth.read 16 [a, b, c, d]).map fun n => (n, cs)
  | _ => none

theorem readUnit_hex4 {n : ℕ} (small : n < 65536) (cs : List Char) :
    readUnit (hex4 n ++ cs) = some (n, cs) := by
  have reads : FixedWidth.read 16 (hex4 n) = some n :=
    FixedWidth.read_write (by decide) (by decide) small
  simp only [hex4, FixedWidth.write, List.nil_append, List.cons_append] at reads ⊢
  simp [readUnit, reads]

/-- Read a `\u` escape after the `u`, joining a surrogate pair into one
character. A surrogate without its partner is not a character. -/
def unescapeUnit (cs : List Char) : Option (Char × List Char) :=
  (readUnit cs).bind fun (high, rest) =>
    if 0xD800 ≤ high ∧ high < 0xDC00 then
      match rest with
      | '\\' :: 'u' :: ds =>
        (readUnit ds).bind fun (low, rest) =>
          if 0xDC00 ≤ low ∧ low < 0xE000 then
            some (Char.ofNat (0x10000 + (high - 0xD800) * 0x400 + (low - 0xDC00)), rest)
          else none
      | _ => none
    else if 0xDC00 ≤ high ∧ high < 0xE000 then none
    else some (Char.ofNat high, rest)

/-- The characters that a backslash and one letter stand for. -/
def shortEscape (c : Char) : Option Char :=
  if c = '"' then some '"'
  else if c = '\\' then some '\\'
  else if c = '/' then some '/'
  else if c = 'b' then some '\x08'
  else if c = 'f' then some '\x0c'
  else if c = 'n' then some '\n'
  else if c = 'r' then some '\r'
  else if c = 't' then some '\t'
  else none

/-- Read the next character of a string; nothing at the closing quote and at
text that is not allowed in a string. -/
def unescape : List Char → Option (Char × List Char)
  | [] => none
  | c :: cs =>
    if c = '"' then none
    else if c = '\\' then
      match cs with
      | [] => none
      | d :: ds => if d = 'u' then unescapeUnit ds else (shortEscape d).map fun e => (e, ds)
    else if c < ' ' then none
    else some (c, cs)

/-- The escapes that every encoder here shares: quote, backslash and the five
control characters with a letter of their own. -/
def letterEscape (c : Char) : Option Char :=
  if c = '"' then some '"'
  else if c = '\\' then some '\\'
  else if c = '\n' then some 'n'
  else if c = '\r' then some 'r'
  else if c = '\t' then some 't'
  else if c = '\x0c' then some 'f'
  else if c = '\x08' then some 'b'
  else none

/-- The `\u` escape of a character, a surrogate pair beyond the first plane. -/
def unitEscape (c : Char) : List Char :=
  if c.toNat < 0x10000 then '\\' :: 'u' :: hex4 c.toNat
  else
    '\\' :: 'u' :: (hex4 (0xD800 + (c.toNat - 0x10000) / 0x400) ++
      '\\' :: 'u' :: hex4 (0xDC00 + (c.toNat - 0x10000) % 0x400))

/-- Escape a character, writing those that `raw` admits as they are. -/
def escapeWith (raw : Char → Bool) (c : Char) : List Char :=
  match letterEscape c with
  | some d => ['\\', d]
  | none => if raw c then [c] else unitEscape c

/-- An escaping that the standard unescaping inverts. -/
structure Escaping where
  escape : Char → List Char
  unescape_escape : ∀ (c : Char) (cs : List Char), unescape (escape c ++ cs) = some (c, cs)

theorem unescape_unit (cs : List Char) : unescape ('\\' :: 'u' :: cs) = unescapeUnit cs := by
  simp [unescape]

/-- Characters are the code points that are not surrogates. -/
theorem toNat_scalar (c : Char) : c.toNat < 0xD800 ∨ 0xDFFF < c.toNat ∧ c.toNat < 0x110000 := by
  have valid := c.valid
  simp only [UInt32.isValidChar, Nat.isValidChar] at valid
  exact valid

/-- A code point of the first plane that is not a surrogate reads as itself. -/
theorem unescapeUnit_hex4 {c : Char} (plane : c.toNat < 0x10000) (cs : List Char) :
    unescapeUnit (hex4 c.toNat ++ cs) = some (c, cs) := by
  have scalar := toNat_scalar c
  have notHigh : ¬ (0xD800 ≤ c.toNat ∧ c.toNat < 0xDC00) := by omega
  have notLow : ¬ (0xDC00 ≤ c.toNat ∧ c.toNat < 0xE000) := by omega
  rw [unescapeUnit, readUnit_hex4 plane]
  simp only [Option.bind_some]
  rw [if_neg notHigh, if_neg notLow, Char.ofNat_toNat]

/-- A surrogate pair carries twenty bits, ten in each half. -/
theorem unescapeUnit_pair {n : ℕ} (small : n < 0x100000) (cs : List Char) :
    unescapeUnit (hex4 (0xD800 + n / 0x400) ++ '\\' :: 'u' :: (hex4 (0xDC00 + n % 0x400) ++ cs)) =
      some (Char.ofNat (0x10000 + n), cs) := by
  have high : 0xD800 + n / 0x400 < 0xDC00 := by omega
  have low : 0xDC00 + n % 0x400 < 0xE000 := by omega
  have joined : 0x10000 + (0xD800 + n / 0x400 - 0xD800) * 0x400 +
      (0xDC00 + n % 0x400 - 0xDC00) = 0x10000 + n := by omega
  rw [unescapeUnit, readUnit_hex4 (by omega)]
  simp only [Option.bind_some]
  rw [if_pos ⟨Nat.le_add_right _ _, high⟩, readUnit_hex4 (by omega)]
  simp only [Option.bind_some]
  rw [if_pos ⟨Nat.le_add_right _ _, low⟩, joined]

theorem unescape_unitEscape (c : Char) (cs : List Char) :
    unescape (unitEscape c ++ cs) = some (c, cs) := by
  have scalar := toNat_scalar c
  by_cases plane : c.toNat < 0x10000
  · rw [unitEscape, if_pos plane, List.cons_append, List.cons_append, unescape_unit,
      unescapeUnit_hex4 plane]
  · have joined : 0x10000 + (c.toNat - 0x10000) = c.toNat := by omega
    rw [unitEscape, if_neg plane]
    simp only [List.cons_append, List.append_assoc]
    rw [unescape_unit, unescapeUnit_pair (by omega), joined, Char.ofNat_toNat]

theorem shortEscape_letterEscape {c d : Char} (h : letterEscape c = some d) :
    d ≠ 'u' ∧ shortEscape d = some c := by
  unfold letterEscape at h
  split_ifs at h with h1 h2 h3 h4 h5 h6 h7 <;> cases h <;> subst_vars <;> decide

theorem unescape_escapeWith {raw : Char → Bool} (printable : ∀ c, raw c = true → ¬ c < ' ')
    (c : Char) (cs : List Char) : unescape (escapeWith raw c ++ cs) = some (c, cs) := by
  unfold escapeWith
  cases letter : letterEscape c with
  | some d =>
    obtain ⟨notUnit, short⟩ := shortEscape_letterEscape letter
    simp [unescape, notUnit, short]
  | none =>
    dsimp only
    split_ifs with written
    · have notQuote : c ≠ '"' := by rintro rfl; exact absurd letter (by decide)
      have notBackslash : c ≠ '\\' := by rintro rfl; exact absurd letter (by decide)
      simp [unescape, notQuote, notBackslash, printable c written]
    · exact unescape_unitEscape c cs

/-- Only printable ASCII is written as it is (`ensure_ascii=True`). -/
def asciiEscaping : Escaping where
  escape := escapeWith fun c => ' ' ≤ c ∧ c ≤ '~'
  unescape_escape := unescape_escapeWith fun c h => by
    have bounds : ' ' ≤ c ∧ c ≤ '~' := by simpa using h
    exact not_lt.mpr bounds.1

/-- Everything but control characters, quote and backslash is written as it is
(`ensure_ascii=False`). -/
def unicodeEscaping : Escaping where
  escape := escapeWith fun c => ' ' ≤ c
  unescape_escape := unescape_escapeWith fun c h => by
    have bound : ' ' ≤ c := by simpa using h
    exact not_lt.mpr bound

/-! ### Values -/

/-- What an encoder writes after a comma and after a colon, and its escaping. -/
structure Style where
  itemGap : List Char
  keyGap : List Char
  escaping : Escaping

variable (st : Style)

/-- A string between quotes. -/
def quote (s : String) : List Char := '"' :: (s.toList.flatMap st.escaping.escape ++ ['"'])

/-- The text of an integer. -/
def intText (n : ℤ) : List Char := Float64.signed (decide (n < 0)) (Float64.digits n.natAbs)

mutual

/-- The text of a value, members in the order of the value. -/
def render : Json → List Char
  | .null => ['n', 'u', 'l', 'l']
  | .bool true => ['t', 'r', 'u', 'e']
  | .bool false => ['f', 'a', 'l', 's', 'e']
  | .int n => intText n
  | .float f => Float64.repr f
  | .str s => quote st s
  | .arr [] => ['[', ']']
  | .arr (v :: l) => '[' :: (render v ++ renderItems l)
  | .obj [] => ['{', '}']
  | .obj ((k, v) :: l) =>
    '{' :: (quote st k ++ ':' :: (st.keyGap ++ (render v ++ renderMembers l)))

/-- The further items of an array and its closing bracket. -/
def renderItems : List Json → List Char
  | [] => [']']
  | v :: l => ',' :: (st.itemGap ++ (render v ++ renderItems l))

/-- The further members of an object and its closing brace. -/
def renderMembers : List (String × Json) → List Char
  | [] => ['}']
  | (k, v) :: l =>
    ',' :: (st.itemGap ++ (quote st k ++ ':' :: (st.keyGap ++ (render v ++ renderMembers l))))

end

/-! ### Unique readability -/

variable {st}

theorem flatMap_escape_cancel {l m a b : List Char}
    (h : l.flatMap st.escaping.escape ++ '"' :: a = m.flatMap st.escaping.escape ++ '"' :: b) :
    l = m ∧ a = b := by
  have stop (cs : List Char) : unescape ('"' :: cs) = none := by simp [unescape]
  induction l generalizing m with
  | nil =>
    cases m with
    | nil => exact ⟨rfl, by simpa using h⟩
    -- A quotation mark ends the string, and no escape begins with one.
    | cons d m =>
      have reads := congrArg unescape h
      simp only [List.flatMap_nil, List.nil_append, List.flatMap_cons, List.append_assoc,
        stop, st.escaping.unescape_escape] at reads
      exact absurd reads (by simp)
  | cons c l ih =>
    have reads := congrArg unescape h
    cases m with
    | nil =>
      simp only [List.flatMap_nil, List.nil_append, List.flatMap_cons, List.append_assoc,
        stop, st.escaping.unescape_escape] at reads
      exact absurd reads (by simp)
    | cons d m =>
      simp only [List.flatMap_cons, List.append_assoc, st.escaping.unescape_escape,
        Option.some.injEq, Prod.mk.injEq] at reads
      obtain ⟨rfl, rest⟩ := ih reads.2
      exact ⟨by rw [reads.1], rest⟩

theorem quote_cancel {s t : String} {a b : List Char}
    (h : quote st s ++ a = quote st t ++ b) : s = t ∧ a = b := by
  simp only [quote, List.cons_append, List.append_assoc, List.nil_append, List.cons.injEq,
    true_and] at h
  obtain ⟨chars, rest⟩ := flatMap_escape_cancel h
  exact ⟨String.toList_inj.mp chars, rest⟩

/-- The characters that separate and enclose values. -/
def IsMark (c : Char) : Prop := c ∈ [',', ']', '}', '"', '[', '{']

instance (c : Char) : Decidable (IsMark c) := inferInstanceAs (Decidable (c ∈ _))

/-- What may follow a value: nothing, or text that starts with a mark. -/
def Stops (cs : List Char) : Prop := ∀ c ∈ cs.head?, IsMark c

theorem stops_nil : Stops [] := by simp [Stops]

theorem stops_renderItems (l : List Json) (cs : List Char) : Stops (renderItems st l ++ cs) := by
  cases l <;> simp [renderItems, Stops, IsMark]

theorem stops_renderMembers (l : List (String × Json)) (cs : List Char) :
    Stops (renderMembers st l ++ cs) := by
  cases l <;> simp [renderMembers, Stops, IsMark]

theorem token_cancel {x y s t : List Char} (hx : ∀ c ∈ x, ¬ IsMark c)
    (hy : ∀ c ∈ y, ¬ IsMark c) (hs : Stops s) (ht : Stops t) (h : x ++ s = y ++ t) :
    x = y ∧ s = t := by
  induction x generalizing y with
  | nil =>
    cases y with
    | nil => exact ⟨rfl, h⟩
    | cons d y =>
      rw [List.nil_append, List.cons_append] at h
      exact absurd (hs d (by simp [h])) (hy d (by simp))
  | cons c x ih =>
    cases y with
    | nil =>
      rw [List.nil_append, List.cons_append] at h
      exact absurd (ht c (by simp [← h])) (hx c (by simp))
    | cons d y =>
      rw [List.cons_append, List.cons_append, List.cons.injEq] at h
      rw [List.forall_mem_cons] at hx hy
      obtain ⟨rfl, rest⟩ := ih hx.2 hy.2 h.2
      exact ⟨by rw [h.1], rest⟩

/-- The values whose text is one token. -/
def IsScalar : Json → Prop
  | .null | .bool _ | .int _ | .float _ => True
  | _ => False

/-- A table over a list of characters, checked item by item. -/
theorem forall_mem_of_all {p : Char → Prop} [DecidablePred p] {cs : List Char}
    (all : cs.all (fun c => decide (p c)) = true) : ∀ c ∈ cs, p c := by
  simpa using all

theorem not_isMark_of_isDecimalChar {c : Char} (h : Float64.IsDecimalChar c) :
    ¬ IsMark c := by
  rintro mark
  rcases h with digit | sign
  · have noDigit : ∀ c ∈ [',', ']', '}', '"', '[', '{'], c.isDigit = false :=
      forall_mem_of_all (by decide)
    rw [noDigit c mark] at digit
    exact absurd digit (by simp)
  · have disjoint : ∀ c ∈ ['-', '+', '.', 'e', 'E'], ¬ IsMark c :=
      forall_mem_of_all (by decide)
    exact disjoint c sign mark

theorem signed_digits_isDecimalChar (neg : Bool) (n : ℕ) :
    ∀ c ∈ Float64.signed neg (Float64.digits n), Float64.IsDecimalChar c := by
  have digits : ∀ c ∈ Float64.digits n, Float64.IsDecimalChar c :=
    fun _ h => Or.inl (Float64.digits_isDigit h)
  cases neg with
  | true => exact List.forall_mem_cons.mpr ⟨Or.inr (by simp), digits⟩
  | false => exact digits

private theorem repr_not_isMark (f : Float64) : ∀ c ∈ Float64.repr f, ¬ IsMark c := by
  intro c member
  cases f with
  | finite b =>
    rcases Float64.repr_finite b with reads | coded
    · exact not_isMark_of_isDecimalChar (Float64.read_chars reads c member)
    · rw [coded] at member
      rcases List.mem_cons.mp member with rfl | digit
      · decide
      · exact not_isMark_of_isDecimalChar (Or.inl (Float64.digits_isDigit digit))
  | infinite neg =>
    cases neg with
    | false =>
      have table : ∀ c ∈ Float64.repr (.infinite false), ¬ IsMark c :=
        forall_mem_of_all (by decide)
      exact table c member
    | true =>
      have table : ∀ c ∈ Float64.repr (.infinite true), ¬ IsMark c :=
        forall_mem_of_all (by decide)
      exact table c member
  | nan =>
    have table : ∀ c ∈ Float64.repr .nan, ¬ IsMark c := forall_mem_of_all (by decide)
    exact table c member

theorem render_not_isMark {v : Json} (scalar : IsScalar v) : ∀ c ∈ render st v, ¬ IsMark c := by
  cases v with
  | null =>
    simp only [render]
    exact forall_mem_of_all (by decide)
  | bool b =>
    cases b <;> simp only [render] <;> exact forall_mem_of_all (by decide)
  | int n =>
    simp only [render, intText]
    exact fun c member => not_isMark_of_isDecimalChar (signed_digits_isDecimalChar _ _ c member)
  | float f => simpa only [render] using repr_not_isMark f
  | _ => exact scalar.elim

theorem signed_digits_ne_nil (neg : Bool) (n : ℕ) : Float64.signed neg (Float64.digits n) ≠ [] := by
  cases neg <;> simp [Float64.signed, Float64.digits_ne_nil]

private theorem repr_ne_nil (f : Float64) : Float64.repr f ≠ [] := by
  cases f with
  | finite b =>
    rcases Float64.repr_finite b with reads | coded
    · intro empty
      rw [empty] at reads
      exact absurd reads (by simp [Float64.read, Float64.readUnsigned])
    · simp [coded, Float64.code]
  | infinite neg => cases neg <;> decide
  | nan => decide

theorem render_ne_nil {v : Json} (scalar : IsScalar v) : render st v ≠ [] := by
  cases v with
  | null => simp [render]
  | bool b => cases b <;> simp [render]
  | int n => simpa only [render, intText] using signed_digits_ne_nil _ _
  | float f => simpa only [render] using repr_ne_nil f
  | _ => exact scalar.elim

theorem intText_injective : Function.Injective intText := by
  intro m n h
  have minus : ∀ n, '-' ∉ Float64.digits n := fun n member =>
    absurd (Float64.digits_isDigit member) (by decide)
  unfold intText Float64.signed at h
  split_ifs at h with hm hn hn
  · have abs := Float64.digits_injective (List.cons.inj h).2
    simp only [decide_eq_true_eq] at hm hn
    omega
  · exact absurd (h ▸ List.mem_cons_self) (minus n.natAbs)
  · exact absurd (h ▸ List.mem_cons_self) (minus m.natAbs)
  · have abs := Float64.digits_injective h
    simp only [decide_eq_true_eq] at hm hn
    omega

private theorem word_ne_intText {cs : List Char} {c : Char} (member : c ∈ cs)
    (letter : ¬ Float64.IsDecimalChar c) (n : ℤ) : cs ≠ intText n := by
  rintro rfl
  exact letter (signed_digits_isDecimalChar _ _ c member)

theorem not_isDecimalChar_of_mem {c : Char} (h : c ∈ ['u', 's']) :
    ¬ Float64.IsDecimalChar c := by
  rw [List.mem_cons, List.mem_singleton] at h
  rcases h with rfl | rfl <;> (unfold Float64.IsDecimalChar; decide)

/-- A scalar is determined by its token. -/
theorem render_scalar_injective {v w : Json} (hv : IsScalar v) (hw : IsScalar w)
    (h : render st v = render st w) : v = w := by
  -- No number is written as one of the three words, and no integer as a float.
  have wordFloat : ∀ word ∈ [['n', 'u', 'l', 'l'], ['t', 'r', 'u', 'e'], ['f', 'a', 'l', 's', 'e']],
      ∀ f, Float64.repr f ≠ word := by
    intro word member f
    simp only [List.mem_cons, List.not_mem_nil, or_false] at member
    rcases member with rfl | rfl | rfl <;> exact Float64.repr_ne_word (by decide) (by simp) f
  have wordInt : ∀ word ∈ [['n', 'u', 'l', 'l'], ['t', 'r', 'u', 'e'], ['f', 'a', 'l', 's', 'e']],
      ∀ n, word ≠ intText n := by
    intro word member n
    simp only [List.mem_cons, List.not_mem_nil, or_false] at member
    rcases member with rfl | rfl | rfl
    · exact word_ne_intText (c := 'u') (by simp) (not_isDecimalChar_of_mem (by simp)) n
    · exact word_ne_intText (c := 'u') (by simp) (not_isDecimalChar_of_mem (by simp)) n
    · exact word_ne_intText (c := 's') (by simp) (not_isDecimalChar_of_mem (by simp)) n
  have intFloat : ∀ n f, intText n ≠ Float64.repr f := fun n f same =>
    Float64.repr_ne_signed_digits f _ _ same.symm
  cases v with
  | null =>
    cases w with
    | null => rfl
    | bool b => cases b <;> simp [render] at h
    | int n => exact absurd (by simpa only [render] using h) (wordInt _ (by simp) n)
    | float f => exact absurd (by simpa only [render] using h.symm) (wordFloat _ (by simp) f)
    | _ => exact hw.elim
  | bool b =>
    cases w with
    | null => cases b <;> simp [render] at h
    | bool c => cases b <;> cases c <;> simp [render] at h ⊢
    | int n =>
      cases b <;> exact absurd (by simpa only [render] using h) (wordInt _ (by simp) n)
    | float f =>
      cases b <;> exact absurd (by simpa only [render] using h.symm) (wordFloat _ (by simp) f)
    | _ => exact hw.elim
  | int m =>
    cases w with
    | null => exact absurd (by simpa only [render] using h.symm) (wordInt _ (by simp) m)
    | bool b =>
      cases b <;> exact absurd (by simpa only [render] using h.symm) (wordInt _ (by simp) m)
    | int n =>
      have texts : intText m = intText n := by simpa only [render] using h
      rw [intText_injective texts]
    | float f => exact absurd (by simpa only [render] using h) (intFloat m f)
    | _ => exact hw.elim
  | float f =>
    cases w with
    | null => exact absurd (by simpa only [render] using h) (wordFloat _ (by simp) f)
    | bool b =>
      cases b <;> exact absurd (by simpa only [render] using h) (wordFloat _ (by simp) f)
    | int n => exact absurd (by simpa only [render] using h.symm) (intFloat n f)
    | float g =>
      have texts : Float64.repr f = Float64.repr g := by simpa only [render] using h
      rw [Float64.repr_injective texts]
    | _ => exact hw.elim
  | _ => exact hv.elim

/-- The first character of a scalar's text opens no string, array or object. -/
private theorem scalar_ne_open {v : Json} (scalar : IsScalar v) {c : Char} (mark : IsMark c)
    {cs ds : List Char} : render st v ++ cs ≠ c :: ds := by
  intro same
  cases text : render st v with
  | nil => exact render_ne_nil scalar text
  | cons d rest =>
    rw [text, List.cons_append, List.cons.injEq] at same
    have unmarked : ¬ IsMark d := render_not_isMark scalar d (text ▸ List.mem_cons_self)
    exact unmarked (same.1 ▸ mark)

/-- The three shapes of a value that is not a scalar, by its first character. -/
inductive Shape : Json → Char → Prop
  | str (s : String) : Shape (.str s) '"'
  | arr (l : List Json) : Shape (.arr l) '['
  | obj (l : List (String × Json)) : Shape (.obj l) '{'

theorem shape_or_scalar (v : Json) : IsScalar v ∨ ∃ c, Shape v c := by
  cases v with
  | str s => exact Or.inr ⟨_, .str s⟩
  | arr l => exact Or.inr ⟨_, .arr l⟩
  | obj l => exact Or.inr ⟨_, .obj l⟩
  | _ => exact Or.inl trivial

private theorem Shape.isMark {v : Json} {c : Char} (shape : Shape v c) : IsMark c := by
  cases shape <;> decide

theorem Shape.open {v : Json} {c : Char} (shape : Shape v c) :
    ∃ rest, render st v = c :: rest := by
  cases shape with
  | str s => exact ⟨_, by rw [render, quote]⟩
  | arr l => cases l <;> exact ⟨_, by rw [render]⟩
  | obj l => cases l <;> exact ⟨_, by rw [render]⟩

private theorem scalar_cancel {v w : Json} {s t : List Char} (scalar : IsScalar v)
    (hs : Stops s) (ht : Stops t) (h : render st v ++ s = render st w ++ t) : v = w ∧ s = t := by
  rcases shape_or_scalar w with scalar' | ⟨c, shape⟩
  · obtain ⟨token, rest⟩ :=
      token_cancel (render_not_isMark scalar) (render_not_isMark scalar') hs ht h
    exact ⟨render_scalar_injective scalar scalar' token, rest⟩
  · obtain ⟨rest, starts⟩ : ∃ rest, render st w = c :: rest := shape.open
    rw [starts, List.cons_append] at h
    exact absurd h (scalar_ne_open scalar shape.isMark)

/-- The first character of a text tells the shape of its value. -/
private theorem shape_of_open {w : Json} {c : Char} (mark : IsMark c) {cs ds : List Char}
    (h : render st w ++ cs = c :: ds) : Shape w c := by
  rcases shape_or_scalar w with scalar | ⟨d, shape⟩
  · exact absurd h (scalar_ne_open scalar mark)
  · obtain ⟨rest, starts⟩ : ∃ rest, render st w = d :: rest := shape.open
    rw [starts, List.cons_append, List.cons.injEq] at h
    exact h.1 ▸ shape

theorem render_ne_close {v : Json} {cs ds : List Char} : render st v ++ cs ≠ ']' :: ds := by
  intro h
  have shape := shape_of_open (by decide) h
  cases shape

mutual

/-- A value and the text that follows it can be told apart. -/
theorem render_cancel : ∀ (v w : Json) {s t : List Char}, Stops s → Stops t →
    render st v ++ s = render st w ++ t → v = w ∧ s = t
  | .str a, w, s, t, _, _, h => by
    -- The first character of the text tells what kind of value was written.
    have shape : Shape w '"' := shape_of_open (by decide)
      (h.symm.trans (by rw [render, quote]; rfl))
    cases shape with
    | str b =>
      rw [render, render] at h
      obtain ⟨rfl, rest⟩ := quote_cancel h
      exact ⟨rfl, rest⟩
  | .arr [], w, s, t, _, _, h => by
    have shape : Shape w '[' := shape_of_open (by decide) (h.symm.trans (by rw [render]; rfl))
    cases shape with
    | arr m =>
      cases m with
      | nil => exact ⟨rfl, by simpa [render] using h⟩
      | cons y m =>
        simp only [render, List.cons_append, List.nil_append, List.append_assoc,
          List.cons.injEq, true_and] at h
        exact absurd h.symm render_ne_close
  | .arr (x :: l), w, s, t, _, _, h => by
    have shape : Shape w '[' := shape_of_open (by decide) (h.symm.trans (by rw [render]; rfl))
    cases shape with
    | arr m =>
      cases m with
      | nil =>
        simp only [render, List.cons_append, List.nil_append, List.append_assoc,
          List.cons.injEq, true_and] at h
        exact absurd h render_ne_close
      | cons y m =>
        simp only [render, List.cons_append, List.append_assoc, List.cons.injEq, true_and] at h
        obtain ⟨rfl, items⟩ :=
          render_cancel x y (stops_renderItems l s) (stops_renderItems m t) h
        obtain ⟨rfl, rest⟩ := renderItems_cancel l m items
        exact ⟨rfl, rest⟩
  | .obj [], w, s, t, _, _, h => by
    have shape : Shape w '{' := shape_of_open (by decide) (h.symm.trans (by rw [render]; rfl))
    cases shape with
    | obj m =>
      cases m with
      | nil => exact ⟨rfl, by simpa [render] using h⟩
      | cons p m => simp [render, quote] at h
  | .obj ((k, x) :: l), w, s, t, _, _, h => by
    have shape : Shape w '{' := shape_of_open (by decide) (h.symm.trans (by rw [render]; rfl))
    cases shape with
    | obj m =>
      cases m with
      | nil => simp [render, quote] at h
      | cons p m =>
        obtain ⟨j, y⟩ := p
        simp only [render, List.cons_append, List.append_assoc, List.cons.injEq, true_and] at h
        obtain ⟨rfl, value⟩ := quote_cancel h
        rw [List.cons.injEq, List.append_cancel_left_eq] at value
        obtain ⟨rfl, members⟩ :=
          render_cancel x y (stops_renderMembers l s) (stops_renderMembers m t) value.2
        obtain ⟨rfl, rest⟩ := renderMembers_cancel l m members
        exact ⟨rfl, rest⟩
  | .null, w, s, t, hs, ht, h => scalar_cancel trivial hs ht h
  | .bool _, w, s, t, hs, ht, h => scalar_cancel trivial hs ht h
  | .int _, w, s, t, hs, ht, h => scalar_cancel trivial hs ht h
  | .float _, w, s, t, hs, ht, h => scalar_cancel trivial hs ht h

/-- The items of an array end at its closing bracket. -/
theorem renderItems_cancel : ∀ (l m : List Json) {s t : List Char},
    renderItems st l ++ s = renderItems st m ++ t → l = m ∧ s = t
  | [], m, s, t, h => by
    cases m with
    | nil => exact ⟨rfl, by simpa [renderItems] using h⟩
    | cons y m => simp [renderItems] at h
  | x :: l, m, s, t, h => by
    cases m with
    | nil => simp [renderItems] at h
    | cons y m =>
      simp only [renderItems, List.cons_append, List.append_assoc, List.cons.injEq, true_and,
        List.append_cancel_left_eq] at h
      obtain ⟨rfl, items⟩ := render_cancel x y (stops_renderItems l s) (stops_renderItems m t) h
      obtain ⟨rfl, rest⟩ := renderItems_cancel l m items
      exact ⟨rfl, rest⟩

/-- The members of an object end at its closing brace. -/
theorem renderMembers_cancel : ∀ (l m : List (String × Json)) {s t : List Char},
    renderMembers st l ++ s = renderMembers st m ++ t → l = m ∧ s = t
  | [], m, s, t, h => by
    cases m with
    | nil => exact ⟨rfl, by simpa [renderMembers] using h⟩
    | cons p m => simp [renderMembers] at h
  | (k, x) :: l, m, s, t, h => by
    cases m with
    | nil => simp [renderMembers] at h
    | cons p m =>
      obtain ⟨j, y⟩ := p
      simp only [renderMembers, List.cons_append, List.append_assoc, List.cons.injEq, true_and,
        List.append_cancel_left_eq] at h
      obtain ⟨rfl, value⟩ := quote_cancel h
      rw [List.cons.injEq, List.append_cancel_left_eq] at value
      obtain ⟨rfl, members⟩ :=
        render_cancel x y (stops_renderMembers l s) (stops_renderMembers m t) value.2
      obtain ⟨rfl, rest⟩ := renderMembers_cancel l m members
      exact ⟨rfl, rest⟩

end

/-- A value is determined by its text. -/
theorem render_injective {v w : Json} (h : render st v = render st w) : v = w :=
  (render_cancel v w stops_nil stops_nil (by rw [h])).1

/-! ### Encoders -/

/-- `json.dumps(v, sort_keys=True)` with the separators and escapes of a style. -/
def dumpsSorted (st : Style) (v : Json) : String := String.ofList (render st v.sortKeys)

/-- Sorted text determines the value up to the order of object members. -/
theorem dumpsSorted_eq_iff {st : Style} {v w : Json} :
    dumpsSorted st v = dumpsSorted st w ↔ Json.Same v w :=
  ⟨fun h => render_injective (String.ofList_injective h), fun h => by rw [dumpsSorted, h]; rfl⟩

/-- Blanks after commas and colons, ASCII only: the default of `json.dumps`. -/
def defaultStyle : Style := ⟨[' '], [' '], asciiEscaping⟩

/-- No blanks and no needless escapes. -/
def compactStyle : Style := ⟨[], [], unicodeEscaping⟩

example : dumpsSorted compactStyle (.obj [("b", .int (-1)), ("a", .arr [.str "é\n", .null])]) =
    "\x7b\"a\":[\"é\\n\",null],\"b\":-1\x7d" := by decide

end JsonText

end Foundation
