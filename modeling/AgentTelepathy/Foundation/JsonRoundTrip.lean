import AgentTelepathy.Foundation.JsonRead
import AgentTelepathy.Foundation.Shortest

/-!
# Reading back what was written

Reading the text of a value gives the value, if an encoder puts only blanks
between tokens and no object has a key twice. A number is read up to the end of
its token; so the text of every number is cut into integer part, fraction and
exponent as it was laid out. The fuel that reading needs is bounded by the
length of the text.
-/

namespace Foundation

/-! ### Values without repeated keys -/

namespace Json

mutual

/-- No object in the value has a key twice. -/
def Distinct : Json → Prop
  | .arr items => DistinctItems items
  | .obj members => (members.map Prod.fst).Nodup ∧ DistinctMembers members
  | _ => True

/-- The same for every item. -/
def DistinctItems : List Json → Prop
  | [] => True
  | v :: l => Distinct v ∧ DistinctItems l

/-- The same for the value of every member. -/
def DistinctMembers : List (String × Json) → Prop
  | [] => True
  | (_, v) :: l => Distinct v ∧ DistinctMembers l

end

theorem distinctMembers_iff {l : List (String × Json)} :
    DistinctMembers l ↔ ∀ p ∈ l, Distinct p.2 := by
  induction l with
  | nil => simp [DistinctMembers]
  | cons p l ih => simp [DistinctMembers, ih]

theorem keys_sortMembers (l : List (String × Json)) :
    (sortMembers l).map Prod.fst = l.map Prod.fst := by
  simp [sortMembers_eq_map]

mutual

theorem distinct_sortKeys : ∀ v : Json, v.Distinct → v.sortKeys.Distinct
  | .arr l, h => distinctItems_sortItems l h
  | .obj l, h => by
    have perm := perm_sortByKey (sortMembers l)
    refine ⟨(perm.map Prod.fst).nodup_iff.mpr (by rw [keys_sortMembers]; exact h.1), ?_⟩
    rw [distinctMembers_iff]
    intro p member
    exact distinctMembers_iff.mp (distinctMembers_sortMembers l h.2) p (perm.mem_iff.mp member)
  | .null, h | .bool _, h | .int _, h | .float _, h | .str _, h => h

theorem distinctItems_sortItems : ∀ l : List Json, DistinctItems l → DistinctItems (sortItems l)
  | [], h => h
  | v :: l, h => ⟨distinct_sortKeys v h.1, distinctItems_sortItems l h.2⟩

theorem distinctMembers_sortMembers :
    ∀ l : List (String × Json), DistinctMembers l → DistinctMembers (sortMembers l)
  | [], h => h
  | (_, v) :: l, h => ⟨distinct_sortKeys v h.1, distinctMembers_sortMembers l h.2⟩

end

theorem sortByKey_map {f : Json → Json} (l : List (String × Json)) :
    sortByKey (l.map fun p => (p.1, f p.2)) = (sortByKey l).map fun p => (p.1, f p.2) := by
  let below : String × Json → String × Json → Prop := fun p q => p.1 ≤ q.1
  exact (List.map_insertionSort below below (fun p => (p.1, f p.2)) l fun _ _ _ _ => Iff.rfl).symm

theorem sortByKey_sortByKey (l : List (String × Json)) : sortByKey (sortByKey l) = sortByKey l :=
  List.Pairwise.insertionSort_eq (pairwise_sortByKey l)

mutual

theorem sortKeys_sortKeys : ∀ v : Json, v.sortKeys.sortKeys = v.sortKeys
  | .arr l => congrArg Json.arr (sortItems_sortItems l)
  | .obj l => by
    rw [sortKeys, sortKeys, sortMembers_eq_map (sortByKey _), ← sortByKey_map, sortByKey_sortByKey,
      ← sortMembers_eq_map, sortMembers_sortMembers l]
  | .null | .bool _ | .int _ | .float _ | .str _ => rfl

theorem sortItems_sortItems : ∀ l : List Json, sortItems (sortItems l) = sortItems l
  | [] => rfl
  | v :: l => by rw [sortItems, sortItems, sortKeys_sortKeys v, sortItems_sortItems l]

theorem sortMembers_sortMembers :
    ∀ l : List (String × Json), sortMembers (sortMembers l) = sortMembers l
  | [] => rfl
  | (k, v) :: l => by rw [sortMembers, sortMembers, sortKeys_sortKeys v, sortMembers_sortMembers l]

end

/-- A value and its sorted form are the same. -/
theorem same_sortKeys (v : Json) : Same v v.sortKeys := (sortKeys_sortKeys v).symm

end Json

namespace JsonText

/-! ### Blanks -/

/-- Whether a character may stand between tokens. -/
def IsBlank (c : Char) : Prop := c = ' ' ∨ c = '\t' ∨ c = '\n' ∨ c = '\r'

instance (c : Char) : Decidable (IsBlank c) := inferInstanceAs (Decidable (_ ∨ _))

/-- An encoder that puts only blanks between tokens. -/
def Style.Blank (st : Style) : Prop := (∀ c ∈ st.itemGap, IsBlank c) ∧ ∀ c ∈ st.keyGap, IsBlank c

theorem skipBlanks_eq (cs : List Char) : skipBlanks cs = cs.dropWhile fun c => decide (IsBlank c) :=
    rfl

theorem skipBlanks_append {gap cs : List Char} (blank : ∀ c ∈ gap, IsBlank c)
    (stops : ∀ c ∈ cs.head?, ¬ IsBlank c) : skipBlanks (gap ++ cs) = cs := by
  rw [skipBlanks_eq, List.dropWhile_append_of_pos fun c member => decide_eq_true (blank c member)]
  cases cs with
  | nil => rfl
  | cons c cs => exact List.dropWhile_cons_of_neg fun h => stops c rfl (of_decide_eq_true h)

theorem skipBlanks_of_head {cs : List Char} (stops : ∀ c ∈ cs.head?, ¬ IsBlank c) :
    skipBlanks cs = cs := by
  have whole : skipBlanks ([] ++ cs) = cs := skipBlanks_append (List.forall_mem_nil IsBlank) stops
  exact whole

theorem skipBlanks_cons {c : Char} (solid : ¬ IsBlank c) (cs : List Char) :
    skipBlanks (c :: cs) = c :: cs :=
  List.dropWhile_cons_of_neg fun h => solid (of_decide_eq_true h)

/-! ### Strings -/

variable {st : Style}

variable (st) in
theorem escape_head (c : Char) : ∃ d ds, st.escaping.escape c = d :: ds ∧ d ≠ '"' := by
  cases written : st.escaping.escape c with
  | nil =>
    have reads := st.escaping.unescape_escape c []
    rw [written] at reads
    cases reads
  | cons d ds =>
    refine ⟨d, ds, rfl, ?_⟩
    rintro rfl
    have reads := st.escaping.unescape_escape c []
    rw [written] at reads
    simp [unescape] at reads

variable (st) in
theorem length_flatMap_escape (s : List Char) :
    s.length ≤ (s.flatMap st.escaping.escape).length := by
  induction s with
  | nil => exact Nat.zero_le _
  | cons c s ih =>
    obtain ⟨d, ds, written, -⟩ := escape_head st c
    rw [List.flatMap_cons, List.length_append, written, List.length_cons, List.length_cons]
    omega

theorem readString_escape {s : List Char} {fuel : ℕ} (enough : s.length < fuel) (rest : List Char) :
    readString fuel (s.flatMap st.escaping.escape ++ '"' :: rest) = some (s, rest) := by
  induction s generalizing fuel with
  | nil =>
    obtain ⟨fuel, rfl⟩ := Nat.exists_eq_succ_of_ne_zero (Nat.ne_zero_of_lt enough)
    rfl
  | cons c s ih =>
    obtain ⟨fuel, rfl⟩ := Nat.exists_eq_succ_of_ne_zero (Nat.ne_zero_of_lt enough)
    obtain ⟨d, ds, written, notQuote⟩ := escape_head st c
    have reads := st.escaping.unescape_escape c (s.flatMap st.escaping.escape ++ '"' :: rest)
    rw [List.flatMap_cons, List.append_assoc]
    rw [written, List.cons_append] at reads ⊢
    rw [readString]
    · rw [reads, Option.bind_some]
      dsimp only
      rw [ih (Nat.lt_of_succ_lt_succ enough), Option.map_some]
    · rintro rest' ⟨rfl, -⟩
      exact notQuote rfl

variable (st) in
theorem length_quote (s : String) : s.toList.length + 2 ≤ (quote st s).length := by
  have body := length_flatMap_escape st s.toList
  simp only [quote, List.length_cons, List.length_append, List.length_nil]
  omega

/-! ### Numbers -/

/-- The text of a number without its sign, cut into its parts. It has a fraction
or an exponent exactly if it is a float. -/
structure Token (whole frac exp : List Char) : Prop where
  whole : whole = ['0'] ∨ whole ≠ [] ∧ (∀ c ∈ whole, c.isDigit = true) ∧ whole.head? ≠ some '0'
  frac : frac = [] ∨ ∃ ds, ds ≠ [] ∧ (∀ c ∈ ds, c.isDigit = true) ∧ frac = '.' :: ds
  exp : exp = [] ∨ ∃ sign ∈ ['-', '+'], ∃ ds, ds ≠ [] ∧ (∀ c ∈ ds, c.isDigit = true) ∧
    exp = 'e' :: sign :: ds

/-- What may follow a number. -/
def Ends (cs : List Char) : Prop := ∀ c ∈ cs.head?, c.isDigit = false ∧ c ∉ ['.', 'e', 'E']

theorem ends_of_stops {cs : List Char} (stops : Stops cs) : Ends cs := by
  intro c head
  have mark := stops c head
  have table : ∀ c ∈ [',', ']', '}', '"', '[', '{'], c.isDigit = false ∧ c ∉ ['.', 'e', 'E'] :=
    forall_mem_of_all (by decide)
  exact table c mark

namespace Token

variable {whole frac exp rest : List Char}

theorem whole_ne_nil (token : Token whole frac exp) : whole ≠ [] := by
  rcases token.whole with rfl | ⟨nonempty, -, -⟩
  · exact List.cons_ne_nil _ _
  · exact nonempty

theorem wholeToken (token : Token whole frac exp) (ends : Ends rest) :
    wholeToken (whole ++ (frac ++ (exp ++ rest))) = whole := by
  have stops : ∀ c ∈ (frac ++ (exp ++ rest)).head?, c.isDigit = false := by
    rcases token.frac with rfl | ⟨ds, -, -, rfl⟩
    · rcases token.exp with rfl | ⟨sign, -, ds, -, -, rfl⟩
      · exact fun c head => (ends c head).1
      · simp
    · simp
  rcases token.whole with rfl | ⟨nonempty, only, lead⟩
  · rfl
  · obtain ⟨c, cs, rfl⟩ := List.exists_cons_of_ne_nil nonempty
    have notZero : c ≠ '0' := fun h => lead (by rw [h]; rfl)
    rw [JsonText.wholeToken]
    · exact Float64.takeWhile_digits only stops
    · rintro cs' same
      exact notZero (List.cons.inj same).1

theorem fracToken (token : Token whole frac exp) (ends : Ends rest) :
    fracToken (frac ++ (exp ++ rest)) = frac := by
  have stops : ∀ c ∈ (exp ++ rest).head?, c.isDigit = false ∧ c ≠ '.' := by
    rcases token.exp with rfl | ⟨sign, -, ds, -, -, rfl⟩
    · exact fun c head => ⟨(ends c head).1, fun h => (ends c head).2 (by simp [h])⟩
    · simp
  rcases token.frac with rfl | ⟨ds, nonempty, only, rfl⟩
  · rw [List.nil_append]
    unfold JsonText.fracToken
    split
    · next same => exact absurd rfl (stops '.' (by rw [same]; rfl)).2
    · rfl
  · rw [List.cons_append, JsonText.fracToken]
    simp only [Float64.takeWhile_digits only fun c head => (stops c head).1, if_neg nonempty]

theorem expToken (token : Token whole frac exp) (ends : Ends rest) :
    expToken (exp ++ rest) = exp := by
  rcases token.exp with rfl | ⟨sign, member, ds, nonempty, only, rfl⟩
  · rw [List.nil_append]
    cases rest with
    | nil => rfl
    | cons c rest =>
      have notExp : ¬ (c = 'e' ∨ c = 'E') := by
        rintro (rfl | rfl) <;> exact (ends _ rfl).2 (by simp)
      exact if_neg notExp
  · have digits : (ds ++ rest).takeWhile Char.isDigit = ds :=
      Float64.takeWhile_digits only fun c head => (ends c head).1
    simp only [List.mem_cons, List.not_mem_nil, or_false] at member
    rcases member with rfl | rfl <;>
      simp [JsonText.expToken, digits, nonempty]

/-- A number is read to the end of its token. -/
theorem readNumber (token : Token whole frac exp) (ends : Ends rest) (neg : Bool) :
    readNumber neg (whole ++ frac ++ exp ++ rest) =
      if frac = [] ∧ exp = [] then
        some (.int (if neg then -(Float64.digitsValue whole : ℤ) else Float64.digitsValue whole),
          rest)
      else (Float64.readUnsigned neg (whole ++ frac ++ exp)).map fun f => (.float f, rest) := by
  have first : JsonText.wholeToken (whole ++ frac ++ exp ++ rest) = whole := by
    rw [List.append_assoc, List.append_assoc, token.wholeToken ends]
  have second : JsonText.fracToken ((whole ++ frac ++ exp ++ rest).drop whole.length) = frac := by
    rw [List.append_assoc, List.append_assoc, List.drop_left, token.fracToken ends]
  have third : JsonText.expToken
      ((whole ++ frac ++ exp ++ rest).drop (whole.length + frac.length)) = exp := by
    rw [List.append_assoc, ← List.length_append, List.drop_left, token.expToken ends]
  have last : (whole ++ frac ++ exp ++ rest).drop (whole.length + frac.length + exp.length) =
      rest := by
    rw [← List.length_append, ← List.length_append, List.drop_left]
  unfold JsonText.readNumber
  simp only [first, second, third, last, if_neg token.whole_ne_nil]

end Token

/-! ### The texts of numbers are tokens -/

theorem digits_head {n : ℕ} (positive : 0 < n) : (Float64.digits n).head? ≠ some '0' := by
  induction n using Nat.strong_induction_on with
  | _ n ih =>
    by_cases small : n < 10
    · rw [Float64.digits, Nat.toDigits_of_lt_base small]
      have table : ∀ k < 10, 0 < k → ([Nat.digitChar k] : List Char).head? ≠ some '0' := by decide
      exact table n small positive
    · have front := ih (n / 10) (by omega) (by omega)
      rw [Float64.digits, Nat.toDigits_of_base_le (by decide) (by omega),
        List.head?_append_of_ne_nil]
      · exact front
      · exact Nat.toDigits_ne_nil

theorem digits_token (n : ℕ) : Token (Float64.digits n) [] [] where
  whole := by
    rcases Nat.eq_zero_or_pos n with rfl | positive
    · exact .inl rfl
    · exact .inr ⟨Float64.digits_ne_nil n, fun c => Float64.digits_isDigit, digits_head positive⟩
  frac := .inl rfl
  exp := .inl rfl

/-- Digits that do not start with zero are laid out as the token of a float. -/
theorem layout_token {ds : List Char} (nonempty : ds ≠ []) (only : ∀ c ∈ ds, c.isDigit = true)
    (lead : ds.head? ≠ some '0') (point : ℤ) :
    ∃ whole frac exp, Float64.layout ds point = whole ++ frac ++ exp ∧ Token whole frac exp ∧
      ¬ (frac = [] ∧ exp = []) := by
  have zeros (k : ℕ) : ∀ c ∈ List.replicate k '0', c.isDigit = true := by
    intro c member
    rw [List.eq_of_mem_replicate member]
    decide
  have front (k : ℕ) (positive : 0 < k) : ds.take k ≠ [] ∧ (∀ c ∈ ds.take k, c.isDigit = true) ∧
      (ds.take k).head? ≠ some '0' := by
    refine ⟨by simp [nonempty]; omega, fun c h => only c (List.mem_of_mem_take h), ?_⟩
    rwa [List.head?_take, if_neg (by omega)]
  have back (k : ℕ) : ∀ c ∈ ds.drop k, c.isDigit = true :=
    fun c h => only c (List.mem_of_mem_drop h)
  rw [Float64.layout]
  -- One case for each branch of `layout`: the digits after the point, before it, or both.
  by_cases plain : -4 < point ∧ point ≤ 16
  · rw [if_pos plain]
    split_ifs with small short
    · refine ⟨['0'], '.' :: (List.replicate (-point).toNat '0' ++ ds), [], by simp, ⟨.inl rfl,
        .inr ⟨_, List.append_ne_nil_of_right_ne_nil _ nonempty, fun c member => ?_, rfl⟩,
        .inl rfl⟩, by simp⟩
      exact (List.mem_append.mp member).elim (zeros _ c) (only c)
    · refine ⟨ds ++ List.replicate (point.toNat - ds.length) '0', ['.', '0'], [], by simp, ⟨.inr
        ⟨List.append_ne_nil_of_left_ne_nil nonempty _, fun c member => ?_, ?_⟩,
          .inr ⟨['0'], by simp, List.forall_mem_singleton.mpr (by decide), rfl⟩, .inl rfl⟩, by simp⟩
      · exact (List.mem_append.mp member).elim (only c) (zeros _ c)
      · rwa [List.head?_append_of_ne_nil _ nonempty]
    · have more : ds.drop point.toNat ≠ [] := List.ne_nil_of_length_pos (by
        rw [List.length_drop]
        omega)
      exact ⟨ds.take point.toNat, '.' :: ds.drop point.toNat, [], by simp,
        ⟨.inr (front _ (by omega)), .inr ⟨_, more, back _, rfl⟩, .inl rfl⟩, by simp⟩
  · rw [if_neg plain]
    refine ⟨ds.take 1, if ds.length ≤ 1 then [] else '.' :: ds.drop 1, _, rfl,
      ⟨.inr (front 1 (by decide)), ?_,
        .inr ⟨if point - 1 < 0 then '-' else '+', by split_ifs <;> simp, _, ?_, ?_, rfl⟩⟩, by simp⟩
    · split_ifs with single
      · exact .inl rfl
      · exact .inr ⟨_, List.ne_nil_of_length_pos (by rw [List.length_drop]; omega), back 1, rfl⟩
    · split_ifs
      · exact List.cons_ne_nil _ _
      · exact Float64.digits_ne_nil _
    · split_ifs
      · exact List.forall_mem_cons.mpr ⟨by decide, fun c => Float64.digits_isDigit⟩
      · exact fun c => Float64.digits_isDigit

/-- A candidate text lays out the digits of a positive number. -/
theorem significant_eq_layout {round : ℕ → ℕ → ℕ}
    (positive : ∀ num den, 0 < den → den ≤ num → 0 < round num den) {num den n : ℕ} (hnum : num ≠ 0)
    (hden : den ≠ 0) (hn : 0 < n) :
    ∃ d point, 0 < d ∧ Float64.significant round num den n =
      Float64.layout (Float64.digits d) point := by
  obtain ⟨low, -⟩ := Float64.floorLog10_spec hnum hden
  unfold Float64.significant
  dsimp only
  generalize Float64.floorLog10 num den = p at low
  have bottom : 0 < den * 10 ^ (p - n + 1).toNat :=
    Nat.mul_pos (Nat.pos_of_ne_zero hden) (Nat.pow_pos (by decide))
  have reaches : den * 10 ^ (p - n + 1).toNat ≤ num * 10 ^ (-(p - n + 1)).toNat := by
    have scaled := Float64.scaled_ratio num den 10 (p - n + 1)
    have bottom' : (0 : ℚ) < (den * 10 ^ (p - n + 1).toNat : ℕ) := Nat.cast_pos.mpr bottom
    rw [← Nat.cast_le (α := ℚ), ← one_le_div bottom', scaled, one_le_div (by positivity)]
    exact le_trans (zpow_le_zpow_right₀ (by norm_num) (by omega)) low
  split_ifs
  · exact ⟨10 ^ (n - 1), p + 2, Nat.pow_pos (by decide), rfl⟩
  · exact ⟨_, p + 1, positive _ _ bottom reaches, rfl⟩

/-- The text of a finite float is its sign and the token of a float. -/
theorem repr_token (b : Binary64) :
    ∃ whole frac exp, Float64.repr (.finite b) = Float64.signed b.neg (whole ++ frac ++ exp) ∧
      Token whole frac exp ∧ ¬ (frac = [] ∧ exp = []) := by
  -- The fallback is never written, as what is written reads back as a decimal.
  cases found : Float64.shortest b with
  | none =>
    have reads := Float64.read_repr b
    have coded : Float64.repr (.finite b) = Float64.code b := by simp [Float64.repr, found]
    have bad := Float64.read_chars reads 'x' (by simp [coded, Float64.code])
    exact absurd bad (by unfold Float64.IsDecimalChar; decide)
  | some cs =>
    have text : Float64.repr (.finite b) = cs := by simp [Float64.repr, found]
    have candidate := List.mem_of_find?_eq_some found
    rw [text]
    rw [Float64.candidates] at candidate
    split_ifs at candidate with zero
    · obtain rfl := List.mem_singleton.mp candidate
      exact ⟨['0'], ['.', '0'], [], rfl, ⟨.inl rfl,
        .inr ⟨['0'], by simp, List.forall_mem_singleton.mpr (by decide), rfl⟩, .inl rfl⟩, by simp⟩
    · obtain ⟨n, range, member⟩ := List.mem_flatMap.mp candidate
      obtain ⟨round, which, rfl⟩ := List.mem_map.mp member
      have hn : 0 < n := (List.mem_range'_1.mp range).1
      -- No candidate is written as zero, so its first digit is not `0`.
      have positive : ∀ num den, 0 < den → den ≤ num → 0 < round num den := by
        intro num den hden reaches
        have quotient := Nat.div_pos reaches hden
        simp only [List.mem_cons, List.not_mem_nil, or_false] at which
        rcases which with rfl | rfl
        · unfold Float64.roundHalfEven
          dsimp only
          split_ifs <;> omega
        · exact Nat.succ_pos _
      obtain ⟨d, point, hd, laid⟩ := significant_eq_layout positive
        (Nat.mul_ne_zero zero (pow_ne_zero b.exp.toNat two_ne_zero))
        (pow_ne_zero (-b.exp).toNat two_ne_zero) hn
      obtain ⟨whole, frac, exp, cut, token, float⟩ := layout_token (Float64.digits_ne_nil d)
        (fun c => Float64.digits_isDigit) (digits_head hd) point
      exact ⟨whole, frac, exp, by rw [laid, cut], token, float⟩

/-! ### Scalars -/

theorem signed_append (neg : Bool) (cs rest : List Char) :
    Float64.signed neg cs ++ rest = Float64.signed neg (cs ++ rest) := by
  cases neg <;> rfl

/-- Text that starts with a digit, or with a sign before it, is a number. -/
theorem readScalar_signed {c : Char} (digit : c.isDigit = true) (neg : Bool) (cs : List Char) :
    readScalar (Float64.signed neg (c :: cs)) = readNumber neg (c :: cs) := by
  -- No other form of a scalar begins with a digit.
  have letter {d : Char} (h : d.isDigit = false) : c ≠ d := by
    rintro rfl
    rw [h] at digit
    cases digit
  cases neg with
  | true =>
    change readScalar ('-' :: c :: cs) = readNumber true (c :: cs)
    unfold readScalar
    split
    case h_6 same =>
      exact absurd (List.cons.inj (List.cons.inj same).2).1 (letter (by decide))
    case h_7 same =>
      rw [(List.cons.inj same).2]
    case h_8 other =>
      exact absurd rfl (other _)
    all_goals
      rename_i same
      exact absurd (List.cons.inj same).1 (by decide)
  | false =>
    change readScalar (c :: cs) = readNumber false (c :: cs)
    unfold readScalar
    split
    case h_8 => rfl
    all_goals
      rename_i same
      exact absurd (List.cons.inj same).1 (letter (by decide))

theorem readUnsigned_of_read {c : Char} (digit : c.isDigit = true) {neg : Bool} {cs : List Char}
    {f : Float64} (reads : Float64.read (Float64.signed neg (c :: cs)) = some f) :
    Float64.readUnsigned neg (c :: cs) = some f := by
  cases neg with
  | true => exact reads
  | false =>
    change Float64.read (c :: cs) = some f at reads
    unfold Float64.read at reads
    split at reads
    · next same =>
      rw [(List.cons.inj same).1] at digit
      cases digit
    · exact reads

theorem Token.exists_cons {whole frac exp : List Char} (token : Token whole frac exp) :
    ∃ c cs, whole = c :: cs ∧ c.isDigit = true := by
  rcases token.whole with rfl | ⟨nonempty, only, -⟩
  · exact ⟨'0', [], rfl, by decide⟩
  · obtain ⟨c, cs, rfl⟩ := List.exists_cons_of_ne_nil nonempty
    exact ⟨c, cs, rfl, only c List.mem_cons_self⟩

theorem readScalar_float (f : Float64) {rest : List Char} (stops : Stops rest) :
    readScalar (Float64.repr f ++ rest) = some (.float f, rest) := by
  cases f with
  | nan => rfl
  | infinite neg => cases neg <;> rfl
  | finite b =>
    obtain ⟨whole, frac, exp, text, token, float⟩ := repr_token b
    have reads := Float64.read_repr b
    obtain ⟨c, cs, rfl, digit⟩ := token.exists_cons
    have number := token.readNumber (ends_of_stops stops) b.neg
    rw [if_neg float] at number
    rw [text] at reads ⊢
    rw [signed_append]
    simp only [List.cons_append] at reads number ⊢
    have unsigned := readUnsigned_of_read digit reads
    rw [readScalar_signed digit, number, unsigned, Option.map_some]

theorem readScalar_int (n : ℤ) {rest : List Char} (stops : Stops rest) :
    readScalar (intText n ++ rest) = some (.int n, rest) := by
  have token := digits_token n.natAbs
  have number := token.readNumber (ends_of_stops stops) (decide (n < 0))
  obtain ⟨c, cs, text, digit⟩ := token.exists_cons
  rw [intText, signed_append, text, List.cons_append, readScalar_signed digit, ← List.cons_append,
    ← text]
  simp only [List.append_nil, and_self, if_true, Float64.digitsValue_digits, decide_eq_true_eq]
    at number
  rw [number]
  congr 3
  split_ifs <;> omega

/-- A scalar is read to the end of its token. -/
theorem readScalar_render {v : Json} (scalar : IsScalar v) {rest : List Char} (stops : Stops rest) :
    readScalar (render st v ++ rest) = some (v, rest) := by
  cases v with
  | null => rfl
  | bool b => cases b <;> rfl
  | int n => exact readScalar_int n stops
  | float f => exact readScalar_float f stops
  | _ => exact scalar.elim

/-! ### Values -/

/-- Reading gives the value back, with enough fuel, and leaves what follows. -/
def Reads (st : Style) (v : Json) : Prop :=
  ∀ fuel rest, (render st v).length ≤ fuel → Stops rest →
    readValue fuel (render st v ++ rest) = some (v, rest)

theorem reads_scalar {v : Json} (scalar : IsScalar v) : Reads st v := by
  intro fuel rest enough stops
  have nonempty : render st v ≠ [] := render_ne_nil scalar
  obtain ⟨c, cs, text⟩ := List.exists_cons_of_ne_nil nonempty
  have unmarked : ¬ IsMark c := render_not_isMark scalar c (text ▸ List.mem_cons_self)
  have reads : readScalar (render st v ++ rest) = some (v, rest) := readScalar_render scalar stops
  rw [text, List.length_cons] at enough
  obtain ⟨fuel, rfl⟩ := Nat.exists_eq_add_of_lt enough
  rw [text, List.cons_append] at reads ⊢
  have other {d : Char} (mark : IsMark d) : ∀ tail, c :: (cs ++ rest) = d :: tail → False := by
    intro tail same
    rw [(List.cons.inj same).1] at unmarked
    exact unmarked mark
  rw [readValue]
  · exact reads
  · exact other (by decide)
  · exact other (by decide)
  · exact other (by decide)

theorem reads_str (s : String) : Reads st (.str s) := by
  intro fuel rest enough stops
  rw [render] at enough ⊢
  have long := length_quote st s
  obtain ⟨fuel, rfl⟩ := Nat.exists_eq_succ_of_ne_zero (show fuel ≠ 0 by omega)
  rw [quote, List.cons_append, List.append_assoc, List.singleton_append, readValue,
    readString_escape (by omega), Option.map_some]
  dsimp only
  rw [String.ofList_toList]

theorem signed_head {c : Char} (digit : c.isDigit = true) (neg : Bool) (cs : List Char) :
    ∀ d ∈ (Float64.signed neg (c :: cs)).head?, ¬ IsBlank d := by
  rintro d head blank
  cases neg with
  | true =>
    obtain rfl := Option.some.inj head
    exact absurd blank (by decide)
  | false =>
    obtain rfl := Option.some.inj head
    rcases blank with rfl | rfl | rfl | rfl <;> exact absurd digit (by decide)

variable (st) in
/-- The text of a value starts with no blank. -/
theorem render_head (v : Json) (rest : List Char) :
    ∀ c ∈ (render st v ++ rest).head?, ¬ IsBlank c := by
  have first {d : Char} {ds : List Char} (solid : ¬ IsBlank d) :
      ∀ c ∈ (d :: ds).head?, ¬ IsBlank c := by
    intro c head
    obtain rfl := Option.some.inj head
    exact solid
  cases v with
  | null => exact first (by decide)
  | bool b => cases b <;> exact first (by decide)
  | int n =>
    obtain ⟨c, cs, text, digit⟩ := (digits_token n.natAbs).exists_cons
    rw [render, intText, signed_append, text]
    exact signed_head digit _ _
  | float f =>
    cases f with
    | nan => exact first (by decide)
    | infinite neg => cases neg <;> exact first (by decide)
    | finite b =>
      obtain ⟨whole, frac, exp, text, token, -⟩ := repr_token b
      obtain ⟨c, cs, rfl, digit⟩ := token.exists_cons
      rw [render, text, signed_append]
      exact signed_head digit _ _
  | str s => exact first (by decide)
  | arr l => cases l <;> exact first (by decide)
  | obj l => cases l <;> exact first (by decide)

variable (st) in
theorem length_render_pos (v : Json) : 0 < (render st v).length := by
  rcases shape_or_scalar v with scalar | ⟨c, shape⟩
  · exact List.length_pos_of_ne_nil (render_ne_nil scalar)
  · obtain ⟨rest, starts⟩ : ∃ rest, render st v = c :: rest := shape.open
    rw [starts]
    exact Nat.succ_pos _

section Containers

variable (blank : st.Blank)
include blank

/-- The items of an array are read, if its values are. -/
theorem readItems_render {v : Json} (reads : Reads st v) {l : List Json}
    (all : ∀ w ∈ l, Reads st w) {fuel : ℕ} {rest : List Char}
    (enough : (render st v).length + (renderItems st l).length ≤ fuel) :
    readItems fuel (render st v ++ (renderItems st l ++ rest)) = some (v :: l, rest) := by
  have long := length_render_pos st v
  obtain ⟨fuel, rfl⟩ := Nat.exists_eq_succ_of_ne_zero (show fuel ≠ 0 by omega)
  -- The induction is on the further items, with the fuel that their text takes.
  induction l generalizing v fuel with
  | nil =>
    rw [readItems, reads fuel _ _ (stops_renderItems [] rest), Option.bind_some]
    · dsimp only
      rw [renderItems, List.singleton_append, skipBlanks_cons (by decide)]
      rfl
    · rw [renderItems, List.length_singleton] at enough
      omega
  | cons w l ih =>
    have long' := length_render_pos st w
    rw [renderItems, List.length_cons, List.length_append, List.length_append] at enough
    obtain ⟨fuel, rfl⟩ := Nat.exists_eq_succ_of_ne_zero (show fuel ≠ 0 by omega)
    have later := ih (all w List.mem_cons_self)
      (fun x member => all x (List.mem_cons_of_mem _ member)) long' fuel (by omega)
    rw [readItems, reads _ _ (by omega) (stops_renderItems (w :: l) rest), Option.bind_some]
    dsimp only
    rw [renderItems, List.cons_append, skipBlanks_cons (by decide), List.append_assoc,
      List.append_assoc]
    change (readItems _ (skipBlanks _)).map _ = _
    rw [skipBlanks_append blank.1 (render_head st w _), later, Option.map_some]

/-- The first member of an object is read, if its value is. -/
theorem readMembers_first {k : String} {v : Json} (reads : Reads st v) (l : List (String × Json))
    {fuel : ℕ} {rest : List Char} (enough : (quote st k).length + (render st v).length ≤ fuel + 1) :
    readMembers (fuel + 1)
        (quote st k ++ ':' :: (st.keyGap ++ (render st v ++ (renderMembers st l ++ rest)))) =
      match skipBlanks (renderMembers st l ++ rest) with
      | '}' :: rest => some ([(k, v)], rest)
      | ',' :: rest => (readMembers fuel (skipBlanks rest)).map fun p => ((k, v) :: p.1, p.2)
      | _ => none := by
  have long := length_quote st k
  rw [quote, List.cons_append, List.append_assoc, List.singleton_append, readMembers,
    readString_escape (by omega), Option.bind_some]
  dsimp only
  rw [skipBlanks_cons (by decide)]
  change (readValue _ (skipBlanks _)).bind _ = _
  rw [skipBlanks_append blank.2 (render_head st v _),
    reads _ _ (by omega) (stops_renderMembers l rest), Option.bind_some]
  dsimp only
  generalize text : String.ofList k.toList = key
  obtain rfl : key = k := text.symm.trans String.ofList_toList
  rfl

/-- The members of an object are read, if its values are. -/
theorem readMembers_render {k : String} {v : Json} (reads : Reads st v) {l : List (String × Json)}
    (all : ∀ p ∈ l, Reads st p.2) {fuel : ℕ} {rest : List Char}
    (enough : (quote st k).length + (render st v).length + (renderMembers st l).length ≤ fuel) :
    readMembers fuel (quote st k ++
      ':' :: (st.keyGap ++ (render st v ++ (renderMembers st l ++ rest)))) =
      some ((k, v) :: l, rest) := by
  have long := length_quote st k
  obtain ⟨fuel, rfl⟩ := Nat.exists_eq_succ_of_ne_zero (show fuel ≠ 0 by omega)
  rw [readMembers_first blank reads l (by omega)]
  -- The induction is on the further members, with the fuel that their text takes.
  induction l generalizing k v fuel with
  | nil =>
    rw [renderMembers, List.singleton_append, skipBlanks_cons (by decide)]
    rfl
  | cons p l ih =>
    obtain ⟨j, w⟩ := p
    have long' := length_quote st j
    have reads' : Reads st w := all (j, w) List.mem_cons_self
    rw [renderMembers, List.length_cons, List.length_append, List.length_append, List.length_cons,
      List.length_append, List.length_append] at enough
    obtain ⟨fuel, rfl⟩ := Nat.exists_eq_succ_of_ne_zero (show fuel ≠ 0 by omega)
    have later := ih reads' (fun p member => all p (List.mem_cons_of_mem _ member)) long' fuel (by
      omega)
    rw [← readMembers_first blank reads' l (by omega)] at later
    have quoted : ∀ c ∈ (quote st j ++ ':' :: (st.keyGap ++ (render st w ++
        (renderMembers st l ++ rest)))).head?, ¬ IsBlank c := by
      rw [quote, List.cons_append]
      intro c head
      obtain rfl := Option.some.inj head
      decide
    rw [renderMembers]
    simp only [List.cons_append, List.append_assoc]
    rw [skipBlanks_cons (by decide)]
    change (readMembers _ (skipBlanks _)).map _ = _
    rw [skipBlanks_append blank.1 quoted, later, Option.map_some]

theorem reads_arr {l : List Json} (all : ∀ v ∈ l, Reads st v) : Reads st (.arr l) := by
  intro fuel rest enough stops
  have long := length_render_pos st (.arr l)
  obtain ⟨fuel, rfl⟩ := Nat.exists_eq_succ_of_ne_zero (show fuel ≠ 0 by omega)
  cases l with
  | nil =>
    rw [render, List.cons_append, List.singleton_append, readValue, skipBlanks_cons (by decide)]
    rfl
  | cons v l =>
    rw [render, List.length_cons, List.length_append] at enough
    have items (rest : List Char) :
        readItems fuel (render st v ++ (renderItems st l ++ rest)) = some (v :: l, rest) :=
      readItems_render blank (all v List.mem_cons_self)
        (fun w member => all w (List.mem_cons_of_mem _ member)) (by omega)
    rw [render, List.cons_append, List.append_assoc, readValue,
      skipBlanks_of_head (render_head st v _)]
    split
    · next same => exact absurd same render_ne_close
    · rw [items rest, Option.map_some]

theorem reads_obj {l : List (String × Json)} (nodup : (l.map Prod.fst).Nodup)
    (all : ∀ p ∈ l, Reads st p.2) : Reads st (.obj l) := by
  intro fuel rest enough stops
  have long := length_render_pos st (.obj l)
  obtain ⟨fuel, rfl⟩ := Nat.exists_eq_succ_of_ne_zero (show fuel ≠ 0 by omega)
  cases l with
  | nil =>
    rw [render, List.cons_append, List.singleton_append, readValue, skipBlanks_cons (by decide)]
    rfl
  | cons p l =>
    obtain ⟨k, v⟩ := p
    rw [render, List.length_cons, List.length_append, List.length_cons, List.length_append,
      List.length_append] at enough
    have members (rest : List Char) :
        readMembers fuel
          (quote st k ++ ':' :: (st.keyGap ++ (render st v ++ (renderMembers st l ++ rest)))) =
            some ((k, v) :: l, rest) := by
      have first : Reads st v := all (k, v) List.mem_cons_self
      exact readMembers_render blank first (fun p member => all p (List.mem_cons_of_mem _ member))
        (by omega)
    -- Distinct names are kept as they were written.
    have built : Dict.ofItems ((k, v) :: l) = ⟨(k, v) :: l, nodup⟩ := Dict.ofItems_items ⟨_, nodup⟩
    have read := members rest
    rw [quote] at read
    rw [render, quote]
    simp only [List.cons_append, List.append_assoc, List.nil_append] at read ⊢
    rw [readValue, skipBlanks_cons (by decide)]
    change (readMembers fuel _).map _ = _
    rw [read, Option.map_some]
    dsimp only
    rw [built]

end Containers

mutual

/-- Every value without repeated keys reads back. -/
theorem reads (blank : st.Blank) : ∀ v : Json, v.Distinct → Reads st v
  | .arr l, h => reads_arr blank (reads_items blank l h)
  | .obj l, h => reads_obj blank h.1 (reads_members blank l h.2)
  | .str s, _ => reads_str s
  | .null, _ | .bool _, _ | .int _, _ | .float _, _ => reads_scalar trivial

theorem reads_items (blank : st.Blank) : ∀ l : List Json, Json.DistinctItems l → ∀ v ∈ l, Reads st v
  | [], _ => List.forall_mem_nil _
  | w :: l, h => List.forall_mem_cons.mpr ⟨reads blank w h.1, reads_items blank l h.2⟩

theorem reads_members (blank : st.Blank) :
    ∀ l : List (String × Json), Json.DistinctMembers l → ∀ p ∈ l, Reads st p.2
  | [], _ => List.forall_mem_nil _
  | (_, w) :: l, h => List.forall_mem_cons.mpr ⟨reads blank w h.1, reads_members blank l h.2⟩

end

/-- Reading a value's text gives the value. -/
theorem loads_render (blank : st.Blank) {v : Json} (distinct : v.Distinct) :
    loads (String.ofList (render st v)) = some v := by
  have whole := reads blank v distinct ((render st v).length + 1) [] (Nat.le_succ _) stops_nil
  rw [List.append_nil] at whole
  have head := render_head st v []
  rw [List.append_nil] at head
  rw [loads_ofList, loadsChars, skipBlanks_of_head head, whole, Option.bind_some]
  rfl

/-- Reading sorted text gives the value back, up to the order of object members. -/
theorem loads_dumpsSorted (blank : st.Blank) {v : Json} (distinct : v.Distinct) :
    loads (dumpsSorted st v) = some v.sortKeys :=
  loads_render blank (Json.distinct_sortKeys v distinct)

theorem blank_defaultStyle : defaultStyle.Blank := by
  constructor
  · exact List.forall_mem_singleton.mpr (.inl rfl)
  · exact List.forall_mem_singleton.mpr (.inl rfl)

end JsonText

end Foundation
