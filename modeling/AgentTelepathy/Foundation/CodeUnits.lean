import AgentTelepathy.Foundation.Ecma

/-!
# Encoding forms and the order of strings

An encoding form writes every character as code units, none as a prefix of another.
Strings are then compared by their units. In UTF-8 this is the order of their
characters, and in UTF-16 it is not: the units of a surrogate pair are below those
of the characters from U+E000 to U+FFFF.
-/

namespace Foundation

/-- An encoding form. -/
structure CodeUnits where
  units : Char → List ℕ
  units_cancel : ∀ {c d a b}, units c ++ a = units d ++ b → c = d ∧ a = b

namespace CodeUnits

variable (form : CodeUnits)

/-- The units of a string. -/
def code (s : String) : List ℕ := s.toList.flatMap form.units

variable {form}

/-- An empty encoding would be a prefix of every other. -/
theorem units_ne_nil (c : Char) : form.units c ≠ [] := by
  intro empty
  have same (d : Char) : c = d := by
    refine (form.units_cancel (a := form.units d) (b := []) ?_).1
    rw [empty, List.nil_append, List.append_nil]
  exact absurd ((same 'a').symm.trans (same 'b')) (by decide)

theorem code_injective : Function.Injective form.code := by
  have chars : ∀ l m : List Char, l.flatMap form.units = m.flatMap form.units → l = m := by
    intro l
    induction l with
    | nil =>
      rintro (_ | ⟨d, m⟩) h
      · rfl
      · exact absurd (List.append_eq_nil_iff.mp h.symm).1 (units_ne_nil d)
    | cons c l ih =>
      rintro (_ | ⟨d, m⟩) h
      · exact absurd (List.append_eq_nil_iff.mp h).1 (units_ne_nil c)
      · obtain ⟨rfl, rest⟩ := form.units_cancel h
        rw [ih m rest]
  intro s t h
  exact String.toList_injective (chars _ _ h)

/-- The units keep the order of characters, whatever follows them. -/
def Ordered (form : CodeUnits) : Prop :=
  ∀ ⦃c d : Char⦄, c < d → ∀ a b, form.units c ++ a < form.units d ++ b

theorem Ordered.code_lt {s t : String} (ordered : form.Ordered) (below : s < t) :
    form.code s < form.code t := by
  have chars : ∀ l m : List Char, l < m → l.flatMap form.units < m.flatMap form.units := by
    intro l
    induction l with
    | nil =>
      rintro (_ | ⟨d, m⟩) h
      · exact absurd h (lt_irrefl _)
      · have some : (d :: m).flatMap form.units ≠ [] := fun empty =>
          units_ne_nil d (List.append_eq_nil_iff.mp empty).1
        obtain ⟨n, rest, starts⟩ := List.exists_cons_of_ne_nil some
        rw [starts]
        exact List.nil_lt_cons n rest
    | cons c l ih =>
      rintro (_ | ⟨d, m⟩) h
      · exact absurd h (List.not_lt_nil _)
      · rcases List.cons_lt_cons_iff.mp h with first | ⟨rfl, rest⟩
        · exact ordered first _ _
        · exact List.append_left_lt (ih m rest)
  exact chars _ _ (String.lt_iff_toList_lt.mp below)

/-- Strings are in the order of their characters. -/
theorem Ordered.code_le_iff (ordered : form.Ordered) {s t : String} :
    form.code s ≤ form.code t ↔ s ≤ t :=
  StrictMono.le_iff_le (f := form.code) fun _ _ => ordered.code_lt

/-! ### Three forms -/

/-- The characters themselves. -/
def codePoints : CodeUnits where
  units c := [c.toNat]
  units_cancel h := by
    rw [List.singleton_append, List.singleton_append, List.cons.injEq] at h
    exact ⟨Char.toNat_inj.mp h.1, h.2⟩

theorem ordered_codePoints : codePoints.Ordered := fun _ _ below _ _ =>
  List.cons_lt_cons_iff.mpr (.inl below)

/-- The bytes of a character in UTF-8. -/
def utf8Units (c : Char) : List ℕ := (String.utf8EncodeChar c).map UInt8.toNat

/-- One to four bytes, each of the further ones with six bits. -/
theorem utf8Units_eq (c : Char) : utf8Units c =
    if c.toNat ≤ 0x7F then [c.toNat]
    else if c.toNat ≤ 0x7FF then [0xC0 + c.toNat / 64, 0x80 + c.toNat % 64]
    else if c.toNat ≤ 0xFFFF then
      [0xE0 + c.toNat / 4096, 0x80 + c.toNat / 64 % 64, 0x80 + c.toNat % 64]
    else
      [0xF0 + c.toNat / 262144, 0x80 + c.toNat / 4096 % 64, 0x80 + c.toNat / 64 % 64,
        0x80 + c.toNat % 64] := by
  have scalar := JsonText.toNat_scalar c
  have number : c.val.toNat = c.toNat := rfl
  unfold utf8Units String.utf8EncodeChar
  rw [number]
  dsimp only
  split_ifs <;>
    simp only [List.map_cons, List.map_nil, UInt8.toNat_ofNat', List.cons.injEq, and_true] <;>
    omega

/-- UTF-8. -/
def utf8 : CodeUnits where
  units := utf8Units
  units_cancel {c d a b} h := by
    have equal (same : c.toNat = d.toNat) : c = d := Char.toNat_inj.mp same
    have first := JsonText.toNat_scalar c
    have second := JsonText.toNat_scalar d
    rw [utf8Units_eq, utf8Units_eq] at h
    -- The first byte tells how many follow, so encodings of two lengths differ in it.
    split_ifs at h <;>
      simp only [List.cons_append, List.nil_append, List.cons.injEq] at h <;>
      first
        | omega
        | exact ⟨equal (by omega), by tauto⟩

theorem ordered_utf8 : utf8.Ordered := by
  intro c d below a b
  have less : c.toNat < d.toNat := below
  change utf8Units c ++ a < utf8Units d ++ b
  rw [utf8Units_eq, utf8Units_eq]
  split_ifs <;> simp only [List.cons_append, List.nil_append, List.cons_lt_cons_iff] <;> omega

/-- UTF-16. -/
def utf16 : CodeUnits where
  units := Ecma.charUnits
  units_cancel := Ecma.charUnits_cancel

/-- A surrogate pair is below a character of the first plane. -/
example : utf16.code "😀" < utf16.code "\uffff" ∧ "\uffff" < "😀" := by decide

end CodeUnits

end Foundation
