import AgentTelepathy.Foundation.CodeUnits

/-!
# JSON values over a type of numbers, and their canonical texts

Encoders differ in what a number is and how it is written, in what they escape, and
in the order of keys. A dialect fixes these three; the brackets, commas and colons
of its text are the same in all. Texts are uniquely readable across dialects: two
texts are equal only if their values have the same shape, the same strings written
alike, and numbers of the same text.
-/

namespace Foundation

/-- A JSON value with numbers and strings of the given types. -/
inductive JsonTree (ν : Type*) (σ : Type := String) where
  | null
  | bool (b : Bool)
  | num (x : ν)
  | str (s : σ)
  | arr (items : List (JsonTree ν σ))
  | obj (members : List (σ × JsonTree ν σ))

namespace JsonTree

variable {ν μ κ : Type*} {σ : Type}

mutual

/-- Change every number. -/
def map (f : ν → μ) : JsonTree ν σ → JsonTree μ σ
  | .null => .null
  | .bool b => .bool b
  | .num x => .num (f x)
  | .str s => .str s
  | .arr l => .arr (mapItems f l)
  | .obj l => .obj (mapMembers f l)

/-- Change the numbers inside every item. -/
def mapItems (f : ν → μ) : List (JsonTree ν σ) → List (JsonTree μ σ)
  | [] => []
  | v :: l => map f v :: mapItems f l

/-- Change the numbers inside every member's value. -/
def mapMembers (f : ν → μ) : List (σ × JsonTree ν σ) → List (σ × JsonTree μ σ)
  | [] => []
  | (k, v) :: l => (k, map f v) :: mapMembers f l

end

theorem mapItems_eq_map (f : ν → μ) (l : List (JsonTree ν σ)) : mapItems f l = l.map (map f) := by
  induction l with
  | nil => rfl
  | cons v l ih => rw [mapItems, ih, List.map_cons]

theorem mapMembers_eq_map (f : ν → μ) (l : List (σ × JsonTree ν σ)) :
    mapMembers f l = l.map fun p => (p.1, map f p.2) := by
  induction l with
  | nil => rfl
  | cons p l ih => rw [mapMembers, ih, List.map_cons]

mutual

theorem map_map (f : ν → μ) (g : μ → κ) : ∀ v : JsonTree ν σ, map g (map f v) = map (g ∘ f) v
  | .null | .bool _ | .num _ | .str _ => rfl
  | .arr l => congrArg JsonTree.arr (mapItems_mapItems f g l)
  | .obj l => congrArg JsonTree.obj (mapMembers_mapMembers f g l)

theorem mapItems_mapItems (f : ν → μ) (g : μ → κ) :
    ∀ l : List (JsonTree ν σ), mapItems g (mapItems f l) = mapItems (g ∘ f) l
  | [] => rfl
  | v :: l => by rw [mapItems, mapItems, mapItems, map_map f g v, mapItems_mapItems f g l]

theorem mapMembers_mapMembers (f : ν → μ) (g : μ → κ) :
    ∀ l : List (σ × JsonTree ν σ), mapMembers g (mapMembers f l) = mapMembers (g ∘ f) l
  | [] => rfl
  | (k, v) :: l => by
    rw [mapMembers, mapMembers, mapMembers, map_map f g v, mapMembers_mapMembers f g l]

end

mutual

theorem map_inj {f : ν → μ} (inj : Function.Injective f) :
    ∀ v w : JsonTree ν σ, map f v = map f w → v = w
  | .null, w, h | .bool _, w, h | .str _, w, h => by
    cases w <;> simp_all [map]
  | .num x, w, h => by
    cases w with
    | num y => rw [inj (JsonTree.num.inj h)]
    | _ => cases h
  | .arr l, w, h => by
    cases w with
    | arr m => rw [mapItems_inj inj l m (JsonTree.arr.inj h)]
    | _ => cases h
  | .obj l, w, h => by
    cases w with
    | obj m => rw [mapMembers_inj inj l m (JsonTree.obj.inj h)]
    | _ => cases h

theorem mapItems_inj {f : ν → μ} (inj : Function.Injective f) :
    ∀ l m : List (JsonTree ν σ), mapItems f l = mapItems f m → l = m
  | [], m, h => by
    cases m with
    | nil => rfl
    | cons w m => cases h
  | v :: l, m, h => by
    cases m with
    | nil => cases h
    | cons w m =>
      obtain ⟨first, others⟩ := List.cons.inj h
      rw [map_inj inj v w first, mapItems_inj inj l m others]

theorem mapMembers_inj {f : ν → μ} (inj : Function.Injective f) :
    ∀ l m : List (σ × JsonTree ν σ), mapMembers f l = mapMembers f m → l = m
  | [], m, h => by
    cases m with
    | nil => rfl
    | cons p m => cases h
  | (k, v) :: l, m, h => by
    cases m with
    | nil => cases h
    | cons p m =>
      obtain ⟨first, others⟩ := List.cons.inj h
      obtain ⟨rfl, value⟩ := Prod.mk.inj first
      rw [map_inj inj v _ value, mapMembers_inj inj l m others]

end

/-! ### What holds everywhere in a value -/

/-- What to ask of the numbers, of the strings, keys among them, and of the keys of one object. -/
structure Test (ν : Type*) (σ : Type := String) where
  number : ν → Prop := fun _ => True
  string : σ → Prop := fun _ => True
  keys : List σ → Prop := fun _ => True

mutual

/-- Every part of the value passes the test. -/
def Passes (t : Test ν σ) : JsonTree ν σ → Prop
  | .null | .bool _ => True
  | .num x => t.number x
  | .str s => t.string s
  | .arr l => ItemsPass t l
  | .obj l => t.keys (l.map Prod.fst) ∧ MembersPass t l

/-- Every item passes the test. -/
def ItemsPass (t : Test ν σ) : List (JsonTree ν σ) → Prop
  | [] => True
  | v :: l => Passes t v ∧ ItemsPass t l

/-- Every member passes the test. -/
def MembersPass (t : Test ν σ) : List (σ × JsonTree ν σ) → Prop
  | [] => True
  | (k, v) :: l => t.string k ∧ Passes t v ∧ MembersPass t l

end

/-- No object has two members with one key. -/
abbrev Distinct (v : JsonTree ν σ) : Prop := v.Passes { keys := List.Nodup }

theorem membersPass_iff {t : Test ν σ} {l : List (σ × JsonTree ν σ)} :
    MembersPass t l ↔ ∀ p ∈ l, t.string p.1 ∧ Passes t p.2 := by
  induction l with
  | nil => simp [MembersPass]
  | cons p l ih => simp [MembersPass, ih, and_assoc]

/-- One test asks at least what another does. -/
structure Test.Implies (t u : Test ν σ) : Prop where
  number : ∀ x, t.number x → u.number x
  string : ∀ s, t.string s → u.string s
  keys : ∀ ks, t.keys ks → u.keys ks

mutual

theorem passes_imp {t u : Test ν σ} (implies : t.Implies u) :
    ∀ v : JsonTree ν σ, v.Passes t → v.Passes u
  | .null, _ | .bool _, _ => trivial
  | .num x, h => implies.number x h
  | .str s, h => implies.string s h
  | .arr l, h => itemsPass_imp implies l h
  | .obj l, h => ⟨implies.keys _ h.1, membersPass_imp implies l h.2⟩

theorem itemsPass_imp {t u : Test ν σ} (implies : t.Implies u) :
    ∀ l : List (JsonTree ν σ), ItemsPass t l → ItemsPass u l
  | [], _ => trivial
  | v :: l, h => ⟨passes_imp implies v h.1, itemsPass_imp implies l h.2⟩

theorem membersPass_imp {t u : Test ν σ} (implies : t.Implies u) :
    ∀ l : List (σ × JsonTree ν σ), MembersPass t l → MembersPass u l
  | [], _ => trivial
  | (k, v) :: l, h =>
    ⟨implies.string k h.1, passes_imp implies v h.2.1, membersPass_imp implies l h.2.2⟩

end

theorem Passes.imp {t u : Test ν σ} {v : JsonTree ν σ} (passes : v.Passes t)
    (implies : t.Implies u) :
    v.Passes u := passes_imp implies v passes

mutual

private theorem passes_trivial : ∀ v : JsonTree ν σ, v.Passes {}
  | .null | .bool _ | .num _ | .str _ => trivial
  | .arr l => itemsPass_trivial l
  | .obj l => ⟨trivial, membersPass_trivial l⟩

private theorem itemsPass_trivial : ∀ l : List (JsonTree ν σ), ItemsPass {} l
  | [] => trivial
  | v :: l => ⟨passes_trivial v, itemsPass_trivial l⟩

private theorem membersPass_trivial : ∀ l : List (σ × JsonTree ν σ), MembersPass {} l
  | [] => trivial
  | (_, v) :: l => ⟨trivial, passes_trivial v, membersPass_trivial l⟩

end

/-- A test that is always passed. -/
structure Test.Always (t : Test ν σ) : Prop where
  number : ∀ x, t.number x
  string : ∀ s, t.string s
  keys : ∀ ks, t.keys ks

theorem passes_of_forall {t : Test ν σ} (always : t.Always) (v : JsonTree ν σ) : v.Passes t :=
  (passes_trivial v).imp
    ⟨fun x _ => always.number x, fun s _ => always.string s, fun ks _ => always.keys ks⟩

/-- Both tests at once. -/
def Test.and (t u : Test ν σ) : Test ν σ :=
  ⟨fun x => t.number x ∧ u.number x, fun s => t.string s ∧ u.string s,
    fun ks => t.keys ks ∧ u.keys ks⟩

mutual

theorem passes_and {t u : Test ν σ} :
    ∀ v : JsonTree ν σ, v.Passes t → v.Passes u → v.Passes (t.and u)
  | .null, _, _ | .bool _, _, _ => trivial
  | .num _, h, h' | .str _, h, h' => ⟨h, h'⟩
  | .arr l, h, h' => itemsPass_and l h h'
  | .obj l, h, h' => ⟨⟨h.1, h'.1⟩, membersPass_and l h.2 h'.2⟩

theorem itemsPass_and {t u : Test ν σ} :
    ∀ l : List (JsonTree ν σ), ItemsPass t l → ItemsPass u l → ItemsPass (t.and u) l
  | [], _, _ => trivial
  | v :: l, h, h' => ⟨passes_and v h.1 h'.1, itemsPass_and l h.2 h'.2⟩

theorem membersPass_and {t u : Test ν σ} :
    ∀ l : List (σ × JsonTree ν σ), MembersPass t l → MembersPass u l → MembersPass (t.and u) l
  | [], _, _ => trivial
  | (_, v) :: l, h, h' =>
    ⟨⟨h.1, h'.1⟩, passes_and v h.2.1 h'.2.1, membersPass_and l h.2.2 h'.2.2⟩

end

theorem Passes.and {t u : Test ν σ} {v : JsonTree ν σ} (left : v.Passes t) (right : v.Passes u) :
    v.Passes (t.and u) := passes_and v left right

/-- What a changed value must pass is asked of the changed numbers. -/
def Test.comap (t : Test μ σ) (f : ν → μ) : Test ν σ := ⟨fun x => t.number (f x), t.string, t.keys⟩

mutual

theorem passes_map {t : Test μ σ} {f : ν → μ} :
    ∀ v : JsonTree ν σ, (map f v).Passes t ↔ v.Passes (t.comap f)
  | .null | .bool _ | .num _ | .str _ => Iff.rfl
  | .arr l => itemsPass_mapItems l
  | .obj l => by
    have keys : (mapMembers f l).map Prod.fst = l.map Prod.fst := by
      simp [mapMembers_eq_map, Function.comp_def]
    rw [map, Passes, Passes, keys, membersPass_mapMembers l]
    rfl

theorem itemsPass_mapItems {t : Test μ σ} {f : ν → μ} :
    ∀ l : List (JsonTree ν σ), ItemsPass t (mapItems f l) ↔ ItemsPass (t.comap f) l
  | [] => Iff.rfl
  | v :: l => and_congr (passes_map v) (itemsPass_mapItems l)

theorem membersPass_mapMembers {t : Test μ σ} {f : ν → μ} :
    ∀ l : List (σ × JsonTree ν σ), MembersPass t (mapMembers f l) ↔ MembersPass (t.comap f) l
  | [] => Iff.rfl
  | (_, v) :: l => and_congr Iff.rfl (and_congr (passes_map v) (membersPass_mapMembers l))

end

/-! ### Sorting the members of objects -/

/-- Members in the order of the code units of their keys. -/
def byCode (code : σ → List ℕ) (members : List (σ × JsonTree ν σ)) : List (σ × JsonTree ν σ) :=
  members.insertionSort fun p q => code p.1 ≤ code q.1

theorem perm_byCode (code : σ → List ℕ) (l : List (σ × JsonTree ν σ)) : (byCode code l).Perm l :=
  List.perm_insertionSort _ _

theorem pairwise_byCode (code : σ → List ℕ) (l : List (σ × JsonTree ν σ)) :
    (byCode code l).Pairwise fun p q => code p.1 ≤ code q.1 :=
  haveI : IsTrans (σ × JsonTree ν σ) fun p q => code p.1 ≤ code q.1 :=
    ⟨fun _ _ _ => le_trans⟩
  haveI : Std.Total fun p q : σ × JsonTree ν σ => code p.1 ≤ code q.1 :=
    ⟨fun _ _ => le_total _ _⟩
  List.pairwise_insertionSort _ _

/-- Members with distinct keys can be sorted in one way. -/
theorem eq_byCode {code : σ → List ℕ} (inj : Function.Injective code)
    {l m : List (σ × JsonTree ν σ)} (nodup : (l.map Prod.fst).Nodup)
    (sorted : m.Pairwise fun p q => code p.1 ≤ code q.1) (perm : m.Perm l) :
    m = byCode code l := by
  refine List.Perm.eq_of_pairwise ?_ sorted (pairwise_byCode code l)
    (perm.trans (perm_byCode code l).symm)
  rintro ⟨j, v⟩ ⟨k, w⟩ hv hw below above
  obtain rfl : j = k := inj (le_antisymm below above)
  exact List.inj_on_of_nodup_map nodup (perm.mem_iff.mp hv) ((perm_byCode code l).mem_iff.mp hw) rfl

mutual

/-- Sort the members of every object. -/
def sort (code : σ → List ℕ) : JsonTree ν σ → JsonTree ν σ
  | .arr l => .arr (sortItems code l)
  | .obj l => .obj (byCode code (sortMembers code l))
  | v => v

/-- Sort inside every item. -/
def sortItems (code : σ → List ℕ) : List (JsonTree ν σ) → List (JsonTree ν σ)
  | [] => []
  | v :: l => sort code v :: sortItems code l

/-- Sort inside every member's value. -/
def sortMembers (code : σ → List ℕ) : List (σ × JsonTree ν σ) → List (σ × JsonTree ν σ)
  | [] => []
  | (k, v) :: l => (k, sort code v) :: sortMembers code l

end

theorem sortMembers_eq_map (code : σ → List ℕ) (l : List (σ × JsonTree ν σ)) :
    sortMembers code l = l.map fun p => (p.1, sort code p.2) := by
  induction l with
  | nil => rfl
  | cons p l ih => rw [sortMembers, ih, List.map_cons]

mutual

/-- The order of members makes no difference to a test that allows every one of them. -/
theorem passes_sort {t : Test ν σ} {code : σ → List ℕ}
    (orders : ∀ ks ks' : List σ, ks.Perm ks' → (t.keys ks ↔ t.keys ks')) :
    ∀ v : JsonTree ν σ, (sort code v).Passes t ↔ v.Passes t
  | .null | .bool _ | .num _ | .str _ => Iff.rfl
  | .arr l => itemsPass_sortItems orders l
  | .obj l => by
    have keys : ((byCode code (sortMembers code l)).map Prod.fst).Perm (l.map Prod.fst) := by
      have sorted : (sortMembers code l).map Prod.fst = l.map Prod.fst := by
        simp [sortMembers_eq_map, Function.comp_def]
      exact sorted ▸ (perm_byCode code _).map Prod.fst
    have members : MembersPass t (byCode code (sortMembers code l)) ↔
        MembersPass t (sortMembers code l) := by
      rw [membersPass_iff, membersPass_iff]
      simp only [(perm_byCode code _).mem_iff]
    rw [sort, Passes, Passes, orders _ _ keys, members, membersPass_sortMembers orders l]

theorem itemsPass_sortItems {t : Test ν σ} {code : σ → List ℕ}
    (orders : ∀ ks ks' : List σ, ks.Perm ks' → (t.keys ks ↔ t.keys ks')) :
    ∀ l : List (JsonTree ν σ), ItemsPass t (sortItems code l) ↔ ItemsPass t l
  | [] => Iff.rfl
  | v :: l => and_congr (passes_sort orders v) (itemsPass_sortItems orders l)

theorem membersPass_sortMembers {t : Test ν σ} {code : σ → List ℕ}
    (orders : ∀ ks ks' : List σ, ks.Perm ks' → (t.keys ks ↔ t.keys ks')) :
    ∀ l : List (σ × JsonTree ν σ), MembersPass t (sortMembers code l) ↔ MembersPass t l
  | [] => Iff.rfl
  | (_, v) :: l =>
    and_congr Iff.rfl (and_congr (passes_sort orders v) (membersPass_sortMembers orders l))

end

theorem byCode_map (code : σ → List ℕ) (f : JsonTree ν σ → JsonTree μ σ)
    (l : List (σ × JsonTree ν σ)) :
    byCode code (l.map fun p => (p.1, f p.2)) = (byCode code l).map fun p => (p.1, f p.2) := by
  let below : σ × JsonTree ν σ → σ × JsonTree ν σ → Prop := fun p q => code p.1 ≤ code q.1
  let below' : σ × JsonTree μ σ → σ × JsonTree μ σ → Prop := fun p q => code p.1 ≤ code q.1
  exact (List.map_insertionSort below below' (fun p => (p.1, f p.2)) l fun _ _ _ _ => Iff.rfl).symm

mutual

theorem sort_map (code : σ → List ℕ) (f : ν → μ) :
    ∀ v : JsonTree ν σ, sort code (map f v) = map f (sort code v)
  | .null | .bool _ | .num _ | .str _ => rfl
  | .arr l => congrArg JsonTree.arr (sortItems_mapItems code f l)
  | .obj l => by
    rw [map, sort, sort, map, sortMembers_mapMembers code f l, mapMembers_eq_map, byCode_map,
      mapMembers_eq_map]

theorem sortItems_mapItems (code : σ → List ℕ) (f : ν → μ) :
    ∀ l : List (JsonTree ν σ), sortItems code (mapItems f l) = mapItems f (sortItems code l)
  | [] => rfl
  | v :: l => by
    rw [mapItems, sortItems, sortItems, mapItems, sort_map code f v, sortItems_mapItems code f l]

theorem sortMembers_mapMembers (code : σ → List ℕ) (f : ν → μ) :
    ∀ l : List (σ × JsonTree ν σ),
      sortMembers code (mapMembers f l) = mapMembers f (sortMembers code l)
  | [] => rfl
  | (k, v) :: l => by
    rw [mapMembers, sortMembers, sortMembers, mapMembers, sort_map code f v,
      sortMembers_mapMembers code f l]

end

/-- Two codes put the keys in one order. -/
def SameOrder (code code' : σ → List ℕ) (keys : List σ) : Prop :=
  ∀ j ∈ keys, ∀ k ∈ keys, (code j ≤ code k ↔ code' j ≤ code' k)

variable {code code' : σ → List ℕ}

/-- A list that two codes sort alike has its keys in one order. -/
private theorem sameOrder_of_pairwise (inj : Function.Injective code)
    (inj' : Function.Injective code')
    {l : List (σ × JsonTree ν σ)}
    (sorted : l.Pairwise fun p q => code p.1 ≤ code q.1)
    (sorted' : l.Pairwise fun p q => code' p.1 ≤ code' q.1) :
    SameOrder code code' (l.map Prod.fst) := by
  let Agree (p q : σ × JsonTree ν σ) : Prop :=
    (code p.1 ≤ code q.1 ↔ code' p.1 ≤ code' q.1) ∧
      (code q.1 ≤ code p.1 ↔ code' q.1 ≤ code' p.1)
  have agree : l.Pairwise Agree := by
    refine (sorted.and sorted').imp fun {p q} below => ⟨iff_of_true below.1 below.2, ?_⟩
    -- Only a key with the same units is also above.
    constructor
    · intro above
      rw [inj (le_antisymm below.1 above)]
    · intro above
      rw [inj' (le_antisymm below.2 above)]
  have : Std.Symm Agree := ⟨fun _ _ h => ⟨h.2, h.1⟩⟩
  have all := agree.forall_of_forall
    fun p _ => ⟨iff_of_true le_rfl le_rfl, iff_of_true le_rfl le_rfl⟩
  intro j left k right
  obtain ⟨p, hp, rfl⟩ := List.mem_map.mp left
  obtain ⟨q, hq, rfl⟩ := List.mem_map.mp right
  exact (all hp hq).1

/-- Sorted alike means equal members in one order. -/
theorem byCode_eq_iff (inj : Function.Injective code) (inj' : Function.Injective code')
    {l : List (σ × JsonTree ν σ)} (nodup : (l.map Prod.fst).Nodup)
    (f g : JsonTree ν σ → JsonTree μ σ) :
    byCode code (l.map fun p => (p.1, f p.2)) = byCode code' (l.map fun p => (p.1, g p.2)) ↔
      (∀ p ∈ l, f p.2 = g p.2) ∧ SameOrder code code' (l.map Prod.fst) := by
  constructor
  · intro same
    constructor
    · intro p member
      have here : (p.1, f p.2) ∈ byCode code (l.map fun p => (p.1, f p.2)) :=
        (perm_byCode code _).mem_iff.mpr (List.mem_map.mpr ⟨p, member, rfl⟩)
      rw [same, (perm_byCode code' _).mem_iff] at here
      obtain ⟨q, found, equal⟩ := List.mem_map.mp here
      obtain ⟨key, value⟩ := Prod.mk.inj equal
      obtain rfl := List.inj_on_of_nodup_map nodup found member key
      exact value.symm
    · have keys : ((l.map fun p => (p.1, f p.2)).map Prod.fst) = l.map Prod.fst := by
        simp [Function.comp_def]
      have both := sameOrder_of_pairwise inj inj' (pairwise_byCode code _)
        (same ▸ pairwise_byCode code' (l.map fun p : σ × JsonTree ν σ => (p.1, g p.2)))
      intro j left k right
      -- Sorting moves the members and keeps their keys.
      have through {key : σ} (member : key ∈ l.map Prod.fst) :
          key ∈ (byCode code (l.map fun p => (p.1, f p.2))).map Prod.fst := by
        rw [((perm_byCode code _).map Prod.fst).mem_iff, keys]
        exact member
      exact both j (through left) k (through right)
  · rintro ⟨values, order⟩
    have one : (l.map fun p => (p.1, f p.2)) = l.map fun p => (p.1, g p.2) :=
      List.map_congr_left fun p member => by rw [values p member]
    rw [one, byCode, byCode]
    -- Two codes that order the keys alike sort the members alike.
    have sorts := List.map_insertionSort (fun p q : σ × JsonTree μ σ => code p.1 ≤ code q.1)
      (fun p q => code' p.1 ≤ code' q.1) id (l.map fun p => (p.1, g p.2)) ?_
    · simpa using sorts
    · intro p left q right
      obtain ⟨p', hp, rfl⟩ := List.mem_map.mp left
      obtain ⟨q', hq, rfl⟩ := List.mem_map.mp right
      exact order _ (List.mem_map.mpr ⟨p', hp, rfl⟩) _ (List.mem_map.mpr ⟨q', hq, rfl⟩)

mutual

/-- Sorted alike after their numbers were changed: the changes agree on every number and
the orders on the keys of every object. -/
theorem sort_map_eq_iff (inj : Function.Injective code) (inj' : Function.Injective code')
    (f g : ν → μ) : ∀ v : JsonTree ν σ, v.Distinct →
    (sort code (map f v) = sort code' (map g v) ↔
      v.Passes { number := fun x => f x = g x, keys := SameOrder code code' })
  | .null, _ | .bool _, _ | .str _, _ => iff_of_true rfl trivial
  | .num x, _ => JsonTree.num.injEq (f x) (g x) ▸ Iff.rfl
  | .arr l, h => by
    rw [map, map, sort, sort, JsonTree.arr.injEq]
    exact sortItems_mapItems_eq_iff inj inj' f g l h
  | .obj l, h => by
    rw [map, map, sort, sort, JsonTree.obj.injEq, sortMembers_eq_map, sortMembers_eq_map,
      mapMembers_eq_map, mapMembers_eq_map, List.map_map, List.map_map]
    refine (byCode_eq_iff inj inj' h.1 (fun v => sort code (map f v))
      fun v => sort code' (map g v)).trans ?_
    rw [and_comm]
    exact and_congr Iff.rfl (membersPass_sort_map inj inj' f g l h.2)

theorem sortItems_mapItems_eq_iff (inj : Function.Injective code) (inj' : Function.Injective code')
    (f g : ν → μ) :
    ∀ l : List (JsonTree ν σ), ItemsPass { keys := List.Nodup } l →
      (sortItems code (mapItems f l) = sortItems code' (mapItems g l) ↔
        ItemsPass { number := fun x => f x = g x, keys := SameOrder code code' } l)
  | [], _ => iff_of_true rfl trivial
  | v :: l, h => by
    rw [mapItems, mapItems, sortItems, sortItems, List.cons.injEq]
    exact and_congr (sort_map_eq_iff inj inj' f g v h.1)
      (sortItems_mapItems_eq_iff inj inj' f g l h.2)

theorem membersPass_sort_map (inj : Function.Injective code) (inj' : Function.Injective code')
    (f g : ν → μ) :
    ∀ l : List (σ × JsonTree ν σ), MembersPass { keys := List.Nodup } l →
      ((∀ p ∈ l, sort code (map f p.2) = sort code' (map g p.2)) ↔
        MembersPass { number := fun x => f x = g x, keys := SameOrder code code' } l)
  | [], _ => iff_of_true (by simp) trivial
  | (k, v) :: l, h => by
    rw [List.forall_mem_cons, MembersPass, true_and]
    exact and_congr (sort_map_eq_iff inj inj' f g v h.2.1)
      (membersPass_sort_map inj inj' f g l h.2.2)

end

end JsonTree

namespace JsonTree

open JsonText

/-! ### Text -/

/-- The text of a number: at least one character, and only those of decimal numbers. -/
def IsToken (cs : List Char) : Prop := cs ≠ [] ∧ ∀ c ∈ cs, Float64.IsDecimalChar c

theorem toNat_lt_of_isDecimalChar {c : Char} (decimal : Float64.IsDecimalChar c) :
    c.toNat < 128 := by
  rcases decimal with digit | sign
  · exact lt_of_le_of_lt (Char.isDigit_iff_toNat.mp digit).2 (by decide)
  · have table : ∀ c ∈ ['-', '+', '.', 'e', 'E'], c.toNat < 128 := forall_mem_of_all (by decide)
    exact table c sign

theorem isToken_intText (n : ℤ) : IsToken (intText n) :=
  ⟨signed_digits_ne_nil _ _, signed_digits_isDecimalChar _ _⟩

/-- Text that is neither marked off inside nor one of the three words. -/
structure IsWord (cs : List Char) : Prop where
  ne_nil : cs ≠ []
  unmarked : ∀ c ∈ cs, ¬ IsMark c
  ne_null : cs ≠ ['n', 'u', 'l', 'l']
  ne_true : cs ≠ ['t', 'r', 'u', 'e']
  ne_false : cs ≠ ['f', 'a', 'l', 's', 'e']

private theorem IsToken.ne_word {x : List Char} (token : IsToken x) {c : Char} {word : List Char}
    (letter : c ∈ ['u', 's']) (member : c ∈ word) : x ≠ word := by
  rintro rfl
  exact not_isDecimalChar_of_mem letter (token.2 c member)

theorem IsToken.isWord {x : List Char} (token : IsToken x) : IsWord x where
  ne_nil := token.1
  unmarked c member := not_isMark_of_isDecimalChar (token.2 c member)
  ne_null := token.ne_word (c := 'u') (by simp) (by simp)
  ne_true := token.ne_word (c := 'u') (by simp) (by simp)
  ne_false := token.ne_word (c := 's') (by simp) (by simp)

/-- A string between quotes. -/
def quoted (esc : Escaping) (s : String) : List Char :=
  '"' :: (s.toList.flatMap esc.escape ++ ['"'])

section Render

variable (esc : Escaping)

mutual

/-- The text of a value whose numbers are written already. -/
def render : JsonTree (List Char) → List Char
  | .null => ['n', 'u', 'l', 'l']
  | .bool true => ['t', 'r', 'u', 'e']
  | .bool false => ['f', 'a', 'l', 's', 'e']
  | .num x => x
  | .str s => quoted esc s
  | .arr [] => ['[', ']']
  | .arr (v :: l) => '[' :: (render v ++ renderItems l)
  | .obj [] => ['{', '}']
  | .obj ((k, v) :: l) => '{' :: (quoted esc k ++ ':' :: (render v ++ renderMembers l))

/-- The further items of an array and its closing bracket. -/
def renderItems : List (JsonTree (List Char)) → List Char
  | [] => [']']
  | v :: l => ',' :: (render v ++ renderItems l)

/-- The further members of an object and its closing brace. -/
def renderMembers : List (String × JsonTree (List Char)) → List Char
  | [] => ['}']
  | (k, v) :: l => ',' :: (quoted esc k ++ ':' :: (render v ++ renderMembers l))

end

theorem intercalate_cons (x : List Char) (xs : List (List Char)) :
    [','].intercalate (x :: xs) = x ++ xs.flatMap (',' :: ·) := by
  induction xs generalizing x with
  | nil => simp
  | cons y ys ih => rw [List.intercalate_cons_cons, ih, List.flatMap_cons]; simp

theorem flatMap_intercalate {α β : Type*} (f : α → List β) (sep : List α) (xs : List (List α)) :
    (sep.intercalate xs).flatMap f = (sep.flatMap f).intercalate (xs.map (List.flatMap f)) := by
  induction xs with
  | nil => simp
  | cons x xs ih =>
    cases xs with
    | nil => simp
    | cons y ys =>
      rw [List.intercalate_cons_cons, List.flatMap_append, List.flatMap_append, ih, List.map_cons,
        List.map_cons, List.map_cons, List.intercalate_cons_cons]

/-- A loop that writes a separator after every item but the last. -/
theorem foldl_separated {α β : Type*} (sep : List α) (f : β → List α) (l : List β) (out : List α) :
    (l.zipIdx.foldl (fun out p => if p.2 + 1 < l.length then out ++ f p.1 ++ sep else out ++ f p.1)
      out) = out ++ sep.intercalate (l.map f) := by
  -- From index `n` on, the items that are left are those up to the length.
  have loop : ∀ (l : List β) (n : ℕ) (out : List α),
      ((l.zipIdx n).foldl (fun out p =>
        if p.2 + 1 < n + l.length then out ++ f p.1 ++ sep else out ++ f p.1) out) =
      out ++ sep.intercalate (l.map f) := by
    intro l
    induction l with
    | nil => simp
    | cons x l ih =>
      intro n out
      rw [List.zipIdx_cons, List.foldl_cons]
      have next := ih (n + 1)
      rw [show n + 1 + l.length = n + (x :: l).length by rw [List.length_cons]; omega] at next
      rw [next]
      cases l with
      | nil => simp
      | cons y l =>
        have further : n + 1 < n + (x :: y :: l).length := by
          rw [List.length_cons, List.length_cons]
          omega
        rw [if_pos further]
        simp [List.intercalate_cons_cons]
  simpa using loop l 0 out

theorem renderItems_eq (l : List (JsonTree (List Char))) :
    renderItems esc l = (l.map (render esc)).flatMap (',' :: ·) ++ [']'] := by
  induction l with
  | nil => rfl
  | cons v l ih => simp [renderItems, ih]

/-- The text of a member. -/
def member (p : String × JsonTree (List Char)) : List Char :=
  quoted esc p.1 ++ ':' :: render esc p.2

theorem renderMembers_eq (l : List (String × JsonTree (List Char))) :
    renderMembers esc l = (l.map (member esc)).flatMap (',' :: ·) ++ ['}'] := by
  induction l with
  | nil => rfl
  | cons p l ih =>
    obtain ⟨k, v⟩ := p
    simp [renderMembers, ih, member]

/-- An array is its items, with commas between them. -/
theorem render_arr (l : List (JsonTree (List Char))) :
    render esc (.arr l) = '[' :: ([','].intercalate (l.map (render esc)) ++ [']']) := by
  cases l with
  | nil => simp [render]
  | cons v l => simp [render, renderItems_eq, intercalate_cons]

/-- An object is its members, with commas between them. -/
theorem render_obj (l : List (String × JsonTree (List Char))) :
    render esc (.obj l) = '{' :: ([','].intercalate (l.map (member esc)) ++ ['}']) := by
  cases l with
  | nil => simp [render]
  | cons p l =>
    obtain ⟨k, v⟩ := p
    simp [render, renderMembers_eq, intercalate_cons, member]

end Render

/-! ### Unique readability -/

variable {esc esc' : Escaping}

/-- The texts of all numbers are words. -/
abbrev Words (v : JsonTree (List Char)) : Prop := v.Passes { number := IsWord }

theorem stops_renderItems (l : List (JsonTree (List Char))) (cs : List Char) :
    Stops (renderItems esc l ++ cs) := by
  cases l <;> simp [renderItems, Stops, IsMark]

theorem stops_renderMembers (l : List (String × JsonTree (List Char))) (cs : List Char) :
    Stops (renderMembers esc l ++ cs) := by
  cases l <;> simp [renderMembers, Stops, IsMark]

/-- The text of a value that is one token. -/
def scalarText : JsonTree (List Char) → Option (List Char)
  | .null => some ['n', 'u', 'l', 'l']
  | .bool true => some ['t', 'r', 'u', 'e']
  | .bool false => some ['f', 'a', 'l', 's', 'e']
  | .num x => some x
  | _ => none

theorem scalarText_spec (esc : Escaping) {v : JsonTree (List Char)} (words : v.Words)
    {x : List Char}
    (text : v.scalarText = some x) : render esc v = x ∧ x ≠ [] ∧ ∀ c ∈ x, ¬ IsMark c := by
  cases v with
  | null =>
    obtain rfl := Option.some.inj text
    exact ⟨by rw [render], by simp, forall_mem_of_all (by decide)⟩
  | bool b =>
    cases b <;> obtain rfl := Option.some.inj text <;>
      exact ⟨by rw [render], by simp, forall_mem_of_all (by decide)⟩
  | num y =>
    obtain rfl := Option.some.inj text
    exact ⟨by rw [render], words.ne_nil, words.unmarked⟩
  | str s => cases text
  | arr l => cases text
  | obj l => cases text

/-- A word is the text of one value. -/
theorem scalarText_injective {v w : JsonTree (List Char)} (hv : v.Words) (hw : w.Words)
    {x : List Char} (left : v.scalarText = some x) (right : w.scalarText = some x) : v = w := by
  rw [← left] at right
  cases v with
  | null =>
    cases w with
    | null => rfl
    | bool b => cases b <;> simp [scalarText] at right
    | num y => exact absurd (Option.some.inj right) (IsWord.ne_null hw)
    | _ => cases right
  | bool b =>
    cases w with
    | null => cases b <;> simp [scalarText] at right
    | bool c => cases b <;> cases c <;> simp [scalarText] at right ⊢
    | num y => cases b <;> simp [scalarText, IsWord.ne_true hw, IsWord.ne_false hw] at right
    | _ => cases b <;> cases right
  | num y =>
    cases w with
    | null => exact absurd (Option.some.inj right).symm (IsWord.ne_null hv)
    | bool c =>
      cases c <;> exact absurd (Option.some.inj right).symm
        (by simp [IsWord.ne_true hv, IsWord.ne_false hv])
    | num z => rw [Option.some.inj right]
    | _ => cases right
  | _ => cases left

/-- The first character of a value that is not one token. -/
def shape : JsonTree (List Char) → Option Char
  | .str _ => some '"'
  | .arr _ => some '['
  | .obj _ => some '{'
  | _ => none

theorem scalarText_or_shape (esc : Escaping) (v : JsonTree (List Char)) :
    (∃ x, v.scalarText = some x) ∧ v.shape = none ∨
      v.scalarText = none ∧ ∃ m rest, v.shape = some m ∧ IsMark m ∧ render esc v = m :: rest := by
  cases v with
  | null => exact .inl ⟨⟨_, rfl⟩, rfl⟩
  | bool b => cases b <;> exact .inl ⟨⟨_, rfl⟩, rfl⟩
  | num x => exact .inl ⟨⟨_, rfl⟩, rfl⟩
  | str s => exact .inr ⟨rfl, _, _, rfl, by decide, by rw [render, quoted]⟩
  | arr l => exact .inr ⟨rfl, _, _, rfl, by decide, render_arr esc l⟩
  | obj l => exact .inr ⟨rfl, _, _, rfl, by decide, render_obj esc l⟩

theorem quoted_cancel {s t : String} {a b : List Char}
    (h : quoted esc s ++ a = quoted esc' t ++ b) :
    s = t ∧ (∀ c ∈ s.toList, esc.escape c = esc'.escape c) ∧ a = b := by
  have stop (cs : List Char) : unescape ('"' :: cs) = none := by simp [unescape]
  -- The induction is on the characters of the first string.
  have chars : ∀ (l m : List Char), l.flatMap esc.escape ++ '"' :: a =
      m.flatMap esc'.escape ++ '"' :: b →
        l = m ∧ (∀ c ∈ l, esc.escape c = esc'.escape c) ∧ a = b := by
    intro l
    induction l with
    | nil =>
      rintro (_ | ⟨d, m⟩) h
      · exact ⟨rfl, by simp, (List.cons.inj h).2⟩
      · have reads := congrArg unescape h
        simp only [List.flatMap_nil, List.nil_append, List.flatMap_cons, List.append_assoc,
          stop, esc'.unescape_escape] at reads
        cases reads
    | cons c l ih =>
      rintro (_ | ⟨d, m⟩) h
      · have reads := congrArg unescape h
        simp only [List.flatMap_nil, List.nil_append, List.flatMap_cons, List.append_assoc,
          stop, esc.unescape_escape] at reads
        cases reads
      · -- Both escapes are read as one character, and so what follows them is the same.
        have reads := congrArg unescape h
        simp only [List.flatMap_cons, List.append_assoc, esc.unescape_escape,
          esc'.unescape_escape, Option.some.injEq, Prod.mk.injEq] at reads
        obtain ⟨rfl, further⟩ := reads
        obtain ⟨rfl, alike, rest⟩ := ih m further
        simp only [List.flatMap_cons, List.append_assoc, further] at h
        exact ⟨rfl, List.forall_mem_cons.mpr ⟨List.append_cancel_right h, alike⟩, rest⟩
  simp only [quoted, List.cons_append, List.append_assoc, List.nil_append, List.cons.injEq,
    true_and] at h
  obtain ⟨same, alike, rest⟩ := chars _ _ h
  exact ⟨String.toList_inj.mp same, alike, rest⟩

/-- Texts with one start are of values with one shape. -/
theorem shape_eq {v w : JsonTree (List Char)} (hv : v.Words) (hw : w.Words) {s t : List Char}
    (h : render esc v ++ s = render esc' w ++ t) : v.shape = w.shape := by
  -- The first character of a token is not a mark.
  have apart {esc esc' : Escaping} {v w : JsonTree (List Char)} (hv : v.Words)
      {x : List Char} {m : Char}
      {rest s t : List Char} (text : v.scalarText = some x) (mark : IsMark m)
      (starts : render esc' w = m :: rest) (h : render esc v ++ s = render esc' w ++ t) :
      False := by
    obtain ⟨written, some, unmarked⟩ := scalarText_spec esc hv text
    obtain ⟨c, more, rfl⟩ := List.exists_cons_of_ne_nil some
    rw [written, starts, List.cons_append, List.cons_append, List.cons.injEq] at h
    exact unmarked c List.mem_cons_self (h.1 ▸ mark)
  rcases scalarText_or_shape esc v with ⟨⟨x, left⟩, none⟩ | ⟨-, m, rest, left, mark, starts⟩ <;>
    rcases scalarText_or_shape esc' w with
      ⟨⟨y, right⟩, none'⟩ | ⟨-, m', rest', right, mark', starts'⟩
  · rw [none, none']
  · exact (apart hv left mark' starts' h).elim
  · exact (apart hw right mark starts h.symm).elim
  · rw [starts, starts', List.cons_append, List.cons_append, List.cons.injEq] at h
    rw [left, right, h.1]

theorem render_ne_close {v : JsonTree (List Char)} (hv : v.Words) {cs ds : List Char} :
    render esc v ++ cs ≠ ']' :: ds := by
  rintro h
  rcases scalarText_or_shape esc v with ⟨⟨x, text⟩, -⟩ | ⟨-, m, rest, shape, -, starts⟩
  · obtain ⟨written, some, unmarked⟩ := scalarText_spec esc hv text
    obtain ⟨c, more, rfl⟩ := List.exists_cons_of_ne_nil some
    rw [written, List.cons_append, List.cons.injEq] at h
    exact unmarked c List.mem_cons_self (h.1 ▸ by decide)
  · rw [starts, List.cons_append, List.cons.injEq] at h
    rw [h.1] at shape
    cases v <;> simp [JsonTree.shape] at shape

theorem scalar_cancel {v w : JsonTree (List Char)} {s t x : List Char} (hv : v.Words)
    (hw : w.Words)
    (text : v.scalarText = some x) (hs : Stops s) (ht : Stops t)
    (h : render esc v ++ s = render esc' w ++ t) : v = w ∧ s = t := by
  have shapes := shape_eq hv hw h
  rcases scalarText_or_shape esc v with ⟨-, none⟩ | ⟨none, -⟩
  · rcases scalarText_or_shape esc' w with ⟨⟨y, text'⟩, -⟩ | ⟨-, m, rest, some, -⟩
    · obtain ⟨written, -, unmarked⟩ := scalarText_spec esc hv text
      obtain ⟨written', -, unmarked'⟩ := scalarText_spec esc' hw text'
      rw [written, written'] at h
      obtain ⟨rfl, rest⟩ := token_cancel unmarked unmarked' hs ht h
      exact ⟨scalarText_injective hv hw text text', rest⟩
    · rw [none, some] at shapes
      cases shapes
  · rw [none] at text
    cases text

/-- Two escapings write the string alike. -/
def Alike (esc esc' : Escaping) (s : String) : Prop := ∀ c ∈ s.toList, esc.escape c = esc'.escape c

mutual

/-- A value and the text that follows it can be told apart, whichever way its strings
are escaped. -/
theorem render_cancel : ∀ (v w : JsonTree (List Char)) {s t : List Char}, v.Words → w.Words →
    Stops s → Stops t → render esc v ++ s = render esc' w ++ t →
      v = w ∧ v.Passes { string := Alike esc esc' } ∧ s = t
  | .str a, w, s, t, hv, hw, _, _, h => by
    -- The first character of the text tells what kind of value was written.
    have shapes := shape_eq hv hw h
    cases w with
    | str b =>
      rw [render, render] at h
      obtain ⟨rfl, alike, rest⟩ := quoted_cancel h
      exact ⟨rfl, alike, rest⟩
    | _ => simp [shape] at shapes
  | .arr [], w, s, t, hv, hw, _, _, h => by
    have shapes := shape_eq hv hw h
    cases w with
    | arr m =>
      cases m with
      | nil => exact ⟨rfl, trivial, by simpa [render] using h⟩
      | cons y m =>
        simp only [render, List.cons_append, List.nil_append, List.append_assoc,
          List.cons.injEq, true_and] at h
        exact absurd h.symm (render_ne_close hw.1)
    | _ => simp [shape] at shapes
  | .arr (x :: l), w, s, t, hv, hw, _, _, h => by
    have shapes := shape_eq hv hw h
    cases w with
    | arr m =>
      cases m with
      | nil =>
        simp only [render, List.cons_append, List.nil_append, List.append_assoc,
          List.cons.injEq, true_and] at h
        exact absurd h (render_ne_close hv.1)
      | cons y m =>
        simp only [render, List.cons_append, List.append_assoc, List.cons.injEq, true_and] at h
        obtain ⟨rfl, first, items⟩ := render_cancel x y hv.1 hw.1 (stops_renderItems l s)
          (stops_renderItems m t) h
        obtain ⟨rfl, others, rest⟩ := renderItems_cancel l m hv.2 hw.2 items
        exact ⟨rfl, ⟨first, others⟩, rest⟩
    | _ => simp [shape] at shapes
  | .obj [], w, s, t, hv, hw, _, _, h => by
    have shapes := shape_eq hv hw h
    cases w with
    | obj m =>
      cases m with
      | nil => exact ⟨rfl, ⟨trivial, trivial⟩, by simpa [render] using h⟩
      | cons p m => simp [render, quoted] at h
    | _ => simp [shape] at shapes
  | .obj ((k, x) :: l), w, s, t, hv, hw, _, _, h => by
    have shapes := shape_eq hv hw h
    cases w with
    | obj m =>
      cases m with
      | nil => simp [render, quoted] at h
      | cons p m =>
        obtain ⟨j, y⟩ := p
        obtain ⟨-, -, left, lefts⟩ := hv
        obtain ⟨-, -, right, rights⟩ := hw
        simp only [render, List.cons_append, List.append_assoc, List.cons.injEq, true_and] at h
        obtain ⟨rfl, key, value⟩ := quoted_cancel h
        obtain ⟨rfl, first, members⟩ := render_cancel x y left right (stops_renderMembers l s)
          (stops_renderMembers m t) (List.cons.inj value).2
        obtain ⟨rfl, others, rest⟩ := renderMembers_cancel l m lefts rights members
        exact ⟨rfl, ⟨trivial, key, first, others⟩, rest⟩
    | _ => simp [shape] at shapes
  | .null, w, s, t, hv, hw, hs, ht, h => by
    obtain ⟨rfl, rest⟩ := scalar_cancel hv hw rfl hs ht h
    exact ⟨rfl, trivial, rest⟩
  | .bool true, w, s, t, hv, hw, hs, ht, h | .bool false, w, s, t, hv, hw, hs, ht, h => by
    obtain ⟨rfl, rest⟩ := scalar_cancel hv hw rfl hs ht h
    exact ⟨rfl, trivial, rest⟩
  | .num x, w, s, t, hv, hw, hs, ht, h => by
    obtain ⟨rfl, rest⟩ := scalar_cancel hv hw rfl hs ht h
    exact ⟨rfl, trivial, rest⟩

/-- The items of an array end at its closing bracket. -/
theorem renderItems_cancel : ∀ (l m : List (JsonTree (List Char))) {s t : List Char},
    ItemsPass { number := IsWord } l → ItemsPass { number := IsWord } m →
    renderItems esc l ++ s = renderItems esc' m ++ t →
      l = m ∧ ItemsPass { string := Alike esc esc' } l ∧ s = t
  | [], m, s, t, _, _, h => by
    cases m with
    | nil => exact ⟨rfl, trivial, by simpa [renderItems] using h⟩
    | cons y m => simp [renderItems] at h
  | x :: l, m, s, t, hv, hw, h => by
    cases m with
    | nil => simp [renderItems] at h
    | cons y m =>
      simp only [renderItems, List.cons_append, List.append_assoc, List.cons.injEq, true_and] at h
      obtain ⟨rfl, first, items⟩ := render_cancel x y hv.1 hw.1 (stops_renderItems l s)
        (stops_renderItems m t) h
      obtain ⟨rfl, others, rest⟩ := renderItems_cancel l m hv.2 hw.2 items
      exact ⟨rfl, ⟨first, others⟩, rest⟩

/-- The members of an object end at its closing brace. -/
theorem renderMembers_cancel : ∀ (l m : List (String × JsonTree (List Char))) {s t : List Char},
    MembersPass { number := IsWord } l → MembersPass { number := IsWord } m →
    renderMembers esc l ++ s = renderMembers esc' m ++ t →
      l = m ∧ MembersPass { string := Alike esc esc' } l ∧ s = t
  | [], m, s, t, _, _, h => by
    cases m with
    | nil => exact ⟨rfl, trivial, by simpa [renderMembers] using h⟩
    | cons p m => simp [renderMembers] at h
  | (k, x) :: l, m, s, t, hv, hw, h => by
    cases m with
    | nil => simp [renderMembers] at h
    | cons p m =>
      obtain ⟨j, y⟩ := p
      simp only [renderMembers, List.cons_append, List.append_assoc, List.cons.injEq, true_and] at h
      obtain ⟨rfl, key, value⟩ := quoted_cancel h
      obtain ⟨rfl, first, members⟩ := render_cancel x y hv.2.1 hw.2.1 (stops_renderMembers l s)
        (stops_renderMembers m t) (List.cons.inj value).2
      obtain ⟨rfl, others, rest⟩ := renderMembers_cancel l m hv.2.2 hw.2.2 members
      exact ⟨rfl, ⟨key, first, others⟩, rest⟩

end

theorem quoted_congr {s : String} (alike : Alike esc esc' s) : quoted esc s = quoted esc' s := by
  rw [quoted, quoted, List.flatMap_congr alike]

mutual

theorem render_congr : ∀ v : JsonTree (List Char), v.Passes { string := Alike esc esc' } →
    render esc v = render esc' v
  | .null, _ | .bool true, _ | .bool false, _ | .num _, _ | .arr [], _ | .obj [], _ => by
    rw [render, render]
  | .str s, h => by rw [render, render, quoted_congr h]
  | .arr (v :: l), h => by rw [render, render, render_congr v h.1, renderItems_congr l h.2]
  | .obj ((k, v) :: l), h => by
    rw [render, render, quoted_congr h.2.1, render_congr v h.2.2.1, renderMembers_congr l h.2.2.2]

theorem renderItems_congr : ∀ l : List (JsonTree (List Char)),
    ItemsPass { string := Alike esc esc' } l → renderItems esc l = renderItems esc' l
  | [], _ => rfl
  | v :: l, h => by rw [renderItems, renderItems, render_congr v h.1, renderItems_congr l h.2]

theorem renderMembers_congr : ∀ l : List (String × JsonTree (List Char)),
    MembersPass { string := Alike esc esc' } l → renderMembers esc l = renderMembers esc' l
  | [], _ => rfl
  | (k, v) :: l, h => by
    rw [renderMembers, renderMembers, quoted_congr h.1, render_congr v h.2.1,
      renderMembers_congr l h.2.2]

end

/-- Two texts are equal exactly for one value, with its strings written alike. -/
theorem render_eq_iff {v w : JsonTree (List Char)} (hv : v.Words) (hw : w.Words) :
    render esc v = render esc' w ↔ v = w ∧ v.Passes { string := Alike esc esc' } := by
  constructor
  · intro h
    obtain ⟨same, alike, -⟩ := render_cancel v w hv hw stops_nil stops_nil (congrArg (· ++ []) h)
    exact ⟨same, alike⟩
  · rintro ⟨rfl, alike⟩
    exact render_congr v alike

end JsonTree

end Foundation
