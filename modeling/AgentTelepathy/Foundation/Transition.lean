import Mathlib.Logic.Relation

/-!
# Runs of labelled transition systems

A step relation relates a state, a label and a next state. A run is a finite
sequence of steps. What one step preserves, a whole run preserves; what one
step preserves while a side condition holds, a run preserves along which every
step meets that side condition.
-/

namespace Foundation

namespace Transition

universe u v

variable {σ : Type u} {α : Type v} {step : σ → α → σ → Prop} {s t r : σ} {a : α} {as bs : List α}

/-- `Run step s as t`: starting at `s`, the labels `as` lead to `t`. -/
inductive Run (step : σ → α → σ → Prop) (s : σ) : List α → σ → Prop
  | nil : Run step s [] s
  | snoc {as : List α} {t r : σ} {a : α} :
      Run step s as t → step t a r → Run step s (as ++ [a]) r

theorem Run.single (one : step s a t) : Run step s [a] t := Run.snoc .nil one

theorem Run.eq_of_nil (run : Run step s [] t) : t = s := by
  generalize nothing : ([] : List α) = bs at run
  cases run with
  | nil => rfl
  | snoc => cases List.append_ne_nil_of_right_ne_nil _ (List.cons_ne_nil _ _) nothing.symm

theorem Run.append (first : Run step s as t) (second : Run step t bs r) :
    Run step s (as ++ bs) r := by
  induction second with
  | nil => simpa using first
  | snoc _ last ih =>
    rw [← List.append_assoc]
    exact Run.snoc ih last

/-- A run along `as ++ a :: bs` takes the step `a` after `as`. -/
theorem Run.middle (run : Run step s (as ++ a :: bs) r) :
    ∃ t t', Run step s as t ∧ step t a t' ∧ Run step t' bs r := by
  generalize all : as ++ a :: bs = cs at run
  induction run generalizing bs with
  | nil => cases List.append_ne_nil_of_right_ne_nil as (List.cons_ne_nil a bs) all
  | @snoc cs t r c before last ih =>
    rcases List.eq_nil_or_concat bs with rfl | ⟨bs', b, rfl⟩
    · obtain ⟨rfl, rfl⟩ := List.append_singleton_inj.mp all
      exact ⟨t, r, before, last, .nil⟩
    · have inits : (as ++ a :: bs') ++ [b] = cs ++ [c] := by
        rw [← all, List.concat_eq_append, List.append_assoc, List.cons_append]
      obtain ⟨front, rfl⟩ := List.append_singleton_inj.mp inits
      obtain ⟨u, u', first, middle, rest⟩ := ih front
      rw [List.concat_eq_append]
      exact ⟨u, u', first, middle, .snoc rest last⟩

/-- The steps of a run whose label meets a condition in the state it is taken. -/
def Guarded (step : σ → α → σ → Prop) (guard : σ → α → Prop) : σ → α → σ → Prop :=
  fun s a t => step s a t ∧ guard s a

/-- A property that every step preserves holds at the end of a run. -/
theorem Run.invariant {inv : σ → Prop} (preserved : ∀ s a t, inv s → step s a t → inv t)
    (run : Run step s as t) (initially : inv s) : inv t := by
  induction run with
  | nil => exact initially
  | snoc _ last ih => exact preserved _ _ _ ih last

/-- The last step of a run. -/
theorem Run.last (run : Run step s (as ++ [a]) r) : ∃ t, Run step s as t ∧ step t a r := by
  obtain ⟨t, t', before, last, rest⟩ := run.middle
  obtain rfl := rest.eq_of_nil
  exact ⟨t, before, last⟩

/-- A relation between two systems that is kept by steps with one label holds at
the ends of two runs with the same labels. -/
theorem Run.invariant_pair {τ : Type*} {step' : τ → α → τ → Prop} {inv : σ → τ → Prop} {s' t' : τ}
    (preserved : ∀ s s' a t t', inv s s' → step s a t → step' s' a t' → inv t t')
    (run : Run step s as t) (run' : Run step' s' as t') (initially : inv s s') : inv t t' := by
  induction run generalizing t' with
  | nil =>
    obtain rfl := run'.eq_of_nil
    exact initially
  | snoc _ last ih =>
    obtain ⟨r', before', last'⟩ := run'.last
    exact preserved _ _ _ _ _ (ih before') last last'

/-- A run of steps of one relation is a run of a weaker one. -/
theorem Run.mono {step' : σ → α → σ → Prop} (weaker : ∀ s a t, step s a t → step' s a t)
    (run : Run step s as t) : Run step' s as t := by
  induction run with
  | nil => exact .nil
  | snoc _ last ih => exact .snoc ih (weaker _ _ _ last)

/-- Forgetting a guard leaves a run. -/
theorem Run.of_guarded {guard : σ → α → Prop} (run : Run (Guarded step guard) s as t) :
    Run step s as t := run.mono fun _ _ _ => And.left

/-- A condition that every label of a run meets guards its steps. -/
theorem Run.guarded_of_mem {p : α → Prop} (run : Run step s as t) (all : ∀ a ∈ as, p a) :
    Run (Guarded step fun _ a => p a) s as t := by
  induction run with
  | nil => exact .nil
  | @snoc as _ _ a _ last ih =>
    refine .snoc (ih fun b member => all b (List.mem_append_left _ member)) ⟨last, ?_⟩
    exact all a (List.mem_append_right _ (List.mem_singleton.mpr rfl))

/-- A guard on labels alone is met by a run exactly if all its labels meet it. -/
theorem Run.guarded_iff_forall_mem {p : α → Prop} (run : Run step s as t) :
    Run (Guarded step fun _ a => p a) s as t ↔ ∀ a ∈ as, p a := by
  constructor
  · intro guarded
    induction guarded with
    | nil => nofun
    | snoc before last ih =>
      intro b member
      rcases List.mem_append.mp member with earlier | now
      · exact ih before.of_guarded b earlier
      · obtain rfl := List.mem_singleton.mp now
        exact last.2
  · exact run.guarded_of_mem

/-- The step relation of a partial step function. -/
def OfPartial (next : σ → α → Option σ) : σ → α → σ → Prop := fun s a t => next s a = some t

/-- A step relation that leads to one state at most. -/
def Functional (step : σ → α → σ → Prop) : Prop := ∀ s a t r, step s a t → step s a r → t = r

theorem functional_ofPartial (next : σ → α → Option σ) : Functional (OfPartial next) :=
  fun _ _ _ _ first second => Option.some.inj (first.symm.trans second)

theorem Functional.guarded (functional : Functional step) (guard : σ → α → Prop) :
    Functional (Guarded step guard) :=
  fun s a t r first second => functional s a t r first.1 second.1

/-- A functional relation reaches one state along given labels. -/
theorem Run.unique_of_functional (functional : Functional step) (run : Run step s as t)
    (run' : Run step s as r) : t = r := by
  induction run generalizing r with
  | nil => exact run'.eq_of_nil.symm
  | snoc _ last ih =>
    obtain ⟨m, before', last'⟩ := run'.last
    obtain rfl := ih before'
    exact functional _ _ _ _ last last'

/-- A partial step function reaches one state along given labels. -/
theorem Run.unique {next : σ → α → Option σ} (run : Run (OfPartial next) s as t)
    (run' : Run (OfPartial next) s as r) : t = r :=
  run.unique_of_functional (functional_ofPartial next) run'

/-- A property of all states that runs along the first labels of a list reach. -/
def Throughout (step : σ → α → σ → Prop) (p : σ → Prop) (s : σ) (as : List α) : Prop :=
  ∀ before after t, as = before ++ after → Run step s before t → p t

theorem throughout_nil {p : σ → Prop} : Throughout step p s [] ↔ p s := by
  constructor
  · exact fun holds => holds [] [] s rfl .nil
  · intro holds before after t nothing run
    obtain ⟨rfl, rfl⟩ := List.append_eq_nil_iff.mp nothing.symm
    rwa [run.eq_of_nil]

/-- One more label adds the state that it leads to. -/
theorem throughout_snoc {p : σ → Prop} (functional : Functional step) (run : Run step s as t)
    (last : step t a r) : Throughout step p s (as ++ [a]) ↔ Throughout step p s as ∧ p r := by
  constructor
  · intro holds
    refine ⟨fun before after u split before' => ?_, ?_⟩
    · exact holds before (after ++ [a]) u (by rw [split, List.append_assoc]) before'
    · exact holds (as ++ [a]) [] r (List.append_nil _).symm (run.snoc last)
  · rintro ⟨earlier, here⟩ before after u split run'
    rcases List.eq_nil_or_concat after with rfl | ⟨after', b, rfl⟩
    · rw [List.append_nil] at split
      subst split
      exact run'.unique_of_functional functional (run.snoc last) ▸ here
    · rw [List.concat_eq_append, ← List.append_assoc] at split
      exact earlier before after' u (List.append_singleton_inj.mp split).1 run'

/-- Where a guard decides whether a step keeps a property, all states of a run have the
property exactly when all its steps meet the guard. -/
theorem Run.throughout_iff {inv p : σ → Prop} {guard : σ → α → Prop}
    (functional : Functional step) (run : Run step s as t)
    (preserved : ∀ s a t, inv s → step s a t → inv t)
    (decided : ∀ s a t, inv s → p s → step s a t → (p t ↔ guard s a)) (initially : inv s)
    (start : p s) : Throughout step p s as ↔ Run (Guarded step guard) s as t := by
  induction run with
  | nil => exact iff_of_true (throughout_nil.mpr start) .nil
  | @snoc as m t a before last ih =>
    have here := before.invariant preserved initially
    rw [throughout_snoc functional before last, ih]
    constructor
    · rintro ⟨earlier, kept⟩
      have now := ih.mpr earlier as [] m (List.append_nil _).symm before
      exact .snoc earlier ⟨last, (decided m a t here now last).mp kept⟩
    · intro whole
      obtain ⟨m', earlier, -, met⟩ := whole.last
      obtain rfl := before.unique_of_functional functional earlier.of_guarded
      have now := ih.mpr earlier as [] m (List.append_nil _).symm before
      exact ⟨earlier, (decided m a t here now last).mpr met⟩

/-- Two guards that agree on the steps from where an invariant holds guard the same runs. -/
theorem Run.guarded_congr {next : σ → α → Option σ} {inv : σ → Prop}
    {guard guard' side : σ → α → Prop} (run : Run (Guarded (OfPartial next) side) s as t)
    (preserved : ∀ s a t, inv s → Guarded (OfPartial next) side s a t → inv t) (initially : inv s)
    (agree : ∀ s a t, inv s → next s a = some t → (guard s a ↔ guard' s a)) :
    Run (Guarded (OfPartial next) guard) s as t ↔ Run (Guarded (OfPartial next) guard') s as t := by
  induction run with
  | nil => exact iff_of_true .nil .nil
  | @snoc as m t a before step ih =>
    have here := agree m a t (before.invariant preserved initially) step.1
    -- The step function leads both runs through the same state.
    have through {g g' : σ → α → Prop}
        (earlier : Run (Guarded (OfPartial next) g) s as m →
          Run (Guarded (OfPartial next) g') s as m)
        (last : g m a → g' m a) (whole : Run (Guarded (OfPartial next) g) s (as ++ [a]) t) :
        Run (Guarded (OfPartial next) g') s (as ++ [a]) t := by
      obtain ⟨m', before', step', met⟩ := whole.last
      obtain rfl := before.of_guarded.unique before'.of_guarded
      exact .snoc (earlier before') ⟨step', last met⟩
    exact ⟨through ih.mp here.mp, through ih.mpr here.mpr⟩

/-- The state a partial step function reaches along a list of labels. -/
def runPartial (next : σ → α → Option σ) : σ → List α → Option σ
  | s, [] => some s
  | s, a :: as => (next s a).bind fun t => runPartial next t as

theorem runPartial_append (next : σ → α → Option σ) (s : σ) (as bs : List α) :
    runPartial next s (as ++ bs) = (runPartial next s as).bind fun t => runPartial next t bs := by
  induction as generalizing s with
  | nil => rfl
  | cons a as ih => simp only [List.cons_append, runPartial, ih, Option.bind_assoc]

theorem run_of_runPartial {next : σ → α → Option σ}
    (reaches : runPartial next s as = some t) : Run (OfPartial next) s as t := by
  induction as generalizing s with
  | nil =>
    cases reaches
    exact .nil
  | cons a as ih =>
    obtain ⟨m, first, rest⟩ := Option.bind_eq_some_iff.mp reaches
    exact (Run.single first).append (ih rest)

/-- Labels that a partial step function can follow give a run. -/
theorem run_get {next : σ → α → Option σ} (follows : (runPartial next s as).isSome) :
    Run (OfPartial next) s as ((runPartial next s as).get follows) :=
  run_of_runPartial (Option.some_get follows).symm

/-- A run to a state with a property that can be evaluated. -/
theorem exists_run_of_any {next : σ → α → Option σ} {p : σ → Bool}
    (holds : (runPartial next s as).any p = true) :
    ∃ t, Run (OfPartial next) s as t ∧ p t = true := by
  obtain ⟨t, reaches, found⟩ := (Option.any_eq_true p _).mp holds
  exact ⟨t, run_of_runPartial reaches, found⟩

/-- A partial step function that also checks a guard. -/
def checked (next : σ → α → Option σ) (guard : σ → α → Prop) [∀ s a, Decidable (guard s a)] :
    σ → α → Option σ := fun s a => if guard s a then next s a else none

theorem Run.of_checked {next : σ → α → Option σ} {guard : σ → α → Prop}
    [∀ s a, Decidable (guard s a)] (run : Run (OfPartial (checked next guard)) s as t) :
    Run (Guarded (OfPartial next) guard) s as t := by
  induction run with
  | nil => exact .nil
  | snoc _ last ih =>
    obtain ⟨holds, step⟩ := Option.ite_none_right_eq_some.mp last
    exact .snoc ih ⟨step, holds⟩

/-- Labels that pass the checks give a guarded run. -/
theorem run_get_checked {next : σ → α → Option σ} {guard : σ → α → Prop}
    [∀ s a, Decidable (guard s a)] (follows : (runPartial (checked next guard) s as).isSome) :
    Run (Guarded (OfPartial next) guard) s as
      ((runPartial (checked next guard) s as).get follows) := (run_get follows).of_checked

/-- A guarded run to a state with a property that can be evaluated. -/
theorem exists_guarded_of_any {next : σ → α → Option σ} {guard : σ → α → Prop}
    [∀ s a, Decidable (guard s a)] {p : σ → Bool}
    (holds : (runPartial (checked next guard) s as).any p = true) :
    ∃ t, Run (Guarded (OfPartial next) guard) s as t ∧ p t = true := by
  obtain ⟨t, run, found⟩ := exists_run_of_any holds
  exact ⟨t, run.of_checked, found⟩

end Transition

end Foundation
