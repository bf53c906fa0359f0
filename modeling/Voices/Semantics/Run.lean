import Mathlib.Data.List.Induction

/-!
# Runs of a machine with outputs

A machine reads one event at a time. A step that is not enabled in a state
is `none`; an enabled step gives the next state and the list of outputs that
the step lets the outside see. The outputs of a run are concatenated into its
trace, so that a statement about a history is a statement about the trace.
-/

namespace Semantics.Machine

universe u v w

variable {σ : Type u} {ε : Type v} {ω : Type w}

def run (step : σ → ε → Option (σ × List ω)) : σ → List ε → Option (σ × List ω)
  | s, [] => some (s, [])
  | s, e :: es =>
    (step s e).bind fun next => (run step next.1 es).map fun last => (last.1, next.2 ++ last.2)

/-- Every step of the run is taken in a state and on an event that `ok` allows. -/
def Along (step : σ → ε → Option (σ × List ω)) (ok : σ → ε → Prop) : σ → List ε → Prop
  | _, [] => True
  | s, e :: es => ok s e ∧ ∀ next, step s e = some next → Along step ok next.1 es

variable {step : σ → ε → Option (σ × List ω)}

def along (step : σ → ε → Option (σ × List ω)) (ok : σ → ε → Bool) : σ → List ε → Bool
  | _, [] => true
  | s, e :: es =>
    ok s e &&
      match step s e with
      | some next => along step ok next.1 es
      | none => true

theorem along_eq_true_iff {ok : σ → ε → Prop} [∀ s e, Decidable (ok s e)] {s : σ} {es : List ε} :
    along step (fun s e => decide (ok s e)) s es = true ↔ Along step ok s es := by
  induction es generalizing s with
  | nil => simp [along, Along]
  | cons e es ih =>
    cases hStep : step s e with
    | none => simp [along, Along, hStep]
    | some next => simp [along, Along, hStep, ih]

instance decidableAlong {ok : σ → ε → Prop} [∀ s e, Decidable (ok s e)] (s : σ) (es : List ε) :
    Decidable (Along step ok s es) :=
  decidable_of_iff _ along_eq_true_iff

@[simp] theorem run_nil (s : σ) : run step s [] = some (s, []) := rfl

theorem run_cons_iff {s s' : σ} {e : ε} {es : List ε} {tr : List ω} :
    run step s (e :: es) = some (s', tr) ↔
      ∃ s₁ o tr₁, step s e = some (s₁, o) ∧ run step s₁ es = some (s', tr₁) ∧ tr = o ++ tr₁ := by
  simp only [run, Option.bind_eq_some_iff, Option.map_eq_some_iff, Prod.exists, Prod.mk.injEq]
  constructor
  · rintro ⟨s₁, o, hStep, s₂, tr₁, hRun, rfl, rfl⟩
    exact ⟨s₁, o, tr₁, hStep, hRun, rfl⟩
  · rintro ⟨s₁, o, tr₁, hStep, hRun, rfl⟩
    exact ⟨s₁, o, hStep, s', tr₁, hRun, rfl, rfl⟩

theorem run_append_iff {s s' : σ} {es fs : List ε} {tr : List ω} :
    run step s (es ++ fs) = some (s', tr) ↔
      ∃ s₁ tr₁ tr₂, run step s es = some (s₁, tr₁) ∧ run step s₁ fs = some (s', tr₂) ∧
        tr = tr₁ ++ tr₂ := by
  induction es generalizing s tr with
  | nil =>
    constructor
    · intro h
      exact ⟨s, [], tr, rfl, h, rfl⟩
    · rintro ⟨s₁, tr₁, tr₂, hNil, hRun, rfl⟩
      cases hNil
      exact hRun
  | cons e es ih =>
    rw [List.cons_append, run_cons_iff]
    constructor
    · rintro ⟨s₁, o, tr₁, hStep, hRun, rfl⟩
      obtain ⟨s₂, tr₂, tr₃, hFirst, hSecond, rfl⟩ := ih.mp hRun
      exact ⟨s₂, o ++ tr₂, tr₃, run_cons_iff.mpr ⟨s₁, o, tr₂, hStep, hFirst, rfl⟩, hSecond,
        (List.append_assoc _ _ _).symm⟩
    · rintro ⟨s₂, tr₂, tr₃, hFirst, hSecond, rfl⟩
      obtain ⟨s₁, o, tr₁, hStep, hRun, rfl⟩ := run_cons_iff.mp hFirst
      exact ⟨s₁, o, tr₁ ++ tr₃, hStep, ih.mpr ⟨s₂, tr₁, tr₃, hRun, hSecond, rfl⟩,
        List.append_assoc _ _ _⟩

theorem run_singleton_iff {s s' : σ} {e : ε} {tr : List ω} :
    run step s [e] = some (s', tr) ↔ step s e = some (s', tr) := by
  rw [run_cons_iff]
  constructor
  · rintro ⟨s₁, o, tr₁, hStep, hNil, rfl⟩
    cases hNil
    rwa [List.append_nil]
  · intro hStep
    exact ⟨s', tr, [], hStep, rfl, (List.append_nil _).symm⟩

theorem run_snoc_iff {s s' : σ} {e : ε} {es : List ε} {tr : List ω} :
    run step s (es ++ [e]) = some (s', tr) ↔
      ∃ s₁ tr₁ o, run step s es = some (s₁, tr₁) ∧ step s₁ e = some (s', o) ∧ tr = tr₁ ++ o := by
  simp only [run_append_iff, run_singleton_iff]

theorem Along.last {ok : σ → ε → Prop} {s s' : σ} {e : ε} {es : List ε} {tr : List ω}
    (h : Along step ok s (es ++ [e])) (hRun : run step s es = some (s', tr)) : ok s' e := by
  induction es generalizing s tr with
  | nil =>
    cases hRun
    exact h.1
  | cons a es ih =>
    obtain ⟨s₁, o, tr₁, hStep, hRest, _⟩ := run_cons_iff.mp hRun
    exact ih (h.2 (s₁, o) hStep) hRest

theorem Along.init {ok : σ → ε → Prop} {s : σ} {es fs : List ε}
    (h : Along step ok s (es ++ fs)) : Along step ok s es := by
  induction es generalizing s with
  | nil => trivial
  | cons a es ih => exact ⟨h.1, fun next hStep => ih (h.2 next hStep)⟩

theorem along_snoc_iff {ok : σ → ε → Prop} {s s' : σ} {e : ε} {es : List ε} {tr : List ω}
    (hRun : run step s es = some (s', tr)) :
    Along step ok s (es ++ [e]) ↔ Along step ok s es ∧ ok s' e := by
  refine ⟨fun h => ⟨h.init, h.last hRun⟩, ?_⟩
  rintro ⟨hAlong, hOk⟩
  induction es generalizing s tr with
  | nil =>
    cases hRun
    exact ⟨hOk, fun next _ => trivial⟩
  | cons a es ih =>
    obtain ⟨s₁, o, tr₁, hStep, hRest, _⟩ := run_cons_iff.mp hRun
    refine ⟨hAlong.1, fun next hNext => ?_⟩
    cases hStep.symm.trans hNext
    exact ih hRest (hAlong.2 (s₁, o) hStep)

theorem along_append_iff {ok : σ → ε → Prop} {s s' : σ} {es fs : List ε} {tr : List ω}
    (hRun : run step s es = some (s', tr)) :
    Along step ok s (es ++ fs) ↔ Along step ok s es ∧ Along step ok s' fs := by
  induction es generalizing s tr with
  | nil =>
    cases hRun
    exact ⟨fun h => ⟨trivial, h⟩, fun h => h.2⟩
  | cons a es ih =>
    obtain ⟨s₁, o, tr₁, hStep, hRest, _⟩ := run_cons_iff.mp hRun
    simp only [List.cons_append, Along, hStep, Option.some.injEq, forall_eq', ih hRest, and_assoc]

theorem Along.mono {ok ok' : σ → ε → Prop} (hOk : ∀ s e, ok s e → ok' s e) {s : σ} {es : List ε}
    (h : Along step ok s es) : Along step ok' s es := by
  induction es generalizing s with
  | nil => trivial
  | cons a es ih => exact ⟨hOk s a h.1, fun next hStep => ih (h.2 next hStep)⟩

theorem Along.and {ok ok' : σ → ε → Prop} {s : σ} {es : List ε} (h : Along step ok s es)
    (h' : Along step ok' s es) : Along step (fun s e => ok s e ∧ ok' s e) s es := by
  induction es generalizing s with
  | nil => trivial
  | cons a es ih => exact ⟨⟨h.1, h'.1⟩, fun next hStep => ih (h.2 next hStep) (h'.2 next hStep)⟩

/-- What holds at the start and is kept by every step that `ok` allows holds
at the end of every run that meets `ok`. The property may speak of the events
and of the trace. -/
theorem run_history_along {ok : σ → ε → Prop} {P : List ε → σ → List ω → Prop} {s : σ}
    (hInit : P [] s [])
    (hStep : ∀ es s₁ tr e s₂ o, run step s es = some (s₁, tr) → P es s₁ tr → ok s₁ e →
      step s₁ e = some (s₂, o) → P (es ++ [e]) s₂ (tr ++ o))
    {es : List ε} {s' : σ} {tr : List ω} (hAlong : Along step ok s es)
    (hRun : run step s es = some (s', tr)) : P es s' tr := by
  induction es using List.reverseRecOn generalizing s' tr with
  | nil =>
    cases hRun
    exact hInit
  | append_singleton es e ih =>
    obtain ⟨s₁, tr₁, o, hFirst, hLast, rfl⟩ := run_snoc_iff.mp hRun
    exact hStep es s₁ tr₁ e s' o hFirst (ih hAlong.init hFirst) (hAlong.last hFirst) hLast

theorem run_induction_along {ok : σ → ε → Prop} {P : σ → List ω → Prop} {s : σ} (hInit : P s [])
    (hStep : ∀ s₁ tr e s₂ o, P s₁ tr → ok s₁ e → step s₁ e = some (s₂, o) → P s₂ (tr ++ o))
    {es : List ε} {s' : σ} {tr : List ω} (hAlong : Along step ok s es)
    (hRun : run step s es = some (s', tr)) : P s' tr :=
  run_history_along (P := fun _ s tr => P s tr) hInit
    (fun _ s₁ tr₁ e s₂ o _ => hStep s₁ tr₁ e s₂ o) hAlong hRun

/-- A run meets a condition when every step that it takes does. -/
theorem along_of_prefix {ok : σ → ε → Prop} {s s' : σ} {es : List ε} {tr : List ω}
    (hRun : run step s es = some (s', tr))
    (hOk : ∀ es₁ e es₂ s₁ s₂ tr₁ o, es = es₁ ++ e :: es₂ → run step s es₁ = some (s₁, tr₁) →
      step s₁ e = some (s₂, o) → ok s₁ e) : Along step ok s es := by
  induction es generalizing s tr with
  | nil => trivial
  | cons a es ih =>
    obtain ⟨s₁, o, tr₁, hStep, hRest, rfl⟩ := run_cons_iff.mp hRun
    refine ⟨hOk [] a es s s₁ [] o rfl rfl hStep, ?_⟩
    intro next hNext
    cases hStep.symm.trans hNext
    refine ih hRest fun es₁ e es₂ s₂ s₃ tr₂ o₂ hEq hFirst hLast => ?_
    exact hOk (a :: es₁) e es₂ s₂ s₃ (o ++ tr₂) o₂ (by rw [hEq, List.cons_append])
      (run_cons_iff.mpr ⟨s₁, o, tr₂, hStep, hFirst, rfl⟩) hLast

/-- One condition follows from another at the states that the run reaches. -/
theorem Along.imp {ok ok' : σ → ε → Prop} {s s' : σ} {es : List ε} {tr : List ω}
    (hRun : run step s es = some (s', tr))
    (hImp : ∀ es₁ e s₁ s₂ tr₁ o, run step s es₁ = some (s₁, tr₁) → step s₁ e = some (s₂, o) →
      ok s₁ e → ok' s₁ e) (h : Along step ok s es) : Along step ok' s es := by
  refine along_of_prefix hRun fun es₁ e es₂ s₁ s₂ tr₁ o hEq hFirst hStep => ?_
  rw [hEq, ← List.singleton_append, ← List.append_assoc] at h
  exact hImp es₁ e s₁ s₂ tr₁ o hFirst hStep (h.init.last hFirst)

theorem along_true (s : σ) (es : List ε) : Along step (fun _ _ => True) s es := by
  induction es generalizing s with
  | nil => trivial
  | cons a es ih => exact ⟨trivial, fun next _ => ih next.1⟩

theorem along_of_invariant {ok : σ → ε → Prop} {I : σ → Prop} {s : σ} (hInit : I s)
    (hOk : ∀ s₁ e, I s₁ → ok s₁ e)
    (hStep : ∀ s₁ e s₂ o, I s₁ → step s₁ e = some (s₂, o) → I s₂) (es : List ε) :
    Along step ok s es := by
  induction es generalizing s with
  | nil => trivial
  | cons a es ih => exact ⟨hOk s a hInit, fun next hNext => ih (hStep s a next.1 next.2 hInit hNext)⟩

theorem run_history {P : List ε → σ → List ω → Prop} {s : σ} (hInit : P [] s [])
    (hStep : ∀ es s₁ tr e s₂ o, run step s es = some (s₁, tr) → P es s₁ tr →
      step s₁ e = some (s₂, o) → P (es ++ [e]) s₂ (tr ++ o))
    {es : List ε} {s' : σ} {tr : List ω} (hRun : run step s es = some (s', tr)) : P es s' tr :=
  run_history_along hInit (fun es s₁ tr₁ e s₂ o hFirst hP _ h => hStep es s₁ tr₁ e s₂ o hFirst hP h)
    (along_true s es) hRun

theorem run_induction {P : σ → List ω → Prop} {s : σ} (hInit : P s [])
    (hStep : ∀ s₁ tr e s₂ o, P s₁ tr → step s₁ e = some (s₂, o) → P s₂ (tr ++ o))
    {es : List ε} {s' : σ} {tr : List ω} (hRun : run step s es = some (s', tr)) : P s' tr :=
  run_induction_along hInit (fun s₁ tr₁ e s₂ o hP _ h => hStep s₁ tr₁ e s₂ o hP h)
    (along_true s es) hRun

theorem run_invariant {I : σ → Prop} {s : σ} (hInit : I s)
    (hStep : ∀ s₁ e s₂ o, I s₁ → step s₁ e = some (s₂, o) → I s₂)
    {es : List ε} {s' : σ} {tr : List ω} (hRun : run step s es = some (s', tr)) : I s' :=
  run_induction (P := fun s _ => I s) hInit (fun s₁ _ e s₂ o hI h => hStep s₁ e s₂ o hI h) hRun

/-- When a step keeps a property exactly if `ok` allows the step, the property holds in every
state of a run exactly if `ok` allows all its steps. -/
theorem always_iff_along {ok : σ → ε → Prop} {I P : σ → Prop} {s s' : σ} {es : List ε} {tr : List ω}
    (hI : I s) (hP : P s)
    (hStep : ∀ s₁ e s₂ o, I s₁ → P s₁ → step s₁ e = some (s₂, o) → I s₂ ∧ (P s₂ ↔ ok s₁ e))
    (hRun : run step s es = some (s', tr)) :
    (∀ es₁ es₂ s₁ tr₁, es = es₁ ++ es₂ → run step s es₁ = some (s₁, tr₁) → P s₁) ↔
      Along step ok s es := by
  induction es generalizing s tr with
  | nil =>
    refine ⟨fun _ => trivial, fun _ es₁ es₂ s₁ tr₁ hEq hFirst => ?_⟩
    obtain ⟨rfl, _⟩ := List.append_eq_nil_iff.mp hEq.symm
    cases hFirst
    exact hP
  | cons e es ih =>
    obtain ⟨s₁, o, tr₁, hFirst, hRest, _⟩ := run_cons_iff.mp hRun
    obtain ⟨hI₁, hIff⟩ := hStep s e s₁ o hI hP hFirst
    constructor
    · intro hAll
      have hP₁ : P s₁ := hAll [e] es s₁ o rfl (run_singleton_iff.mpr hFirst)
      refine ⟨hIff.mp hP₁, fun next hNext => ?_⟩
      cases hFirst.symm.trans hNext
      refine (ih hI₁ hP₁ hRest).mp fun es₁ es₂ s₂ tr₂ hEq hRun₂ => ?_
      exact hAll (e :: es₁) es₂ s₂ (o ++ tr₂) (by rw [hEq, List.cons_append])
        (run_cons_iff.mpr ⟨s₁, o, tr₂, hFirst, hRun₂, rfl⟩)
    · rintro ⟨hOk, hAlong⟩ es₁ es₂ s₂ tr₂ hEq hRun₂
      cases es₁ with
      | nil =>
        cases hRun₂
        exact hP
      | cons a es₁ =>
        obtain ⟨rfl, hTail⟩ := List.cons_eq_cons.mp hEq
        obtain ⟨s₃, o₃, tr₃, hStep₃, hRun₃, _⟩ := run_cons_iff.mp hRun₂
        cases hFirst.symm.trans hStep₃
        exact (ih hI₁ (hIff.mpr hOk) hRest).mpr (hAlong (s₁, o) hFirst) es₁ es₂ s₂ tr₃ hTail hRun₃

/-- Forward simulation: when each step of a machine is a run of another with the same outputs, so
is each of its runs. -/
theorem run_of_simulation {σ' : Type*} {ε' : Type*} {step' : σ' → ε' → Option (σ' × List ω)}
    {R : σ → σ' → Prop}
    (hStep : ∀ s t e s₁ o, R s t → step s e = some (s₁, o) →
      ∃ fs t₁, run step' t fs = some (t₁, o) ∧ R s₁ t₁)
    {s s' : σ} {t : σ'} {es : List ε} {tr : List ω} (hR : R s t)
    (hRun : run step s es = some (s', tr)) :
    ∃ fs t', run step' t fs = some (t', tr) ∧ R s' t' := by
  induction es generalizing s t tr with
  | nil =>
    cases hRun
    exact ⟨[], t, rfl, hR⟩
  | cons e es ih =>
    obtain ⟨s₁, o, tr₁, hFirst, hRest, rfl⟩ := run_cons_iff.mp hRun
    obtain ⟨fs, t₁, hRun₁, hR₁⟩ := hStep s t e s₁ o hR hFirst
    obtain ⟨gs, t', hRun₂, hR'⟩ := ih hR₁ hRest
    exact ⟨fs ++ gs, t', run_append_iff.mpr ⟨t₁, o, tr₁, hRun₁, hRun₂, rfl⟩, hR'⟩

/-- What `f` reads off the events of a run and the states in which they occur. -/
def collect {α : Type*} (step : σ → ε → Option (σ × List ω)) (f : σ → ε → Option α) :
    σ → List ε → List α
  | _, [] => []
  | s, e :: es =>
    (f s e).toList ++
      match step s e with
      | some next => collect step f next.1 es
      | none => []

theorem collect_snoc {α : Type*} {f : σ → ε → Option α} {s s' : σ} {es : List ε} {tr : List ω}
    (hRun : run step s es = some (s', tr)) (e : ε) :
    collect step f s (es ++ [e]) = collect step f s es ++ (f s' e).toList := by
  induction es generalizing s tr with
  | nil =>
    cases hRun
    simp only [List.nil_append, collect]
    split <;> simp
  | cons a es ih =>
    obtain ⟨s₁, o, tr₁, hStep, hRest, _⟩ := run_cons_iff.mp hRun
    simp only [List.cons_append, collect, hStep, ih hRest, List.append_assoc]

end Semantics.Machine
