import Voices.Semantics.Run

/-!
# Runs with inserted events

The second of two runs takes the events of the first and others in between. When
related states stay related under a common event, and an inserted event does not
leave the relation, the runs end in related states and are seen to do the same.
-/

namespace Semantics.Machine

universe u v w

variable {σ : Type u} {ε : Type v} {ω : Type w}

/-- From `t`, the events `fs` are `es` with others in between, each one `extra` where it occurs. -/
inductive Inserts (step : σ → ε → Option (σ × List ω)) (extra : σ → ε → Prop) :
    σ → List ε → List ε → Prop where
  | nil (t : σ) : Inserts step extra t [] []
  | common {t t' : σ} {e : ε} {o : List ω} {es fs : List ε} (hStep : step t e = some (t', o))
      (hRest : Inserts step extra t' es fs) : Inserts step extra t (e :: es) (e :: fs)
  | inserted {t t' : σ} {e : ε} {o : List ω} {es fs : List ε} (hExtra : extra t e)
      (hStep : step t e = some (t', o)) (hRest : Inserts step extra t' es fs) :
      Inserts step extra t es (e :: fs)

variable {step : σ → ε → Option (σ × List ω)} {extra : σ → ε → Prop}

theorem Inserts.run_eq {R : σ → σ → Prop} {seen : ω → Bool}
    (hCommon : ∀ s t e s' t' o o', R s t → step s e = some (s', o) → step t e = some (t', o') →
      R s' t' ∧ o = o')
    (hInserted : ∀ s t e t' o, R s t → extra t e → step t e = some (t', o) →
      R s t' ∧ o.filter seen = [])
    {s t s' t' : σ} {es fs : List ε} {tr tr' : List ω} (hInserts : Inserts step extra t es fs)
    (hRel : R s t) (hRun : run step s es = some (s', tr)) (hRun' : run step t fs = some (t', tr')) :
    R s' t' ∧ tr.filter seen = tr'.filter seen := by
  induction hInserts generalizing s tr tr' with
  | nil t =>
    cases hRun
    cases hRun'
    exact ⟨hRel, rfl⟩
  | common hStep _ ih =>
    obtain ⟨s₁, o₁, tr₁, hFirst, hRest, rfl⟩ := run_cons_iff.mp hRun
    obtain ⟨t₁, o₂, tr₂, hFirst', hRest', rfl⟩ := run_cons_iff.mp hRun'
    cases hStep.symm.trans hFirst'
    obtain ⟨hRel₁, rfl⟩ := hCommon _ _ _ _ _ _ _ hRel hFirst hFirst'
    obtain ⟨hLast, hSeen⟩ := ih hRel₁ hRest hRest'
    exact ⟨hLast, by rw [List.filter_append, List.filter_append, hSeen]⟩
  | inserted hExtra hStep _ ih =>
    obtain ⟨t₁, o₂, tr₂, hFirst', hRest', rfl⟩ := run_cons_iff.mp hRun'
    cases hStep.symm.trans hFirst'
    obtain ⟨hRel₁, hHidden⟩ := hInserted _ _ _ _ _ hRel hExtra hFirst'
    obtain ⟨hLast, hSeen⟩ := ih hRel₁ hRun hRest'
    exact ⟨hLast, by rw [List.filter_append, hHidden, List.nil_append, hSeen]⟩

end Semantics.Machine
