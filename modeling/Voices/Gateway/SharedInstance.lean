import Voices.Gateway.Channels

/-!
# One instance for all calls

Whatever calls of `get_or_init` and `reassign_voice` overlap, the first state that
is stored stays until the channel is closed, and every call returns the one that
is stored.
-/

namespace Voices.Gateway.Channels

open Semantics VoiceServer Std

variable {V : Type} {s s' : Channels V} {e : Event V} {o : List (Output V)}

/-- The step does not close the channel `id`. -/
def KeepsOpen (id : Uuid) (s : Channels V) : Event V → Prop
  | .close i _ => ∀ events ∈ s.states[i]?, events.channelId ≠ id
  | _ => True

instance (id : Uuid) (s : Channels V) : (e : Event V) → Decidable (KeepsOpen id s e)
  | .close i _ => inferInstanceAs (Decidable (∀ events ∈ s.states[i]?, events.channelId ≠ id))
  | .getOrInit _ => .isTrue trivial
  | .reassignVoice _ => .isTrue trivial
  | .voiceHost _ _ => .isTrue trivial
  | .init _ _ => .isTrue trivial
  | .insert _ => .isTrue trivial
  | .entry _ => .isTrue trivial
  | .join _ _ => .isTrue trivial
  | .joined _ _ => .isTrue trivial
  | .drop _ _ => .isTrue trivial
  | .leave _ _ => .isTrue trivial

/-- A call carries a room of its own id, and the lock is held on a vacant entry. -/
structure Consistent (s : Channels V) : Prop where
  named : ∀ (id : Uuid) (room : Channel V), s.channelMap[id]? = some room → room.roomId = id
  pending : ∀ (k : CallId) (call : Call V) (room : Channel V), s.calls[k]? = some call →
    call.phase = .inserting room → room.roomId = call.id
  locked : ∀ (k : CallId) (call : Call V) (voice : V), s.lock = some k → s.calls[k]? = some call →
    call.phase = .vacant voice → s.channelMap[call.id]? = none

theorem Consistent.new : (new : Channels V).Consistent := by
  constructor <;> simp [Channels.new]

/-- Only the phase of one call changes, or a call is new. -/
theorem Consistent.of_calls (hConsistent : s.Consistent) (hMap : s'.channelMap = s.channelMap)
    (hCalls : ∀ k call', s'.calls[k]? = some call' →
      (s.calls[k]? = some call' ∧ (s'.lock = some k → s.lock = some k)) ∨
        (∀ room, call'.phase = .inserting room → room.roomId = call'.id) ∧
          ∀ voice, s'.lock = some k → call'.phase = .vacant voice → s.channelMap[call'.id]? = none) :
    s'.Consistent where
  named id room hRoom := hConsistent.named id room (hMap ▸ hRoom)
  pending k call room hCall hPhase := by
    obtain ⟨hOld, _⟩ | ⟨hInserting, _⟩ := hCalls k call hCall
    · exact hConsistent.pending k call room hOld hPhase
    · exact hInserting room hPhase
  locked k call voice hLock hCall hPhase := by
    rw [hMap]
    obtain ⟨hOld, hHeld⟩ | ⟨_, hVacant⟩ := hCalls k call hCall
    · exact hConsistent.locked k call voice (hHeld hLock) hOld hPhase
    · exact hVacant voice hLock hPhase

theorem Consistent.addCall (hConsistent : s.Consistent) (call : Call V)
    (hPhase : call.phase = .asking ∨ call.phase = .returned) :
    Consistent { s with calls := s.calls ++ [call] } := by
  refine hConsistent.of_calls rfl fun k call' hCall => ?_
  obtain hOld | ⟨_, rfl⟩ := getElem?_snoc_iff.mp hCall
  · exact .inl ⟨hOld, id⟩
  · refine .inr ⟨fun room hInserting => ?_, fun voice _ hVacant => ?_⟩
    · rw [hInserting] at hPhase
      obtain h | h := hPhase <;> cases h
    · rw [hVacant] at hPhase
      obtain h | h := hPhase <;> cases h

theorem Consistent.setPhase (hConsistent : s.Consistent) {k : CallId} {call : Call V}
    (hCall : s.calls[k]? = some call) {phase : Phase V}
    (hInserting : ∀ room, phase = .inserting room → room.roomId = call.id)
    (hVacant : ∀ voice, phase ≠ .vacant voice) : (s.setPhase k call phase).Consistent := by
  refine hConsistent.of_calls rfl fun n call' hOther => ?_
  obtain ⟨_, rfl⟩ | ⟨_, hOld⟩ := (getElem?_set_iff hCall).mp hOther
  · exact .inr ⟨hInserting, fun voice _ hPhase => absurd hPhase (hVacant voice)⟩
  · exact .inl ⟨hOld, id⟩

theorem Consistent.answered (hConsistent : s.Consistent) {k : CallId} {call : Call V}
    (hCall : s.calls[k]? = some call) (found : Option (Channel V)) :
    (s.answered k call found).Consistent := by
  have hPhase : (s.setPhase k call .returned).Consistent :=
    hConsistent.setPhase hCall (fun room h => by cases h) (fun voice h => by cases h)
  exact ⟨hPhase.named, hPhase.pending, hPhase.locked⟩

/-- A room is stored, and nobody holds the lock. -/
theorem Consistent.store (hConsistent : s.Consistent) (id : Uuid) (room : Channel V)
    (hName : room.roomId = id) :
    Consistent { s with channelMap := s.channelMap.insert id room, lock := none } where
  named other found hFound := by
    obtain ⟨rfl, rfl⟩ | ⟨_, hOld⟩ := lookup_insert_iff.mp hFound
    · exact hName
    · exact hConsistent.named other found hOld
  pending := hConsistent.pending
  locked k call voice hLock := by cases hLock

theorem Consistent.effect (hConsistent : s.Consistent) (h : Effect s e s' o) : s'.Consistent := by
  have hMake (id : Uuid) (voice : V) : (s.make id voice).2.Consistent :=
    ⟨hConsistent.named, hConsistent.pending, hConsistent.locked⟩
  cases h with
  | found id room hLock hRoom =>
    have hAdded := hConsistent.addCall ⟨id, false, .returned⟩ (.inr rfl)
    exact ⟨hAdded.named, hAdded.pending, hAdded.locked⟩
  | asked _ id reassign => exact hConsistent.addCall _ (.inl rfl)
  | resumed _ k call phase hCall hPhase =>
    refine hConsistent.setPhase hCall (fun room hEq => ?_) fun voice hEq => ?_
    · obtain ⟨_, h⟩ | ⟨_, h⟩ := hPhase <;> cases hEq.symm.trans h
    · obtain ⟨_, h⟩ | ⟨_, h⟩ := hPhase <;> cases hEq.symm.trans h
  | failed _ k call result hCall hResult hPhase => exact hConsistent.answered hCall none
  | made k call voice hCall hPhase =>
    refine (hMake call.id voice).setPhase hCall (fun room hEq => ?_) fun voice h => by cases h
    cases hEq
    rfl
  | inserted k call room hLock hCall hPhase hVacant =>
    have hStored := hConsistent.store _ _ (hConsistent.pending k call room hCall hPhase)
    rw [← hLock] at hStored
    exact hStored.answered hCall (some room)
  | existing k call found hLock hCall hFound hPhase => exact hConsistent.answered hCall (some found)
  | revoiced k call chan voice hLock hCall hPhase hFound =>
    have hStored := hConsistent.store call.id { chan with voice }
      (hConsistent.named call.id chan hFound)
    rw [← hLock] at hStored
    exact hStored.answered hCall (some { chan with voice })
  | locked k call voice hLock hCall hPhase hVacant =>
    refine hConsistent.of_calls rfl fun n call' hOther => ?_
    obtain ⟨rfl, rfl⟩ | ⟨hNe, hOld⟩ := (getElem?_set_iff hCall).mp hOther
    · exact .inr ⟨(fun room h => by cases h), fun _ _ _ => hVacant⟩
    · exact .inl ⟨hOld, fun hOwn => absurd (Option.some.inj hOwn) (Ne.symm hNe)⟩
  | created k call voice hLock hCall hPhase =>
    exact ((hMake call.id voice).store call.id (s.make call.id voice).1 rfl).answered hCall _
  | unlocked k call voice hLock hCall hPhase =>
    have hFree : Consistent { s with lock := none } :=
      ⟨hConsistent.named, hConsistent.pending, fun n other voice h => by cases h⟩
    exact hFree.answered hCall none
  | joined n info channel events events' output hChannel hState hEffect =>
    exact ⟨hConsistent.named, hConsistent.pending, hConsistent.locked⟩
  | stepped _ i h events events' event output hEvent hState hEffect =>
    exact ⟨hConsistent.named, hConsistent.pending, hConsistent.locked⟩
  | closed i h events events' output hLock hState hEffect =>
    refine ⟨fun id room hRoom => ?_, hConsistent.pending, fun k call voice hSome => ?_⟩
    · exact hConsistent.named id room (lookup_erase_iff.mp hRoom).2
    · cases hLock.symm.trans hSome

/-- A stored entry stays, except that `reassign_voice` may change its voice host. -/
theorem Consistent.keeps (hConsistent : s.Consistent) (h : Effect s e s' o) {id : Uuid}
    (hOpen : KeepsOpen id s e) {stored : Channel V} (hStored : s.channelMap[id]? = some stored) :
    ∃ voice, s'.channelMap[id]? = some { stored with voice } ∧
      (voice ≠ stored.voice → ∃ k call, e = .entry k ∧ s.calls[k]? = some call ∧ call.id = id ∧
        call.phase = .locking voice) := by
  have hSame (hEq : s'.channelMap[id]? = some stored) : ∃ voice,
      s'.channelMap[id]? = some { stored with voice } ∧
        (voice ≠ stored.voice → ∃ k call, e = .entry k ∧ s.calls[k]? = some call ∧ call.id = id ∧
          call.phase = .locking voice) :=
    ⟨stored.voice, hEq, fun hNe => absurd rfl hNe⟩
  cases h with
  | inserted k call room hLock hCall hPhase hVacant =>
    refine hSame (lookup_insert_iff.mpr (.inr ⟨?_, hStored⟩))
    rintro rfl
    cases hVacant.symm.trans hStored
  | revoiced k call chan voice hLock hCall hPhase hFound =>
    by_cases hEq : id = call.id
    · subst hEq
      cases hFound.symm.trans hStored
      exact ⟨voice, lookup_insert_iff.mpr (.inl ⟨rfl, rfl⟩), fun _ => ⟨k, call, rfl, hCall, rfl, hPhase⟩⟩
    · exact hSame (lookup_insert_iff.mpr (.inr ⟨hEq, hStored⟩))
  | created k call voice hLock hCall hPhase =>
    refine hSame (lookup_insert_iff.mpr (.inr ⟨?_, hStored⟩))
    rintro rfl
    cases (hConsistent.locked k call voice hLock hCall hPhase).symm.trans hStored
  | closed i h events events' output hLock hState hEffect =>
    exact hSame (lookup_erase_iff.mpr ⟨(hOpen events hState).symm, hStored⟩)
  | _ => exact hSame hStored

theorem setPhase_call {k : CallId} {call : Call V} (hCall : s.calls[k]? = some call) (phase : Phase V) :
    (s.setPhase k call phase).calls[k]? = some { call with phase } :=
  getElem?_set_here hCall

/-- Calls keep their id. -/
theorem setPhase_call_id {k : CallId} {call : Call V} (hCall : s.calls[k]? = some call)
    (phase : Phase V) {n : CallId} {other : Call V} (hOther : s.calls[n]? = some other) :
    ∃ other', (s.setPhase k call phase).calls[n]? = some other' ∧ other'.id = other.id := by
  by_cases hEq : n = k
  · subst hEq
    cases hCall.symm.trans hOther
    exact ⟨_, setPhase_call hCall phase, rfl⟩
  · exact ⟨other, getElem?_set_there hCall hEq hOther, rfl⟩

theorem Effect.call_id (h : Effect s e s' o) {n : CallId} {other : Call V}
    (hOther : s.calls[n]? = some other) : ∃ other', s'.calls[n]? = some other' ∧ other'.id = other.id := by
  cases h with
  | found => exact ⟨other, getElem?_snoc_iff.mpr (.inl hOther), rfl⟩
  | asked => exact ⟨other, getElem?_snoc_iff.mpr (.inl hOther), rfl⟩
  | resumed _ k call phase hCall => exact setPhase_call_id hCall phase hOther
  | failed _ k call result hCall => exact setPhase_call_id hCall .returned hOther
  | made k call voice hCall => exact setPhase_call_id hCall _ hOther
  | inserted k call room hLock hCall => exact setPhase_call_id hCall .returned hOther
  | existing k call found hLock hCall => exact setPhase_call_id hCall .returned hOther
  | revoiced k call chan voice hLock hCall => exact setPhase_call_id hCall .returned hOther
  | locked k call voice hLock hCall => exact setPhase_call_id hCall _ hOther
  | created k call voice hLock hCall => exact setPhase_call_id hCall .returned hOther
  | unlocked k call voice hLock hCall => exact setPhase_call_id hCall .returned hOther
  | _ => exact ⟨other, hOther, rfl⟩

/-- A call returns what is stored under its id. -/
theorem Consistent.returns (hConsistent : s.Consistent) (h : Effect s e s' o) {k : CallId}
    {room : Channel V} (hReturned : .returned k (some (some room)) ∈ o) :
    ∃ call, s'.calls[k]? = some call ∧ call.id = room.roomId ∧ s'.channelMap[room.roomId]? = some room := by
  cases h with
  | found id stored hLock hRoom =>
    cases List.mem_singleton.mp hReturned
    have hName := hConsistent.named id room hRoom
    refine ⟨_, getElem?_snoc_iff.mpr (.inr ⟨rfl, rfl⟩), hName.symm, ?_⟩
    exact hName ▸ hRoom
  | failed _ n call result hCall hResult =>
    cases List.mem_singleton.mp hReturned
    cases hResult
  | inserted n call stored hLock hCall hPhase hVacant =>
    cases List.mem_singleton.mp hReturned
    have hName := hConsistent.pending k call room hCall hPhase
    refine ⟨_, setPhase_call hCall .returned, hName.symm, ?_⟩
    exact lookup_insert_iff.mpr (.inl ⟨hName, rfl⟩)
  | existing n call found hLock hCall hFound =>
    cases List.mem_singleton.mp hReturned
    have hName := hConsistent.named call.id room hFound
    refine ⟨_, setPhase_call hCall .returned, hName.symm, ?_⟩
    exact hName ▸ hFound
  | revoiced n call chan voice hLock hCall hPhase hFound =>
    cases List.mem_singleton.mp hReturned
    have hName := hConsistent.named call.id chan hFound
    refine ⟨_, setPhase_call hCall .returned, hName.symm, ?_⟩
    exact lookup_insert_iff.mpr (.inl ⟨hName, rfl⟩)
  | created n call voice hLock hCall =>
    cases List.mem_singleton.mp hReturned
    exact ⟨_, setPhase_call hCall .returned, rfl, lookup_insert_iff.mpr (.inl ⟨rfl, rfl⟩)⟩
  | unlocked => cases List.mem_singleton.mp hReturned
  | resumed => cases hReturned
  | asked => cases hReturned
  | made => cases hReturned
  | locked => cases hReturned
  | _ => simp at hReturned

theorem Consistent.of_run {es : List (Event V)} {tr : List (Output V)}
    (hRun : Machine.run step .new es = some (s, tr)) : s.Consistent :=
  Machine.run_invariant Consistent.new (fun _ _ _ _ hConsistent h => hConsistent.effect (step_effect h)) hRun

/-- What the calls of a run without a close of `id` have returned is stored in the end. -/
theorem Consistent.run {id : Uuid} {es : List (Event V)} {tr : List (Output V)}
    (hConsistent : s.Consistent) (hAlong : Machine.Along step (KeepsOpen id) s es)
    (hRun : Machine.run step s es = some (s', tr)) :
    s'.Consistent ∧ ∀ k room, .returned k (some (some room)) ∈ tr →
      ∃ call, s'.calls[k]? = some call ∧ call.id = room.roomId ∧
        (room.roomId = id → ∃ stored, s'.channelMap[id]? = some stored ∧ stored.state = room.state) := by
  refine Machine.run_induction_along (P := fun s tr => s.Consistent ∧
    ∀ k room, .returned k (some (some room)) ∈ tr → ∃ call, s.calls[k]? = some call ∧
      call.id = room.roomId ∧
        (room.roomId = id → ∃ stored, s.channelMap[id]? = some stored ∧ stored.state = room.state))
    ⟨hConsistent, fun k room hMem => absurd hMem List.not_mem_nil⟩ ?_ hAlong hRun
  rintro s₁ tr₁ e s₂ o ⟨hBefore, hReturned⟩ hOpen hStep
  have hEffect := step_effect hStep
  refine ⟨hBefore.effect hEffect, fun k room hMem => ?_⟩
  obtain hOld | hNew := List.mem_append.mp hMem
  · obtain ⟨call, hCall, hId, hStored⟩ := hReturned k room hOld
    obtain ⟨call', hCall', hSame⟩ := hEffect.call_id hCall
    refine ⟨call', hCall', hSame.trans hId, fun hName => ?_⟩
    obtain ⟨stored, hEntry, hState⟩ := hStored hName
    obtain ⟨voice, hKept, _⟩ := hBefore.keeps hEffect hOpen hEntry
    exact ⟨_, hKept, hState⟩
  · obtain ⟨call, hCall, hId, hStored⟩ := hBefore.returns hEffect hNew
    exact ⟨call, hCall, hId, fun hName => ⟨room, hName ▸ hStored, rfl⟩⟩

end Voices.Gateway.Channels
