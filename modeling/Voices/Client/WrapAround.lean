import Voices.Client.Buffer
import Voices.Client.UdpTx

/-!
# Playback across the wrap of the sequence number

The sender counts modulo `2 ^ 64` from a random start; the receiver adds one to
the number of each packet that it plays and compares the numbers in the buffer
as they are.
-/

namespace Voices.Client.Play

open Semantics VoiceServer

def u64Max : UInt64 := 0xFFFFFFFFFFFFFFFF

/-- The packets of `udp_tx` in the order in which they are sent, as the receiver reads them. -/
def sent (aead : Aead Key Nonce) (key : Key) (mute : Bool) (sourceId : UInt32)
    (sequence streamTime : UInt64) (chunks : List Chunk) : List Voice :=
  (udpTx aead key mute sourceId sequence streamTime chunks).map fun use =>
    { sequence := use.voice.sequence, payload := use.voice.payload }

/-- The call does not add one to `u64::MAX`. -/
def NoOverflow (s : State) : Call → Prop
  | .tick voice =>
    if 3 ≤ s.queue.length then ∀ v ∈ s.queue.head?, v.sequence ≠ u64Max
    else voice.sequence = s.nextExpected → voice.sequence ≠ u64Max
  | .pop =>
    (∀ v ∈ s.queue.head?, v.sequence ≠ u64Max) ∧ (s.queue = [] → s.nextExpected ≠ u64Max)

/-- A packet that would skip the heap finds it empty. -/
def KeepsPlace (s : State) : Call → Prop
  | .tick voice => s.queue.length < 3 → voice.sequence = s.nextExpected → s.queue = []
  | .pop => True

/-- The packet is not the last before the wrap and keeps its place, and the counter of the
expected packet has not run up to the wrap on an empty buffer. -/
def BelowWrap (s : State) : Call → Prop
  | .tick voice => voice.sequence ≠ u64Max ∧ KeepsPlace s (.tick voice)
  | .pop => s.queue = [] → s.nextExpected ≠ u64Max

instance (s : State) (c : Call) : Decidable (BelowWrap s c) :=
  match c with
  | .tick voice => inferInstanceAs (Decidable (voice.sequence ≠ u64Max ∧
      (s.queue.length < 3 → voice.sequence = s.nextExpected → s.queue = [])))
  | .pop => inferInstanceAs (Decidable (s.queue = [] → s.nextExpected ≠ u64Max))

/-- A deadline finds a packet in the buffer. -/
def FindsPacket (s : State) : Call → Prop
  | .tick _ => True
  | .pop => s.queue ≠ []

instance (s : State) (c : Call) : Decidable (FindsPacket s c) :=
  match c with
  | .tick _ => inferInstanceAs (Decidable True)
  | .pop => inferInstanceAs (Decidable (s.queue ≠ []))

/-! ### The numbers of a stream -/

def Consecutive : UInt64 → List Voice → Prop
  | _, [] => True
  | n, v :: vs => v.sequence = n ∧ Consecutive (n + 1) vs

theorem sent_consecutive (aead : Aead Key Nonce) (key : Key) (mute : Bool) (sourceId : UInt32)
    (sequence streamTime : UInt64) (chunks : List Chunk) :
    Consecutive sequence (sent aead key mute sourceId sequence streamTime chunks) := by
  induction chunks generalizing sequence streamTime with
  | nil => trivial
  | cons chunk rest ih =>
    rw [sent, udpTx]
    split
    · exact ih sequence streamTime
    · dsimp only
      split
      · trivial
      · rename_i use hEncrypt
        obtain ⟨_, hVoice, _⟩ := VoiceServer.Voice.encrypt_eq_some hEncrypt
        refine ⟨congrArg VoiceServer.Voice.sequence hVoice, ?_⟩
        split
        · exact ih (sequence + 1) (streamTime + 960)
        · trivial

theorem Consecutive.initial {n : UInt64} {vs ws : List Voice} (h : Consecutive n ws)
    (hPrefix : vs <+: ws) : Consecutive n vs := by
  induction vs generalizing n ws with
  | nil => trivial
  | cons v vs ih =>
    obtain ⟨rest, rfl⟩ := hPrefix
    exact ⟨h.1, ih h.2 ⟨rest, rfl⟩⟩

theorem lt_add_one {n : UInt64} (h : n ≠ u64Max) : n < n + 1 := by
  have hNat : n.toNat ≠ u64Max.toNat := fun hEq => h (UInt64.toNat_inj.mp hEq)
  have hBound := n.toNat_lt
  rw [u64Max] at hNat
  rw [UInt64.lt_iff_toNat_lt, UInt64.toNat_add]
  simp only [UInt64.reduceToNat] at hNat ⊢
  omega

/-- Below the wrap a stream is ordered by its numbers. -/
theorem Consecutive.pairwise {n : UInt64} {vs : List Voice} (h : Consecutive n vs)
    (hMax : ∀ v ∈ vs, v.sequence ≠ u64Max) :
    (∀ v ∈ vs, n ≤ v.sequence) ∧ vs.Pairwise fun v w => v.sequence < w.sequence := by
  induction vs generalizing n with
  | nil => exact ⟨fun v hMem => absurd hMem List.not_mem_nil, List.Pairwise.nil⟩
  | cons v vs ih =>
    obtain ⟨rfl, hRest⟩ := h
    rw [List.forall_mem_cons] at hMax
    obtain ⟨hLe, hPairwise⟩ := ih hRest hMax.2
    have hLt : ∀ w ∈ vs, v.sequence < w.sequence :=
      fun w hMem => UInt64.lt_of_lt_of_le (lt_add_one hMax.1) (hLe w hMem)
    refine ⟨?_, List.pairwise_cons.mpr ⟨hLt, hPairwise⟩⟩
    rw [List.forall_mem_cons]
    exact ⟨UInt64.le_refl _, fun w hMem => UInt64.le_of_lt (hLt w hMem)⟩

/-! ### Order -/

/-- What is played followed by what is buffered stays the stream as long as packets keep their place. -/
theorem lineup_call_iff {s s' : State} {c : Call} {tr o : List (Option Voice)} {vs : List Voice}
    (hLast : ∀ v ∈ s.queue, ∀ w ∈ c.packets, v.sequence < w.sequence)
    (hCall : s.call c = some (s', o)) :
    emitted (tr ++ o) ++ s'.queue = vs ++ c.packets ↔
      emitted tr ++ s.queue = vs ∧ KeepsPlace s c := by
  cases c with
  | pop =>
    cases hCall
    cases hQueue : s.queue with
    | nil => simp [State.pop_of_nil hQueue, hQueue, Call.packets, KeepsPlace]
    | cons v queue => simp [State.pop_of_cons hQueue, Call.packets, KeepsPlace]
  | tick voice =>
    have hQueue : ∀ n ∈ s.queue.map Voice.sequence, n < voice.sequence := by
      intro n hMem
      obtain ⟨v, hVoice, rfl⟩ := List.mem_map.mp hMem
      exact hLast v hVoice voice (List.mem_singleton.mpr rfl)
    cases hCall
    rw [emitted_append, emitted_singleton, Call.packets]
    obtain ⟨v, queue, hCons, hFull, hTick⟩ | ⟨hShort, hReady, hTick⟩ | ⟨hShort, hReady, hTick⟩ :=
      State.tick_cases hQueue
    · have hKeeps : KeepsPlace s (.tick voice) := fun hShort => absurd hFull (Nat.not_le_of_lt hShort)
      rw [hTick, hCons]
      simp only [Option.toList_some, ← List.append_assoc, List.append_cancel_right_eq, hKeeps, and_true]
      rw [List.append_assoc, List.singleton_append]
    · rw [hTick, Option.toList_some]
      constructor
      · intro hEq
        have hNil : s.queue = [] := by
          by_contra hNe
          have hVoice : s.queue.getLast hNe = voice := by
            have hGet := congrArg List.getLast? hEq
            rw [List.getLast?_append_of_ne_nil _ hNe, List.getLast?_append_of_ne_nil _ (List.cons_ne_nil _ _),
              List.getLast?_eq_some_getLast hNe] at hGet
            exact Option.some.inj hGet
          have hLt := hLast _ (List.getLast_mem hNe) voice (List.mem_singleton.mpr rfl)
          rw [hVoice] at hLt
          exact absurd hLt (UInt64.lt_irrefl _)
        refine ⟨?_, fun _ _ => hNil⟩
        rw [hNil, List.append_nil] at hEq ⊢
        exact List.append_cancel_right hEq
      · rintro ⟨hEq, hKeeps⟩
        have hNil : s.queue = [] := hKeeps hShort hReady
        rw [hNil, List.append_nil] at hEq ⊢
        rw [hEq]
    · have hKeeps : KeepsPlace s (.tick voice) := fun _ hSequence => absurd hSequence hReady
      rw [hTick]
      simp only [Option.toList_none, List.append_nil, ← List.append_assoc,
        List.append_cancel_right_eq, hKeeps, and_true]

theorem lineup_of_run_iff {cs : List Call} {s : State} {tr : List (Option Voice)}
    (hRun : Machine.run State.call .new cs = some (s, tr))
    (hOrder : (ticked cs).Pairwise fun v w => v.sequence < w.sequence) :
    emitted tr ++ s.queue = ticked cs ↔ Machine.Along State.call KeepsPlace .new cs := by
  revert hOrder
  refine Machine.run_history (P := fun cs s tr =>
    ((ticked cs).Pairwise fun v w => v.sequence < w.sequence) →
    (emitted tr ++ s.queue = ticked cs ↔ Machine.Along State.call KeepsPlace .new cs)) ?_ ?_ hRun
  · intro _
    exact ⟨fun _ => trivial, fun _ => rfl⟩
  · intro cs s tr c s' o hFirst ih hCall hOrder
    rw [ticked_append, ticked_singleton, List.pairwise_append] at hOrder
    have hLast : ∀ v ∈ s.queue, ∀ w ∈ c.packets, v.sequence < w.sequence := by
      intro v hMem w hPacket
      refine hOrder.2.2 v ?_ w hPacket
      exact (calls_of_run hFirst).1.perm.subset (List.mem_append_right _ hMem)
    rw [Machine.along_snoc_iff hFirst, ticked_append, ticked_singleton, lineup_call_iff hLast hCall,
      ih hOrder.1]

/-! ### Additions -/

/-- A packet whose number was added to without overflow is not the last before the wrap. -/
theorem NoOverflow.emitted {s s' : State} {c : Call} {o : List (Option Voice)}
    (hFits : NoOverflow s c) (hCall : s.call c = some (s', o)) :
    ∀ v ∈ emitted o, v.sequence ≠ u64Max := by
  have hPop : (∀ v ∈ s.queue.head?, v.sequence ≠ u64Max) → ∀ v ∈ s.pop.2.toList, v.sequence ≠ u64Max := by
    intro hHead v hMem
    cases hQueue : s.queue with
    | nil =>
      rw [State.pop_of_nil hQueue] at hMem
      cases hMem
    | cons w queue =>
      rw [State.pop_of_cons hQueue] at hMem
      rw [hQueue] at hHead
      exact hHead v (Option.mem_toList.mp hMem)
  cases c with
  | pop =>
    cases hCall
    rw [emitted_singleton]
    exact hPop hFits.1
  | tick voice =>
    cases hCall
    rw [emitted_singleton, State.tick]
    rw [NoOverflow] at hFits
    split
    · rename_i hFull
      rw [if_pos hFull] at hFits
      exact hPop hFits
    · rename_i hShort
      rw [if_neg hShort] at hFits
      split
      · rename_i hReady
        intro v hMem
        rw [List.mem_singleton.mp hMem]
        exact hFits hReady
      · exact fun v hMem => absurd hMem List.not_mem_nil

theorem emitted_of_noOverflow {cs : List Call} {s : State} {tr : List (Option Voice)}
    (hRun : Machine.run State.call .new cs = some (s, tr))
    (hAlong : Machine.Along State.call NoOverflow .new cs) : ∀ v ∈ emitted tr, v.sequence ≠ u64Max := by
  refine Machine.run_induction_along (P := fun _ tr => ∀ v ∈ emitted tr, v.sequence ≠ u64Max)
    (fun v hMem => absurd hMem List.not_mem_nil) ?_ hAlong hRun
  intro s tr c s' o ih hFits hCall v hMem
  rw [emitted_append] at hMem
  exact (List.mem_append.mp hMem).elim (ih v) (hFits.emitted hCall v)

/-- A call of a run below the wrap does not overflow, and leaves no packet that would. -/
theorem BelowWrap.noOverflow {s s' : State} {c : Call} {o : List (Option Voice)}
    (hOk : BelowWrap s c) (hQueue : ∀ v ∈ s.queue, v.sequence ≠ u64Max)
    (hCall : s.call c = some (s', o)) :
    NoOverflow s c ∧ ∀ v ∈ s'.queue, v.sequence ≠ u64Max := by
  have hHead : ∀ v ∈ s.queue.head?, v.sequence ≠ u64Max :=
    fun v hMem => hQueue v (List.mem_of_mem_head? hMem)
  have hPop : ∀ v ∈ s.pop.1.queue, v.sequence ≠ u64Max := by
    intro v hMem
    cases hCons : s.queue with
    | nil =>
      rw [State.pop_of_nil hCons] at hMem
      exact hQueue v hMem
    | cons w queue =>
      rw [State.pop_of_cons hCons] at hMem
      exact hQueue v (hCons ▸ List.mem_cons_of_mem w hMem)
  cases c with
  | pop =>
    cases hCall
    exact ⟨⟨hHead, hOk⟩, hPop⟩
  | tick voice =>
    cases hCall
    have hPush : ∀ s₁ : State, (∀ v ∈ s₁.queue, v.sequence ≠ u64Max) →
        ∀ v ∈ (s₁.push voice).queue, v.sequence ≠ u64Max := by
      intro s₁ hQueue₁ v hMem
      obtain rfl | hOld := (List.mem_orderedInsert _).mp hMem
      · exact hOk.1
      · exact hQueue₁ v hOld
    rw [NoOverflow, State.tick]
    split
    · exact ⟨hHead, hPush _ hPop⟩
    · refine ⟨fun _ => hOk.1, ?_⟩
      split
      · exact hQueue
      · exact hPush s hQueue

theorem noOverflow_of_belowWrap {cs : List Call} {s : State}
    (hAlong : Machine.Along State.call BelowWrap s cs) (hQueue : ∀ v ∈ s.queue, v.sequence ≠ u64Max) :
    Machine.Along State.call NoOverflow s cs := by
  induction cs generalizing s with
  | nil => trivial
  | cons c cs ih =>
    refine ⟨?_, fun next hCall => ih (hAlong.2 next hCall) (hAlong.1.noOverflow hQueue hCall).2⟩
    cases c <;> exact (hAlong.1.noOverflow hQueue rfl).1

/-- Deadlines alone play out what is buffered, from the first packet on. -/
theorem run_pops (s : State) {k : Nat} (hLength : k ≤ s.queue.length) :
    ∃ s', Machine.run State.call s (List.replicate k .pop) = some (s', (s.queue.take k).map some) ∧
      s'.queue = s.queue.drop k ∧ Machine.Along State.call BelowWrap s (List.replicate k .pop) := by
  induction k generalizing s with
  | zero => exact ⟨s, rfl, rfl, trivial⟩
  | succ k ih =>
    obtain ⟨v, queue, hQueue⟩ := List.exists_cons_of_length_pos (Nat.lt_of_lt_of_le k.succ_pos hLength)
    have hPop : s.call .pop = some ({ queue, nextExpected := v.sequence + 1 }, [some v]) := by
      rw [State.call, State.pop_of_cons hQueue]
    rw [hQueue] at hLength ⊢
    obtain ⟨s', hRun, hRest, hAlong⟩ := ih { queue, nextExpected := v.sequence + 1 }
      (Nat.le_of_succ_le_succ hLength)
    refine ⟨s', Machine.run_cons_iff.mpr ⟨_, _, _, hPop, hRun, rfl⟩, hRest, ?_, fun next hNext => ?_⟩
    · intro hNil
      rw [hQueue] at hNil
      cases hNil
    · cases hPop.symm.trans hNext
      exact hAlong

theorem ticked_of_belowWrap {cs : List Call} {s s' : State} {tr : List (Option Voice)}
    (hRun : Machine.run State.call s cs = some (s', tr))
    (hAlong : Machine.Along State.call BelowWrap s cs) : ∀ v ∈ ticked cs, v.sequence ≠ u64Max := by
  refine Machine.run_history_along (P := fun cs _ _ => ∀ v ∈ ticked cs, v.sequence ≠ u64Max)
    (fun v hMem => absurd hMem List.not_mem_nil) ?_ hAlong hRun
  intro cs s₁ tr₁ c s₂ o _ ih hOk _ v hMem
  rw [ticked_append, ticked_singleton] at hMem
  refine (List.mem_append.mp hMem).elim (ih v) fun hNew => ?_
  cases c with
  | pop => cases hNew
  | tick voice =>
    rw [List.mem_singleton.mp hNew]
    exact hOk.1

theorem belowWrap_of_noOverflow {cs : List Call} {s : State}
    (hFits : Machine.Along State.call NoOverflow s cs) (hKeeps : Machine.Along State.call KeepsPlace s cs)
    (hMax : ∀ v ∈ ticked cs, v.sequence ≠ u64Max) : Machine.Along State.call BelowWrap s cs := by
  induction cs generalizing s with
  | nil => trivial
  | cons c cs ih =>
    rw [← List.singleton_append, ticked_append, ticked_singleton, List.forall_mem_append] at hMax
    refine ⟨?_, fun next hCall => ih (hFits.2 next hCall) (hKeeps.2 next hCall) hMax.2⟩
    cases c with
    | pop => exact hFits.1.2
    | tick voice => exact ⟨hMax.1 voice (List.mem_singleton.mpr rfl), hKeeps.1⟩

@[simp] theorem ticked_pops (k : Nat) : ticked (List.replicate k .pop) = [] := by
  induction k with
  | zero => rfl
  | succ k ih => rwa [List.replicate_succ, ← List.singleton_append, ticked_append]

/-- What arrives of a stream without loss and in order is played in that order and
without overflow, as far as deadlines find packets, exactly when the stream stays
below the wrap, no packet skips another, and the counter did not run up to the
wrap before. -/
theorem playsSent_iff {aead : Aead Key Nonce} {key : Key} {mute : Bool} {sourceId : UInt32} {sequence streamTime : UInt64}
    {chunks : List Chunk} {cs : List Call} {s : State} {tr : List (Option Voice)}
    (hSent : ticked cs <+: sent aead key mute sourceId sequence streamTime chunks)
    (hRun : Machine.run State.call .new cs = some (s, tr)) :
    (∀ k ≤ s.queue.length, ∀ s' tr',
        Machine.run State.call .new (cs ++ List.replicate k .pop) = some (s', tr') →
        Machine.Along State.call NoOverflow .new (cs ++ List.replicate k .pop) ∧
          emitted tr' <+: sent aead key mute sourceId sequence streamTime chunks) ↔
      Machine.Along State.call BelowWrap .new cs := by
  have hOrder : (∀ v ∈ ticked cs, v.sequence ≠ u64Max) →
      (ticked cs).Pairwise fun v w => v.sequence < w.sequence :=
    fun hMax => (((sent_consecutive _ _ _ _ _ _ _).initial hSent).pairwise hMax).2
  constructor
  · intro hPlays
    obtain ⟨s', hPops, hRest, _⟩ := run_pops s (Nat.le_refl _)
    have hAll := Machine.run_append_iff.mpr ⟨s, tr, _, hRun, hPops, rfl⟩
    obtain ⟨hFits, hPrefix⟩ := hPlays _ (Nat.le_refl _) s' _ hAll
    have hPerm := (calls_of_run hAll).1.perm
    rw [hRest, List.drop_length, List.append_nil, ticked_append, ticked_pops, List.append_nil] at hPerm
    have hMax : ∀ v ∈ ticked cs, v.sequence ≠ u64Max :=
      fun v hMem => emitted_of_noOverflow hAll hFits v (hPerm.mem_iff.mpr hMem)
    have hEq : emitted (tr ++ (s.queue.take s.queue.length).map some) = ticked cs :=
      (List.prefix_of_prefix_length_le hPrefix hSent hPerm.length_eq.le).eq_of_length hPerm.length_eq
    have hKeeps : Machine.Along State.call KeepsPlace .new
        (cs ++ List.replicate s.queue.length Call.pop) := by
      rw [← lineup_of_run_iff hAll (by simpa using hOrder hMax), hRest, hEq]
      simp
    exact belowWrap_of_noOverflow hFits.init hKeeps.init hMax
  · intro hAlong k hLength s' tr' hAll
    obtain ⟨s₁, tr₁, tr₂, hRun', hPops', rfl⟩ := Machine.run_append_iff.mp hAll
    cases hRun.symm.trans hRun'
    obtain ⟨s₂, hPops, hRest, hBelow⟩ := run_pops s hLength
    have hBelowAll := (Machine.along_append_iff hRun).mpr ⟨hAlong, hBelow⟩
    refine ⟨noOverflow_of_belowWrap hBelowAll fun v hMem => absurd hMem List.not_mem_nil, ?_⟩
    have hKeeps : Machine.Along State.call KeepsPlace .new (cs ++ List.replicate k Call.pop) := by
      refine hBelowAll.mono fun s c hOk => ?_
      cases c with
      | pop => trivial
      | tick voice => exact hOk.2
    have hEq := (lineup_of_run_iff hAll (by simpa using hOrder (ticked_of_belowWrap hRun hAlong))).mpr hKeeps
    rw [ticked_append, ticked_pops, List.append_nil] at hEq
    exact (hEq ▸ List.prefix_append _ _).trans hSent

/-- A stream from `u64::MAX - 2` on fills the heap, and packet 0 comes first in it. -/
def acrossWrap : List Call :=
  [.tick ⟨u64Max - 2, [1]⟩, .tick ⟨u64Max - 1, [2]⟩, .tick ⟨u64Max, [3]⟩, .tick ⟨0, [4]⟩, .pop, .pop, .pop]

theorem not_playsSent :
    ¬ ∀ (aead : Aead Key Nonce) (key : Key) (mute : Bool) (sourceId : UInt32)
      (sequence streamTime : UInt64) (chunks : List Chunk) (cs : List Call) (s : State)
      (tr : List (Option Voice)), aead.Lawful →
      ticked cs <+: sent aead key mute sourceId sequence streamTime chunks →
      Machine.run State.call .new cs = some (s, tr) →
      (∀ cs₁ cs₂ s₁ tr₁, cs = cs₁ ++ .pop :: cs₂ →
        Machine.run State.call .new cs₁ = some (s₁, tr₁) → emitted tr₁ ≠ [] → s₁.queue ≠ []) →
      Machine.Along State.call NoOverflow .new cs ∧
        emitted tr <+: sent aead key mute sourceId sequence streamTime chunks := by
  intro h
  let chunks : List Chunk := [⟨[1], true⟩, ⟨[2], true⟩, ⟨[3], true⟩, ⟨[4], true⟩]
  have hRun : Machine.run State.call .new acrossWrap = some (_, _) := rfl
  have hFound : Machine.Along State.call FindsPacket .new acrossWrap := by decide
  have hOrder := (h tagged [] false 0 (u64Max - 2) 0 chunks acrossWrap _ _ tagged_lawful (by decide) hRun ?_).2
  · exact absurd hOrder (by decide)
  · intro cs₁ cs₂ s₁ tr₁ hEq hFirst _
    rw [hEq, ← List.singleton_append, ← List.append_assoc] at hFound
    exact hFound.init.last hFirst

/-- A short stream far from the wrap, with a deadline that finds a packet. -/
theorem playsSent_of_short :
    ∃ s tr, Machine.run State.call .new [.tick ⟨6, [1]⟩, .pop, .tick ⟨7, [2]⟩] = some (s, tr) ∧
      ∀ k ≤ s.queue.length, ∀ s' tr',
        Machine.run State.call .new ([.tick ⟨6, [1]⟩, .pop, .tick ⟨7, [2]⟩] ++ List.replicate k .pop) =
          some (s', tr') →
        Machine.Along State.call NoOverflow .new
            ([.tick ⟨6, [1]⟩, .pop, .tick ⟨7, [2]⟩] ++ List.replicate k .pop) ∧
          emitted tr' <+: sent tagged [1] false 3 6 0 [⟨[1], true⟩, ⟨[2], true⟩] := by
  have hRun : Machine.run State.call .new [.tick ⟨6, [1]⟩, .pop, .tick ⟨7, [2]⟩] = some (_, _) := rfl
  exact ⟨_, _, hRun, (playsSent_iff (by decide) hRun).mpr (by decide)⟩

end Voices.Client.Play
