import Voices.Call.Sound

/-!
# Who hears what

However the network treats the datagrams and whatever strangers send: what a client hears, another
client said, word for word. A client stops receiving only where its own code gives up: on an answer to
a discovery request that comes late, and on voice of a stream that has ended. This is so of a lawful
cipher when no two tasks of the channel have the same source id, and when the text of a client's
address is parsed to it.
-/

namespace Voices.Call

open Semantics VoiceServer Client.Udp

namespace Talk

section Moves

variable {w : World} {tr : List Output} {s : Talk} {i : Nat} {c c' : Caller} {e : Caller.Event}
  {o : List Caller.Output}

theorem moved_caller {β : Type*} (f : Caller → β) (hCaller : s.callers[i]? = some c) (hSame : f c' = f c)
    {k : Nat} {d : Caller} (h : s.callers[k]? = some d) :
    ∃ d', (s.moved i c' o).callers[k]? = some d' ∧ f d' = f d := by
  by_cases hEq : k = i
  · subst hEq
    cases hCaller.symm.trans h
    exact ⟨c', getElem?_set_here hCaller, hSame⟩
  · exact ⟨d, getElem?_set_there hCaller hEq h, rfl⟩

theorem caller_of_moved (hCaller : s.callers[i]? = some c) (hAddr : c'.addr = c.addr) {k : Nat} {d' : Caller}
    (h : (s.moved i c' o).callers[k]? = some d') : ∃ d, s.callers[k]? = some d ∧ d'.addr = d.addr := by
  rcases (getElem?_set_iff hCaller).mp h with ⟨rfl, rfl⟩ | ⟨_, hOld⟩
  · exact ⟨c, hCaller, hAddr⟩
  · exact ⟨d', hOld, rfl⟩

theorem facts_le_moved (hCaller : s.callers[i]? = some c) (hAddr : c'.addr = c.addr)
    (hAnnounced : c.announced = true → c'.announced = true) (o : List Caller.Output) (tr o' : List Output) :
    (s.facts tr).Le ((s.moved i c' o).facts (tr ++ o')) := by
  refine ⟨?_, fun _ h => h, fun _ _ h => List.mem_append_left o' h, ?_⟩
  · rintro voice ⟨k, hSaid⟩
    exact ⟨k, List.mem_append_left o' hSaid⟩
  · rintro addr ⟨d, hMem, hEq, hDone⟩
    obtain ⟨k, hFound⟩ := List.mem_iff_getElem?.mp hMem
    by_cases hSame : k = i
    · subst hSame
      cases hCaller.symm.trans hFound
      exact ⟨c', List.mem_of_getElem? (getElem?_set_here hCaller), hAddr.trans hEq, hAnnounced hDone⟩
    · exact ⟨d, List.mem_of_getElem? (getElem?_set_there hCaller hSame hFound), hEq, hDone⟩

theorem Sound.moved (h : Sound w tr s) (hLawful : w.aead.Lawful)
    (hParses : s.Parses w) (hCaller : s.callers[i]? = some c)
    (hEffect : Caller.Effect s.channel.now c e c' o) (hAllows : s.Allows c e) :
    Sound w (tr ++ o.filterMap (Output.ofCaller? i)) (s.moved i c' o) := by
  have hMem : c ∈ s.callers := List.mem_of_getElem? hCaller
  obtain ⟨hAddr, _, hAnnounced⟩ := effect_same hEffect
  have hLe := facts_le_moved hCaller hAddr hAnnounced o tr (o.filterMap (Output.ofCaller? i))
  have hSame : TasksEffect w.env s.channel s.channel := .kept rfl
  refine ⟨h.wf, h.authentic.mono hLe, ?_, ?_, ?_, ?_, ?_, ?_, ?_, ?_, ?_⟩
  · intro sender bytes msg hUp hDecode
    rcases mem_up hUp with hOld | ⟨_, hSent⟩
    · exact (h.up sender bytes msg hOld hDecode).later hSame hLe
    · refine h.sent_step hMem hEffect hSent hDecode (fun voice hSaid => ⟨i, ?_⟩) rfl
      exact List.mem_append_right tr (List.mem_filterMap.mpr ⟨.said voice, hSaid, rfl⟩)
  · intro addr bytes hDown
    obtain ⟨message, hRecv, hSends⟩ := h.down addr bytes hDown
    exact ⟨message, hRecv, hSends.later hSame hLe⟩
  · intro clientId addr response hAnswer
    exact (h.answers clientId addr response hAnswer).later hSame hLe
  · intro d hFound
    rcases List.mem_or_eq_of_mem_set hFound with hOld | rfl
    · exact (h.known d hOld).later hSame hLe
    · exact (h.known_step hLawful hParses hMem hEffect hAllows).later hSame hLe
  · intro j k d d' hFirst hSecond hEq
    obtain ⟨old, hOld, hOldAddr⟩ := caller_of_moved hCaller hAddr hFirst
    obtain ⟨old', hOld', hOldAddr'⟩ := caller_of_moved hCaller hAddr hSecond
    exact h.distinct j k old old' hOld hOld' (by rw [← hOldAddr, ← hOldAddr', hEq])
  · intro addr t hAsked
    rcases List.mem_append.mp hAsked with hOld | hNew
    · exact hLe.announced addr (h.announced addr t hOld)
    · exact absurd hNew asked_not_mem
  · intro addr t t' hAsked hAsked'
    rcases List.mem_append.mp hAsked with hOld | hNew
    · rcases List.mem_append.mp hAsked' with hOld' | hNew'
      · exact h.once addr t t' hOld hOld'
      · exact absurd hNew' asked_not_mem
    · exact absurd hNew asked_not_mem
  · intro k voice hSaid
    rcases List.mem_append.mp hSaid with hOld | hNew
    · obtain ⟨d, key, hFound, hGrants⟩ := h.said k voice hOld
      obtain ⟨d', hFound', hEq⟩ := moved_caller (o := o) Caller.addr hCaller hAddr hFound
      exact ⟨d', key, hFound', hEq ▸ hGrants.later hSame hLe⟩
    · obtain ⟨rfl, hNow⟩ := said_mem hNew
      obtain ⟨hRunning, hSource⟩ := effect_said hEffect hNow
      refine ⟨c', c.config.key, getElem?_set_here hCaller, ?_⟩
      rw [hAddr, hSource]
      exact ((h.known c hMem).running hRunning).later hSame hLe
  · intro k voice hHeard
    rcases List.mem_append.mp hHeard with hOld | hNew
    · obtain ⟨hSaid, d, response, hFound, hGrants, hOther⟩ := h.heard k voice hOld
      obtain ⟨d', hFound', hEq⟩ := moved_caller (o := o) Caller.addr hCaller hAddr hFound
      exact ⟨hLe.said voice hSaid, d', response, hFound', hEq ▸ hGrants.later hSame hLe, hOther⟩
    · obtain ⟨rfl, hNow⟩ := heard_mem hNew
      obtain ⟨hSaid, hRunning, hOther⟩ := h.heard_step hLawful hMem hEffect hAllows hNow
      refine ⟨hLe.said voice hSaid, c', ⟨c.config.key, c.config.sourceId⟩, getElem?_set_here hCaller, ?_,
        hOther⟩
      rw [hAddr]
      exact ((h.known c hMem).running hRunning).later hSame hLe

end Moves

section Serves

variable {w : World} {tr : List Output} {s : Talk} {e : VoiceServer.Event} {channel : VoiceChannel}
  {o : List VoiceServer.Output}

theorem facts_le_served (hEffect : VoiceServer.Effect w.env s.channel e channel o) (tr o' : List Output) :
    (s.facts tr).Le ((s.served channel o).facts (tr ++ o')) := by
  refine ⟨?_, ?_, fun _ _ hAsked => List.mem_append_left o' hAsked, fun _ hAnnounced => hAnnounced⟩
  · rintro voice ⟨k, hSaid⟩
    exact ⟨k, List.mem_append_left o' hSaid⟩
  · intro seq hPinged
    exact Nat.le_trans hPinged (VoiceChannel.now_le hEffect)

theorem Sound.served (h : Sound w tr s) (hLawful : w.aead.Lawful)
    (hStep : s.channel.step w.env e = some (channel, o)) (hDistinct : channel.Distinct)
    (hExpected : s.channel.Expected w.env (s.facts tr) e) {o' : List Output}
    (hNew : ∀ out ∈ o', ∃ addr t, out = .asked addr t ∧ (s.facts tr).announced addr ∧
      (∀ t', .asked addr t' ∉ tr) ∧ ∀ t', .asked addr t' ∈ o' → t' = t)
    (hAwait : ∀ clientId addr t, channel.await = .control (.establish clientId addr) t →
      .asked addr t ∈ tr ++ o') : Sound w (tr ++ o') (s.served channel o) := by
  have hEffect := VoiceChannel.step_effect hStep
  have hTasks : TasksEffect w.env s.channel channel := hEffect.tasks
  have hLe := facts_le_served hEffect tr o'
  have hOnly {out : Output} (hMem : out ∈ o') : ∃ addr t, out = .asked addr t := by
    obtain ⟨addr, t, hEq, _⟩ := hNew out hMem
    exact ⟨addr, t, hEq⟩
  refine ⟨h.wf.step hEffect, ?_, ?_, ?_, ?_, ?_, h.distinct, ?_, ?_, ?_, ?_⟩
  · exact h.authentic.step h.wf hLawful hDistinct hLe hExpected hStep hAwait
  · intro sender bytes msg hUp hDecode
    exact (h.up sender bytes msg hUp hDecode).later hTasks hLe
  · intro addr bytes hDown
    rcases List.mem_append.mp hDown with hOld | hSent
    · obtain ⟨message, hRecv, hSends⟩ := h.down addr bytes hOld
      exact ⟨message, hRecv, hSends.later hTasks hLe⟩
    · obtain ⟨out, hMem, hOut⟩ := List.mem_filterMap.mp hSent
      obtain ⟨message, hMessage, hRecv⟩ := recv_datagram hOut
      have hSends := (h.authentic.outputs hStep hMem).1 addr message (sent?_eq_some hMessage)
      exact ⟨message, hRecv, hSends.later hTasks hLe⟩
  · intro clientId addr response hAnswers
    rcases List.mem_append.mp hAnswers with hOld | hAnswer
    · exact (h.answers clientId addr response hOld).later hTasks hLe
    · obtain ⟨out, hMem, hOut⟩ := List.mem_filterMap.mp hAnswer
      have hGrants := (h.authentic.outputs hStep hMem).2 clientId addr response (answer?_eq_some hOut)
      exact hGrants.later hTasks hLe
  · intro c hMem
    exact (h.known c hMem).later hTasks hLe
  · intro addr t hAsked
    rcases List.mem_append.mp hAsked with hOld | hMem
    · exact h.announced addr t hOld
    · obtain ⟨addr', t', hEq, hAnnounced, _⟩ := hNew _ hMem
      cases hEq
      exact hAnnounced
  · intro addr t t' hAsked hAsked'
    rcases List.mem_append.mp hAsked with hOld | hMem
    · rcases List.mem_append.mp hAsked' with hOld' | hMem'
      · exact h.once addr t t' hOld hOld'
      · obtain ⟨_, _, hEq, _, hFresh, _⟩ := hNew _ hMem'
        cases hEq
        exact absurd hOld (hFresh t)
    · obtain ⟨_, _, hEq, _, hFresh, hSame⟩ := hNew _ hMem
      cases hEq
      rcases List.mem_append.mp hAsked' with hOld' | hMem'
      · exact absurd hOld' (hFresh t')
      · exact (hSame t' hMem').symm
  · intro k voice hSaid
    rcases List.mem_append.mp hSaid with hOld | hMem
    · obtain ⟨c, key, hFound, hGrants⟩ := h.said k voice hOld
      exact ⟨c, key, hFound, hGrants.later hTasks hLe⟩
    · obtain ⟨_, _, hEq⟩ := hOnly hMem
      cases hEq
  · intro k voice hHeard
    rcases List.mem_append.mp hHeard with hOld | hMem
    · obtain ⟨hSaid, c, response, hFound, hGrants, hOther⟩ := h.heard k voice hOld
      exact ⟨hLe.said voice hSaid, c, response, hFound, hGrants.later hTasks hLe, hOther⟩
    · obtain ⟨_, _, hEq⟩ := hOnly hMem
      cases hEq

theorem Sound.expected (h : Sound w tr s) (hAdmits : s.admits e = true) :
    s.channel.Expected w.env (s.facts tr) e := by
  cases e with
  | datagram sender bytes sendOk =>
    intro msg hDecode
    rcases Bool.or_eq_true_iff.mp hAdmits with hUp | hStranger
    · exact .inl (h.up sender bytes msg (of_decide_eq_true hUp) hDecode)
    · refine .inr ?_
      rintro addr ⟨c, hMem, rfl, _⟩
      simpa using List.all_eq_true.mp hStranger c hMem
  | control ctl draw =>
    cases ctl with
    | establish => cases hAdmits
    | _ => trivial
  | _ => trivial

/-- An event of the channel alone makes it ask no task to talk to a client. -/
theorem Sound.admitted (h : Sound w tr s) (hLawful : w.aead.Lawful) (hAdmits : s.admits e = true)
    (hStep : s.channel.step w.env e = some (channel, o)) (hDistinct : channel.Distinct) :
    Sound w tr (s.served channel o) := by
  rw [← List.append_nil tr]
  refine h.served hLawful hStep hDistinct (h.expected hAdmits) (List.forall_mem_nil _) ?_
  intro clientId addr t hAwait
  rw [List.append_nil]
  rcases VoiceChannel.control_await hStep hAwait with hWas | ⟨_, ⟨draw, rfl⟩, _⟩
  · exact h.authentic.waits clientId addr t hWas
  · cases hAdmits

end Serves

section Runs

variable {w : World} {tr : List Output} {s s' : Talk} {o : List Output}

theorem Sound.new (w : World) (roomId : Uuid) (now : Nat) : Sound w [] (new roomId now) where
  wf := VoiceChannel.new_wf roomId now
  authentic := VoiceChannel.new_authentic _ _ roomId now
  up _ _ _ hMem := by cases hMem
  down _ _ hMem := by cases hMem
  answers _ _ _ hMem := by cases hMem
  known _ hMem := by cases hMem
  distinct _ _ _ _ hFound := by cases hFound
  announced _ _ hMem := by cases hMem
  once _ _ _ hMem := by cases hMem
  said _ _ hMem := by cases hMem
  heard _ _ hMem := by cases hMem

theorem facts_le_joined (s : Talk) (tr : List Output) (c : Caller) :
    (s.facts tr).Le ((s.joined c).facts tr) := by
  refine ⟨fun _ hSaid => hSaid, fun _ hPinged => hPinged, fun _ _ hAsked => hAsked, ?_⟩
  rintro addr ⟨d, hMem, hAddr⟩
  exact ⟨d, List.mem_append_left _ hMem, hAddr⟩

theorem Sound.joined (h : Sound w tr s) {addr : SocketAddr}
    (hNone : ∀ c ∈ s.callers, sameAddr c.addr addr = false) (clientId : Uuid) (sourceId : UInt32) :
    Sound w tr (s.joined (.new w.aead w.parse addr clientId sourceId)) := by
  have hSame : TasksEffect w.env s.channel s.channel := .kept rfl
  have hLe := facts_le_joined s tr (.new w.aead w.parse addr clientId sourceId)
  have hOther {c : Caller} (hMem : c ∈ s.callers) : c.addr ≠ addr := by
    rintro rfl
    cases (hNone c hMem).symm.trans (sameAddr_self c.addr)
  have hOld {k : Nat} {c : Caller} (hFound : s.callers[k]? = some c) :
      (s.callers ++ [.new w.aead w.parse addr clientId sourceId])[k]? = some c :=
    getElem?_snoc_iff.mpr (.inl hFound)
  refine ⟨h.wf, h.authentic.mono hLe, ?_, ?_, ?_, ?_, ?_, ?_, h.once, ?_, ?_⟩
  · intro sender bytes msg hUp hDecode
    exact (h.up sender bytes msg hUp hDecode).later hSame hLe
  · intro a bytes hDown
    obtain ⟨message, hRecv, hSends⟩ := h.down a bytes hDown
    exact ⟨message, hRecv, hSends.later hSame hLe⟩
  · intro clientId' a response hAnswer
    exact (h.answers clientId' a response hAnswer).later hSame hLe
  · intro c hMem
    rcases List.mem_append.mp hMem with hMem | hMem
    · exact (h.known c hMem).later hSame hLe
    · obtain rfl := List.mem_singleton.mp hMem
      exact ⟨rfl, rfl, by simp [Caller.new], by simp [Caller.new],
        by simp [Caller.running, Caller.new, Phase.isReceiving]⟩
  · intro j k c d hFirst hSecond hEq
    rcases getElem?_snoc_iff.mp hFirst with hFirst | ⟨rfl, rfl⟩
    · rcases getElem?_snoc_iff.mp hSecond with hSecond | ⟨rfl, rfl⟩
      · exact h.distinct j k c d hFirst hSecond hEq
      · exact absurd hEq (hOther (List.mem_of_getElem? hFirst))
    · rcases getElem?_snoc_iff.mp hSecond with hSecond | ⟨rfl, rfl⟩
      · exact absurd hEq.symm (hOther (List.mem_of_getElem? hSecond))
      · rfl
  · intro a t hAsked
    exact hLe.announced a (h.announced a t hAsked)
  · intro k voice hSaid
    obtain ⟨c, key, hFound, hGrants⟩ := h.said k voice hSaid
    exact ⟨c, key, hOld hFound, hGrants.later hSame hLe⟩
  · intro k voice hHeard
    obtain ⟨hSaid, c, response, hFound, hGrants, hEq⟩ := h.heard k voice hHeard
    exact ⟨hLe.said voice hSaid, c, response, hOld hFound, hGrants.later hSame hLe, hEq⟩

theorem mem_asked {channel : VoiceChannel} {addr : SocketAddr} {out : Output}
    (h : out ∈ asked channel addr) : ∃ ctl t, channel.await = .control ctl t ∧ out = .asked addr t := by
  unfold asked at h
  split at h
  · rename_i ctl t hAwait
    exact ⟨ctl, t, hAwait, List.mem_singleton.mp h⟩
  · cases h

theorem Sound.announced_step (h : Sound w tr s) (hLawful : w.aead.Lawful) (hParses : s.Parses w) {i : Nat}
    {c : Caller} {draw : Draw} {addr : SocketAddr} {channel : VoiceChannel} {o : List VoiceServer.Output}
    (hCaller : s.callers[i]? = some c) (hPhase : c.phase = .discovered addr) (hNew : c.announced = false)
    (hStep : s.channel.step w.env (.control (.establish c.clientId addr) draw) = some (channel, o))
    (hDistinct : channel.Distinct) :
    Sound w (tr ++ asked channel addr) ((s.moved i { c with announced := true } []).served channel o) := by
  obtain rfl := (h.known c (List.mem_of_getElem? hCaller)).discovered addr hPhase
  have hMoved := h.moved hLawful hParses hCaller (.announced c.addr hPhase hNew) (.inl rfl)
  rw [List.filterMap_nil, List.append_nil] at hMoved
  have hAnnounced : ((s.moved i { c with announced := true } []).facts tr).announced c.addr :=
    ⟨_, List.mem_of_getElem? (getElem?_set_here hCaller), rfl, rfl⟩
  have hFresh (t : TaskId) : .asked c.addr t ∉ tr := by
    intro hAsked
    obtain ⟨d, hMem, hAddr, hDone⟩ := h.announced c.addr t hAsked
    obtain ⟨j, hFound⟩ := List.mem_iff_getElem?.mp hMem
    obtain rfl := h.distinct j i d c hFound hCaller hAddr
    cases hFound.symm.trans hCaller
    cases hNew.symm.trans hDone
  refine hMoved.served hLawful hStep hDistinct hAnnounced ?_ ?_
  · intro out hMem
    obtain ⟨ctl, t, hAwait, rfl⟩ := mem_asked hMem
    refine ⟨c.addr, t, rfl, hAnnounced, hFresh, ?_⟩
    intro t' hMem'
    obtain ⟨ctl', t'', hAwait', hEq⟩ := mem_asked hMem'
    cases hEq
    cases hAwait.symm.trans hAwait'
    rfl
  · intro clientId addr t hAwait
    rcases VoiceChannel.control_await hStep hAwait with hWas | ⟨_, ⟨draw', hEvent⟩, _⟩
    · exact List.mem_append_left _ (h.authentic.waits clientId addr t hWas)
    · cases hEvent
      refine List.mem_append_right _ ?_
      simp only [asked, hAwait, List.mem_singleton]

theorem parses_of_set {i : Nat} {c c' : Caller} (hCaller : s.callers[i]? = some c)
    (hAddr : c'.addr = c.addr)
    (hParses : ∀ d ∈ s.callers.set i c', w.parse d.addr.ip.toString = some d.addr.ip) : s.Parses w := by
  intro d hMem
  obtain ⟨k, hFound⟩ := List.mem_iff_getElem?.mp hMem
  obtain ⟨d', hFound', hEq⟩ := moved_caller (o := []) Caller.addr hCaller hAddr hFound
  rw [← hEq]
  exact hParses d' (List.mem_of_getElem? hFound')

theorem Effect.tasks {e : Event} (hEffect : Effect w s e s' o) : TasksEffect w.env s.channel s'.channel := by
  cases hEffect with
  | joined | moved => exact .kept rfl
  | announced i draw c addr channel o hCaller hPhase hNew hStep => exact (VoiceChannel.step_effect hStep).tasks
  | served e channel o hAdmits hStep => exact (VoiceChannel.step_effect hStep).tasks

theorem Effect.facts_le {e : Event} (hEffect : Effect w s e s' o) (tr : List Output) :
    (s.facts tr).Le (s'.facts (tr ++ o)) := by
  cases hEffect with
  | joined addr clientId sourceId hNone =>
    rw [List.append_nil]
    exact facts_le_joined s tr _
  | moved i e c c' o hCaller hAllows hEffect =>
    obtain ⟨hAddr, _, hAnnounced⟩ := effect_same hEffect
    exact facts_le_moved hCaller hAddr hAnnounced o tr _
  | announced i draw c addr channel o hCaller hPhase hNew hStep =>
    have hMoved := facts_le_moved hCaller (announced_addr c) (fun _ => rfl) [] tr []
    rw [List.append_nil] at hMoved
    have hServed := facts_le_served (s := s.moved i { c with announced := true } [])
      (VoiceChannel.step_effect hStep) tr (asked channel addr)
    exact hMoved.trans hServed
  | served e channel o hAdmits hStep => exact facts_le_served (VoiceChannel.step_effect hStep) tr []

/-- What is assumed of the state that a run reaches holds of the states before. -/
theorem Effect.before {e : Event} (hEffect : Effect w s e s' o) (hDistinct : s'.channel.Distinct)
    (hParses : s'.Parses w) : s.channel.Distinct ∧ s.Parses w := by
  cases hEffect with
  | joined addr clientId sourceId hNone =>
    exact ⟨hDistinct, fun c hMem => hParses c (List.mem_append_left _ hMem)⟩
  | moved i e c c' o hCaller hAllows hEffect =>
    exact ⟨hDistinct, parses_of_set hCaller (effect_same hEffect).1 hParses⟩
  | announced i draw c addr channel o hCaller hPhase hNew hStep =>
    exact ⟨hDistinct.before (VoiceChannel.step_effect hStep).tasks, parses_of_set hCaller (announced_addr c) hParses⟩
  | served e channel o hAdmits hStep =>
    exact ⟨hDistinct.before (VoiceChannel.step_effect hStep).tasks, hParses⟩

theorem Sound.step (h : Sound w tr s) (hLawful : w.aead.Lawful) (hParses : s.Parses w) {e : Event}
    (hEffect : Effect w s e s' o) (hDistinct : s'.channel.Distinct) : Sound w (tr ++ o) s' := by
  cases hEffect with
  | joined addr clientId sourceId hNone =>
    rw [List.append_nil]
    exact h.joined hNone clientId sourceId
  | moved i e c c' o hCaller hAllows hEffect =>
    exact h.moved hLawful hParses hCaller hEffect (.inr hAllows)
  | announced i draw c addr channel o hCaller hPhase hNew hStep =>
    exact h.announced_step hLawful hParses hCaller hPhase hNew hStep hDistinct
  | served e channel o hAdmits hStep =>
    rw [List.append_nil]
    exact h.admitted hLawful hAdmits hStep hDistinct

theorem sound (hLawful : w.aead.Lawful) {roomId : Uuid} {now : Nat} {es : List Event}
    (hRun : Machine.run (Talk.step w) (Talk.new roomId now) es = some (s, tr))
    (hDistinct : s.channel.Distinct) (hParses : s.Parses w) : Sound w tr s := by
  refine Machine.run_induction (P := fun s tr => s.channel.Distinct → s.Parses w → Sound w tr s) ?_ ?_
    hRun hDistinct hParses
  · exact fun _ _ => .new w roomId now
  · intro s₁ tr₁ e s₂ o hSound hStep hDistinct₂ hParses₂
    have hEffect := step_effect hStep
    obtain ⟨hDistinct₁, hParses₁⟩ := hEffect.before hDistinct₂ hParses₂
    exact (hSound hDistinct₁ hParses₁).step hLawful hParses₁ hEffect hDistinct₂

/-- Some step of the run hands client `i` a message that it does not expect. -/
def Provoked (w : World) (init : Talk) (es : List Event) (i : Nat) : Prop :=
  ∃ es₁ datagram es₂ s tr c, es = es₁ ++ .caller i (.recv datagram) :: es₂ ∧
    Machine.run (Talk.step w) init es₁ = some (s, tr) ∧ s.callers[i]? = some c ∧ c.Unexpected datagram

theorem Provoked.later {init : Talk} {es : List Event} {i : Nat} (h : Provoked w init es i) (e : Event) :
    Provoked w init (es ++ [e]) i := by
  obtain ⟨es₁, datagram, es₂, s, tr, c, rfl, hRest⟩ := h
  exact ⟨es₁, datagram, es₂ ++ [e], s, tr, c, by simp, hRest⟩

theorem Effect.panicked {e : Event} (hEffect : Effect w s e s' o) (h : Sound w tr s) {i : Nat} {c' : Caller}
    (hCaller : s'.callers[i]? = some c') (hPanicked : c'.phase = .panicked) :
    ∃ c, s.callers[i]? = some c ∧
      (c.phase = .panicked ∨ ∃ datagram, e = .caller i (.recv datagram) ∧ c.Unexpected datagram) := by
  cases hEffect with
  | joined addr clientId sourceId hNone =>
    rcases getElem?_snoc_iff.mp hCaller with hOld | ⟨_, rfl⟩
    · exact ⟨c', hOld, .inl hPanicked⟩
    · cases hPanicked
  | moved j e c d o hMoved hAllows hEffect =>
    rcases (getElem?_set_iff hMoved).mp hCaller with ⟨rfl, rfl⟩ | ⟨_, hOld⟩
    · refine ⟨c, hMoved, ?_⟩
      rcases h.panicked_step hEffect (.inr hAllows) hPanicked with
        hWas | ⟨datagram, rfl, hUnexpected⟩
      · exact .inl hWas
      · exact .inr ⟨datagram, rfl, hUnexpected⟩
    · exact ⟨c', hOld, .inl hPanicked⟩
  | announced j draw c addr channel o hMoved hPhase hNew hStep =>
    rcases (getElem?_set_iff hMoved).mp hCaller with ⟨rfl, rfl⟩ | ⟨_, hOld⟩
    · exact ⟨c, hMoved, .inl hPanicked⟩
    · exact ⟨c', hOld, .inl hPanicked⟩
  | served e channel o hAdmits hStep => exact ⟨c', hCaller, .inl hPanicked⟩

theorem provoked (hLawful : w.aead.Lawful) {roomId : Uuid} {now : Nat} {es : List Event}
    (hRun : Machine.run (Talk.step w) (Talk.new roomId now) es = some (s, tr))
    (hDistinct : s.channel.Distinct) (hParses : s.Parses w) {i : Nat} {c : Caller}
    (hCaller : s.callers[i]? = some c) (hPanicked : c.phase = .panicked) :
    Provoked w (Talk.new roomId now) es i := by
  refine Machine.run_history (P := fun es s _ => s.channel.Distinct → s.Parses w → ∀ i c,
    s.callers[i]? = some c → c.phase = .panicked → Provoked w (Talk.new roomId now) es i) ?_ ?_
    hRun hDistinct hParses i c hCaller hPanicked
  · intro _ _ i c hNone
    cases hNone
  · intro es₁ s₁ tr₁ e s₂ o hRun₁ hBefore hStep hDistinct₂ hParses₂ i c' hCaller' hPanicked'
    have hEffect := step_effect hStep
    obtain ⟨hDistinct₁, hParses₁⟩ := hEffect.before hDistinct₂ hParses₂
    obtain ⟨c₁, hCaller₁, hWas | ⟨datagram, rfl, hUnexpected⟩⟩ :=
      hEffect.panicked (sound hLawful hRun₁ hDistinct₁ hParses₁) hCaller' hPanicked'
    · exact (hBefore hDistinct₁ hParses₁ i c₁ hCaller₁ hWas).later e
    · exact ⟨es₁, datagram, [], s₁, tr₁, c₁, rfl, hRun₁, hCaller₁, hUnexpected⟩

end Runs

end Talk

/-- What a client hears, another client said, word for word. No client stops receiving because of an
error in what it is sent, one that has panicked was handed a message that it does not expect, and each
discovers its own address. Voice that waits for a task is decrypted to what a client said. -/
theorem heard_was_said (w : World) (hLawful : w.aead.Lawful) (roomId : Uuid) (now : Nat) (es : List Event)
    (s : Talk) (tr : List Output) (hRun : Machine.run (Talk.step w) (Talk.new roomId now) es = some (s, tr))
    (hDistinct : s.channel.Distinct) (hParses : s.Parses w) :
    (∀ i voice, .heard i voice ∈ tr → ∃ k, k ≠ i ∧ .said k voice ∈ tr) ∧
    (∀ i c, s.callers[i]? = some c → c.phase ≠ .died ∧
      (c.phase = .panicked → Talk.Provoked w (.new roomId now) es i) ∧
      ∀ addr, c.phase = .discovered addr → addr = c.addr) ∧
    ∀ (t : TaskId) (d : VoiceConnection) (datagram : Voice), s.channel.spawned[t]? = some d →
      .voice datagram ∈ d.msgRx →
      ∃ k voice, .said k voice ∈ tr ∧ decryptVoice w.aead d.cryptKey datagram = some voice.payload ∧
        { datagram with payload := voice.payload } = voice := by
  have hSound := Talk.sound hLawful hRun hDistinct hParses
  refine ⟨?_, ?_, ?_⟩
  · intro i voice hHeard
    obtain ⟨⟨k, hSaid⟩, c, response, hCaller, hGrants, hOther⟩ := hSound.heard i voice hHeard
    refine ⟨k, ?_, hSaid⟩
    rintro rfl
    obtain ⟨c', key, hCaller', hGrants'⟩ := hSound.said k voice hSaid
    cases hCaller.symm.trans hCaller'
    obtain rfl := hSound.granted_unique hGrants hGrants'
    exact hOther rfl
  · intro i c hCaller
    have hKnown := hSound.known c (List.mem_of_getElem? hCaller)
    exact ⟨hKnown.alive, Talk.provoked hLawful hRun hDistinct hParses hCaller, hKnown.discovered⟩
  · intro t d datagram hTask hMem
    obtain ⟨voice, ⟨k, hSaid⟩, _, hDecrypt, hWhole⟩ := hSound.authentic.decrypts hLawful hDistinct hTask hMem
    exact ⟨k, voice, hSaid, hDecrypt, hWhole⟩

/-- Two clients behind one address join, discover their addresses and announce them. The first one says
a byte, and the channel relays it to the second one. -/
def greeted : List Event :=
  [.server (.control (.openConnection 1 "a") ⟨10, [1]⟩), .server (.control (.openConnection 2 "b") ⟨20, [2]⟩),
    .join ⟨.v4 1, 9⟩ 1 10, .join ⟨.v4 1, 8⟩ 2 20, .caller 0 (.attempt true), .caller 1 (.attempt true),
    .server (.datagram ⟨.v4 1, 9⟩ ([26, 20, 10, 16] ++ List.replicate 15 0 ++ [1, 16, 10]) true),
    .server (.datagram ⟨.v4 1, 8⟩ ([26, 20, 10, 16] ++ List.replicate 15 0 ++ [2, 16, 20]) true),
    .caller 0 (.recv [26, 11, 10, 7, 48, 46, 48, 46, 48, 46, 49, 16, 9]),
    .caller 1 (.recv [26, 11, 10, 7, 48, 46, 48, 46, 48, 46, 49, 16, 8]),
    .announce 0 ⟨0, []⟩, .server (.task 0 .control), .server .resume,
    .caller 0 (.ready [1] 10 true false 5 6),
    .announce 1 ⟨0, []⟩, .server (.task 1 .control), .server .resume,
    .caller 1 (.ready [2] 20 true false 0 0), .caller 0 (.record [7] true),
    .server (.datagram ⟨.v4 1, 9⟩
      ([18, 34, 8, 5, 16, 6, 24, 10, 34, 26, 1] ++ BigEndian.bytes 8 5 ++ BigEndian.bytes 8 6 ++
        List.replicate 8 0 ++ [7]) true),
    .server (.task 0 (.message true)), .server (.task 1 (.broadcast true)),
    .caller 1 (.recv
      ([18, 34, 8, 5, 16, 6, 24, 10, 34, 26, 2] ++ BigEndian.bytes 8 5 ++ BigEndian.bytes 8 6 ++
        List.replicate 8 0 ++ [7]))]

def World.tagged : World where
  aead := VoiceServer.tagged
  slots := 16
  parse text := if text = "0.0.0.1" then some (.v4 1) else none

theorem heard_was_said_greeted :
    ∃ s tr, Machine.run (Talk.step .tagged) (Talk.new 0 0) greeted = some (s, tr) ∧
      .heard 1 ⟨5, 6, 10, [7]⟩ ∈ tr ∧ ∃ k, k ≠ 1 ∧ .said k ⟨5, 6, 10, [7]⟩ ∈ tr := by
  have hAny : (Machine.run (Talk.step .tagged) (Talk.new 0 0) greeted).any (fun r =>
      decide ((r.1.channel.spawned.map VoiceConnection.sourceId).Nodup ∧
        (∀ c ∈ r.1.callers, World.tagged.parse c.addr.ip.toString = some c.addr.ip) ∧
        .heard 1 ⟨5, 6, 10, [7]⟩ ∈ r.2)) = true := by
    decide +kernel
  obtain ⟨⟨s, tr⟩, hRun, hAll⟩ := (Option.any_eq_true _ _).mp hAny
  obtain ⟨hNodup, hParses, hHeard⟩ := of_decide_eq_true hAll
  have hSaid := heard_was_said .tagged VoiceServer.tagged_lawful 0 0 greeted s tr hRun
    (VoiceChannel.distinct_of_nodup hNodup) hParses
  exact ⟨s, tr, hRun, hHeard, hSaid.1 1 _ hHeard⟩

end Voices.Call
