import Voices.Call.Ordered

/-!
# Voice in order

On a network that keeps the order, what a client hears under one source id is a part of what one
client said, in the order in which it was said. On its way voice passes the datagrams of its speaker,
the queue of the speaker's task, the broadcast of the channel and the datagrams for the listener; each
of them carries, in order, a part of what the one before does. The tasks of the channel are assumed to
have different source ids, the clients different client ids, and the text of a client's address to be
parsed to it.
-/

namespace Voices.Call

open Semantics VoiceServer Client.Udp

/-- The voice in a datagram for the channel. -/
def World.spoken? (w : World) (bytes : List UInt8) : Option Voice :=
  match w.env.decode bytes with
  | some ⟨some (.voice datagram)⟩ => some datagram
  | _ => none

/-- The voice in a datagram for a client. -/
def played? (bytes : List UInt8) : Option Voice :=
  match UdpWithBuf.new.recv bytes with
  | .ok message => message.voice?
  | .error _ => none

/-- The voice that is sent between the channel and the client at an address. -/
def voices (read : List UInt8 → Option Voice) (addr : SocketAddr)
    (datagrams : List (SocketAddr × List UInt8)) : List Voice :=
  datagrams.filterMap fun d => if d.1 = addr then read d.2 else none

def Output.said? (k : Nat) : Output → Option Voice
  | .said i voice => if i = k then some voice else none
  | _ => none

def Output.heard? (k : Nat) : Output → Option Voice
  | .heard i voice => if i = k then some voice else none
  | _ => none

/-- What a client said, in this order. -/
def saidBy (k : Nat) (tr : List Output) : List Voice := tr.filterMap (Output.said? k)

/-- What a client heard, in this order. -/
def heardBy (k : Nat) (tr : List Output) : List Voice := tr.filterMap (Output.heard? k)

section Voices

variable {read : List UInt8 → Option Voice} {addr addr' : SocketAddr}

theorem voices_append (xs ys : List (SocketAddr × List UInt8)) :
    voices read addr (xs ++ ys) = voices read addr xs ++ voices read addr ys :=
  List.filterMap_append

theorem voices_sublist {xs ys : List (SocketAddr × List UInt8)} (h : xs.Sublist ys) :
    (voices read addr xs).Sublist (voices read addr ys) :=
  h.filterMap _

theorem voices_here (datagrams : List (List UInt8)) :
    voices read addr (datagrams.map fun bytes => (addr, bytes)) = datagrams.filterMap read := by
  simp [voices, List.filterMap_map]

theorem voices_elsewhere {xs : List (SocketAddr × List UInt8)} (h : ∀ d ∈ xs, d.1 ≠ addr) :
    voices read addr xs = [] := by
  refine List.filterMap_eq_nil_iff.mpr fun d hMem => ?_
  rw [if_neg (h d hMem)]

end Voices

section Traces

variable {i k : Nat} {o : List Caller.Output}

theorem saidBy_append (tr tr' : List Output) : saidBy k (tr ++ tr') = saidBy k tr ++ saidBy k tr' :=
  List.filterMap_append

theorem heardBy_append (tr tr' : List Output) : heardBy k (tr ++ tr') = heardBy k tr ++ heardBy k tr' :=
  List.filterMap_append

theorem saidBy_here (o : List Caller.Output) :
    saidBy i (o.filterMap (Output.ofCaller? i)) = o.filterMap Caller.Output.said? := by
  rw [saidBy, List.filterMap_filterMap]
  refine List.filterMap_congr fun out _ => ?_
  cases out <;> simp [Output.ofCaller?, Output.said?, Caller.Output.said?]

theorem heardBy_here (o : List Caller.Output) :
    heardBy i (o.filterMap (Output.ofCaller? i)) = o.filterMap Caller.Output.heard? := by
  rw [heardBy, List.filterMap_filterMap]
  refine List.filterMap_congr fun out _ => ?_
  cases out <;> simp [Output.ofCaller?, Output.heard?, Caller.Output.heard?]

theorem mem_saidBy {tr : List Output} {voice : Voice} : voice ∈ saidBy k tr ↔ .said k voice ∈ tr := by
  rw [saidBy, List.mem_filterMap]
  constructor
  · rintro ⟨out, hMem, hOut⟩
    cases out with
    | said j voice' =>
      obtain ⟨rfl, rfl⟩ : j = k ∧ voice' = voice := by simpa [Output.said?] using hOut
      exact hMem
    | heard | asked => cases hOut
  · intro hMem
    exact ⟨.said k voice, hMem, by simp [Output.said?]⟩

theorem mem_heardBy {tr : List Output} {voice : Voice} : voice ∈ heardBy k tr ↔ .heard k voice ∈ tr := by
  rw [heardBy, List.mem_filterMap]
  constructor
  · rintro ⟨out, hMem, hOut⟩
    cases out with
    | heard j voice' =>
      obtain ⟨rfl, rfl⟩ : j = k ∧ voice' = voice := by simpa [Output.heard?] using hOut
      exact hMem
    | said | asked => cases hOut
  · intro hMem
    exact ⟨.heard k voice, hMem, by simp [Output.heard?]⟩

theorem saidBy_elsewhere (hNe : k ≠ i) (o : List Caller.Output) :
    saidBy k (o.filterMap (Output.ofCaller? i)) = [] := by
  refine List.eq_nil_iff_forall_not_mem.mpr fun voice hMem => hNe ?_
  exact (Talk.said_mem (mem_saidBy.mp hMem)).1

theorem heardBy_elsewhere (hNe : k ≠ i) (o : List Caller.Output) :
    heardBy k (o.filterMap (Output.ofCaller? i)) = [] := by
  refine List.eq_nil_iff_forall_not_mem.mpr fun voice hMem => hNe ?_
  exact (Talk.heard_mem (mem_heardBy.mp hMem)).1

theorem heardBy_asked (channel : VoiceChannel) (addr : SocketAddr) :
    heardBy k (Talk.asked channel addr) = [] := by
  refine List.eq_nil_iff_forall_not_mem.mpr fun voice hMem => ?_
  obtain ⟨_, _, _, hEq⟩ := Talk.mem_asked (mem_heardBy.mp hMem)
  cases hEq

end Traces

section Clients

theorem heard?_eq_some {config : Config} {msg : ServerMessage} {voice : Voice}
    (h : heard? config msg = some voice) :
    ∃ sent, msg.voice? = some sent ∧ Decrypted config.aead config.key voice sent := by
  obtain ⟨_ | pong | sent | disco⟩ := msg
  · cases h
  · cases h
  · obtain ⟨payload, hPayload, hEq⟩ := Option.map_eq_some_iff.mp h
    exact ⟨sent, rfl, payload, hPayload, hEq.symm⟩
  · cases h

variable {now : Nat} {c c' : Caller} {e : Caller.Event} {o : List Caller.Output}

/-- The voice that a client sends is what it says, encrypted. -/
theorem effect_speaks (w : World) (hEffect : Caller.Effect now c e c' o) :
    List.SublistForall₂ (fun datagram voice => c.running = true ∧
        Encrypted c.config.aead c.config.key datagram voice)
      ((o.filterMap Caller.Output.datagram?).filterMap w.spoken?) (o.filterMap Caller.Output.said?) := by
  cases hEffect with
  | spoke voice taken said payload bytes c' hStays hRunning hSource hEncrypt hSend =>
    have hSpoken : w.spoken? bytes = some { said with payload } := by
      rw [World.spoken?, w.decode_send hSend]
    simp only [Caller.Output.datagram?, Caller.Output.said?, hSpoken, List.filterMap_cons, List.filterMap_nil]
    exact .cons ⟨hRunning, payload, hEncrypt, rfl⟩ .nil
  | asked taken c' bytes hStays hSend =>
    have hSilent : w.spoken? bytes = none := by rw [World.spoken?, w.decode_send hSend]
    simpa [Caller.Output.datagram?, hSilent] using .nil
  | pinged taken ping bytes c' hStays hRunning hSeq hSend =>
    have hSilent : w.spoken? bytes = none := by rw [World.spoken?, w.decode_send hSend]
    simpa [Caller.Output.datagram?, hSilent] using .nil
  | received datagram received state hPhase =>
    have hNone : (c.udpRx now received state datagram).2.filterMap Caller.Output.datagram? = [] := by
      refine List.filterMap_eq_nil_iff.mpr fun out hMem => ?_
      obtain ⟨voice, rfl⟩ := Caller.udpRx_output hMem
      rfl
    rw [hNone]
    exact .nil
  | stayed | located | announced | started => exact .nil

/-- What a client hears is the voice that it receives, decrypted. -/
theorem effect_hears (hEffect : Caller.Effect now c e c' o) :
    List.SublistForall₂ (fun voice sent => c.running = true ∧
        Decrypted c.config.aead c.config.key voice sent)
      (o.filterMap Caller.Output.heard?) (e.recv?.toList.filterMap played?) := by
  cases hEffect with
  | received datagram received state hPhase =>
    have hRunning : c.running = true := by simp [Caller.running, hPhase, Phase.isReceiving]
    cases hRecv : UdpWithBuf.new.recv datagram with
    | error error =>
      rw [Caller.udpRx_error hRecv]
      exact .nil
    | ok msg =>
      cases hHeard : heard? c.config msg with
      | none =>
        rw [Caller.udpRx_silent hRecv hHeard]
        exact .nil
      | some voice =>
        rw [Caller.udpRx_heard hRecv hHeard]
        obtain ⟨sent, hSent, payload, hPayload, rfl⟩ := heard?_eq_some hHeard
        have hPlayed : played? datagram = some sent := by simp only [played?, hRecv, hSent]
        simp only [Caller.Output.heard?, Caller.Event.recv?, hPlayed, Option.toList_some,
          List.filterMap_cons, List.filterMap_nil]
        exact .cons ⟨hRunning, payload, hPayload, rfl⟩ .nil
  | asked | pinged | spoke => simpa [Caller.Output.heard?] using .nil
  | stayed | located | announced | started => exact .nil

end Clients

/-- A datagram of a client holds what it said, under the key of its task. -/
def Speaks (w : World) (tr : List Output) (s : Talk) (addr : SocketAddr) (datagram voice : Voice) : Prop :=
  ∃ response, s.channel.Grants (s.facts tr) addr response ∧ Encrypted w.aead response.cryptKey datagram voice

/-- A client hears what it was sent, under the key of its task. -/
def Hears (w : World) (tr : List Output) (s : Talk) (addr : SocketAddr) (voice sent : Voice) : Prop :=
  ∃ response, s.channel.Grants (s.facts tr) addr response ∧ Decrypted w.aead response.cryptKey voice sent

/-- What each client has sent is, in order, a part of what it said. -/
def Spoke (w : World) (tr : List Output) (s : Talk) : Prop :=
  ∀ (k : Nat) (c : Caller), s.callers[k]? = some c →
    List.SublistForall₂ (Speaks w tr s c.addr) (voices w.spoken? c.addr s.up) (saidBy k tr)

/-- What each client heard is, in order, a part of what has arrived of what it was sent. -/
def Played (w : World) (tr : List Output) (s : Ordered) : Prop :=
  ∀ (k : Nat) (c : Caller), s.talk.callers[k]? = some c →
    List.SublistForall₂ (Hears w tr s.talk c.addr) (heardBy k tr)
      (voices played? c.addr (s.talk.down.take (s.down c.addr)))

/-- What a task accepted is, in order, a part of what has arrived of the client that it serves. -/
structure Handed (w : World) (accepted : List (TaskId × Voice)) (s : Ordered) : Prop where
  served : ∀ entry ∈ accepted, ∃ addr, s.talk.Reaches addr entry.1
  order : ∀ addr t, s.talk.Reaches addr t →
    (acceptedFor t accepted).Sublist (voices w.spoken? addr (s.talk.up.take (s.up addr)))

/-- What is sent to the clients is what the socket sends, and voice comes from the task that was asked
to talk to its address. -/
structure Carried (tr : List Output) (history : List VoiceServer.Output) (s : Talk) : Prop where
  down : s.down = history.filterMap VoiceServer.Output.datagram?
  senders : ∀ out ∈ history, ∀ addr message, out.sent? = some (addr, message) → message.voice? = none ∨
    ∃ t, out = .task t (.sent addr message) ∧ .asked addr t ∈ tr

section Clients

variable {w : World} {tr : List Output} {o : List Output} {e : Call.Event} {k : Nat} {c : Caller}

theorem Speaks.later {s s' : Talk} (hEffect : Talk.Effect w s e s' o) {addr : SocketAddr}
    {datagram voice : Voice} (h : Speaks w tr s addr datagram voice) :
    Speaks w (tr ++ o) s' addr datagram voice := by
  obtain ⟨response, hGrants, hEncrypted⟩ := h
  exact ⟨response, hGrants.later hEffect.tasks (hEffect.facts_le tr), hEncrypted⟩

theorem Hears.later {s s' : Talk} (hEffect : Talk.Effect w s e s' o) {addr : SocketAddr}
    {voice sent : Voice} (h : Hears w tr s addr voice sent) : Hears w (tr ++ o) s' addr voice sent := by
  obtain ⟨response, hGrants, hDecrypted⟩ := h
  exact ⟨response, hGrants.later hEffect.tasks (hEffect.facts_le tr), hDecrypted⟩

/-- What a client sends in a step. -/
theorem speaks_now {s s' : Talk} (hSound : Talk.Sound w tr s) (hEffect : Talk.Effect w s e s' o)
    (hCaller : s.callers[k]? = some c) :
    ∃ new, voices w.spoken? c.addr s'.up = voices w.spoken? c.addr s.up ++ new ∧
      List.SublistForall₂ (Speaks w tr s c.addr) new (saidBy k o) := by
  cases hEffect with
  | joined | served => exact ⟨[], (List.append_nil _).symm, .nil⟩
  | announced i draw d addr channel o => exact ⟨[], voices_append _ _, .nil⟩
  | moved i e d d' o hMoved hAllows hEffect =>
    obtain ⟨hAddr, _, _⟩ := Talk.effect_same hEffect
    refine ⟨_, voices_append _ _, ?_⟩
    by_cases hEq : k = i
    · subst hEq
      cases hCaller.symm.trans hMoved
      rw [hAddr, voices_here, saidBy_here]
      refine Subsequence.mono ?_ (effect_speaks w hEffect)
      rintro datagram voice ⟨hRunning, hEncrypted⟩
      have hKnown := hSound.known c (List.mem_of_getElem? hCaller)
      exact ⟨_, hKnown.running hRunning, hKnown.aead ▸ hEncrypted⟩
    · rw [saidBy_elsewhere hEq, voices_elsewhere]
      · exact .nil
      · intro datagram hMem hHere
        obtain ⟨bytes, _, rfl⟩ := List.mem_map.mp hMem
        exact hEq (hSound.distinct k i c d hCaller hMoved (hHere.symm.trans hAddr))

/-- What a client hears in a step, of what arrives for it. -/
theorem hears_now {s s' : Ordered} (hSound : Talk.Sound w tr s.talk) (hEffect : Ordered.Effect w s s' e o)
    (hCaller : s.talk.callers[k]? = some c) :
    ∃ new, (voices played? c.addr (s.talk.down.take (s.down c.addr)) ++ new).Sublist
        (voices played? c.addr (s'.talk.down.take (s'.down c.addr))) ∧
      List.SublistForall₂ (Hears w tr s.talk c.addr) (heardBy k o) new := by
  have hKept (more : List (SocketAddr × List UInt8)) :
      (voices played? c.addr (s.talk.down.take (s.down c.addr)) ++ []).Sublist
        (voices played? c.addr ((s.talk.down ++ more).take (s'.down c.addr))) := by
    rw [List.append_nil]
    exact voices_sublist (Subsequence.take_sublist_append (hEffect.down_le c.addr) more)
  have hSame := hKept []
  rw [List.append_nil s.talk.down] at hSame
  obtain ⟨talk, up, down⟩ := s'
  have hTalk := hEffect.talk
  cases hTalk with
  | joined => exact ⟨[], hSame, .nil⟩
  | served => exact ⟨[], hKept _, .nil⟩
  | announced i draw d addr channel o =>
    rw [heardBy_asked]
    exact ⟨[], hKept _, .nil⟩
  | moved i e d d' o hMoved hAllows hMove =>
    by_cases hEq : k = i
    · subst hEq
      cases hCaller.symm.trans hMoved
      rw [heardBy_here]
      refine ⟨e.recv?.toList.filterMap played?, ?_, Subsequence.mono ?_ (effect_hears hMove)⟩
      · cases e with
        | recv bytes =>
          obtain ⟨d, j, hHere, hDown, hLe, hNext⟩ := hEffect.delivered k bytes rfl
          cases hCaller.symm.trans hHere
          have hOne : voices played? c.addr [(c.addr, bytes)] = [bytes].filterMap played? := voices_here [bytes]
          rw [hNext]
          refine List.Sublist.trans ?_ (voices_sublist (Subsequence.take_snoc_sublist hLe hDown))
          rw [voices_append, hOne]
          exact List.Sublist.refl _
        | _ => exact hSame
      · rintro voice sent ⟨hRunning, hDecrypted⟩
        have hKnown := hSound.known c (List.mem_of_getElem? hCaller)
        exact ⟨_, hKnown.running hRunning, hKnown.aead ▸ hDecrypted⟩
    · rw [heardBy_elsewhere hEq]
      exact ⟨[], hSame, .nil⟩

theorem Spoke.step {s s' : Talk} (h : Spoke w tr s) (hSound : Talk.Sound w tr s) (hRouted : Talk.Routed tr s)
    (hEffect : Talk.Effect w s e s' o) : Spoke w (tr ++ o) s' := by
  intro k d hFound
  rcases hEffect.caller_before hFound with ⟨c, hCaller, hAddr⟩ | ⟨rfl, rfl, hUp, hNone⟩
  · obtain ⟨new, hUp, hNew⟩ := speaks_now hSound hEffect hCaller
    rw [hAddr, hUp, saidBy_append]
    have hAll := Subsequence.append (h k c hCaller) hNew
    exact Subsequence.mono (fun _ _ hSpeaks => hSpeaks.later hEffect) hAll
  · rw [hUp, voices_elsewhere]
    · exact .nil
    · intro datagram hMem hHere
      obtain ⟨c, hCaller, hAddr⟩ := hRouted.senders datagram.1 datagram.2 hMem
      exact hNone c hCaller (hAddr.trans hHere)

theorem Played.step {s s' : Ordered} (h : Played w tr s) (hSound : Talk.Sound w tr s.talk)
    (hEffect : Ordered.Effect w s s' e o) : Played w (tr ++ o) s' := by
  intro k d hFound
  rcases hEffect.talk.caller_before hFound with ⟨c, hCaller, hAddr⟩ | ⟨rfl, rfl, _, _⟩
  · obtain ⟨new, hDown, hNew⟩ := hears_now hSound hEffect hCaller
    rw [hAddr, heardBy_append]
    have hAll := Subsequence.append (h k c hCaller) hNew
    exact Subsequence.mono (fun _ _ hHears => hHears.later hEffect.talk) (Subsequence.sublist_right hAll hDown)
  · rw [List.append_nil]
    have hNone : heardBy s.talk.callers.length tr = [] := by
      refine List.eq_nil_iff_forall_not_mem.mpr fun voice hMem => ?_
      obtain ⟨_, c, _, hCaller, _⟩ := hSound.heard _ voice (mem_heardBy.mp hMem)
      rw [List.getElem?_eq_none (Nat.le_refl _)] at hCaller
      cases hCaller
    rw [hNone]
    exact .nil

end Clients

section Tasks

variable {w : World} {tr : List Output} {o : List Output} {e : Call.Event} {s s' : Ordered}
  {e' : VoiceServer.Event} {accepted : List (TaskId × Voice)} {history : List VoiceServer.Output}

/-- What was taken off the datagrams of a client is taken off what it has sent by now. -/
theorem taken_sublist (hEffect : Ordered.Effect w s s' e o) {addr : SocketAddr} {n m : Nat} (hLe : n ≤ m) :
    (voices w.spoken? addr (s.talk.up.take n)).Sublist (voices w.spoken? addr (s'.talk.up.take m)) := by
  obtain ⟨more, hUp⟩ := hEffect.talk.up_grows
  rw [hUp]
  exact voices_sublist (Subsequence.take_sublist_append hLe more)

theorem Handed.kept (h : Handed w accepted s) (hEffect : Ordered.Effect w s s' e o) (hNamed : s'.talk.Named) :
    Handed w accepted s' := by
  constructor
  · intro entry hMem
    obtain ⟨addr, hReaches⟩ := h.served entry hMem
    exact ⟨addr, hReaches.step hEffect.talk⟩
  · intro addr t hReaches
    -- a client that is reached for the first time has a task that accepted nothing
    cases hVoices : acceptedFor t accepted with
    | nil => exact List.nil_sublist _
    | cons voice rest =>
      have hMem : voice ∈ acceptedFor t accepted := hVoices ▸ List.mem_cons_self
      obtain ⟨addr', hReaches'⟩ := h.served _ (VoiceChannel.mem_acceptedFor hMem)
      obtain rfl := hReaches.unique hNamed (hReaches'.step hEffect.talk)
      rw [← hVoices]
      exact (h.order addr t hReaches').trans (taken_sublist hEffect (hEffect.up_le addr))

theorem Handed.arrived (h : Handed w accepted s) (hEffect : Ordered.Effect w s s' e o) (hNamed : s'.talk.Named)
    {sender : SocketAddr} {t : TaskId} {bytes : List UInt8} {voice : Voice} {j : Nat}
    (hReaches : s.talk.Reaches sender t) (hSpoken : w.spoken? bytes = some voice)
    (hUp : s.talk.up[j]? = some (sender, bytes)) (hLe : s.up sender ≤ j) (hNext : s'.up sender = j + 1) :
    Handed w (accepted ++ [(t, voice)]) s' := by
  have hKept := h.kept hEffect hNamed
  have hReached := hReaches.step hEffect.talk
  constructor
  · intro entry hMem
    rcases List.mem_append.mp hMem with hOld | hNew
    · exact hKept.served entry hOld
    · cases List.mem_singleton.mp hNew
      exact ⟨sender, hReached⟩
  · intro addr t' hReaches'
    rw [VoiceChannel.acceptedFor_append]
    by_cases hEq : t' = t
    · subst hEq
      obtain rfl := hReached.unique hNamed hReaches'
      have hOne : voices w.spoken? sender [(sender, bytes)] = [voice] := by simp [voices, hSpoken]
      have hNow : acceptedFor t' [(t', voice)] = [voice] := by simp [acceptedFor]
      rw [hNow, hNext]
      calc
        acceptedFor t' accepted ++ [voice]
        List.Sublist _ (voices w.spoken? sender (s.talk.up.take (s.up sender)) ++ [voice]) :=
          (h.order sender t' hReaches).append (List.Sublist.refl _)
        _ = voices w.spoken? sender (s.talk.up.take (s.up sender) ++ [(sender, bytes)]) := by
          rw [voices_append, hOne]
        List.Sublist _ (voices w.spoken? sender (s.talk.up.take (j + 1))) :=
          voices_sublist (Subsequence.take_snoc_sublist hLe hUp)
        List.Sublist _ (voices w.spoken? sender (s'.talk.up.take (j + 1))) :=
          taken_sublist hEffect (Nat.le_refl _)
    · have hNone : acceptedFor t' [(t, voice)] = [] := by simp [acceptedFor, Ne.symm hEq]
      rw [hNone, List.append_nil]
      exact hKept.order addr t' hReaches'

/-- A datagram that the channel accepts came from the client that the task serves. -/
theorem Handed.step (h : Handed w accepted s) (hRouted : Talk.Routed tr s.talk)
    (hEffect : Ordered.Effect w s s' (.server e') o) (hNamed : s'.talk.Named) :
    Handed w (accepted ++ (VoiceChannel.accepts w.env s.talk.channel e').toList) s' := by
  cases hAccepts : VoiceChannel.accepts w.env s.talk.channel e' with
  | none =>
    rw [Option.toList_none, List.append_nil]
    exact h.kept hEffect hNamed
  | some entry =>
    obtain ⟨t, voice⟩ := entry
    obtain ⟨sender, bytes, sendOk, conn, addr, rfl, hDecode, hConn, rfl, hBound, hSame⟩ :=
      VoiceChannel.accepts_datagram hAccepts
    obtain ⟨c, hMem, rfl, _⟩ := hRouted.bound voice.sourceId conn addr hConn hBound
    rcases hEffect.arrived sender bytes sendOk rfl with hStranger | ⟨j, hUp, hLe, hNext⟩
    · cases (hStranger c hMem).symm.trans hSame
    · obtain ⟨d, hMem', rfl⟩ := hRouted.senders sender bytes (List.mem_of_getElem? hUp)
      obtain ⟨i, hCaller⟩ := List.mem_iff_getElem?.mp hMem
      obtain ⟨k, hCaller'⟩ := List.mem_iff_getElem?.mp hMem'
      obtain rfl := hRouted.apart i k c d hCaller hCaller' hSame
      cases hCaller.symm.trans hCaller'
      have hReaches := hRouted.bound voice.sourceId conn c.addr hConn hBound
      have hSpoken : w.spoken? bytes = some voice := by rw [World.spoken?, hDecode]
      exact h.arrived hEffect hNamed hReaches hSpoken hUp hLe hNext

theorem Carried.kept {talk : Talk} (h : Carried tr history talk) (talk' : Talk)
    (hDown : talk'.down = talk.down) (o : List Output) : Carried (tr ++ o) history talk' := by
  refine ⟨hDown.trans h.down, ?_⟩
  intro out hMem addr message hSent
  rcases h.senders out hMem addr message hSent with hSilent | ⟨t, hEq, hAsked⟩
  · exact .inl hSilent
  · exact .inr ⟨t, hEq, List.mem_append_left o hAsked⟩

theorem Carried.served {talk : Talk} (h : Carried tr history talk) (hSound : Talk.Sound w tr talk)
    {e : VoiceServer.Event} {channel : VoiceChannel} {sent : List VoiceServer.Output}
    (hStep : talk.channel.step w.env e = some (channel, sent)) :
    Carried tr (history ++ sent) (talk.served channel sent) := by
  constructor
  · rw [List.filterMap_append, ← h.down]
    rfl
  · intro out hMem addr message hSent
    rcases List.mem_append.mp hMem with hOld | hNew
    · exact h.senders out hOld addr message hSent
    · obtain ⟨hSilent, hAsked⟩ := hSound.authentic.senders hStep hNew addr message
      rcases sent?_eq_some hSent with hEq | ⟨t, hEq⟩
      · exact .inl (hSilent hEq)
      · exact .inr ⟨t, hEq, hAsked t hEq⟩

end Tasks

/-- Each stage between a speaker and a listener passes on, in order, a part of what it was given. -/
structure InOrder (w : World) (tr : List Output) (s : Ordered) : Prop where
  sound : Talk.Sound w tr s.talk
  routed : Talk.Routed tr s.talk
  spoke : Spoke w tr s.talk
  played : Played w tr s
  relayed : ∃ accepted history, VoiceChannel.Relaying w.env accepted history s.talk.channel ∧
    Handed w accepted s ∧ Carried tr history s.talk

section Runs

variable {w : World} {tr : List Output} {o : List Output} {e : Call.Event} {s s' : Ordered}

theorem InOrder.relayed_step (h : InOrder w tr s) (hEffect : Ordered.Effect w s s' e o)
    (hDistinct : s'.talk.channel.Distinct) (hNamed : s'.talk.Named) :
    ∃ accepted history, VoiceChannel.Relaying w.env accepted history s'.talk.channel ∧
      Handed w accepted s' ∧ Carried (tr ++ o) history s'.talk := by
  obtain ⟨accepted, history, hRelaying, hHanded, hCarried⟩ := h.relayed
  obtain ⟨talk, up, down⟩ := s'
  have hTalk := hEffect.talk
  cases hTalk with
  | joined addr clientId sourceId =>
    exact ⟨accepted, history, hRelaying, hHanded.kept hEffect hNamed, hCarried.kept (s.talk.joined _) rfl []⟩
  | moved i e c c' o =>
    exact ⟨accepted, history, hRelaying, hHanded.kept hEffect hNamed, hCarried.kept (s.talk.moved i c' o) rfl _⟩
  | announced i draw c addr channel sent hCaller hPhase hNew hStep =>
    have hStepped := hRelaying.step h.sound.wf hDistinct (VoiceChannel.step_effect hStep)
    have hNone :
        VoiceChannel.accepts w.env s.talk.channel (.control (.establish c.clientId addr) draw) = none := rfl
    rw [hNone, Option.toList_none, List.append_nil] at hStepped
    have hServed := (hCarried.served h.sound hStep).kept
      ((s.talk.moved i { c with announced := true } []).served channel sent) rfl (Talk.asked channel addr)
    exact ⟨accepted, _, hStepped, hHanded.kept hEffect hNamed, hServed⟩
  | served e channel sent hAdmits hStep =>
    have hStepped := hRelaying.step h.sound.wf hDistinct (VoiceChannel.step_effect hStep)
    have hServed := (hCarried.served h.sound hStep).kept (s.talk.served channel sent) rfl []
    exact ⟨_, _, hStepped, hHanded.step h.routed hEffect hNamed, hServed⟩

theorem InOrder.step (h : InOrder w tr s) (hLawful : w.aead.Lawful) (hEffect : Ordered.Effect w s s' e o)
    (hParses : s.talk.Parses w) (hDistinct : s'.talk.channel.Distinct) (hNamed : s'.talk.Named) :
    InOrder w (tr ++ o) s' where
  sound := h.sound.step hLawful hParses hEffect.talk hDistinct
  routed := h.routed.step h.sound hEffect.talk hDistinct
  spoke := h.spoke.step h.sound h.routed hEffect.talk
  played := h.played.step h.sound hEffect
  relayed := h.relayed_step hEffect hDistinct hNamed

theorem InOrder.new (w : World) (roomId : Uuid) (now : Nat) : InOrder w [] (.new roomId now) where
  sound := .new w roomId now
  routed := .new roomId now
  spoke _ _ hCaller := by cases hCaller
  played _ _ hCaller := by cases hCaller
  relayed := by
    refine ⟨[], [], VoiceChannel.new_relaying w.env roomId now, ⟨List.forall_mem_nil _, ?_⟩, rfl,
      List.forall_mem_nil _⟩
    exact fun _ _ _ => List.nil_sublist _

theorem inOrder (hLawful : w.aead.Lawful) {roomId : Uuid} {now : Nat} {es : List Ordered.Event}
    (hRun : Machine.run (Ordered.step w) (.new roomId now) es = some (s, tr))
    (hDistinct : s.talk.channel.Distinct) (hParses : s.talk.Parses w) (hNamed : s.talk.Named) :
    InOrder w tr s := by
  refine Machine.run_induction (P := fun s tr => s.talk.channel.Distinct → s.talk.Parses w → s.talk.Named →
    InOrder w tr s) ?_ ?_ hRun hDistinct hParses hNamed
  · exact fun _ _ _ => .new w roomId now
  · intro s₁ tr₁ e s₂ o hInOrder hStep hDistinct₂ hParses₂ hNamed₂
    obtain ⟨e', hEffect⟩ := Ordered.step_effect hStep
    obtain ⟨hDistinct₁, hParses₁⟩ := hEffect.talk.before hDistinct₂ hParses₂
    have hNamed₁ := hEffect.talk.named_before hNamed₂
    exact (hInOrder hDistinct₁ hParses₁ hNamed₁).step hLawful hEffect hParses₁ hDistinct₂ hNamed₂

end Runs

section Result

variable {w : World} {tr : List Output} {s : Ordered} {accepted : List (TaskId × Voice)}
  {history : List VoiceServer.Output} {t : TaskId} {d : VoiceConnection}

theorem decrypted_encrypted (hLawful : w.aead.Lawful) {key : Key} {heard datagram voice : Voice}
    (hDecrypted : Decrypted w.aead key heard datagram) (hEncrypted : Encrypted w.aead key datagram voice) :
    heard = voice := by
  obtain ⟨payload, hEncrypt, rfl⟩ := hEncrypted
  obtain ⟨plain, hDecrypt, rfl⟩ := hDecrypted
  have hSame : decryptVoice w.aead key { voice with payload } = some voice.payload :=
    decryptVoice_of_encryptVoice hLawful hEncrypt
  cases hDecrypt.symm.trans hSame
  rfl

theorem sublist_of_eq {R : Voice → Voice → Prop} (hEq : ∀ a b, R a b → a = b) {as bs : List Voice}
    (h : List.SublistForall₂ R as bs) : as.Sublist bs := by
  simpa using Subsequence.map_sublist (f := id) (g := id) hEq h

/-- What a client hears is, in order, a part of what its task encrypts. -/
theorem InOrder.heard_sublist (h : InOrder w tr s) (hLawful : w.aead.Lawful)
    (hRelaying : VoiceChannel.Relaying w.env accepted history s.talk.channel) (hCarried : Carried tr history s.talk)
    {i : Nat} {c : Caller} (hCaller : s.talk.callers[i]? = some c) (hAsked : .asked c.addr t ∈ tr)
    (hTask : s.talk.channel.spawned[t]? = some d) :
    (heardBy i tr).Sublist (history.filterMap (VoiceServer.Output.encrypts t)) := by
  have hHeard : List.SublistForall₂ (Decrypted w.aead d.cryptKey) (heardBy i tr)
      (voices played? c.addr s.talk.down) := by
    refine Subsequence.mono ?_ (Subsequence.sublist_right (h.played i c hCaller)
      (voices_sublist (List.take_sublist _ _)))
    rintro voice sent ⟨response, hGrants, hDecrypted⟩
    obtain rfl := h.sound.granted_unique hGrants ⟨t, d, hAsked, hTask, rfl⟩
    exact hDecrypted
  have hDown : (voices played? c.addr s.talk.down).Sublist
      (history.filterMap (VoiceServer.Output.relays t)) := by
    rw [hCarried.down, voices, List.filterMap_filterMap]
    refine Subsequence.filterMap_sublist fun out hMem voice hVoice => ?_
    obtain ⟨⟨addr, bytes⟩, hOut, hRead⟩ := Option.bind_eq_some_iff.mp hVoice
    obtain ⟨rfl, hPlayed⟩ : addr = c.addr ∧ played? bytes = some voice := by simpa using hRead
    obtain ⟨message, hSent, hRecv⟩ := recv_datagram hOut
    have hMessage : message.voice? = some voice := by simpa only [played?, hRecv] using hPlayed
    rcases hCarried.senders out hMem c.addr message hSent with hSilent | ⟨t', rfl, hAsked'⟩
    · cases hSilent.symm.trans hMessage
    · obtain rfl := h.sound.once c.addr t t' hAsked hAsked'
      simpa [VoiceServer.Output.relays] using hMessage
  refine sublist_of_eq ?_ (Subsequence.comp (Subsequence.sublist_right hHeard hDown)
    (hRelaying.listens t d hTask).sent)
  rintro heard voice ⟨sent, hDecrypted, hEncrypted⟩
  exact decrypted_encrypted hLawful hDecrypted hEncrypted

/-- What is broadcast for a client is, in order, a part of what it said. -/
theorem InOrder.said_sublist (h : InOrder w tr s) (hLawful : w.aead.Lawful)
    (hRelaying : VoiceChannel.Relaying w.env accepted history s.talk.channel) (hHanded : Handed w accepted s)
    {k : Nat} {c : Caller} (hCaller : s.talk.callers[k]? = some c) (hAsked : .asked c.addr t ∈ tr)
    (hTask : s.talk.channel.spawned[t]? = some d) :
    (s.talk.channel.heard d.sourceId).Sublist (saidBy k tr) := by
  obtain ⟨read, hHeard, hRead⟩ := hRelaying.speaks t d hTask
  have hUp : read.Sublist (voices w.spoken? c.addr s.talk.up) := by
    calc
      List.Sublist read (acceptedFor t accepted) := (List.sublist_append_left read _).trans hRead
      List.Sublist _ (voices w.spoken? c.addr (s.talk.up.take (s.up c.addr))) :=
        hHanded.order c.addr t (h.routed.asked c.addr t hAsked)
      List.Sublist _ (voices w.spoken? c.addr s.talk.up) := voices_sublist (List.take_sublist _ _)
  refine sublist_of_eq ?_ (Subsequence.comp (Subsequence.sublist_right hHeard hUp) (h.spoke k c hCaller))
  rintro heard voice ⟨datagram, hDecrypted, response, hGrants, hEncrypted⟩
  obtain rfl := h.sound.granted_unique hGrants ⟨t, d, hAsked, hTask, rfl⟩
  exact decrypted_encrypted hLawful hDecrypted hEncrypted

end Result

/-- On a network that keeps the order, what a client hears under one source id comes from one other
client: it is a part of what this one said, in the order in which it said it, and no oftener. -/
theorem heard_in_order (w : World) (hLawful : w.aead.Lawful) (roomId : Uuid) (now : Nat)
    (es : List Ordered.Event) (s : Ordered) (tr : List Output)
    (hRun : Machine.run (Ordered.step w) (.new roomId now) es = some (s, tr))
    (hDistinct : s.talk.channel.Distinct) (hParses : s.talk.Parses w) (hNamed : s.talk.Named) (i : Nat)
    (voice : Voice) (hHeard : .heard i voice ∈ tr) :
    ∃ k, k ≠ i ∧ .said k voice ∈ tr ∧
      ((heardBy i tr).filter fun heard => heard.sourceId = voice.sourceId).Sublist (saidBy k tr) := by
  have h := inOrder hLawful hRun hDistinct hParses hNamed
  obtain ⟨accepted, history, hRelaying, hHanded, hCarried⟩ := h.relayed
  obtain ⟨⟨k, hSaid⟩, c, response, hCaller, hGrants, hOther⟩ := h.sound.heard i voice hHeard
  obtain ⟨c', key, hCaller', hGrants'⟩ := h.sound.said k voice hSaid
  have hNe : k ≠ i := by
    rintro rfl
    cases hCaller.symm.trans hCaller'
    obtain rfl := h.sound.granted_unique hGrants hGrants'
    exact hOther rfl
  obtain ⟨t, d, hAsked, hTask, _⟩ := hGrants
  obtain ⟨t', d', hAsked', hTask', hSame⟩ := hGrants'
  obtain ⟨_, hSource⟩ := InitResponse.mk.injEq .. ▸ hSame
  refine ⟨k, hNe, hSaid, ?_⟩
  rw [hSource]
  calc
    List.Sublist _ ((history.filterMap (VoiceServer.Output.encrypts t)).filter
        fun heard => heard.sourceId = d'.sourceId) :=
      (h.heard_sublist hLawful hRelaying hCarried hCaller hAsked hTask).filter _
    List.Sublist _ (s.talk.channel.heard d'.sourceId) := hRelaying.encrypts_sublist hTask d'.sourceId
    List.Sublist _ (saidBy k tr) := h.said_sublist hLawful hRelaying hHanded hCaller' hAsked' hTask'

/-- Two clients join, and the first one says two bytes, one after the other. -/
def recited : List Ordered.Event :=
  [.talk (.server (.control (.openConnection 1 "a") ⟨10, [1]⟩)),
    .talk (.server (.control (.openConnection 2 "b") ⟨20, [2]⟩)),
    .talk (.join ⟨.v4 1, 9⟩ 1 10), .talk (.join ⟨.v4 1, 8⟩ 2 20), .talk (.caller 0 (.attempt true)),
    .talk (.caller 1 (.attempt true)), .arrive 0 true, .arrive 1 true, .deliver 0 0, .deliver 1 1,
    .talk (.announce 0 ⟨0, []⟩), .talk (.server (.task 0 .control)), .talk (.server .resume),
    .talk (.caller 0 (.ready [1] 10 true false 5 6)),
    .talk (.announce 1 ⟨0, []⟩), .talk (.server (.task 1 .control)), .talk (.server .resume),
    .talk (.caller 1 (.ready [2] 20 true false 0 0)), .talk (.caller 0 (.record [7] true)),
    .talk (.caller 0 (.record [8] true)), .arrive 2 true, .arrive 3 true,
    .talk (.server (.task 0 (.message true))), .talk (.server (.task 0 (.message true))),
    .talk (.server (.task 1 (.broadcast true))), .talk (.server (.task 1 (.broadcast true))),
    .deliver 1 2, .deliver 1 3]

theorem heard_in_order_recited :
    ∃ s tr, Machine.run (Ordered.step .tagged) (.new 0 0) recited = some (s, tr) ∧
      heardBy 1 tr = [⟨5, 6, 10, [7]⟩, ⟨6, 966, 10, [8]⟩] ∧ ∃ k, k ≠ 1 ∧ .said k ⟨6, 966, 10, [8]⟩ ∈ tr ∧
        ((heardBy 1 tr).filter fun heard => heard.sourceId = 10).Sublist (saidBy k tr) := by
  have hAny : (Machine.run (Ordered.step .tagged) (.new 0 0) recited).any (fun r =>
      decide ((r.1.talk.channel.spawned.map VoiceConnection.sourceId).Nodup ∧
        (∀ c ∈ r.1.talk.callers, World.tagged.parse c.addr.ip.toString = some c.addr.ip) ∧
        (r.1.talk.callers.map Caller.clientId).Nodup ∧
        heardBy 1 r.2 = [⟨5, 6, 10, [7]⟩, ⟨6, 966, 10, [8]⟩])) = true := by
    decide +kernel
  obtain ⟨⟨s, tr⟩, hRun, hAll⟩ := (Option.any_eq_true _ _).mp hAny
  obtain ⟨hSources, hParses, hClients, hHeard⟩ := of_decide_eq_true hAll
  have hLast : .heard 1 ⟨6, 966, 10, [8]⟩ ∈ tr := by
    rw [← mem_heardBy, hHeard]
    exact List.mem_cons_of_mem _ List.mem_cons_self
  exact ⟨s, tr, hRun, hHeard, heard_in_order .tagged VoiceServer.tagged_lawful 0 0 recited s tr hRun
    (VoiceChannel.distinct_of_nodup hSources) hParses (Talk.named_of_nodup hClients) 1 _ hLast⟩

end Voices.Call
