import Voices.Call.Talk

/-!
# What the clients know

Once a client runs, it has the key of the task that was asked to talk to it, and so the channel
receives of it and sends to it what is encrypted under this key. `Sound` says so of a channel with its
clients; here it is shown what it means for the next event of one of them.
-/

namespace Voices.Call

open Semantics VoiceServer Client.Udp

theorem World.decode_send (w : World) {message : ClientMessage} {taken : Bool} {bytes : List UInt8}
    (h : UdpWithBuf.new.send message taken = .ok bytes) : w.env.decode bytes = some message := by
  obtain ⟨rfl, hFits⟩ := UdpWithBuf.send_eq_ok h
  have hRecv := UdpWithBuf.recvProtoFrom_encode ⟨.v4 0, 0⟩ hFits
  exact UdpWithBuf.recvProtoFrom_eq_ok hRecv

/-- What the channel sends is what the client at the other end receives. -/
theorem recv_datagram {out : VoiceServer.Output} {addr : SocketAddr} {bytes : List UInt8}
    (h : out.datagram? = some (addr, bytes)) :
    ∃ message, out.sent? = some (addr, message) ∧ UdpWithBuf.new.recv bytes = .ok message := by
  obtain ⟨⟨target, message⟩, hSent, hSend⟩ := Option.bind_eq_some_iff.mp h
  cases hResult : UdpWithBuf.new.sendTo message target true with
  | error error => simp [hResult, Except.toOption] at hSend
  | ok datagram =>
    simp only [hResult, Except.toOption, Option.some.injEq] at hSend
    subst hSend
    obtain ⟨rfl, rfl, hFits⟩ := UdpWithBuf.sendTo_eq_ok hResult
    exact ⟨message, hSent, UdpWithBuf.recv_encode hFits⟩

theorem sent?_eq_some {out : VoiceServer.Output} {addr : SocketAddr} {message : ServerMessage}
    (h : out.sent? = some (addr, message)) :
    out = .sent addr message ∨ ∃ t, out = .task t (.sent addr message) := by
  cases out with
  | sent =>
    cases h
    exact .inl rfl
  | task t output =>
    cases output with
    | sent =>
      cases h
      exact .inr ⟨t, rfl⟩
    | encrypted => cases h
  | _ => cases h

theorem answer?_eq_some {out : VoiceServer.Output} {ctl : ChannelCtl} {response : Response}
    (h : out.answer? = some (ctl, response)) : out = .answered ctl response := by
  cases out with
  | answered =>
    cases h
    rfl
  | _ => cases h

theorem sameAddr_self (addr : SocketAddr) : sameAddr addr addr = true := by
  obtain ⟨ip | ip, port⟩ := addr <;> simp [sameAddr]

namespace Talk

/-- The facts that the channel relies on. -/
def facts (s : Talk) (tr : List Output) : Facts where
  said voice := ∃ i, .said i voice ∈ tr
  pinged seq := seq.toNat ≤ s.channel.now
  asked addr t := .asked addr t ∈ tr
  announced addr := ∃ c ∈ s.callers, c.addr = addr ∧ c.announced = true

/-- The text that the channel sends of the address of a client is parsed to it. -/
def Parses (w : World) (s : Talk) : Prop := ∀ c ∈ s.callers, w.parse c.addr.ip.toString = some c.addr.ip

/-- A client as the channel knows it: once it runs, it has the key and the source id of the task that
was asked to talk to it. -/
structure Known (w : World) (f : Facts) (channel : VoiceChannel) (c : Caller) : Prop where
  aead : c.config.aead = w.aead
  parse : c.config.parse = w.parse
  alive : c.phase ≠ .died
  discovered : ∀ addr, c.phase = .discovered addr → addr = c.addr
  running : c.running = true → channel.Grants f c.addr ⟨c.config.key, c.config.sourceId⟩

structure Sound (w : World) (tr : List Output) (s : Talk) : Prop where
  wf : s.channel.Wf
  authentic : s.channel.Authentic w.env.aead (s.facts tr)
  up : ∀ sender bytes (msg : InternalMsg), (sender, bytes) ∈ s.up →
    w.env.decode bytes = some ⟨some msg.payload⟩ → s.channel.Genuine w.env.aead (s.facts tr) msg
  down : ∀ addr bytes, (addr, bytes) ∈ s.down →
    ∃ message, UdpWithBuf.new.recv bytes = .ok message ∧ s.channel.Sends w.env.aead (s.facts tr) addr message
  answers : ∀ clientId addr response, (.establish clientId addr, .established (some response)) ∈ s.answers →
    s.channel.Grants (s.facts tr) addr response
  known : ∀ c ∈ s.callers, Known w (s.facts tr) s.channel c
  distinct : ∀ (i j : Nat) (c d : Caller), s.callers[i]? = some c → s.callers[j]? = some d →
    c.addr = d.addr → i = j
  announced : ∀ addr t, .asked addr t ∈ tr → (s.facts tr).announced addr
  once : ∀ addr t t', .asked addr t ∈ tr → .asked addr t' ∈ tr → t = t'
  said : ∀ i voice, .said i voice ∈ tr → ∃ (c : Caller) (key : Key), s.callers[i]? = some c ∧
    s.channel.Grants (s.facts tr) c.addr ⟨key, voice.sourceId⟩
  heard : ∀ i voice, .heard i voice ∈ tr → (s.facts tr).said voice ∧
    ∃ (c : Caller) (response : InitResponse), s.callers[i]? = some c ∧
      s.channel.Grants (s.facts tr) c.addr response ∧ voice.sourceId ≠ response.sourceId

theorem Known.later {w : World} {f f' : Facts} {channel channel' : VoiceChannel} {c : Caller}
    (h : Known w f channel c) (hTasks : TasksEffect w.env channel channel') (hLe : f.Le f') :
    Known w f' channel' c :=
  ⟨h.aead, h.parse, h.alive, h.discovered, fun hRunning => (h.running hRunning).later hTasks hLe⟩

theorem Known.stays {w : World} {f : Facts} {channel : VoiceChannel} {c c' : Caller}
    (h : Known w f channel c) (hStays : Caller.Stays c c') : Known w f channel c' := by
  refine ⟨?_, ?_, fun hDied => h.alive (hStays.of_not_alive hDied rfl), ?_, ?_⟩
  · rw [hStays.config]
    exact h.aead
  · rw [hStays.config]
    exact h.parse
  · intro addr hPhase
    rw [hStays.addr]
    exact h.discovered addr (hStays.discovered addr hPhase)
  · intro hRunning
    rw [hStays.addr, hStays.config]
    exact h.running (hStays.running hRunning)

section Callers

variable {w : World} {tr : List Output} {s : Talk} {c c' : Caller} {e : Caller.Event} {o : List Caller.Output}

theorem Sound.granted_unique (h : Sound w tr s) {addr : SocketAddr} {response response' : InitResponse}
    (hGrants : s.channel.Grants (s.facts tr) addr response)
    (hGrants' : s.channel.Grants (s.facts tr) addr response') : response = response' := by
  obtain ⟨t, d, hAsked, hTask, rfl⟩ := hGrants
  obtain ⟨t', d', hAsked', hTask', rfl⟩ := hGrants'
  obtain rfl := h.once addr t t' hAsked hAsked'
  cases hTask.symm.trans hTask'
  rfl

/-- Voice for a client that runs is decrypted to what another client said. -/
theorem Sound.hears (h : Sound w tr s) (hLawful : w.aead.Lawful) (hMem : c ∈ s.callers)
    (hRunning : c.running = true) {sent : Voice} (hTold : s.channel.Told w.env.aead (s.facts tr) c.addr sent) :
    ∃ voice, (s.facts tr).said voice ∧ voice.sourceId ≠ c.config.sourceId ∧
      decryptVoice c.config.aead c.config.key sent = some voice.payload ∧
      { sent with payload := voice.payload } = voice := by
  obtain ⟨t, d, voice, hAsked, hTask, hSaid, hOther, payload, hEncrypt, rfl⟩ := hTold
  have hKnown := h.known c hMem
  have hSame : (⟨c.config.key, c.config.sourceId⟩ : InitResponse) = d.initResponse :=
    h.granted_unique (hKnown.running hRunning) ⟨t, d, hAsked, hTask, rfl⟩
  obtain ⟨hKey, hSource⟩ := InitResponse.mk.injEq .. ▸ hSame
  refine ⟨voice, hSaid, ?_, ?_, rfl⟩
  · rw [hSource]
    exact hOther
  · rw [hKey, hKnown.aead]
    exact decryptVoice_of_encryptVoice hLawful hEncrypt

/-- `announce` is no event that is allowed alone. -/
def Allows (s : Talk) (c : Caller) (e : Caller.Event) : Prop := e = .announce ∨ s.allows c e = true

theorem Allows.recv {datagram : List UInt8} (h : s.Allows c (.recv datagram)) :
    (c.addr, datagram) ∈ s.down := by
  rcases h with h | h
  · cases h
  · exact of_decide_eq_true h

theorem Allows.ready {key : Key} {srcId : UInt32} {micOk mute : Bool} {sequence streamTime : UInt64}
    {addr : SocketAddr} (hPhase : c.phase = .discovered addr)
    (h : s.Allows c (.ready key srcId micOk mute sequence streamTime)) :
    (.establish c.clientId addr, .established (some ⟨key, srcId⟩)) ∈ s.answers := by
  rcases h with h | h
  · cases h
  · simp only [allows, hPhase] at h
    exact of_decide_eq_true h

/-- The answer to a request of a client is the address that the request came from. -/
theorem Sound.located (h : Sound w tr s) (hParses : s.Parses w) (hMem : c ∈ s.callers) {message : ServerMessage}
    (hSends : s.channel.Sends w.env.aead (s.facts tr) c.addr message) {attempt : Nat} {addr : SocketAddr}
    (hPhase : Endpoint.discoverIp c.config attempt message = .discovered addr) : addr = c.addr := by
  unfold Endpoint.discoverIp at hPhase
  split at hPhase
  · rename_i disco hMessage
    obtain rfl : disco = { ip := c.addr.ip.toString, port := c.addr.port.toUInt32 } := by
      simpa only [VoiceChannel.Sends, hMessage] using hSends
    rw [(h.known c hMem).parse, hParses c hMem] at hPhase
    simpa using hPhase.symm
  · cases hPhase

theorem discoverIp_alive (config : Config) (attempt : Nat) (message : ServerMessage) :
    Endpoint.discoverIp config attempt message ≠ .died ∧
      (Endpoint.discoverIp config attempt message).isReceiving = false := by
  unfold Endpoint.discoverIp
  split
  · split <;> simp [Phase.isReceiving]
  · simp [Phase.isReceiving]

/-- What `udp_rx` makes of a message of the channel. -/
theorem Sound.received (h : Sound w tr s) (hLawful : w.aead.Lawful) (hMem : c ∈ s.callers)
    {received : UInt64} {state : ReceiverState} (hPhase : c.phase = .receiving received state)
    {datagram : List UInt8} (hSent : (c.addr, datagram) ∈ s.down) (now : Nat) :
    (∃ phase, phase ≠ .died ∧ (∀ addr, phase ≠ .discovered addr) ∧
        c.udpRx now received state datagram = ({ c with phase }, [])) ∨
      ∃ phase counted voice, phase ≠ .died ∧ (∀ addr, phase ≠ .discovered addr) ∧
        (s.facts tr).said voice ∧ voice.sourceId ≠ c.config.sourceId ∧
        c.udpRx now received state datagram = ({ c with phase, received := counted }, [.heard voice]) := by
  have hRunning : c.running = true := by simp [Caller.running, hPhase, Phase.isReceiving]
  obtain ⟨message, hRecv, hSends⟩ := h.down c.addr datagram hSent
  obtain ⟨_ | pong | sent | disco⟩ := message
  · cases hSends
  · refine .inl ⟨_, ?_, ?_, Caller.udpRx_silent hRecv rfl⟩
    · simp only [Endpoint.udpRx]
      split <;> simp
    · intro addr
      simp only [Endpoint.udpRx]
      split <;> simp
  · obtain ⟨voice, hSaid, hOther, hDecrypt, hWhole⟩ := h.hears hLawful hMem hRunning hSends
    have hHeard : heard? c.config ⟨some (.voice sent)⟩ = some voice := by
      simp only [heard?, hDecrypt, Option.map_some, hWhole]
    refine .inr ⟨_, _, voice, ?_, ?_, hSaid, hOther, Caller.udpRx_heard hRecv hHeard⟩
    · simp only [Endpoint.udpRx, hDecrypt]
      split <;> simp
    · intro addr
      simp only [Endpoint.udpRx, hDecrypt]
      split <;> simp
  · exact .inl ⟨.panicked, by simp, by simp, Caller.udpRx_silent hRecv rfl⟩

theorem Sound.known_step (h : Sound w tr s) (hLawful : w.aead.Lawful) (hParses : s.Parses w)
    (hMem : c ∈ s.callers) (hEffect : Caller.Effect s.channel.now c e c' o) (hAllows : s.Allows c e) :
    Known w (s.facts tr) s.channel c' := by
  have hKnown := h.known c hMem
  cases hEffect with
  | stayed e c' hStays => exact hKnown.stays hStays
  | asked taken c' bytes hStays => exact hKnown.stays hStays
  | spoke voice taken said payload bytes c' hStays => exact hKnown.stays hStays
  | pinged taken ping bytes c' hStays => exact hKnown.stays hStays
  | located datagram attempt deadline msg hPhase hRecv =>
    obtain ⟨message, hSame, hSends⟩ := h.down c.addr datagram hAllows.recv
    cases hRecv.symm.trans hSame
    obtain ⟨hAlive, hReceiving⟩ := discoverIp_alive c.config attempt msg
    refine ⟨hKnown.aead, hKnown.parse, hAlive, fun addr => h.located hParses hMem hSends, ?_⟩
    intro hRunning
    rcases Caller.running_iff.mp hRunning with hTx | hFound
    · exact hKnown.running (Caller.running_iff.mpr (.inl hTx))
    · cases hReceiving.symm.trans hFound
  | received datagram received state hPhase =>
    have hRunning : c.running = true := by simp [Caller.running, hPhase, Phase.isReceiving]
    rcases h.received hLawful hMem hPhase hAllows.recv s.channel.now with
      ⟨phase, hAlive, hOther, hEq⟩ | ⟨phase, counted, voice, hAlive, hOther, _, _, hEq⟩
    · rw [hEq]
      exact ⟨hKnown.aead, hKnown.parse, hAlive, fun addr hFound => absurd hFound (hOther addr),
        fun _ => hKnown.running hRunning⟩
    · rw [hEq]
      exact ⟨hKnown.aead, hKnown.parse, hAlive, fun addr hFound => absurd hFound (hOther addr),
        fun _ => hKnown.running hRunning⟩
  | announced addr hPhase =>
    exact ⟨hKnown.aead, hKnown.parse, hKnown.alive, hKnown.discovered, hKnown.running⟩
  | started key srcId micOk mute sequence streamTime addr hPhase hAnnounced =>
    obtain rfl := hKnown.discovered addr hPhase
    refine ⟨hKnown.aead, hKnown.parse, by simp [Caller.run], by simp [Caller.run], fun _ => ?_⟩
    exact h.answers c.clientId c.addr ⟨key, srcId⟩ (hAllows.ready hPhase)

/-- A client panics on a message that is unexpected, and on no other. -/
theorem Sound.panicked_step (h : Sound w tr s) (hEffect : Caller.Effect s.channel.now c e c' o)
    (hAllows : s.Allows c e) (hPanicked : c'.phase = .panicked) :
    c.phase = .panicked ∨ ∃ datagram, e = .recv datagram ∧ c.Unexpected datagram := by
  cases hEffect with
  | stayed e c' hStays => exact .inl (hStays.of_not_alive hPanicked rfl)
  | asked taken c' bytes hStays => exact .inl (hStays.of_not_alive hPanicked rfl)
  | spoke voice taken said payload bytes c' hStays => exact .inl (hStays.of_not_alive hPanicked rfl)
  | pinged taken ping bytes c' hStays => exact .inl (hStays.of_not_alive hPanicked rfl)
  | located datagram attempt deadline msg =>
    have hAlive := Endpoint.discoverIp_alive c.config attempt msg
    rw [show Endpoint.discoverIp c.config attempt msg = .panicked from hPanicked] at hAlive
    cases hAlive
  | received datagram received state hPhase =>
    rcases Caller.udpRx_panicked hPhase hPanicked with hUnexpected | ⟨message, pong, hRecv, hPong, hLate⟩
    · exact .inr ⟨datagram, rfl, hUnexpected⟩
    · -- The channel answers a ping no earlier than the client has sent it.
      obtain ⟨message', hSame, hSends⟩ := h.down c.addr datagram hAllows.recv
      cases hRecv.symm.trans hSame
      have hPinged : (s.facts tr).pinged pong.seq := by
        simpa only [VoiceChannel.Sends, hPong] using hSends
      exact absurd hLate (Nat.not_lt_of_le hPinged)
  | announced addr hPhase => exact .inl hPanicked
  | started => cases hPanicked

theorem announced_addr (c : Caller) : ({ c with announced := true } : Caller).addr = c.addr := rfl

theorem announced_clientId (c : Caller) : ({ c with announced := true } : Caller).clientId = c.clientId := rfl

/-- Who a client is does not change, and what it has announced stays announced. -/
theorem effect_same {now : Nat} (hEffect : Caller.Effect now c e c' o) :
    c'.addr = c.addr ∧ c'.clientId = c.clientId ∧ (c.announced = true → c'.announced = true) := by
  have hStays {c' : Caller} (hStays : Caller.Stays c c') :
      c'.addr = c.addr ∧ c'.clientId = c.clientId ∧ (c.announced = true → c'.announced = true) :=
    ⟨hStays.addr, hStays.clientId, fun h => hStays.announced.trans h⟩
  cases hEffect with
  | stayed e c' h => exact hStays h
  | asked taken c' bytes h => exact hStays h
  | spoke voice taken said payload bytes c' h => exact hStays h
  | pinged taken ping bytes c' h => exact hStays h
  | located => exact ⟨rfl, rfl, id⟩
  | received datagram received state =>
    obtain ⟨phase, counted, hEq⟩ := Caller.udpRx_eq now c received state datagram
    rw [hEq]
    exact ⟨rfl, rfl, id⟩
  | announced => exact ⟨rfl, rfl, fun _ => rfl⟩
  | started => exact ⟨rfl, rfl, id⟩

/-- What a client says is under its source id. -/
theorem effect_said {now : Nat} (hEffect : Caller.Effect now c e c' o) {voice : Voice} (hMem : .said voice ∈ o) :
    c.running = true ∧ voice.sourceId = c.config.sourceId := by
  cases hEffect with
  | spoke chunk taken said payload bytes c' hStays hRunning hSource =>
    obtain rfl : voice = said := by simpa using hMem
    exact ⟨hRunning, hSource⟩
  | received datagram received state =>
    obtain ⟨voice', hEq⟩ := Caller.udpRx_output hMem
    cases hEq
  | stayed | located | announced | started => cases hMem
  | asked | pinged => simp at hMem

theorem Sound.heard_step (h : Sound w tr s) (hLawful : w.aead.Lawful) (hMem : c ∈ s.callers)
    (hEffect : Caller.Effect s.channel.now c e c' o) (hAllows : s.Allows c e) {voice : Voice}
    (hHeard : .heard voice ∈ o) :
    (s.facts tr).said voice ∧ c.running = true ∧ voice.sourceId ≠ c.config.sourceId := by
  cases hEffect with
  | received datagram received state hPhase =>
    have hRunning : c.running = true := by simp [Caller.running, hPhase, Phase.isReceiving]
    rcases h.received hLawful hMem hPhase hAllows.recv s.channel.now with
      ⟨phase, _, _, hEq⟩ | ⟨phase, counted, voice', _, _, hSaid, hOther, hEq⟩
    · rw [hEq] at hHeard
      cases hHeard
    · rw [hEq] at hHeard
      obtain rfl : voice = voice' := by simpa using hHeard
      exact ⟨hSaid, hRunning, hOther⟩
  | stayed | located | announced | started => cases hHeard
  | asked | pinged | spoke => simp at hHeard

/-- A datagram of a client holds what it says, or tells the time, or asks for its address. -/
theorem Sound.sent_step (h : Sound w tr s) (hMem : c ∈ s.callers)
    (hEffect : Caller.Effect s.channel.now c e c' o) {bytes : List UInt8} (hSent : .datagram bytes ∈ o)
    {msg : InternalMsg} (hDecode : w.env.decode bytes = some ⟨some msg.payload⟩) {f : Facts}
    (hSaid : ∀ voice, .said voice ∈ o → f.said voice) (hPinged : f.pinged = (s.facts tr).pinged) :
    s.channel.Genuine w.env.aead f msg := by
  have hKnown := h.known c hMem
  cases hEffect with
  | asked taken c' bytes' hStays hSend =>
    obtain rfl : bytes = bytes' := by simpa using hSent
    cases msg with
    | voice | ping => cases (w.decode_send hSend).symm.trans hDecode
  | spoke chunk taken said payload bytes' c' hStays hRunning hSource hEncrypt hSend =>
    obtain rfl : bytes = bytes' := by simpa using hSent
    cases msg with
    | ping => cases (w.decode_send hSend).symm.trans hDecode
    | voice datagram =>
      obtain rfl : { said with payload } = datagram := by
        simpa [InternalMsg.payload] using (w.decode_send hSend).symm.trans hDecode
      obtain ⟨t, d, _, hTask, hSame⟩ := hKnown.running hRunning
      obtain ⟨hKey, hSourceId⟩ := InitResponse.mk.injEq .. ▸ hSame
      refine ⟨c.config.key, said, hSaid said (by simp), ⟨t, d, hTask, ?_, hKey.symm⟩, payload, ?_, rfl⟩
      · rw [hSource, hSourceId]
      · rw [← hEncrypt, hKnown.aead]
        rfl
  | pinged taken ping bytes' c' hStays hRunning hSeq hSend =>
    obtain rfl : bytes = bytes' := by simpa using hSent
    cases msg with
    | voice => cases (w.decode_send hSend).symm.trans hDecode
    | ping ping' =>
      obtain rfl : ping = ping' := by
        simpa [InternalMsg.payload] using (w.decode_send hSend).symm.trans hDecode
      simp only [VoiceChannel.Genuine, hPinged]
      show ping.seq.toNat ≤ s.channel.now
      rw [hSeq, Nat.toUInt64_eq, UInt64.toNat_ofNat']
      exact Nat.mod_le _ _
  | received datagram received state =>
    obtain ⟨voice, hEq⟩ := Caller.udpRx_output hSent
    cases hEq
  | stayed | located | announced | started => cases hSent

end Callers

section Outputs

variable {i k : Nat} {o : List Caller.Output} {voice : Voice}

theorem said_mem (h : .said k voice ∈ o.filterMap (Output.ofCaller? i)) : k = i ∧ .said voice ∈ o := by
  obtain ⟨out, hMem, hEq⟩ := List.mem_filterMap.mp h
  cases out with
  | said voice' =>
    cases hEq
    exact ⟨rfl, hMem⟩
  | heard | datagram => cases hEq

theorem heard_mem (h : .heard k voice ∈ o.filterMap (Output.ofCaller? i)) : k = i ∧ .heard voice ∈ o := by
  obtain ⟨out, hMem, hEq⟩ := List.mem_filterMap.mp h
  cases out with
  | heard voice' =>
    cases hEq
    exact ⟨rfl, hMem⟩
  | said | datagram => cases hEq

theorem asked_not_mem {addr : SocketAddr} {t : TaskId} : .asked addr t ∉ o.filterMap (Output.ofCaller? i) := by
  intro h
  obtain ⟨out, _, hEq⟩ := List.mem_filterMap.mp h
  cases out <;> cases hEq

theorem mem_up {s : Talk} {c : Caller} {sender : SocketAddr} {bytes : List UInt8}
    (h : (sender, bytes) ∈ (s.moved i c o).up) :
    (sender, bytes) ∈ s.up ∨ (sender = c.addr ∧ .datagram bytes ∈ o) := by
  rcases List.mem_append.mp h with hOld | hNew
  · exact .inl hOld
  · obtain ⟨bytes', hSent, hEq⟩ := List.mem_map.mp hNew
    cases hEq
    obtain ⟨out, hMem, hOut⟩ := List.mem_filterMap.mp hSent
    cases out with
    | datagram =>
      cases hOut
      exact .inr ⟨rfl, hMem⟩
    | said | heard => cases hOut

end Outputs

end Talk

end Voices.Call
