import Voices.Client.Caller
import Voices.VoiceServer.Genuine

/-!
# A voice channel and its clients

The forwarder of a channel with its tasks, the clients on their sockets, and the network between
them. The network keeps every datagram that was ever sent: one may arrive at any time, in any order,
more than once or never. Whoever is no client sends the channel what they like from other addresses.
The requests that the sessions make of the channel may be any, but an `Establish` names the address
that a client has discovered, once, and a client runs with the key that it was answered.
-/

namespace Voices.VoiceServer.Output

def sent? : Output → Option (SocketAddr × ServerMessage)
  | .sent addr message => some (addr, message)
  | .task _ (.sent addr message) => some (addr, message)
  | _ => none

/-- The datagram that the socket of the channel sends. -/
def datagram? (out : Output) : Option (SocketAddr × List UInt8) :=
  out.sent?.bind fun (addr, message) => (UdpWithBuf.new.sendTo message addr true).toOption

def answer? : Output → Option (ChannelCtl × Response)
  | .answered ctl response => some (ctl, response)
  | _ => none

end Voices.VoiceServer.Output

namespace Voices.Call

open Semantics VoiceServer Client.Udp

/-- What the clients and the server rely on from outside: the cipher, the number of values that the
broadcast of the channel keeps, and the parser of addresses. -/
structure World where
  aead : Aead Key Nonce
  slots : Nat
  parse : String → Option IpAddr

/-- The channel decodes what its socket receives. -/
def World.env (w : World) : Env where
  decode datagram := ClientMessage.decode (datagram.take UdpWithBuf.new.bufSize)
  aead := w.aead
  slots := w.slots

/-- `up` and `down` are the datagrams that clients and channel have sent, with the address of the
client. Time is the same for all. -/
structure Talk where
  channel : VoiceChannel
  callers : List Caller
  up : List (SocketAddr × List UInt8)
  down : List (SocketAddr × List UInt8)
  answers : List (ChannelCtl × Response)

inductive Event where
  | join (addr : SocketAddr) (clientId : Uuid) (sourceId : UInt32)
  | caller (i : Nat) (e : Caller.Event)
  | announce (i : Nat) (draw : Draw)
  | server (e : VoiceServer.Event)

/-- What a client says and hears, and the task that is asked to talk to an address. -/
inductive Output where
  | said (i : Nat) (voice : Voice)
  | heard (i : Nat) (voice : Voice)
  | asked (addr : SocketAddr) (t : TaskId)
  deriving DecidableEq

/-- What a client lets the outside see, but for its datagrams. -/
def Output.ofCaller? (i : Nat) : Caller.Output → Option Output
  | .said voice => some (.said i voice)
  | .heard voice => some (.heard i voice)
  | .datagram _ => none

end Call

namespace Client.Udp.Caller.Output

def datagram? : Caller.Output → Option (List UInt8)
  | .datagram bytes => some bytes
  | _ => none

end Client.Udp.Caller.Output

namespace Call.Talk

open Semantics VoiceServer Client.Udp

def new (roomId : Uuid) (now : Nat) : Talk :=
  { channel := .new roomId now, callers := [], up := [], down := [], answers := [] }

/-- What may happen to a client: it receives what was sent to its address, and gets the key with
which the `Establish` for its address was answered. -/
def allows (s : Talk) (c : Caller) : Caller.Event → Bool
  | .recv datagram => decide ((c.addr, datagram) ∈ s.down)
  | .announce => false
  | .ready key srcId _ _ _ _ =>
    match c.phase with
    | .discovered addr =>
      decide ((.establish c.clientId addr, .established (some ⟨key, srcId⟩)) ∈ s.answers)
    | _ => false
  | _ => true

/-- What may happen to the channel: a datagram comes from a client that has sent it, or from an
address that no client has. -/
def admits (s : Talk) : VoiceServer.Event → Bool
  | .datagram sender bytes _ =>
    decide ((sender, bytes) ∈ s.up) || s.callers.all fun c => !sameAddr c.addr sender
  | .control (.establish _ _) _ => false
  | _ => true

def joined (s : Talk) (c : Caller) : Talk := { s with callers := s.callers ++ [c] }

def moved (s : Talk) (i : Nat) (c : Caller) (o : List Caller.Output) : Talk :=
  { s with
    callers := s.callers.set i c
    up := s.up ++ (o.filterMap Caller.Output.datagram?).map fun bytes => (c.addr, bytes) }

def served (s : Talk) (channel : VoiceChannel) (o : List VoiceServer.Output) : Talk :=
  { s with
    channel
    down := s.down ++ o.filterMap VoiceServer.Output.datagram?
    answers := s.answers ++ o.filterMap VoiceServer.Output.answer? }

/-- A step of the channel in which its socket can send what is sent. -/
def serve (w : World) (s : Talk) (e : VoiceServer.Event) : Option Talk :=
  match s.channel.step w.env e with
  | none => none
  | some (channel, o) =>
    if o.all fun out => out.sent?.isNone || out.datagram?.isSome then some (s.served channel o) else none

/-- The task whose answer to an `Establish` is waited for. -/
def asked (channel : VoiceChannel) (addr : SocketAddr) : List Output :=
  match channel.await with
  | .control _ t => [.asked addr t]
  | _ => []

/-- The client announces its address, and its session lets the channel establish it. -/
def announce (w : World) (s : Talk) (i : Nat) (c : Caller) (draw : Draw) : Option (Talk × List Output) :=
  match c.phase, c.step s.channel.now .announce with
  | .discovered addr, some (c', _) =>
    ((s.moved i c' []).serve w (.control (.establish c.clientId addr) draw)).map fun s' =>
      (s', asked s'.channel addr)
  | _, _ => none

def step (w : World) (s : Talk) : Event → Option (Talk × List Output)
  | .join addr clientId sourceId =>
    if s.callers.all fun c => !sameAddr c.addr addr then
      some (s.joined (.new w.aead w.parse addr clientId sourceId), [])
    else none
  | .caller i e =>
    match s.callers[i]? with
    | none => none
    | some c =>
      if s.allows c e then
        (c.step s.channel.now e).map fun (c', o) => (s.moved i c' o, o.filterMap (Output.ofCaller? i))
      else none
  | .announce i draw =>
    match s.callers[i]? with
    | none => none
    | some c => s.announce w i c draw
  | .server e => if s.admits e then (s.serve w e).map fun s' => (s', []) else none

/-- What an event does to the channel and its clients. -/
inductive Effect (w : World) (s : Talk) : Event → Talk → List Output → Prop where
  | joined (addr : SocketAddr) (clientId : Uuid) (sourceId : UInt32)
      (hNone : ∀ c ∈ s.callers, sameAddr c.addr addr = false) :
      Effect w s (.join addr clientId sourceId)
        (s.joined (.new w.aead w.parse addr clientId sourceId)) []
  | moved (i : Nat) (e : Caller.Event) (c c' : Caller) (o : List Caller.Output)
      (hCaller : s.callers[i]? = some c) (hAllows : s.allows c e = true)
      (hEffect : Caller.Effect s.channel.now c e c' o) :
      Effect w s (.caller i e) (s.moved i c' o) (o.filterMap (Output.ofCaller? i))
  | announced (i : Nat) (draw : Draw) (c : Caller) (addr : SocketAddr) (channel : VoiceChannel)
      (o : List VoiceServer.Output) (hCaller : s.callers[i]? = some c)
      (hPhase : c.phase = .discovered addr) (hNew : c.announced = false)
      (hStep : s.channel.step w.env (.control (.establish c.clientId addr) draw) = some (channel, o)) :
      Effect w s (.announce i draw) ((s.moved i { c with announced := true } []).served channel o)
        (asked channel addr)
  | served (e : VoiceServer.Event) (channel : VoiceChannel) (o : List VoiceServer.Output)
      (hAdmits : s.admits e = true) (hStep : s.channel.step w.env e = some (channel, o)) :
      Effect w s (.server e) (s.served channel o) []

section Steps

variable {w : World} {s s' : Talk} {o : List Output}

theorem serve_eq {e : VoiceServer.Event} (h : s.serve w e = some s') :
    ∃ channel o, s.channel.step w.env e = some (channel, o) ∧ s' = s.served channel o := by
  unfold serve at h
  split at h
  · cases h
  · rename_i channel o hStep
    split at h
    · exact ⟨channel, o, hStep, (Option.some.inj h).symm⟩
    · cases h

theorem step_effect {e : Event} (hStep : s.step w e = some (s', o)) : Effect w s e s' o := by
  cases e with
  | join addr clientId sourceId =>
    simp only [step] at hStep
    split at hStep
    · rename_i hAll
      cases hStep
      exact .joined addr clientId sourceId fun c hMem => by simpa using List.all_eq_true.mp hAll c hMem
    · cases hStep
  | caller i e =>
    simp only [step] at hStep
    split at hStep
    · cases hStep
    · rename_i c hCaller
      split at hStep
      · rename_i hAllows
        obtain ⟨r, hMoved, hEq⟩ := Option.map_eq_some_iff.mp hStep
        cases hEq
        exact .moved i e c r.1 r.2 hCaller hAllows (Caller.step_effect hMoved)
      · cases hStep
  | announce i draw =>
    simp only [step] at hStep
    split at hStep
    · cases hStep
    · rename_i c hCaller
      unfold announce at hStep
      split at hStep
      · rename_i addr c' o₁ hPhase hAnnounce
        obtain ⟨s₁, hServe, hEq⟩ := Option.map_eq_some_iff.mp hStep
        cases hEq
        obtain ⟨channel, o₂, hChannel, rfl⟩ := serve_eq hServe
        obtain ⟨hNew, hEq⟩ := Caller.announce_eq hAnnounce
        cases hEq
        exact .announced i draw c addr channel o₂ hCaller hPhase hNew hChannel
      · cases hStep
  | server e =>
    simp only [step] at hStep
    split at hStep
    · rename_i hAdmits
      obtain ⟨s₁, hServe, hEq⟩ := Option.map_eq_some_iff.mp hStep
      cases hEq
      obtain ⟨channel, o₁, hChannel, rfl⟩ := serve_eq hServe
      exact .served e channel o₁ hAdmits hChannel
    · cases hStep

end Steps

end Call.Talk

end Voices
