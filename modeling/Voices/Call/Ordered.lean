import Voices.Call.Routed
import Mathlib.Logic.Function.Basic

/-!
# A network that keeps the order

A talk whose network may lose datagrams, but neither repeats them nor lets one overtake another: of
what is sent between a client and the channel in one direction, a datagram only arrives if it was sent
after all that arrived before. Whatever else can happen in a talk can happen here.
-/

namespace Voices.Client.Udp.Caller

def Event.recv? : Event → Option (List UInt8)
  | .recv datagram => some datagram
  | _ => none

def Output.said? : Output → Option VoiceServer.Voice
  | .said voice => some voice
  | _ => none

def Output.heard? : Output → Option VoiceServer.Voice
  | .heard voice => some voice
  | _ => none

end Voices.Client.Udp.Caller

namespace Voices.Call

open Semantics VoiceServer Client.Udp

/-- `up` and `down` are the positions behind the last datagram of an address that has arrived. -/
structure Ordered where
  talk : Talk
  up : SocketAddr → Nat
  down : SocketAddr → Nat

namespace Ordered

inductive Event where
  | talk (e : Call.Event)
  | arrive (j : Nat) (sendOk : Bool)
  | deliver (i j : Nat)

def new (roomId : Uuid) (now : Nat) : Ordered :=
  { talk := .new roomId now, up := fun _ => 0, down := fun _ => 0 }

/-- What the network between channel and clients has no part in. -/
def aside (s : Talk) : Call.Event → Bool
  | .caller _ e => e.recv?.isNone
  | .server (.datagram sender _ _) => s.callers.all fun c => !sameAddr c.addr sender
  | _ => true

def step (w : World) (s : Ordered) : Event → Option (Ordered × List Output)
  | .talk e =>
    if aside s.talk e then (s.talk.step w e).map fun (talk, o) => ({ s with talk }, o) else none
  | .arrive j sendOk =>
    match s.talk.up[j]? with
    | none => none
    | some (sender, bytes) =>
      if s.up sender ≤ j then
        (s.talk.step w (.server (.datagram sender bytes sendOk))).map fun (talk, o) =>
          ({ s with talk, up := Function.update s.up sender (j + 1) }, o)
      else none
  | .deliver i j =>
    match s.talk.callers[i]?, s.talk.down[j]? with
    | some c, some (addr, bytes) =>
      if c.addr = addr ∧ s.down addr ≤ j then
        (s.talk.step w (.caller i (.recv bytes))).map fun (talk, o) =>
          ({ s with talk, down := Function.update s.down addr (j + 1) }, o)
      else none
    | _, _ => none

/-- A step is one of the talk, in which a datagram between channel and client arrives after all that
arrived before. -/
structure Effect (w : World) (s s' : Ordered) (e : Call.Event) (o : List Output) : Prop where
  talk : Talk.Effect w s.talk e s'.talk o
  up_le : ∀ addr, s.up addr ≤ s'.up addr
  down_le : ∀ addr, s.down addr ≤ s'.down addr
  arrived : ∀ sender bytes sendOk, e = .server (.datagram sender bytes sendOk) →
    (∀ c ∈ s.talk.callers, sameAddr c.addr sender = false) ∨
      ∃ j, s.talk.up[j]? = some (sender, bytes) ∧ s.up sender ≤ j ∧ s'.up sender = j + 1
  delivered : ∀ i bytes, e = .caller i (.recv bytes) → ∃ c j, s.talk.callers[i]? = some c ∧
    s.talk.down[j]? = some (c.addr, bytes) ∧ s.down c.addr ≤ j ∧ s'.down c.addr = j + 1

section Steps

variable {w : World} {s s' : Ordered} {o : List Output}

theorem le_update {f : SocketAddr → Nat} {addr : SocketAddr} {j : Nat} (hLe : f addr ≤ j) (a : SocketAddr) :
    f a ≤ Function.update f addr (j + 1) a := by
  by_cases hEq : a = addr
  · subst hEq
    rw [Function.update_self]
    omega
  · rw [Function.update_of_ne hEq]

theorem step_effect {e : Event} (hStep : s.step w e = some (s', o)) : ∃ e', Effect w s s' e' o := by
  cases e with
  | talk e =>
    simp only [step] at hStep
    split at hStep
    · rename_i hAside
      obtain ⟨⟨talk, o₁⟩, hTalk, hEq⟩ := Option.map_eq_some_iff.mp hStep
      cases hEq
      refine ⟨e, Talk.step_effect hTalk, fun _ => Nat.le_refl _, fun _ => Nat.le_refl _, ?_, ?_⟩
      · rintro sender bytes sendOk rfl
        exact .inl fun c hMem => by simpa using List.all_eq_true.mp hAside c hMem
      · rintro i bytes rfl
        cases hAside
    · cases hStep
  | arrive j sendOk =>
    simp only [step] at hStep
    split at hStep
    · cases hStep
    · rename_i sender bytes hUp
      split at hStep
      · rename_i hLe
        obtain ⟨⟨talk, o₁⟩, hTalk, hEq⟩ := Option.map_eq_some_iff.mp hStep
        cases hEq
        refine ⟨_, Talk.step_effect hTalk, le_update hLe, fun _ => Nat.le_refl _, ?_, ?_⟩
        · rintro sender' bytes' sendOk' hEq
          cases hEq
          exact .inr ⟨j, hUp, hLe, Function.update_self _ _ _⟩
        · rintro i bytes' hEq
          cases hEq
      · cases hStep
  | deliver i j =>
    simp only [step] at hStep
    split at hStep
    · rename_i c addr bytes hCaller hDown
      split at hStep
      · rename_i hGuard
        obtain ⟨rfl, hLe⟩ := hGuard
        obtain ⟨⟨talk, o₁⟩, hTalk, hEq⟩ := Option.map_eq_some_iff.mp hStep
        cases hEq
        refine ⟨_, Talk.step_effect hTalk, fun _ => Nat.le_refl _, le_update hLe, ?_, ?_⟩
        · rintro sender bytes' sendOk hEq
          cases hEq
        · rintro i' bytes' hEq
          cases hEq
          exact ⟨c, j, hCaller, hDown, hLe, Function.update_self _ _ _⟩
      · cases hStep
    · cases hStep

end Steps

end Ordered

end Voices.Call
