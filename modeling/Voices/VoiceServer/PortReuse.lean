import Voices.VoiceServer.Hosted

/-!
# Reusing a port

The port belongs to the handles of a channel, the socket to its forwarder and the
voice tasks. While every socket is closed before the last handle is dropped, each
open socket has a handle, each handle has its port, and no port has two.
-/

namespace Voices.VoiceServer

open Semantics Std

namespace Ports

/-- The reference is one that `get` has handed out, and its port has not been released. -/
structure Holds (p : Ports) (r : PortRef) : Prop where
  ref : r = p.ref r.taken
  taken : p.state[r.taken]? = some false

variable {p p' : Ports} {r q : PortRef}

theorem get_eq_some (h : p.get = some (p', r)) :
    ∃ k, p.state[k]? = some true ∧ p' = { p with state := p.state.set k false } ∧ r = p.ref k := by
  obtain ⟨k, hFind, hEq⟩ := Option.map_eq_some_iff.mp h
  cases hEq
  obtain ⟨hLt, hFree, _⟩ := List.findIdx?_eq_some_iff_getElem.mp hFind
  exact ⟨k, List.getElem?_eq_some_iff.mpr ⟨hLt, hFree⟩, rfl, rfl⟩

theorem Holds.set (hHolds : p.Holds r) {k : Nat} (hNe : r.taken ≠ k) (free : Bool) :
    ({ p with state := p.state.set k free } : Ports).Holds r where
  ref := hHolds.ref
  taken := by
    rw [List.getElem?_set_ne (Ne.symm hNe)]
    exact hHolds.taken

end Ports

namespace Server

variable {s s' : Server} {e : Event} {o : List Output}

/-- The ports, the handles and the sockets agree. -/
structure Accounted (s : Server) : Prop where
  length : s.ports.state.length < 2 ^ 16
  held : ∀ (i : Nat) (r : Room), s.rooms[i]? = some r → s.handled i r = true → s.ports.Holds r.port
  constructing : ∀ (id : Uuid) (port : PortRef), s.constructing = some (id, port) →
    s.ports.Holds port
  distinct : ∀ (i j : Nat) (r q : Room), s.rooms[i]? = some r → s.rooms[j]? = some q →
    s.handled i r = true → s.handled j q = true → r.port.taken = q.port.taken → i = j
  apart : ∀ (id : Uuid) (port : PortRef) (i : Nat) (r : Room), s.constructing = some (id, port) →
    s.rooms[i]? = some r → s.handled i r = true → r.port.taken ≠ port.taken
  opened : ∀ (i : Nat) (r : Room), s.rooms[i]? = some r → r.bound = true → s.handled i r = true

theorem Accounted.new (start limit : UInt16) : (new (Ports.new start limit)).Accounted where
  length := by simpa [Server.new, Ports.new] using limit.toNat_lt
  held i r hRoom := by simp [Server.new] at hRoom
  constructing id port hConstructing := by simp [Server.new] at hConstructing
  distinct i j r q hRoom := by simp [Server.new] at hRoom
  apart id port i r hConstructing := by simp [Server.new] at hConstructing
  opened i r hRoom := by simp [Server.new] at hRoom

/-- No handle is new, none of an open socket is lost. -/
theorem Accounted.of_rooms (hAccounted : s.Accounted) (hPorts : s'.ports = s.ports)
    (hConstructing : s'.constructing = s.constructing)
    (hRooms : ∀ i r', s'.rooms[i]? = some r' → ∃ r, s.rooms[i]? = some r ∧ r'.port = r.port ∧
      (s'.handled i r' = true → s.handled i r = true) ∧
      (r'.bound = true → s'.handled i r' = true)) : s'.Accounted where
  length := hPorts ▸ hAccounted.length
  held i r' hRoom' hHandled := by
    obtain ⟨r, hRoom, hPort, hOld, _⟩ := hRooms i r' hRoom'
    rw [hPorts, hPort]
    exact hAccounted.held i r hRoom (hOld hHandled)
  constructing id port h := by
    rw [hPorts]
    exact hAccounted.constructing id port (hConstructing ▸ h)
  distinct i j r' q' hRoom' hOther' hHandled hQHandled hTaken := by
    obtain ⟨r, hRoom, hPort, hOld, _⟩ := hRooms i r' hRoom'
    obtain ⟨q, hOther, hQPort, hQOld, _⟩ := hRooms j q' hOther'
    rw [hPort, hQPort] at hTaken
    exact hAccounted.distinct i j r q hRoom hOther (hOld hHandled) (hQOld hQHandled) hTaken
  apart id port i r' h hRoom' hHandled := by
    obtain ⟨r, hRoom, hPort, hOld, _⟩ := hRooms i r' hRoom'
    rw [hPort]
    exact hAccounted.apart id port i r (hConstructing ▸ h) hRoom (hOld hHandled)
  opened i r' hRoom' hBound := by
    obtain ⟨r, _, _, _, hOpened⟩ := hRooms i r' hRoom'
    exact hOpened hBound

theorem Accounted.release (hAccounted : s.Accounted) {port : PortRef}
    (hRooms : ∀ i r, s.rooms[i]? = some r → s.handled i r = true → r.port.taken ≠ port.taken)
    (hConstructing : ∀ id q, s.constructing = some (id, q) → q.taken ≠ port.taken) :
    Accounted { s with ports := s.ports.release port } where
  length := by
    simp only [Ports.release, List.length_set]
    exact hAccounted.length
  held i r hRoom hHandled :=
    (hAccounted.held i r hRoom hHandled).set (hRooms i r hRoom hHandled) true
  constructing id q h := (hAccounted.constructing id q h).set (hConstructing id q h) true
  distinct := hAccounted.distinct
  apart := hAccounted.apart
  opened := hAccounted.opened

theorem Accounted.setRoom (hAccounted : s.Accounted) {i : Nat} {r r' : Room}
    (hRoom : s.rooms[i]? = some r) (hPort : r'.port = r.port)
    (hHandled : s.handled i r' = true → s.handled i r = true)
    (hOpened : r'.bound = true → s.handled i r' = true) : (s.setRoom i r').Accounted := by
  refine hAccounted.of_rooms rfl rfl fun j q hQ => ?_
  rcases (getElem?_set_iff hRoom).mp hQ with ⟨rfl, rfl⟩ | ⟨_, hOld⟩
  · exact ⟨r, hRoom, hPort, hHandled, hOpened⟩
  · exact ⟨q, hOld, rfl, id, hAccounted.opened j q hOld⟩

/-- The step drops the last handle of the room. -/
def DropsLast (s : Server) (e : Event) (i : Nat) (r : Room) : Prop :=
  match e with
  | .dropClone j => j = i ∧ r.clones = 1 ∧ s.channels[r.roomId]? ≠ some i
  | .remove => r.clones = 0 ∧ s.channels[r.roomId]? = some i ∧
      s.removing.map EndNotify.roomId = some r.roomId
  | _ => False

/-- The socket is closed by the time the last handle of its channel is dropped. -/
def ReleasesClosed (s : Server) (e : Event) : Prop :=
  ∀ (i : Nat) (r : Room), s.rooms[i]? = some r → s.DropsLast e i r → r.bound = false

instance (s : Server) (e : Event) (i : Nat) (r : Room) : Decidable (s.DropsLast e i r) := by
  unfold DropsLast
  split <;> infer_instance

theorem releasesClosed_iff : s.ReleasesClosed e ↔
    ∀ i : Fin s.rooms.length, s.DropsLast e i s.rooms[i] → s.rooms[i].bound = false := by
  constructor
  · exact fun hClosed i => hClosed i s.rooms[i] (List.getElem?_eq_getElem i.2)
  · intro hClosed i r hRoom
    obtain ⟨hLt, rfl⟩ := List.getElem?_eq_some_iff.mp hRoom
    exact hClosed ⟨i, hLt⟩

instance (s : Server) (e : Event) : Decidable (s.ReleasesClosed e) :=
  decidable_of_iff _ releasesClosed_iff.symm

theorem Accounted.allocate (hAccounted : s.Accounted) {id : Uuid} {ports : Ports} {port : PortRef}
    (hGet : s.ports.get = some (ports, port)) :
    Accounted { s with ports, constructing := some (id, port) } := by
  obtain ⟨k, hFree, rfl, rfl⟩ := Ports.get_eq_some hGet
  have hNe {r : PortRef} (hHolds : s.ports.Holds r) : r.taken ≠ k := by
    rintro rfl
    cases hFree.symm.trans hHolds.taken
  refine ⟨?_, ?_, ?_, hAccounted.distinct, ?_, hAccounted.opened⟩
  · rw [List.length_set]
    exact hAccounted.length
  · intro i r hRoom hHandled
    have hHolds := hAccounted.held i r hRoom hHandled
    exact hHolds.set (hNe hHolds) false
  · intro other q h
    cases h
    refine ⟨rfl, ?_⟩
    show (s.ports.state.set k false)[k]? = some false
    rw [List.getElem?_set_self (List.getElem?_eq_some_iff.mp hFree).1]
  · intro other q i r h hRoom hHandled
    cases h
    exact hNe (hAccounted.held i r hRoom hHandled)

/-- The port goes from the call to the handles of the new room. -/
theorem Accounted.construct (hAccounted : s.Accounted) (hSound : s.Sound) {id : Uuid}
    {port : PortRef} (hConstructing : s.constructing = some (id, port)) :
    (s.construct id port).Accounted := by
  have hOld {i : Nat} {r : Room} (hRoom : s.rooms[i]? = some r) :
      (s.construct id port).handled i r = s.handled i r := by
    have hLt : i < s.rooms.length := (List.getElem?_eq_some_iff.mp hRoom).1
    simp only [handled, construct_channels]
    split
    · rename_i hEq
      have hVacant := hSound.locked id port hConstructing
      rw [← hEq, hVacant]
      simp [Nat.ne_of_gt hLt]
    · rfl
  have hApart := hAccounted.apart id port
  refine ⟨hAccounted.length, ?_, ?_, ?_, ?_, ?_⟩
  · intro i r hRoom hHandled
    rcases getElem?_snoc_iff.mp hRoom with hRoom | ⟨rfl, rfl⟩
    · exact hAccounted.held i r hRoom (hOld hRoom ▸ hHandled)
    · exact hAccounted.constructing id port hConstructing
  · intro other q h
    cases h
  · intro i j r q hRoom hOther hHandled hQHandled hTaken
    rcases getElem?_snoc_iff.mp hRoom with hRoom | ⟨rfl, rfl⟩ <;>
      rcases getElem?_snoc_iff.mp hOther with hOther | ⟨rfl, rfl⟩
    · exact hAccounted.distinct i j r q hRoom hOther (hOld hRoom ▸ hHandled)
        (hOld hOther ▸ hQHandled) hTaken
    · exact absurd hTaken (hApart i r hConstructing hRoom (hOld hRoom ▸ hHandled))
    · exact absurd hTaken.symm (hApart j q hConstructing hOther (hOld hOther ▸ hQHandled))
    · rfl
  · intro other q i r h
    cases h
  · intro i r hRoom hBound
    rcases getElem?_snoc_iff.mp hRoom with hRoom | ⟨rfl, rfl⟩
    · rw [hOld hRoom]
      exact hAccounted.opened i r hRoom hBound
    · rfl

theorem handled_of_clones {i : Nat} {r : Room} (hClones : 0 < r.clones) : s.handled i r = true := by
  simp [handled, hClones]

theorem handled_eq_false_iff {i : Nat} {r : Room} :
    s.handled i r = false ↔ r.clones = 0 ∧ s.channels[r.roomId]? ≠ some i := by
  simp [handled]

theorem Accounted.handleDropped (hAccounted : s.Accounted) {i : Nat} {r : Room}
    (hTaken : s.handled i r = false →
      (∀ j q, s.rooms[j]? = some q → s.handled j q = true → q.port.taken ≠ r.port.taken) ∧
        ∀ id q, s.constructing = some (id, q) → q.taken ≠ r.port.taken) :
    (s.handleDropped i r).Accounted := by
  unfold Server.handleDropped
  split
  · exact hAccounted
  · rename_i hLast
    obtain ⟨hRooms, hConstructing⟩ := hTaken (Bool.not_eq_true _ ▸ hLast)
    exact hAccounted.release hRooms hConstructing

theorem Accounted.dropClone (hAccounted : s.Accounted) {i : Nat} {r : Room}
    (hRoom : s.rooms[i]? = some r) (hClones : 0 < r.clones)
    (hClosed : s.DropsLast (.dropClone i) i r → r.bound = false) :
    ((s.setRoom i { r with clones := r.clones - 1 }).handleDropped i
      { r with clones := r.clones - 1 }).Accounted := by
  have hHandled : s.handled i r = true := handled_of_clones hClones
  have hSet : (s.setRoom i { r with clones := r.clones - 1 }).Accounted := by
    refine hAccounted.setRoom hRoom rfl (fun _ => hHandled) fun hBound => ?_
    by_contra hLast
    obtain ⟨hNone, hEntry⟩ := handled_eq_false_iff.mp (Bool.not_eq_true _ ▸ hLast)
    have hOne : r.clones = 1 := by
      have hZero : r.clones - 1 = 0 := hNone
      omega
    cases hBound.symm.trans (hClosed ⟨rfl, hOne, hEntry⟩)
  refine hSet.handleDropped fun hLast => ⟨?_, ?_⟩
  · intro j q hQ hQHandled hTaken
    rcases (getElem?_set_iff hRoom).mp hQ with ⟨rfl, rfl⟩ | ⟨hNe, hOld⟩
    · cases hLast.symm.trans hQHandled
    · exact hNe (hAccounted.distinct j i q r hOld hRoom hQHandled hHandled hTaken)
  · intro id port hConstructing
    exact (hAccounted.apart id port i r hConstructing hRoom hHandled).symm

theorem Accounted.remove (hAccounted : s.Accounted) (hUnlocked : s.constructing = none) {i : Nat}
    {r : Room} (hRoom : s.rooms[i]? = some r) (hEntry : s.channels[r.roomId]? = some i)
    (hClosed : r.clones = 0 → r.bound = false) :
    (({ s with channels := s.channels.erase r.roomId, removing := none } : Server).handleDropped
      i r).Accounted := by
  have hHandled : s.handled i r = true := by simp [handled, hEntry]
  have hOld (j : Nat) (q : Room)
      (hQHandled : handled { s with channels := s.channels.erase r.roomId, removing := none } j q = true) :
      s.handled j q = true := by
    simp only [handled, TreeMap.getElem?_erase, Bool.or_eq_true, decide_eq_true_eq] at hQHandled ⊢
    grind
  have hErased : Accounted { s with channels := s.channels.erase r.roomId, removing := none } := by
    refine hAccounted.of_rooms rfl rfl fun j q hQ => ⟨q, hQ, rfl, hOld j q, fun hBound => ?_⟩
    by_contra hLast
    obtain ⟨hNone, hGone⟩ := handled_eq_false_iff.mp (Bool.not_eq_true _ ▸ hLast)
    -- it still has the map's handle before the step, so that it is the room that is removed
    have hBefore := hAccounted.opened j q hQ hBound
    have hCurrent : s.channels[q.roomId]? = some j := by simpa [handled, hNone] using hBefore
    have hSame : r.roomId = q.roomId := by
      by_contra hNe
      apply hGone
      simpa [TreeMap.getElem?_erase, hNe] using hCurrent
    rw [← hSame, hEntry] at hCurrent
    cases hCurrent
    cases hRoom.symm.trans hQ
    cases hBound.symm.trans (hClosed hNone)
  refine hErased.handleDropped fun hLast => ⟨?_, ?_⟩
  · intro j q hQ hQHandled hTaken
    have hEq := hAccounted.distinct j i q r hQ hRoom (hOld j q hQHandled) hHandled hTaken
    subst hEq
    cases hRoom.symm.trans hQ
    cases hLast.symm.trans hQHandled
  · intro id port hConstructing
    cases hUnlocked.symm.trans hConstructing

theorem Accounted.step (hAccounted : s.Accounted) (hSound : s.Sound) (hClosed : s.ReleasesClosed e)
    (h : Server.step s e = some (s', o)) : s'.Accounted := by
  have hCloned {i : Nat} {r : Room} {id : Uuid} (hEntry : s.channels[id]? = some i)
      (hRoom : s.rooms[i]? = some r) : (s.setRoom i { r with clones := r.clones + 1 }).Accounted := by
    refine hAccounted.setRoom hRoom rfl (fun _ => ?_) fun _ => handled_of_clones (Nat.succ_pos _)
    obtain ⟨q, hQ, hId⟩ := hSound.entry id i hEntry
    cases hRoom.symm.trans hQ
    simp [handled, hId, hEntry]
  cases step_effect h with
  | found id i r hUnlocked hEntry hRoom => exact hCloned hEntry hRoom
  | allocated id ports port hUnlocked hVacant hGet => exact hAccounted.allocate hGet
  | exhausted => exact hAccounted
  | constructed id port hConstructing hFree => exact hAccounted.construct hSound hConstructing
  | failed id port hConstructing =>
    have hGivenUp : Accounted { s with constructing := none } := by
      refine ⟨hAccounted.length, hAccounted.held, ?_, hAccounted.distinct, ?_, hAccounted.opened⟩
      · intro other q hNone
        cases hNone
      · intro other q i r hNone
        cases hNone
    refine hGivenUp.release (fun i r => hAccounted.apart id port i r hConstructing) fun other q hNone => ?_
    cases hNone
  | got id i r hEntry hRoom => exact hCloned hEntry hRoom
  | absent => exact hAccounted
  | dropped i r hRoom hClones => exact hAccounted.dropClone hRoom hClones (hClosed i r hRoom)
  | moved _ i r r' hRoom hMoves =>
    have hSame : s.handled i r' = s.handled i r := by
      simp only [handled, hMoves.clones, hMoves.roomId]
    refine hAccounted.setRoom hRoom hMoves.port (fun hHandled => hSame ▸ hHandled) fun hBound => ?_
    rw [hSame]
    exact hAccounted.opened i r hRoom (hMoves.bound hBound)
  | notified i r hRoom hLeaving =>
    have hBound : r.bound = true := by simp [Room.bound, Stage.gone, hLeaving]
    have hSet : (s.setRoom i { r with stage := .notified }).Accounted :=
      hAccounted.setRoom hRoom rfl id fun _ => hAccounted.opened i r hRoom hBound
    exact ⟨hSet.length, hSet.held, hSet.constructing, hSet.distinct, hSet.apart, hSet.opened⟩
  | received n rest hIdle hQueue =>
    exact ⟨hAccounted.length, hAccounted.held, hAccounted.constructing, hAccounted.distinct,
      hAccounted.apart, hAccounted.opened⟩
  | removed n hUnlocked hRemoving =>
    obtain ⟨hEntry, r, hRoom, hId, _⟩ := hSound.removing hRemoving
    rw [s.removeChannel_eq hEntry hRoom]
    rw [← hId] at hEntry ⊢
    refine hAccounted.remove hUnlocked hRoom hEntry fun hNone => hClosed _ r hRoom ⟨hNone, hEntry, ?_⟩
    rw [hRemoving, Option.map_some, hId]

theorem Accounted.of_run {start limit : UInt16} {es : List Event} {tr : List Output}
    (hRun : Machine.run Server.step (Server.new (Ports.new start limit)) es = some (s, tr))
    (hClosed : Machine.Along Server.step ReleasesClosed (Server.new (Ports.new start limit)) es) :
    s.Accounted := by
  have hBoth := Machine.run_induction_along (P := fun s _ => s.Sound ∧ s.Accounted)
    ⟨Sound.new _, Accounted.new start limit⟩
    (fun s₁ _ e s₂ o hInv hOk h => ⟨hInv.1.step h, hInv.2.step hInv.1 hOk h⟩) hClosed hRun
  exact hBoth.2

end Server

end Voices.VoiceServer
