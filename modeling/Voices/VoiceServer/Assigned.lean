import Voices.VoiceServer.Hosted

/-!
# Assigning a channel whose forwarder ends

`get_channel` leaves out a channel that is not healthy, `assign_channel` returns
what the map has. A forwarder that has left its loop is in the map until the
cleanup task has acted on its notification, and one that has panicked for good.
-/

namespace Voices.VoiceServer.Server

open Semantics

variable {s s' : Server} {e : Event} {o : List Output}

/-- The channel that a call of `assign_channel` returns is one whose forwarder is in its loop. The
map is consulted in the step that returns it, or while the channel does not exist yet. -/
def AssignsRunning (s : Server) (e : Event) : Prop :=
  ∀ (s' : Server) (o : List Output) (id : Uuid) (i : Nat), step s e = some (s', o) →
    .assigned id (some i) ∈ o → ∃ r, s'.rooms[i]? = some r ∧ r.roomId = id ∧ r.stage = .looping

/-- No forwarder of the channel is about to notify or has panicked, and no notification of one
waits for the cleanup task. -/
structure Settled (s : Server) (id : Uuid) : Prop where
  rooms : ∀ r ∈ s.rooms, r.roomId = id → r.stage ≠ .leaving ∧ r.stage ≠ .aborted
  pending : ∀ n ∈ s.pending, n.roomId ≠ id

def AssignsSettled (s : Server) (e : Event) : Prop := ∀ id, e = .assign id → s.Settled id

theorem Settled.looping {id : Uuid} (hSettled : s.Settled id) (hSound : s.Sound) {i : Nat}
    {r : Room} (hEntry : s.channels[id]? = some i) (hRoom : s.rooms[i]? = some r) : r.stage = .looping := by
  obtain ⟨q, hQ, hId⟩ := hSound.entry id i hEntry
  cases hRoom.symm.trans hQ
  obtain ⟨hLeaving, hAborted⟩ := hSettled.rooms r (List.mem_of_getElem? hRoom) hId
  have hSilent : r.reported = false := by
    by_contra hReported
    have hMem := hSound.awaited i r hRoom (hId ▸ hEntry) (Bool.not_eq_false _ ▸ hReported)
    exact hSettled.pending _ hMem hId
  cases hStage : r.stage with
  | looping => rfl
  | leaving => exact absurd hStage hLeaving
  | notified => simp [Room.reported, hStage] at hSilent
  | dropped => simp [Room.reported, hStage] at hSilent
  | aborted => exact absurd hStage hAborted

/-- Every other forwarder of the channel would be the map's entry. -/
theorem Sound.settled (hSound : s.Sound) {id : Uuid}
    (hLooping : ∀ i r, s.channels[id]? = some i → s.rooms[i]? = some r → r.stage = .looping) :
    s.Settled id where
  rooms r hMem hId := by
    obtain ⟨i, hRoom⟩ := List.getElem?_of_mem hMem
    have hStage (hSilent : r.reported = false) : r.stage = .looping :=
      hLooping i r (hId ▸ hSound.kept i r hRoom hSilent) hRoom
    constructor
    · intro hLeaving
      cases hLeaving.symm.trans (hStage (by simp [Room.reported, hLeaving]))
    · intro hAborted
      cases hAborted.symm.trans (hStage (by simp [Room.reported, hAborted]))
  pending n hMem hId := by
    obtain ⟨hEntry, r, hRoom, _, hReported⟩ := hSound.pending n hMem
    simp [Room.reported, hLooping n.sender r (hId ▸ hEntry) hRoom] at hReported

theorem AssignsSettled.assignsRunning (hSettled : s.AssignsSettled e) (hSound : s.Sound) :
    s.AssignsRunning e := by
  intro s' o id i h hMem
  cases step_effect h with
  | found other j r hUnlocked hEntry hRoom =>
    cases List.mem_singleton.mp hMem
    have hLooping := (hSettled id rfl).looping hSound hEntry hRoom
    obtain ⟨q, hQ, hId⟩ := hSound.entry id i hEntry
    cases hRoom.symm.trans hQ
    exact ⟨_, getElem?_set_here hRoom, hId, hLooping⟩
  | constructed other port hConstructing hFree =>
    cases List.mem_singleton.mp hMem
    exact ⟨_, List.getElem?_concat_length, rfl, rfl⟩
  | removed n hUnlocked hRemoving =>
    obtain ⟨_, hEq⟩ := removeChannel_output hMem
    cases hEq
  | _ => simp at hMem

theorem AssignsRunning.assignsSettled (hRunning : s.AssignsRunning e) (hSound : s.Sound)
    (h : step s e = some (s', o)) : s.AssignsSettled e := by
  rintro id rfl
  refine hSound.settled fun i r hEntry hRoom => ?_
  have hUnlocked := (unlocked_eq_some_iff.mp h).1
  have hStep : step s (.assign id) =
      some (s.setRoom i { r with clones := r.clones + 1 }, [.assigned id (some i)]) := by
    simp only [step, unlocked, hUnlocked, assignChannel, hEntry, hRoom, if_true, Option.map_some]
  obtain ⟨q, hQ, _, hLooping⟩ := hRunning _ _ id i hStep (List.mem_singleton.mpr rfl)
  rcases (getElem?_set_iff hRoom).mp hQ with ⟨_, rfl⟩ | ⟨hNe, _⟩
  · exact hLooping
  · exact absurd rfl hNe

/-- Along a run every assigned channel is running exactly when every call comes while no forwarder
of its channel is on its way out. -/
theorem assigns_running_iff (ports : Ports) (es : List Event) (s : Server) (tr : List Output)
    (hRun : Machine.run step (new ports) es = some (s, tr)) :
    Machine.Along step AssignsRunning (new ports) es ↔
      Machine.Along step AssignsSettled (new ports) es := by
  constructor
  · intro hRunning
    exact hRunning.imp hRun fun es₁ e s₁ s₂ tr₁ o hFirst hStep hAssigns =>
      hAssigns.assignsSettled (Sound.of_run hFirst) hStep
  · intro hSettled
    exact hSettled.imp hRun fun es₁ e s₁ s₂ tr₁ o hFirst _ hAssigns =>
      hAssigns.assignsRunning (Sound.of_run hFirst)

/-- A forwarder reaches its idle timeout, and its channel is assigned before the cleanup task gets
to it. -/
def assignedLate : List Event :=
  [.assign 7, .constructed true, .leave 0, .notify 0, .finish 0]

theorem assigns_running_iff_assignedLate :
    ∃ s tr, Machine.run step (new (Ports.new 33330 1)) (assignedLate ++ [.assign 7]) = some (s, tr) ∧
      (Machine.Along step AssignsRunning (new (Ports.new 33330 1)) (assignedLate ++ [.assign 7]) ↔
        Machine.Along step AssignsSettled (new (Ports.new 33330 1)) (assignedLate ++ [.assign 7])) := by
  obtain ⟨⟨s, tr⟩, hRun⟩ : ∃ last,
      Machine.run step (new (Ports.new 33330 1)) (assignedLate ++ [.assign 7]) = some last :=
    Option.isSome_iff_exists.mp (by decide)
  exact ⟨s, tr, hRun, assigns_running_iff _ _ s tr hRun⟩

theorem not_assigns_running : ¬ ∀ (ports : Ports) (es : List Event) (s : Server) (tr : List Output),
    Machine.run step (new ports) es = some (s, tr) →
      Machine.Along step AssignsRunning (new ports) es := by
  intro hAll
  have hBefore : (Machine.run step (new (Ports.new 33330 1)) assignedLate).map (fun last =>
      (step last.1 (Event.assign 7)).map fun next : Server × List Output =>
        (decide (Output.assigned 7 (some 0) ∈ next.2), next.1.rooms[0]?.map Room.stage)) =
      some (some (true, some .dropped)) := by decide
  obtain ⟨⟨s, tr⟩, hRun, hState⟩ := Option.map_eq_some_iff.mp hBefore
  obtain ⟨⟨s', o⟩, hStep, hNext⟩ := Option.map_eq_some_iff.mp hState
  obtain ⟨hMem, hStage⟩ := Prod.mk.inj hNext
  have hLast : Machine.run step (new (Ports.new 33330 1)) (assignedLate ++ [Event.assign 7]) =
      some (s', tr ++ o) := Machine.run_snoc_iff.mpr ⟨s, tr, o, hRun, hStep, rfl⟩
  obtain ⟨r, hRoom, _, hLooping⟩ :=
    (hAll _ _ s' _ hLast).last hRun s' o 7 0 hStep (of_decide_eq_true hMem)
  rw [hRoom, Option.map_some, hLooping] at hStage
  cases hStage

end Voices.VoiceServer.Server
