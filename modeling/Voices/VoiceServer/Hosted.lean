import Voices.VoiceServer.Server

/-!
# Which forwarders a server hosts

A notification names a channel, and the cleanup task removes whatever the map has
for it. That is the forwarder that has ended: its entry stays until then, so that
no other one is started for the channel in the meantime.
-/

namespace Voices.VoiceServer

open Semantics Std

/-- The forwarder has sent its end notification. -/
def Room.reported (r : Room) : Bool := r.stage = .notified || r.stage = .dropped

/-- The forwarder or a voice task of a room takes a step. -/
structure Room.Moves (r r' : Room) : Prop where
  roomId : r'.roomId = r.roomId
  port : r'.port = r.port
  clones : r'.clones = r.clones
  reported : r'.reported = r.reported
  looping : r'.stage = .looping → r.stage = .looping
  bound : r'.bound = true → r.bound = true

namespace Server

inductive Effect (s : Server) : Event → Server → List Output → Prop where
  | found (id : Uuid) (i : Nat) (r : Room) (hUnlocked : s.constructing = none)
      (hEntry : s.channels[id]? = some i) (hRoom : s.rooms[i]? = some r) :
      Effect s (.assign id) (s.setRoom i { r with clones := r.clones + 1 }) [.assigned id (some i)]
  | allocated (id : Uuid) (ports : Ports) (port : PortRef) (hUnlocked : s.constructing = none)
      (hVacant : s.channels[id]? = none) (hGet : s.ports.get = some (ports, port)) :
      Effect s (.assign id) { s with ports, constructing := some (id, port) } [.allocated port]
  | exhausted (id : Uuid) : Effect s (.assign id) s [.assigned id none]
  | constructed (id : Uuid) (port : PortRef) (hConstructing : s.constructing = some (id, port))
      (hFree : s.refuses port.port = false) :
      Effect s (.constructed true) (s.construct id port) [.assigned id (some s.rooms.length)]
  | failed (id : Uuid) (port : PortRef) (hConstructing : s.constructing = some (id, port)) :
      Effect s (.constructed false)
        { s with ports := s.ports.release port, constructing := none } [.assigned id none]
  | got (id : Uuid) (i : Nat) (r : Room) (hEntry : s.channels[id]? = some i)
      (hRoom : s.rooms[i]? = some r) :
      Effect s (.get id) (s.setRoom i { r with clones := r.clones + 1 }) [.got id (some i)]
  | absent (id : Uuid) : Effect s (.get id) s [.got id none]
  | dropped (i : Nat) (r : Room) (hRoom : s.rooms[i]? = some r) (hClones : 0 < r.clones) :
      Effect s (.dropClone i)
        ((s.setRoom i { r with clones := r.clones - 1 }).handleDropped i
          { r with clones := r.clones - 1 }) []
  | moved (e : Event) (i : Nat) (r r' : Room) (hRoom : s.rooms[i]? = some r) (hMoves : r.Moves r') :
      Effect s e (s.setRoom i r') []
  | notified (i : Nat) (r : Room) (hRoom : s.rooms[i]? = some r) (hLeaving : r.stage = .leaving) :
      Effect s (.notify i) (s.endNotify i r) []
  | received (n : EndNotify) (rest : List EndNotify) (hIdle : s.removing = none)
      (hQueue : s.notifications = n :: rest) :
      Effect s .receive { s with notifications := rest, removing := some n } []
  | removed (n : EndNotify) (hUnlocked : s.constructing = none) (hRemoving : s.removing = some n) :
      Effect s .remove (s.removeChannel n.roomId).1 (s.removeChannel n.roomId).2

variable {s s' : Server} {e : Event} {o : List Output}

theorem unlocked_eq_some_iff {next : Option (Server × List Output)} {r : Server × List Output} :
    s.unlocked next = some r ↔ s.constructing = none ∧ next = some r := by
  unfold unlocked
  split <;> simp_all

theorem assignChannel_effect {id : Uuid} (hUnlocked : s.constructing = none)
    (h : s.assignChannel id = some (s', o)) : Effect s (.assign id) s' o := by
  unfold assignChannel at h
  split at h
  · rename_i i hEntry
    obtain ⟨r, hRoom, hEq⟩ := Option.map_eq_some_iff.mp h
    cases hEq
    exact .found id i r hUnlocked hEntry hRoom
  · rename_i hVacant
    split at h
    · rename_i ports port hGet
      cases h
      exact .allocated id ports port hUnlocked hVacant hGet
    · cases h
      exact .exhausted id

theorem getChannel_effect {id : Uuid} (h : s.getChannel id = some (s', o)) :
    Effect s (.get id) s' o := by
  unfold getChannel at h
  split at h
  · rename_i i hEntry
    obtain ⟨r, hRoom, hEq⟩ := Option.map_eq_some_iff.mp h
    split at hEq <;> cases hEq
    · exact .got id i r hEntry hRoom
    · exact .absent id
  · cases h
    exact .absent id

theorem roomStep_effect {i : Nat} {enabled : Room → Bool} {next : Room → Room}
    (hMoves : ∀ r, enabled r = true → r.Moves (next r)) (h : s.roomStep i enabled next = some (s', o)) :
    Effect s e s' o := by
  unfold roomStep at h
  split at h
  · rename_i r hRoom
    split at h
    · rename_i hEnabled
      cases h
      exact .moved e i r (next r) hRoom (hMoves r hEnabled)
    · cases h
  · cases h

theorem step_effect (h : step s e = some (s', o)) : Effect s e s' o := by
  cases e with
  | assign id =>
    obtain ⟨hUnlocked, hAssign⟩ := unlocked_eq_some_iff.mp h
    exact assignChannel_effect hUnlocked hAssign
  | constructed ok =>
    simp only [step] at h
    split at h
    · rename_i id port hConstructing
      cases ok with
      | true =>
        simp only [if_true] at h
        split at h <;> cases h
        rename_i hFree
        exact .constructed id port hConstructing (by simpa using hFree)
      | false =>
        cases h
        exact .failed id port hConstructing
    · cases h
  | get id => exact getChannel_effect (unlocked_eq_some_iff.mp h).2
  | dropClone i =>
    simp only [step] at h
    split at h
    · rename_i r hRoom
      split at h <;> cases h
      rename_i hClones
      exact .dropped i r hRoom hClones
    · cases h
  | opened i =>
    refine roomStep_effect (fun r hEnabled => ?_) h
    have hLooping : r.stage = .looping := by simpa using hEnabled
    exact ⟨rfl, rfl, rfl, rfl, id, fun _ => by simp [Room.bound, Stage.gone, hLooping]⟩
  | taskEnded i =>
    refine roomStep_effect (fun r hEnabled => ?_) h
    have hTasks : 0 < r.tasks := by simpa using hEnabled
    exact ⟨rfl, rfl, rfl, rfl, id, fun _ => by simp [Room.bound, hTasks]⟩
  | leave i =>
    refine roomStep_effect (fun r hEnabled => ?_) h
    have hLooping : r.stage = .looping := by
      rw [Bool.and_eq_true, decide_eq_true_eq] at hEnabled
      exact hEnabled.1
    exact ⟨rfl, rfl, rfl, by simp [Room.reported, hLooping], fun _ => hLooping,
      fun _ => by simp [Room.bound, Stage.gone, hLooping]⟩
  | notify i =>
    simp only [step] at h
    split at h
    · rename_i r hRoom
      split at h <;> cases h
      rename_i hLeaving
      exact .notified i r hRoom hLeaving.1
    · cases h
  | finish i =>
    refine roomStep_effect (fun r hEnabled => ?_) h
    have hNotified : r.stage = .notified := by simpa using hEnabled
    exact ⟨rfl, rfl, rfl, by simp [Room.reported, hNotified], by simp,
      fun _ => by simp [Room.bound, Stage.gone, hNotified]⟩
  | abort i =>
    refine roomStep_effect (fun r hEnabled => ?_) h
    have hLooping : r.stage = .looping := by simpa using hEnabled
    exact ⟨rfl, rfl, rfl, by simp [Room.reported, hLooping], by simp,
      fun _ => by simp [Room.bound, Stage.gone, hLooping]⟩
  | receive =>
    simp only [step] at h
    split at h
    · rename_i n rest hIdle hQueue
      cases h
      exact .received n rest hIdle hQueue
    · cases h
  | remove =>
    simp only [step] at h
    split at h
    · rename_i n hRemoving
      obtain ⟨hUnlocked, hEq⟩ := unlocked_eq_some_iff.mp h
      have hRemoved := Effect.removed n hUnlocked hRemoving
      rwa [Option.some.inj hEq] at hRemoved
    · cases h

theorem handleDropped_eq (s : Server) (i : Nat) (r : Room) :
    ∃ ports, s.handleDropped i r = { s with ports } := by
  unfold handleDropped
  split
  · exact ⟨s.ports, rfl⟩
  · exact ⟨s.ports.release r.port, rfl⟩

theorem removeChannel_eq (s : Server) {id : Uuid} {i : Nat} {r : Room}
    (hEntry : s.channels[id]? = some i) (hRoom : s.rooms[i]? = some r) :
    s.removeChannel id =
      (({ s with channels := s.channels.erase id, removing := none } : Server).handleDropped i r,
        [.removed id (some i)]) := by
  simp only [removeChannel, hEntry, hRoom]

theorem removeChannel_output {id : Uuid} {output : Output} (hMem : output ∈ (s.removeChannel id).2) :
    ∃ i, output = .removed id i := by
  unfold removeChannel at hMem
  split at hMem
  · split at hMem <;> exact ⟨_, List.mem_singleton.mp hMem⟩
  · exact ⟨_, List.mem_singleton.mp hMem⟩

/-- The notifications that the cleanup task has not acted on yet. -/
def pending (s : Server) : List EndNotify := s.removing.toList ++ s.notifications

/-- The map, the rooms and the notifications agree. -/
structure Sound (s : Server) : Prop where
  entry : ∀ (id : Uuid) (i : Nat), s.channels[id]? = some i →
    ∃ r, s.rooms[i]? = some r ∧ r.roomId = id
  kept : ∀ (i : Nat) (r : Room), s.rooms[i]? = some r → r.reported = false →
    s.channels[r.roomId]? = some i
  pending : ∀ n ∈ s.pending, s.channels[n.roomId]? = some n.sender ∧
    ∃ r, s.rooms[n.sender]? = some r ∧ r.roomId = n.roomId ∧ r.reported = true
  awaited : ∀ (i : Nat) (r : Room), s.rooms[i]? = some r → s.channels[r.roomId]? = some i →
    r.reported = true → ⟨r.roomId, i⟩ ∈ s.pending
  nodup : (s.pending.map EndNotify.roomId).Nodup
  locked : ∀ (id : Uuid) (port : PortRef), s.constructing = some (id, port) →
    s.channels[id]? = none

theorem Sound.new (ports : Ports) : (new ports).Sound where
  entry id i hEntry := by simp [Server.new] at hEntry
  kept i r hRoom := by simp [Server.new] at hRoom
  pending n hMem := by simp [Server.pending, Server.new] at hMem
  awaited i r hRoom := by simp [Server.new] at hRoom
  nodup := by simp [Server.pending, Server.new]
  locked id port hConstructing := by simp [Server.new] at hConstructing

theorem Sound.ports (hSound : s.Sound) (ports : Ports) : Sound { s with ports } :=
  ⟨hSound.entry, hSound.kept, hSound.pending, hSound.awaited, hSound.nodup, hSound.locked⟩

theorem Sound.setRoom (hSound : s.Sound) {i : Nat} {r r' : Room} (hRoom : s.rooms[i]? = some r)
    (hId : r'.roomId = r.roomId) (hReported : r'.reported = r.reported) : (s.setRoom i r').Sound where
  entry id j hEntry := by
    obtain ⟨q, hQ, hQId⟩ := hSound.entry id j hEntry
    by_cases hEq : j = i
    · subst hEq
      cases hRoom.symm.trans hQ
      exact ⟨r', getElem?_set_here hRoom, hId.trans hQId⟩
    · exact ⟨q, getElem?_set_there hRoom hEq hQ, hQId⟩
  kept j q hQ hSilent := by
    rcases (getElem?_set_iff hRoom).mp hQ with ⟨rfl, rfl⟩ | ⟨_, hOld⟩
    · rw [hId]
      exact hSound.kept j r hRoom (hReported.symm.trans hSilent)
    · exact hSound.kept j q hOld hSilent
  pending n hMem := by
    obtain ⟨hEntry, q, hQ, hQId, hQReported⟩ := hSound.pending n hMem
    refine ⟨hEntry, ?_⟩
    by_cases hEq : n.sender = i
    · rw [hEq, hRoom] at hQ
      cases hQ
      exact ⟨r', (getElem?_set_iff hRoom).mpr (.inl ⟨hEq, rfl⟩), hId.trans hQId,
        hReported.trans hQReported⟩
    · exact ⟨q, getElem?_set_there hRoom hEq hQ, hQId, hQReported⟩
  awaited j q hQ hEntry hQReported := by
    rcases (getElem?_set_iff hRoom).mp hQ with ⟨rfl, rfl⟩ | ⟨_, hOld⟩
    · rw [hId] at hEntry ⊢
      exact hSound.awaited j r hRoom hEntry (hReported.symm.trans hQReported)
    · exact hSound.awaited j q hOld hEntry hQReported
  nodup := hSound.nodup
  locked := hSound.locked

theorem construct_channels (s : Server) (id : Uuid) (port : PortRef) (other : Uuid) :
    (s.construct id port).channels[other]? =
      if id = other then some s.rooms.length else s.channels[other]? := by
  simp [Server.construct, TreeMap.getElem?_insert]

/-- The lock keeps the channel's place in the map vacant while its socket is bound. -/
theorem Sound.construct (hSound : s.Sound) {id : Uuid} {port : PortRef}
    (hConstructing : s.constructing = some (id, port)) : (s.construct id port).Sound where
  entry other i hEntry := by
    rw [construct_channels] at hEntry
    split at hEntry
    · rename_i hEq
      cases hEntry
      exact ⟨_, List.getElem?_concat_length, hEq⟩
    · obtain ⟨r, hRoom, hId⟩ := hSound.entry other i hEntry
      exact ⟨r, getElem?_snoc_iff.mpr (.inl hRoom), hId⟩
  kept i r hRoom hSilent := by
    rw [construct_channels]
    rcases getElem?_snoc_iff.mp hRoom with hOld | ⟨rfl, rfl⟩
    · have hEntry := hSound.kept i r hOld hSilent
      rw [if_neg, hEntry]
      rintro rfl
      cases (hSound.locked _ port hConstructing).symm.trans hEntry
    · rw [if_pos rfl]
  pending n hMem := by
    obtain ⟨hEntry, r, hRoom, hId, hReported⟩ := hSound.pending n hMem
    refine ⟨?_, r, getElem?_snoc_iff.mpr (.inl hRoom), hId, hReported⟩
    rw [construct_channels]
    rw [if_neg, hEntry]
    rintro rfl
    cases (hSound.locked _ port hConstructing).symm.trans hEntry
  awaited i r hRoom hEntry hReported := by
    rw [construct_channels] at hEntry
    rcases getElem?_snoc_iff.mp hRoom with hOld | ⟨_, rfl⟩
    · split at hEntry
      · cases hEntry
        exact absurd (List.getElem?_eq_some_iff.mp hOld).1 (Nat.lt_irrefl _)
      · exact hSound.awaited i r hOld hEntry hReported
    · cases hReported
  nodup := hSound.nodup
  locked other port' hOther := by cases hOther

theorem endNotify_pending (s : Server) (i : Nat) (r : Room) :
    (s.endNotify i r).pending = s.pending ++ [⟨r.roomId, i⟩] :=
  (List.append_assoc _ _ _).symm

theorem Sound.endNotify (hSound : s.Sound) {i : Nat} {r : Room} (hRoom : s.rooms[i]? = some r)
    (hLeaving : r.stage = .leaving) : (s.endNotify i r).Sound := by
  have hSilent : r.reported = false := by simp [Room.reported, hLeaving]
  have hCurrent := hSound.kept i r hRoom hSilent
  have hNew : (s.endNotify i r).rooms[i]? = some { r with stage := .notified } :=
    getElem?_set_here hRoom
  refine ⟨?_, ?_, ?_, ?_, ?_, hSound.locked⟩
  · intro id j hEntry
    obtain ⟨q, hQ, hId⟩ := hSound.entry id j hEntry
    by_cases hEq : j = i
    · subst hEq
      cases hRoom.symm.trans hQ
      exact ⟨_, hNew, hId⟩
    · exact ⟨q, getElem?_set_there hRoom hEq hQ, hId⟩
  · intro j q hQ hQSilent
    rcases (getElem?_set_iff hRoom).mp hQ with ⟨_, rfl⟩ | ⟨_, hOld⟩
    · cases hQSilent
    · exact hSound.kept j q hOld hQSilent
  · intro n hMem
    rw [endNotify_pending] at hMem
    rcases List.mem_append.mp hMem with hOld | hLast
    · obtain ⟨hEntry, q, hQ, hId, hReported⟩ := hSound.pending n hOld
      refine ⟨hEntry, q, getElem?_set_there hRoom ?_ hQ, hId, hReported⟩
      intro hEq
      rw [hEq, hRoom] at hQ
      cases hQ
      cases hSilent.symm.trans hReported
    · cases List.mem_singleton.mp hLast
      exact ⟨hCurrent, _, hNew, rfl, rfl⟩
  · intro j q hQ hEntry hReported
    rw [endNotify_pending]
    rcases (getElem?_set_iff hRoom).mp hQ with ⟨rfl, rfl⟩ | ⟨_, hOld⟩
    · exact List.mem_append_right _ (List.mem_singleton.mpr rfl)
    · exact List.mem_append_left _ (hSound.awaited j q hOld hEntry hReported)
  · rw [endNotify_pending, List.map_append, List.nodup_append]
    refine ⟨hSound.nodup, List.pairwise_singleton _ _, ?_⟩
    rintro id hOld other hLast rfl
    obtain ⟨n, hMem, rfl⟩ := List.mem_map.mp hOld
    obtain ⟨hEntry, q, hQ, _, hReported⟩ := hSound.pending n hMem
    -- a notification for the same channel would be from the room itself
    rw [List.mem_singleton.mp hLast, hCurrent] at hEntry
    rw [← Option.some.inj hEntry, hRoom] at hQ
    cases hQ
    cases hSilent.symm.trans hReported

theorem Sound.receive (hSound : s.Sound) {n : EndNotify} {rest : List EndNotify}
    (hIdle : s.removing = none) (hQueue : s.notifications = n :: rest) :
    Sound { s with notifications := rest, removing := some n } := by
  have hSame : Server.pending { s with notifications := rest, removing := some n } = s.pending := by
    simp [Server.pending, hIdle, hQueue]
  refine ⟨hSound.entry, hSound.kept, ?_, ?_, ?_, hSound.locked⟩
  · rw [hSame]
    exact hSound.pending
  · rw [hSame]
    exact hSound.awaited
  · rw [hSame]
    exact hSound.nodup

theorem Sound.remove (hSound : s.Sound) {n : EndNotify} (hRemoving : s.removing = some n)
    (hUnlocked : s.constructing = none) :
    Sound { s with channels := s.channels.erase n.roomId, removing := none } := by
  have hPending : s.pending = n :: s.notifications := by simp [Server.pending, hRemoving]
  obtain ⟨hCurrent, q, hQ, _, hQReported⟩ := hSound.pending n (hPending ▸ List.mem_cons_self)
  have hNodup := hSound.nodup
  rw [hPending, List.map_cons, List.nodup_cons] at hNodup
  have hErased (id : Uuid) (i : Nat) : (s.channels.erase n.roomId)[id]? = some i ↔
      n.roomId ≠ id ∧ s.channels[id]? = some i := by
    simp [TreeMap.getElem?_erase]
  refine ⟨?_, ?_, ?_, ?_, hNodup.2, ?_⟩
  · intro id i hEntry
    exact hSound.entry id i ((hErased id i).mp hEntry).2
  · intro i r hRoom hSilent
    have hEntry := hSound.kept i r hRoom hSilent
    refine (hErased r.roomId i).mpr ⟨?_, hEntry⟩
    intro hEq
    rw [← hEq, hCurrent] at hEntry
    rw [← Option.some.inj hEntry, hQ] at hRoom
    cases hRoom
    cases hSilent.symm.trans hQReported
  · intro m hMem
    obtain ⟨hEntry, hRest⟩ := hSound.pending m (hPending ▸ List.mem_cons_of_mem n hMem)
    refine ⟨(hErased m.roomId m.sender).mpr ⟨?_, hEntry⟩, hRest⟩
    intro hEq
    exact hNodup.1 (List.mem_map.mpr ⟨m, hMem, hEq.symm⟩)
  · intro i r hRoom hEntry hReported
    obtain ⟨hNe, hOld⟩ := (hErased r.roomId i).mp hEntry
    have hMem := hSound.awaited i r hRoom hOld hReported
    rw [hPending] at hMem
    rcases List.mem_cons.mp hMem with rfl | hRest
    · exact absurd rfl hNe
    · exact hRest
  · intro id port hConstructing
    cases hUnlocked.symm.trans hConstructing

theorem Sound.removing (hSound : s.Sound) {n : EndNotify} (hRemoving : s.removing = some n) :
    s.channels[n.roomId]? = some n.sender ∧
      ∃ r, s.rooms[n.sender]? = some r ∧ r.roomId = n.roomId ∧ r.reported = true :=
  hSound.pending n (by simp [Server.pending, hRemoving])

theorem Sound.step (hSound : s.Sound) (h : step s e = some (s', o)) : s'.Sound := by
  cases step_effect h with
  | found id i r hUnlocked hEntry hRoom => exact hSound.setRoom hRoom rfl rfl
  | allocated id ports port hUnlocked hVacant hGet =>
    refine ⟨hSound.entry, hSound.kept, hSound.pending, hSound.awaited, hSound.nodup, ?_⟩
    rintro other port' hOther
    cases hOther
    exact hVacant
  | exhausted => exact hSound
  | constructed id port hConstructing hFree => exact hSound.construct hConstructing
  | failed id port hConstructing =>
    refine ⟨hSound.entry, hSound.kept, hSound.pending, hSound.awaited, hSound.nodup, ?_⟩
    rintro other port' hOther
    cases hOther
  | got id i r hEntry hRoom => exact hSound.setRoom hRoom rfl rfl
  | absent => exact hSound
  | dropped i r hRoom hClones =>
    obtain ⟨ports, hEq⟩ := handleDropped_eq (s.setRoom i { r with clones := r.clones - 1 }) i
      { r with clones := r.clones - 1 }
    have hSet : (s.setRoom i { r with clones := r.clones - 1 }).Sound := hSound.setRoom hRoom rfl rfl
    rw [hEq]
    exact hSet.ports ports
  | moved _ i r r' hRoom hMoves => exact hSound.setRoom hRoom hMoves.roomId hMoves.reported
  | notified i r hRoom hLeaving => exact hSound.endNotify hRoom hLeaving
  | received n rest hIdle hQueue => exact hSound.receive hIdle hQueue
  | removed n hUnlocked hRemoving =>
    obtain ⟨hEntry, r, hRoom, _⟩ := hSound.removing hRemoving
    rw [s.removeChannel_eq hEntry hRoom]
    obtain ⟨ports, hEq⟩ := handleDropped_eq
      { s with channels := s.channels.erase n.roomId, removing := none } n.sender r
    rw [hEq]
    exact (hSound.remove hRemoving hUnlocked).ports ports

theorem Sound.of_run {ports : Ports} {es : List Event} {tr : List Output}
    (hRun : Machine.run Server.step (Server.new ports) es = some (s, tr)) : s.Sound :=
  Machine.run_invariant (Sound.new ports) (fun _ _ _ _ hSound h => hSound.step h) hRun

theorem Sound.active_unique (hSound : s.Sound) {i j : Nat} {r q : Room}
    (hRoom : s.rooms[i]? = some r) (hOther : s.rooms[j]? = some q) (hId : r.roomId = q.roomId)
    (hSilent : r.reported = false) (hQSilent : q.reported = false) : i = j := by
  have hFirst := hSound.kept i r hRoom hSilent
  have hSecond := hSound.kept j q hOther hQSilent
  rw [hId, hSecond] at hFirst
  exact (Option.some.inj hFirst).symm

/-- The one step that takes an entry out of the map is the removal that its own forwarder has
asked for. -/
theorem Sound.entry_removed (hSound : s.Sound) (h : Server.step s e = some (s', o)) {id : Uuid} {i : Nat}
    (hEntry : s.channels[id]? = some i) (hGone : s'.channels[id]? ≠ some i) :
    e = .remove ∧ s.removing = some ⟨id, i⟩ ∧
      ∃ r, s.rooms[i]? = some r ∧ r.roomId = id ∧ r.reported = true := by
  cases step_effect h with
  | constructed other port hConstructing =>
    rw [construct_channels, if_neg] at hGone
    · exact absurd hEntry hGone
    · rintro rfl
      cases (hSound.locked _ port hConstructing).symm.trans hEntry
  | dropped j r hRoom hClones =>
    obtain ⟨ports, hEq⟩ := handleDropped_eq (s.setRoom j { r with clones := r.clones - 1 }) j
      { r with clones := r.clones - 1 }
    rw [hEq] at hGone
    exact absurd hEntry hGone
  | removed n hUnlocked hRemoving =>
    obtain ⟨hCurrent, r, hRoom, hId, hReported⟩ := hSound.removing hRemoving
    have hSame : n.roomId = id := by
      by_contra hNe
      obtain ⟨ports, hEq⟩ := handleDropped_eq
        { s with channels := s.channels.erase n.roomId, removing := none } n.sender r
      rw [s.removeChannel_eq hCurrent hRoom, hEq] at hGone
      apply hGone
      simpa [TreeMap.getElem?_erase, hNe] using hEntry
    subst hSame
    have hSender : n.sender = i := Option.some.inj (hCurrent.symm.trans hEntry)
    subst hSender
    exact ⟨rfl, hRemoving, r, hRoom, hId, hReported⟩
  | _ => exact absurd hEntry hGone

/-- Cleaning up takes away only forwarders that have left their loop, and no channel has two that
are in it. -/
theorem hosted_once {ports : Ports} {es : List Event} {tr : List Output}
    (hRun : Machine.run step (Server.new ports) es = some (s, tr)) :
    (∀ (e : Event) (s' : Server) (o : List Output) (id : Uuid) (i : Nat),
      step s e = some (s', o) → s.channels[id]? = some i → s'.channels[id]? ≠ some i →
        e = .remove ∧ s.removing = some ⟨id, i⟩ ∧
          ∃ r, s.rooms[i]? = some r ∧ r.roomId = id ∧ r.stage ≠ .looping) ∧
    ∀ (i j : Nat) (r q : Room), s.rooms[i]? = some r → s.rooms[j]? = some q →
      r.roomId = q.roomId → r.stage = .looping → q.stage = .looping → i = j := by
  have hSound := Sound.of_run hRun
  refine ⟨?_, ?_⟩
  · intro e s' o id i h hEntry hGone
    obtain ⟨hRemove, hRemoving, r, hRoom, hId, hReported⟩ := hSound.entry_removed h hEntry hGone
    refine ⟨hRemove, hRemoving, r, hRoom, hId, ?_⟩
    intro hLooping
    simp [Room.reported, hLooping] at hReported
  · intro i j r q hRoom hOther hId hLooping hQLooping
    exact hSound.active_unique hRoom hOther hId (by simp [Room.reported, hLooping])
      (by simp [Room.reported, hQLooping])

/-- The channel of a forwarder that has ended is assigned once more before the entry is removed. -/
def endedAssigned : List Event :=
  [.assign 7, .constructed true, .leave 0, .notify 0, .assign 7, .receive, .finish 0, .dropClone 0,
    .get 7, .dropClone 0]

theorem hosted_once_endedAssigned :
    ∃ s tr s' o, Machine.run step (Server.new (Ports.new 33330 2)) endedAssigned = some (s, tr) ∧
      step s .remove = some (s', o) ∧ s'.channels[(7 : Uuid)]? = none ∧
      (s.removing = some ⟨7, 0⟩ ∧ ∃ r, s.rooms[0]? = some r ∧ r.roomId = 7 ∧ r.stage ≠ .looping) ∧
      ∀ (i j : Nat) (r q : Room), s.rooms[i]? = some r → s.rooms[j]? = some q →
        r.roomId = q.roomId → r.stage = .looping → q.stage = .looping → i = j := by
  have hFacts : (Machine.run step (Server.new (Ports.new 33330 2)) endedAssigned).map
      (fun last => decide (last.1.channels[(7 : Uuid)]? = some 0 ∧
        (step last.1 .remove).map (fun next => next.1.channels[(7 : Uuid)]?) = some none)) =
      some true := by decide
  obtain ⟨⟨s, tr⟩, hRun, hLast⟩ := Option.map_eq_some_iff.mp hFacts
  obtain ⟨hEntry, hNext⟩ := of_decide_eq_true hLast
  obtain ⟨⟨s', o⟩, hStep, hGone⟩ := Option.map_eq_some_iff.mp hNext
  have hHosted := hosted_once hRun
  have hNe : s'.channels[(7 : Uuid)]? ≠ some 0 := by
    intro hEq
    cases hGone.symm.trans hEq
  have hOwn := hHosted.1 .remove s' o 7 0 hStep hEntry hNe
  exact ⟨s, tr, s', o, hRun, hStep, hGone, hOwn.2, hHosted.2⟩

end Server

end Voices.VoiceServer
