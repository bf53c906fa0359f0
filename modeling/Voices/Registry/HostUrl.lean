import Voices.Registry.Lease

/-!
# The address that the registry publishes

The upsert of a registration writes the address only into a new row. The
published address is the registered one as long as no server registers under
another address while its old row is there.
-/

namespace Voices.Registry

open Semantics VoiceServer Std

namespace ChannelsImpl

/-- A row that a registration finds has the address that is registered. -/
def SameHost (s : ChannelsImpl) : Event → Prop
  | .registerVoiceServer id hostUrl => ∀ v ∈ s.db.voiceServers[id]?, v.hostUrl = hostUrl
  | _ => True

instance (s : ChannelsImpl) : (e : Event) → Decidable (SameHost s e)
  | .registerVoiceServer id hostUrl =>
    inferInstanceAs (Decidable (∀ v ∈ s.db.voiceServers[id]?, v.hostUrl = hostUrl))
  | .tick _ | .createChannel _ | .cleanupStaleVoiceServers | .getChannel _ | .assignChannel _ _ _
  | .unassignChannel _ _ => .isTrue trivial

/-- Every row has the address of the last registration of its server. -/
def Current (s : ChannelsImpl) (tr : List Reply) : Prop :=
  ∀ id v, s.db.voiceServers[id]? = some v →
    (lastRegistration id tr).map Prod.fst = some v.hostUrl

/-- Every way to the host of the server leads to this address. -/
structure Publishes (s : ChannelsImpl) (id : Uuid) (hostUrl : String) : Prop where
  resolved : ∀ cid, s.db.assignedTo cid = some id →
    ChannelsImpl.getChannel s.db s.now cid = some (some hostUrl)
  assigned : ∀ cid reassign pick db srv,
    ChannelsImpl.assignChannel s.db s.now cid reassign pick = some (db, .ok srv) → srv.id = id →
      srv.hostUrl = hostUrl

variable {s s' : ChannelsImpl} {e : Event} {o tr : List Reply} {es : List Event}

theorem current_step (hCurrent : Current s tr) (hSame : SameHost s e)
    (hStep : step s e = some (s', o)) : Current s' (tr ++ o) := by
  intro id v hRow
  obtain ⟨other, hostUrl, rfl, rfl, rfl⟩ | ⟨rfl, rfl, rfl⟩ | ⟨hRows, _, hNone⟩ :=
    voiceServers_step hStep
  · rw [Database.voiceServers_createOrUpdate] at hRow
    rw [lastRegistration_snoc, Reply.registration]
    by_cases hEq : other = id
    · rw [if_pos hEq] at hRow
      cases hRow
      rw [if_pos hEq, Option.some_or, Option.map_some]
      cases hOld : s.db.voiceServers[other]? with
      | none => rfl
      | some old => rw [Option.map_some, Option.getD_some, hSame old hOld]
    · rw [if_neg hEq] at hRow
      rw [if_neg hEq, Option.none_or]
      exact hCurrent id v hRow
  · rw [Database.voiceServers_cleanupStale, Option.filter_eq_some_iff] at hRow
    rw [lastRegistration_append (by simp)]
    exact hCurrent id v hRow.1
  · rw [lastRegistration_append (hNone id)]
    exact hCurrent id v (hRows ▸ hRow)

theorem current_of_run (hAlong : Machine.Along step SameHost new es)
    (hRun : Machine.run step new es = some (s, tr)) : Current s tr := by
  refine Machine.run_induction_along (P := Current) ?_
    (fun _ _ _ _ _ hCurrent hSame hStep => current_step hCurrent hSame hStep) hAlong hRun
  intro id v hRow
  simp [new, Database.empty] at hRow

theorem mem_of_lastRegistration {id : Uuid} {hostUrl : String} {validUntil : Instant}
    (hLast : lastRegistration id tr = some (hostUrl, validUntil)) :
    .registered id hostUrl validUntil ∈ tr := by
  obtain ⟨reply, hMem, hEq⟩ := List.mem_filterMap.mp (List.mem_of_getLast? hLast)
  cases reply with
  | registered other url v =>
    rw [Reply.registration, Option.ite_none_right_eq_some] at hEq
    obtain ⟨rfl, hEq⟩ := hEq
    cases hEq
    exact hMem
  | _ => cases hEq

/-- The address of the last registration is published until it expires. -/
theorem publishes_current_address (hAlong : Machine.Along step SameHost new es)
    (hRun : Machine.run step new es = some (s, tr)) {id : Uuid} {hostUrl : String}
    {validUntil : Instant} (hLast : lastRegistration id tr = some (hostUrl, validUntil))
    (hBefore : s.now < validUntil) : Publishes s id hostUrl := by
  have hCurrent : Current s tr := current_of_run hAlong hRun
  obtain ⟨v, hRow, hLe⟩ :=
    (leased_of_run hRun).held id hostUrl validUntil (mem_of_lastRegistration hLast) hBefore
  have hHost : v.hostUrl = hostUrl := by
    have hEq := hCurrent id v hRow
    rw [hLast] at hEq
    exact (Option.some.inj hEq).symm
  refine ⟨?_, ?_⟩
  · intro cid hAssigned
    rw [getChannel_of_assignedTo hAssigned,
      getActive_eq_some_of_row hRow (Nat.lt_of_lt_of_le hBefore hLe), Option.map_some, hHost]
  · intro cid reassign pick db srv hAssign hEq
    obtain ⟨w, _, hPick, _, rfl⟩ := assignChannel_eq_ok hAssign
    have hRow' : s.db.voiceServers[pick]? = some v := by rw [show pick = id from hEq, hRow]
    cases hPick.symm.trans hRow'
    exact hHost

/-- The server 1 is started again at another address. -/
def moved : List Event :=
  [.createChannel 7, .registerVoiceServer 1 "http://a/", .assignChannel 7 false 1, .tick 1000,
    .registerVoiceServer 1 "http://b/"]

theorem not_publishes_current_address :
    ¬ ∀ (es : List Event) (s : ChannelsImpl) (tr : List Reply) (id : Uuid) (hostUrl : String)
      (validUntil : Instant), Machine.run step new es = some (s, tr) →
      lastRegistration id tr = some (hostUrl, validUntil) → s.now < validUntil →
      Publishes s id hostUrl := by
  intro h
  have hRun : Machine.run step new moved = some (_, _) := rfl
  have hPublishes := h moved _ _ 1 "http://b/" 36000 hRun (by decide) (by decide)
  exact absurd (hPublishes.resolved 7 (by decide)) (by decide)

def refreshed : List Event :=
  [.createChannel 7, .registerVoiceServer 1 "http://a/", .assignChannel 7 false 1, .tick 1000,
    .registerVoiceServer 1 "http://a/"]

theorem publishes_current_address_of_refreshed :
    ∃ s tr, Machine.run step new refreshed = some (s, tr) ∧ Publishes s 1 "http://a/" := by
  have hRun : Machine.run step new refreshed = some (_, _) := rfl
  refine ⟨_, _, hRun, ?_⟩
  exact publishes_current_address (by decide) hRun
    (show lastRegistration 1 _ = some ("http://a/", 36000) by decide) (by decide)

end ChannelsImpl

end Voices.Registry
