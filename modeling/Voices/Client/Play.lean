import Mathlib.Data.List.Sort
import Voices.Semantics.Run

/-!
# The playout buffer of a stream

`play_stream` reads packets into a small heap and, each 20 ms, takes the one
with the least sequence number for the decoder. A packet with the sequence
number that is expected next skips the heap.
-/

namespace Voices.Client.Play

open Semantics

structure Voice where
  sequence : UInt64
  payload : List UInt8
  deriving DecidableEq

/-- `queue` lists the heap from the least sequence number on. -/
structure State where
  queue : List Voice
  nextExpected : UInt64

namespace State

def new : State := { queue := [], nextExpected := 0 }

def push (s : State) (voice : Voice) : State :=
  { s with queue := s.queue.orderedInsert (fun v w => v.sequence ≤ w.sequence) voice }

def pop (s : State) : State × Option Voice :=
  match s.queue with
  | v :: queue => ({ queue, nextExpected := v.sequence + 1 }, some v)
  | [] => ({ s with nextExpected := s.nextExpected + 1 }, none)

def tick (s : State) (voice : Voice) : State × Option Voice :=
  if 3 ≤ s.queue.length then (s.pop.1.push voice, s.pop.2)
  else if voice.sequence = s.nextExpected then
    ({ s with nextExpected := voice.sequence + 1 }, some voice)
  else (s.push voice, none)

end State

/-- The local variables of `play_stream`, with the time in milliseconds. -/
structure Stream where
  state : State
  deadline : Nat
  now : Nat

def Stream.new (start : Nat) : Stream := { state := .new, deadline := start, now := start }

inductive Event where
  | recv (voice : Voice) (time : Nat)
  | sleepUntil (time : Nat)

/-- One turn of the loop; the outputs are the arguments of `decode_and_submit`. -/
def step (s : Stream) : Event → Option (Stream × List (Option Voice))
  | .recv voice time =>
    if s.now ≤ time then
      let (state, ready) := s.state.tick voice
      match ready with
      | some v => some ({ state, deadline := s.deadline + 20, now := time }, [some v])
      | none => some ({ s with state, now := time }, [])
    else none
  | .sleepUntil time =>
    if s.now ≤ time ∧ s.deadline ≤ time then
      let (state, voice) := s.state.pop
      some ({ state, deadline := s.deadline + 20, now := time }, [voice])
    else none

def played (tr : List (Option Voice)) : List UInt64 :=
  tr.filterMap fun o => o.map Voice.sequence

def Event.arrival : Event → Option UInt64
  | .recv voice _ => some voice.sequence
  | .sleepUntil _ => none

def arrivals (es : List Event) : List UInt64 := es.filterMap Event.arrival

/-- A packet that would skip the heap finds it empty. -/
def SkipsNone (s : Stream) : Event → Prop
  | .recv voice _ =>
    s.state.queue.length < 3 → voice.sequence = s.state.nextExpected → s.state.queue = []
  | .sleepUntil _ => True

instance (s : Stream) (e : Event) : Decidable (SkipsNone s e) :=
  match e with
  | .recv voice _ => inferInstanceAs
      (Decidable (s.state.queue.length < 3 → voice.sequence = s.state.nextExpected → s.state.queue = []))
  | .sleepUntil _ => inferInstanceAs (Decidable True)

/-- The packets in the order in which they are played when only deadlines follow. -/
def lineup (s : Stream) (tr : List (Option Voice)) : List UInt64 :=
  played tr ++ s.state.queue.map Voice.sequence

@[simp] theorem played_append (tr tr' : List (Option Voice)) :
    played (tr ++ tr') = played tr ++ played tr' :=
  List.filterMap_append

@[simp] theorem arrivals_append (es es' : List Event) :
    arrivals (es ++ es') = arrivals es ++ arrivals es' :=
  List.filterMap_append

theorem orderedInsert_eq_snoc {queue : List Voice} {voice : Voice}
    (hLast : ∀ n ∈ queue.map Voice.sequence, n < voice.sequence) :
    queue.orderedInsert (fun v w => v.sequence ≤ w.sequence) voice = queue ++ [voice] := by
  induction queue with
  | nil => rfl
  | cons v queue ih =>
    rw [List.map_cons, List.forall_mem_cons] at hLast
    rw [List.orderedInsert_of_not_le (r := fun v w : Voice => v.sequence ≤ w.sequence) queue
      (UInt64.not_le.mpr hLast.1), ih hLast.2, List.cons_append]

theorem State.pop_of_cons {s : State} {v : Voice} {queue : List Voice} (hQueue : s.queue = v :: queue) :
    s.pop = ({ queue, nextExpected := v.sequence + 1 }, some v) := by
  rw [State.pop, hQueue]

theorem State.pop_of_nil {s : State} (hQueue : s.queue = []) :
    s.pop = ({ s with nextExpected := s.nextExpected + 1 }, none) := by
  rw [State.pop, hQueue]

theorem State.push_of_last {s : State} {voice : Voice}
    (hLast : ∀ n ∈ s.queue.map Voice.sequence, n < voice.sequence) :
    s.push voice = { s with queue := s.queue ++ [voice] } := by
  rw [State.push, orderedInsert_eq_snoc hLast]

/-- What a tick does with a packet that is later than the buffered ones. -/
theorem State.tick_cases {s : State} {voice : Voice}
    (hLast : ∀ n ∈ s.queue.map Voice.sequence, n < voice.sequence) :
    (∃ v queue, s.queue = v :: queue ∧ 3 ≤ s.queue.length ∧
      s.tick voice =
        ({ queue := queue ++ [voice], nextExpected := v.sequence + 1 }, some v)) ∨
    (s.queue.length < 3 ∧ voice.sequence = s.nextExpected ∧
      s.tick voice = ({ s with nextExpected := voice.sequence + 1 }, some voice)) ∨
    (s.queue.length < 3 ∧ voice.sequence ≠ s.nextExpected ∧
      s.tick voice = ({ s with queue := s.queue ++ [voice] }, none)) := by
  by_cases hFull : 3 ≤ s.queue.length
  · left
    obtain ⟨v, queue, hQueue⟩ :=
      List.exists_cons_of_length_pos (Nat.lt_of_lt_of_le (by decide : 0 < 3) hFull)
    refine ⟨v, queue, hQueue, hFull, ?_⟩
    rw [State.tick, if_pos hFull, State.pop_of_cons hQueue, State.push_of_last]
    rw [hQueue, List.map_cons, List.forall_mem_cons] at hLast
    exact hLast.2
  · have hShort : s.queue.length < 3 := Nat.lt_of_not_le hFull
    by_cases hReady : voice.sequence = s.nextExpected
    · exact .inr (.inl ⟨hShort, hReady, by rw [State.tick, if_neg hFull, if_pos hReady]⟩)
    · refine .inr (.inr ⟨hShort, hReady, ?_⟩)
      rw [State.tick, if_neg hFull, if_neg hReady, State.push_of_last hLast]

theorem lineup_sleepUntil {s s' : Stream} {tr o : List (Option Voice)} {time : Nat}
    (hStep : step s (.sleepUntil time) = some (s', o)) : lineup s' (tr ++ o) = lineup s tr := by
  rw [step, Option.ite_none_right_eq_some] at hStep
  obtain ⟨_, hEq⟩ := hStep
  cases hQueue : s.state.queue with
  | nil =>
    rw [State.pop_of_nil hQueue] at hEq
    cases hEq
    simp [lineup, played, hQueue]
  | cons v queue =>
    rw [State.pop_of_cons hQueue] at hEq
    cases hEq
    simp [lineup, played, hQueue]

theorem lineup_recv {s s' : Stream} {tr o : List (Option Voice)} {voice : Voice} {time : Nat}
    (hLast : ∀ n ∈ lineup s tr, n < voice.sequence)
    (hStep : step s (.recv voice time) = some (s', o)) :
    (SkipsNone s (.recv voice time) ∧ lineup s' (tr ++ o) = lineup s tr ++ [voice.sequence]) ∨
      (¬ SkipsNone s (.recv voice time) ∧ s.state.queue ≠ [] ∧
        lineup s' (tr ++ o) =
          played tr ++ voice.sequence :: s.state.queue.map Voice.sequence) := by
  rw [step, Option.ite_none_right_eq_some] at hStep
  obtain ⟨_, hEq⟩ := hStep
  have hQueue : ∀ n ∈ s.state.queue.map Voice.sequence, n < voice.sequence :=
    fun n hMem => hLast n (List.mem_append_right _ hMem)
  obtain ⟨v, queue, hCons, hFull, hTick⟩ | ⟨hShort, hReady, hTick⟩ | ⟨hShort, hReady, hTick⟩ :=
    State.tick_cases hQueue
  · rw [hTick] at hEq
    cases hEq
    refine .inl ⟨fun hShort => absurd hFull (Nat.not_le_of_lt hShort), ?_⟩
    simp [lineup, played, hCons]
  · rw [hTick] at hEq
    cases hEq
    by_cases hNil : s.state.queue = []
    · refine .inl ⟨fun _ _ => hNil, ?_⟩
      simp [lineup, played, hNil]
    · refine .inr ⟨fun hSkips => hNil (hSkips hShort hReady), hNil, ?_⟩
      simp [lineup, played]
  · rw [hTick] at hEq
    cases hEq
    refine .inl ⟨fun _ hSequence => absurd hSequence hReady, ?_⟩
    simp [lineup]

/-- A packet skips none exactly when the others keep their place before it. -/
theorem pairwise_lineup_recv_iff {s s' : Stream} {tr o : List (Option Voice)} {voice : Voice}
    {time : Nat} (hLast : ∀ n ∈ lineup s tr, n < voice.sequence)
    (hStep : step s (.recv voice time) = some (s', o)) :
    (lineup s' (tr ++ o)).Pairwise (· < ·) ↔
      (lineup s tr).Pairwise (· < ·) ∧ SkipsNone s (.recv voice time) := by
  obtain ⟨hSkips, hEq⟩ | ⟨hSkips, hNil, hEq⟩ := lineup_recv hLast hStep
  · rw [hEq, List.pairwise_append]
    simp only [List.mem_singleton, forall_eq, List.pairwise_singleton, true_and]
    exact ⟨fun h => ⟨h.1, hSkips⟩, fun h => ⟨h.1, hLast⟩⟩
  · refine ⟨fun h => ?_, fun h => absurd h.2 hSkips⟩
    obtain ⟨v, queue, hCons⟩ := List.exists_cons_of_ne_nil hNil
    have hMem : v.sequence ∈ s.state.queue.map Voice.sequence := by simp [hCons]
    have hOvertaken : voice.sequence < v.sequence := by
      rw [hEq, List.pairwise_append] at h
      exact (List.pairwise_cons.mp h.2.1).1 _ hMem
    exact absurd (hLast _ (List.mem_append_right _ hMem)) (UInt64.not_lt.mpr (UInt64.le_of_lt hOvertaken))

/-- Along a stream that arrives in order, the packets line up in order as
long as none of them skips the heap. -/
theorem lineup_of_run {start : Nat} {es : List Event} {s : Stream} {tr : List (Option Voice)}
    (hRun : Machine.run step (.new start) es = some (s, tr))
    (hArrivals : (arrivals es).Pairwise (· < ·)) :
    (∀ n ∈ lineup s tr, n ∈ arrivals es) ∧
      ((lineup s tr).Pairwise (· < ·) ↔ Machine.Along step SkipsNone (.new start) es) := by
  revert hArrivals
  refine Machine.run_history (P := fun es s tr => (arrivals es).Pairwise (· < ·) →
    (∀ n ∈ lineup s tr, n ∈ arrivals es) ∧
      ((lineup s tr).Pairwise (· < ·) ↔ Machine.Along step SkipsNone (.new start) es)) ?_ ?_ hRun
  · intro _
    exact ⟨fun n hMem => hMem, ⟨fun _ => trivial, fun _ => List.Pairwise.nil⟩⟩
  · intro es s tr e s' o hFirst ih hStep hArrivals
    rw [arrivals_append, List.pairwise_append] at hArrivals
    obtain ⟨hSubset, hIff⟩ := ih hArrivals.1
    rw [Machine.along_snoc_iff hFirst, ← hIff]
    cases e with
    | sleepUntil time =>
      rw [lineup_sleepUntil hStep]
      refine ⟨fun n hMem => ?_, ⟨fun h => ⟨h, trivial⟩, fun h => h.1⟩⟩
      rw [arrivals_append]
      exact List.mem_append_left _ (hSubset n hMem)
    | recv voice time =>
      have hLast : ∀ n ∈ lineup s tr, n < voice.sequence :=
        fun n hMem => hArrivals.2.2 n (hSubset n hMem) _ (List.mem_singleton.mpr rfl)
      refine ⟨fun n hMem => ?_, pairwise_lineup_recv_iff hLast hStep⟩
      have hSplit : n ∈ lineup s tr ∨ n = voice.sequence := by
        obtain ⟨_, hEq⟩ | ⟨_, _, hEq⟩ := lineup_recv hLast hStep
        · simpa [hEq] using hMem
        · rw [hEq] at hMem
          simp only [lineup, List.mem_append, List.mem_cons] at hMem ⊢
          tauto
      rw [arrivals_append, List.mem_append]
      exact hSplit.imp (hSubset n) fun hEq => List.mem_singleton.mpr hEq

/-- Deadlines alone play out what is buffered. -/
theorem exists_playout (s : Stream) :
    ∃ (times : List Nat) (s' : Stream) (tr : List (Option Voice)),
      Machine.run step s (times.map .sleepUntil) = some (s', tr) ∧ s'.state.queue = [] := by
  generalize hQueue : s.state.queue = queue
  induction queue generalizing s with
  | nil => exact ⟨[], s, [], rfl, hQueue⟩
  | cons v queue ih =>
    let time := max s.now s.deadline
    let next : Stream :=
      { state := { queue, nextExpected := v.sequence + 1 }, deadline := s.deadline + 20, now := time }
    have hStep : step s (.sleepUntil time) = some (next, [some v]) := by
      rw [step, if_pos ⟨le_max_left _ _, le_max_right _ _⟩, State.pop_of_cons hQueue]
    obtain ⟨times, s', tr, hRun, hNil⟩ := ih next rfl
    exact ⟨time :: times, s', _, Machine.run_cons_iff.mpr ⟨next, _, tr, hStep, hRun, rfl⟩, hNil⟩

theorem lineup_of_playout {s s' : Stream} {tr tr' : List (Option Voice)} {times : List Nat}
    (hRun : Machine.run step s (times.map .sleepUntil) = some (s', tr')) :
    lineup s' (tr ++ tr') = lineup s tr := by
  induction times generalizing s tr tr' with
  | nil =>
    cases hRun
    rw [List.append_nil]
  | cons time times ih =>
    obtain ⟨s₁, o, tr₁, hStep, hRest, rfl⟩ := Machine.run_cons_iff.mp hRun
    rw [← List.append_assoc, ih hRest, lineup_sleepUntil hStep]

/-- What arrives in order is played in order, whatever deadlines follow, exactly
when no packet skipped the heap while an earlier one was in it. -/
theorem plays_in_order_iff {start : Nat} {es : List Event} {s : Stream} {tr : List (Option Voice)}
    (hArrivals : (arrivals es).Pairwise (· < ·))
    (hRun : Machine.run step (.new start) es = some (s, tr)) :
    (∀ (times : List Nat) s' tr', Machine.run step s (times.map .sleepUntil) = some (s', tr') →
        (played (tr ++ tr')).Pairwise (· < ·)) ↔
      Machine.Along step SkipsNone (.new start) es := by
  rw [← (lineup_of_run hRun hArrivals).2]
  constructor
  · intro h
    obtain ⟨times, s', tr', hPlayout, hNil⟩ := exists_playout s
    have hLineup : lineup s tr = played (tr ++ tr') := by
      rw [← lineup_of_playout hPlayout, lineup, hNil, List.map_nil, List.append_nil]
    rw [hLineup]
    exact h times s' tr' hPlayout
  · intro h times s' tr' hPlayout
    rw [← lineup_of_playout hPlayout] at h
    exact (List.pairwise_append.mp h).1

/-- Two empty deadlines, then the packets 0, 1 and 2: the third arrives as the
expected one and overtakes the two before it. -/
def lateStart : List Event :=
  [.sleepUntil 0, .sleepUntil 20, .recv ⟨0, []⟩ 21, .recv ⟨1, []⟩ 22, .recv ⟨2, []⟩ 23, .sleepUntil 60]

theorem not_plays_in_order :
    ¬ ∀ (start : Nat) (es : List Event) (s : Stream) (tr : List (Option Voice)),
      (arrivals es).Pairwise (· < ·) → Machine.run step (.new start) es = some (s, tr) →
      (played tr).Pairwise (· < ·) := by
  intro h
  have hPlayed : ((Machine.run step (.new 0) lateStart).map fun last => played last.2) =
      some [2, 0] := by decide
  obtain ⟨⟨s, tr⟩, hRun, hEq⟩ := Option.map_eq_some_iff.mp hPlayed
  have hOrder := h 0 lateStart s tr (by decide) hRun
  rw [show played tr = [2, 0] from hEq] at hOrder
  exact absurd hOrder (by decide)

def inTime : List Event :=
  [.recv ⟨3, []⟩ 0, .recv ⟨4, []⟩ 1, .sleepUntil 1, .sleepUntil 20, .recv ⟨5, []⟩ 21]

/-- Packets 3 and 4 wait for their deadlines, and 5 finds the heap empty. -/
theorem plays_in_order_of_inTime :
    ∃ s tr, Machine.run step (.new 0) inTime = some (s, tr) ∧
      ∀ (times : List Nat) s' tr', Machine.run step s (times.map .sleepUntil) = some (s', tr') →
        (played (tr ++ tr')).Pairwise (· < ·) := by
  have hRun : Machine.run step (.new 0) inTime = some (_, _) := rfl
  exact ⟨_, _, hRun, (plays_in_order_iff (by decide) hRun).mpr (by decide)⟩

end Voices.Client.Play
