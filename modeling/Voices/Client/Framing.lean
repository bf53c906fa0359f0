import Voices.Client.Mic
import Voices.Semantics.Run

/-!
# Callbacks of the microphone

The device calls back with slices of any sizes. A call appends its slice to
`input_buf`, works on the complete periods in place and copies what is left to the
front of the buffer. It panics when the resampler or the encoder fails or the
receiver of the packets is gone, and is not called again. `Input::new` fails for
the rate 0, and rates are far below 2^31, so that `samples_per_period` does not
overflow.
-/

namespace Voices.Client.Mic

open Semantics

variable {α σ τ ρ ε : Type}

/-! ### Chunks of a list that grows -/

theorem chunksExact_of_lt {n : Nat} {xs : List α} (hLt : xs.length < n) :
    chunksExact n xs = [] ∧ remainder n xs = xs := by
  rw [chunksExact, remainder, Nat.div_eq_of_lt hLt]
  simp

theorem chunksExact_of_le {n : Nat} {xs : List α} (hPos : 0 < n) (hLe : n ≤ xs.length) :
    chunksExact n xs = xs.take n :: chunksExact n (xs.drop n) ∧
      remainder n xs = remainder n (xs.drop n) := by
  have hCount : xs.length / n = (xs.drop n).length / n + 1 := by
    rw [List.length_drop, ← Nat.add_div_right _ hPos, Nat.sub_add_cancel hLe]
  have hDrop : ∀ i, xs.drop ((i + 1) * n) = (xs.drop n).drop (i * n) := by
    intro i
    rw [List.drop_drop, Nat.succ_mul, Nat.add_comm]
  constructor
  · rw [chunksExact, hCount, List.range_succ_eq_map, List.map_cons, Nat.zero_mul, List.drop_zero,
      List.map_map]
    refine congrArg _ (List.map_congr_left fun i _ => ?_)
    exact congrArg _ (hDrop i)
  · rw [remainder, hCount, hDrop]
    rfl

/-- What was left of a list goes before what is appended to it. -/
theorem chunksExact_append {n : Nat} (hPos : 0 < n) (xs ys : List α) :
    chunksExact n (xs ++ ys) = chunksExact n xs ++ chunksExact n (remainder n xs ++ ys) ∧
      remainder n (xs ++ ys) = remainder n (remainder n xs ++ ys) := by
  induction hLength : xs.length using Nat.strongRecOn generalizing xs with
  | ind length ih =>
    obtain hLt | hLe := Nat.lt_or_ge xs.length n
    · rw [(chunksExact_of_lt hLt).1, (chunksExact_of_lt hLt).2]
      exact ⟨rfl, rfl⟩
    · have hWhole : n ≤ (xs ++ ys).length := by
        rw [List.length_append]
        omega
      obtain ⟨hChunks, hRest⟩ := ih (xs.drop n).length (by rw [List.length_drop]; omega) (xs.drop n) rfl
      rw [(chunksExact_of_le hPos hWhole).1, (chunksExact_of_le hPos hWhole).2,
        (chunksExact_of_le hPos hLe).1, (chunksExact_of_le hPos hLe).2,
        List.take_append_of_le_length hLe, List.drop_append_of_le_length hLe, hChunks, hRest]
      exact ⟨rfl, rfl⟩

theorem length_remainder_lt {n : Nat} (hPos : 0 < n) (xs : List α) : (remainder n xs).length < n := by
  rw [remainder, List.length_drop, Nat.mul_comm, ← Nat.mod_eq_sub]
  exact Nat.mod_lt _ hPos

/-- `copy_within(start.., 0)`. -/
def copyToFront (start : Nat) (xs : List α) : List α := xs.drop start ++ xs.drop (xs.length - start)

theorem take_copyToFront (xs rem : List α) :
    (copyToFront ((xs ++ rem).length - rem.length) (xs ++ rem)).take rem.length = rem := by
  rw [List.length_append, Nat.add_sub_cancel, copyToFront, List.drop_left, List.take_left]

/-- Where the frames go: `encode_float` of the encoder, which may fail, and `tx`, whose receiver takes
the `n`-th packet or is gone. -/
structure Sink (ε α : Type) where
  encodeFloat : ε → List α → Option (ε × List UInt8)
  takes : Nat → Bool

/-- What the closure owns. `sent` counts the packets. -/
structure Stream (α σ τ ρ ε : Type) where
  input : Input α σ τ ρ
  opus : ε
  sent : Nat

/-- A period that the loop takes, and how far it gets: to the frame for the encoder, and to the packet
that is sent. -/
structure Turn (α : Type) where
  period : List α
  frame : Option (List α)
  packet : Option (List UInt8)

def Stream.keep (s : Stream α σ τ ρ ε) (inputBuf : List α) : Stream α σ τ ρ ε :=
  { s with input := { s.input with inputBuf } }

namespace Config

variable (c : Config α σ τ ρ) (k : Sink ε α)

/-- The loop over the periods. It ends with `none` after a panic. -/
def encodePeriods (s : Stream α σ τ ρ ε) (resampled : List α) :
    List (List α) → Option (Stream α σ τ ρ ε) × List (Turn α)
  | [] => (some s, [])
  | period :: rest =>
    match c.processPeriod s.input resampled period with
    | none => (none, [⟨period, none, none⟩])
    | some (input, resampled, frame) =>
      match k.encodeFloat s.opus frame with
      | none => (none, [⟨period, some frame, none⟩])
      | some (opus, packet) =>
        if k.takes s.sent then
          let (last, turns) := encodePeriods { input, opus, sent := s.sent + 1 } resampled rest
          (last, ⟨period, some frame, some packet⟩ :: turns)
        else (none, [⟨period, some frame, none⟩])

/-- A period in `input_buf` after its turn of the loop; a resampled frame has a buffer of its own. -/
def inPlace (turn : Turn α) : List α :=
  match c.resampler with
  | some _ => turn.period.map c.scaleUp
  | none => turn.frame.getD turn.period

/-- One call on the buffer as it is in memory. Chunks of no samples panic. -/
def callback (s : Stream α σ τ ρ ε) (data : List α) : Option (Stream α σ τ ρ ε) × List (Turn α) :=
  if c.samplesPerPeriod = 0 then (none, [])
  else
    let periods := chunksExact c.samplesPerPeriod (c.buffered s.input data)
    let rem := remainder c.samplesPerPeriod (c.buffered s.input data)
    let (last, turns) := c.encodePeriods k s [] periods
    let inputBuf := (turns.map c.inPlace).flatten ++ rem
    let start := inputBuf.length - rem.length
    (last.map fun last => last.keep ((copyToFront start inputBuf).take rem.length), turns)

/-- The next call; there is none after a panic. -/
def step (s : Option (Stream α σ τ ρ ε)) (data : List α) :
    Option (Option (Stream α σ τ ρ ε) × List (Turn α)) :=
  match s with
  | some s => some (c.callback k s data)
  | none => some (none, [])

theorem callback_eq (hPos : 0 < c.samplesPerPeriod) (s : Stream α σ τ ρ ε) (data : List α) :
    c.callback k s data =
      ((c.encodePeriods k s [] (chunksExact c.samplesPerPeriod (c.buffered s.input data))).1.map fun last =>
          last.keep (remainder c.samplesPerPeriod (c.buffered s.input data)),
        (c.encodePeriods k s [] (chunksExact c.samplesPerPeriod (c.buffered s.input data))).2) := by
  simp only [callback, Nat.ne_of_gt hPos, if_false, take_copyToFront]

/-- After a panic the slices are of no concern. -/
theorem run_panicked (slices : List (List α)) :
    Machine.run (c.step k) none slices = some (none, []) := by
  induction slices with
  | nil => rfl
  | cons data rest ih => exact Machine.run_cons_iff.mpr ⟨none, [], [], rfl, ih, rfl⟩

/-- The samples of a slice, each of them twice for one channel. -/
def samples (data : List α) : List α :=
  if c.channels = 1 then data.flatMap fun it => [it, it] else data

theorem samples_append (data data' : List α) :
    c.samples (data ++ data') = c.samples data ++ c.samples data' := by
  rw [samples, samples, samples]
  split
  · exact List.flatMap_append
  · rfl

theorem buffered_eq (hChannels : c.channels = 1 ∨ c.channels = 2) (input : Input α σ τ ρ)
    (data : List α) : c.buffered input data = input.inputBuf ++ c.samples data := by
  obtain hOne | hTwo := hChannels
  · simp [buffered, samples, hOne]
  · simp [buffered, samples, hTwo]

theorem samplesPerPeriod_eq (hRate : 50 ∣ c.sampleRate) :
    c.samplesPerPeriod = 2 * (c.sampleRate / 50) := Nat.mul_div_assoc 2 hRate

/-! ### The loop -/

/-- The turn that one period takes, and the loop over the others if it does not panic. -/
theorem encodePeriods_cons (s : Stream α σ τ ρ ε) (resampled period : List α) (rest : List (List α)) :
    (∃ frame, c.encodePeriods k s resampled (period :: rest) = (none, [⟨period, frame, none⟩])) ∨
      ∃ input resampled' frame opus packet,
        c.processPeriod s.input resampled period = some (input, resampled', frame) ∧
        k.encodeFloat s.opus frame = some (opus, packet) ∧ k.takes s.sent = true ∧
        c.encodePeriods k s resampled (period :: rest) =
          ((c.encodePeriods k { input, opus, sent := s.sent + 1 } resampled' rest).1,
            ⟨period, some frame, some packet⟩ ::
              (c.encodePeriods k { input, opus, sent := s.sent + 1 } resampled' rest).2) := by
  rw [encodePeriods]
  split
  · exact .inl ⟨none, rfl⟩
  · rename_i input resampled' frame hProcess
    split
    · exact .inl ⟨some frame, rfl⟩
    · rename_i opus packet hEncode
      split
      · rename_i hTakes
        exact .inr ⟨input, resampled', frame, opus, packet, hProcess, hEncode, hTakes, rfl⟩
      · exact .inl ⟨some frame, rfl⟩

/-- The loop takes the periods in order, and all of them unless it panics. -/
theorem encodePeriods_periods (s : Stream α σ τ ρ ε) (resampled : List α) (periods : List (List α)) :
    (c.encodePeriods k s resampled periods).2.map Turn.period <+: periods ∧
      ((c.encodePeriods k s resampled periods).1.isSome = true →
        (c.encodePeriods k s resampled periods).2.map Turn.period = periods ∧
        ∀ turn ∈ (c.encodePeriods k s resampled periods).2, turn.packet.isSome = true) := by
  induction periods generalizing s resampled with
  | nil => exact ⟨List.prefix_rfl, fun _ => ⟨rfl, fun turn hMem => absurd hMem List.not_mem_nil⟩⟩
  | cons period rest ih =>
    rcases c.encodePeriods_cons k s resampled period rest with
      ⟨frame, hPanic⟩ | ⟨input, resampled', frame, opus, packet, _, _, _, hNext⟩
    · rw [hPanic]
      exact ⟨List.cons_prefix_cons.mpr ⟨rfl, List.nil_prefix⟩, fun hSome => by cases hSome⟩
    · obtain ⟨hPrefix, hAll⟩ := ih { input, opus, sent := s.sent + 1 } resampled'
      rw [hNext, List.map_cons]
      refine ⟨List.cons_prefix_cons.mpr ⟨rfl, hPrefix⟩, fun hSome => ?_⟩
      obtain ⟨hPeriods, hPackets⟩ := hAll hSome
      exact ⟨congrArg _ hPeriods, List.forall_mem_cons.mpr ⟨rfl, hPackets⟩⟩

/-- The encoder gets the frames of `processPeriods`, up to a panic. -/
theorem encodePeriods_frames (s : Stream α σ τ ρ ε) (resampled : List α) (periods : List (List α)) :
    (c.encodePeriods k s resampled periods).2.filterMap Turn.frame <+:
      (c.processPeriods s.input resampled periods).2 := by
  induction periods generalizing s resampled with
  | nil => exact List.prefix_rfl
  | cons period rest ih =>
    cases hProcess : c.processPeriod s.input resampled period with
    | none => simp [encodePeriods, processPeriods, hProcess]
    | some next =>
      obtain ⟨input, resampled', frame⟩ := next
      simp only [encodePeriods, processPeriods, hProcess]
      split
      · exact List.cons_prefix_cons.mpr ⟨rfl, List.nil_prefix⟩
      · split
        · exact List.cons_prefix_cons.mpr ⟨rfl, ih _ _⟩
        · exact List.cons_prefix_cons.mpr ⟨rfl, List.nil_prefix⟩

/-- Neither the resampler nor the encoder fails, and the receiver lives. -/
def Unfailing : Prop :=
  (∀ r, c.resampler = some r → ∀ s buf, (r.process s buf).isSome = true) ∧
    (∀ s frame, (k.encodeFloat s frame).isSome = true) ∧ ∀ n, k.takes n = true

variable {c k}

theorem Unfailing.encodePeriods (h : c.Unfailing k) (s : Stream α σ τ ρ ε) (resampled : List α)
    (periods : List (List α)) : (c.encodePeriods k s resampled periods).1.isSome = true := by
  obtain ⟨hResampler, hEncoder, hTakes⟩ := h
  induction periods generalizing s resampled with
  | nil => rfl
  | cons period rest ih =>
    have hProcess : (c.processPeriod s.input resampled period).isSome = true := by
      cases hNone : c.resampler with
      | none => simp only [processPeriod, hNone, Option.isSome_some]
      | some r => simp only [processPeriod, hNone, Option.isSome_map, hResampler r hNone]
    obtain ⟨⟨input, resampled', frame⟩, hNext⟩ := Option.isSome_iff_exists.mp hProcess
    obtain ⟨⟨opus, packet⟩, hPacket⟩ := Option.isSome_iff_exists.mp (hEncoder s.opus frame)
    simp only [Config.encodePeriods, hNext, hPacket, hTakes, if_true]
    exact ih _ _

/-! ### Any slices -/

/-- The periods that the calls take are the first of the complete periods of all samples. Unless a call
panics they are all of them, and the buffer has the rest. -/
theorem run_step (hPos : 0 < c.samplesPerPeriod) (hChannels : c.channels = 1 ∨ c.channels = 2)
    (s : Stream α σ τ ρ ε) (hShort : s.input.inputBuf.length < c.samplesPerPeriod)
    (slices : List (List α)) :
    ∃ last tr, Machine.run (c.step k) (some s) slices = some (last, tr) ∧
      tr.map Turn.period <+:
        chunksExact c.samplesPerPeriod (s.input.inputBuf ++ c.samples slices.flatten) ∧
      (c.Unfailing k → last.isSome = true) ∧
      ∀ s', last = some s' →
        tr.map Turn.period =
          chunksExact c.samplesPerPeriod (s.input.inputBuf ++ c.samples slices.flatten) ∧
        s'.input.inputBuf =
          remainder c.samplesPerPeriod (s.input.inputBuf ++ c.samples slices.flatten) ∧
        ∀ turn ∈ tr, turn.packet.isSome = true := by
  induction slices generalizing s with
  | nil =>
    have hNone : s.input.inputBuf ++ c.samples [] = s.input.inputBuf := by simp [samples]
    rw [List.flatten_nil, hNone, (chunksExact_of_lt hShort).1, (chunksExact_of_lt hShort).2]
    refine ⟨some s, [], rfl, List.prefix_rfl, fun _ => rfl, ?_⟩
    rintro s' hSame
    cases hSame
    exact ⟨rfl, rfl, fun turn hMem => absurd hMem List.not_mem_nil⟩
  | cons data rest ih =>
    have hBuffered := c.buffered_eq hChannels s.input data
    have hStep : c.step k (some s) data = some (c.callback k s data) := rfl
    rw [c.callback_eq k hPos] at hStep
    obtain ⟨hPrefix, hAll⟩ := c.encodePeriods_periods k s []
      (chunksExact c.samplesPerPeriod (c.buffered s.input data))
    obtain ⟨hChunks, hRest⟩ := chunksExact_append hPos (c.buffered s.input data) (c.samples rest.flatten)
    rw [List.flatten_cons, samples_append, ← List.append_assoc, ← hBuffered, hChunks, hRest]
    cases hLoop : (c.encodePeriods k s [] (chunksExact c.samplesPerPeriod (c.buffered s.input data))).1 with
    | none =>
      rw [hLoop] at hStep
      refine ⟨none, _, Machine.run_cons_iff.mpr ⟨_, _, [], hStep, c.run_panicked k rest, rfl⟩, ?_, ?_, ?_⟩
      · rw [List.append_nil]
        exact hPrefix.trans (List.prefix_append _ _)
      · intro hUnfailing
        have hSome := hUnfailing.encodePeriods s [] (chunksExact c.samplesPerPeriod (c.buffered s.input data))
        rw [hLoop] at hSome
        cases hSome
      · intro s' hSome
        cases hSome
    | some next =>
      rw [hLoop] at hStep hAll
      obtain ⟨hTurns, hPackets⟩ := hAll rfl
      obtain ⟨last, tr, hRun, hLater, hLives, hLast⟩ :=
        ih (next.keep (remainder c.samplesPerPeriod (c.buffered s.input data))) (length_remainder_lt hPos _)
      refine ⟨last, _, Machine.run_cons_iff.mpr ⟨_, _, tr, hStep, hRun, rfl⟩, ?_, hLives, ?_⟩
      · rw [List.map_append, hTurns]
        exact (List.prefix_append_right_inj _).mpr hLater
      · intro s' hSome
        obtain ⟨hPeriods, hBuf, hSent⟩ := hLast s' hSome
        rw [List.map_append, hTurns, hPeriods]
        exact ⟨rfl, hBuf, List.forall_mem_append.mpr ⟨hPackets, hSent⟩⟩

/-! ### The frames for the encoder -/

/-- A resampler fills its two output buffers with the same number of samples each time, and
scaling keeps silence. -/
def Steady (c : Config α σ τ ρ) (samples : Nat) : Prop :=
  ∀ r, c.resampler = some r → c.scaleDown c.zero = c.zero ∧
    ∀ s buf s' out, r.process s buf = some (s', out) → out.1.length = samples ∧ out.2.length = samples

/-- The part of `resampled` that no frame of a denoiser comes to is silent. -/
def Silent (c : Config α σ τ ρ) (samples : Nat) (resampled : List α) : Prop :=
  resampled.length ≤ samples * 2 ∧ ∀ x ∈ resampled.drop (samples / 480 * 960), x = c.zero

theorem silent_nil (c : Config α σ τ ρ) (samples : Nat) : c.Silent samples [] :=
  ⟨Nat.zero_le _, fun x hMem => by simp at hMem⟩

variable {samples : Nat} {resampled resampled' : List α}

/-- The rest of `resampled` once it has been resized. -/
theorem Silent.resize (hSilent : c.Silent samples resampled) :
    (resampled.take (samples * 2) ++ List.replicate (samples * 2 - resampled.length) c.zero).drop
        (samples / 480 * 960) =
      List.replicate (samples * 2 - samples / 480 * 960) c.zero := by
  rw [List.take_of_length_le hSilent.1, List.eq_replicate_iff]
  constructor
  · have := hSilent.1
    rw [List.length_drop, List.length_append, List.length_replicate]
    omega
  · intro x hMem
    rw [List.drop_append] at hMem
    obtain hOld | hNew := List.mem_append.mp hMem
    · exact hSilent.2 x hOld
    · exact List.eq_of_mem_replicate (List.mem_of_mem_drop hNew)

theorem length_denoiseResampled (c : Config α σ τ ρ) (s : σ × τ) {left right : List α}
    (hLeft : left.length = samples) (hRight : right.length = samples) :
    (c.denoiseResampled s ((chunksExact 480 left).zip (chunksExact 480 right))).2.length =
      samples / 480 * 960 := by
  have hUniform : Uniform 480 ((chunksExact 480 left).zip (chunksExact 480 right)) := by
    intro frame hMem
    exact ⟨length_of_mem_chunksExact (List.of_mem_zip hMem).1,
      length_of_mem_chunksExact (List.of_mem_zip hMem).2⟩
  rw [denoiseResampled_eq, length_interleaved (c.uniform_denoise s hUniform), length_denoise]
  simp [chunksExact, hLeft, hRight]

/-- A turn of the loop does not depend on what the turns before have left in `resampled`. -/
theorem processPeriod_silent (hSteady : c.Steady samples) (hSilent : c.Silent samples resampled)
    (hSilent' : c.Silent samples resampled') (input : Input α σ τ ρ) (period : List α) :
    (c.processPeriod input resampled period = none ∧ c.processPeriod input resampled' period = none) ∨
      ∃ next rest rest' frame, c.processPeriod input resampled period = some (next, rest, frame) ∧
        c.processPeriod input resampled' period = some (next, rest', frame) ∧
        c.Silent samples rest ∧ c.Silent samples rest' := by
  cases hResampler : c.resampler with
  | none =>
    simp only [processPeriod, hResampler]
    exact .inr ⟨_, _, _, _, rfl, rfl, hSilent, hSilent'⟩
  | some r =>
    obtain ⟨hZero, hSamples⟩ := hSteady r hResampler
    cases hProcess : r.process input.resampler (deinterleave (period.map c.scaleUp)) with
    | none =>
      simp only [processPeriod, hResampler, hProcess, Option.map_none]
      exact .inl ⟨trivial, trivial⟩
    | some result =>
      obtain ⟨state, buf⟩ := result
      obtain ⟨hLeft, hRight⟩ := hSamples _ _ state buf hProcess
      have hOut := c.length_denoiseResampled (input.denoiserL, input.denoiserR) hLeft hRight
      simp only [processPeriod, hResampler, hProcess, Option.map_some, hLeft, hOut, hSilent.resize,
        hSilent'.resize]
      refine .inr ⟨_, _, _, _, rfl, rfl, ?_⟩
      rw [and_self]
      refine ⟨?_, fun x hMem => ?_⟩
      · rw [List.length_map, List.length_append, hOut, List.length_replicate]
        omega
      · rw [← hOut, ← List.map_drop, List.drop_left, List.map_replicate] at hMem
        rw [List.eq_of_mem_replicate hMem, hZero]

theorem encodePeriods_silent (hSteady : c.Steady samples) (hSilent : c.Silent samples resampled)
    (hSilent' : c.Silent samples resampled') (s : Stream α σ τ ρ ε) (periods : List (List α)) :
    c.encodePeriods k s resampled periods = c.encodePeriods k s resampled' periods := by
  induction periods generalizing s resampled resampled' with
  | nil => rfl
  | cons period rest ih =>
    rcases processPeriod_silent hSteady hSilent hSilent' s.input period with
      ⟨hNone, hNone'⟩ | ⟨next, left, left', frame, hNext, hNext', hLeft, hLeft'⟩
    · simp only [encodePeriods, hNone, hNone']
    · simp only [encodePeriods, hNext, hNext', ih hLeft hLeft']

theorem encodePeriods_append (hSteady : c.Steady samples) (hSilent : c.Silent samples resampled)
    (s : Stream α σ τ ρ ε) (periods periods' : List (List α)) :
    c.encodePeriods k s resampled (periods ++ periods') =
      match (c.encodePeriods k s resampled periods).1 with
      | some last => ((c.encodePeriods k last [] periods').1,
          (c.encodePeriods k s resampled periods).2 ++ (c.encodePeriods k last [] periods').2)
      | none => (none, (c.encodePeriods k s resampled periods).2) := by
  induction periods generalizing s resampled with
  | nil => exact encodePeriods_silent hSteady hSilent (c.silent_nil samples) s periods'
  | cons period rest ih =>
    rcases processPeriod_silent hSteady hSilent hSilent s.input period with
      ⟨hNone, _⟩ | ⟨next, left, _, frame, hNext, _, hLeft, _⟩
    · simp only [List.cons_append, encodePeriods, hNone]
    · simp only [List.cons_append, encodePeriods, hNext]
      cases k.encodeFloat s.opus frame with
      | none => rfl
      | some result =>
        obtain ⟨opus, packet⟩ := result
        dsimp only
        split
        · rw [ih hLeft]
          cases (c.encodePeriods k { input := next, opus, sent := s.sent + 1 } left rest).1 <;> rfl
        · rfl

theorem encodePeriods_keep (s : Stream α σ τ ρ ε) (resampled : List α) (periods : List (List α))
    (inputBuf : List α) :
    c.encodePeriods k (s.keep inputBuf) resampled periods =
      ((c.encodePeriods k s resampled periods).1.map fun last => last.keep inputBuf,
        (c.encodePeriods k s resampled periods).2) := by
  induction periods generalizing s resampled with
  | nil => rfl
  | cons period rest ih =>
    have hOne : c.processPeriod (s.keep inputBuf).input resampled period =
        (c.processPeriod s.input resampled period).map fun next => ({ next.1 with inputBuf }, next.2) := by
      cases hResampler : c.resampler with
      | none => simp only [processPeriod, hResampler, Stream.keep, Option.map_some]
      | some r =>
        simp only [processPeriod, hResampler, Stream.keep, Option.map_map]
        rfl
    simp only [encodePeriods, hOne]
    cases c.processPeriod s.input resampled period with
    | none => rfl
    | some next =>
      obtain ⟨input, resampled', frame⟩ := next
      simp only [Option.map_some]
      show (match k.encodeFloat s.opus frame with | none => _ | some (opus, packet) => _) = _
      cases k.encodeFloat s.opus frame with
      | none => rfl
      | some result =>
        obtain ⟨opus, packet⟩ := result
        have hRest := ih { input, opus, sent := s.sent + 1 } resampled'
        simp only [Stream.keep] at hRest ⊢
        by_cases hTakes : k.takes s.sent = true
        · simp only [if_pos hTakes, hRest]
        · simp only [if_neg hTakes]
          exact if_neg hTakes

/-- A call with all the samples of two calls does what these do one after the other. -/
theorem callback_append (hSteady : c.Steady samples) (hPos : 0 < c.samplesPerPeriod)
    (hChannels : c.channels = 1 ∨ c.channels = 2) (s : Stream α σ τ ρ ε) (data data' : List α) :
    c.callback k s (data ++ data') =
      match (c.callback k s data).1 with
      | some last => ((c.callback k last data').1, (c.callback k s data).2 ++ (c.callback k last data').2)
      | none => (none, (c.callback k s data).2) := by
  obtain ⟨hChunks, hRest⟩ := chunksExact_append hPos (c.buffered s.input data) (c.samples data')
  have hBuffered : c.buffered s.input (data ++ data') = c.buffered s.input data ++ c.samples data' := by
    rw [buffered_eq c hChannels, buffered_eq c hChannels, samples_append, List.append_assoc]
  rw [c.callback_eq k hPos, c.callback_eq k hPos, hBuffered, hChunks, hRest,
    encodePeriods_append hSteady (c.silent_nil samples)]
  cases (c.encodePeriods k s [] (chunksExact c.samplesPerPeriod (c.buffered s.input data))).1 with
  | none => rfl
  | some last =>
    have hNext : c.buffered (last.keep (remainder c.samplesPerPeriod (c.buffered s.input data))).input data' =
        remainder c.samplesPerPeriod (c.buffered s.input data) ++ c.samples data' :=
      buffered_eq c hChannels _ _
    simp only [Option.map_some, c.callback_eq k hPos, hNext, encodePeriods_keep, Option.map_map]
    rfl

/-- Any slices do what one slice of all their samples does. -/
theorem run_step_steady (hSteady : c.Steady samples) (hPos : 0 < c.samplesPerPeriod)
    (hChannels : c.channels = 1 ∨ c.channels = 2) {s : Stream α σ τ ρ ε}
    (hShort : s.input.inputBuf.length < c.samplesPerPeriod) (slices : List (List α)) :
    Machine.run (c.step k) (some s) slices = some (c.callback k s slices.flatten) := by
  induction slices generalizing s with
  | nil =>
    have hNone : c.buffered s.input [] = s.input.inputBuf := by simp [buffered]
    rw [List.flatten_nil, c.callback_eq k hPos, hNone, (chunksExact_of_lt hShort).1,
      (chunksExact_of_lt hShort).2]
    rfl
  | cons data rest ih =>
    have hStep : c.step k (some s) data = some (c.callback k s data) := rfl
    rw [Machine.run, hStep, Option.bind_some, List.flatten_cons,
      callback_append hSteady hPos hChannels s data rest.flatten]
    cases hCall : (c.callback k s data).1 with
    | none => rw [c.run_panicked k rest, Option.map_some, List.append_nil]
    | some last =>
      have hRest : last.input.inputBuf.length < c.samplesPerPeriod := by
        rw [c.callback_eq k hPos] at hCall
        obtain ⟨_, _, rfl⟩ := Option.map_eq_some_iff.mp hCall
        exact length_remainder_lt hPos _
      rw [ih hRest, Option.map_some]

/-- The periods that the calls take are the first of the complete periods of all samples, in order. Unless
a call panics, which it does not while nothing that it calls fails, they are all of them and `input_buf`
has the rest after each call. Another way of cutting the samples gives the same periods and, as the output
of the resampler has a fixed size, the same frames, packets and panic; these are the frames of one call
with all the samples. -/
theorem framing (hRate : 50 ∣ c.sampleRate) (hPos : 0 < c.sampleRate)
    (hChannels : c.channels = 1 ∨ c.channels = 2) {s : Stream α σ τ ρ ε}
    (hFresh : s.input.inputBuf = []) (slices : List (List α)) :
    ∃ last tr, Machine.run (c.step k) (some s) slices = some (last, tr) ∧
      tr.map Turn.period <+: chunksExact c.samplesPerPeriod (c.samples slices.flatten) ∧
      (c.Unfailing k → last.isSome = true) ∧
      (∀ s', last = some s' →
        tr.map Turn.period = chunksExact c.samplesPerPeriod (c.samples slices.flatten) ∧
        s'.input.inputBuf = remainder c.samplesPerPeriod (c.samples slices.flatten) ∧
        (tr.map Turn.period).flatten ++ s'.input.inputBuf = c.samples slices.flatten ∧
        s'.input.inputBuf.length < 2 * (c.sampleRate / 50) ∧ ∀ turn ∈ tr, turn.packet.isSome = true) ∧
      (∀ period ∈ tr.map Turn.period, period.length = 2 * (c.sampleRate / 50)) ∧
      ∀ slices', slices'.flatten = slices.flatten →
        ∃ last' tr', Machine.run (c.step k) (some s) slices' = some (last', tr') ∧
          (∀ s' s'', last = some s' → last' = some s'' →
            tr'.map Turn.period = tr.map Turn.period ∧ s''.input.inputBuf = s'.input.inputBuf) ∧
          ∀ samples, c.Steady samples → last' = last ∧ tr' = tr ∧
            tr.filterMap Turn.frame <+: (c.dataCallback s.input slices.flatten).2 := by
  have hPeriod := c.samplesPerPeriod_eq hRate
  have hSome : 0 < c.samplesPerPeriod := by
    have := Nat.div_pos (Nat.le_of_dvd hPos hRate) (by decide)
    omega
  have hShort : s.input.inputBuf.length < c.samplesPerPeriod := by
    rw [hFresh]
    exact hSome
  obtain ⟨last, tr, hRun, hPrefix, hLives, hLast⟩ := run_step (k := k) hSome hChannels s hShort slices
  rw [hFresh, List.nil_append] at hPrefix hLast
  rw [← hPeriod]
  refine ⟨last, tr, hRun, hPrefix, hLives, ?_, ?_, fun slices' hSame => ?_⟩
  · intro s' hReturns
    obtain ⟨hPeriods, hRest, hPackets⟩ := hLast s' hReturns
    refine ⟨hPeriods, hRest, ?_, ?_, hPackets⟩
    · rw [hPeriods, hRest]
      exact flatten_chunksExact _ _
    · rw [hRest]
      exact length_remainder_lt hSome _
  · exact fun period hMem => length_of_mem_chunksExact (hPrefix.subset hMem)
  · obtain ⟨last', tr', hRun', _, _, hLast'⟩ := run_step (k := k) hSome hChannels s hShort slices'
    rw [hFresh, List.nil_append, hSame] at hLast'
    refine ⟨last', tr', hRun', ?_, ?_⟩
    · intro s' s'' hReturns hReturns'
      obtain ⟨hPeriods, hRest, _⟩ := hLast s' hReturns
      obtain ⟨hPeriods', hRest', _⟩ := hLast' s'' hReturns'
      exact ⟨hPeriods'.trans hPeriods.symm, hRest'.trans hRest.symm⟩
    · intro samples hSteady
      rw [run_step_steady hSteady hSome hChannels hShort] at hRun hRun'
      rw [hSame, hRun] at hRun'
      cases hRun'
      have hTurns : tr = (c.callback k s slices.flatten).2 := (congrArg Prod.snd (Option.some.inj hRun)).symm
      refine ⟨rfl, rfl, ?_⟩
      rw [hTurns, c.callback_eq k hSome]
      exact c.encodePeriods_frames k s [] _

/-- One channel, with a slice shorter than a period, one without samples and a long one. -/
def mono : Config Int Unit Unit Unit := { silencing with channels := 1 }

def unevenSlices : List (List Int) := [List.replicate 700 1, [], List.replicate 3000 2]

/-- An encoder that numbers its packets, and a receiver that takes them all. -/
def numbering : Sink Nat Int where
  encodeFloat n _ := some (n + 1, [n.toUInt8])
  takes _ := true

theorem framing_mono :
    ∃ s' tr, Machine.run (mono.step numbering) (some ⟨⟨[], (), (), ()⟩, 0, 0⟩) unevenSlices =
        some (some s', tr) ∧
      tr.map Turn.period = chunksExact mono.samplesPerPeriod (mono.samples unevenSlices.flatten) ∧
      s'.input.inputBuf = remainder mono.samplesPerPeriod (mono.samples unevenSlices.flatten) ∧
      (tr.map Turn.period).flatten ++ s'.input.inputBuf = mono.samples unevenSlices.flatten ∧
      s'.input.inputBuf.length < 2 * (mono.sampleRate / 50) ∧ ∀ turn ∈ tr, turn.packet.isSome = true := by
  obtain ⟨last, tr, hRun, _, hLives, hLast, _⟩ := framing (c := mono) (k := numbering) (by decide) (by decide)
    (.inl rfl) (s := ⟨⟨[], (), (), ()⟩, 0, 0⟩) rfl unevenSlices
  have hUnfailing : mono.Unfailing numbering := ⟨by rintro r ⟨⟩, fun _ _ => rfl, fun _ => rfl⟩
  obtain ⟨s', rfl⟩ := Option.isSome_iff_exists.mp (hLives hUnfailing)
  exact ⟨s', tr, hRun, hLast s' rfl⟩

end Config

end Voices.Client.Mic
