import Mathlib.Data.List.Basic

/-!
# From the microphone to the encoder

`data_callback` collects samples into periods of 20 ms, passes each period through
a denoiser for each channel, in frames of 480 samples, and hands it to the encoder.
At 48 kHz it works in place; for other rates it denoises what the resampler gives.
-/

namespace Voices.Client.Mic

variable {α σ τ ρ : Type}

/-- `DenoiseState::process_frame`, which fills its output buffer of 480 samples. -/
structure Denoiser (σ α : Type) where
  processFrame : σ → List α → σ × List α
  length_processFrame : ∀ s frame, frame.length = 480 → (processFrame s frame).2.length = 480

/-- `Resampler::process`; `none` is an error of `process_into_buffer`, say for buffers of a wrong size. -/
structure Resampler (ρ α : Type) where
  process : ρ → List α × List α → Option (ρ × (List α × List α))

/-- What the callback calls: the arithmetic on samples, the denoisers, and the
resampler if the device does not record at 48 kHz. -/
structure Config (α σ τ ρ : Type) where
  channels : Nat
  sampleRate : Nat
  zero : α
  scaleUp : α → α
  scaleDown : α → α
  denoiserL : Denoiser σ α
  denoiserR : Denoiser τ α
  resampler : Option (Resampler ρ α)

structure Input (α σ τ ρ : Type) where
  inputBuf : List α
  denoiserL : σ
  denoiserR : τ
  resampler : ρ

def chunksExact (n : Nat) (xs : List α) : List (List α) :=
  (List.range (xs.length / n)).map fun i => (xs.drop (i * n)).take n

/-- The remainder of `chunks_exact`. -/
def remainder (n : Nat) (xs : List α) : List α := xs.drop (xs.length / n * n)

def interleave : List α → List α → List α
  | a :: l, b :: r => a :: b :: interleave l r
  | _, _ => []

def deinterleave : List α → List α × List α
  | a :: b :: rest => (a :: (deinterleave rest).1, b :: (deinterleave rest).2)
  | _ => ([], [])

namespace Config

variable (c : Config α σ τ ρ)

def samplesPerPeriod : Nat := 2 * c.sampleRate / 50

/-- The loop over the chunks of 960 samples of the period itself. -/
def denoiseInPlace (s : σ × τ) : List (List α) → (σ × τ) × List α
  | [] => (s, [])
  | chunk :: rest =>
    let out := deinterleave chunk
    let left := c.denoiserL.processFrame s.1 out.1
    let right := c.denoiserR.processFrame s.2 out.2
    let last := denoiseInPlace (left.1, right.1) rest
    (last.1, interleave out.1 out.2 ++ last.2)

/-- The loop over the chunks of 480 samples of each channel. -/
def denoiseResampled (s : σ × τ) : List (List α × List α) → (σ × τ) × List α
  | [] => (s, [])
  | chunk :: rest =>
    let left := c.denoiserL.processFrame s.1 chunk.1
    let right := c.denoiserR.processFrame s.2 chunk.2
    let last := denoiseResampled (left.1, right.1) rest
    (last.1, interleave left.2 right.2 ++ last.2)

/-- One turn of the loop over the periods up to `encode_float`, with the buffer `resampled`. The last
component is what the encoder gets; `none` is the panic when the resampler fails. -/
def processPeriod (input : Input α σ τ ρ) (resampled : List α) (period : List α) :
    Option (Input α σ τ ρ × List α × List α) :=
  let chunk := period.map c.scaleUp
  match c.resampler with
  | some resampler =>
    (resampler.process input.resampler (deinterleave chunk)).map fun (state, buf) =>
      let samples := buf.1.length
      let resized := resampled.take (samples * 2) ++ List.replicate (samples * 2 - resampled.length) c.zero
      let (s, out) := c.denoiseResampled (input.denoiserL, input.denoiserR)
        ((chunksExact 480 buf.1).zip (chunksExact 480 buf.2))
      let frame := (out ++ resized.drop out.length).map c.scaleDown
      ({ input with denoiserL := s.1, denoiserR := s.2, resampler := state }, frame, frame)
  | none =>
    let (s, out) := c.denoiseInPlace (input.denoiserL, input.denoiserR) (chunksExact 960 chunk)
    let frame := (out ++ remainder 960 chunk).map c.scaleDown
    some ({ input with denoiserL := s.1, denoiserR := s.2 }, resampled, frame)

/-- The frames for an encoder that takes them all, up to the first panic. -/
def processPeriods (input : Input α σ τ ρ) (resampled : List α) :
    List (List α) → Input α σ τ ρ × List (List α)
  | [] => (input, [])
  | period :: rest =>
    match c.processPeriod input resampled period with
    | none => (input, [])
    | some (next, resampled, frame) =>
      let (last, frames) := processPeriods next resampled rest
      (last, frame :: frames)

/-- `input_buf` once the samples are in it, each of them twice if there is one channel. -/
def buffered (input : Input α σ τ ρ) (data : List α) : List α :=
  input.inputBuf ++ if c.channels = 2 then data else data.flatMap fun it => [it, it]

/-- The frames that one call hands to the encoder, if the encoder takes them all. -/
def dataCallback (input : Input α σ τ ρ) (data : List α) : Input α σ τ ρ × List (List α) :=
  let inputBuf := c.buffered input data
  let (last, frames) := c.processPeriods input [] (chunksExact c.samplesPerPeriod inputBuf)
  ({ last with inputBuf := remainder c.samplesPerPeriod inputBuf }, frames)

end Config

/-! ### Chunks -/

theorem length_of_mem_chunksExact {n : Nat} {xs chunk : List α} (h : chunk ∈ chunksExact n xs) :
    chunk.length = n := by
  obtain ⟨i, hMem, rfl⟩ := List.mem_map.mp h
  have hLt : i < xs.length / n := List.mem_range.mp hMem
  have hEnd : (i + 1) * n ≤ xs.length :=
    Nat.le_trans (Nat.mul_le_mul_right n hLt) (Nat.div_mul_le_self xs.length n)
  rw [Nat.succ_mul] at hEnd
  rw [List.length_take, List.length_drop]
  omega

theorem flatten_chunksExact (n : Nat) (xs : List α) :
    (chunksExact n xs).flatten ++ remainder n xs = xs := by
  have hTake : ∀ k ≤ xs.length / n,
      (((List.range k).map fun i => (xs.drop (i * n)).take n).flatten ++ xs.drop (k * n)) = xs := by
    intro k hLe
    induction k with
    | zero => simp
    | succ k ih =>
      rw [List.range_succ, List.map_append, List.flatten_append, List.map_singleton,
        List.flatten_singleton, List.append_assoc, Nat.succ_mul, ← List.drop_drop, List.take_append_drop]
      exact ih (Nat.le_of_succ_le hLe)
  exact hTake _ (Nat.le_refl _)

@[simp] theorem length_deinterleave (xs : List α) :
    (deinterleave xs).1.length = xs.length / 2 ∧ (deinterleave xs).2.length = xs.length / 2 := by
  fun_induction deinterleave xs with
  | case1 a b rest ih =>
    simp only [List.length_cons, ih]
    omega
  | case2 xs hShort =>
    match xs, hShort with
    | [], _ => simp
    | [a], _ => simp
    | a :: b :: rest, hShort => exact absurd rfl (hShort a b rest)

theorem deinterleave_drop (k : Nat) (xs : List α) :
    deinterleave (xs.drop (2 * k)) = ((deinterleave xs).1.drop k, (deinterleave xs).2.drop k) := by
  induction k generalizing xs with
  | zero => rfl
  | succ k ih =>
    match xs with
    | [] => simp [deinterleave]
    | [a] => simp [deinterleave, Nat.mul_succ]
    | a :: b :: rest => exact ih rest

theorem deinterleave_take (k : Nat) (xs : List α) :
    deinterleave (xs.take (2 * k)) = ((deinterleave xs).1.take k, (deinterleave xs).2.take k) := by
  induction k generalizing xs with
  | zero => simp [deinterleave]
  | succ k ih =>
    match xs with
    | [] => simp [deinterleave]
    | [a] => simp [deinterleave, Nat.mul_succ]
    | a :: b :: rest =>
      rw [Nat.mul_succ, List.take_succ_cons, List.take_succ_cons, deinterleave, ih rest]
      rfl

theorem interleave_deinterleave {xs : List α} (hEven : xs.length % 2 = 0) :
    interleave (deinterleave xs).1 (deinterleave xs).2 = xs := by
  fun_induction deinterleave xs with
  | case1 a b rest ih =>
    rw [List.length_cons, List.length_cons] at hEven
    rw [interleave, ih (by omega)]
  | case2 xs hShort =>
    match xs, hShort with
    | [], _ => rfl
    | [a], _ => cases hEven
    | a :: b :: rest, hShort => exact absurd rfl (hShort a b rest)

/-- The chunks of the two channels are the channels of the chunks. -/
theorem zip_chunksExact (k : Nat) (xs : List α) :
    (chunksExact k (deinterleave xs).1).zip (chunksExact k (deinterleave xs).2) =
      (chunksExact (2 * k) xs).map deinterleave := by
  have hDiv : xs.length / 2 / k = xs.length / (2 * k) := Nat.div_div_eq_div_mul _ _ _
  rw [chunksExact, chunksExact, (length_deinterleave xs).1, (length_deinterleave xs).2, hDiv,
    List.zip_map', chunksExact, List.map_map]
  refine List.map_congr_left fun i _ => ?_
  rw [Function.comp_apply, deinterleave_take, Nat.mul_left_comm, deinterleave_drop]

/-! ### Interleaved frames -/

@[simp] theorem length_interleave {l r : List α} (hLength : l.length = r.length) :
    (interleave l r).length = 2 * l.length := by
  induction l generalizing r with
  | nil => rfl
  | cons a l ih =>
    cases r with
    | nil => cases hLength
    | cons b r =>
      rw [interleave, List.length_cons, List.length_cons, ih (Nat.succ.inj hLength), List.length_cons]
      omega

theorem map_interleave {β : Type} (f : α → β) (l r : List α) :
    (interleave l r).map f = interleave (l.map f) (r.map f) := by
  induction l generalizing r with
  | nil => rfl
  | cons a l ih =>
    cases r with
    | nil => rfl
    | cons b r => simp only [interleave, List.map_cons, ih]

theorem interleave_inj {l r l' r' : List α} (hLeft : l.length = l'.length)
    (hLength : l.length = r.length) (hLength' : l'.length = r'.length) :
    interleave l r = interleave l' r' ↔ l = l' ∧ r = r' := by
  refine ⟨fun h => ?_, fun h => by rw [h.1, h.2]⟩
  induction l generalizing r l' r' with
  | nil =>
    cases List.length_eq_zero_iff.mp hLeft.symm
    exact ⟨rfl, (List.length_eq_zero_iff.mp hLength.symm).trans
      (List.length_eq_zero_iff.mp hLength'.symm).symm⟩
  | cons a l ih =>
    match r, l', r' with
    | b :: r, a' :: l', b' :: r' =>
      simp only [interleave, List.cons.injEq] at h
      obtain ⟨rfl, rfl⟩ := ih (Nat.succ.inj hLeft) (Nat.succ.inj hLength) (Nat.succ.inj hLength') h.2.2
      exact ⟨by rw [h.1], by rw [h.2.1]⟩

/-- Two lists of frames as one list of samples. -/
def interleaved (frames : List (List α × List α)) : List α :=
  (frames.map fun frame => interleave frame.1 frame.2).flatten

/-- Frames of one length for each of the two channels. -/
def Uniform (n : Nat) (frames : List (List α × List α)) : Prop :=
  ∀ frame ∈ frames, frame.1.length = n ∧ frame.2.length = n

theorem interleaved_inj {n : Nat} {frames frames' : List (List α × List α)} (hUniform : Uniform n frames)
    (hUniform' : Uniform n frames') (hLength : frames.length = frames'.length) :
    interleaved frames = interleaved frames' ↔ frames = frames' := by
  refine ⟨fun h => ?_, fun h => by rw [h]⟩
  induction frames generalizing frames' with
  | nil => exact (List.length_eq_zero_iff.mp hLength.symm).symm
  | cons frame frames ih =>
    match frames' with
    | frame' :: frames' =>
      obtain ⟨hFrame, hRest⟩ := List.forall_mem_cons.mp hUniform
      obtain ⟨hFrame', hRest'⟩ := List.forall_mem_cons.mp hUniform'
      have hSides : frame.1.length = frame.2.length := hFrame.1.trans hFrame.2.symm
      have hSides' : frame'.1.length = frame'.2.length := hFrame'.1.trans hFrame'.2.symm
      have hLeft : frame.1.length = frame'.1.length := hFrame.1.trans hFrame'.1.symm
      simp only [interleaved, List.map_cons, List.flatten_cons] at h
      obtain ⟨hHead, hTail⟩ := List.append_inj h
        (by rw [length_interleave hSides, length_interleave hSides', hLeft])
      obtain ⟨hFirst, hSecond⟩ := (interleave_inj hLeft hSides hSides').mp hHead
      rw [Prod.ext hFirst hSecond, ih hRest hRest' (Nat.succ.inj hLength) hTail]

theorem map_interleaved {β : Type} (f : α → β) (frames : List (List α × List α)) :
    (interleaved frames).map f = interleaved (frames.map (Prod.map (List.map f) (List.map f))) := by
  rw [interleaved, interleaved, List.map_flatten, List.map_map, List.map_map]
  refine congrArg List.flatten (List.map_congr_left fun frame _ => ?_)
  exact map_interleave f frame.1 frame.2

theorem Uniform.map {β : Type} {n : Nat} {frames : List (List α × List α)} (hUniform : Uniform n frames)
    (f : α → β) : Uniform n (frames.map (Prod.map (List.map f) (List.map f))) := by
  intro frame hMem
  obtain ⟨old, hOld, rfl⟩ := List.mem_map.mp hMem
  rw [Prod.map_fst, Prod.map_snd, List.length_map, List.length_map]
  exact hUniform old hOld

theorem length_interleaved {n : Nat} {frames : List (List α × List α)} (hUniform : Uniform n frames) :
    (interleaved frames).length = frames.length * (2 * n) := by
  induction frames with
  | nil => simp [interleaved]
  | cons frame rest ih =>
    obtain ⟨hFrame, hRest⟩ := List.forall_mem_cons.mp hUniform
    have hSides : frame.1.length = frame.2.length := hFrame.1.trans hFrame.2.symm
    have hTail := ih hRest
    rw [interleaved] at hTail ⊢
    rw [List.map_cons, List.flatten_cons, List.length_append, hTail, length_interleave hSides, hFrame.1,
      List.length_cons, Nat.add_comm]
    exact (Nat.succ_mul _ _).symm

/-! ### The denoisers -/

/-- What a denoiser makes of frames that it is given one after the other. -/
def Denoiser.process (d : Denoiser σ α) (s : σ) : List (List α) → σ × List (List α)
  | [] => (s, [])
  | frame :: rest =>
    let next := d.processFrame s frame
    let last := Denoiser.process d next.1 rest
    (last.1, next.2 :: last.2)

theorem Denoiser.length_process (d : Denoiser σ α) (s : σ) (frames : List (List α)) :
    (d.process s frames).2.length = frames.length := by
  induction frames generalizing s with
  | nil => rfl
  | cons frame rest ih => exact congrArg Nat.succ (ih _)

theorem Denoiser.process_append (d : Denoiser σ α) (s : σ) (frames frames' : List (List α)) :
    d.process s (frames ++ frames') =
      ((d.process (d.process s frames).1 frames').1,
        (d.process s frames).2 ++ (d.process (d.process s frames).1 frames').2) := by
  induction frames generalizing s with
  | nil => rfl
  | cons frame rest ih => simp only [List.cons_append, Denoiser.process, ih]

theorem Denoiser.length_of_mem_process (d : Denoiser σ α) (s : σ) {frames : List (List α)}
    (hFrames : ∀ frame ∈ frames, frame.length = 480) : ∀ frame ∈ (d.process s frames).2, frame.length = 480 := by
  induction frames generalizing s with
  | nil => exact fun frame hMem => absurd hMem List.not_mem_nil
  | cons frame rest ih =>
    rw [List.forall_mem_cons] at hFrames
    rw [Denoiser.process, List.forall_mem_cons]
    exact ⟨d.length_processFrame s frame hFrames.1, ih _ hFrames.2⟩

namespace Config

variable (c : Config α σ τ ρ)

/-- The states and the outputs of the two denoisers on frames of the two channels. -/
def denoise (s : σ × τ) (frames : List (List α × List α)) : (σ × τ) × List (List α × List α) :=
  let left := c.denoiserL.process s.1 (frames.map Prod.fst)
  let right := c.denoiserR.process s.2 (frames.map Prod.snd)
  ((left.1, right.1), left.2.zip right.2)

theorem denoiseResampled_eq (s : σ × τ) (frames : List (List α × List α)) :
    c.denoiseResampled s frames = ((c.denoise s frames).1, interleaved (c.denoise s frames).2) := by
  induction frames generalizing s with
  | nil => rfl
  | cons frame rest ih =>
    rw [denoiseResampled, ih]
    rfl

/-- The loop in place runs the denoisers, but leaves the samples as they are. -/
theorem denoiseInPlace_eq (s : σ × τ) {chunks : List (List α)}
    (hEven : ∀ chunk ∈ chunks, chunk.length % 2 = 0) :
    c.denoiseInPlace s chunks = ((c.denoise s (chunks.map deinterleave)).1, chunks.flatten) := by
  induction chunks generalizing s with
  | nil => rfl
  | cons chunk rest ih =>
    rw [List.forall_mem_cons] at hEven
    rw [denoiseInPlace, ih _ hEven.2, interleave_deinterleave hEven.1]
    rfl

theorem denoise_append (s : σ × τ) (frames frames' : List (List α × List α)) :
    c.denoise s (frames ++ frames') =
      ((c.denoise (c.denoise s frames).1 frames').1,
        (c.denoise s frames).2 ++ (c.denoise (c.denoise s frames).1 frames').2) := by
  simp only [denoise, List.map_append, Denoiser.process_append]
  rw [List.zip_append]
  rw [Denoiser.length_process, Denoiser.length_process, List.length_map, List.length_map]

theorem length_denoise (s : σ × τ) (frames : List (List α × List α)) :
    (c.denoise s frames).2.length = frames.length := by
  simp only [denoise, List.length_zip, Denoiser.length_process, List.length_map, Nat.min_self]

theorem uniform_denoise (s : σ × τ) {frames : List (List α × List α)} (hUniform : Uniform 480 frames) :
    Uniform 480 (c.denoise s frames).2 := by
  intro frame hMem
  have hLeft : ∀ l ∈ frames.map Prod.fst, l.length = 480 := by
    intro l hL
    obtain ⟨pair, hPair, rfl⟩ := List.mem_map.mp hL
    exact (hUniform pair hPair).1
  have hRight : ∀ r ∈ frames.map Prod.snd, r.length = 480 := by
    intro r hR
    obtain ⟨pair, hPair, rfl⟩ := List.mem_map.mp hR
    exact (hUniform pair hPair).2
  exact ⟨c.denoiserL.length_of_mem_process s.1 hLeft _ (List.of_mem_zip hMem).1,
    c.denoiserR.length_of_mem_process s.2 hRight _ (List.of_mem_zip hMem).2⟩

/-! ### The two paths -/

/-- The device records at 48 kHz, so that there is no resampler. -/
def direct : Config α σ τ ρ := { c with sampleRate := 48000, resampler := none }

/-- The same with a resampler that copies its input. -/
def copying : Config α σ τ ρ :=
  { c with sampleRate := 48000, resampler := some { process := fun s buf => some (s, buf) } }

theorem samplesPerPeriod_direct : c.direct.samplesPerPeriod = 1920 := by
  simp [samplesPerPeriod, direct]

theorem samplesPerPeriod_copying : c.copying.samplesPerPeriod = 1920 := by
  simp [samplesPerPeriod, copying]

/-- The frames of 480 samples for each channel that a period consists of. -/
def subframes (period : List α) : List (List α × List α) :=
  (chunksExact 960 (period.map c.scaleUp)).map deinterleave

theorem uniform_subframes (period : List α) : Uniform 480 (c.subframes period) := by
  intro frame hMem
  obtain ⟨chunk, hChunk, rfl⟩ := List.mem_map.mp hMem
  rw [(length_deinterleave chunk).1, (length_deinterleave chunk).2, length_of_mem_chunksExact hChunk]
  exact ⟨rfl, rfl⟩

theorem interleaved_subframes {period : List α} (hLength : period.length = 1920) :
    interleaved (c.subframes period) = period.map c.scaleUp := by
  have hEmpty : remainder 960 (period.map c.scaleUp) = [] := by simp [remainder, hLength]
  have hChunks := flatten_chunksExact 960 (period.map c.scaleUp)
  rw [hEmpty, List.append_nil] at hChunks
  refine Eq.trans (congrArg List.flatten ?_) hChunks
  rw [subframes, List.map_map]
  refine (List.map_congr_left fun chunk hMem => ?_).trans (List.map_id _)
  exact interleave_deinterleave (by rw [length_of_mem_chunksExact hMem])

/-- What the denoisers are after a period, on both paths. -/
def after (input : Input α σ τ ρ) (period : List α) : Input α σ τ ρ :=
  let s := (c.denoise (input.denoiserL, input.denoiserR) (c.subframes period)).1
  { input with denoiserL := s.1, denoiserR := s.2 }

theorem processPeriod_direct (input : Input α σ τ ρ) (resampled : List α) {period : List α}
    (hLength : period.length = 1920) :
    c.direct.processPeriod input resampled period =
      some (c.after input period, resampled, (interleaved (c.subframes period)).map c.scaleDown) := by
  have hEven : ∀ chunk ∈ chunksExact 960 (period.map c.scaleUp), chunk.length % 2 = 0 := by
    intro chunk hMem
    rw [length_of_mem_chunksExact hMem]
  have hLoop := c.direct.denoiseInPlace_eq (input.denoiserL, input.denoiserR) hEven
  simp only [processPeriod, direct] at hLoop ⊢
  rw [hLoop, flatten_chunksExact, interleaved_subframes c hLength]
  rfl

theorem processPeriod_copying (input : Input α σ τ ρ) (resampled : List α) {period : List α}
    (hLength : period.length = 1920) :
    ∃ resampled', c.copying.processPeriod input resampled period =
      some (c.after input period, resampled',
        (interleaved (c.denoise (input.denoiserL, input.denoiserR) (c.subframes period)).2).map
          c.scaleDown) := by
  have hFrames : (chunksExact 480 (deinterleave (period.map c.scaleUp)).1).zip
      (chunksExact 480 (deinterleave (period.map c.scaleUp)).2) = c.subframes period :=
    zip_chunksExact 480 _
  have hSamples : (deinterleave (period.map c.scaleUp)).1.length = 960 := by
    rw [(length_deinterleave _).1, List.length_map, hLength]
  have hCount : (c.subframes period).length = 2 := by
    simp [subframes, chunksExact, hLength]
  have hOut : (interleaved (c.denoise (input.denoiserL, input.denoiserR) (c.subframes period)).2).length =
      1920 := by
    rw [length_interleaved (c.uniform_denoise _ (c.uniform_subframes period)), length_denoise, hCount]
  let out := interleaved (c.denoise (input.denoiserL, input.denoiserR) (c.subframes period)).2
  let resized := resampled.take (960 * 2) ++ List.replicate (960 * 2 - resampled.length) c.zero
  have hResized : resized.length = 1920 := by
    rw [List.length_append, List.length_take, List.length_replicate]
    omega
  have hWhole : out ++ resized.drop out.length = out := by
    rw [hOut, List.drop_eq_nil_of_le (Nat.le_of_eq hResized), List.append_nil]
  have hLoop := c.copying.denoiseResampled_eq (input.denoiserL, input.denoiserR) (c.subframes period)
  refine ⟨out.map c.scaleDown, ?_⟩
  simp only [processPeriod, copying, Option.map_some] at hLoop ⊢
  rw [hFrames, hLoop, hSamples]
  show some (c.after input period, (out ++ resized.drop out.length).map c.scaleDown,
    (out ++ resized.drop out.length).map c.scaleDown) = _
  rw [hWhole]

/-- The frames of the periods that are complete once the samples of a call are in the buffer. -/
def frames (input : Input α σ τ ρ) (data : List α) : List (List α × List α) :=
  (chunksExact 1920 (c.buffered input data)).flatMap c.subframes

/-- A frame as the encoder gets it. -/
def scaled (frame : List α × List α) : List α × List α :=
  Prod.map (List.map c.scaleDown) (List.map c.scaleDown) frame

theorem processPeriods_iff {input : Input α σ τ ρ} (resampled resampled' : List α)
    {periods : List (List α)} (hLength : ∀ period ∈ periods, period.length = 1920) :
    (c.direct.processPeriods input resampled periods).2 =
        (c.copying.processPeriods input resampled' periods).2 ↔
      (c.denoise (input.denoiserL, input.denoiserR) (periods.flatMap c.subframes)).2.map c.scaled =
        (periods.flatMap c.subframes).map c.scaled := by
  induction periods generalizing input resampled resampled' with
  | nil => exact ⟨fun _ => rfl, fun _ => rfl⟩
  | cons period rest ih =>
    rw [List.forall_mem_cons] at hLength
    obtain ⟨resampled₁, hCopying⟩ := c.processPeriod_copying input resampled' hLength.1
    have hUniform := c.uniform_subframes period
    have hDenoised := c.uniform_denoise (input.denoiserL, input.denoiserR) hUniform
    simp only [processPeriods, c.processPeriod_direct input resampled hLength.1, hCopying, List.cons.injEq]
    rw [ih _ _ hLength.2, map_interleaved, map_interleaved,
      interleaved_inj (hUniform.map c.scaleDown) (hDenoised.map c.scaleDown)
        (by rw [List.length_map, List.length_map, length_denoise]),
      List.flatMap_cons, denoise_append, List.map_append, List.map_append]
    constructor
    · rintro ⟨hFrame, hRest⟩
      exact congrArg₂ (· ++ ·) hFrame.symm hRest
    · intro h
      obtain ⟨hFrame, hRest⟩ := List.append_inj h
        (by rw [List.length_map, List.length_map, length_denoise])
      exact ⟨hFrame.symm, hRest⟩

theorem flatten_processPeriods {input : Input α σ τ ρ} (resampled : List α) {periods : List (List α)}
    (hLength : ∀ period ∈ periods, period.length = 1920) :
    (c.copying.processPeriods input resampled periods).2.flatten =
      (interleaved (c.denoise (input.denoiserL, input.denoiserR) (periods.flatMap c.subframes)).2).map
        c.scaleDown := by
  induction periods generalizing input resampled with
  | nil => rfl
  | cons period rest ih =>
    rw [List.forall_mem_cons] at hLength
    obtain ⟨resampled₁, hCopying⟩ := c.processPeriod_copying input resampled hLength.1
    simp only [processPeriods, hCopying, List.flatten_cons]
    rw [ih _ hLength.2, List.flatMap_cons, denoise_append, interleaved, interleaved, interleaved,
      List.map_append, List.flatten_append, List.map_append]
    rfl

/-- Without a resampler the encoder gets the frames that it gets through a resampler
that copies, which are the interleaved outputs of the denoisers, exactly when each denoiser
returns its input, as far as the encoder sees it. -/
theorem denoises_both_paths_iff (input : Input α σ τ ρ) (data : List α) :
    ((c.direct.dataCallback input data).2 = (c.copying.dataCallback input data).2 ∧
        (c.copying.dataCallback input data).2.flatten =
          (interleaved (c.denoise (input.denoiserL, input.denoiserR) (c.frames input data)).2).map
            c.scaleDown) ↔
      (c.denoise (input.denoiserL, input.denoiserR) (c.frames input data)).2.map c.scaled =
        (c.frames input data).map c.scaled := by
  have hLength : ∀ period ∈ chunksExact 1920 (c.buffered input data), period.length = 1920 :=
    fun period hMem => length_of_mem_chunksExact hMem
  rw [frames, ← processPeriods_iff c [] [] hLength, ← flatten_processPeriods c [] hLength]
  have hDirect : (c.direct.dataCallback input data).2 =
      (c.direct.processPeriods input [] (chunksExact 1920 (c.buffered input data))).2 := by
    rw [dataCallback, samplesPerPeriod_direct]
    rfl
  have hCopying : (c.copying.dataCallback input data).2 =
      (c.copying.processPeriods input [] (chunksExact 1920 (c.buffered input data))).2 := by
    rw [dataCallback, samplesPerPeriod_copying]
    rfl
  rw [hDirect, hCopying]
  exact ⟨fun h => h.1, fun h => ⟨h, rfl⟩⟩

/-- A period of ones through denoisers that return silence. -/
def silencing : Config Int Unit Unit Unit :=
  { channels := 2, sampleRate := 48000, zero := 0, scaleUp := (· * 32767), scaleDown := (· / 32767),
    denoiserL := ⟨fun s frame => (s, frame.map fun _ => 0), fun _ _ h => by rwa [List.length_map]⟩,
    denoiserR := ⟨fun s frame => (s, frame.map fun _ => 0), fun _ _ h => by rwa [List.length_map]⟩,
    resampler := none }

theorem not_denoises_both_paths :
    ¬ ∀ (c : Config Int Unit Unit Unit) (input : Input Int Unit Unit Unit) (data : List Int),
      (c.direct.dataCallback input data).2 = (c.copying.dataCallback input data).2 ∧
        (c.copying.dataCallback input data).2.flatten =
          (interleaved (c.denoise (input.denoiserL, input.denoiserR) (c.frames input data)).2).map
            c.scaleDown := by
  intro h
  have hEq := (h silencing ⟨[], (), (), ()⟩ (List.replicate 1920 1)).1
  have hFirst := congrArg (List.map List.head?) hEq
  revert hFirst
  decide +kernel

end Config

end Voices.Client.Mic
