import Ryll.Foundation.Frames
import Ryll.Foundation.Runs

/-!
# The local output of the playback channel

The channel pushes the samples of a decoded packet one by one into a bounded ring, from which the
audio thread drains what is there.  A sample that finds the ring full is dropped and counted.
`frames_kept_iff` says when what the audio thread receives is made of whole frames.
-/

namespace Ryll

open List

def maxAudioBufferSamples : Nat := 48000 * 2 * 2

/-- A sample with where it came from. -/
structure AudioSample where
  value : Int16
  /-- The channel it belongs to, by its position in the packet (history). -/
  channel : Nat
  /-- Its place in the stream of decoded samples (history). -/
  place : Nat

/-- The bounded ring of the library `rtrb`, which is not part of the repository. -/
structure AudioRing where
  samples : List AudioSample
  bounded : samples.length ≤ maxAudioBufferSamples

namespace AudioRing

def new : AudioRing := ⟨[], Nat.zero_le _⟩

variable (ring : AudioRing)

def isFull : Bool := ring.samples.length = maxAudioBufferSamples

def push (sample : AudioSample) : Option AudioRing :=
  if full : ring.samples.length < maxAudioBufferSamples then
    some ⟨ring.samples ++ [sample], by
      rw [length_append, length_singleton]
      exact full⟩
  else
    none

def commit (count : Nat) : AudioRing :=
  ⟨ring.samples.drop count, by
    rw [length_drop]
    exact Nat.le_trans (Nat.sub_le _ _) ring.bounded⟩

variable {sample : AudioSample}

theorem push_eq_some {ring pushed : AudioRing} (accepted : ring.push sample = some pushed) :
    ring.isFull = false ∧ pushed.samples = ring.samples ++ [sample] := by
  rw [push] at accepted
  split at accepted
  · next room =>
    cases accepted
    exact ⟨decide_eq_false (Nat.ne_of_lt room), rfl⟩
  · cases accepted

theorem push_eq_none {ring : AudioRing} (refused : ring.push sample = none) :
    ring.isFull = true := by
  rw [push] at refused
  split at refused
  · cases refused
  · next room => exact decide_eq_true (Nat.le_antisymm ring.bounded (Nat.le_of_not_lt room))

end AudioRing

/-- The local output between the playback channel and the audio thread. -/
structure LocalOutput where
  ring : AudioRing
  /-- The samples of the packet that are yet to be pushed. -/
  waiting : List AudioSample
  /-- The samples that found the ring full. -/
  ringOverflowCount : Nat
  /-- The slots that the audio thread saw filled and is about to read. -/
  available : Option Nat
  received : List AudioSample
  offered : Nat
  /-- The ring was full when the first sample of the current frame was offered (history). -/
  refused : Bool

/-- A step of the channel or of the audio thread. -/
inductive AudioStep
  | packet (samples : List Int16)
  | push
  | slots
  | commit

namespace LocalOutput

def start : LocalOutput where
  ring := .new
  waiting := []
  ringOverflowCount := 0
  available := none
  received := []
  offered := 0
  refused := false

def interleaved (channels offered : Nat) (samples : List Int16) : List AudioSample :=
  samples.mapIdx fun index value => ⟨value, index % channels, offered + index⟩

variable (channels : Nat) (output : LocalOutput)

def pushNext (sample : AudioSample) (rest : List AudioSample) : LocalOutput :=
  let output := { output with
    waiting := rest
    offered := output.offered + 1
    refused := if output.offered % channels = 0 then output.ring.isFull else output.refused }
  match output.ring.push sample with
  | some ring => { output with ring }
  | none => { output with ringOverflowCount := output.ringOverflowCount + 1 }

def step : AudioStep → Option LocalOutput
  | .packet samples =>
    if output.waiting = [] ∧ samples.length % channels = 0 then
      some { output with waiting := interleaved channels output.offered samples }
    else
      none
  | .push =>
    match output.waiting with
    | [] => none
    | sample :: rest => some (output.pushNext channels sample rest)
  | .slots =>
    if output.available = none then
      some { output with available := some output.ring.samples.length }
    else
      none
  | .commit =>
    match output.available with
    | none => none
    | some count => some { output with
        available := none
        ring := output.ring.commit count
        received := output.received ++ output.ring.samples.take count }

def accepted : List AudioSample := output.received ++ output.ring.samples

def places : List Nat := output.accepted.map AudioSample.place

/-- Every frame was taken as a whole or dropped as a whole, the one in progress so far. -/
def Aligned : Prop :=
  Framed channels output.refused output.offered output.places

/-- The audio thread has received whole frames in order, the last of which may be in progress, each
sample in its channel. -/
def ReceivesFrames : Prop :=
  (∃ frames : List Nat, frames.Pairwise (· < ·) ∧
    output.received.map AudioSample.place <+: wholeFrames channels frames) ∧
  ∀ (index : Nat) (sample : AudioSample), output.received[index]? = some sample →
    sample.channel = index % channels

/-- A later sample of a frame finds the ring full if and only if the first one did. -/
def Orderly : AudioStep → Prop
  | .push => output.offered % channels ≠ 0 → output.ring.isFull = output.refused
  | _ => True

instance (channels : Nat) (output : LocalOutput) (label : AudioStep) :
    Decidable (output.Orderly channels label) :=
  match label with
  | .push => inferInstanceAs (Decidable (_ → _))
  | .packet _ | .slots | .commit => .isTrue trivial

/-- The samples carry the place and the channel they have in the stream. -/
structure Labelled (channels : Nat) (output : LocalOutput) : Prop where
  whole : (output.offered + output.waiting.length) % channels = 0
  place : ∀ (index : Nat) (sample : AudioSample), output.waiting[index]? = some sample →
    sample.place = output.offered + index
  channel : ∀ sample ∈ output.waiting ++ output.accepted, sample.channel = sample.place % channels

section Steps

variable {channels : Nat} {output output' : LocalOutput} {label : AudioStep}

theorem pushNext_effect (channels : Nat) (output : LocalOutput) (sample : AudioSample)
    (rest : List AudioSample) :
    (output.pushNext channels sample rest).waiting = rest ∧
    (output.pushNext channels sample rest).offered = output.offered + 1 ∧
    (output.pushNext channels sample rest).refused =
      (if output.offered % channels = 0 then output.ring.isFull else output.refused) ∧
    (output.pushNext channels sample rest).accepted =
      output.accepted ++ if output.ring.isFull then [] else [sample] := by
  rw [pushNext]
  cases pushed : output.ring.push sample with
  | some ring =>
    obtain ⟨room, samples⟩ := AudioRing.push_eq_some pushed
    refine ⟨rfl, rfl, rfl, ?_⟩
    simp only [accepted, samples, room, append_assoc, Bool.false_eq_true, if_false]
  | none =>
    refine ⟨rfl, rfl, rfl, ?_⟩
    simp only [accepted, AudioRing.push_eq_none pushed, if_true, append_nil]

theorem step_cases (stepped : output.step channels label = some output') :
    (∃ sample rest, label = .push ∧ output.waiting = sample :: rest ∧
      output' = output.pushNext channels sample rest) ∨
    (label ≠ .push ∧ output'.accepted = output.accepted ∧ output'.offered = output.offered ∧
      output'.refused = output.refused ∧ (output'.waiting = output.waiting ∨
        ∃ samples, output.waiting = [] ∧ samples.length % channels = 0 ∧
          output'.waiting = interleaved channels output.offered samples)) := by
  cases label with
  | packet samples =>
    obtain ⟨ready, ⟨⟩⟩ := Option.ite_none_right_eq_some.mp stepped
    exact .inr ⟨nofun, rfl, rfl, rfl, .inr ⟨samples, ready.1, ready.2, rfl⟩⟩
  | push =>
    simp only [step] at stepped
    split at stepped
    · cases stepped
    · next sample rest waiting =>
      exact .inl ⟨sample, rest, rfl, waiting, (Option.some.inj stepped).symm⟩
  | slots =>
    obtain ⟨-, ⟨⟩⟩ := Option.ite_none_right_eq_some.mp stepped
    exact .inr ⟨nofun, rfl, rfl, rfl, .inl rfl⟩
  | commit =>
    simp only [step] at stepped
    split at stepped
    · cases stepped
    · cases stepped
      refine .inr ⟨nofun, ?_, rfl, rfl, .inl rfl⟩
      simp only [accepted, AudioRing.commit, append_assoc, take_append_drop]

theorem start_labelled (channels : Nat) : Labelled channels start where
  whole := Nat.zero_mod channels
  place _ _ found := by cases found
  channel _ listed := by cases listed

theorem Labelled.step (labelled : Labelled channels output)
    (stepped : output.step channels label = some output') : Labelled channels output' := by
  obtain ⟨sample, rest, rfl, waiting, rfl⟩ |
      ⟨-, kept, offered, -, same | ⟨samples, idle, whole, taken⟩⟩ := step_cases stepped
  · obtain ⟨waiting', offered', -, accepted'⟩ := pushNext_effect channels output sample rest
    obtain ⟨whole, place, channel⟩ := labelled
    rw [waiting] at whole place channel
    refine ⟨?_, fun index other found => ?_, fun other listed => ?_⟩
    · rw [offered', waiting', Nat.add_right_comm]
      exact whole
    · rw [waiting'] at found
      rw [offered', place (index + 1) other found]
      omega
    · apply channel
      rw [waiting', accepted'] at listed
      cases full : output.ring.isFull <;> simp [full] at listed ⊢ <;> tauto
  · exact ⟨by rw [offered, same]; exact labelled.whole, by rw [offered, same]; exact labelled.place,
      by rw [same, kept]; exact labelled.channel⟩
  · have start : output.offered % channels = 0 := by
      have := labelled.whole
      rwa [idle] at this
    have entry {index : Nat} {sample : AudioSample}
        (found : output'.waiting[index]? = some sample) :
        sample.place = output.offered + index ∧ sample.channel = index % channels := by
      rw [taken, interleaved, getElem?_mapIdx, Option.map_eq_some_iff] at found
      obtain ⟨value, -, rfl⟩ := found
      exact ⟨rfl, rfl⟩
    refine ⟨?_, fun index sample found => ?_, fun sample listed => ?_⟩
    · rw [offered, taken, interleaved, length_mapIdx, Nat.add_mod, start, whole, Nat.zero_mod]
    · rw [offered]
      exact (entry found).1
    · obtain listed | listed := mem_append.mp listed
      · obtain ⟨index, found⟩ := mem_iff_getElem?.mp listed
        obtain ⟨place, channel⟩ := entry found
        rw [place, channel, Nat.add_mod, start, Nat.zero_add, Nat.mod_mod]
      · rw [kept] at listed
        exact labelled.channel sample (mem_append_right _ listed)

theorem Aligned.step (wide : 0 < channels) (labelled : Labelled channels output)
    (aligned : Aligned channels output) (orderly : output.Orderly channels label)
    (stepped : output.step channels label = some output') : Aligned channels output' := by
  obtain ⟨sample, rest, rfl, waiting, rfl⟩ | ⟨-, kept, offered, refused, -⟩ := step_cases stepped
  · obtain ⟨-, offered', refused', accepted'⟩ := pushNext_effect channels output sample rest
    have place : sample.place = output.offered := labelled.place 0 sample (by rw [waiting]; rfl)
    have begun : Framed channels output.ring.isFull output.offered output.places := by
      by_cases first : output.offered % channels = 0
      · exact aligned.at_start first _
      · rw [orderly first]
        exact aligned
    have continued : (output.pushNext channels sample rest).refused = output.ring.isFull := by
      rw [refused']
      split
      · rfl
      · next later => exact (orderly later).symm
    rw [Aligned, continued, offered', places, accepted']
    cases full : output.ring.isFull with
    | false =>
      rw [full] at begun
      simpa [places, place] using begun.accept wide
    | true =>
      rw [full] at begun
      simpa [places] using begun.refuse
  · rw [Aligned, refused, offered, places, kept]
    exact aligned

/-- A push that keeps the frames whole was orderly: the count would not be right otherwise. -/
theorem Aligned.orderly (wide : 0 < channels) (aligned : Aligned channels output)
    (stepped : output.step channels label = some output') (next : Aligned channels output') :
    output.Orderly channels label := by
  cases label with
  | packet samples => trivial
  | slots => trivial
  | commit => trivial
  | push =>
    intro later
    obtain ⟨sample, rest, -, waiting, rfl⟩ | ⟨other, -⟩ := step_cases stepped
    · obtain ⟨-, offered', refused', accepted'⟩ := pushNext_effect channels output sample rest
      rw [if_neg later] at refused'
      have before := aligned.length_mod
      have after := next.length_mod
      rw [refused', offered', places, accepted', map_append, length_append] at after
      have width_ne : channels ≠ 1 := by
        rintro rfl
        exact later (Nat.mod_one _)
      have size : (output.accepted.map AudioSample.place).length = output.places.length := rfl
      cases full : output.ring.isFull <;> cases first : output.refused <;>
        simp only [full, first, size, if_true, Bool.false_eq_true, if_false, map_nil,
          map_cons, length_nil, length_singleton, Nat.add_zero]
          at before after ⊢
      · obtain next | next := next_place wide output.places.length <;> omega
      · obtain next | next := next_place wide output.offered <;> omega
    · exact absurd rfl other

theorem Aligned.receivesFrames (wide : 0 < channels) (labelled : Labelled channels output)
    (aligned : Aligned channels output) : ReceivesFrames channels output := by
  obtain ⟨frames, ordered, begins⟩ := aligned.whole wide
  have received : output.received.map AudioSample.place <+: wholeFrames channels frames := by
    refine List.IsPrefix.trans ?_ begins
    rw [places, accepted, map_append]
    exact prefix_append _ _
  refine ⟨⟨frames, ordered, received⟩, fun index sample found => ?_⟩
  have listed : sample ∈ output.waiting ++ output.accepted :=
    mem_append_right _ (mem_append_left _ (mem_of_getElem? found))
  rw [labelled.channel sample listed]
  have mapped : (output.received.map AudioSample.place)[index]? = some sample.place := by
    rw [getElem?_map, found]
    rfl
  obtain ⟨later, whole⟩ := received
  refine mod_of_mem_wholeFrames frames ?_
  rw [← whole, getElem?_append_left (List.getElem?_eq_some_iff.mp mapped).1]
  exact mapped

end Steps

/-- Whenever the audio thread drains the ring, frames are taken or dropped as a whole if and only if
every push is orderly, and then what it receives is aligned. -/
theorem frames_kept_iff {channels : Nat} (wide : 0 < channels) {labels : List AudioStep}
    {final : LocalOutput} (reached : run (step channels) start labels = some final) :
    (Along (step channels) (Aligned channels) start labels ↔
      Meets (step channels) (Orderly channels) start labels) ∧
    (Meets (step channels) (Orderly channels) start labels →
      Along (step channels) (ReceivesFrames channels) start labels) := by
  have kept : ∀ output label output', Labelled channels output ∧ Aligned channels output →
      output.Orderly channels label → output.step channels label = some output' →
      Labelled channels output' ∧ Aligned channels output' :=
    fun output label output' ⟨labelled, aligned⟩ orderly stepped =>
      ⟨labelled.step stepped, aligned.step wide labelled orderly stepped⟩
  have initial : Labelled channels start ∧ Aligned channels start :=
    ⟨start_labelled channels, .nil channels false⟩
  refine ⟨⟨fun aligned => ?_, fun orderly => ?_⟩, fun orderly => ?_⟩
  · exact aligned.meets (fun _ _ _ now stepped next => now.orderly wide stepped next) reached
  · exact Along.of_invariant _ (fun _ both => both.2) kept initial orderly
  · exact Along.of_invariant _ (fun _ both => both.2.receivesFrames wide both.1) kept initial
      orderly

def stereoRun : List AudioStep :=
  [.packet [1, 2, 3, 4], .push, .slots, .commit, .push, .push, .push, .slots, .commit]

theorem stereoRun_received : Along (step 2) (ReceivesFrames 2) start stereoRun :=
  (frames_kept_iff (by decide) (show run (step 2) start stereoRun = some _ from rfl)).2 (by decide)

variable {rest : List AudioSample} (channels : Nat)

theorem run_pushes (output : LocalOutput) (front : List AudioSample)
    (waiting : output.waiting = front ++ rest)
    (room : output.ring.samples.length + front.length ≤ maxAudioBufferSamples) :
    ∃ output', run (step channels) output (List.replicate front.length .push) = some output' ∧
      output'.waiting = rest ∧ output'.ring.samples = output.ring.samples ++ front ∧
      output'.received = output.received ∧ output'.available = output.available := by
  induction front generalizing output with
  | nil => exact ⟨output, rfl, waiting, (append_nil _).symm, rfl, rfl⟩
  | cons sample front ih =>
    rw [length_cons] at room
    have stepped : output.step channels .push =
        some (output.pushNext channels sample (front ++ rest)) := by
      rw [step, waiting]
      rfl
    have pushed : output.ring.push sample = some ⟨output.ring.samples ++ [sample], by
        rw [length_append, length_singleton]
        omega⟩ := dif_pos (by omega)
    obtain ⟨output', reached, waiting', samples, received, available⟩ :=
      ih (output.pushNext channels sample (front ++ rest))
        (by simp only [pushNext, pushed]) (by
          simp only [pushNext, pushed, length_append, length_singleton]
          omega)
    refine ⟨output', run_cons.mpr ⟨_, stepped, reached⟩, waiting', ?_, ?_, ?_⟩
    · rw [samples]
      simp [pushNext, pushed]
    · rw [received]
      simp [pushNext, pushed]
    · rw [available]
      simp [pushNext, pushed]

variable {output : LocalOutput}

def tornRun : List AudioStep :=
  .packet (List.replicate maxAudioBufferSamples 0 ++ [0, 0]) ::
    (List.replicate maxAudioBufferSamples .push ++ [.push, .slots, .commit, .push, .slots, .commit])

theorem interleaved_silence {count : Nat} (even : count % 2 = 0) :
    interleaved 2 0 (List.replicate count 0 ++ [0, 0]) =
      interleaved 2 0 (List.replicate count 0) ++ [⟨0, 0, count⟩, ⟨0, 1, count + 1⟩] := by
  have odd : (count + 1) % 2 = 1 := by omega
  simp [interleaved, mapIdx_append, even, odd, Nat.add_comm]

theorem run_fill (count : Nat) (even : count % 2 = 0) (capacity : count = maxAudioBufferSamples) :
    ∃ output, run (step 2) start (.packet (List.replicate count 0 ++ [0, 0]) ::
        List.replicate count .push) = some output ∧
      output.waiting = [⟨0, 0, count⟩, ⟨0, 1, count + 1⟩] ∧
      output.ring.samples.length = maxAudioBufferSamples ∧ output.received = [] ∧
      output.available = none := by
  have length : (interleaved 2 0 (List.replicate count 0)).length = count := by
    rw [interleaved, length_mapIdx, length_replicate]
  have taken : step 2 start (.packet (List.replicate count 0 ++ [0, 0])) =
      some { start with waiting := interleaved 2 0 (List.replicate count 0 ++ [0, 0]) } := by
    refine if_pos ⟨rfl, ?_⟩
    rw [length_append, length_replicate, Nat.add_mod, even]
    rfl
  obtain ⟨output, reached, waiting, samples, received, idle⟩ := run_pushes 2
    { start with waiting := interleaved 2 0 (List.replicate count 0 ++ [0, 0]) } _
    (interleaved_silence even) (by
      rw [length, capacity]
      exact Nat.le_of_eq (Nat.zero_add _))
  rw [length] at reached
  refine ⟨output, run_cons.mpr ⟨_, taken, reached⟩, waiting, ?_, received, idle⟩
  rw [samples, length_append, length, capacity]
  exact Nat.zero_add _

theorem run_tear {first second : AudioSample} (waiting : output.waiting = [first, second])
    (full : output.ring.samples.length = maxAudioBufferSamples) (idle : output.available = none) :
    ∃ final, run (step 2) output [.push, .slots, .commit, .push, .slots, .commit] = some final ∧
      final.received = output.received ++ output.ring.samples ++ [second] := by
  have refused : output.ring.push first = none := dif_neg (by omega)
  have drained : output.ring.commit output.ring.samples.length = .new := by
    simp only [AudioRing.commit, drop_length, AudioRing.new]
  obtain ⟨pushed, accepted, samples⟩ : ∃ pushed, AudioRing.new.push second = some pushed ∧
      pushed.samples = [second] := ⟨_, dif_pos (by decide), rfl⟩
  simp only [run, step, waiting, idle, pushNext, refused, drained, accepted, samples, if_true,
    Option.bind_some, take_length, length_singleton]
  exact ⟨_, rfl, rfl⟩

theorem torn_frame : ∃ output, run (step 2) start tornRun = some output ∧
    output.received[maxAudioBufferSamples]? = some ⟨0, 1, maxAudioBufferSamples + 1⟩ ∧
    ¬ReceivesFrames 2 output := by
  obtain ⟨filled, filling, waiting, full, nothing, idle⟩ :=
    run_fill maxAudioBufferSamples (by decide) rfl
  obtain ⟨output, tearing, received⟩ := run_tear waiting full idle
  have found : output.received[maxAudioBufferSamples]? =
      some ⟨0, 1, maxAudioBufferSamples + 1⟩ := by
    rw [received, nothing, nil_append, ← full]
    exact getElem?_concat_length
  refine ⟨output, ?_, found, fun frames => absurd (frames.2 _ _ found) (by decide)⟩
  rw [tornRun, ← cons_append]
  exact run_append.mpr ⟨filled, filling, tearing⟩

end LocalOutput

end Ryll
