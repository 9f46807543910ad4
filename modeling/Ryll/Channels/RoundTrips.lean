import Ryll.Channels.Inputs

/-!
# Round trips of pointer messages

Every fourth pointer message completes a bunch, which the server acknowledges.  The newest eight of
the bunches that wait are remembered, to time their acknowledgements.
-/

namespace Ryll

open List

def maxRoundTripsPending : Nat := 8

/-- The tracker of bunches that wait. -/
structure MotionRoundTrip where
  sent : Nat
  acks : Nat
  /-- The bunches that wait, by number, with the times at which they were completed. -/
  pending : List (Nat × Nat)

namespace MotionRoundTrip

variable (trip : MotionRoundTrip) (now : Nat)

def noteSent : MotionRoundTrip :=
  let sent := trip.sent + 1
  if sent % motionAckBunch = 0 then
    let pending := if trip.pending.length ≥ maxRoundTripsPending then trip.pending.tail
      else trip.pending
    { trip with sent, pending := pending ++ [(sent / motionAckBunch, now)] }
  else
    { trip with sent }

def noteAck : Option Nat × MotionRoundTrip :=
  if trip.acks ≥ trip.sent / motionAckBunch then
    (none, trip)
  else
    let acks := trip.acks + 1
    let pending := trip.pending.dropWhile (·.1 < acks)
    match pending with
    | (number, sentAt) :: rest =>
      if number = acks then (some (now - sentAt), { trip with acks, pending := rest })
      else (none, { trip with acks, pending })
    | [] => (none, { trip with acks, pending })

end MotionRoundTrip

/-- A pointer message or an acknowledgement. -/
inductive TripEvent
  | sent (now : Nat)
  | ack (now : Nat)

/-- The tracker with its history. -/
structure TripWorld extends MotionRoundTrip where
  /-- The times of the messages that completed a bunch (history). -/
  completed : List Nat

namespace TripWorld

variable (world : TripWorld) (now : Nat)

def note : TripEvent → TripWorld
  | .sent now => ⟨world.noteSent now, if (world.sent + 1) % motionAckBunch = 0 then
      world.completed ++ [now] else world.completed⟩
  | .ack now => { world with toMotionRoundTrip := (world.noteAck now).2 }

def bunches : List (Nat × Nat) := world.completed.mapIdx fun index time => (index + 1, time)

/-- The bunches that wait are the newest of the completed ones that are not acknowledged. -/
structure Tracked : Prop where
  count : world.completed.length = world.sent / 4
  acks_le : world.acks ≤ world.completed.length
  waiting : world.pending = world.bunches.drop (max world.acks (world.completed.length - 8))

variable {world} (tracked : world.Tracked)
include tracked

theorem Tracked.sent : (world.note (.sent now)).Tracked := by
  obtain ⟨count, acks_le, waiting⟩ := tracked
  have length : world.pending.length = _ := congrArg List.length waiting
  rw [length_drop, bunches, length_mapIdx] at length
  rw [note, MotionRoundTrip.noteSent]
  by_cases complete : (world.sent + 1) % motionAckBunch = 0
  · simp only [if_pos complete]
    rw [motionAckBunch] at complete ⊢
    refine ⟨?_, ?_, ?_⟩
    · simp only [length_append, length_singleton]
      omega
    · simp only [length_append]
      omega
    · simp only [bunches, mapIdx_concat, length_append, length_singleton]
      rw [drop_append_of_le_length (by rw [length_mapIdx]; omega), ← bunches]
      congr 1
      · split <;> rename_i full <;> rw [maxRoundTripsPending] at full <;> rw [waiting]
        · rw [tail_drop]
          congr 1
          omega
        · congr 1
          omega
      · rw [show (world.sent + 1) / 4 = world.completed.length + 1 by omega]
  · simp only [if_neg complete]
    rw [motionAckBunch] at complete
    exact ⟨by simp only; omega, acks_le, waiting⟩

theorem Tracked.ack {completedAt : Nat} (due : world.completed[world.acks]? = some completedAt) :
    world.noteAck now = (if world.completed.length - (world.acks + 1) < 8 then
        some (now - completedAt) else none, { world.toMotionRoundTrip with
      acks := world.acks + 1
      pending := world.bunches.drop (max (world.acks + 1) (world.completed.length - 8)) }) := by
  obtain ⟨count, acks_le, waiting⟩ := tracked
  obtain ⟨more, rfl⟩ := List.getElem?_eq_some_iff.mp due
  generalize first : max world.acks (world.completed.length - 8) = oldest at waiting
  have inside : oldest < world.bunches.length := by
    rw [bunches, length_mapIdx]
    omega
  have number : world.bunches[oldest] = (oldest + 1, world.completed[oldest]) := getElem_mapIdx
  rw [drop_eq_getElem_cons inside, number] at waiting
  have late := dropWhile_cons_of_neg (p := (·.1 < world.acks + 1))
    (a := (oldest + 1, world.completed[oldest])) (l := world.bunches.drop (oldest + 1)) (by
      rw [decide_eq_true_iff]; omega)
  rw [MotionRoundTrip.noteAck, motionAckBunch, if_neg (by omega)]
  simp only [waiting, late]
  by_cases kept : world.completed.length - 8 ≤ world.acks
  · obtain rfl : oldest = world.acks := by omega
    rw [if_pos rfl, if_pos (by omega), Nat.max_eq_left (by omega)]
  · rw [if_neg (by omega), if_neg (by omega), ← number, ← drop_eq_getElem_cons inside, ← first]
    congr 3
    omega

theorem Tracked.unanswered (none_due : world.completed[world.acks]? = none) :
    world.noteAck now = (none, world.toMotionRoundTrip) := by
  have all := getElem?_eq_none_iff.mp none_due
  rw [tracked.count] at all
  rw [MotionRoundTrip.noteAck, motionAckBunch, if_pos all]

omit tracked

end TripWorld

end Ryll
