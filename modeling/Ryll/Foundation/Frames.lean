import Mathlib

/-!
# Streams of frames

The places of a stream are numbered, and every `width` of them make a frame.  A stream that is
passed on place by place loses no alignment as long as every frame is kept as a whole or dropped as
a whole.
-/

namespace Ryll

open List

def framePlaces (width frame : Nat) : List Nat := List.range' (frame * width) width

variable (width : Nat)

variable (frames : List Nat)

def wholeFrames : List Nat := frames.flatMap (framePlaces width)

theorem wholeFrames_append (first second : List Nat) :
    wholeFrames width (first ++ second) = wholeFrames width first ++ wholeFrames width second :=
  flatMap_append

theorem wholeFrames_singleton (width frame : Nat) :
    wholeFrames width [frame] = framePlaces width frame := by
  simp [wholeFrames]

theorem length_wholeFrames :
    (wholeFrames width frames).length = width * frames.length := by
  induction frames with
  | nil => rfl
  | cons frame frames ih =>
    rw [wholeFrames, flatMap_cons, length_append, framePlaces, length_range']
    change width + (wholeFrames width frames).length = _
    rw [ih, length_cons, Nat.mul_succ, Nat.add_comm]

theorem mod_of_mem_wholeFrames {width place index : Nat}
    (found : (wholeFrames width frames)[index]? = some place) : place % width = index % width := by
  induction frames generalizing index with
  | nil => cases found
  | cons frame frames ih =>
    have split : wholeFrames width (frame :: frames) =
        framePlaces width frame ++ wholeFrames width frames := flatMap_cons
    have length : (framePlaces width frame).length = width := length_range'
    rw [split] at found
    by_cases inside : index < width
    · rw [getElem?_append_left (by omega), framePlaces, getElem?_range' inside] at found
      cases found
      rw [Nat.one_mul, Nat.mul_comm, Nat.mul_add_mod]
    · rw [getElem?_append_right (by omega), length] at found
      rw [ih found]
      exact (Nat.mod_eq_sub_mod (by omega)).symm

theorem next_place {width : Nat} (wide : 0 < width) (place : Nat) :
    (place % width + 1 < width ∧ (place + 1) / width = place / width ∧
      (place + 1) % width = place % width + 1) ∨
    (place % width + 1 = width ∧ (place + 1) / width = place / width + 1 ∧
      (place + 1) % width = 0) := by
  have split := Nat.div_add_mod place width
  have inside := Nat.mod_lt place wide
  by_cases last : place % width + 1 < width
  · refine .inl ⟨last, (Nat.div_mod_unique wide).mpr ⟨by omega, last⟩⟩
  · have full : place % width + 1 = width := by omega
    refine .inr ⟨full, (Nat.div_mod_unique wide).mpr ⟨?_, wide⟩⟩
    rw [Nat.mul_add]
    omega

/-- Every frame was kept or dropped as a whole; `refused` is for the frame in progress. -/
def Framed (refused : Bool) (offered : Nat) (places : List Nat) : Prop :=
  ∃ kept : List Nat, kept.Pairwise (· < ·) ∧ (∀ frame ∈ kept, frame < offered / width) ∧
    places = wholeFrames width kept ++
      if refused then [] else List.range' (offered / width * width) (offered % width)

namespace Framed

variable {width offered : Nat} {refused : Bool} {places : List Nat}

theorem nil (width : Nat) (refused : Bool) : Framed width refused 0 [] := by
  refine ⟨[], List.Pairwise.nil, by simp, ?_⟩
  cases refused <;> simp [wholeFrames]

theorem at_start (framed : Framed width refused offered places) (start : offered % width = 0)
    (refused' : Bool) : Framed width refused' offered places := by
  obtain ⟨kept, ordered, past, rfl⟩ := framed
  refine ⟨kept, ordered, past, ?_⟩
  rw [start]
  simp

theorem accept (wide : 0 < width) (framed : Framed width false offered places) :
    Framed width false (offered + 1) (places ++ [offered]) := by
  obtain ⟨kept, ordered, past, rfl⟩ := framed
  have split := Nat.div_add_mod offered width
  rw [Nat.mul_comm] at split
  have progress : List.range' (offered / width * width) (offered % width) ++ [offered] =
      List.range' (offered / width * width) (offered % width + 1) := by
    rw [range'_concat, Nat.one_mul, split]
  rw [if_neg Bool.false_ne_true, append_assoc, progress]
  obtain ⟨-, quotient, remainder⟩ | ⟨full, quotient, remainder⟩ := next_place wide offered
  · refine ⟨kept, ordered, ?_, ?_⟩
    · rw [quotient]
      exact past
    · rw [quotient, remainder, if_neg Bool.false_ne_true]
  · refine ⟨kept ++ [offered / width], ?_, ?_, ?_⟩
    · rw [pairwise_append]
      exact ⟨ordered, pairwise_singleton _ _, by simpa using past⟩
    · rw [quotient]
      intro frame listed
      obtain listed | listed := mem_append.mp listed
      · exact Nat.lt_succ_of_lt (past frame listed)
      · rw [mem_singleton.mp listed]
        exact Nat.lt_succ_self _
    · rw [full, remainder, wholeFrames_append, wholeFrames_singleton]
      simp [framePlaces]

theorem refuse (framed : Framed width true offered places) :
    Framed width true (offered + 1) places := by
  obtain ⟨kept, ordered, past, rfl⟩ := framed
  refine ⟨kept, ordered, fun frame listed => ?_, rfl⟩
  exact Nat.lt_of_lt_of_le (past frame listed) (Nat.div_le_div_right (Nat.le_succ offered))

theorem length_mod (framed : Framed width refused offered places) :
    places.length % width = if refused then 0 else offered % width := by
  obtain ⟨kept, -, -, rfl⟩ := framed
  rw [length_append, length_wholeFrames, Nat.mul_add_mod]
  cases refused <;> simp

theorem whole (wide : 0 < width) (framed : Framed width refused offered places) :
    ∃ frames : List Nat, frames.Pairwise (· < ·) ∧ places <+: wholeFrames width frames := by
  obtain ⟨kept, ordered, past, rfl⟩ := framed
  refine ⟨kept ++ [offered / width], ?_, ?_⟩
  · rw [pairwise_append]
    exact ⟨ordered, pairwise_singleton _ _, by simpa using past⟩
  · rw [wholeFrames_append, wholeFrames_singleton]
    refine (prefix_append_right_inj _).mpr ?_
    cases refused with
    | true => exact nil_prefix
    | false =>
      have inside := Nat.mod_lt offered wide
      refine ⟨List.range' (offered / width * width + offered % width)
        (width - offered % width), ?_⟩
      rw [if_neg Bool.false_ne_true, framePlaces, range'_append_1]
      congr 1
      omega

end Framed

end Ryll
