import Ryll.Foundation.Outcome

/-!
# Buffers with checked access

Reads, writes and slice copies on a buffer of fixed length.  Each operation faults exactly when
the corresponding Rust operation panics.
-/

namespace Ryll

open List

/-- A byte string. -/
abbrev Bytes := List UInt8

variable {ε α : Type} (buffer : List α)

def readAt (index : Nat) : Outcome ε α :=
  match buffer[index]? with
  | some value => .ok value
  | none => .fault .bounds

def writeAt (index : Nat) (value : α) : Outcome ε (List α) :=
  if index < buffer.length then .ok (buffer.set index value) else .fault .bounds

def sliceOf (start stop : Nat) : Outcome ε (List α) :=
  if start ≤ stop ∧ stop ≤ buffer.length then
    .ok ((buffer.drop start).take (stop - start))
  else
    .fault .bounds

def splice (start : Nat) (source : List α) : List α :=
  buffer.take start ++ source ++ buffer.drop (start + source.length)

def copyFromSlice (start stop : Nat) (source : List α) : Outcome ε (List α) :=
  if start ≤ stop ∧ stop ≤ buffer.length ∧ source.length = stop - start then
    .ok (splice buffer start source)
  else
    .fault .bounds

def fillTable (value : Nat → Outcome ε α) (count : Nat) (table : List α) : Outcome ε (List α) :=
  forIndex (fun index table => do
    let entry ← value index
    writeAt table index entry) 0 count table

variable {buffer tail : List α} {index : Nat}

section

variable (inside : index < buffer.length)
include inside

theorem readAt_ok : (readAt buffer index : Outcome ε α) = .ok buffer[index] := by
  simp [readAt, getElem?_eq_getElem inside]

theorem readAt_ensures : (readAt buffer index : Outcome ε α).Ensures (· ∈ buffer) := by
  rw [readAt_ok inside]
  exact getElem_mem inside

omit inside in
theorem readAt_of_getElem? {value : α} (present : buffer[index]? = some value) :
    (readAt buffer index : Outcome ε α) = .ok value := by
  simp [readAt, present]

theorem writeAt_ok (value : α) :
    (writeAt buffer index value : Outcome ε (List α)) = .ok (buffer.set index value) :=
  if_pos inside

variable {good : α → Prop} {start : Nat} {source : List α}

theorem writeAt_ensures {value : α} (each : ∀ entry ∈ buffer, good entry) (new : good value) :
    (writeAt buffer index value : Outcome ε (List α)).Ensures fun written =>
      written.length = buffer.length ∧ ∀ entry ∈ written, good entry := by
  rw [writeAt_ok inside]
  refine ⟨length_set, fun entry present => ?_⟩
  rcases mem_or_eq_of_mem_set present with old | rfl
  · exact each entry old
  · exact new

end

theorem fillTable_ensures {value : Nat → Outcome ε α} {count : Nat} {table : List α}
    (fits : count ≤ table.length) (each : ∀ entry ∈ table, good entry)
    (values : ∀ index < count, (value index).Ensures good) :
    (fillTable value count table).Ensures fun filled =>
      filled.length = table.length ∧ ∀ entry ∈ filled, good entry := by
  refine forIndex_ensures (fun _ filled =>
    filled.length = table.length ∧ ∀ entry ∈ filled, good entry) ?_ ⟨rfl, each⟩
  rintro index filled - inside ⟨length, kept⟩
  refine (values index (by omega)).bind fun entry new => ?_
  refine (writeAt_ensures (by omega) kept new).mono ?_
  exact fun _ ⟨length', kept'⟩ => ⟨length'.trans length, kept'⟩

theorem writeAt_append {front : List α} (front_length : front.length = start)
    (inside : index < tail.length) (value : α) :
    (writeAt (front ++ tail) (start + index) value : Outcome ε (List α)) =
      .ok (front ++ tail.set index value) := by
  subst front_length
  rw [writeAt_ok (by simp; omega), set_append_right _ _ (by omega)]
  simp

theorem writeAt_append_cons {front : List α} (front_length : front.length = start) (old value : α) :
    (writeAt (front ++ old :: tail) start value : Outcome ε (List α)) =
      .ok (front ++ value :: tail) := by
  subst front_length
  rw [writeAt_ok (by simp), set_append_right _ _ (Nat.le_refl _)]
  simp

theorem getElem?_of_drop (suffix : buffer.drop start = tail) (index : Nat) :
    buffer[start + index]? = tail[index]? := by
  rw [← suffix, getElem?_drop]

theorem sliceOf_ok {stop : Nat} (ordered : start ≤ stop) (inside : stop ≤ buffer.length) :
    (sliceOf buffer start stop : Outcome ε (List α)) =
      .ok ((buffer.drop start).take (stop - start)) :=
  if_pos ⟨ordered, inside⟩

theorem copyFromSlice_ok {stop : Nat} (ordered : start ≤ stop)
    (inside : stop ≤ buffer.length) (same : source.length = stop - start) :
    (copyFromSlice buffer start stop source : Outcome ε (List α)) =
      .ok (splice buffer start source) :=
  if_pos ⟨ordered, inside, same⟩

theorem length_splice (inside : start + source.length ≤ buffer.length) :
    (splice buffer start source).length = buffer.length := by
  simp only [splice, length_append, length_take, length_drop]
  omega

theorem getElem?_splice
    (inside : start + source.length ≤ buffer.length) (index : Nat) :
    (splice buffer start source)[index]? =
      if start ≤ index ∧ index < start + source.length then source[index - start]?
      else buffer[index]? := by
  have start_le : start ≤ buffer.length := by omega
  have front : (buffer.take start).length = start := by simp [start_le]
  rw [splice, append_assoc]
  by_cases before : index < start
  · rw [getElem?_append_left (by omega), getElem?_take_of_lt before, if_neg (by omega)]
  rw [getElem?_append_right (by omega), front]
  by_cases within : index < start + source.length
  · rw [getElem?_append_left (by omega), if_pos ⟨by omega, within⟩]
  · rw [getElem?_append_right (by omega), getElem?_drop, if_neg (by omega)]
    congr 1
    omega

end Ryll
