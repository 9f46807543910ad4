import Ryll.Foundation.Buffer

/-!
# Buffers stored row by row

A buffer whose length never changes, and the addressing of its cells by row and column.
-/

namespace Ryll

open List

variable {ε α : Type}

/-- A list of a fixed length. -/
structure FixedBuffer (α : Type) (length : Nat) where
  items : List α
  /-- No operation resizes the buffer. -/
  sized : items.length = length

namespace FixedBuffer

variable {length : Nat}

def replicate (length : Nat) (value : α) : FixedBuffer α length :=
  ⟨List.replicate length value, length_replicate⟩

variable (buffer : FixedBuffer α length)

def copyFrom (start stop : Nat) (source : List α) : Outcome ε (FixedBuffer α length) :=
  if fits : start ≤ stop ∧ stop ≤ length ∧ source.length = stop - start then
    .ok ⟨splice buffer.items start source, by
      rw [length_splice, buffer.sized]
      have := buffer.sized
      omega⟩
  else
    .fault .bounds

def write (index : Nat) (value : α) : Outcome ε (FixedBuffer α length) :=
  if index < length then .ok ⟨buffer.items.set index value, by simp [buffer.sized]⟩
  else .fault .bounds

theorem write_ok {index : Nat} (inside : index < length) (value : α) :
    ∃ written : FixedBuffer α length, (buffer.write index value : Outcome ε _) = .ok written ∧
        written.items = buffer.items.set index value :=
  ⟨_, if_pos inside, rfl⟩

end FixedBuffer

def cellOffset (stride row column : Nat) : Nat := row * stride + column

variable {stride line count rows : Nat} {start : Nat} {source : List α} {region : Nat → Nat → Prop}

theorem cellOffset_mem_segment {row column : Nat} (inside : column < stride)
    (fits : start + count ≤ stride) : (cellOffset stride line start ≤ cellOffset stride row column ∧
        cellOffset stride row column < cellOffset stride line start + count) ↔
      row = line ∧ start ≤ column ∧ column < start + count := by
  simp only [cellOffset]
  rcases Nat.lt_trichotomy row line with above | rfl | below
  · have gap : (row + 1) * stride ≤ line * stride := Nat.mul_le_mul_right stride above
    rw [Nat.succ_mul] at gap
    omega
  · omega
  · have gap : (line + 1) * stride ≤ row * stride := Nat.mul_le_mul_right stride below
    rw [Nat.succ_mul] at gap
    omega

theorem cellOffset_add_le (listed : line < rows) (fits : start + count ≤ stride) :
    cellOffset stride line start + count ≤ rows * stride := by
  have whole : (line + 1) * stride ≤ rows * stride := Nat.mul_le_mul_right stride listed
  rw [Nat.succ_mul] at whole
  simp only [cellOffset]
  omega

theorem getElem?_splice_segment {buffer : List α} {row column : Nat}
    (inside : column < stride) (fits : start + source.length ≤ stride)
    (whole : cellOffset stride line start + source.length ≤ buffer.length) :
    (splice buffer (cellOffset stride line start) source)[cellOffset stride row column]? =
      if row = line ∧ start ≤ column ∧ column < start + source.length then
        source[column - start]?
      else
        buffer[cellOffset stride row column]? := by
  rw [getElem?_splice whole]
  by_cases within : row = line ∧ start ≤ column ∧ column < start + source.length
  · rw [if_pos within, if_pos ((cellOffset_mem_segment inside fits).mpr within)]
    obtain ⟨rfl, lower, -⟩ := within
    simp only [cellOffset, Nat.add_sub_add_left]
  · rw [if_neg within, if_neg fun listed => within ((cellOffset_mem_segment inside fits).mp listed)]

/-- The data are rows of the pixels, joined. -/
structure RowsGathered (pixels : Bytes) (stride left width top rows : Nat)
    (data : Bytes) : Prop where
  length : data.length = rows * width
  bytes : ∀ line < rows, ∀ column < width,
    data[cellOffset width line column]? = pixels[cellOffset stride (top + line) (left + column)]?

theorem RowsGathered.succ {pixels data : Bytes} {left width top : Nat}
    (gathered : RowsGathered pixels stride left width top rows data)
    (fits : cellOffset stride (top + rows) left + width ≤ pixels.length) :
    RowsGathered pixels stride left width top (rows + 1)
      (data ++ (pixels.drop (cellOffset stride (top + rows) left)).take width) := by
  refine ⟨?_, fun line listed column inside => ?_⟩
  · rw [length_append, gathered.length, length_take, length_drop, Nat.succ_mul]
    omega
  · by_cases earlier : line < rows
    · have before := cellOffset_add_le earlier (show column + 1 ≤ width from inside)
      rw [getElem?_append_left (by rw [gathered.length]; omega)]
      exact gathered.bytes line earlier column inside
    · obtain rfl : line = rows := by omega
      rw [getElem?_append_right (by rw [gathered.length, cellOffset]; omega), gathered.length]
      simp only [cellOffset, Nat.add_sub_cancel_left]
      rw [getElem?_take_of_lt inside, getElem?_drop, Nat.add_assoc]

/-! ## Writes that stay in a region -/

/-- Cells outside a region of rows and columns are as before. -/
def Confined (stride : Nat) (region : Nat → Nat → Prop) (before after : List α) : Prop :=
  ∀ row column, column < stride → ¬region row column →
    after[cellOffset stride row column]? = before[cellOffset stride row column]?

theorem Confined.refl (stride : Nat) (region : Nat → Nat → Prop) (buffer : List α) :
    Confined stride region buffer buffer := fun _ _ _ _ => rfl

theorem Confined.trans {first second third : List α}
    (early : Confined stride region first second) (late : Confined stride region second third) :
    Confined stride region first third :=
  fun row column inside outside =>
    (late row column inside outside).trans (early row column inside outside)

theorem Confined.splice {buffer : List α}
    (listed : ∀ column, start ≤ column → column < start + source.length → region line column)
    (fits : start + source.length ≤ stride)
    (whole : cellOffset stride line start + source.length ≤ buffer.length) :
    Confined stride region buffer (splice buffer (cellOffset stride line start) source) := by
  intro row column inside outside
  rw [getElem?_splice_segment inside fits whole, if_neg]
  rintro ⟨rfl, lower, upper⟩
  exact outside (listed column lower upper)

/-! ## Copying a block of rows -/

/-- Where a block of rows lies in a buffer. -/
structure Placement where
  /-- Elements per row of the buffer. -/
  stride : Nat
  top : Nat
  left : Nat

def Placement.offset (placement : Placement) (row column : Nat) : Nat :=
  cellOffset placement.stride (placement.top + row) (placement.left + column)

variable {length : Nat}

def copyRow (source : List α) (sourceStart destStart count : Nat)
    (dest : FixedBuffer α length) : Outcome ε (FixedBuffer α length) := do
  let line ← sliceOf source sourceStart (← addUsize sourceStart count)
  dest.copyFrom destStart (← addUsize destStart count) line

theorem copyRow_ok {sourceStart destStart : Nat} (dest : FixedBuffer α length)
    (source_small : sourceStart + count < 2 ^ 64) (dest_small : destStart + count < 2 ^ 64)
    (source_inside : sourceStart + count ≤ source.length)
    (dest_inside : destStart + count ≤ length) : ∃ copied : FixedBuffer α length,
      (copyRow source sourceStart destStart count dest : Outcome ε _) = .ok copied ∧
        copied.items = splice dest.items destStart ((source.drop sourceStart).take count) := by
  have taken : ((source.drop sourceStart).take count).length = count := by
    rw [length_take, length_drop]
    omega
  obtain ⟨copied, returned, items⟩ : ∃ copied : FixedBuffer α length,
      (dest.copyFrom destStart (destStart + count) ((source.drop sourceStart).take count) :
        Outcome ε _) = .ok copied ∧
      copied.items = splice dest.items destStart ((source.drop sourceStart).take count) :=
    ⟨_, dif_pos ⟨Nat.le_add_right destStart count, dest_inside,
      taken.trans (Nat.add_sub_cancel_left destStart count).symm⟩, rfl⟩
  refine ⟨copied, ?_, items⟩
  simp (disch := omega) only [copyRow, addUsize_ok, ok_bind, sliceOf_ok, Nat.add_sub_cancel_left]
  exact returned

/-- The first rows of a block are those of the source block, and the other cells as before. -/
def BlockCopied (source : List α) (origin target : Placement) (rows count : Nat)
    (before after : List α) : Prop :=
  ∀ row column, column < target.stride → after[cellOffset target.stride row column]? =
      if target.top ≤ row ∧ row < target.top + rows ∧ target.left ≤ column ∧
          column < target.left + count then
        source[origin.offset (row - target.top) (column - target.left)]?
      else
        before[cellOffset target.stride row column]?

theorem BlockCopied.succ {before after : List α} {origin target : Placement}
    (copied : BlockCopied source origin target rows count before after)
    (target_fits : target.left + count ≤ target.stride)
    (origin_inside : origin.offset rows 0 + count ≤ source.length)
    (target_inside : target.offset rows 0 + count ≤ after.length) :
    BlockCopied source origin target (rows + 1) count before
      (splice after (target.offset rows 0) ((source.drop (origin.offset rows 0)).take count)) := by
  have taken : ((source.drop (origin.offset rows 0)).take count).length = count := by
    rw [length_take, length_drop]
    omega
  intro row column inside
  rw [Placement.offset, getElem?_splice_segment inside (by omega)
      (by rw [taken]; exact target_inside), taken, copied row column inside]
  by_cases new : row = target.top + rows ∧ target.left + 0 ≤ column ∧
      column < target.left + 0 + count
  · obtain ⟨rfl, lower, upper⟩ := new
    rw [if_pos ⟨rfl, lower, upper⟩, if_pos (by omega), getElem?_take_of_lt (by omega),
      getElem?_drop]
    simp only [Placement.offset, cellOffset, Nat.add_sub_cancel_left]
    congr 1
    omega
  · rw [if_neg new]
    -- Off the new row the two blocks agree.
    refine if_congr ?_ rfl rfl
    omega

theorem copyRows_ensures {body : Nat → FixedBuffer α length → Outcome ε (FixedBuffer α length)}
    (source : List α) (origin target : Placement) (count : Nat) {dest : FixedBuffer α length}
    (each : ∀ row < rows, ∀ dest, body row dest =
      copyRow source (origin.offset row 0) (target.offset row 0) count dest)
    (origin_fits : origin.left + count ≤ origin.stride)
    (target_fits : target.left + count ≤ target.stride)
    (origin_whole : (origin.top + rows) * origin.stride ≤ source.length)
    (target_whole : (target.top + rows) * target.stride ≤ length)
    (source_small : source.length < 2 ^ 64) (dest_small : length < 2 ^ 64) :
    (forIndex body 0 rows dest).Ensures fun copied =>
      BlockCopied source origin target rows count dest.items copied.items := by
  have ran : (forIndex body 0 rows dest).Ensures fun copied =>
      BlockCopied source origin target (0 + rows) count dest.items copied.items := by
    refine forIndex_ensures (fun done (copied : FixedBuffer α length) =>
      BlockCopied source origin target done count dest.items copied.items) ?_ ?_
    · intro row copied _ listed kept
      have origin_inside : origin.offset row 0 + count ≤ source.length :=
        (cellOffset_add_le (by omega) (by omega)).trans origin_whole
      have target_inside : target.offset row 0 + count ≤ length :=
        (cellOffset_add_le (by omega) (by omega)).trans target_whole
      obtain ⟨next, returned, items⟩ := copyRow_ok (ε := ε) copied
        (by omega) (by omega) origin_inside target_inside
      rw [each row (by omega), returned, ensures_ok, items]
      exact kept.succ target_fits origin_inside (target_inside.trans_eq copied.sized.symm)
    · intro row column _
      rw [if_neg (by omega)]
  rwa [Nat.zero_add] at ran

theorem BlockCopied.through {scratch blank before after : List α} {origin target : Placement}
    (gathered : BlockCopied source origin ⟨count, 0, 0⟩ rows count blank scratch)
    (scattered : BlockCopied scratch ⟨count, 0, 0⟩ target rows count before after) :
    BlockCopied source origin target rows count before after := by
  intro row column inside
  rw [scattered row column inside]
  refine ite_congr rfl (fun within => ?_) fun _ => rfl
  have relative := gathered (row - target.top) (column - target.left) (by simp only; omega)
  rw [if_pos (by simp only; omega)] at relative
  simpa only [Placement.offset, Nat.zero_add, Nat.sub_zero] using relative

theorem take_drop_congr {first second : List α} {start' : Nat}
    (agree : ∀ index < count, first[start + index]? = second[start' + index]?) :
    (first.drop start).take count = (second.drop start').take count := by
  refine ext_getElem? fun index => ?_
  rw [getElem?_take, getElem?_take, getElem?_drop, getElem?_drop]
  split
  · exact agree index (by assumption)
  · rfl

end Ryll
