import Ryll.Foundation.Buffer

/-!
# Lists divided into blocks

The blocks of a fixed size that a list consists of, and what becomes of them when whole blocks are
overwritten.
-/

namespace Ryll

open List

variable {α : Type}

variable (size : Nat)

variable (items : List α)

def blockAt (index : Nat) : List α :=
  (items.drop (index * size)).take size

theorem getElem?_blockAt (index offset : Nat) :
    (blockAt size items index)[offset]? =
      if offset < size then items[index * size + offset]? else none := by
  rw [blockAt, getElem?_take, getElem?_drop]

theorem flatMap_blockAt (start count : Nat) :
    (List.range count).flatMap (fun index => blockAt size items (start + index)) =
      (items.drop (start * size)).take (count * size) := by
  induction count with
  | zero => simp
  | succ count ih =>
    rw [range_succ, flatMap_append, ih, Nat.succ_mul, take_add,
      flatMap_singleton, blockAt, drop_drop, Nat.add_mul]

theorem blockAt_splice {size start count : Nat} {items source : List α}
    (sized : source.length = count * size) (inside : (start + count) * size ≤ items.length)
    (index : Nat) :
    blockAt size (splice items (start * size) source) index =
      if start ≤ index ∧ index < start + count then blockAt size source (index - start)
      else blockAt size items index := by
  rw [Nat.add_mul, ← sized] at inside
  apply ext_getElem?
  intro offset
  rw [getElem?_blockAt, getElem?_splice inside, sized]
  split
  · next short =>
    by_cases below : index < start
    · have front : (index + 1) * size ≤ start * size := Nat.mul_le_mul_right size below
      rw [Nat.add_mul] at front
      rw [if_neg (by omega), if_neg (by omega), getElem?_blockAt, if_pos short]
    · obtain ⟨shift, rfl⟩ := Nat.exists_eq_add_of_le (Nat.not_lt.mp below)
      rw [Nat.add_mul start shift size, Nat.add_sub_cancel_left]
      by_cases within : shift < count
      · have back : (shift + 1) * size ≤ count * size := Nat.mul_le_mul_right size within
        rw [Nat.add_mul] at back
        rw [if_pos (by omega), if_pos (by omega), getElem?_blockAt, if_pos short]
        congr 1
        omega
      · have back : count * size ≤ shift * size :=
          Nat.mul_le_mul_right size (Nat.not_lt.mp within)
        rw [if_neg (by omega), if_neg (by omega), getElem?_blockAt, if_pos short, Nat.add_mul]
  · next long =>
    split <;> rw [getElem?_blockAt, if_neg long]

/-! ## The list of the blocks -/

def chunks (size count : Nat) (items : List α) : List (List α) :=
  (List.range count).map (blockAt size items)

def chunksExact : List (List α) :=
  chunks size (items.length / size) items

variable {size count : Nat} {items : List α}

@[simp]
theorem length_chunks : (chunks size count items).length = count := by
  simp [chunks]

theorem length_of_mem_chunks (enough : count * size ≤ items.length) :
    ∀ chunk ∈ chunks size count items, chunk.length = size := by
  intro chunk listed
  obtain ⟨index, inside, rfl⟩ := mem_map.mp listed
  have block : (index + 1) * size ≤ count * size :=
    Nat.mul_le_mul_right size (mem_range.mp inside)
  rw [Nat.succ_mul] at block
  rw [blockAt, length_take, length_drop]
  omega

theorem chunks_add (first second : Nat) (items : List α) : chunks size (first + second) items =
      chunks size first items ++ chunks size second (items.drop (first * size)) := by
  simp only [chunks, range_add, map_append, map_map]
  congr 2
  funext index
  simp [blockAt, Nat.add_mul]

theorem chunks_take {enough : Nat} (covers : count * size ≤ enough) (items : List α) :
    chunks size count (items.take enough) = chunks size count items := by
  refine map_congr_left fun index inside => ?_
  have block : (index + 1) * size ≤ count * size :=
    Nat.mul_le_mul_right size (mem_range.mp inside)
  rw [Nat.succ_mul] at block
  rw [blockAt, blockAt, drop_take, take_take, Nat.min_eq_left (by omega)]

theorem flatten_chunks (count : Nat) (items : List α) :
    (chunks size count items).flatten = items.take (count * size) := by
  have blocks := flatMap_blockAt size items 0 count
  simpa [chunks, flatMap_def] using blocks

theorem chunks_flatten {rows : List (List α)} (sized : ∀ row ∈ rows, row.length = size) :
    chunks size rows.length rows.flatten = rows := by
  induction rows with
  | nil => rfl
  | cons row rows ih =>
    have length := sized row mem_cons_self
    have front : chunks size 1 (row ++ rows.flatten) = [row] := by
      simp [chunks, blockAt, take_left' length]
    rw [length_cons, Nat.add_comm, flatten_cons, chunks_add, front, Nat.one_mul, drop_left' length,
      ih fun other listed => sized other (.tail row listed), singleton_append]

theorem chunks_mul (count width : Nat) (items : List α) : chunks size (count * width) items =
      (chunks (width * size) count items).flatMap (chunks size width) := by
  induction count generalizing items with
  | zero => simp [chunks]
  | succ count ih =>
    have front : chunks (width * size) 1 items = [items.take (width * size)] := by
      simp [chunks, blockAt]
    rw [Nat.succ_mul, Nat.add_comm, chunks_add, ih, Nat.add_comm count, chunks_add, front,
      flatMap_append, flatMap_singleton, chunks_take (Nat.le_refl _), Nat.one_mul]

end Ryll
