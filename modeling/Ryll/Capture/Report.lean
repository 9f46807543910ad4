import Ryll.Capture.Traffic

/-!
# The traffic of a bug report

A report takes the frames of the rings in the order of their times and writes the newest of them
that fit its budget.  A message may be several frames, which are written together or not at all.
-/

namespace Ryll.Capture

open List

def pcapFileHeaderBytes : Nat := 24

def pcapRecordHeaderBytes : Nat := 16

/-- An entry with the time it was recorded at. -/
structure StampedEntry extends TrafficEntry where
  timestamp : Nat

def StampedEntry.segments (entry : StampedEntry) : List (Nat × Bytes) :=
  entry.frames.map (entry.timestamp, ·)

section

variable (bufferFor : String → Option (List StampedEntry)) (channels : List String)

def recorded : List StampedEntry := (channels.filterMap bufferFor).flatten

def collectSegments : List (Nat × Bytes) :=
  ((recorded bufferFor channels).flatMap StampedEntry.segments).mergeSort (·.1 ≤ ·.1)

end

variable (segments : List (Nat × Bytes)) (budgetBytes : Nat)

/-- The oldest segment that fits along with those after it, which use up `used` bytes. -/
def oldestFitting : Nat → Nat → Nat
  | 0, _ => 0
  | start + 1, used =>
    let cost := pcapRecordHeaderBytes + (segments[start]?.getD (0, [])).2.length
    if used + cost > budgetBytes then start + 1 else oldestFitting start (used + cost)

/-- Move past the segments of a time. -/
def pastCut (cut start : Nat) : Nat :=
  if inside : start < segments.length then
    if segments[start].1 = cut then pastCut cut (start + 1) else start
  else
    start
termination_by segments.length - start

def newestWithinBudget : Nat :=
  let start := oldestFitting segments budgetBytes segments.length pcapFileHeaderBytes
  if start > 0 then pastCut segments (segments[start - 1]?.getD (0, [])).1 start else start

def pcapSize : Nat :=
  pcapFileHeaderBytes + (segments.map fun segment => pcapRecordHeaderBytes + segment.2.length).sum

/-- The segments from `start` on do not begin in the middle of a group of equal times. -/
def BeginsGroup (start : Nat) : Prop :=
  ∀ older newer, 0 < start → segments[start - 1]? = some older → segments[start]? = some newer →
    older.1 ≠ newer.1

variable {segments budgetBytes}

theorem pcapSize_drop_le {start later : Nat} (ordered : start ≤ later) :
    pcapSize (segments.drop later) ≤ pcapSize (segments.drop start) := by
  have split := take_append_drop (later - start) (segments.drop start)
  rw [drop_drop, Nat.add_sub_cancel' ordered] at split
  rw [← split, pcapSize, pcapSize, map_append, sum_append]
  omega

theorem oldestFitting_isLeast {start : Nat} (inside : start ≤ segments.length)
    (fits : pcapSize (segments.drop start) ≤ budgetBytes) :
    IsLeast {start | pcapSize (segments.drop start) ≤ budgetBytes}
      (oldestFitting segments budgetBytes start (pcapSize (segments.drop start))) := by
  induction start with
  | zero => exact ⟨fits, fun _ _ => Nat.zero_le _⟩
  | succ start ih =>
    have grown : pcapSize (segments.drop (start + 1)) +
        (pcapRecordHeaderBytes + (segments[start]?.getD (0, [])).2.length) =
          pcapSize (segments.drop start) := by
      rw [drop_eq_getElem_cons inside, pcapSize, pcapSize, map_cons, sum_cons,
        getElem?_eq_getElem inside, Option.getD_some]
      omega
    rw [oldestFitting, grown]
    split
    · next exceeds =>
      refine ⟨fits, fun earlier within => Nat.lt_of_not_le fun before => ?_⟩
      exact Nat.not_le_of_gt exceeds (Nat.le_trans (pcapSize_drop_le before) within)
    · next under => exact ih (Nat.le_of_lt inside) (Nat.le_of_not_lt under)

/-- After a segment of the time `cut`, the loop goes to the next place where a group begins. -/
theorem pastCut_isLeast {cut start : Nat} (positive : 0 < start) {older : Nat × Bytes}
    (before : segments[start - 1]? = some older) (timed : older.1 = cut) :
    IsLeast {later | start ≤ later ∧ BeginsGroup segments later} (pastCut segments cut start) := by
  fun_induction pastCut generalizing older with
  | case1 start inside same ih =>
    obtain ⟨⟨further, begins⟩, least⟩ := ih (Nat.succ_pos _) (getElem?_eq_getElem inside) same
    refine ⟨⟨Nat.le_of_succ_le further, begins⟩, fun later ⟨ordered, grouped⟩ => ?_⟩
    refine least ⟨Nat.lt_of_le_of_ne ordered ?_, grouped⟩
    rintro rfl
    exact grouped older _ positive before (getElem?_eq_getElem inside) (timed.trans same.symm)
  | case2 start inside differs =>
    refine ⟨⟨Nat.le_refl _, fun _ _ _ found next same => differs ?_⟩, fun _ later => later.1⟩
    cases before.symm.trans found
    cases (getElem?_eq_getElem inside).symm.trans next
    exact same.symm.trans timed
  | case3 start outside =>
    refine ⟨⟨Nat.le_refl _, fun _ _ _ _ next => ?_⟩, fun _ later => later.1⟩
    cases (getElem?_eq_none (Nat.le_of_not_lt outside)).symm.trans next

theorem newestWithinBudget_isLeast (room : pcapFileHeaderBytes ≤ budgetBytes) :
    IsLeast {start | pcapSize (segments.drop start) ≤ budgetBytes ∧ BeginsGroup segments start}
      (newestWithinBudget segments budgetBytes) := by
  have empty : pcapSize (segments.drop segments.length) = pcapFileHeaderBytes := by
    rw [drop_length]
    rfl
  obtain ⟨fits, least⟩ := oldestFitting_isLeast (Nat.le_refl _) (empty ▸ room)
  rw [empty] at fits least
  rw [newestWithinBudget]
  generalize oldestFitting segments budgetBytes _ _ = start at fits least ⊢
  split
  · next positive =>
    have inside : start - 1 < segments.length := by
      have bound := least (show pcapSize (segments.drop segments.length) ≤ _ from empty ▸ room)
      omega
    obtain ⟨⟨further, begins⟩, first⟩ := pastCut_isLeast positive (getElem?_eq_getElem inside) rfl
    rw [getElem?_eq_getElem inside, Option.getD_some]
    exact ⟨⟨Nat.le_trans (pcapSize_drop_le further) fits, begins⟩,
      fun later ⟨within, grouped⟩ => first ⟨least within, grouped⟩⟩
  · next first =>
    exact ⟨⟨fits, fun _ _ positive => absurd positive first⟩, fun _ within => least within.1⟩

theorem filter_drop (sorted : segments.Pairwise (·.1 ≤ ·.1)) {start : Nat}
    (begins : BeginsGroup segments start) (time : Nat) :
    (segments.drop start).filter (·.1 = time) = [] ∨
      (segments.drop start).filter (·.1 = time) = segments.filter (·.1 = time) := by
  have ordered {i j : Nat} (inside : j < segments.length) (before : i ≤ j) :
      segments[i].1 ≤ segments[j].1 := by
    obtain rfl | before := Nat.eq_or_lt_of_le before
    · exact Nat.le_refl _
    · exact pairwise_iff_getElem.mp sorted i j _ inside before
  by_contra neither
  obtain ⟨some_kept, some_left⟩ := not_or.mp neither
  have split := filter_append (p := (·.1 = time)) (segments.take start) (segments.drop start)
  rw [take_append_drop] at split
  have some_taken : (segments.take start).filter (·.1 = time) ≠ [] := fun empty =>
    some_left (by rw [split, empty, nil_append])
  obtain ⟨_, taken⟩ := exists_mem_of_ne_nil _ some_taken
  obtain ⟨_, dropped⟩ := exists_mem_of_ne_nil _ some_kept
  rw [mem_filter, decide_eq_true_iff] at taken dropped
  obtain ⟨i, bound, rfl⟩ := mem_take_iff_getElem.mp taken.1
  obtain ⟨j, inside, rfl⟩ := mem_drop_iff_getElem.mp dropped.1
  refine begins _ _ (by omega) (getElem?_eq_getElem (by omega)) (getElem?_eq_getElem (by omega)) ?_
  have first := ordered (i := i) (j := start - 1) (by omega) (by omega)
  have next := ordered (i := start - 1) (j := start) (by omega) (by omega)
  have last := ordered (i := start) (j := start + j) (by omega) (by omega)
  omega

/-- The report takes the longest run of newest segments that fits and starts with a whole group of
equal times, so it has all segments of a message or none. -/
theorem pcap_keeps_whole_messages (room : pcapFileHeaderBytes ≤ budgetBytes) :
    (∀ segments, IsLeast
      {start | pcapSize (segments.drop start) ≤ budgetBytes ∧ BeginsGroup segments start}
      (newestWithinBudget segments budgetBytes)) ∧
    ∀ bufferFor channels time,
      let segments := collectSegments bufferFor channels
      let kept := segments.drop (newestWithinBudget segments budgetBytes)
      kept.filter (·.1 = time) = [] ∨ kept.filter (·.1 = time) ~
        ((recorded bufferFor channels).flatMap StampedEntry.segments).filter (·.1 = time) := by
  refine ⟨fun _ => newestWithinBudget_isLeast room, fun bufferFor channels time => ?_⟩
  have sorted : (collectSegments bufferFor channels).Pairwise (·.1 ≤ ·.1) :=
    (pairwise_mergeSort (by simp; omega) (by simp; omega) _).imp of_decide_eq_true
  refine (filter_drop sorted (newestWithinBudget_isLeast room).1.2 time).imp_right fun whole => ?_
  rw [whole]
  exact (mergeSort_perm _ _).filter _

theorem pcap_of_pair_fits :
    newestWithinBudget [(1, [7]), (2, [8]), (2, [9])] 60 = 1 ∧
      pcapSize ([(1, [7]), (2, [8]), (2, [9])].drop
        (newestWithinBudget [(1, [7]), (2, [8]), (2, [9])] 60)) ≤ 60 :=
  ⟨by decide +kernel, ((pcap_keeps_whole_messages (by decide)).1 _).1.1⟩

end Ryll.Capture
