import Mathlib

/-!
# Openings that are followed by a closing

A log has entries that open something and entries that close it.  Nothing is left open when every
opening entry is followed by a closing one.
-/

namespace Ryll

open List

variable {α : Type} {opens closes : α → Prop} {log tail : List α} {entry : α}

/-- Every opening entry has a closing one behind it. -/
def Followed (opens closes : α → Prop) (log : List α) : Prop :=
  ∀ before entry after, log = before ++ entry :: after → opens entry → ∃ later ∈ after, closes later

theorem not_followed_iff : ¬ Followed opens closes log ↔
      ∃ before entry after, log = before ++ entry :: after ∧ opens entry ∧
        ∀ later ∈ after, ¬ closes later := by
  simp only [Followed, not_forall, not_exists, not_and, exists_prop]

theorem followed_nil : Followed opens closes [] := by
  intro before entry after split
  simp at split

theorem followed_concat : Followed opens closes (log ++ [entry]) ↔
      ¬ opens entry ∧ (closes entry ∨ Followed opens closes log) := by
  constructor
  · intro followed
    constructor
    · intro opening
      obtain ⟨later, member, -⟩ := followed log entry [] rfl opening
      cases member
    · by_cases closing : closes entry
      · exact .inl closing
      · right
        intro before first after split opening
        obtain ⟨later, member, closed⟩ :=
          followed before first (after ++ [entry]) (by simp [split]) opening
        rcases mem_append.mp member with inside | last
        · exact ⟨later, inside, closed⟩
        · rw [mem_singleton.mp last] at closed
          exact absurd closed closing
  · rintro ⟨other, closing⟩ before first after split opening
    rcases eq_nil_or_concat after with rfl | ⟨middle, last, rfl⟩
    · -- The opening entry would be the last one, which does not open.
      obtain ⟨-, same⟩ := append_inj' split rfl
      exact absurd opening (singleton_inj.mp same ▸ other)
    · have split' : log ++ [entry] = (before ++ first :: middle) ++ [last] := by simpa using split
      obtain ⟨split'', same⟩ := append_inj' split' rfl
      rcases closing with closing | followed
      · exact ⟨last, by simp, singleton_inj.mp same ▸ closing⟩
      · obtain ⟨later, inside, closed⟩ := followed before first middle split'' opening
        exact ⟨later, by simp [inside], closed⟩

theorem followed_append (other : ∀ entry ∈ tail, ¬ opens entry) :
    Followed opens closes (log ++ tail) ↔
      (∃ entry ∈ tail, closes entry) ∨ Followed opens closes log := by
  induction tail using List.reverseRecOn with
  | nil => simp
  | append_singleton tail entry ih =>
    have earlier := ih fun entry member => other entry (mem_append_left _ member)
    rw [← append_assoc, followed_concat, earlier]
    have last : ¬ opens entry := other entry (by simp)
    simp only [last, not_false_eq_true, true_and, mem_append, mem_singleton, or_and_right,
      exists_or, exists_eq_left]
    rw [or_assoc, or_left_comm]

theorem Followed.mono {opens' closes' : α → Prop} (fewer : ∀ entry, opens' entry → opens entry)
    (more : ∀ entry, closes entry → closes' entry) (followed : Followed opens closes log) :
    Followed opens' closes' log := by
  intro before entry after split opening
  obtain ⟨later, member, closed⟩ := followed before entry after split (fewer entry opening)
  exact ⟨later, member, more later closed⟩

theorem followed_filter {kept : α → Bool} : Followed opens closes (log.filter kept) ↔
      Followed (fun entry => kept entry ∧ opens entry) (fun entry => kept entry ∧ closes entry)
        log := by
  induction log using List.reverseRecOn with
  | nil => simp [followed_nil]
  | append_singleton log entry ih =>
    rw [filter_append, followed_concat]
    by_cases keep : kept entry
    · simp [keep, followed_concat, ih]
    · simp [keep, ih]

end Ryll
