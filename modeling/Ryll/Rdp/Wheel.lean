import Ryll.Rdp.Input

/-!
# Rotation of the wheel

Rotation is sent in whole notches and the rest is carried to the next event.  An event that asks
for too many clicks leaves eight notches of the other direction behind, which a reversal then
sends.  Without such events nothing is lost and nothing is added.
-/

namespace Ryll.SpiceInputHandler

section

variable (handler : SpiceInputHandler) (units : Int)

/-- What an event adds up to with the rotation carried from before, if it does not reverse it. -/
def gathered : Int :=
  let reversed :=
    (0 < units ∧ handler.wheelRemainder < 0) ∨ (units < 0 ∧ 0 < handler.wheelRemainder)
  saturatingAdd (if reversed then 0 else handler.wheelRemainder) units

def asked : Int := (handler.gathered units).tdiv wheelUnitsPerNotch

def eventsOffered : List InputEvent := handler.offers.map Offer.event

variable (turning : Int × (Nat → Bool))

/-- A wheel event, with the answers of the queue. -/
def turn : Option SpiceInputHandler :=
  some (handler.wheel turning.2 turning.1)

/-- No more is asked for than one event may send. -/
def Modest : Prop :=
  (handler.asked turning.1).natAbs ≤ maxWheelClicksPerEvent

instance (turning : Int × (Nat → Bool)) : Decidable (handler.Modest turning) :=
  inferInstanceAs (Decidable (_ ≤ _))

theorem sendAll_keeps (answers : Nat → Bool) (events : List InputEvent) :
    (handler.sendAll answers events).1.eventsOffered = handler.eventsOffered ++ events ∧
      (handler.sendAll answers events).1.pointer = handler.pointer ∧
      (handler.sendAll answers events).1.wheelRemainder = handler.wheelRemainder := by
  induction events generalizing handler answers with
  | nil => simp [sendAll]
  | cons event events ih =>
    obtain ⟨offered, kept⟩ :=
      ih (handler.send (answers 0) event none) fun index => answers (index + 1)
    exact ⟨offered.trans (by simp [eventsOffered, send]), kept⟩

theorem wheel_effect (answers : Nat → Bool) :
    ∃ clicks, (handler.wheel answers units).eventsOffered =
        handler.eventsOffered ++ handler.pointer.wheel clicks ∧
      (handler.wheel answers units).pointer = handler.pointer ∧
      (handler.Modest (units, answers) ∧ clicks = handler.asked units ∧
          (handler.wheel answers units).wheelRemainder =
            handler.gathered units - handler.asked units * 120 ∨
        8 < handler.asked units ∧ clicks = 8 ∨ handler.asked units < -8 ∧ clicks = -8) := by
  by_cases still : handler.asked units = 0
  · rw [show handler.wheel answers units = { handler with wheelRemainder := handler.gathered units }
      from if_pos still]
    exact ⟨0, by simp [PointerTranslator.wheel, eventsOffered], rfl, .inl (by simp [Modest, still])⟩
  let chosen : Int × Int :=
    if maxWheelClicksPerEvent < (handler.asked units).natAbs then
      ((handler.asked units).sign * maxWheelClicksPerEvent, 0)
    else (handler.asked units, handler.gathered units)
  have sent : handler.wheel answers units =
      (sendAll { handler with wheelRemainder := chosen.2 - chosen.1 * wheelUnitsPerNotch } answers
        (handler.pointer.wheel chosen.1)).1 := if_neg still
  rw [sent]
  by_cases flood : maxWheelClicksPerEvent < (handler.asked units).natAbs
  · simp only [chosen, if_pos flood]
    obtain ⟨offered, pointer, -⟩ := sendAll_keeps _ answers _
    refine ⟨_, offered, pointer, .inr ?_⟩
    rw [maxWheelClicksPerEvent] at flood ⊢
    rcases Int.lt_or_lt_of_ne still with down | up
    · rw [Int.sign_eq_neg_one_of_neg down]
      omega
    · rw [Int.sign_eq_one_of_pos up]
      omega
  · simp only [chosen, if_neg flood]
    obtain ⟨offered, pointer, remainder⟩ := sendAll_keeps _ answers _
    exact ⟨_, offered, pointer, .inl ⟨Nat.le_of_not_lt flood, rfl, remainder⟩⟩

/-- Division towards zero, for either direction. -/
theorem tdiv_notch (total : Int) : 0 ≤ total ∧ total.tdiv wheelUnitsPerNotch = total / 120 ∨
      total ≤ 0 ∧ total.tdiv wheelUnitsPerNotch = -(-total / 120) := by
  rcases Int.le_total 0 total with up | down
  · exact .inl ⟨up, Int.tdiv_eq_ediv_of_nonneg up⟩
  · refine .inr ⟨down, ?_⟩
    rw [← Int.tdiv_eq_ediv_of_nonneg (Int.neg_nonneg_of_nonpos down), Int.neg_tdiv, Int.neg_neg]
    rfl

theorem wheel_bounded (small : handler.wheelRemainder.natAbs < 120) (answers : Nat → Bool) :
    ∃ clicks, (handler.wheel answers units).eventsOffered =
        handler.eventsOffered ++ handler.pointer.wheel clicks ∧
      (0 < clicks → 0 < units) ∧ (clicks < 0 → units < 0) ∧
      clicks.natAbs ≤ min 8 ((units.natAbs + 119) / 120) := by
  obtain ⟨clicks, offered, -, sent⟩ := handler.wheel_effect units answers
  have notches : _ ∨ _ := tdiv_notch (handler.gathered units)
  rw [← asked] at notches
  unfold Modest maxWheelClicksPerEvent at sent
  unfold gathered saturatingAdd at notches
  dsimp only at sent notches
  exact ⟨clicks, offered, by omega⟩

variable {handler units}

theorem wheel_modest {answers : Nat → Bool} (modest : handler.Modest (units, answers)) :
    (handler.wheel answers units).eventsOffered =
        handler.eventsOffered ++ handler.pointer.wheel (handler.asked units) ∧
      (handler.wheel answers units).pointer = handler.pointer ∧
      (handler.wheel answers units).wheelRemainder =
        handler.gathered units - handler.asked units * 120 := by
  obtain ⟨clicks, offered, pointer, ⟨-, rfl, remainder⟩ | flood⟩ :=
    handler.wheel_effect units answers
  · exact ⟨offered, pointer, remainder⟩
  · rw [Modest, maxWheelClicksPerEvent] at modest
    dsimp only at modest
    omega

theorem turn_carries {next : SpiceInputHandler} (turning : Int × (Nat → Bool))
    (modest : handler.Modest turning) (turned : handler.turn turning = some next) :
    next.wheelRemainder.natAbs < 120 := by
  cases turned
  have notches := tdiv_notch (handler.gathered turning.1)
  rw [(wheel_modest modest).2.2, asked]
  omega

/-! ## Rotation in one direction -/

theorem wheel_append (pointer : PointerTranslator) {first second : Int}
    (along : 0 ≤ first ∧ 0 ≤ second ∨ first ≤ 0 ∧ second ≤ 0) :
    pointer.wheel first ++ pointer.wheel second = pointer.wheel (first + second) := by
  by_cases none : first = 0
  · simp [none, PointerTranslator.wheel]
  by_cases none' : second = 0
  · simp [none', PointerTranslator.wheel]
  have sum : (first + second).natAbs = first.natAbs + second.natAbs := by omega
  have way : (0 < second ↔ 0 < first) ∧ (0 < first + second ↔ 0 < first) := by omega
  simp only [PointerTranslator.wheel, way, sum, List.range_add, List.flatMap_append,
    List.flatMap_map]

/-- What is left of a rotation once its notches are sent. -/
def leftOver (total : Int) : Int := total - total.tdiv wheelUnitsPerNotch * 120

theorem asked_along {total : Int} (along : 0 ≤ total ∧ 0 < units ∨ total ≤ 0 ∧ units < 0)
    (gathers : handler.gathered units = saturatingAdd (leftOver total) units)
    (modest : (handler.asked units).natAbs ≤ 8) :
    total.tdiv wheelUnitsPerNotch + handler.asked units = (total + units).tdiv wheelUnitsPerNotch ∧
      handler.gathered units - handler.asked units * 120 = leftOver (total + units) ∧
      (0 ≤ total.tdiv wheelUnitsPerNotch ∧ 0 ≤ handler.asked units ∨
        total.tdiv wheelUnitsPerNotch ≤ 0 ∧ handler.asked units ≤ 0) := by
  have notches : _ ∨ _ := tdiv_notch (handler.gathered units)
  have before := tdiv_notch total
  have after := tdiv_notch (total + units)
  rw [← asked] at notches
  unfold saturatingAdd leftOver at gathers
  unfold leftOver
  omega

theorem run_turn (events : List InputEvent) (total : Int) {pointer : PointerTranslator}
    {turns : List (Int × (Nat → Bool))} {last : SpiceInputHandler}
    (along : (0 ≤ total ∧ ∀ turning ∈ turns, 0 < turning.1) ∨
      (total ≤ 0 ∧ ∀ turning ∈ turns, turning.1 < 0)) (carried : ∀ turning ∈ turns,
      handler.gathered turning.1 = saturatingAdd (leftOver total) turning.1)
    (placed : handler.pointer = pointer)
    (sent : handler.eventsOffered = events ++ pointer.wheel (total.tdiv wheelUnitsPerNotch))
    (modest : Meets turn Modest handler turns) (reached : run turn handler turns = some last) :
    last.eventsOffered = events ++ pointer.wheel
      ((total + (turns.map Prod.fst).sum).tdiv wheelUnitsPerNotch) := by
  induction turns generalizing handler total with
  | nil =>
    cases reached
    simpa using sent
  | cons turning turns ih =>
    obtain ⟨next, stepped, rest⟩ := run_cons.mp reached
    have later := modest.2 next stepped
    cases stepped
    simp only [List.forall_mem_cons] at along carried
    obtain ⟨notches, left, signs⟩ := asked_along (by grind) carried.1 modest.1
    obtain ⟨offered, still, remainder⟩ := wheel_modest modest.1
    rw [List.map_cons, List.sum_cons, ← Int.add_assoc]
    refine ih (total + turning.1) (by grind) (fun other member => ?_) (still.trans placed) ?_ later
      rest
    · have notches := tdiv_notch (total + turning.1)
      have along : 0 ≤ total + turning.1 ∧ 0 < other.1 ∨ total + turning.1 ≤ 0 ∧ other.1 < 0 := by
        grind
      rw [gathered, remainder.trans left, if_neg (by unfold leftOver; omega)]
    · rw [offered, sent, placed, List.append_assoc, wheel_append pointer signs, notches]

end

/-- While no event asks for more clicks than one may send, less than a notch is carried, and events
in one direction that start afresh send the whole notches of their sum. -/
theorem rotation_accounted {start handler : SpiceInputHandler}
    {turns : List (Int × (Nat → Bool))} (reset : start.wheelRemainder = 0)
    (modest : Meets turn Modest start turns) (reached : run turn start turns = some handler) :
    handler.wheelRemainder.natAbs < 120 ∧ (∀ units answers, ∃ clicks,
        (handler.wheel answers units).eventsOffered =
            handler.eventsOffered ++ handler.pointer.wheel clicks ∧
          (0 < clicks → 0 < units) ∧ (clicks < 0 → units < 0) ∧
          clicks.natAbs ≤ min 8 ((units.natAbs + 119) / 120)) ∧ ∀ stretch last,
        (handler.wheelRemainder ≤ 0 ∧ ∀ turning ∈ stretch, 0 < turning.1) ∨
            (0 ≤ handler.wheelRemainder ∧ ∀ turning ∈ stretch, turning.1 < 0) →
          Meets turn Modest handler stretch → run turn handler stretch = some last →
          last.eventsOffered = handler.eventsOffered ++
            handler.pointer.wheel ((stretch.map Prod.fst).sum.tdiv 120) := by
  have small : handler.wheelRemainder.natAbs < 120 :=
    run_invariant (fun _ turning _ _ modest => turn_carries turning modest) (by rw [reset]; decide)
      modest reached
  refine ⟨small, fun units => handler.wheel_bounded units small, ?_⟩
  intro stretch last fresh asks turned
  have sent := run_turn handler.eventsOffered 0 (fresh.imp (⟨le_rfl, ·.2⟩) (⟨le_rfl, ·.2⟩))
    (fun turning member => ?_) rfl (by simp [PointerTranslator.wheel]) asks turned
  · rwa [Int.zero_add] at sent
  · rw [gathered]
    congr 1
    change _ = (0 : Int)
    split <;> grind

/-- Half a notch up is dropped by two halves down, which send one click. -/
theorem halves_accounted :
    (((new.wheel (fun _ => true) 60).wheel (fun _ => true) (-60)).wheel (fun _ => true)
      (-60)).eventsOffered = new.pointer.wheel (-1) :=
  (rotation_accounted rfl (by decide : Meets turn Modest new [(60, fun _ => true)]) rfl).2.2
    [(-60, fun _ => true), (-60, fun _ => true)] _ (.inr (by decide)) (by decide) rfl

/-- After nine notches in one event the smallest turn back sends eight clicks. -/
theorem flood_reversed : (new.wheel (fun _ => true) 1080).wheelRemainder = -960 ∧
      ((new.wheel (fun _ => true) 1080).wheel (fun _ => true) (-1)).eventsOffered =
        new.pointer.wheel 8 ++ new.pointer.wheel (-8) :=
  ⟨rfl, rfl⟩

end Ryll.SpiceInputHandler
