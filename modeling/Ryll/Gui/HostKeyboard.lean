import Ryll.Foundation.Followed
import Ryll.Foundation.Runs
import Ryll.Gui.HeldKeys

/-!
# A host keyboard and the keys pressed in the guest

A host keyboard off macOS gives each physical key a logical one.  A press, or a repeat, that makes a
clipboard chord with the modifiers of that moment is reported to the GUI as the clipboard event, and
any other as a key press, while each release is reported as a release.  The GUI sends a clipboard
event as the key in the US position, which on other layouts differs from the key that is down.
-/

namespace Ryll

open List HeldKeys HostShortcut Option AList

/-- The modifiers held on the host. -/
structure HostModifiers where
  alt : Bool
  ctrl : Bool
  shift : Bool

def HostModifiers.egui (modifiers : HostModifiers) : EguiModifiers :=
  ⟨modifiers.alt, modifiers.ctrl, modifiers.shift, false, modifiers.ctrl⟩

/-- A keyboard: the physical keys that are down, other than modifiers, and the modifiers. -/
structure HostKeyboard where
  down : Finset EguiKey
  modifiers : HostModifiers

/-- What happens at the keyboard.  A press comes with whether the host clipboard holds text. -/
inductive HostAction
  | modifiers (modifiers : HostModifiers)
  | press (key : EguiKey) (text : Bool)
  /-- An auto-repeat of a key that is down. -/
  | again (key : EguiKey) (text : Bool)
  | release (key : EguiKey)

def ClipboardChord.event : ClipboardChord → EguiEvent
  | .cut => .cut
  | .copy => .copy
  | .paste => .paste

def chordOf (windows : Bool) (modifiers : HostModifiers) (logical : EguiKey) :
    Option ClipboardChord :=
  if modifiers.ctrl ∧ logical = .x ∨ windows ∧ modifiers.shift ∧ logical = .delete then some .cut
  else if modifiers.ctrl ∧ logical = .c ∨ windows ∧ modifiers.ctrl ∧ logical = .insert then
    some .copy
  else if modifiers.ctrl ∧ logical = .v ∨ windows ∧ modifiers.shift ∧ logical = .insert then
    some .paste
  else none

section

variable (layout : EguiKey → EguiKey) (windows : Bool)

def reportPress (modifiers : HostModifiers) (key : EguiKey) (text : Bool) : List EguiEvent :=
  match chordOf windows modifiers (layout key) with
  | some chord => if chord = .paste ∧ ¬text then [] else [chord.event]
  | none => [.key (layout key) (some key) true modifiers.egui]

def HostKeyboard.act (host : HostKeyboard) : HostAction → Option (HostKeyboard × List EguiEvent)
  | .modifiers modifiers => some ({ host with modifiers }, [.modifiersChanged modifiers.egui])
  | .press key text =>
    if key ∈ host.down then none
    else some ({ host with down := insert key host.down },
      reportPress layout windows host.modifiers key text)
  | .again key text =>
    if key ∈ host.down then some (host, reportPress layout windows host.modifiers key text)
    else none
  | .release key =>
    if key ∈ host.down then
      some ({ host with down := host.down.erase key },
        [.key (layout key) (some key) false host.modifiers.egui])
    else none

def HostKeyboard.frame (host : HostKeyboard) :
    List HostAction → Option (HostKeyboard × List EguiEvent)
  | [] => some (host, [])
  | action :: actions => do
    let (host, events) ← host.act layout windows action
    let (host, later) ← host.frame actions
    return (host, events ++ later)

end

/-- A keyboard, the GUI and what the GUI sent to the guest. -/
structure KeyWorld where
  host : HostKeyboard
  keys : HeldKeys
  sent : List InputEvent

namespace KeyWorld

def start : KeyWorld := ⟨⟨∅, ⟨false, false, false⟩⟩, .new, []⟩

def translate (world : KeyWorld) (host : HostKeyboard) (events : List EguiEvent) : KeyWorld :=
  let (keys, sent) := world.keys.translateKeyEvents events
  ⟨host, keys, world.sent ++ sent⟩

section

variable (layout : EguiKey → EguiKey) (windows : Bool) (world : KeyWorld)

def frame (actions : List HostAction) : Option KeyWorld := do
  let (host, events) ← world.host.frame layout windows actions
  return world.translate host events

def act (action : HostAction) : Option KeyWorld := do
  let (host, events) ← world.host.act layout windows action
  return world.translate host events

/-- If the release of a key reported as pressed would end a chord, the key sent for it is down. -/
def KeyApart (key : EguiKey) : Prop :=
  key ∉ world.keys.held → ∀ chord, world.keys.endedChord (layout key) = some chord →
    ∀ sent, world.keys.clipboard chord = some (some sent) → sent ∈ world.host.down

/-- A chord is newly made with the key that is sent, or with one that is not held, no shortcut, and
whose release ends no other chord, and no host key stands for that of another chord. -/
def ChordApart (key : EguiKey) (chord : ClipboardChord) : Prop :=
  ∀ sent, chord.replacedKey world.host.modifiers.egui = some sent → sent ∉ world.keys.held →
    (∀ other known, world.keys.clipboard other = some (some known) → known ∈ world.host.down) ∧
    (sent = key ∨ key ∉ world.keys.held ∧ isShortcutKey key = false ∧
      world.keys.endedChord (layout key) = none)

/-- While a key is down it is sent to the guest as one key, which no other key is sent as. -/
def Paired : HostAction → Prop
  | .press key text | .again key text =>
    match chordOf windows world.host.modifiers (layout key) with
    | some chord => ¬(chord = .paste ∧ ¬text) → world.ChordApart layout key chord
    | none => world.KeyApart layout key
  | _ => True

end

end KeyWorld

/-- Each press of a code is followed by its release. -/
def KeyReleased (press : UInt32) (sent : List InputEvent) : Prop :=
  Followed (· = .keyDown press) (· = .keyUp (breakCode press)) sent

/-! ## Frames -/

theorem translateKeyEvents_append (keys : HeldKeys) (first second : List EguiEvent) :
    keys.translateKeyEvents (first ++ second) =
      (((keys.translateKeyEvents first).1.translateKeyEvents second).1,
        (keys.translateKeyEvents first).2 ++
          ((keys.translateKeyEvents first).1.translateKeyEvents second).2) := by
  induction first generalizing keys with
  | nil => rfl
  | cons event events ih =>
    simp only [cons_append, translateKeyEvents, ih, append_assoc]

namespace KeyWorld

variable {layout : EguiKey → EguiKey} {windows : Bool}

theorem frame_eq_run (world : KeyWorld) (actions : List HostAction) :
    world.frame layout windows actions = run (act layout windows) world actions := by
  induction actions generalizing world with
  | nil => simp [frame, HostKeyboard.frame, run, translate, translateKeyEvents]
  | cons action actions ih =>
    rw [run, frame, HostKeyboard.frame, act]
    cases acted : world.host.act layout windows action with
    | none => rfl
    | some result =>
      obtain ⟨host, events⟩ := result
      simp only [Option.bind_eq_bind, Option.bind_some, Option.pure_def, ← ih, frame]
      have same : (world.translate host events).host = host := rfl
      rw [same]
      cases host.frame layout windows actions with
      | none => rfl
      | some later =>
        exact congrArg some (by simp only [translate, translateKeyEvents_append, append_assoc])

theorem run_act_of_frames {world final : KeyWorld} {frames : List (List HostAction)}
    (ran : run (frame layout windows) world frames = some final) :
    run (act layout windows) world frames.flatten = some final := by
  induction frames generalizing world with
  | nil => exact ran
  | cons actions frames ih =>
    obtain ⟨middle, first, rest⟩ := run_cons.mp ran
    rw [frame_eq_run] at first
    exact run_append.mpr ⟨middle, first, ih rest⟩

end KeyWorld

/-! ## The codes that were sent -/

/-- Codes of keys that are not held are released. -/
def KeysSettled (held : AList fun _ : EguiKey => UInt32) (sent : List InputEvent) : Prop :=
  ∀ press, (∀ key ∈ held, ∀ release, key.scancodes ≠ some (press, release)) → KeyReleased press sent

section

variable {held held' : AList fun _ : EguiKey => UInt32} {sent : List InputEvent} {key : EguiKey}
  {downCode upCode : UInt32}

section

variable (settled : KeysSettled held sent)
include settled

theorem KeysSettled.pressed (kept : ∀ other ∈ held, other ∈ held')
    (codes : key.scancodes = some (downCode, upCode)) (held_key : key ∈ held') :
    KeysSettled held' (sent ++ [.keyDown downCode]) := by
  intro press free
  have apart : press ≠ downCode := by
    rintro rfl
    exact free key held_key upCode codes
  refine followed_concat.mpr ⟨fun opens => ?_, .inr (settled press fun other member => ?_)⟩
  · injection opens with same
    exact apart same.symm
  · exact free other (kept other member)

theorem KeysSettled.released (kept : ∀ other ∈ held, other = key ∨ other ∈ held')
    (codes : key.scancodes = some (downCode, upCode)) :
    KeysSettled held' (sent ++ [.keyUp upCode]) := by
  intro press free
  refine followed_concat.mpr ⟨nofun, ?_⟩
  by_cases same : press = downCode
  · subst same
    obtain ⟨logical, -, found⟩ := bind_eq_some_iff.mp codes
    exact .inl (congrArg _ (scancodeForLogicalKey_paired found))
  refine .inr (settled press fun other member release codes' => ?_)
  rcases kept other member with rfl | still
  · rw [codes] at codes'
    injection Option.some.inj codes' with first
    exact same first.symm
  · exact free other still release codes'

theorem KeysSettled.stroke (codes : key.scancodes = some (downCode, upCode)) :
    KeysSettled held (sent ++ [.keyDown downCode, .keyUp upCode]) := by
  have pressed : KeysSettled (held.insert key upCode) (sent ++ [.keyDown downCode]) :=
    settled.pressed (fun other member => (mem_insert _).mpr (.inr member)) codes
      ((mem_insert _).mpr (.inl rfl))
  have released : KeysSettled held (sent ++ [.keyDown downCode] ++ [.keyUp upCode]) :=
    pressed.released (fun other member => (mem_insert _).mp member) codes
  rwa [append_assoc] at released

end

end

/-! ## The chord that a release ends -/

theorem find?_of_fewer {α : Type} {counts counts' : α → Bool} {items : List α} {found : α}
    (first : items.find? counts = some found) (still : counts' found = true)
    (fewer : ∀ item, counts' item = true → counts item = true) :
    items.find? counts' = some found := by
  induction items with
  | nil => nomatch first
  | cons item items ih =>
    cases count : counts item with
    | true =>
      rw [find?_cons_of_pos count] at first
      cases first
      exact find?_cons_of_pos still
    | false =>
      rw [find?_cons_of_neg (Bool.eq_false_iff.mp count)] at first
      have skipped : ¬counts' item = true := fun counted => by
        rw [fewer item counted] at count
        nomatch count
      rw [find?_cons_of_neg skipped]
      exact ih first

theorem find?_of_only {α : Type} {counts : α → Bool} {items : List α} {only : α}
    (listed : only ∈ items) (counted : counts only = true)
    (alone : ∀ item ∈ items, counts item = true → item = only) :
    items.find? counts = some only := by
  induction items with
  | nil => nomatch listed
  | cons item items ih =>
    cases count : counts item with
    | true =>
      obtain rfl := alone item mem_cons_self count
      exact find?_cons_of_pos counted
    | false =>
      rw [find?_cons_of_neg (Bool.eq_false_iff.mp count)]
      rcases mem_cons.mp listed with rfl | later
      · rw [counted] at count
        nomatch count
      · exact ih later fun other member => alone other (mem_cons_of_mem _ member)

variable {chord : ClipboardChord}

theorem ClipboardChord.replacedKey_plain {modifiers : EguiModifiers} {key : EguiKey}
    (replaced : chord.replacedKey modifiers = some key) : isShortcutKey key = false := by
  unfold ClipboardChord.replacedKey at replaced
  split at replaced <;> first
    | (obtain rfl := Option.some.inj replaced; rfl)
    | nomatch replaced

namespace HeldKeys

variable {keys keys' : HeldKeys} {key : EguiKey} {chord : ClipboardChord}

theorem endedChord_of_fewer (ended : keys.endedChord key = some chord)
    (still : keys'.clipboard chord = keys.clipboard chord)
    (fewer : ∀ other, keys'.clipboard other = keys.clipboard other ∨ keys'.clipboard other = none) :
    keys'.endedChord key = some chord := by
  refine find?_of_fewer ended ?_ fun other counted => ?_
  · have counted := find?_some ended
    rw [still]
    exact counted
  · rw [Bool.and_eq_true] at counted ⊢
    refine ⟨counted.1, ?_⟩
    rcases fewer other with same | gone
    · exact same ▸ counted.2
    · rw [gone] at counted
      nomatch counted.2

theorem endedChord_of_only (ended : keys.endedChord key = none) (releases : chord.releasedBy key)
    (outstanding : (keys'.clipboard chord).isSome)
    (same : ∀ other, other ≠ chord → keys'.clipboard other = keys.clipboard other) :
    keys'.endedChord key = some chord := by
  refine find?_of_only (by cases chord <;> decide) ?_ fun other listed counted => ?_
  · rw [releases, outstanding]
    rfl
  · by_contra apart
    rw [same other apart] at counted
    exact find?_eq_none.mp ended other listed counted

theorem takeClipboardChord_of_none (ended : keys.endedChord key = none) :
    keys.takeClipboardChord key = none := by
  simp [takeClipboardChord, ended]

theorem takeClipboardChord_of_ended (ended : keys.endedChord key = some chord) :
    ∃ standing, keys.clipboard chord = some standing ∧ keys.takeClipboardChord key =
      some (standing, { keys with clipboard := Function.update keys.clipboard chord none }) := by
  have counted := find?_some ended
  obtain ⟨standing, outstanding⟩ :=
    isSome_iff_exists.mp (Bool.and_eq_true_iff.mp counted).2
  exact ⟨standing, outstanding, by simp [takeClipboardChord, ended, outstanding]⟩

end HeldKeys

/-! ## The host keys that will release the keys in the guest -/

variable {layout : EguiKey → EguiKey} {windows : Bool}

/-- It is the key itself, or its release ends the chord for which that key was sent. -/
def CoversKey (layout : EguiKey → EguiKey) (keys : HeldKeys) (key sent : EguiKey) : Prop :=
  key = sent ∨ key ∉ keys.held ∧ isShortcutKey key = false ∧
    ∃ chord, keys.endedChord (layout key) = some chord ∧ keys.clipboard chord = some (some sent)

/-- Every key pressed in the guest will be released by a host key that is down. -/
structure KeysCovered (layout : EguiKey → EguiKey) (host : HostKeyboard) (keys : HeldKeys)
    (sent : List InputEvent) : Prop where
  synced : keys.modifiers = host.modifiers.egui
  plain : ∀ key ∈ keys.held, isShortcutKey key = false
  coded : ∀ key upCode, keys.held.lookup key = some upCode →
    ∃ downCode, key.scancodes = some (downCode, upCode)
  covered : ∀ key ∈ keys.held, ∃ down ∈ host.down, CoversKey layout keys down key
  settled : KeysSettled keys.held sent

namespace KeysCovered

variable {host host' : HostKeyboard} {keys : HeldKeys} {sent : List InputEvent} {key : EguiKey}

theorem mono (covered : KeysCovered layout host keys sent) (more : host.down ⊆ host'.down)
    (same : host'.modifiers = host.modifiers) : KeysCovered layout host' keys sent where
  synced := by rw [covered.synced, same]
  plain := covered.plain
  coded := covered.coded
  covered other member := by
    obtain ⟨down, listed, covers⟩ := covered.covered other member
    exact ⟨down, more listed, covers⟩
  settled := covered.settled

variable {upCode : UInt32} {keys' : HeldKeys} {modifiers : EguiModifiers}

theorem press {downCode : UInt32} (covered : KeysCovered layout host keys sent)
    (same : host'.modifiers = host.modifiers) (codes : key.scancodes = some (downCode, upCode))
    (plain : isShortcutKey key = false) (modifiers : keys'.modifiers = keys.modifiers)
    (held : keys'.held = if key ∈ keys.held then keys.held else keys.held.insert key upCode)
    (covers : ∀ other ∈ keys'.held, ∃ down ∈ host'.down, CoversKey layout keys' down other) :
    KeysCovered layout host' keys' (sent ++ [.keyDown downCode]) := by
  have members (other : EguiKey) : other ∈ keys'.held ↔ other = key ∨ other ∈ keys.held := by
    rw [held]
    split
    · rename_i member
      exact ⟨.inr, fun either => either.elim (fun same => same ▸ member) id⟩
    · exact mem_insert _
  refine ⟨?_, ?_, ?_, covers, ?_⟩
  · rw [modifiers, covered.synced, same]
  · intro other member
    rcases (members other).mp member with rfl | earlier
    · exact plain
    · exact covered.plain other earlier
  · intro other code found
    rw [held] at found
    split at found
    · exact covered.coded other code found
    by_cases new : other = key
    · subst new
      rw [lookup_insert] at found
      cases found
      exact ⟨downCode, codes⟩
    · rw [lookup_insert_ne new] at found
      exact covered.coded other code found
  · exact covered.settled.pressed (fun other member => (members other).mpr (.inr member)) codes
      ((members key).mpr (.inl rfl))

section

variable (covered : KeysCovered layout host keys sent) (more : host.down ⊆ host'.down)
  (same : host'.modifiers = host.modifiers) (isDown : key ∈ host'.down)
include covered more same isDown

theorem pressKey (plain : isShortcutKey key = false)
    (apart : KeyWorld.KeyApart layout ⟨host, keys, sent⟩ key) :
    KeysCovered layout host' (keys.pressKey key host'.modifiers.egui).1
      (sent ++ (keys.pressKey key host'.modifiers.egui).2) := by
  unfold HeldKeys.pressKey
  cases codes : key.scancodes with
  | none =>
    rw [append_nil]
    exact covered.mono more same
  | some pair =>
    by_cases member : key ∈ keys.held
    · simp only [if_pos member]
      exact covered.press same codes plain rfl (if_pos member).symm
        (covered.mono more same).covered
    simp only [if_neg member]
    refine covered.press same codes plain rfl (if_neg member).symm fun other listed => ?_
    rcases (mem_insert _).mp listed with rfl | earlier
    · exact ⟨other, isDown, .inl rfl⟩
    obtain ⟨down, isDown', covers⟩ := covered.covered other earlier
    rcases covers with rfl | ⟨unheld, plain', chord, ended, outstanding⟩
    · exact ⟨down, more isDown', .inl rfl⟩
    by_cases new : down = key
    · -- The key stood for another, which is down as well.
      subst new
      exact ⟨other, more (apart member chord ended other outstanding), .inl rfl⟩
    · refine ⟨down, more isDown', .inr ⟨fun inside => ?_, plain', chord, ended, outstanding⟩⟩
      exact ((mem_insert _).mp inside).elim new unheld

theorem pressChord (releases : chord.releasedBy (layout key))
    (apart : KeyWorld.ChordApart layout ⟨host, keys, sent⟩ key chord) :
    KeysCovered layout host' (keys.pressClipboardChord chord).1
      (sent ++ (keys.pressClipboardChord chord).2) := by
  have host_cmd : keys.modifiers.macCmd = false := by rw [covered.synced]; rfl
  have idle : KeysCovered layout host' keys (sent ++ []) := by
    rw [append_nil]
    exact covered.mono more same
  simp only [pressClipboardChord, host_cmd, Bool.false_eq_true, if_false]
  cases replaced : chord.replacedKey keys.modifiers with
  | none => exact idle
  | some guest =>
    cases codes : guest.scancodes with
    | none => simpa only [codes] using idle
    | some pair =>
      have plain := ClipboardChord.replacedKey_plain replaced
      by_cases member : guest ∈ keys.held
      · simp only [codes, if_pos member]
        exact covered.press same codes plain rfl (if_pos member).symm
          (covered.mono more same).covered
      simp only [codes, if_neg member]
      rw [covered.synced] at replaced
      obtain ⟨others, own⟩ := apart guest replaced member
      refine covered.press same codes plain rfl (if_neg member).symm fun other listed => ?_
      rcases (mem_insert _).mp listed with rfl | earlier
      · -- The key that is sent: it is down itself, or the release of the host key ends it.
        rcases own with rfl | ⟨unheld, plain', ended⟩
        · exact ⟨other, isDown, .inl rfl⟩
        by_cases itself : key = other
        · exact ⟨key, isDown, .inl itself⟩
        refine ⟨key, isDown, .inr ⟨fun inside => ?_, plain', chord, ?_, ?_⟩⟩
        · exact ((mem_insert _).mp inside).elim itself unheld
        · refine endedChord_of_only ended releases ?_ fun different apart' => ?_
          · simp
          · exact Function.update_of_ne apart' _ _
        · simp
      · -- The keys sent before: those of outstanding chords are down themselves.
        obtain ⟨down, isDown', covers⟩ := covered.covered other earlier
        rcases covers with rfl | ⟨-, -, earlierChord, -, outstanding⟩
        · exact ⟨down, more isDown', .inl rfl⟩
        · exact ⟨other, more (others earlierChord other outstanding), .inl rfl⟩

end

def up (host : HostKeyboard) (key : EguiKey) : HostKeyboard :=
  { host with down := host.down.erase key }

section

variable (covered : KeysCovered layout host keys sent)
include covered

theorem release {guest : EguiKey} (same : host'.modifiers = host.modifiers)
    (found : keys.held.lookup guest = some upCode) (modifiers : keys'.modifiers = keys.modifiers)
    (held : keys'.held = keys.held.erase guest)
    (covers : ∀ other ∈ keys'.held, ∃ down ∈ host'.down, CoversKey layout keys' down other) :
    KeysCovered layout host' keys' (sent ++ [.keyUp upCode]) := by
  obtain ⟨downCode, codes⟩ := covered.coded guest upCode found
  refine ⟨?_, ?_, ?_, covers, ?_⟩
  · rw [modifiers, covered.synced, same]
  · intro other listed
    rw [held] at listed
    exact covered.plain other (mem_erase.mp listed).2
  · intro other code found'
    rw [held] at found'
    by_cases gone : other = guest
    · subst gone
      rw [lookup_erase] at found'
      nomatch found'
    · rw [lookup_erase_ne gone] at found'
      exact covered.coded other code found'
  · refine covered.settled.released (fun other earlier => ?_) codes
    rw [held]
    by_cases gone : other = guest
    · exact .inl gone
    · exact .inr (mem_erase.mpr ⟨gone, earlier⟩)

theorem releaseHeld (found : keys.held.lookup key = some upCode) :
    KeysCovered layout (up host key) (keys.releaseKey key (layout key) modifiers).1
      (sent ++ (keys.releaseKey key (layout key) modifiers).2) := by
  have member : key ∈ keys.held := lookup_isSome.mp (by rw [found]; rfl)
  simp only [HeldKeys.releaseKey, found]
  refine covered.release rfl found rfl rfl fun other listed => ?_
  obtain ⟨apart, earlier⟩ := mem_erase.mp listed
  obtain ⟨down, isDown, covers⟩ := covered.covered other earlier
  rcases covers with rfl | ⟨unheld, plain, chord, ended, outstanding⟩
  · exact ⟨down, Finset.mem_erase.mpr ⟨apart, isDown⟩, .inl rfl⟩
  have different : down ≠ key := by
    rintro rfl
    exact unheld member
  have kept : keys.clipboard chord ≠ some (some key) := by
    rw [outstanding]
    exact fun same => apart (Option.some.inj (Option.some.inj same))
  refine ⟨down, Finset.mem_erase.mpr ⟨different, isDown⟩, .inr ⟨?_, plain, chord, ?_, ?_⟩⟩
  · exact fun inside => unheld (mem_erase.mp inside).2
  · refine endedChord_of_fewer ended (if_neg kept) fun other' => ?_
    dsimp only
    split
    · exact .inr rfl
    · exact .inl rfl
  · exact (if_neg kept).trans outstanding

theorem covers_taken {standing : Option EguiKey} (unheld : key ∉ keys.held)
    (ended : keys.endedChord (layout key) = some chord)
    (outstanding : keys.clipboard chord = some standing)
    (taken : keys'.clipboard = Function.update keys.clipboard chord none)
    (left : ∀ other ∈ keys'.held, other ∈ keys.held ∧ standing ≠ some other) :
    ∀ other ∈ keys'.held, ∃ down ∈ (up host key).down, CoversKey layout keys' down other := by
  intro other listed
  obtain ⟨earlier, apart⟩ := left other listed
  obtain ⟨down, isDown, covers⟩ := covered.covered other earlier
  rcases covers with rfl | ⟨unheld', plain, chord', ended', outstanding'⟩
  · have different : down ≠ key := by
      rintro rfl
      exact unheld earlier
    exact ⟨down, Finset.mem_erase.mpr ⟨different, isDown⟩, .inl rfl⟩
  have other_chord : chord' ≠ chord := by
    rintro rfl
    rw [outstanding] at outstanding'
    exact apart (Option.some.inj outstanding')
  have different : down ≠ key := by
    rintro rfl
    rw [ended] at ended'
    exact other_chord (Option.some.inj ended').symm
  have kept : keys'.clipboard chord' = keys.clipboard chord' := by
    rw [taken, Function.update_of_ne other_chord]
  refine ⟨down, Finset.mem_erase.mpr ⟨different, isDown⟩, .inr ⟨?_, plain, chord', ?_, ?_⟩⟩
  · exact fun inside => unheld' (left down inside).1
  · refine endedChord_of_fewer ended' kept fun third => ?_
    rw [taken]
    by_cases same : third = chord
    · subst same
      exact .inr (Function.update_self _ _ _)
    · exact .inl (Function.update_of_ne same _ _)
  · exact kept.trans outstanding'

theorem releaseChord (unheld : key ∉ keys.held)
    (ended : keys.endedChord (layout key) = some chord) :
    KeysCovered layout (up host key) (keys.releaseKey key (layout key) modifiers).1
      (sent ++ (keys.releaseKey key (layout key) modifiers).2) := by
  have none_held : keys.held.lookup key = none := lookup_eq_none.mpr unheld
  obtain ⟨standing, outstanding, taken⟩ := takeClipboardChord_of_ended ended
  simp only [HeldKeys.releaseKey, none_held, taken]
  cases standing with
  | none =>
    rw [append_nil]
    refine { covered with covered := ?_ }
    exact covered.covers_taken unheld ended outstanding rfl fun other listed => ⟨listed, nofun⟩
  | some guest =>
    cases found : keys.held.lookup guest with
    | none =>
      simp only [found, append_nil]
      refine { covered with covered := ?_ }
      refine covered.covers_taken unheld ended outstanding rfl fun other listed => ⟨listed, ?_⟩
      intro same
      rw [Option.some.inj same] at found
      exact lookup_eq_none.mp found listed
    | some upCode =>
      simp only [found]
      refine covered.release rfl found rfl rfl ?_
      refine covered.covers_taken unheld ended outstanding rfl fun other listed => ?_
      obtain ⟨apart, earlier⟩ := mem_erase.mp listed
      exact ⟨earlier, fun same => apart (Option.some.inj same).symm⟩

theorem releaseUnheld (unheld : key ∉ keys.held) (ended : keys.endedChord (layout key) = none) :
    KeysCovered layout (up host key) (keys.releaseKey key (layout key) modifiers).1
      (sent ++ (keys.releaseKey key (layout key) modifiers).2) := by
  have none_held : keys.held.lookup key = none := lookup_eq_none.mpr unheld
  have untaken := takeClipboardChord_of_none ended
  have covers :
      ∀ other ∈ keys.held, ∃ down ∈ (up host key).down, CoversKey layout keys down other := by
    intro other listed
    obtain ⟨down, isDown, covers⟩ := covered.covered other listed
    refine ⟨down, Finset.mem_erase.mpr ⟨?_, isDown⟩, covers⟩
    rintro rfl
    rcases covers with rfl | ⟨-, -, chord, ended', -⟩
    · exact unheld listed
    · rw [ended] at ended'
      nomatch ended'
  simp only [HeldKeys.releaseKey, none_held, untaken]
  unfold HeldKeys.releaseUnheld
  cases codes : key.scancodes with
  | none =>
    rw [append_nil]
    exact { covered with covered := covers }
  | some pair =>
    dsimp only
    split
    · rw [append_nil]
      exact { covered with covered := covers }
    split
    · exact { covered with covered := covers, settled := covered.settled.stroke codes }
    · refine { covered with covered := covers, settled := ?_ }
      exact covered.settled.released (fun other listed => .inr listed) codes

end

end KeysCovered

/-! ## Histories -/

theorem chordOf_releasedBy {modifiers : HostModifiers} {logical : EguiKey}
    (made : chordOf windows modifiers logical = some chord) : chord.releasedBy logical := by
  unfold chordOf at made
  split at made
  · rename_i pressed
    cases made
    rcases pressed with ⟨-, rfl⟩ | ⟨-, -, rfl⟩ <;> rfl
  split at made
  · rename_i pressed
    cases made
    rcases pressed with ⟨-, rfl⟩ | ⟨-, -, rfl⟩ <;> rfl
  obtain ⟨pressed, ⟨⟩⟩ := ite_none_right_eq_some.mp made
  rcases pressed with ⟨-, rfl⟩ | ⟨-, -, rfl⟩ <;> rfl

open KeysCovered

theorem HostKeyboard.act_cases {host host' : HostKeyboard} {events : List EguiEvent}
    {action : HostAction} (acted : host.act layout windows action = some (host', events)) :
    (∃ modifiers, action = .modifiers modifiers ∧ host' = { host with modifiers } ∧
      events = [.modifiersChanged modifiers.egui]) ∨
    (∃ key text, (action = .press key text ∨ action = .again key text) ∧
      host.down ⊆ host'.down ∧ host'.modifiers = host.modifiers ∧ key ∈ host'.down ∧
      events = reportPress layout windows host.modifiers key text) ∨
    (∃ key, action = .release key ∧ host' = up host key ∧
      events = [.key (layout key) (some key) false host.modifiers.egui]) := by
  cases action with
  | modifiers modifiers =>
    obtain ⟨rfl, rfl⟩ := Prod.mk.inj (Option.some.inj acted)
    exact .inl ⟨modifiers, rfl, rfl, rfl⟩
  | press key text =>
    obtain ⟨-, acted⟩ := ite_none_left_eq_some.mp acted
    obtain ⟨rfl, rfl⟩ := Prod.mk.inj (Option.some.inj acted)
    exact .inr (.inl ⟨key, text, .inl rfl, Finset.subset_insert _ _, rfl,
      Finset.mem_insert_self _ _, rfl⟩)
  | again key text =>
    obtain ⟨isDown, acted⟩ := ite_none_right_eq_some.mp acted
    obtain ⟨rfl, rfl⟩ := Prod.mk.inj (Option.some.inj acted)
    exact .inr (.inl ⟨key, text, .inr rfl, Finset.Subset.refl _, rfl, isDown, rfl⟩)
  | release key =>
    obtain ⟨-, acted⟩ := ite_none_right_eq_some.mp acted
    obtain ⟨rfl, rfl⟩ := Prod.mk.inj (Option.some.inj acted)
    exact .inr (.inr ⟨key, rfl, rfl, rfl⟩)

theorem translateKeyEvents_chord (keys : HeldKeys) (chord : ClipboardChord) :
    keys.translateKeyEvents [chord.event] = keys.pressClipboardChord chord := by
  cases chord <;> simp [translateKeyEvents, translateKeyEvent,
    ClipboardChord.event]

theorem translateKeyEvents_key (keys : HeldKeys) (logical key : EguiKey) (pressed : Bool)
    (modifiers : EguiModifiers) (synced : keys.modifiers = modifiers) :
    keys.translateKeyEvents [.key logical (some key) pressed modifiers] =
      if isShortcutKey key then (keys, [])
      else if pressed then keys.pressKey key modifiers
      else keys.releaseKey key logical modifiers := by
  subst synced
  simp [translateKeyEvents, translateKeyEvent]

namespace KeyWorld

/-- Every key pressed in the guest is covered. -/
def Sound (layout : EguiKey → EguiKey) (world : KeyWorld) : Prop :=
  KeysCovered layout world.host world.keys world.sent

variable {world world' : KeyWorld} {host : HostKeyboard} {key : EguiKey}

theorem Sound.reported (sound : world.Sound layout) (more : world.host.down ⊆ host.down)
    (same : host.modifiers = world.host.modifiers) (isDown : key ∈ host.down) {text : Bool}
    (paired : world.Paired layout windows (.again key text)) : (world.translate host
      (reportPress layout windows world.host.modifiers key text)).Sound layout := by
  have idle : KeysCovered layout host world.keys (world.sent ++ []) := by
    rw [append_nil]
    exact mono sound more same
  rw [Paired] at paired
  rw [reportPress]
  cases made : chordOf windows world.host.modifiers (layout key) with
  | some chord =>
    rw [made] at paired
    dsimp only at paired ⊢
    split
    · exact idle
    · rename_i reported
      simp only [translate, translateKeyEvents_chord]
      exact pressChord sound more same isDown (chordOf_releasedBy made)
        (paired reported)
  | none =>
    rw [made] at paired
    simp only [translate]
    rw [translateKeyEvents_key _ _ _ _ _ sound.synced]
    split
    · exact idle
    · rename_i plain
      have pressed := pressKey sound more same isDown (Bool.eq_false_iff.mpr plain)
        paired
      exact pressed

theorem Sound.act (sound : world.Sound layout) {action : HostAction}
    (paired : world.Paired layout windows action)
    (acted : world.act layout windows action = some world') : world'.Sound layout := by
  obtain ⟨⟨host, events⟩, happened, same⟩ := bind_eq_some_iff.mp acted
  cases same
  obtain ⟨modifiers, rfl, rfl, rfl⟩ | ⟨key, text, reported, more, unchanged, isDown, rfl⟩ |
      ⟨key, rfl, rfl, rfl⟩ := HostKeyboard.act_cases happened
  · refine ⟨rfl, sound.plain, sound.coded, sound.covered, ?_⟩
    simpa [translate, translateKeyEvents, translateKeyEvent] using sound.settled
  · refine sound.reported more unchanged isDown ?_
    rcases reported with rfl | rfl
    · exact paired
    · exact paired
  · simp only [Sound, translate]
    rw [translateKeyEvents_key _ _ _ _ _ sound.synced]
    split
    · rename_i shortcut
      rw [append_nil]
      refine { sound with covered := fun other listed => ?_ }
      obtain ⟨down, isDown, covers⟩ := sound.covered other listed
      refine ⟨down, Finset.mem_erase.mpr ⟨?_, isDown⟩, covers⟩
      rintro rfl
      have plain : isShortcutKey down = false := by
        rcases covers with rfl | ⟨-, plain, -⟩
        · exact sound.plain down listed
        · exact plain
      rw [shortcut] at plain
      nomatch plain
    · cases found : world.keys.held.lookup key with
      | some upCode => exact releaseHeld sound found
      | none =>
        have unheld := lookup_eq_none.mp found
        cases ended : world.keys.endedChord (layout key) with
        | some chord => exact releaseChord sound unheld ended
        | none => exact releaseUnheld sound unheld ended

theorem start_sound : start.Sound layout :=
  ⟨rfl, nofun, nofun, nofun, fun _ _ => followed_nil⟩

theorem Sound.all_released (sound : world.Sound layout) (keys_up : world.host.down = ∅)
    (press : UInt32) : KeyReleased press world.sent := by
  refine sound.settled press fun key held => ?_
  obtain ⟨down, isDown, -⟩ := sound.covered key held
  rw [keys_up] at isDown
  exact absurd isDown (Finset.notMem_empty down)

/-- Whatever the layout and the frames: if every key is paired, no key is left pressed in the guest
once no key is down on the host. -/
theorem no_key_left_pressed (layout : EguiKey → EguiKey) (windows : Bool)
    (frames : List (List HostAction)) (world : KeyWorld)
    (ran : run (frame layout windows) start frames = some world)
    (paired : Meets (act layout windows) (Paired layout windows) start frames.flatten)
    (keys_up : world.host.down = ∅) (press : UInt32) : KeyReleased press world.sent := by
  have sound : world.Sound layout :=
    run_invariant (fun _ _ _ sound paired acted => sound.act paired acted) start_sound paired
      (run_act_of_frames ran)
  exact sound.all_released keys_up press

def swapped : EguiKey → EguiKey
  | .i => .c
  | .c => .i
  | key => key

def ctrlOnly : HostModifiers := ⟨false, true, false⟩

def noModifier : HostModifiers := ⟨false, false, false⟩

def copied : List (List HostAction) :=
  [[.modifiers ctrlOnly, .press .i false, .again .i false], [.release .i, .modifiers noModifier]]

/-- On the swapped layout C is sent for the chord, and released. -/
theorem copied_released : ∃ world, run (frame swapped false) start copied = some world ∧
    world.host.down = ∅ ∧ world.sent = [.keyDown 0x2E, .keyDown 0x2E, .keyUp 0xAE] ∧
    KeyReleased 0x2E world.sent := by
  refine ⟨_, rfl, rfl, rfl, ?_⟩
  refine no_key_left_pressed swapped false copied _ rfl ?_ rfl 0x2E
  refine .cons trivial rfl (.cons ?_ rfl (.cons ?_ rfl (.cons trivial rfl (.cons trivial rfl
    trivial))))
  · intro _ sent _ _
    exact ⟨nofun, .inr ⟨nofun, rfl, rfl⟩⟩
  · intro _ sent replaced unheld
    cases replaced
    exact absurd (by decide) unheld

/-- Ctrl is let go first: both C and the key in the position of I are pressed, one is released. -/
theorem repeat_without_ctrl_sticks : ∃ world,
    run (frame swapped false) start [[.modifiers ctrlOnly, .press .i false, .modifiers noModifier,
      .again .i false, .release .i]] = some world ∧
    world.host.down = ∅ ∧ world.sent = [.keyDown 0x2E, .keyDown 0x17, .keyUp 0x97] ∧
    ¬KeyReleased 0x2E world.sent := by
  refine ⟨_, rfl, rfl, rfl, not_followed_iff.mpr ⟨[], _, _, rfl, rfl, ?_⟩⟩
  intro later listed closes
  rcases mem_cons.mp listed with rfl | last
  · nomatch closes
  · rw [mem_singleton.mp last] at closes
    exact absurd (InputEvent.keyUp.inj closes) (by decide)

end KeyWorld

end Ryll
