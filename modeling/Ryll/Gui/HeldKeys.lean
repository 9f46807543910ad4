import Ryll.Channels.Inputs

/-!
# Key events of the GUI

The GUI is told of key presses and releases by egui, and of some presses as clipboard events in
their place.  It forwards them to the guest, by physical key, and remembers what it has pressed
there, so that every release can be paired with its press.
-/

namespace Ryll

/-- A key as egui names it. -/
inductive EguiKey
  | a | b | c | d | e | f | g | h | i | j | k | l | m | n | o | p | q | r | s | t | u | v | w | x
  | y | z
  | num0 | num1 | num2 | num3 | num4 | num5 | num6 | num7 | num8 | num9
  | f1 | f2 | f3 | f4 | f5 | f6 | f7 | f8 | f9 | f10 | f11 | f12
  | space | enter | backspace | tab | escape
  | delete | insert | home | endKey | pageUp | pageDown
  | arrowUp | arrowDown | arrowLeft | arrowRight
  | minus | equals | openBracket | closeBracket | backslash | semicolon | quote | backtick
  | comma | period | slash
  | cut | copy | paste
  | other (index : Nat)
  deriving DecidableEq

def eguiKeyToLogical : EguiKey → Option LogicalKey
  -- Letters
  | .a => some (.letter 'A')
  | .b => some (.letter 'B')
  | .c => some (.letter 'C')
  | .d => some (.letter 'D')
  | .e => some (.letter 'E')
  | .f => some (.letter 'F')
  | .g => some (.letter 'G')
  | .h => some (.letter 'H')
  | .i => some (.letter 'I')
  | .j => some (.letter 'J')
  | .k => some (.letter 'K')
  | .l => some (.letter 'L')
  | .m => some (.letter 'M')
  | .n => some (.letter 'N')
  | .o => some (.letter 'O')
  | .p => some (.letter 'P')
  | .q => some (.letter 'Q')
  | .r => some (.letter 'R')
  | .s => some (.letter 'S')
  | .t => some (.letter 'T')
  | .u => some (.letter 'U')
  | .v => some (.letter 'V')
  | .w => some (.letter 'W')
  | .x => some (.letter 'X')
  | .y => some (.letter 'Y')
  | .z => some (.letter 'Z')
  -- Digits
  | .num0 => some (.digit 0)
  | .num1 => some (.digit 1)
  | .num2 => some (.digit 2)
  | .num3 => some (.digit 3)
  | .num4 => some (.digit 4)
  | .num5 => some (.digit 5)
  | .num6 => some (.digit 6)
  | .num7 => some (.digit 7)
  | .num8 => some (.digit 8)
  | .num9 => some (.digit 9)
  -- Function keys
  | .f1 => some (.function 1)
  | .f2 => some (.function 2)
  | .f3 => some (.function 3)
  | .f4 => some (.function 4)
  | .f5 => some (.function 5)
  | .f6 => some (.function 6)
  | .f7 => some (.function 7)
  | .f8 => some (.function 8)
  | .f9 => some (.function 9)
  | .f10 => some (.function 10)
  | .f11 => some (.function 11)
  | .f12 => some (.function 12)
  -- Whitespace-adjacent
  | .space => some (.whitespace .space)
  | .enter => some (.whitespace .enter)
  | .backspace => some (.whitespace .backspace)
  | .tab => some (.whitespace .tab)
  -- Escape
  | .escape => some .escape
  -- Navigation cluster
  | .delete => some (.navigation .delete)
  | .insert => some (.navigation .insert)
  | .home => some (.navigation .home)
  | .endKey => some (.navigation .endKey)
  | .pageUp => some (.navigation .pageUp)
  | .pageDown => some (.navigation .pageDown)
  -- Arrow keys
  | .arrowUp => some (.arrow .up)
  | .arrowDown => some (.arrow .down)
  | .arrowLeft => some (.arrow .left)
  | .arrowRight => some (.arrow .right)
  -- Punctuation
  | .minus => some (.punctuation .minus)
  | .equals => some (.punctuation .equals)
  | .openBracket => some (.punctuation .openBracket)
  | .closeBracket => some (.punctuation .closeBracket)
  | .backslash => some (.punctuation .backslash)
  | .semicolon => some (.punctuation .semicolon)
  | .quote => some (.punctuation .quote)
  | .backtick => some (.punctuation .backtick)
  | .comma => some (.punctuation .comma)
  | .period => some (.punctuation .period)
  | .slash => some (.punctuation .slash)
  -- All other keys have no scancode.
  | .cut | .copy | .paste | .other _ => none

def EguiKey.scancodes (key : EguiKey) : Option (UInt32 × UInt32) :=
  (eguiKeyToLogical key).bind scancodeForLogicalKey

/-- A shortcut that is not forwarded. -/
inductive HostShortcut
  | screenshot
  | trafficViewer
  | bugReport
  deriving DecidableEq

namespace HostShortcut

def all : List HostShortcut := [.screenshot, .trafficViewer, .bugReport]

def key : HostShortcut → EguiKey
  | .screenshot => .f8
  | .trafficViewer => .f11
  | .bugReport => .f12

def isShortcutKey (key : EguiKey) : Bool := all.any fun shortcut => shortcut.key = key

end HostShortcut

/-- The modifiers as egui reports them; `command` is Cmd on macOS and Ctrl elsewhere. -/
structure EguiModifiers where
  alt : Bool
  ctrl : Bool
  shift : Bool
  macCmd : Bool
  command : Bool

def EguiModifiers.none : EguiModifiers := ⟨false, false, false, false, false⟩

/-- A key event of egui. -/
inductive EguiEvent
  | modifiersChanged (modifiers : EguiModifiers)
  | cut
  | copy
  | paste
  | key (key : EguiKey) (physicalKey : Option EguiKey) (pressed : Bool) (modifiers : EguiModifiers)
  | windowFocused (focused : Bool)
  | other

/-- A chord that is reported as its command. -/
inductive ClipboardChord
  | cut
  | copy
  | paste
  deriving DecidableEq

namespace ClipboardChord

def all : List ClipboardChord := [.cut, .copy, .paste]

def replacedKey (chord : ClipboardChord) (modifiers : EguiModifiers) : Option EguiKey :=
  match chord, modifiers.command, modifiers.shift with
  | .cut, true, _ => some .x
  | .copy, true, _ => some .c
  | .paste, true, _ => some .v
  | .cut, false, true => some .delete
  | .paste, false, true => some .insert
  | _, _, _ => none

/-- A release of the logical key can end a press reported as this chord. -/
def releasedBy : ClipboardChord → EguiKey → Bool
  | .cut, key => key = .x || key = .delete || key = .cut
  | .copy, key => key = .c || key = .insert || key = .copy
  | .paste, key => key = .v || key = .insert || key = .paste

def isGuestPaste (key : EguiKey) (modifiers : EguiModifiers) : Bool :=
  !modifiers.macCmd &&
    ((modifiers.command && key = .v) || (modifiers.shift && !modifiers.ctrl && key = .insert))

end ClipboardChord

def isPasteShortcutModifiers (modifiers : EguiModifiers) : Bool := modifiers.ctrl && modifiers.alt

/-- What the GUI knows to be pressed. -/
structure HeldKeys where
  /-- The keys pressed in the guest, with the code that releases each. -/
  held : AList fun _ : EguiKey => UInt32
  /-- The keys whose press was withheld as part of a host chord. -/
  suppressed : Finset EguiKey
  /-- The chords not yet released, with the key pressed in the place of each, if one was. -/
  clipboard : ClipboardChord → Option (Option EguiKey)
  modifiers : EguiModifiers

namespace HeldKeys

def new : HeldKeys := ⟨∅, ∅, fun _ => none, .none⟩

variable (keys : HeldKeys)

def releaseAll : HeldKeys × List InputEvent :=
  ({ keys with held := ∅, suppressed := ∅, clipboard := fun _ => none },
    keys.held.entries.map fun entry => .keyUp entry.2)

def pressClipboardChord (chord : ClipboardChord) : HeldKeys × List InputEvent :=
  if keys.modifiers.macCmd then
    ({ keys with clipboard := Function.update keys.clipboard chord (some none) }, [])
  else
    match chord.replacedKey keys.modifiers with
    | none => (keys, [])
    | some key =>
      match key.scancodes with
      | none => (keys, [])
      | some (downCode, upCode) =>
        if key ∈ keys.held then
          (keys, [.keyDown downCode])
        else
          ({ keys with
              suppressed := keys.suppressed.erase key
              held := keys.held.insert key upCode
              clipboard := Function.update keys.clipboard chord (some (some key)) },
            [.keyDown downCode])

def endedChord (key : EguiKey) : Option ClipboardChord :=
  ClipboardChord.all.find? fun chord => chord.releasedBy key && (keys.clipboard chord).isSome

def takeClipboardChord (key : EguiKey) : Option (Option EguiKey × HeldKeys) := do
  let chord ← keys.endedChord key
  let sent ← keys.clipboard chord
  return (sent, { keys with clipboard := Function.update keys.clipboard chord none })

def pressKey (lookupKey : EguiKey) (modifiers : EguiModifiers) : HeldKeys × List InputEvent :=
  match lookupKey.scancodes with
  | none => (keys, [])
  | some (downCode, upCode) =>
    if lookupKey ∈ keys.held then
      -- An auto-repeat, which is another press unless Cmd went down since.
      (keys, if modifiers.macCmd then [] else [.keyDown downCode])
    else if modifiers.macCmd then
      ({ keys with suppressed := insert lookupKey keys.suppressed }, [])
    else
      ({ keys with
          suppressed := keys.suppressed.erase lookupKey
          held := keys.held.insert lookupKey upCode },
        [.keyDown downCode])

def releaseUnheld (lookupKey key : EguiKey) (modifiers : EguiModifiers) :
    HeldKeys × List InputEvent :=
  match lookupKey.scancodes with
  | none => (keys, [])
  | some (downCode, upCode) =>
    let remaining := { keys with suppressed := keys.suppressed.erase lookupKey }
    if lookupKey ∈ keys.suppressed || modifiers.macCmd ||
        (isPasteShortcutModifiers modifiers && key = .v) then
      (remaining, [])
    else if ClipboardChord.isGuestPaste key modifiers then
      -- The press left no event, as there was no text to paste.
      (remaining, [.keyDown downCode, .keyUp upCode])
    else
      (remaining, [.keyUp upCode])

def releaseKey (lookupKey key : EguiKey) (modifiers : EguiModifiers) : HeldKeys × List InputEvent :=
  match keys.held.lookup lookupKey with
  | some upCode =>
    ({ keys with
        held := keys.held.erase lookupKey
        clipboard := fun chord =>
          if keys.clipboard chord = some (some lookupKey) then none else keys.clipboard chord },
      [.keyUp upCode])
  | none =>
    match keys.takeClipboardChord key with
    | some (some sent, remaining) =>
      match remaining.held.lookup sent with
      | some upCode => ({ remaining with held := remaining.held.erase sent }, [.keyUp upCode])
      | none => (remaining, [])
    | some (none, remaining) => (remaining, [])
    | none => keys.releaseUnheld lookupKey key modifiers

def translateKeyEvent : EguiEvent → HeldKeys × List InputEvent
  | .modifiersChanged modifiers => ({ keys with modifiers }, [])
  | .cut => keys.pressClipboardChord .cut
  | .copy => keys.pressClipboardChord .copy
  | .paste => keys.pressClipboardChord .paste
  | .key key physicalKey pressed modifiers =>
    let keys := { keys with modifiers }
    let lookupKey := physicalKey.getD key
    if HostShortcut.isShortcutKey lookupKey then
      (keys, [])
    else if pressed then
      keys.pressKey lookupKey modifiers
    else
      keys.releaseKey lookupKey key modifiers
  | .windowFocused _ | .other => (keys, [])

def translateKeyEvents (keys : HeldKeys) : List EguiEvent → HeldKeys × List InputEvent
  | [] => (keys, [])
  | event :: events =>
    let (keys, sent) := match event with
      | .windowFocused false =>
        let (keys, released) := keys.releaseAll
        ({ keys with modifiers := .none }, released)
      | event => keys.translateKeyEvent event
    let (keys, later) := translateKeyEvents keys events
    (keys, sent ++ later)

end HeldKeys

end Ryll
