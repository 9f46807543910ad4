import Ryll.Channels.AgentQueue
import Ryll.Foundation.Characters
import Ryll.Protocol.VdAgent

/-!
# The guest agent on the main channel

The main channel announces its capabilities to the guest agent, sends it the display size that the
frontends ask for, and offers it the host clipboard.
-/

namespace Ryll

/-- A width and a height. -/
abbrev Size := UInt32 × UInt32

/-- A size a frontend asks for, or the guest reports. -/
inductive DisplaySize
  | requested (width height : UInt32)
  | guestHas (width height : UInt32)
  deriving DecidableEq

/-! ## Clipboard text -/

def replaceCrLf : List Char → List Char
  | [] => []
  | '\r' :: '\n' :: rest => '\n' :: replaceCrLf rest
  | char :: rest => char :: replaceCrLf rest

def normalizeClipboard (text : List Char) : List Char :=
  (((replaceCrLf text).map fun char => if char = '\r' then '\n' else char).reverse.dropWhile
    isWhitespace).reverse

/-- The library functions on text: the hash of a normal form, and the conversions to bytes. -/
structure TextLibrary (η : Type) where
  hash : List Char → η
  fromUtf8Lossy : Bytes → List Char
  /-- The UTF-8 encoding of a text. -/
  asBytes : List Char → Bytes

def TextLibrary.hashClipboard {η : Type} (library : TextLibrary η) (text : List Char) : η :=
  library.hash (normalizeClipboard text)

def plainText : TextLibrary (List Char) where
  hash := id
  fromUtf8Lossy bytes := bytes.map fun byte => Char.ofNat byte.toNat
  asBytes text := text.map fun letter => UInt8.ofNat letter.toNat

/-- The result of reading the host clipboard. -/
inductive ClipboardRead
  | completed (text : Option (List Char))
  | failed
  deriving DecidableEq

/-! ## The channel -/

/-- What the channel remembers about the agent. -/
structure MainChannel (η : Type) where
  /-- How many monitors the guest is asked for. -/
  monitors : UInt8
  sender : AgentSender
  agentConnected : Bool
  agentCapsAnnounced : Bool
  /-- Whether the guest sends clipboard selections, once its capabilities are known. -/
  guestClipboardSelection : Option Bool
  pendingMonitorsConfig : Option Size
  lastSentMonitorsConfig : Option Size
  /-- A debounce of requested sizes is running. -/
  resizeDebounce : Bool
  hasClipboard : Bool
  lastClipboardHash : Option η
  lastPolledClipboardGeneration : Option UInt64

/-- What can happen to the channel. -/
inductive MainEvent
  | init (connected : Bool) (tokens : UInt32)
  | agentConnected
  | agentConnectedTokens (payload : Bytes)
  | agentDisconnected
  | agentToken (payload : Bytes)
  /-- A guest agent message, and what the host clipboard holds if it is asked. -/
  | agentMessage (messageType : UInt32) (payload : Bytes) (hostText : Option (List Char))
  | displaySize (size : DisplaySize)
  | debounceExpired
  /-- It is time to poll the host clipboard, which answers with its generation and the text. -/
  | clipboardInterval (generation : Option UInt64) (read : ClipboardRead)

def agentTokens (payload : Bytes) : Option UInt32 :=
  match (do
    let (count, _) ← readU32 (BoundedReader.new payload)
    return count : Outcome LinkError UInt32) with
  | .ok count => some count
  | _ => none

namespace MainChannel

variable {η : Type}

def new (monitors : UInt8) (hasClipboard : Bool) : MainChannel η :=
  ⟨monitors, .new, false, false, none, none, none, false, hasClipboard, none, none⟩

/-! ### Sending -/

variable (channel : MainChannel η)

def sendAgentDataMessage (messageType : UInt32) (payload : Bytes) : MainChannel η × Bool :=
  let (sender, accepted) := channel.sender.push (agentMessage messageType payload)
  if accepted then ({ channel with sender := sender.flush }, true)
  else ({ channel with sender }, false)

def maybeSendAnnounceCapabilities : MainChannel η :=
  if !channel.agentConnected || channel.agentCapsAnnounced then
    channel
  else
    let (channel, accepted) :=
      channel.sendAgentDataMessage vdAgentAnnounceCapabilities clientAgentCapabilities.write
    if accepted then { channel with agentCapsAnnounced := true } else channel

def capabilitiesMessage : Bytes :=
  agentMessage vdAgentAnnounceCapabilities clientAgentCapabilities.write

def monitorsConfigPayload (size : Size) : Bytes :=
  (agentMonitorsConfig channel.monitors size.1 size.2).write

def maybeSendAgentMonitorsConfig : MainChannel η :=
  match channel.pendingMonitorsConfig with
  | none => channel
  | some size =>
    if !channel.agentConnected then
      channel
    else if !channel.agentCapsAnnounced then
      channel
    else if channel.lastSentMonitorsConfig = some size then
      { channel with pendingMonitorsConfig := none }
    else
      let (channel, accepted) :=
        channel.sendAgentDataMessage vdAgentMonitorsConfig (channel.monitorsConfigPayload size)
      if accepted then
        { channel with lastSentMonitorsConfig := some size, pendingMonitorsConfig := none }
      else
        channel

def maybeSendSettledMonitorsConfig : MainChannel η :=
  if channel.resizeDebounce then channel else channel.maybeSendAgentMonitorsConfig

def connectAgent : MainChannel η :=
  channel.maybeSendAnnounceCapabilities.maybeSendSettledMonitorsConfig

def noteDisplaySize : DisplaySize → MainChannel η
  | .requested width height =>
    if channel.lastSentMonitorsConfig = some (width, height) then
      { channel with pendingMonitorsConfig := none, resizeDebounce := false }
    else
      { channel with pendingMonitorsConfig := some (width, height), resizeDebounce := true }
  | .guestHas width height =>
    { channel with
      lastSentMonitorsConfig := some (width, height)
      pendingMonitorsConfig := none
      resizeDebounce := false }

def sendClipboard (messageType : UInt32) (write : Bool → Bytes) : MainChannel η × Bool :=
  match channel.guestClipboardSelection with
  | none => (channel, false)
  | some hasSelection => channel.sendAgentDataMessage messageType (write hasSelection)

def sendClipboardGrab : MainChannel η × Bool :=
  channel.sendClipboard vdAgentClipboardGrab
    (ClipboardGrab.writeWith ⟨vdAgentClipboardSelectionClipboard, [vdAgentClipboardUtf8Text]⟩)

def sendClipboardRequest : MainChannel η × Bool :=
  channel.sendClipboard vdAgentClipboardRequest
    (ClipboardRequest.writeWith ⟨vdAgentClipboardSelectionClipboard, vdAgentClipboardUtf8Text⟩)

def sendClipboardData (data : Bytes) : MainChannel η × Bool :=
  channel.sendClipboard vdAgentClipboard
    (Clipboard.writeWith ⟨vdAgentClipboardSelectionClipboard, vdAgentClipboardUtf8Text, data⟩)

def sendClipboardNone (selection : UInt8) : MainChannel η × Bool :=
  channel.sendClipboard vdAgentClipboard
    (Clipboard.writeWith ⟨selection, vdAgentClipboardNone, []⟩)

/-! ### Receiving -/

section Library

variable [DecidableEq η] (library : TextLibrary η)

def handleGuestClipboard (channel : MainChannel η) (message : GuestClipboard)
    (hostText : Option (List Char)) : MainChannel η :=
  if message.selection ≠ vdAgentClipboardSelectionClipboard then
    match message with
    | .request _ => (channel.sendClipboardNone message.selection).1
    | _ => channel
  else
    match message with
    | .grab grab =>
      if grab.offers vdAgentClipboardUtf8Text then channel.sendClipboardRequest.1 else channel
    | .data clipboard =>
      if clipboard.clipboardType ≠ vdAgentClipboardUtf8Text then
        channel
      else if clipboard.data.isEmpty then
        channel
      else
        let text := library.fromUtf8Lossy clipboard.data
        { channel with lastClipboardHash := some (library.hashClipboard text) }
    | .request request =>
      let text :=
        if request.clipboardType = vdAgentClipboardUtf8Text && channel.hasClipboard then hostText
        else none
      match text with
      | some text => (channel.sendClipboardData (library.asBytes text)).1
      | none => (channel.sendClipboardNone message.selection).1
    | .release _ => channel

def handleAnnounceCapabilities (payload : Bytes) : MainChannel η :=
  let caps : Option AnnounceCapabilities :=
    match (decode payload : Outcome LinkError AnnounceCapabilities) with
    | .ok caps => some caps
    | _ => none
  let hasSelection := caps.any (·.hasCapability vdAgentCapClipboardSelection)
  let channel := { channel with guestClipboardSelection := some hasSelection }
  let channel :=
    if caps.any (·.request == 1) then
      { channel with agentCapsAnnounced := false }.maybeSendAnnounceCapabilities
    else
      channel
  channel.maybeSendSettledMonitorsConfig

variable (channel : MainChannel η)

def handleAgentMessage (agentType : UInt32) (payload : Bytes)
    (hostText : Option (List Char)) : MainChannel η :=
  if agentType = vdAgentClipboardGrab ∨ agentType = vdAgentClipboard ∨
      agentType = vdAgentClipboardRequest ∨ agentType = vdAgentClipboardRelease then
    match channel.guestClipboardSelection with
    | none => channel
    | some hasSelection =>
      match GuestClipboard.decode agentType payload hasSelection with
      | .ok message => channel.handleGuestClipboard library message hostText
      | _ =>
        if agentType = vdAgentClipboardRequest then
          match decodeWith ClipboardRelease.readWith payload hasSelection with
          | .ok header => (channel.sendClipboardNone header.selection).1
          | _ => channel
        else
          channel
  else if agentType = vdAgentAnnounceCapabilities then
    channel.handleAnnounceCapabilities payload
  else
    channel

def pollHostClipboard (generation : Option UInt64) (read : ClipboardRead) : MainChannel η :=
  if !channel.hasClipboard then
    channel
  else if generation.isSome && generation = channel.lastPolledClipboardGeneration then
    channel
  else
    match read with
    | .failed => channel
    | .completed text =>
      let channel := { channel with lastPolledClipboardGeneration := generation }
      match text with
      | none => channel
      | some text =>
        if text.isEmpty then
          channel
        else
          let newHash := library.hashClipboard text
          if channel.lastClipboardHash = some newHash then
            channel
          else
            { channel with lastClipboardHash := some newHash }.sendClipboardGrab.1

def step : MainEvent → MainChannel η
  | .init connected tokens =>
    let channel := { channel with
      agentConnected := connected
      sender := channel.sender.adoptWindow tokens
      agentCapsAnnounced := false }
    if connected then channel.connectAgent else channel
  | .agentConnected => { channel with agentConnected := true }.connectAgent
  | .agentConnectedTokens payload =>
    let sender :=
      match agentTokens payload with
      | some tokens => channel.sender.adoptWindow tokens
      | none => channel.sender
    let channel := { channel with sender, agentConnected := true }.connectAgent
    { channel with sender := channel.sender.flush }
  | .agentDisconnected =>
    { channel with
      agentConnected := false
      agentCapsAnnounced := false
      guestClipboardSelection := none
      sender := channel.sender.discardUnstarted }
  | .agentToken payload =>
    -- A short body counts as one token.
    let sender := channel.sender.grant ((agentTokens payload).getD 1)
    { channel with sender := sender.flush }.maybeSendAnnounceCapabilities
  | .agentMessage messageType payload hostText =>
    channel.handleAgentMessage library messageType payload hostText
  | .displaySize size => channel.noteDisplaySize size
  | .debounceExpired =>
    if channel.resizeDebounce then
      { channel with resizeDebounce := false }.maybeSendAgentMonitorsConfig
    else
      channel
  | .clipboardInterval generation read =>
    if channel.agentConnected && channel.agentCapsAnnounced &&
        channel.guestClipboardSelection.isSome then
      channel.pollHostClipboard library generation read
    else
      channel

def run (events : List MainEvent) : MainChannel η :=
  events.foldl (step library) channel

end Library

/-! ## What sending changes -/

variable (messageType : UInt32) (payload : Bytes)

theorem agentMessage_ne_nil : agentMessage messageType payload ≠ [] := by
  apply List.ne_nil_of_length_pos
  rw [agentMessage, List.length_append, VdAgentMessageHeader.length_write,
    VdAgentMessageHeader.wireSize]
  omega

theorem sendAgentDataMessage_cases :
    ∃ sender accepted, channel.sendAgentDataMessage messageType payload =
        ({ channel with sender }, accepted) ∧ channel.sender.Sends sender ∧
      (accepted = true ∧ channel.sender.queue.messages.length < maxQueuedAgentMessages ∧
          (∃ fate, fate ≠ .cancelled ∧ sender.ledger[channel.sender.ledger.length]? =
            some (agentMessage messageType payload, fate)) ∨
        accepted = false ∧ maxQueuedAgentMessages ≤ channel.sender.queue.messages.length ∧
          agentMessage messageType payload ∈ sender.refused) := by
  by_cases full : maxQueuedAgentMessages ≤ channel.sender.queue.messages.length
  · have refused := AgentSendQueue.push_full (agentMessage messageType payload) full
    refine ⟨(channel.sender.push (agentMessage messageType payload)).1, false, ?_,
      .single (.push (agentMessage messageType payload)) (by rintro ⟨⟩),
      .inr ⟨rfl, full, ?_⟩⟩
    · simp [sendAgentDataMessage, AgentSender.push, refused]
    · simp [AgentSender.push, refused]
  · have room := Nat.not_le.mp full
    obtain ⟨accepted, ledger⟩ := channel.sender.push_accepted room
      (agentMessage_ne_nil messageType payload)
    have pushed : channel.sender.Sends (channel.sender.push (agentMessage messageType payload)).1 :=
      .single (.push (agentMessage messageType payload)) (by rintro ⟨⟩)
    have flushed : (channel.sender.push (agentMessage messageType payload)).1.Sends
        (channel.sender.push (agentMessage messageType payload)).1.flush :=
      .single .flush (by rintro ⟨⟩)
    refine ⟨_, true, ?_, pushed.trans flushed, .inl ⟨rfl, room, ?_⟩⟩
    · simp [sendAgentDataMessage, accepted]
    · obtain ⟨fate, listed, delivered⟩ := flushed.delivers channel.sender.ledger.length
        (agentMessage messageType payload) .waiting (by simp [ledger, Ledger.post])
      refine ⟨fate, ?_, listed⟩
      rcases delivered with rfl | ⟨-, rfl⟩ <;> rintro ⟨⟩

theorem maybeSendAnnounceCapabilities_cases :
    ∃ sender announced, channel.maybeSendAnnounceCapabilities =
        { channel with sender, agentCapsAnnounced := announced } ∧ channel.sender.Sends sender ∧
      (capabilitiesMessage ∉ sender.refused → channel.agentConnected = true → announced = true) ∧
      (channel.agentConnected = false → announced = channel.agentCapsAnnounced) ∧
      (channel.agentCapsAnnounced = true → announced = true) := by
  unfold maybeSendAnnounceCapabilities
  split
  · next idle =>
    refine ⟨channel.sender, channel.agentCapsAnnounced, rfl, .refl _ _, ?_, fun _ => rfl, id⟩
    intro _ connected
    simpa [connected] using idle
  · next needed =>
    obtain ⟨sender, accepted, sent, sends, effect⟩ := channel.sendAgentDataMessage_cases
      vdAgentAnnounceCapabilities clientAgentCapabilities.write
    rw [sent]
    rcases effect with ⟨rfl, -⟩ | ⟨rfl, -, refused⟩
    · exact ⟨sender, true, rfl, sends, fun _ _ => rfl, by simp_all, fun _ => rfl⟩
    · exact ⟨sender, channel.agentCapsAnnounced, rfl, sends,
        fun clean => absurd refused clean, fun _ => rfl, id⟩

theorem handleAnnounceCapabilities_eq :
    ∃ selection asked, channel.handleAnnounceCapabilities payload = (if asked = true then
        { channel with
          guestClipboardSelection := some selection
          agentCapsAnnounced := false }.maybeSendAnnounceCapabilities
      else
        { channel with
          guestClipboardSelection := some selection }).maybeSendSettledMonitorsConfig :=
  ⟨_, _, rfl⟩

/-- What happens beside the display sizes: messages are sent, the clipboard is recorded. -/
structure Aside (channel channel' : MainChannel η) : Prop where
  sends : channel.sender.Sends channel'.sender
  monitors : channel'.monitors = channel.monitors
  agentConnected : channel'.agentConnected = channel.agentConnected
  agentCapsAnnounced : channel'.agentCapsAnnounced = channel.agentCapsAnnounced
  selection : channel'.guestClipboardSelection = channel.guestClipboardSelection
  pending : channel'.pendingMonitorsConfig = channel.pendingMonitorsConfig
  lastSent : channel'.lastSentMonitorsConfig = channel.lastSentMonitorsConfig
  debounce : channel'.resizeDebounce = channel.resizeDebounce

theorem Aside.record (hash : Option η) (generation : Option UInt64) : Aside channel { channel with
      lastClipboardHash := hash, lastPolledClipboardGeneration := generation } :=
  ⟨.refl _ _, rfl, rfl, rfl, rfl, rfl, rfl, rfl⟩

theorem sendClipboard_aside (write : Bool → Bytes) :
    Aside channel (channel.sendClipboard messageType write).1 := by
  unfold sendClipboard
  split
  · exact .record channel _ _
  · next hasSelection _ =>
    obtain ⟨sender, accepted, sent, sends, -⟩ :=
      channel.sendAgentDataMessage_cases messageType (write hasSelection)
    rw [sent]
    exact ⟨sends, rfl, rfl, rfl, rfl, rfl, rfl, rfl⟩

section Library

variable (library : TextLibrary η) (channel : MainChannel η)

theorem handleGuestClipboard_aside (message : GuestClipboard) (hostText : Option (List Char)) :
    Aside channel (channel.handleGuestClipboard library message hostText) := by
  unfold handleGuestClipboard
  split
  · split
    · exact sendClipboard_aside channel _ _
    · exact .record channel _ _
  split
  · split
    · exact sendClipboard_aside channel _ _
    · exact .record channel _ _
  · split
    · exact .record channel _ _
    · split <;> exact .record channel _ _
  · dsimp only
    split <;> exact sendClipboard_aside channel _ _
  · exact .record channel _ _

theorem handleAgentMessage_aside {agentType : UInt32}
    (other : agentType ≠ vdAgentAnnounceCapabilities) (payload : Bytes)
    (hostText : Option (List Char)) :
    Aside channel (channel.handleAgentMessage library agentType payload hostText) := by
  unfold handleAgentMessage
  repeat' split
  all_goals first
    | exact handleGuestClipboard_aside library channel _ _
    | exact sendClipboard_aside channel _ _
    | exact .record channel _ _

variable [DecidableEq η]

theorem pollHostClipboard_aside (generation : Option UInt64)
    (read : ClipboardRead) : Aside channel (channel.pollHostClipboard library generation read) := by
  unfold pollHostClipboard
  split
  · exact .record channel _ _
  split
  · exact .record channel _ _
  split
  · exact .record channel _ _
  dsimp only
  split
  · exact .record channel _ _
  split
  · exact .record channel _ _
  split
  · exact .record channel _ _
  -- What is recorded before the grab is sent is no part of the relation.
  · exact { sendClipboard_aside _ _ _ with }

end Library

end MainChannel

end Ryll
