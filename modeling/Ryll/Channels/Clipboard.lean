import Ryll.Channels.MainChannel
import Ryll.Foundation.Runs

/-!
# Host clipboard changes reach the guest

The main channel remembers a hash of the clipboard text that last crossed, and a poll of the host
clipboard offers other text with a GRAB.  The hash is recorded whether or not the queue takes the
GRAB, and it outlives the agent; where neither matters, every change is offered and no echo is.
-/

namespace Ryll

open MainChannel

def GuestClipboard.text {η : Type} (library : TextLibrary η) : GuestClipboard → Option (List Char)
  | .data clipboard =>
    if clipboard.selection = vdAgentClipboardSelectionClipboard ∧
        clipboard.clipboardType = vdAgentClipboardUtf8Text ∧ clipboard.data.isEmpty = false then
      some (library.fromUtf8Lossy clipboard.data)
    else
      none
  | _ => none

namespace MainChannel

variable {η : Type}

def grabMessage (hasSelection : Bool) : Bytes :=
  agentMessage vdAgentClipboardGrab
    (ClipboardGrab.writeWith ⟨vdAgentClipboardSelectionClipboard, [vdAgentClipboardUtf8Text]⟩
      hasSelection)

/-! ## What leaves the remembered hash alone -/

/-- Messages may be sent to the agent, and the remembered hash is left alone. -/
structure Quiet (channel channel' : MainChannel η) : Prop where
  sends : channel.sender.Sends channel'.sender
  hash : channel'.lastClipboardHash = channel.lastClipboardHash

variable (channel : MainChannel η)

/-- Nothing is sent, and the hash is set. -/
def Remembers (channel' : MainChannel η) (hash : η) : Prop :=
  channel'.sender = channel.sender ∧ channel'.lastClipboardHash = some hash

theorem Quiet.refl : channel.Quiet channel := ⟨.refl _ _, rfl⟩

theorem Quiet.trans {first second third : MainChannel η} (early : first.Quiet second)
    (late : second.Quiet third) : first.Quiet third :=
  ⟨early.sends.trans late.sends, late.hash.trans early.hash⟩

theorem sendAgentDataMessage_quiet (messageType : UInt32) (payload : Bytes) :
    channel.Quiet (channel.sendAgentDataMessage messageType payload).1 := by
  obtain ⟨sender, accepted, sent, sends, -⟩ :=
    channel.sendAgentDataMessage_cases messageType payload
  rw [sent]
  exact ⟨sends, rfl⟩

theorem sendClipboard_quiet (messageType : UInt32) (write : Bool → Bytes) :
    channel.Quiet (channel.sendClipboard messageType write).1 := by
  unfold sendClipboard
  split
  · exact .refl channel
  · exact sendAgentDataMessage_quiet channel messageType _

theorem maybeSendAnnounceCapabilities_quiet :
    channel.Quiet channel.maybeSendAnnounceCapabilities := by
  obtain ⟨sender, announced, same, sends, -⟩ := channel.maybeSendAnnounceCapabilities_cases
  rw [same]
  exact ⟨sends, rfl⟩

theorem maybeSendAgentMonitorsConfig_quiet :
    channel.Quiet channel.maybeSendAgentMonitorsConfig := by
  unfold maybeSendAgentMonitorsConfig
  split
  · exact .refl channel
  split
  · exact .refl channel
  split
  · exact .refl channel
  split
  · exact ⟨.refl _ _, rfl⟩
  · have sent := sendAgentDataMessage_quiet channel vdAgentMonitorsConfig
    dsimp only
    split
    · exact ⟨(sent _).sends, (sent _).hash⟩
    · exact sent _

theorem maybeSendSettledMonitorsConfig_quiet :
    channel.Quiet channel.maybeSendSettledMonitorsConfig := by
  unfold maybeSendSettledMonitorsConfig
  split
  · exact .refl channel
  · exact channel.maybeSendAgentMonitorsConfig_quiet

theorem connectAgent_quiet : channel.Quiet channel.connectAgent :=
  channel.maybeSendAnnounceCapabilities_quiet.trans (maybeSendSettledMonitorsConfig_quiet _)

section Library

variable (library : TextLibrary η) (channel : MainChannel η)

theorem handleGuestClipboard_cases (message : GuestClipboard)
    (hostText : Option (List Char)) : (∃ text, message.text library = some text ∧
        channel.Remembers (channel.handleGuestClipboard library message hostText)
          (library.hashClipboard text)) ∨ message.text library = none ∧
        channel.Quiet (channel.handleGuestClipboard library message hostText) := by
  unfold handleGuestClipboard
  cases message with
  | grab grab =>
    refine .inr ⟨rfl, ?_⟩
    dsimp only
    split
    · exact .refl channel
    · split
      · exact sendClipboard_quiet channel _ _
      · exact .refl channel
  | data clipboard =>
    dsimp only [GuestClipboard.text]
    by_cases sets : clipboard.selection = vdAgentClipboardSelectionClipboard ∧
        clipboard.clipboardType = vdAgentClipboardUtf8Text ∧ clipboard.data.isEmpty = false
    · obtain ⟨synced, utf8, something⟩ := sets
      exact .inl ⟨_, if_pos ⟨synced, utf8, something⟩, by
        simp [Remembers, GuestClipboard.selection, synced, utf8, something]⟩
    refine .inr ⟨if_neg sets, ?_⟩
    split
    · exact .refl channel
    split
    · exact .refl channel
    split
    · exact .refl channel
    · next synced utf8 something =>
      exact absurd ⟨Decidable.not_not.mp synced, Decidable.not_not.mp utf8,
        Bool.eq_false_iff.mpr something⟩ sets
  | request request =>
    refine .inr ⟨rfl, ?_⟩
    dsimp only
    split
    · exact sendClipboard_quiet channel _ _
    · split <;> exact sendClipboard_quiet channel _ _
  | release release =>
    refine .inr ⟨rfl, ?_⟩
    split <;> exact .refl channel

def guestText (agentType : UInt32) (payload : Bytes) : Option (List Char) :=
  match channel.guestClipboardSelection with
  | none => none
  | some hasSelection =>
    match GuestClipboard.decode agentType payload hasSelection with
    | .ok message => message.text library
    | _ => none

theorem handleAgentMessage_cases (agentType : UInt32)
    (payload : Bytes) (hostText : Option (List Char)) :
    (∃ text, channel.guestText library agentType payload = some text ∧
        channel.Remembers (channel.handleAgentMessage library agentType payload hostText)
          (library.hashClipboard text)) ∨ channel.guestText library agentType payload = none ∧
        channel.Quiet (channel.handleAgentMessage library agentType payload hostText) := by
  unfold handleAgentMessage guestText
  by_cases clipboard : agentType = vdAgentClipboardGrab ∨ agentType = vdAgentClipboard ∨
      agentType = vdAgentClipboardRequest ∨ agentType = vdAgentClipboardRelease
  · rw [if_pos clipboard]
    cases channel.guestClipboardSelection with
    | none => exact .inr ⟨rfl, .refl channel⟩
    | some hasSelection =>
      dsimp only
      cases GuestClipboard.decode agentType payload hasSelection with
      | ok message => exact channel.handleGuestClipboard_cases library message hostText
      | error reason | fault cause =>
        refine .inr ⟨rfl, ?_⟩
        dsimp only
        repeat' split
        all_goals first
          | exact sendClipboard_quiet channel _ _
          | exact .refl channel
  · rw [if_neg clipboard]
    refine .inr ⟨?_, ?_⟩
    · simp only [not_or] at clipboard
      cases channel.guestClipboardSelection <;> simp [GuestClipboard.decode, clipboard]
    · split
      · obtain ⟨selection, asked, same⟩ := channel.handleAnnounceCapabilities_eq payload
        rw [same]
        refine .trans ?_ (maybeSendSettledMonitorsConfig_quiet _)
        have heard (announced : Bool) : channel.Quiet { channel with
            guestClipboardSelection := some selection, agentCapsAnnounced := announced } :=
          ⟨.refl _ _, rfl⟩
        cases asked with
        | false => exact heard channel.agentCapsAnnounced
        | true => exact (heard false).trans (maybeSendAnnounceCapabilities_quiet _)
      · exact .refl channel

def pollText (generation : Option UInt64) : ClipboardRead → Option (List Char)
  | .completed (some text) =>
    if channel.agentConnected && channel.agentCapsAnnounced &&
        channel.guestClipboardSelection.isSome && channel.hasClipboard &&
        !(generation.isSome && generation = channel.lastPolledClipboardGeneration) &&
        !text.isEmpty then
      some text
    else
      none
  | _ => none

variable {generation : Option UInt64} {read : ClipboardRead}

theorem pollText_eq_some {channel : MainChannel η} {text : List Char}
    (reads : channel.pollText generation read = some text) :
    read = .completed (some text) ∧ text.isEmpty = false ∧ channel.hasClipboard = true ∧
      (channel.agentConnected && channel.agentCapsAnnounced &&
        channel.guestClipboardSelection.isSome) = true ∧
      (generation.isSome && generation = channel.lastPolledClipboardGeneration) = false := by
  unfold pollText at reads
  split at reads
  · split at reads
    · next text' active =>
      cases reads
      simp only [Bool.and_eq_true, Bool.not_eq_true'] at active
      simp [active]
    · cases reads
  · cases reads

/-- An event was handled: messages may have been sent, and the hash of the text is remembered. -/
structure Handled (channel channel' : MainChannel η) (text : Option (List Char)) : Prop where
  sends : channel.sender.Sends channel'.sender
  hash : channel'.lastClipboardHash = (text.map library.hashClipboard).or channel.lastClipboardHash

theorem Quiet.handled {channel channel' : MainChannel η} (quiet : channel.Quiet channel') :
    Handled library channel channel' none :=
  ⟨quiet.sends, quiet.hash⟩

variable [DecidableEq η]

section

variable {channel : MainChannel η} {read : ClipboardRead} {text : List Char}
  (reads : channel.pollText generation read = some text)
include reads

theorem step_clipboardInterval_known
    (known : channel.lastClipboardHash = some (library.hashClipboard text)) :
    channel.step library (.clipboardInterval generation read) =
      { channel with lastPolledClipboardGeneration := generation } := by
  obtain ⟨rfl, something, present, active, fresh⟩ := pollText_eq_some reads
  simp only [step, if_pos active]
  simp only [pollHostClipboard, present, fresh, something, known]
  simp

theorem step_clipboardInterval_changed
    (changed : channel.lastClipboardHash ≠ some (library.hashClipboard text)) :
    channel.step library (.clipboardInterval generation read) = { channel with
        lastPolledClipboardGeneration := generation
        lastClipboardHash := some (library.hashClipboard text) }.sendClipboardGrab.1 := by
  obtain ⟨rfl, something, present, active, fresh⟩ := pollText_eq_some reads
  simp only [step, if_pos active]
  simp only [pollHostClipboard, present, fresh, something]
  simp [changed]

end

variable (channel : MainChannel η)

def recordedText : MainEvent → Option (List Char)
  | .agentMessage messageType payload _ => channel.guestText library messageType payload
  | .clipboardInterval generation read => channel.pollText generation read
  | _ => none

theorem handled_clipboardInterval (generation : Option UInt64) (read : ClipboardRead) :
    Handled library channel (channel.step library (.clipboardInterval generation read))
      (channel.pollText generation read) := by
  cases reads : channel.pollText generation read with
  | none =>
    refine (?_ : channel.Quiet _).handled library
    simp only [step]
    split
    · next active =>
      unfold pollHostClipboard
      split
      · exact .refl channel
      split
      · exact .refl channel
      split
      · exact .refl channel
      next clipboard fresh text =>
      split
      · exact ⟨.refl _ _, rfl⟩
      split
      · exact ⟨.refl _ _, rfl⟩
      · next text something => simp_all [pollText]
    · exact .refl channel
  | some text =>
    by_cases known : channel.lastClipboardHash = some (library.hashClipboard text)
    · rw [step_clipboardInterval_known library reads known]
      exact ⟨.refl _ _, known⟩
    · rw [step_clipboardInterval_changed library reads known]
      have sent := sendClipboard_quiet { channel with
        lastPolledClipboardGeneration := generation
        lastClipboardHash := some (library.hashClipboard text) } vdAgentClipboardGrab
      exact ⟨(sent _).sends, (sent _).hash⟩

theorem step_handled {event : MainEvent}
    (stays : event ≠ .agentDisconnected) : Handled library channel (channel.step library event)
      (channel.recordedText library event) := by
  cases event with
  | init connected tokens =>
    have adopted : channel.Quiet { channel with
        agentConnected := connected
        sender := channel.sender.adoptWindow tokens
        agentCapsAnnounced := false } := ⟨.single (.adoptWindow tokens) (by rintro ⟨⟩), rfl⟩
    refine Quiet.handled library ?_
    simp only [step]
    split
    · exact adopted.trans (connectAgent_quiet _)
    · exact adopted
  | agentConnected =>
    have connected : channel.Quiet { channel with agentConnected := true } := ⟨.refl _ _, rfl⟩
    exact (connected.trans (connectAgent_quiet _)).handled library
  | agentConnectedTokens payload =>
    have connected {sender : AgentSender} (sends : channel.sender.Sends sender) :
        channel.Quiet { channel with sender, agentConnected := true }.connectAgent := by
      have adopted : channel.Quiet { channel with sender, agentConnected := true } := ⟨sends, rfl⟩
      exact adopted.trans (connectAgent_quiet _)
    simp only [step]
    split
    · next tokens _ =>
      have adopted := connected (.single (.adoptWindow tokens) (by rintro ⟨⟩))
      exact ⟨adopted.sends.trans (.single .flush (by rintro ⟨⟩)), adopted.hash⟩
    · have same := connected (.refl _ _)
      exact ⟨same.sends.trans (.single .flush (by rintro ⟨⟩)), same.hash⟩
  | agentDisconnected => exact absurd rfl stays
  | agentToken payload =>
    have granted : channel.Quiet { channel with
        sender := (channel.sender.grant ((agentTokens payload).getD 1)).flush } :=
      ⟨.trans (.single (.grant _) (by rintro ⟨⟩)) (.single .flush (by rintro ⟨⟩)), rfl⟩
    exact (granted.trans (maybeSendAnnounceCapabilities_quiet _)).handled library
  | agentMessage messageType payload hostText =>
    simp only [step, recordedText]
    rcases channel.handleAgentMessage_cases library messageType payload hostText with
      ⟨text, sets, same, remembered⟩ | ⟨sets, quiet⟩
    · rw [sets]
      exact ⟨same ▸ .refl _ _, remembered⟩
    · rw [sets]
      exact quiet.handled library
  | displaySize size =>
    refine Quiet.handled library ?_
    cases size with
    | requested width height =>
      simp only [step, noteDisplaySize]
      split <;> exact ⟨.refl _ _, rfl⟩
    | guestHas width height => exact ⟨.refl _ _, rfl⟩
  | debounceExpired =>
    refine Quiet.handled library ?_
    have settled : channel.Quiet { channel with resizeDebounce := false } := ⟨.refl _ _, rfl⟩
    simp only [step]
    split
    · exact settled.trans (maybeSendAgentMonitorsConfig_quiet _)
    · exact .refl channel
  | clipboardInterval generation read =>
    exact channel.handled_clipboardInterval library generation read

theorem lastClipboardHash_step (event : MainEvent) :
    (channel.step library event).lastClipboardHash =
      ((channel.recordedText library event).map library.hashClipboard).or
        channel.lastClipboardHash := by
  by_cases leaves : event = .agentDisconnected
  · rw [leaves]
    rfl
  · exact (channel.step_handled library leaves).hash

theorem run_sends {events : List MainEvent} (stays : .agentDisconnected ∉ events) :
    channel.sender.Sends (channel.run library events).sender := by
  induction events generalizing channel with
  | nil => exact .refl _ _
  | cons event events ih =>
    obtain ⟨here, later⟩ := not_or.mp (mt List.mem_cons.mpr stays)
    exact (channel.step_handled library (Ne.symm here)).sends.trans (ih _ later)

end Library

theorem sendClipboardGrab_posts {hasSelection : Bool}
    (selection : channel.guestClipboardSelection = some hasSelection)
    (room : channel.sender.queue.messages.length < maxQueuedAgentMessages) :
    ∃ fate, fate ≠ .cancelled ∧
      channel.sendClipboardGrab.1.sender.ledger[channel.sender.ledger.length]? =
        some (grabMessage hasSelection, fate) := by
  obtain ⟨sender, accepted, sent, -, effect⟩ :=
    channel.sendAgentDataMessage_cases vdAgentClipboardGrab
      (ClipboardGrab.writeWith ⟨vdAgentClipboardSelectionClipboard, [vdAgentClipboardUtf8Text]⟩
        hasSelection)
  simp only [sendClipboardGrab, sendClipboard, selection, sent]
  rcases effect with ⟨-, -, posted⟩ | ⟨-, full, -⟩
  · exact posted
  · omega

end MainChannel

/-- A channel with the clipboard texts that crossed (history). -/
structure ClipboardWorld (η : Type) where
  channel : MainChannel η
  fromGuest : Option (List Char)
  /-- The text last offered to the connected agent since then. -/
  offered : Option (List Char)

namespace ClipboardWorld

variable {η : Type}

/-- The text that crossed last: set by the guest, or offered to the connected agent. -/
def crossed (world : ClipboardWorld η) : Option (List Char) := world.offered.or world.fromGuest

/-- Another text than the one that crossed last, apart from line endings and trailing space. -/
def Fresh (world : ClipboardWorld η) (text : List Char) : Prop :=
  ∀ known, world.crossed = some known → normalizeClipboard known ≠ normalizeClipboard text

def opened (monitors : UInt8) (hasClipboard : Bool) : ClipboardWorld η :=
  ⟨.new monitors hasClipboard, none, none⟩

section Library

variable (library : TextLibrary η)

/-- The channel remembers the text that crossed last. -/
def Remembered (world : ClipboardWorld η) : Prop :=
  world.channel.lastClipboardHash = world.crossed.map library.hashClipboard

variable {world : ClipboardWorld η} {generation : Option UInt64}
  {channel : MainChannel η} {read : ClipboardRead}

theorem Remembered.still (remembered : world.Remembered library)
    (same : channel.lastClipboardHash = world.channel.lastClipboardHash) :
    Remembered library { world with channel } :=
  same.trans remembered

theorem Remembered.newAgent (remembered : world.Remembered library) (nothing : world.offered = none)
    (same : channel.lastClipboardHash = world.channel.lastClipboardHash) :
    Remembered library { world with channel, offered := none } := by
  rw [Remembered, crossed, nothing] at remembered
  exact same.trans remembered

variable [DecidableEq η]

def step (world : ClipboardWorld η) (event : MainEvent) : ClipboardWorld η :=
  let channel := world.channel.step library event
  match event with
  | .init _ _ | .agentConnected | .agentConnectedTokens _ | .agentDisconnected =>
    { world with channel, offered := none }
  | .agentMessage messageType payload _ =>
    match world.channel.guestText library messageType payload with
    | some text => ⟨channel, some text, none⟩
    | none => { world with channel }
  | .clipboardInterval generation read =>
    match world.channel.pollText generation read with
    | some text =>
      if world.channel.sender.ledger.length < channel.sender.ledger.length then
        { world with channel, offered := some text }
      else
        { world with channel }
    | none => { world with channel }
  | _ => { world with channel }

def run (world : ClipboardWorld η) (events : List MainEvent) : ClipboardWorld η :=
  events.foldl (step library) world

/-- The agent changes only with nothing on offer; changed text is read with room in the queue. -/
def Orderly (world : ClipboardWorld η) : MainEvent → Prop
  | .init _ _ | .agentConnected | .agentConnectedTokens _ | .agentDisconnected =>
    world.offered = none
  | .clipboardInterval generation read =>
    ∀ text, world.channel.pollText generation read = some text → world.Fresh text →
      world.channel.sender.queue.messages.length < maxQueuedAgentMessages
  | _ => True

/-- Every event of a run is orderly. -/
abbrev OrderlyRun (world : ClipboardWorld η) (events : List MainEvent) : Prop :=
  Meets (total (step library)) Orderly world events

theorem poll_posts {text : List Char} (reads : world.channel.pollText generation read = some text)
    (changed : world.channel.lastClipboardHash ≠ some (library.hashClipboard text))
    (room : world.channel.sender.queue.messages.length < maxQueuedAgentMessages) :
    ∃ hasSelection fate, world.channel.guestClipboardSelection = some hasSelection ∧
      fate ≠ .cancelled ∧
      (world.channel.step library (.clipboardInterval generation read)).sender.ledger[
        world.channel.sender.ledger.length]? =
        some (grabMessage hasSelection, fate) := by
  obtain ⟨-, -, -, active, -⟩ := pollText_eq_some reads
  obtain ⟨hasSelection, selection⟩ := Option.isSome_iff_exists.mp (Bool.and_eq_true_iff.mp active).2
  rw [step_clipboardInterval_changed library reads changed]
  obtain ⟨fate, kept, posted⟩ := sendClipboardGrab_posts
    { world.channel with
      lastPolledClipboardGeneration := generation
      lastClipboardHash := some (library.hashClipboard text) } selection room
  exact ⟨hasSelection, fate, selection, kept, posted⟩

theorem Remembered.step (remembered : world.Remembered library) {event : MainEvent}
    (orderly : world.Orderly event) : (world.step library event).Remembered library := by
  have hash := world.channel.lastClipboardHash_step library event
  cases event with
  | init connected tokens | agentConnected | agentConnectedTokens payload =>
    exact remembered.newAgent library orderly hash
  | agentDisconnected => exact remembered.newAgent library orderly rfl
  | agentToken payload =>
    exact remembered.still library hash
  | agentMessage messageType payload hostText =>
    simp only [ClipboardWorld.step]
    simp only [recordedText] at hash
    cases sets : world.channel.guestText library messageType payload with
    | none =>
      rw [sets] at hash
      exact remembered.still library hash
    | some text =>
      rw [sets] at hash
      exact hash
  | displaySize size | debounceExpired =>
    exact remembered.still library hash
  | clipboardInterval generation read =>
    have handled := world.channel.handled_clipboardInterval library generation read
    simp only [ClipboardWorld.step]
    cases reads : world.channel.pollText generation read with
    | none =>
      rw [reads] at handled
      exact remembered.still library handled.hash
    | some text =>
      rw [reads] at handled
      by_cases known : world.channel.lastClipboardHash = some (library.hashClipboard text)
      · rw [step_clipboardInterval_known library reads known]
        dsimp only
        rw [if_neg (Nat.lt_irrefl _)]
        exact remembered.still library rfl
      · have fresh : world.Fresh text := by
          intro known' crossed same
          refine known ?_
          rw [remembered, crossed, Option.map_some, TextLibrary.hashClipboard, same]
          rfl
        obtain ⟨hasSelection, fate, -, -, posted⟩ := poll_posts library reads known
          (orderly text reads fresh)
        dsimp only
        rw [if_pos (List.getElem?_eq_some_iff.mp posted).1]
        exact handled.hash

/-- After orderly events, a poll sends nothing for the text that crossed last and offers other text
with a GRAB, which is not dropped while the agent stays. -/
theorem poll_offers_changes
    (injective : ∀ first second, library.hashClipboard first = library.hashClipboard second →
      normalizeClipboard first = normalizeClipboard second)
    (monitors : UInt8) (hasClipboard : Bool) (events : List MainEvent)
    (orderly : OrderlyRun library (opened monitors hasClipboard) events)
    (world : ClipboardWorld η) (ran : (opened monitors hasClipboard).run library events = world)
    (generation : Option UInt64) (read : ClipboardRead) (text : List Char)
    (reads : world.channel.pollText generation read = some text) :
    (∀ known, world.crossed = some known → normalizeClipboard known = normalizeClipboard text →
      (world.channel.step library (.clipboardInterval generation read)).sender =
        world.channel.sender) ∧
    (world.Fresh text → world.channel.sender.queue.messages.length < maxQueuedAgentMessages →
      ∀ later, .agentDisconnected ∉ later →
        ∃ hasSelection fate, world.channel.guestClipboardSelection = some hasSelection ∧
          fate ≠ .cancelled ∧
          (world.channel.run library (.clipboardInterval generation read :: later)).sender.ledger[
            world.channel.sender.ledger.length]? =
            some (grabMessage hasSelection, fate)) := by
  have remembered : world.Remembered library :=
    ran ▸ foldl_invariant (fun _ _ remembered => remembered.step library) rfl orderly
  constructor
  · intro known crossed same
    rw [step_clipboardInterval_known library reads]
    rw [remembered, crossed, Option.map_some, TextLibrary.hashClipboard, same]
    rfl
  · intro fresh room later stays
    have changed : world.channel.lastClipboardHash ≠ some (library.hashClipboard text) := by
      intro known
      rw [remembered] at known
      obtain ⟨other, crossed, same⟩ := Option.map_eq_some_iff.mp known
      exact fresh other crossed (injective other text same)
    obtain ⟨hasSelection, fate, selection, kept, posted⟩ :=
      poll_posts library reads changed room
    obtain ⟨fate', listed, delivered⟩ := (run_sends library _ stays).delivers _ _ _ posted
    refine ⟨hasSelection, fate', selection, ?_, listed⟩
    rcases delivered with rfl | ⟨-, rfl⟩
    · exact kept
    · nofun

end Library

def greeted : List MainEvent :=
  [.init true 10, .agentMessage vdAgentAnnounceCapabilities [] none]

/-- The first text copied on the host is offered, and the offer is not dropped. -/
theorem first_text_offered :
    let world : ClipboardWorld (List Char) := (opened 1 true).run plainText greeted
    ∃ hasSelection fate, world.channel.guestClipboardSelection = some hasSelection ∧
      fate ≠ .cancelled ∧
      (world.channel.run plainText
        [.clipboardInterval none (.completed (some ['a'])), .agentToken []]).sender.ledger[
          world.channel.sender.ledger.length]? =
        some (grabMessage hasSelection, fate) := by
  intro world
  refine (poll_offers_changes plainText (fun first second same => same) 1 true greeted
    ⟨rfl, fun _ _ => ⟨trivial, fun _ _ => trivial⟩⟩ world rfl none (.completed (some ['a'])) ['a']
    (by decide +kernel)).2 ?_ (by decide +kernel) [.agentToken []] (by simp)
  intro known crossed
  cases crossed

/-- Text that was offered to an agent is not offered to the next one. -/
theorem text_withheld_from_next_agent :
    let poll : MainEvent := .clipboardInterval none (.completed (some ['a']))
    let world : ClipboardWorld (List Char) := (opened 1 true).run plainText
      (greeted ++ [poll, .agentDisconnected, .agentConnectedTokens [10, 0, 0, 0],
        .agentMessage vdAgentAnnounceCapabilities [] none])
    world.channel.pollText none (.completed (some ['a'])) = some ['a'] ∧ world.crossed = none ∧
      world.channel.sender.queue.messages.length < maxQueuedAgentMessages ∧
      (world.channel.step plainText poll).sender.ledger = world.channel.sender.ledger := by
  decide +kernel

end ClipboardWorld

end Ryll
