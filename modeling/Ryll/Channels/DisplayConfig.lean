import Ryll.Channels.MainChannel

/-!
# The display size reaches the guest

A frontend asks for a display size, and the main channel sends it to the guest agent once the size
has settled and the agent can take it.
-/

namespace Ryll

open MainChannel

/-! ## The size asked for last -/

def configMessage (monitors : UInt8) (size : Size) : Bytes :=
  agentMessage vdAgentMonitorsConfig (agentMonitorsConfig monitors size.1 size.2).write

/-- A channel with the size that its frontends want (history). -/
structure DisplayWorld (η : Type) where
  channel : MainChannel η
  /-- The last size a frontend requested, if the guest is not known to have it. -/
  wanted : Option Size
  /-- How many messages had been accepted for the agent when it was requested. -/
  mark : Nat

open DisplayWorld

namespace DisplayWorld

variable {η : Type}

/-- A message was accepted since the size was requested. -/
def Posted (world : DisplayWorld η) (message : Bytes) : Prop :=
  ∃ index fate, world.mark ≤ index ∧ world.channel.sender.ledger[index]? = some (message, fate)

/-- The pending size is the wanted one, and a wanted size that is not pending was queued. -/
structure Tracked (world : DisplayWorld η) : Prop where
  placed : world.mark ≤ world.channel.sender.ledger.length
  pending : ∀ size, world.channel.pendingMonitorsConfig = some size →
    world.wanted = some size ∧ world.channel.lastSentMonitorsConfig ≠ some size
  queued : ∀ size, world.wanted = some size → world.channel.pendingMonitorsConfig = none →
    world.Posted (configMessage world.channel.monitors size)

/-- The queue took every announcement of our capabilities and every size. -/
def Unrefused (channel : MainChannel η) : Prop :=
  capabilitiesMessage ∉ channel.sender.refused ∧
    ∀ size, configMessage channel.monitors size ∉ channel.sender.refused

/-- The channel did not miss a chance to announce itself or to send a size. -/
structure Prompt (channel : MainChannel η) : Prop where
  announced : channel.agentConnected = true → channel.agentCapsAnnounced = true
  settled : channel.agentConnected = true → channel.resizeDebounce = false →
    channel.pendingMonitorsConfig = none

variable {world : DisplayWorld η} {channel : MainChannel η}

/-- The channel did something that keeps the record of the sizes. -/
structure Reacts (world : DisplayWorld η) (channel : MainChannel η) : Prop where
  tracked : Tracked { world with channel }
  reaches : AgentSender.Reaches (fun _ => True) world.channel.sender channel.sender
  monitors : channel.monitors = world.channel.monitors

theorem Reacts.trans {middle : MainChannel η} (early : world.Reacts middle)
    (late : Reacts { world with channel := middle } channel) : world.Reacts channel :=
  ⟨late.tracked, early.reaches.trans late.reaches, late.monitors.trans early.monitors⟩

theorem Reacts.unrefused (reacts : world.Reacts channel)
    (clean : Unrefused channel) : Unrefused world.channel := by
  refine ⟨fun listed => clean.1 (reacts.reaches.refused listed), fun size listed => ?_⟩
  rw [← reacts.monitors] at listed
  exact clean.2 size (reacts.reaches.refused listed)

section

variable (tracked : world.Tracked)
include tracked

theorem Tracked.unchanged (channel : MainChannel η)
    (monitors : channel.monitors = world.channel.monitors)
    (pending : channel.pendingMonitorsConfig = world.channel.pendingMonitorsConfig)
    (lastSent : channel.lastSentMonitorsConfig = world.channel.lastSentMonitorsConfig)
    (reaches : AgentSender.Reaches (fun _ => True) world.channel.sender channel.sender) :
    world.Reacts channel := by
  refine ⟨⟨Nat.le_trans tracked.placed reaches.advances.length_le, ?_, ?_⟩, reaches, monitors⟩
  · intro size listed
    simp only [pending, lastSent] at listed ⊢
    exact tracked.pending size listed
  · intro size wanted idle
    simp only [pending, monitors] at idle ⊢
    obtain ⟨index, fate, late, listed⟩ := tracked.queued size wanted idle
    obtain ⟨fate', listed', -⟩ := reaches.advances index _ fate listed
    exact ⟨index, fate', late, listed'⟩

theorem Tracked.maybeSendAgentMonitorsConfig :
    ∃ channel, world.channel.maybeSendAgentMonitorsConfig = channel ∧ world.Reacts channel ∧
      channel.agentConnected = world.channel.agentConnected ∧
      channel.agentCapsAnnounced = world.channel.agentCapsAnnounced ∧
      (Unrefused channel → channel.agentConnected = true →
        channel.agentCapsAnnounced = true → channel.pendingMonitorsConfig = none) := by
  refine ⟨_, rfl, ?_⟩
  have still : world.Reacts world.channel := tracked.unchanged _ rfl rfl rfl (.refl _ _)
  unfold MainChannel.maybeSendAgentMonitorsConfig
  split
  · next none_pending =>
    exact ⟨still, rfl, rfl, fun _ _ _ => none_pending⟩
  next size pending =>
  obtain ⟨wanted, fresh⟩ := tracked.pending size pending
  split
  · next away =>
    exact ⟨still, rfl, rfl, fun _ here => by simp [here] at away⟩
  split
  · next unknown =>
    exact ⟨still, rfl, rfl, fun _ _ known => by simp [known] at unknown⟩
  obtain ⟨sender, accepted, sent, sends, effect⟩ :=
    world.channel.sendAgentDataMessage_cases vdAgentMonitorsConfig
      (world.channel.monitorsConfigPayload size)
  rw [sent]
  have reaches := sends.weaken
  rcases effect with ⟨rfl, -, fate, -, listed⟩ | ⟨rfl, -, refused⟩
  · refine ⟨⟨⟨?_, nofun, ?_⟩, reaches, rfl⟩, rfl, rfl, fun _ _ _ => rfl⟩
    · exact Nat.le_trans tracked.placed reaches.advances.length_le
    · intro other wanted' _
      obtain rfl := Option.some.inj (wanted.symm.trans wanted')
      exact ⟨world.channel.sender.ledger.length, fate, tracked.placed, listed⟩
  · refine ⟨tracked.unchanged _ rfl rfl rfl reaches, rfl, rfl, ?_⟩
    intro clean
    exact absurd refused (clean.2 size)

theorem Tracked.maybeSendSettledMonitorsConfig :
    ∃ channel, world.channel.maybeSendSettledMonitorsConfig = channel ∧ world.Reacts channel ∧
      (Unrefused channel →
        (world.channel.agentConnected = true → world.channel.agentCapsAnnounced = true) →
        Prompt channel) := by
  unfold MainChannel.maybeSendSettledMonitorsConfig
  split
  · next running =>
    refine ⟨_, rfl, tracked.unchanged _ rfl rfl rfl (.refl _ _), fun _ announced => ?_⟩
    refine ⟨announced, fun _ stopped => ?_⟩
    rw [running] at stopped
    cases stopped
  · obtain ⟨channel, same, reacts, connected, announced, idle⟩ :=
      tracked.maybeSendAgentMonitorsConfig
    refine ⟨channel, same, reacts, fun clean known => ⟨?_, ?_⟩⟩
    · rw [connected, announced]
      exact known
    · intro here _
      exact idle clean here (by rw [announced]; exact known (connected ▸ here))

theorem Tracked.connectAgent :
    ∃ channel, world.channel.connectAgent = channel ∧ world.Reacts channel ∧
      (Unrefused channel → Prompt channel) := by
  obtain ⟨sender, announced, same, sends, told, -⟩ :=
    world.channel.maybeSendAnnounceCapabilities_cases
  have told_them := tracked.unchanged { world.channel with sender, agentCapsAnnounced := announced }
    rfl rfl rfl sends.weaken
  obtain ⟨channel, same', reacts, prompt⟩ := told_them.tracked.maybeSendSettledMonitorsConfig
  refine ⟨channel, ?_, told_them.trans reacts, fun clean => prompt clean ?_⟩
  · rw [MainChannel.connectAgent, same]
    exact same'
  · exact told (reacts.unrefused clean).1

end

/-! ## Runs -/

def note (world : DisplayWorld η) : DisplaySize → DisplayWorld η
  | .requested width height =>
    if world.channel.lastSentMonitorsConfig = some (width, height) then
      { world with wanted := none }
    else
      { world with wanted := some (width, height), mark := world.channel.sender.ledger.length }
  | .guestHas _ _ => { world with wanted := none }

def opened (monitors : UInt8) (hasClipboard : Bool) : DisplayWorld η :=
  ⟨.new monitors hasClipboard, none, 0⟩

/-- What holds of a channel and its frontends throughout. -/
structure Faithful (world : DisplayWorld η) : Prop where
  consistent : world.channel.sender.Consistent
  tracked : world.Tracked
  prompt : Unrefused world.channel → Prompt world.channel

theorem faithful_opened (monitors : UInt8) (hasClipboard : Bool) :
    (opened monitors hasClipboard : DisplayWorld η).Faithful where
  consistent := AgentSender.consistent_new
  tracked := ⟨Nat.le_refl 0, nofun, nofun⟩
  prompt _ := ⟨nofun, fun _ _ => rfl⟩

section

variable (faithful : world.Faithful)
include faithful

theorem Faithful.reacts {channel : MainChannel η} (reacts : world.Reacts channel)
    (prompt : Unrefused channel → Prompt channel) : Faithful { world with channel } :=
  ⟨reacts.reaches.consistent faithful.consistent, reacts.tracked, prompt⟩

theorem Faithful.aside {channel : MainChannel η} (aside : world.channel.Aside channel) :
    Faithful { world with channel } := by
  have reacts := faithful.tracked.unchanged channel aside.monitors aside.pending aside.lastSent
    aside.sends.weaken
  refine faithful.reacts reacts fun clean => ?_
  have prompt := faithful.prompt (reacts.unrefused clean)
  refine ⟨?_, ?_⟩
  · rw [aside.agentConnected, aside.agentCapsAnnounced]
    exact prompt.announced
  · rw [aside.agentConnected, aside.debounce, aside.pending]
    exact prompt.settled

theorem Faithful.note (size : DisplaySize) :
    Faithful { world.note size with channel := world.channel.noteDisplaySize size } := by
  have announced := fun clean => (faithful.prompt clean).announced
  cases size with
  | requested width height =>
    simp only [DisplayWorld.note, noteDisplaySize]
    split
    · exact ⟨faithful.consistent,
        ⟨faithful.tracked.placed, by rintro _ ⟨⟩, by rintro _ ⟨⟩⟩,
        fun clean => ⟨announced clean, fun _ _ => rfl⟩⟩
    next fresh =>
    refine ⟨faithful.consistent, ⟨Nat.le_refl _, ?_, by rintro _ _ ⟨⟩⟩,
      fun clean => ⟨announced clean, by rintro _ ⟨⟩⟩⟩
    intro size pending
    cases pending
    exact ⟨rfl, fresh⟩
  | guestHas width height =>
    exact ⟨faithful.consistent, ⟨faithful.tracked.placed, by rintro _ ⟨⟩, by rintro _ ⟨⟩⟩,
      fun clean => ⟨announced clean, fun _ _ => rfl⟩⟩

theorem Faithful.hearCapabilities (payload : Bytes) :
    ∃ channel, world.channel.handleAnnounceCapabilities payload =
        channel.maybeSendSettledMonitorsConfig ∧ world.Reacts channel ∧
      (Unrefused channel → channel.agentConnected = true → channel.agentCapsAnnounced = true) := by
  obtain ⟨selection, asked, same⟩ := world.channel.handleAnnounceCapabilities_eq payload
  cases asked with
  | false =>
    exact ⟨_, same, faithful.tracked.unchanged _ rfl rfl rfl (.refl _ _),
      fun clean => (faithful.prompt clean).announced⟩
  | true =>
    obtain ⟨sender, announced, answered, sends, told, -⟩ :=
      maybeSendAnnounceCapabilities_cases { world.channel with
        guestClipboardSelection := some selection, agentCapsAnnounced := false }
    refine ⟨_, same, ?_⟩
    rw [if_pos rfl, answered]
    exact ⟨faithful.tracked.unchanged _ rfl rfl rfl sends.weaken, fun clean => told clean.1⟩

theorem Faithful.handleAnnounceCapabilities (payload : Bytes) :
    Faithful { world with channel := world.channel.handleAnnounceCapabilities payload } := by
  obtain ⟨channel, same, told, announced⟩ := faithful.hearCapabilities payload
  obtain ⟨channel', same', reacts, prompt⟩ := told.tracked.maybeSendSettledMonitorsConfig
  rw [same, same']
  refine faithful.reacts (told.trans reacts) fun clean => prompt clean ?_
  exact announced (reacts.unrefused clean)

theorem Faithful.connectAgent {channel : MainChannel η} (reacts : world.Reacts channel) :
    Faithful { world with channel := channel.connectAgent } := by
  obtain ⟨channel', same, reacts', prompt⟩ := reacts.tracked.connectAgent
  rw [same]
  exact faithful.reacts (reacts.trans reacts') prompt

theorem Faithful.flush : Faithful { world with
      channel := { world.channel with sender := world.channel.sender.flush } } :=
  faithful.aside ⟨.single .flush nofun, rfl, rfl, rfl, rfl, rfl, rfl, rfl⟩

theorem Faithful.grant (count : UInt32) : Faithful { world with channel := { world.channel with
        sender := (world.channel.sender.grant count).flush }.maybeSendAnnounceCapabilities } := by
  have granted : world.channel.sender.Sends (world.channel.sender.grant count).flush :=
    .trans (.single (.grant count) nofun) (.single .flush nofun)
  obtain ⟨sender, announced, same, sends, told, -⟩ :=
    maybeSendAnnounceCapabilities_cases { world.channel with
      sender := (world.channel.sender.grant count).flush }
  rw [same]
  have reacts := faithful.tracked.unchanged
    { world.channel with sender, agentCapsAnnounced := announced } rfl rfl rfl
    (granted.trans sends).weaken
  refine faithful.reacts reacts fun clean => ⟨told clean.1, ?_⟩
  exact (faithful.prompt (reacts.unrefused clean)).settled

theorem Faithful.debounceExpired : Faithful { world with
      channel := { world.channel with resizeDebounce := false }.maybeSendAgentMonitorsConfig } := by
  have still := faithful.tracked.unchanged { world.channel with resizeDebounce := false }
    rfl rfl rfl (.refl _ _)
  obtain ⟨channel, same, reacts, connected, announced, idle⟩ :=
    still.tracked.maybeSendAgentMonitorsConfig
  rw [same]
  have both := still.trans reacts
  refine faithful.reacts both fun clean => ?_
  have known : channel.agentConnected = true → channel.agentCapsAnnounced = true := by
    rw [connected, announced]
    exact (faithful.prompt (both.unrefused clean)).announced
  exact ⟨known, fun here _ => idle clean here (known here)⟩

theorem Faithful.wanted_sent (unrefused : Unrefused world.channel)
    (connected : world.channel.agentConnected = true)
    (settled : world.channel.resizeDebounce = false)
    (emptied : world.channel.sender.queue.messages = []) {size : Size}
    (wanted : world.wanted = some size) :
    ∃ fate, fate ≠ .waiting ∧ (configMessage world.channel.monitors size, fate) ∈
      world.channel.sender.ledger.drop world.mark := by
  have idle := (faithful.prompt unrefused).settled connected settled
  obtain ⟨index, fate, late, listed⟩ := faithful.tracked.queued size wanted idle
  have later : (configMessage world.channel.monitors size, fate) ∈
      world.channel.sender.ledger.drop world.mark := by
    rw [List.mem_iff_getElem?]
    exact ⟨index - world.mark, by rw [List.getElem?_drop, Nat.add_sub_cancel' late, listed]⟩
  refine ⟨fate, ?_, later⟩
  rintro rfl
  -- Nothing waits, as the waiting messages are those of the queue.
  have waiting := Ledger.mem_withFate.mpr (List.mem_of_mem_drop later)
  rw [faithful.consistent.waiting, AgentSendQueue.contents, emptied] at waiting
  cases waiting

end

section Library

variable [DecidableEq η] (library : TextLibrary η)

def step (world : DisplayWorld η) (event : MainEvent) : DisplayWorld η :=
  let noted :=
    match event with
    | .displaySize size => world.note size
    | _ => world
  { noted with channel := world.channel.step library event }

def run (world : DisplayWorld η) (events : List MainEvent) : DisplayWorld η :=
  events.foldl (step library) world

theorem Faithful.step (faithful : world.Faithful) (event : MainEvent) :
    (world.step library event).Faithful := by
  cases event with
  | init connected tokens =>
    have adopted := faithful.tracked.unchanged { world.channel with
      agentConnected := connected
      sender := world.channel.sender.adoptWindow tokens
      agentCapsAnnounced := false } rfl rfl rfl (.single (.adoptWindow tokens) trivial)
    cases connected with
    | false => exact faithful.reacts adopted fun _ => ⟨nofun, nofun⟩
    | true => exact faithful.connectAgent adopted
  | agentConnected =>
    exact faithful.connectAgent (faithful.tracked.unchanged _ rfl rfl rfl (.refl _ _))
  | agentConnectedTokens payload =>
    simp only [DisplayWorld.step, MainChannel.step]
    cases agentTokens payload with
    | none =>
      exact (faithful.connectAgent (faithful.tracked.unchanged
        { world.channel with agentConnected := true } rfl rfl rfl (.refl _ _))).flush
    | some tokens =>
      exact (faithful.connectAgent (faithful.tracked.unchanged { world.channel with
        sender := world.channel.sender.adoptWindow tokens
        agentConnected := true } rfl rfl rfl (.single (.adoptWindow tokens) trivial))).flush
  | agentDisconnected =>
    exact faithful.reacts
      (faithful.tracked.unchanged _ rfl rfl rfl (.single .discardUnstarted trivial))
      fun _ => ⟨nofun, nofun⟩
  | agentToken payload => exact faithful.grant ((agentTokens payload).getD 1)
  | agentMessage messageType payload hostText =>
    by_cases announces : messageType = vdAgentAnnounceCapabilities
    · subst announces
      exact faithful.handleAnnounceCapabilities payload
    · exact faithful.aside (world.channel.handleAgentMessage_aside library announces payload
        hostText)
  | displaySize size => exact faithful.note size
  | debounceExpired =>
    simp only [DisplayWorld.step, MainChannel.step]
    split
    · exact faithful.debounceExpired
    · exact faithful
  | clipboardInterval generation read =>
    simp only [DisplayWorld.step, MainChannel.step]
    split
    · exact faithful.aside (world.channel.pollHostClipboard_aside library generation read)
    · exact faithful

theorem Faithful.run (faithful : world.Faithful) (events : List MainEvent) :
    (world.run library events).Faithful := by
  induction events generalizing world with
  | nil => exact faithful
  | cons event events ih => exact ih (faithful.step library event)

theorem channel_run (world : DisplayWorld η) (events : List MainEvent) :
    (world.run library events).channel = world.channel.run library events := by
  induction events generalizing world with
  | nil => rfl
  | cons event events ih => exact ih (world.step library event)

theorem wanted_run (world : DisplayWorld η) {events : List MainEvent}
    (latest : ∀ size, .displaySize size ∉ events) :
    (world.run library events).wanted = world.wanted ∧
      (world.run library events).mark = world.mark := by
  induction events generalizing world with
  | nil => exact ⟨rfl, rfl⟩
  | cons event events ih =>
    have same : (world.step library event).wanted = world.wanted ∧
        (world.step library event).mark = world.mark := by
      cases event with
      | displaySize size => exact absurd List.mem_cons_self (latest size)
      | _ => exact ⟨rfl, rfl⟩
    obtain ⟨wanted, mark⟩ := ih (world.step library event)
      fun size listed => latest size (List.mem_cons_of_mem event listed)
    exact ⟨wanted.trans same.1, mark.trans same.2⟩

end Library

end DisplayWorld

namespace MainChannel

variable {η : Type} [DecidableEq η] (library : TextLibrary η)

/-- When nothing is left to wait for, the size asked for last was transmitted since then, unless it
was known, refused or went with a departing agent. -/
theorem idle_size_transmitted (monitors : UInt8) (hasClipboard : Bool)
    (before after : List MainEvent) (width height : UInt32) (asked channel : MainChannel η)
    (reached : (new monitors hasClipboard).run library before = asked)
    (fresh : asked.lastSentMonitorsConfig ≠ some (width, height))
    (ran : asked.run library (.displaySize (.requested width height) :: after) = channel)
    (latest : ∀ size, .displaySize size ∉ after)
    (connected : channel.agentConnected = true) (settled : channel.resizeDebounce = false)
    (emptied : channel.sender.queue.messages = []) (unrefused : Unrefused channel)
    (kept : (configMessage channel.monitors (width, height), .cancelled) ∉
      channel.sender.ledger.drop asked.sender.ledger.length) :
    (configMessage channel.monitors (width, height), .settled) ∈
      channel.sender.ledger.drop asked.sender.ledger.length := by
  let world : DisplayWorld η := (opened monitors hasClipboard).run library before
  have at_asked : world.channel = asked := (channel_run library _ before).trans reached
  let noted := world.step library (.displaySize (.requested width height))
  have at_end : (noted.run library after).channel = channel := by
    rw [← ran, ← at_asked]
    exact channel_run library noted after
  obtain ⟨wanted, mark⟩ := DisplayWorld.wanted_run library noted latest
  have taken : noted.wanted = some (width, height) ∧ noted.mark = asked.sender.ledger.length := by
    rw [← at_asked] at fresh ⊢
    simp [noted, DisplayWorld.step, DisplayWorld.note, fresh]
  have faithful : (noted.run library after).Faithful :=
    (((faithful_opened monitors hasClipboard).run library before).step library
      _).run library after
  rw [← at_end] at connected settled emptied unrefused kept ⊢
  obtain ⟨fate, sent, later⟩ := faithful.wanted_sent unrefused connected settled emptied
    (wanted.trans taken.1)
  rw [mark, taken.2] at later
  cases fate with
  | waiting => exact absurd rfl sent
  | cancelled => exact absurd later kept
  | settled => exact later

/-- A window is resized once and the size settles. -/
theorem resized_size_transmitted :
    let asked := (new 1 false).run plainText [.init true 10]
    let channel := asked.run plainText [.displaySize (.requested 1024 768), .debounceExpired]
    (configMessage channel.monitors (1024, 768), .settled) ∈
      channel.sender.ledger.drop asked.sender.ledger.length := by
  intro asked channel
  have unrefused : channel.sender.refused = [] := by decide +kernel
  refine idle_size_transmitted plainText 1 false [.init true 10] [.debounceExpired] 1024 768
    asked channel rfl (by decide +kernel) rfl (by simp) (by decide +kernel) (by decide +kernel)
    (by decide +kernel) ?_ (by decide +kernel)
  simp [Unrefused, unrefused]

/-- A size that the guest is known to have is not sent to it, also after another was asked for. -/
theorem known_size_untransmitted :
    let channel := (new 1 false).run plainText [.init true 10, .displaySize (.guestHas 800 600),
      .displaySize (.requested 1024 768), .displaySize (.requested 800 600)]
    channel.agentConnected = true ∧ channel.agentCapsAnnounced = true ∧
      channel.resizeDebounce = false ∧ channel.sender.queue.messages = [] ∧
      channel.sender.refused = [] ∧
      ∀ fate, (configMessage 1 (800, 600), fate) ∉ channel.sender.ledger := by
  refine ⟨rfl, rfl, rfl, by decide, rfl, ?_⟩
  intro fate
  cases fate <;> decide +kernel

end MainChannel

end Ryll
