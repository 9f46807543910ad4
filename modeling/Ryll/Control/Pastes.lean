import Ryll.Channels.Inputs
import Ryll.Foundation.Runs

/-!
# Pastes of control clients

One control client at a time is connected.  It asks for pastes under ids of its own choosing, and
each gets a cancellation token that is kept until an outcome with that id is seen.  Outcomes arrive
late, so that of an earlier client's paste may be taken for that of a later one.
-/

namespace Ryll

open List

/-- The events a client can subscribe to. -/
inductive PasteEventName
  | pasteCompleted
  | pasteFailed
  deriving DecidableEq

/-- An event as the client is sent it. -/
inductive PasteReply
  | pasteCompleted (requestId : RequestId) (charsSent : Nat)
  | pasteFailed (requestId : RequestId) (reason : String)
  deriving DecidableEq

/-- What is kept for a client. -/
structure ClientState where
  subscriptions : List PasteEventName
  inFlightPastes : List (RequestId × Nat)

namespace ClientState

def new : ClientState := ⟨[], []⟩

variable (state : ClientState)

def isSubscribed (name : PasteEventName) : Bool :=
  state.subscriptions.contains name

def completePaste (requestId : RequestId) : ClientState :=
  { state with inFlightPastes := state.inFlightPastes.filter (·.1 ≠ requestId) }

def registerPaste (requestId : RequestId) (token : Nat) : ClientState :=
  { state with
    inFlightPastes := (requestId, token) :: (state.completePaste requestId).inFlightPastes }

def cancelAllPastes : List Nat := state.inFlightPastes.map Prod.snd

def translateEvent (event : PasteEvent) : Option PasteReply × ClientState :=
  match event with
  | .completed chars _ (some requestId) =>
    let state := state.completePaste requestId
    if state.isSubscribed .pasteCompleted then
      (some (.pasteCompleted requestId (min chars (2 ^ 32 - 1))), state)
    else
      (none, state)
  | .completed _ _ none => (none, state)
  | .failed reason (some requestId) =>
    let state := state.completePaste requestId
    if state.isSubscribed .pasteFailed then
      (some (.pasteFailed requestId reason), state)
    else
      (none, state)
  | .failed _ none => (none, state)

variable {entry : RequestId × Nat} {requestId : RequestId}

theorem mem_completePaste {state : ClientState} :
    entry ∈ (state.completePaste requestId).inFlightPastes ↔
      entry ∈ state.inFlightPastes ∧ entry.1 ≠ requestId := by
  simp [completePaste]

theorem mem_registerPaste {state : ClientState} {token : Nat} :
    entry ∈ (state.registerPaste requestId token).inFlightPastes ↔
      entry = (requestId, token) ∨ entry ∈ state.inFlightPastes ∧ entry.1 ≠ requestId := by
  rw [registerPaste, mem_cons, mem_completePaste]

end ClientState

/-- A paste that has not ended. -/
structure QueuedPaste where
  requestId : Option RequestId
  token : Nat
  /-- The connection that asked for it (history). -/
  session : Option Nat

/-- How a paste ends. -/
inductive PasteEnd
  | completed (chars elapsedMs : Nat)
  | failed (reason : String)

def PasteEnd.event (ending : PasteEnd) (requestId : Option RequestId) : PasteEvent :=
  match ending with
  | completed chars elapsedMs => .completed chars elapsedMs requestId
  | failed reason => .failed reason requestId

theorem ClientState.mem_translateEvent {state : ClientState} {ending : PasteEnd}
    {requestId : Option RequestId} {entry : RequestId × Nat} :
    entry ∈ (state.translateEvent (ending.event requestId)).2.inFlightPastes ↔
      entry ∈ state.inFlightPastes ∧ requestId ≠ some entry.1 := by
  cases requestId with
  | none => cases ending <;> simp [translateEvent, PasteEnd.event]
  | some requestId =>
    have removed : (state.translateEvent (ending.event (some requestId))).2 =
        state.completePaste requestId := by
      cases ending <;> simp only [translateEvent, PasteEnd.event] <;> split <;> rfl
    rw [removed, mem_completePaste, ne_eq, ne_eq, Option.some.injEq, @eq_comm _ requestId]

/-- An outcome on the bus. -/
structure BusEvent where
  ending : PasteEnd
  /-- The paste it is about; its id is what the event carries, the rest is history. -/
  paste : QueuedPaste

def BusEvent.event (message : BusEvent) : PasteEvent :=
  message.ending.event message.paste.requestId

/-- The client that is connected. -/
structure ControlClient where
  state : ClientState
  /-- Outcomes emitted since it connected that its event task has not handled. -/
  pending : List BusEvent
  /-- The number of the connection (history). -/
  session : Nat
  /-- The ids under which it asked for pastes, with their tokens (history). -/
  requested : List (RequestId × Nat)

/-- An outcome that a client was told (history). -/
structure PasteReport where
  reply : PasteReply
  paste : QueuedPaste
  /-- The token of the client's own request under the id, if it had made one. -/
  own : Option Nat

/-- The client, the pastes and their history. -/
structure ControlWorld where
  client : Option ControlClient
  unfinished : List QueuedPaste
  nextToken : Nat
  nextSession : Nat
  fired : List Nat
  /-- The events that clients were sent (history). -/
  reports : List PasteReport

/-- What can happen. -/
inductive ControlStep
  | connect
  | subscribe (name : PasteEventName)
  | unsubscribe (name : PasteEventName)
  /-- A request to paste, with the answers of the parameter check and of the input queue. -/
  | paste (requestId : RequestId) (valid queued : Bool)
  | commandLinePaste
  | emit (token : Nat) (ending : PasteEnd)
  /-- The event task handles an outcome, with the answer of the outbound queue. -/
  | translate (room : Bool)
  | disconnect

open ClientState

namespace ControlWorld

def initial : ControlWorld := ⟨none, [], 0, 0, [], []⟩

variable (world : ControlWorld)

/-- Register and queue a paste. -/
def handlePaste (client : ControlClient) (requestId : RequestId)
    (valid queued : Bool) : ControlWorld :=
  let token := world.nextToken
  let asked := { client with requested := client.requested ++ [(requestId, token)] }
  let world := { world with nextToken := token + 1 }
  if valid then
    let state := client.state.registerPaste requestId token
    if queued then
      { world with
        client := some { asked with state }
        unfinished := world.unfinished ++ [⟨some requestId, token, some client.session⟩] }
    else
      { world with client := some { asked with state := state.completePaste requestId } }
  else
    { world with client := some asked }

/-- Tell a client of an outcome. -/
def handleEvent (client : ControlClient) (message : BusEvent)
    (pending : List BusEvent) (room : Bool) : ControlWorld :=
  let (reply, state) := client.state.translateEvent message.event
  let world := { world with client := some { client with state, pending } }
  match reply with
  | none => world
  | some reply =>
    if room then
      let own := message.paste.requestId.bind fun requestId => client.requested.lookup requestId
      { world with reports := world.reports ++ [⟨reply, message.paste, own⟩] }
    else
      world

def step : ControlStep → Option ControlWorld
  | .connect =>
    match world.client with
    | some _ => some world
    | none =>
      some { world with
        client := some ⟨.new, [], world.nextSession, []⟩
        nextSession := world.nextSession + 1 }
  | .subscribe name => do
    let client ← world.client
    let state := { client.state with subscriptions := name :: client.state.subscriptions }
    return { world with client := some { client with state } }
  | .unsubscribe name => do
    let client ← world.client
    let state :=
      { client.state with subscriptions := client.state.subscriptions.filter (· ≠ name) }
    return { world with client := some { client with state } }
  | .paste requestId valid queued => do
    let client ← world.client
    guard (requestId ∉ client.requested.map Prod.fst)
    return world.handlePaste client requestId valid queued
  | .commandLinePaste =>
    some { world with
      unfinished := world.unfinished ++ [⟨none, world.nextToken, none⟩]
      nextToken := world.nextToken + 1 }
  | .emit token ending => do
    let paste ← world.unfinished.find? (·.token = token)
    let client := world.client.map fun client =>
      { client with pending := client.pending ++ [⟨ending, paste⟩] }
    return { world with client, unfinished := world.unfinished.filter (·.token ≠ token) }
  | .translate room =>
    match world.client with
    | some client =>
      match client.pending with
      | message :: pending => some (world.handleEvent client message pending room)
      | [] => none
    | none => none
  | .disconnect => do
    let client ← world.client
    return { world with
      client := none
      fired := world.fired ++ client.state.cancelAllPastes }

/-! ## Ids that no other paste carries -/

/-- A paste has an id that no unfinished paste carries and no outcome on its way to the client. -/
def Unused : ControlStep → Prop
  | .paste requestId _ _ =>
    (∀ paste ∈ world.unfinished, paste.requestId ≠ some requestId) ∧
      ∀ client, world.client = some client →
        ∀ message ∈ client.pending, message.paste.requestId ≠ some requestId
  | _ => True

/-- Registrations stand for the client's own unfinished pastes, and outcomes under its ids are its
own. -/
structure Tracks (unfinished : List QueuedPaste) (client : ControlClient) : Prop where
  ids : (client.requested.map Prod.fst).Nodup
  registered : ∀ paste ∈ unfinished, paste.session = some client.session →
    ∃ requestId, paste.requestId = some requestId ∧ (requestId, paste.token) ∈ client.requested ∧
      (requestId, paste.token) ∈ client.state.inFlightPastes
  foreign : ∀ paste ∈ unfinished, paste.session ≠ some client.session →
    ∀ requestId, paste.requestId = some requestId → requestId ∉ client.requested.map Prod.fst
  finished : ∀ message ∈ client.pending, ∀ paste ∈ unfinished, paste.token ≠ message.paste.token
  reported : ∀ message ∈ client.pending, ∀ requestId, message.paste.requestId = some requestId →
    ∀ token, (requestId, token) ∈ client.requested → message.paste.token = token

/-- What holds along every run. -/
structure Sound (world : ControlWorld) : Prop where
  fresh : ∀ paste ∈ world.unfinished, paste.token < world.nextToken ∧
    ∀ session, paste.session = some session → session < world.nextSession
  distinct : (world.unfinished.map QueuedPaste.token).Nodup
  known : ∀ client, world.client = some client → client.session < world.nextSession ∧
    ∀ message ∈ client.pending, message.paste.token < world.nextToken
  tracks : ∀ client, world.client = some client → Tracks world.unfinished client
  reports : ∀ report ∈ world.reports, ∀ token, report.own = some token → report.paste.token = token

variable {world next : ControlWorld} {client : ControlClient}

theorem initial_sound : Sound initial where
  fresh := by simp [initial]
  distinct := by simp [initial]
  known := by simp [initial]
  tracks := by simp [initial]
  reports := by simp [initial]

theorem Sound.withClient (sound : world.Sound) (present : world.client = some client)
    {changed : ControlClient} (same : changed.session = client.session)
    (pending : ∀ message ∈ changed.pending, message ∈ client.pending)
    (tracks : Tracks world.unfinished changed) : Sound { world with client := some changed } where
  fresh := sound.fresh
  distinct := sound.distinct
  known := by
    rintro _ ⟨⟩
    rw [same]
    obtain ⟨session, tokens⟩ := sound.known client present
    exact ⟨session, fun message member => tokens message (pending message member)⟩
  tracks := by
    rintro _ ⟨⟩
    exact tracks
  reports := sound.reports

theorem Sound.connect (sound : world.Sound) (stepped : world.step .connect = some next) :
    next.Sound := by
  cases present : world.client with
  | some client =>
    simp only [step, present] at stepped
    cases stepped
    exact sound
  | none =>
    simp only [step, present] at stepped
    cases stepped
    constructor
    · intro paste member
      obtain ⟨token, earlier⟩ := sound.fresh paste member
      exact ⟨token, fun session asked => Nat.lt_succ_of_lt (earlier session asked)⟩
    · exact sound.distinct
    · rintro _ ⟨⟩
      exact ⟨Nat.lt_succ_self _, by simp⟩
    · -- No unfinished paste belongs to the new connection.
      rintro _ ⟨⟩
      refine ⟨by simp, ?_, by simp, by simp, by simp⟩
      intro paste member asked
      exact absurd ((sound.fresh paste member).2 _ asked) (Nat.lt_irrefl _)
    · exact sound.reports

theorem Sound.subscriptions (sound : world.Sound) (present : world.client = some client)
    (subscriptions : List PasteEventName) : Sound { world with
      client := some { client with state := { client.state with subscriptions } } } := by
  have tracks := sound.tracks client present
  exact sound.withClient present rfl (fun _ member => member)
    { tracks with }

variable {unfinished : List QueuedPaste} {token : Nat} {requestId : RequestId}

theorem nodup_map_concat {α β : Type} {f : α → β} {items : List α} {item : α}
    (distinct : (items.map f).Nodup) (new : f item ∉ items.map f) :
    ((items ++ [item]).map f).Nodup := by
  rw [map_append, map_singleton, (perm_append_singleton _ _).nodup_iff]
  exact nodup_cons.mpr ⟨new, distinct⟩

theorem Tracks.asked (tracks : Tracks unfinished client) {state : ClientState}
    (new : requestId ∉ client.requested.map Prod.fst)
    (unfinished_other : ∀ paste ∈ unfinished, paste.requestId ≠ some requestId)
    (pending_other : ∀ message ∈ client.pending, message.paste.requestId ≠ some requestId)
    (kept : ∀ entry ∈ client.state.inFlightPastes, entry.1 ≠ requestId →
      entry ∈ state.inFlightPastes) : Tracks unfinished
      { client with state, requested := client.requested ++ [(requestId, token)] } where
  ids := nodup_map_concat tracks.ids new
  registered := by
    intro paste member asked
    obtain ⟨other, named, earlier, inFlight⟩ := tracks.registered paste member asked
    refine ⟨other, named, mem_append_left _ earlier, kept _ inFlight ?_⟩
    rintro rfl
    exact unfinished_other paste member named
  foreign := by
    intro paste member asked other named
    rw [map_append, mem_append, not_or]
    refine ⟨tracks.foreign paste member asked other named, ?_⟩
    intro last
    obtain rfl : other = requestId := by simpa using last
    exact unfinished_other paste member named
  finished := tracks.finished
  reported := by
    intro message member other named number asked
    rcases mem_append.mp asked with earlier | last
    · exact tracks.reported message member other named number earlier
    · obtain ⟨rfl, -⟩ := Prod.mk.inj (mem_singleton.mp last)
      exact absurd named (pending_other message member)

theorem Tracks.added (tracks : Tracks unfinished client) {paste : QueuedPaste}
    (own : paste.session = some client.session → ∃ requestId, paste.requestId = some requestId ∧
      (requestId, paste.token) ∈ client.requested ∧
      (requestId, paste.token) ∈ client.state.inFlightPastes)
    (others : paste.session ≠ some client.session → paste.requestId = none)
    (unreported : ∀ message ∈ client.pending, paste.token ≠ message.paste.token) :
    Tracks (unfinished ++ [paste]) client where
  ids := tracks.ids
  registered := by
    intro other member
    rcases mem_append.mp member with earlier | last
    · exact tracks.registered other earlier
    · rwa [mem_singleton.mp last]
  foreign := by
    intro other member foreign requestId named
    rcases mem_append.mp member with earlier | last
    · exact tracks.foreign other earlier foreign requestId named
    · rw [mem_singleton.mp last] at foreign named
      rw [others foreign] at named
      cases named
  finished := by
    intro message pending other member
    rcases mem_append.mp member with earlier | last
    · exact tracks.finished message pending other earlier
    · rw [mem_singleton.mp last]
      exact unreported message pending
  reported := tracks.reported

section

variable (sound : world.Sound)
include sound

theorem Sound.distinct_queued (requestId : Option RequestId) (session : Option Nat) :
    ((world.unfinished ++ [QueuedPaste.mk requestId world.nextToken session]).map
      QueuedPaste.token).Nodup := by
  refine nodup_map_concat sound.distinct fun member => ?_
  obtain ⟨paste, inside, same⟩ := mem_map.mp member
  exact absurd (sound.fresh paste inside).1 (same ▸ Nat.lt_irrefl _)

theorem Sound.fresh_queued {requestId : Option RequestId} {session : Option Nat}
    (opened : ∀ number, session = some number → number < world.nextSession) :
    ∀ paste ∈ world.unfinished ++ [⟨requestId, world.nextToken, session⟩],
      paste.token < world.nextToken + 1 ∧
        ∀ number, paste.session = some number → number < world.nextSession := by
  intro paste member
  rcases mem_append.mp member with earlier | last
  · obtain ⟨token, sessions⟩ := sound.fresh paste earlier
    exact ⟨Nat.lt_succ_of_lt token, sessions⟩
  · rw [mem_singleton.mp last]
    exact ⟨Nat.lt_succ_self _, opened⟩

theorem Sound.known_later (present : world.client = some client) :
    client.session < world.nextSession ∧
      ∀ message ∈ client.pending, message.paste.token < world.nextToken + 1 := by
  obtain ⟨session, tokens⟩ := sound.known client present
  exact ⟨session, fun message member => Nat.lt_succ_of_lt (tokens message member)⟩

theorem Sound.spent : Sound { world with nextToken := world.nextToken + 1 } where
  fresh := by
    intro paste member
    obtain ⟨token, sessions⟩ := sound.fresh paste member
    exact ⟨Nat.lt_succ_of_lt token, sessions⟩
  distinct := sound.distinct
  known := fun _ present => sound.known_later present
  tracks := sound.tracks
  reports := sound.reports

theorem Sound.commandLinePaste (stepped : world.step .commandLinePaste = some next) :
    next.Sound := by
  cases stepped
  constructor
  · exact sound.fresh_queued nofun
  · exact sound.distinct_queued none none
  · exact fun client present => sound.known_later present
  · intro client present
    refine (sound.tracks client present).added nofun (fun _ => rfl) fun message pending => ?_
    exact Nat.ne_of_gt ((sound.known client present).2 message pending)
  · exact sound.reports

theorem Sound.paste {requestId : RequestId} {valid queued : Bool}
    (unused : world.Unused (.paste requestId valid queued))
    (stepped : world.step (.paste requestId valid queued) = some next) : next.Sound := by
  obtain ⟨client, present, stepped⟩ := Option.bind_eq_some_iff.mp stepped
  obtain ⟨_, distinct, stepped⟩ := Option.bind_eq_some_iff.mp stepped
  cases stepped
  have new : requestId ∉ client.requested.map Prod.fst := by
    by_contra old
    simp [guard, old] at distinct
  have asked : ∀ state : ClientState, (∀ entry ∈ client.state.inFlightPastes,
      entry.1 ≠ requestId → entry ∈ state.inFlightPastes) →
      Tracks world.unfinished { client with
        state
        requested := client.requested ++ [(requestId, world.nextToken)] } := fun state kept =>
    (sound.tracks client present).asked new unused.1 (unused.2 client present) kept
  unfold handlePaste
  split
  · split
    · -- The paste is registered and queued.
      have later := sound.known_later present
      have registered := asked (client.state.registerPaste requestId world.nextToken)
        fun entry member other => mem_registerPaste.mpr (.inr ⟨member, other⟩)
      constructor
      · refine sound.fresh_queued ?_
        rintro _ ⟨⟩
        exact (sound.known client present).1
      · exact sound.distinct_queued _ _
      · rintro _ ⟨⟩
        exact later
      · rintro _ ⟨⟩
        refine registered.added (fun _ => ⟨requestId, rfl, by simp, ?_⟩) (fun other => ?_)
          fun message pending => ?_
        · exact mem_registerPaste.mpr (.inl rfl)
        · exact absurd rfl other
        · exact Nat.ne_of_gt ((sound.known client present).2 message pending)
      · exact sound.reports
    · refine sound.spent.withClient present rfl (fun _ member => member) (asked _ ?_)
      intro entry member other
      rw [mem_completePaste, mem_registerPaste]
      exact ⟨.inr ⟨member, other⟩, other⟩
  · exact sound.spent.withClient present rfl (fun _ member => member)
      (asked client.state fun _ member _ => member)

theorem Sound.emit {ending : PasteEnd} (stepped : world.step (.emit token ending) = some next) :
    next.Sound := by
  obtain ⟨paste, found, stepped⟩ := Option.bind_eq_some_iff.mp stepped
  cases stepped
  have inside : paste ∈ world.unfinished := mem_of_find?_eq_some found
  obtain rfl : paste.token = token := by simpa using find?_some found
  constructor
  · intro other member
    exact sound.fresh other (mem_filter.mp member).1
  · exact sound.distinct.sublist (filter_sublist.map _)
  · intro changed present
    obtain ⟨client, connected, rfl⟩ := Option.map_eq_some_iff.mp present
    obtain ⟨session, tokens⟩ := sound.known client connected
    refine ⟨session, fun message member => ?_⟩
    rcases mem_append.mp member with earlier | last
    · exact tokens message earlier
    · rw [mem_singleton.mp last]
      exact (sound.fresh paste inside).1
  · intro changed present
    obtain ⟨client, connected, rfl⟩ := Option.map_eq_some_iff.mp present
    have tracks := sound.tracks client connected
    refine ⟨tracks.ids, ?_, ?_, ?_, ?_⟩
    · exact fun other member => tracks.registered other (mem_filter.mp member).1
    · exact fun other member => tracks.foreign other (mem_filter.mp member).1
    · intro message pending other member
      obtain ⟨earlier, differs⟩ := mem_filter.mp member
      rcases mem_append.mp pending with before | last
      · exact tracks.finished message before other earlier
      · rw [mem_singleton.mp last]
        simpa using differs
    · intro message pending requestId named number asked
      rcases mem_append.mp pending with before | last
      · exact tracks.reported message before requestId named number asked
      · rw [mem_singleton.mp last] at named ⊢
        -- Under an id of the client the paste is its own, and ids are distinct.
        by_cases own : paste.session = some client.session
        · obtain ⟨other, named', asked', -⟩ := tracks.registered paste inside own
          obtain rfl := Option.some.inj (named.symm.trans named')
          exact (Prod.mk.inj (inj_on_of_nodup_map tracks.ids asked' asked rfl)).2
        · exact absurd (mem_map_of_mem asked) (tracks.foreign paste inside own requestId named)
  · exact sound.reports

end

section

variable (sound : world.Sound)
include sound

theorem Sound.translate {room : Bool}
    (stepped : world.step (.translate room) = some next) : next.Sound := by
  simp only [step] at stepped
  split at stepped
  · next client present =>
    split at stepped
    · next message pending waiting =>
      cases stepped
      have tracks := sound.tracks client present
      have first : message ∈ client.pending := by simp [waiting]
      have rest : ∀ other ∈ pending, other ∈ client.pending := fun other member => by
        simp [waiting, member]
      have handled : Sound { world with
          client := some { client with
            state := (client.state.translateEvent message.event).2, pending } } := by
        refine sound.withClient present rfl rest ⟨tracks.ids, ?_, tracks.foreign,
          fun other member => tracks.finished other (rest other member),
          fun other member => tracks.reported other (rest other member)⟩
        intro paste member own
        obtain ⟨requestId, named, asked, inFlight⟩ := tracks.registered paste member own
        refine ⟨requestId, named, asked, mem_translateEvent.mpr ⟨inFlight, ?_⟩⟩
        -- The outcome would be that of the paste itself, which is unfinished.
        intro same
        exact tracks.finished message first paste member
          (tracks.reported message first requestId same paste.token asked).symm
      unfold handleEvent
      dsimp only
      split
      · exact handled
      · split
        · refine ⟨handled.fresh, handled.distinct, handled.known, handled.tracks,
            fun other member => ?_⟩
          rcases mem_append.mp member with earlier | last
          · exact handled.reports other earlier
          rw [mem_singleton.mp last]
          intro token own
          obtain ⟨requestId, named, asked⟩ := Option.bind_eq_some_iff.mp own
          obtain ⟨before, after, requested, -⟩ := lookup_eq_some_iff.mp asked
          exact tracks.reported message first requestId named token (by rw [requested]; simp)
        · exact handled
    · cases stepped
  · cases stepped

theorem Sound.disconnect (stepped : world.step .disconnect = some next) : next.Sound := by
  obtain ⟨client, -, stepped⟩ := Option.bind_eq_some_iff.mp stepped
  cases stepped
  exact { sound with known := nofun, tracks := nofun }

theorem Sound.step (action : ControlStep) (unused : world.Unused action)
    (stepped : world.step action = some next) : next.Sound := by
  cases action with
  | connect => exact sound.connect stepped
  | subscribe name | unsubscribe name =>
    obtain ⟨client, present, stepped⟩ := Option.bind_eq_some_iff.mp stepped
    cases stepped
    exact sound.subscriptions present _
  | paste requestId valid queued => exact sound.paste unused stepped
  | commandLinePaste => exact sound.commandLinePaste stepped
  | emit token ending => exact sound.emit stepped
  | translate room => exact sound.translate stepped
  | disconnect => exact sound.disconnect stepped

theorem Sound.cancels (present : world.client = some client)
    (stepped : world.step .disconnect = some next) :
    ∀ paste ∈ world.unfinished, paste.session = some client.session → paste.token ∈ next.fired := by
  intro paste member own
  obtain ⟨other, present', stepped⟩ := Option.bind_eq_some_iff.mp stepped
  obtain rfl := Option.some.inj (present.symm.trans present')
  cases stepped
  obtain ⟨requestId, -, -, inFlight⟩ := (sound.tracks client present).registered paste member own
  exact mem_append_right _ (mem_map.mpr ⟨_, inFlight, rfl⟩)

end

/-- As long as ids are unused, a client that disconnects fires the tokens of all its unfinished
pastes, and an event under an id it has used reports its own paste. -/
theorem pastes_end_with_client (actions : List ControlStep) (final : ControlWorld)
    (meets : Meets step Unused initial actions) (reached : run step initial actions = some final) :
    (∀ client next, final.client = some client → final.step .disconnect = some next →
      ∀ paste ∈ final.unfinished, paste.session = some client.session → paste.token ∈ next.fired) ∧
      ∀ report ∈ final.reports, ∀ token, report.own = some token → report.paste.token = token := by
  have sound : final.Sound :=
    run_invariant (fun _ action _ sound unused stepped => sound.step action unused stepped)
      initial_sound meets reached
  exact ⟨fun client next present stepped => sound.cancels present stepped, sound.reports⟩

def lateFailure (second : RequestId) : List ControlStep :=
  [.connect, .paste (.int 1) true true, .disconnect, .connect, .subscribe .pasteFailed,
    .paste second true true, .emit 0 (.failed "cancelled"), .translate true]

theorem other_id_ends : ∃ final, run step initial (lateFailure (.int 2)) = some final ∧
      ∃ client next, final.client = some client ∧ final.step .disconnect = some next ∧
        ∀ paste ∈ final.unfinished, paste.session = some client.session →
          paste.token ∈ next.fired := by
  have unused : Meets step Unused initial (lateFailure (.int 2)) := by
    refine .cons trivial rfl (.cons ⟨nofun, ?_⟩ rfl (.cons trivial rfl (.cons trivial rfl
      (.cons trivial rfl (.cons ⟨by decide, ?_⟩ rfl (.cons trivial rfl
        (.cons trivial rfl trivial)))))))
    · rintro _ ⟨⟩
      nofun
    · rintro _ ⟨⟩
      nofun
  obtain ⟨cancels, -⟩ := pastes_end_with_client (lateFailure (.int 2)) _ unused rfl
  exact ⟨_, rfl, _, _, rfl, rfl, cancels _ _ rfl rfl⟩

/-- The outcome of the first client's paste is reported as that of the second one's, whose token is
not fired when its client disconnects. -/
theorem same_id_confused : ∃ world after, run step initial (lateFailure (.int 1)) = some world ∧
      world.step .disconnect = some after ∧
      world.unfinished = [⟨some (.int 1), 1, some 1⟩] ∧ 1 ∉ after.fired ∧
      world.reports = [⟨.pasteFailed (.int 1) "cancelled", ⟨some (.int 1), 0, some 0⟩, some 1⟩] :=
  ⟨_, _, rfl, rfl, rfl, by decide, rfl⟩

end ControlWorld

end Ryll
