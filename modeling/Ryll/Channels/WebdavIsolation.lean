import Ryll.Channels.Webdav

/-!
# Isolation of WebDAV connections

Responses wait in one queue under nothing but the number of their client, which the guest may use
again for a new connection.  A response still queued when its connection is dropped reaches whoever
uses the number next; here each connection and each response is followed from its origin.
-/

namespace Ryll

open List Option Outcome

/-! ## Connections, readers and the queue -/

/-- The reader task of a connection. -/
structure MuxReader where
  clientId : Int64
  /-- It put the end of its connection into the queue. -/
  ended : Bool

/-- A response with the connection it is of. -/
structure QueuedResponse where
  response : MuxResponse
  connection : Nat
  deriving DecidableEq

/-- The channel with the tasks and the queue. -/
structure WebdavWorld where
  channel : WebdavChannel
  /-- The readers of all connections, in the order in which these were created. -/
  readers : List MuxReader
  /-- The responses waiting to be sent, first in, first out. -/
  queue : List QueuedResponse

/-- A step of the guest, a task or the channel. -/
inductive WebdavStep
  /-- A frame of the guest arrives; `written` says whether the pipe took its data. -/
  | frame (frame : MuxFrame) (written : Bool)
  | read (connection : Nat) (read : PipeRead)
  | deliver
  | command (command : WebdavCommand)

namespace WebdavWorld

def fresh (room : Option Nat) : WebdavWorld := ⟨.new room, [], []⟩

variable (world : WebdavWorld)

def frameStep (frame : MuxFrame) (written : Bool) : WebdavWorld :=
  let channel := world.channel.handleMuxFrame frame written
  { world with
    channel
    readers :=
      if channel.spawned = world.channel.spawned then world.readers
      else world.readers ++ [⟨frame.clientId, false⟩] }

def readStep (connection : Nat) (read : PipeRead) : Option WebdavWorld :=
  match world.readers[connection]? with
  | none => none
  | some reader =>
    if reader.ended ∨ responseQueueSize ≤ world.queue.length then none
    else some { world with
      readers := world.readers.set connection { reader with ended := read.bytes = [] }
      queue := world.queue ++ [⟨⟨reader.clientId, read.bytes⟩, connection⟩] }

/-- The channel takes a response. -/
def deliverStep : Option WebdavWorld :=
  match world.queue with
  | [] => none
  | queued :: queue =>
    (world.channel.handleResponse queued.response).toOption.map fun channel =>
      { world with channel, queue }

def step : WebdavStep → Option WebdavWorld
  | .frame frame written => some (world.frameStep frame written)
  | .read connection read => world.readStep connection read
  | .deliver => world.deliverStep
  | .command command => some { world with channel := world.channel.handleCommand command }

/-! ## Isolation and its condition -/

/-- A frame is sent only for the connection under its number, and a response closes no other one. -/
def Isolated (label : WebdavStep) : Prop :=
  ∀ world', world.step label = some world' →
    (world'.channel.stream.sent = world.channel.stream.sent ∨
      ∃ queued, world.queue.head? = some queued ∧
        world'.channel.stream.sent = world.channel.stream.sent ++ [queued.response.frame.bytes] ∧
        world.channel.openUnder queued.response.clientId = some queued.connection) ∧
    (label = .deliver → ∀ queued, world.queue.head? = some queued →
      ∀ clientId connection, world.channel.openUnder clientId = some connection →
        connection ≠ queued.connection → world'.channel.openUnder clientId = some connection ∧
            (connection ∈ world'.channel.aborted → connection ∈ world.channel.aborted))

/-- A connection is dropped only with none of its responses queued, and only open ones add to the
queue. -/
def Orderly : WebdavStep → Prop
  | .frame frame written =>
    frame.data = [] ∨ written = false →
      ∀ queued ∈ world.queue, queued.response.clientId ≠ frame.clientId
  | .read connection _ =>
    ∀ reader, world.readers[connection]? = some reader →
      world.channel.openUnder reader.clientId = some connection
  | .deliver => True
  | .command (.shareDirectory _ _ _) => True
  | .command .stopSharing => world.queue = []

instance (world : WebdavWorld) : ∀ label, Decidable (world.Orderly label)
  | .frame _ _ => inferInstanceAs (Decidable (_ ∨ _ → _))
  | .read connection _ =>
    inferInstanceAs (Decidable (∀ reader, world.readers[connection]? = some reader → _))
  | .deliver | .command (.shareDirectory _ _ _) => .isTrue trivial
  | .command .stopSharing => inferInstanceAs (Decidable (_ = _))

end WebdavWorld

/-! ## What the channel does to its connections -/

namespace WebdavChannel

variable (channel : WebdavChannel)

theorem openUnder_removeClient (clientId other : Int64) :
    (channel.removeClient clientId).openUnder other =
      if other = clientId then none else channel.openUnder other := by
  unfold removeClient openUnder
  split
  case h_1 client found =>
      split_ifs with same
      · rw [same, AList.lookup_erase, map_none]
      · rw [AList.lookup_erase_ne same]
  case h_2 missing =>
      split_ifs with same
      · rw [same, missing, map_none]
      · rfl

variable {clientId : Int64} {channel' : WebdavChannel}

theorem spawned_removeClient (clientId : Int64) :
    (channel.removeClient clientId).spawned = channel.spawned := by
  unfold removeClient
  split <;> rfl

/-- What a frame of the guest does. -/
inductive FrameEffect (channel : WebdavChannel) (frame : MuxFrame) (written : Bool)
    (channel' : WebdavChannel) : Prop
  /-- The connection under its number, if there is one, is dropped. -/
  | dropped (cause : frame.data = [] ∨ written = false)
      (spawned : channel'.spawned = channel.spawned)
      (others : ∀ other, channel'.openUnder other =
        if other = frame.clientId then none else channel.openUnder other)
  | kept (spawned : channel'.spawned = channel.spawned)
      (others : ∀ other, channel'.openUnder other = channel.openUnder other)
  /-- A connection is created, and opened under its number if the pipe takes the first data. -/
  | created (free : channel.openUnder frame.clientId = none)
      (spawned : channel'.spawned = channel.spawned + 1)
      (others : ∀ other, channel'.openUnder other =
        if other = frame.clientId ∧ written = true then some channel.spawned
        else channel.openUnder other)

theorem openUnder_of_insert {channel : WebdavChannel} {client : MuxClient}
    (inserted : channel'.clients = channel.clients.insert clientId client) (other : Int64) :
    channel'.openUnder other =
      if other = clientId then some client.connection else channel.openUnder other := by
  unfold openUnder
  rw [inserted]
  split_ifs with same
  · rw [same, AList.lookup_insert, map_some]
  · rw [AList.lookup_insert_ne same]

theorem handleMuxFrame_effect (frame : MuxFrame) (written : Bool) :
    FrameEffect channel frame written (channel.handleMuxFrame frame written) := by
  unfold handleMuxFrame
  split
  case isTrue empty =>
      exact .dropped (.inl empty) (channel.spawned_removeClient _)
        (channel.openUnder_removeClient _)
  split
  case h_1 client found =>
      cases written with
      | false =>
        exact .dropped (.inr rfl) (channel.spawned_removeClient _)
          (channel.openUnder_removeClient _)
      | true =>
        refine .kept rfl fun other => ?_
        refine (openUnder_of_insert rfl other).trans ?_
        split_ifs with same
        · rw [same, openUnder, found, map_some]
        · rfl
  case h_2 missing =>
      have free : channel.openUnder frame.clientId = none := by
        rw [openUnder, missing, map_none]
      unfold openClient
      split_ifs with unshared many taken
      · exact .kept rfl fun _ => rfl
      · exact .kept rfl fun _ => rfl
      · refine .created free rfl fun other => (openUnder_of_insert rfl other).trans ?_
        simp only [taken, and_true]
        rfl
      · refine .created free rfl fun other => ?_
        rw [if_neg (fun both => taken both.2)]
        rfl

theorem sendMuxFrame_returned {channel : WebdavChannel} {data : Bytes}
    (sent : channel.sendMuxFrame clientId data = .ok channel') :
    ∃ stream, channel' = { channel with stream } ∧
      stream.sent = channel.stream.sent ++ [MuxFrame.bytes ⟨clientId, data⟩] := by
  obtain ⟨frame, encoded, sent⟩ := bind_eq_ok.mp sent
  obtain ⟨stream, written, returned⟩ := bind_eq_ok.mp sent
  refine ⟨stream, (ok.inj returned).symm, ?_⟩
  unfold encodeMuxFrame at encoded
  split at encoded
  · rw [ok.inj encoded]
    exact (Outgoing.write_ensures _ _ _).of_eq_ok written
  · nomatch encoded

theorem handleResponse_effect {channel : WebdavChannel} {response : MuxResponse}
    (handled : (channel.handleResponse response).toOption = some channel') :
    channel'.stream.sent = channel.stream.sent ++ [response.frame.bytes] ∧
      channel'.spawned = channel.spawned ∧
      (∀ connection ∈ channel'.aborted,
        connection ∈ channel.aborted ∨ channel.openUnder response.clientId = some connection) ∧
      ∀ other, channel'.openUnder other =
        if response.data = [] ∧ other = response.clientId then none
        else channel.openUnder other := by
  have returned := toOption_eq_some.mp handled
  unfold handleResponse at returned
  split at returned
  case isTrue ends =>
      obtain ⟨closing, closed, returned⟩ := bind_eq_ok.mp returned
      obtain ⟨stream, rfl, sent⟩ := sendMuxFrame_returned closed
      cases returned
      rw [removeClient_stream, spawned_removeClient]
      refine ⟨?_, rfl, fun connection aborted => ?_, fun other => ?_⟩
      · rw [MuxResponse.frame, ends]
        exact sent
      · unfold removeClient at aborted
        unfold openUnder
        split at aborted
        case h_1 client found =>
          rcases mem_cons.mp aborted with rfl | earlier
          · exact .inr (by rw [found, map_some])
          · exact .inl earlier
        case h_2 => exact .inl aborted
      · rw [openUnder_removeClient]
        simp only [ends, true_and]
        rfl
  case isFalse nonempty =>
      obtain ⟨answered, framed, returned⟩ := bind_eq_ok.mp returned
      obtain ⟨stream, rfl, sent⟩ := sendMuxFrame_returned framed
      cases returned
      refine ⟨sent, rfl, fun connection => .inl, fun other => ?_⟩
      rw [if_neg fun both => nonempty both.1]
      rfl

end WebdavChannel

namespace WebdavWorld

/-! ## Runs -/

/-- Every queued response is of the connection under its number, and the end is its last one. -/
structure Linked (world : WebdavWorld) : Prop where
  counted : world.readers.length = world.channel.spawned
  reader : ∀ clientId connection, world.channel.openUnder clientId = some connection →
    ∃ reader, world.readers[connection]? = some reader ∧ reader.clientId = clientId
  queued : ∀ queued ∈ world.queue,
    world.channel.openUnder queued.response.clientId = some queued.connection
  ended : ∀ queued ∈ world.queue, queued.response.data = [] →
    ∃ reader, world.readers[queued.connection]? = some reader ∧ reader.ended = true
  last : world.queue.Pairwise fun queued later =>
    queued.response.data = [] → later.connection ≠ queued.connection

variable {world world' : WebdavWorld}

section

variable (linked : world.Linked)
include linked

theorem Linked.narrow {channel : WebdavChannel} (spawned : channel.spawned = world.channel.spawned)
    (older : ∀ clientId connection, channel.openUnder clientId = some connection →
      world.channel.openUnder clientId = some connection) (still : ∀ queued ∈ world.queue,
      channel.openUnder queued.response.clientId = some queued.connection) :
    Linked { world with channel } where
  counted := linked.counted.trans spawned.symm
  reader clientId connection opened := linked.reader clientId connection (older _ _ opened)
  queued := still
  ended := linked.ended
  last := linked.last

theorem Linked.frame {frame : MuxFrame} {written : Bool}
    (orderly : world.Orderly (.frame frame written)) : (world.frameStep frame written).Linked := by
  have effect := world.channel.handleMuxFrame_effect frame written
  unfold frameStep
  generalize world.channel.handleMuxFrame frame written = channel' at effect ⊢
  cases effect with
  | dropped cause spawned others =>
    simp only [spawned, if_true]
    refine linked.narrow spawned (fun clientId connection opened => ?_) fun queued waiting => ?_
    · rw [others] at opened
      split_ifs at opened
      exact opened
    · rw [others, if_neg (orderly cause queued waiting)]
      exact linked.queued queued waiting
  | kept spawned others =>
    simp only [spawned, if_true]
    refine linked.narrow spawned (fun clientId connection opened => ?_) fun queued waiting => ?_
    · exact (others clientId).symm.trans opened
    · exact (others _).trans (linked.queued queued waiting)
  | created free spawned others =>
    have fresh : channel'.spawned ≠ world.channel.spawned := by omega
    simp only [fresh, if_false]
    have appended {connection : Nat} {reader : MuxReader}
        (listed : world.readers[connection]? = some reader) :
        (world.readers ++ [⟨frame.clientId, false⟩])[connection]? = some reader := by
      rw [getElem?_append_left (List.getElem?_eq_some_iff.mp listed).1, listed]
    refine ⟨?_, fun clientId connection opened => ?_, fun queued waiting => ?_,
      fun queued waiting ends => ?_, linked.last⟩
    · simp [linked.counted, spawned]
    · rw [others] at opened
      split_ifs at opened with new
      · cases opened
        refine ⟨⟨frame.clientId, false⟩, ?_, new.1.symm⟩
        simp [← linked.counted]
      · obtain ⟨reader, listed, named⟩ := linked.reader clientId connection opened
        exact ⟨reader, appended listed, named⟩
    · -- Nothing is queued under a number that was free.
      have opened := linked.queued queued waiting
      rw [others, if_neg, opened]
      rintro ⟨same, -⟩
      rw [same, free] at opened
      nomatch opened
    · obtain ⟨reader, listed, done⟩ := linked.ended queued waiting ends
      exact ⟨reader, appended listed, done⟩

theorem Linked.read {connection : Nat} {read : PipeRead}
    (orderly : world.Orderly (.read connection read))
    (stepped : world.readStep connection read = some world') : world'.Linked := by
  unfold readStep at stepped
  cases listed : world.readers[connection]? with
  | none =>
    rw [listed] at stepped
    nomatch stepped
  | some reader =>
    simp only [listed] at stepped
    split_ifs at stepped with blocked
    cases stepped
    have running : reader.ended = false := by simpa using (not_or.mp blocked).1
    have bound : connection < world.readers.length := (List.getElem?_eq_some_iff.mp listed).1
    -- What waits of this connection is not its end, since its reader is running.
    have other : ∀ queued ∈ world.queue, queued.response.data = [] →
        connection ≠ queued.connection := by
      rintro queued waiting ends rfl
      obtain ⟨reader', listed', done⟩ := linked.ended queued waiting ends
      obtain rfl := some.inj (listed.symm.trans listed')
      exact Bool.false_ne_true (running.symm.trans done)
    refine ⟨?_, fun clientId opened' opened => ?_, fun queued waiting => ?_,
      fun queued waiting ends => ?_, ?_⟩
    · simp [linked.counted]
    · obtain ⟨reader', listed', named⟩ := linked.reader clientId opened' opened
      by_cases same : connection = opened'
      · subst same
        obtain rfl := some.inj (listed.symm.trans listed')
        exact ⟨_, getElem?_set_self bound, named⟩
      · exact ⟨reader', (getElem?_set_ne same).trans listed', named⟩
    · rcases mem_append.mp waiting with earlier | new
      · exact linked.queued queued earlier
      · obtain rfl := mem_singleton.mp new
        exact orderly reader listed
    · rcases mem_append.mp waiting with earlier | new
      · obtain ⟨reader', listed', done⟩ := linked.ended queued earlier ends
        exact ⟨reader', (getElem?_set_ne (other queued earlier ends)).trans listed', done⟩
      · obtain rfl := mem_singleton.mp new
        exact ⟨_, getElem?_set_self bound, by simpa using ends⟩
    · refine pairwise_append.mpr ⟨linked.last, pairwise_singleton _ _, ?_⟩
      intro queued waiting new listed_new ends
      obtain rfl := mem_singleton.mp listed_new
      exact other queued waiting ends

theorem Linked.deliver (stepped : world.deliverStep = some world') : world'.Linked := by
  unfold deliverStep at stepped
  cases waiting : world.queue with
  | nil =>
    rw [waiting] at stepped
    nomatch stepped
  | cons first rest =>
    simp only [waiting] at stepped
    obtain ⟨channel, handled, rfl⟩ := map_eq_some_iff.mp stepped
    obtain ⟨-, spawned, -, others⟩ := WebdavChannel.handleResponse_effect handled
    obtain ⟨apart, last⟩ := pairwise_cons.mp (waiting ▸ linked.last)
    have behind : ∀ queued ∈ rest, queued ∈ world.queue := fun queued later =>
      waiting ▸ mem_cons_of_mem first later
    have own := linked.queued first (waiting ▸ mem_cons_self)
    refine ⟨linked.counted.trans spawned.symm, fun clientId connection opened => ?_,
      fun queued later => ?_, fun queued later => linked.ended queued (behind queued later), last⟩
    · refine linked.reader clientId connection ?_
      rw [others] at opened
      split_ifs at opened
      exact opened
    · have opened := linked.queued queued (behind queued later)
      rw [others, if_neg, opened]
      rintro ⟨ends, same⟩
      rw [same, own] at opened
      exact apart queued later ends (some.inj opened).symm

theorem Linked.step {label : WebdavStep} (orderly : world.Orderly label)
    (stepped : world.step label = some world') : world'.Linked := by
  cases label with
  | frame frame written =>
    cases stepped
    exact linked.frame orderly
  | read connection read => exact linked.read orderly stepped
  | deliver => exact linked.deliver stepped
  | command command =>
    cases stepped
    cases command with
    | shareDirectory path readOnly created =>
      cases created <;> exact linked.narrow rfl (fun _ _ opened => opened) linked.queued
    | stopSharing =>
      refine linked.narrow rfl (fun _ _ opened => ?_) fun queued waiting => ?_
      · nomatch opened
      · rw [orderly] at waiting
        nomatch waiting

theorem Linked.isolated (label : WebdavStep) : world.Isolated label := by
  intro world' stepped
  cases label with
  | frame frame written =>
    cases stepped
    refine ⟨.inl ?_, nofun⟩
    rw [frameStep, world.channel.handleMuxFrame_stream frame written]
  | command command =>
    cases stepped
    refine ⟨.inl ?_, nofun⟩
    rw [world.channel.handleCommand_stream command]
  | read connection read =>
    refine ⟨.inl ?_, nofun⟩
    simp only [WebdavWorld.step, readStep] at stepped
    split at stepped
    · nomatch stepped
    · split_ifs at stepped
      rw [← some.inj stepped]
  | deliver =>
    simp only [WebdavWorld.step, deliverStep] at stepped
    split at stepped
    · nomatch stepped
    case h_2 first rest waiting =>
        obtain ⟨channel, handled, rfl⟩ := map_eq_some_iff.mp stepped
        obtain ⟨sent, -, aborted, others⟩ := WebdavChannel.handleResponse_effect handled
        have own := linked.queued first (waiting ▸ mem_cons_self)
        have head : world.queue.head? = some first := by rw [waiting, head?_cons]
        refine ⟨.inr ⟨first, head, sent, own⟩, ?_⟩
        rintro - queued head' clientId connection opened apart
        obtain rfl := some.inj (head.symm.trans head')
        refine ⟨?_, fun stopped => ?_⟩
        · rw [others, if_neg, opened]
          rintro ⟨-, rfl⟩
          exact apart (some.inj (opened.symm.trans own))
        · rcases aborted connection stopped with before | open_under
          · exact before
          · exact absurd (some.inj (open_under.symm.trans own)) apart

end

/-- If connections are dropped only with no responses queued, and only open ones add to the queue,
they are isolated. -/
theorem connections_isolated {room : Option Nat} {labels : List WebdavStep}
    (orderly : Meets step Orderly (fresh room) labels) : Meets step Isolated (fresh room) labels :=
  orderly.of_invariant Linked (fun _ label linked _ => linked.isolated label)
    (fun _ _ _ linked allowed stepped => linked.step allowed stepped)
    ⟨rfl, nofun, nofun, nofun, .nil⟩

def reusedRun : List WebdavStep :=
  [.command (.shareDirectory "/srv" true (.ok ())), .frame ⟨5, [71]⟩ true, .read 0 (.data [1]),
    .deliver, .read 0 (.data []), .deliver, .frame ⟨5, [71]⟩ true, .read 1 (.data [2]), .deliver,
    .frame ⟨5, []⟩ true]

theorem reusedRun_isolated :
    (run step (fresh none) reusedRun).isSome ∧ Meets step Isolated (fresh none) reusedRun :=
  ⟨by decide +kernel, connections_isolated (by decide +kernel)⟩

def staleRun (queued : PipeRead) : List WebdavStep :=
  [.command (.shareDirectory "/srv" true (.ok ())), .frame ⟨5, [71]⟩ true, .read 0 queued,
    .frame ⟨5, []⟩ true, .frame ⟨5, [71]⟩ true]

theorem not_isolated_of_stale {queued : QueuedResponse} (head : world.queue.head? = some queued)
    (defined : world.step .deliver = some world')
    (stale : world.channel.openUnder queued.response.clientId ≠ some queued.connection) :
    ¬ world.Isolated .deliver := by
  intro isolated
  have delivered := defined
  simp only [WebdavWorld.step, deliverStep] at delivered
  split at delivered
  · nomatch delivered
  obtain ⟨channel, handled, rfl⟩ := map_eq_some_iff.mp delivered
  obtain ⟨sent, -⟩ := WebdavChannel.handleResponse_effect handled
  rcases (isolated _ defined).1 with silent | ⟨other, head', -, own⟩
  · have longer := congrArg List.length (sent.symm.trans silent)
    simp at longer
  · obtain rfl := some.inj (head.symm.trans head')
    exact stale own

/-- Data of a closed connection is sent for the new one, and its end closes the new one. -/
theorem stale_response_not_isolated :
    (∃ world, run step (fresh none) (staleRun (.data [1])) = some world ∧
      ¬ world.Isolated .deliver) ∧
      ∃ world after, run step (fresh none) (staleRun (.data [])) = some world ∧
        world.channel.openUnder 5 = some 1 ∧ world.step .deliver = some after ∧
        after.channel.openUnder 5 = none ∧ 1 ∈ after.channel.aborted := by
  constructor
  · obtain ⟨world, reached⟩ := isSome_iff_exists.mp
      (show (run step (fresh none) (staleRun (.data [1]))).isSome by decide +kernel)
    have facts : (run step (fresh none) (staleRun (.data [1]))).all fun world =>
        world.queue.head? = some ⟨⟨5, [1]⟩, 0⟩ ∧ (world.step .deliver).isSome ∧
          world.channel.openUnder 5 = some 1 := by decide +kernel
    rw [reached, all_some, decide_eq_true_iff] at facts
    obtain ⟨head, defined, opened⟩ := facts
    obtain ⟨after, delivered⟩ := isSome_iff_exists.mp defined
    refine ⟨world, reached, not_isolated_of_stale head delivered ?_⟩
    rw [opened]
    decide
  · exact ⟨_, _, rfl, rfl, rfl, rfl, by decide +kernel⟩

end WebdavWorld

end Ryll
