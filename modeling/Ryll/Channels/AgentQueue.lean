import Ryll.Foundation.Ledger
import Ryll.Protocol.AgentStream

/-!
# Outgoing guest-agent data

A guest agent message is spread over AGENT_DATA messages, each of which costs a token that the
server grants.  Once the first chunk of a message is on the wire, the rest of it must follow before
anything else.  `AgentSender` is the part of the main channel that keeps the tokens and the queue.
-/

namespace Ryll

open List Ledger

def maxAgentChunk : Nat := 2048 - 6

def maxQueuedAgentMessages : Nat := 32

/-- A message of which some bytes are yet to be sent. -/
structure PendingMessage where
  data : Bytes
  sent : Nat
  /-- A message leaves the queue with its last byte. -/
  unfinished : sent < data.length

/-- Queued messages, of which only the first may be begun. -/
structure AgentSendQueue where
  messages : List PendingMessage
  bounded : messages.length ≤ maxQueuedAgentMessages
  unstarted : ∀ message ∈ messages.tail, message.sent = 0

namespace AgentSendQueue

def empty : AgentSendQueue := ⟨[], by decide, nofun⟩

theorem mem_tail_concat {α : Type} {items : List α} {item other : α}
    (listed : other ∈ (items ++ [item]).tail) : other ∈ items.tail ∨ other = item := by
  cases items with
  | nil => exact absurd listed not_mem_nil
  | cons first rest => simpa using listed

variable (queue : AgentSendQueue)

def push (message : Bytes) : AgentSendQueue × Bool :=
  if full : maxQueuedAgentMessages ≤ queue.messages.length then
    (queue, false)
  else if nonempty : message ≠ [] then
    (⟨queue.messages ++ [⟨message, 0, length_pos_iff.mpr nonempty⟩], by
        rw [length_append, length_singleton]
        omega, by
        intro other listed
        rcases mem_tail_concat listed with old | rfl
        · exact queue.unstarted other old
        · rfl⟩, true)
  else
    (queue, true)

def nextChunk : AgentSendQueue → Option (Bytes × AgentSendQueue)
  | ⟨[], _, _⟩ => none
  | ⟨front :: rest, bounded, unstarted⟩ =>
    let stop := min (front.sent + maxAgentChunk) front.data.length
    let chunk := (front.data.drop front.sent).take (stop - front.sent)
    if last : stop = front.data.length then
      some (chunk, ⟨rest, Nat.le_of_succ_le bounded, fun message listed =>
        unstarted message (mem_of_mem_tail listed)⟩)
    else
      some (chunk, ⟨⟨front.data, stop, by omega⟩ :: rest, bounded, unstarted⟩)

/-- How many messages survive the departure of the agent: the one that is partly sent. -/
def startedCount : Nat :=
  if queue.messages.head?.any fun message => decide (0 < message.sent) then 1 else 0

theorem startedCount_le : queue.startedCount ≤ 1 := by
  unfold startedCount
  split <;> decide

def discardUnstarted : AgentSendQueue :=
  ⟨queue.messages.take queue.startedCount, Nat.le_trans (length_take_le' _ _) queue.bounded, by
    intro message listed
    have few := Nat.le_trans (length_take_le queue.startedCount queue.messages)
      queue.startedCount_le
    have none_left : (queue.messages.take queue.startedCount).tail = [] :=
      eq_nil_of_length_eq_zero (by rw [length_tail]; omega)
    rw [none_left] at listed
    exact absurd listed not_mem_nil⟩

def started : Bytes :=
  match queue.messages with
  | [] => []
  | front :: _ => front.data.take front.sent

def contents : List Bytes := queue.messages.map (·.data)

variable {queue : AgentSendQueue}

theorem push_full (message : Bytes) (full : maxQueuedAgentMessages ≤ queue.messages.length) :
    queue.push message = (queue, false) := by
  rw [push, dif_pos full]

theorem push_accepted {message : Bytes} (room : queue.messages.length < maxQueuedAgentMessages)
    (nonempty : message ≠ []) :
    ∃ queue', queue.push message = (queue', true) ∧ queue'.started = queue.started ∧
      queue'.contents = queue.contents ++ [message] := by
  rw [push, dif_neg (Nat.not_le.mpr room), dif_pos nonempty]
  refine ⟨_, rfl, ?_, ?_⟩
  · obtain ⟨_ | ⟨front, rest⟩, _, _⟩ := queue <;> rfl
  · simp [contents]

theorem nextChunk_cases {queue' : AgentSendQueue} {chunk : Bytes}
    (next : queue.nextChunk = some (chunk, queue')) :
    1 ≤ chunk.length ∧ chunk.length ≤ maxAgentChunk ∧
      ((queue.contents = (queue.started ++ chunk) :: queue'.contents ∧ queue'.started = [] ∧
          queue'.messages.length < queue.messages.length) ∨
        (queue'.contents = queue.contents ∧ queue'.started = queue.started ++ chunk ∧
          queue'.messages.length = queue.messages.length)) := by
  obtain ⟨_ | ⟨front, rest⟩, bounded, unstarted⟩ := queue
  · cases next
  have unfinished := front.unfinished
  simp only [nextChunk] at next
  split at next
  · next last =>
    cases next
    rw [last]
    refine ⟨?_, ?_, .inl ⟨?_, ?_, Nat.lt_succ_self _⟩⟩
    · simp only [length_take, length_drop]
      omega
    · simp only [length_take, length_drop]
      omega
    · have rest_taken : (front.data.drop front.sent).take (front.data.length - front.sent) =
          front.data.drop front.sent := take_of_length_le (by simp)
      simp [contents, started, rest_taken]
    · cases rest with
      | nil => rfl
      | cons second rest =>
        have fresh : second.sent = 0 := unstarted second mem_cons_self
        simp [started, fresh]
  · next part =>
    cases next
    have stop : min (front.sent + maxAgentChunk) front.data.length =
        front.sent + maxAgentChunk := by omega
    refine ⟨?_, ?_, .inr ⟨rfl, ?_, rfl⟩⟩
    · simp only [length_take, length_drop, maxAgentChunk] at stop ⊢
      omega
    · simp only [length_take, length_drop]
      omega
    · simp only [started, stop, Nat.add_sub_cancel_left, take_add]

theorem nextChunk_eq_none (stopped : queue.nextChunk = none) : queue.contents = [] := by
  obtain ⟨_ | ⟨front, rest⟩, bounded, unstarted⟩ := queue
  · rfl
  · simp only [nextChunk] at stopped
    split at stopped
    · cases stopped
    · cases stopped

theorem started_eq_nil_of_startedCount (zero : queue.startedCount = 0) : queue.started = [] := by
  obtain ⟨_ | ⟨front, rest⟩, bounded, unstarted⟩ := queue
  · rfl
  · have fresh : front.sent = 0 := by simpa [startedCount] using zero
    simp [started, fresh]

theorem started_discardUnstarted (queue : AgentSendQueue) :
    queue.discardUnstarted.started = queue.started := by
  have few := queue.startedCount_le
  rcases Nat.le_one_iff_eq_zero_or_eq_one.mp few with zero | one
  · rw [started_eq_nil_of_startedCount zero, started, discardUnstarted]
    simp [zero]
  · obtain ⟨_ | ⟨front, rest⟩, bounded, unstarted⟩ := queue
    · rfl
    · simp only [started, discardUnstarted, one]
      rfl

end AgentSendQueue

/-- The tokens and the queue of the main channel, with a record of what was sent. -/
structure AgentSender where
  /-- How many AGENT_DATA messages the server still allows. -/
  tokens : UInt32
  queue : AgentSendQueue
  bodies : List Bytes
  /-- The accepted messages and what became of them (history). -/
  ledger : Ledger Bytes
  /-- The tokens granted since the server last reset its window (history). -/
  granted : Nat
  spent : Nat
  /-- The messages that a full queue refused (history). -/
  refused : List Bytes

open List.Subset

namespace AgentSender

def new : AgentSender := ⟨0, .empty, [], [], 0, 0, []⟩

def push (sender : AgentSender) (message : Bytes) : AgentSender × Bool :=
  let (queue, accepted) := sender.queue.push message
  -- An accepted message without bytes never waits.
  let ledger := if accepted && !message.isEmpty then sender.ledger.post message else sender.ledger
  let refused := if accepted then sender.refused else sender.refused ++ [message]
  ({ sender with queue, ledger, refused }, accepted)

def sendChunk (sender : AgentSender) : Option AgentSender :=
  if 0 < sender.tokens then
    match sender.queue.nextChunk with
    | none => none
    | some (chunk, queue) =>
      let completed := decide (queue.messages.length < sender.queue.messages.length)
      some { sender with
        tokens := sender.tokens - 1
        queue
        bodies := sender.bodies ++ [chunk]
        ledger := if completed then sender.ledger.settle else sender.ledger
        spent := sender.spent + 1 }
  else
    none

def flushRounds : Nat → AgentSender → AgentSender
  | 0, sender => sender
  | rounds + 1, sender =>
    match sender.sendChunk with
    | none => sender
    | some sender => flushRounds rounds sender

variable (sender : AgentSender)

def flush : AgentSender := flushRounds sender.tokens.toNat sender

def saturatingAdd (left right : UInt32) : UInt32 :=
  UInt32.ofNat (min (left.toNat + right.toNat) (2 ^ 32 - 1))

theorem toNat_saturatingAdd (left right : UInt32) :
    (saturatingAdd left right).toNat = min (left.toNat + right.toNat) (2 ^ 32 - 1) :=
  UInt32.toNat_ofNat_of_lt' (by rw [UInt32.size]; omega)

def grant (count : UInt32) : AgentSender :=
  { sender with
    tokens := saturatingAdd sender.tokens count
    granted := sender.granted + count.toNat }

def adoptWindow (count : UInt32) : AgentSender :=
  { sender with tokens := count, granted := count.toNat, spent := 0 }

def discardUnstarted : AgentSender :=
  { sender with
    queue := sender.queue.discardUnstarted
    ledger := sender.ledger.cancel sender.queue.startedCount }

/-- What can happen to a sender. -/
inductive Action
  | push (message : Bytes)
  | grant (count : UInt32)
  /-- The token window of AGENT_CONNECTED_TOKENS. -/
  | adoptWindow (count : UInt32)
  | discardUnstarted
  | flush

def step : Action → AgentSender
  | .push message => (sender.push message).1
  | .grant count => sender.grant count
  | .adoptWindow count => sender.adoptWindow count
  | .discardUnstarted => sender.discardUnstarted
  | .flush => sender.flush

def run (actions : List Action) : AgentSender := actions.foldl step sender

/-- What the queue, the ledger and the wire have to do with each other. -/
structure Consistent (sender : AgentSender) : Prop where
  ordered : sender.ledger.InOrder
  waiting : sender.ledger.withFate .waiting = sender.queue.contents
  /-- The wire carries the completed messages and the first bytes of the one at the front. -/
  wire : sender.bodies.flatten = (sender.ledger.withFate .settled).flatten ++ sender.queue.started
  chunked : ∀ body ∈ sender.bodies, 1 ≤ body.length ∧ body.length ≤ maxAgentChunk
  paid : sender.spent + sender.tokens.toNat ≤ sender.granted

theorem consistent_new : new.Consistent where
  ordered := List.Pairwise.nil
  waiting := rfl
  wire := rfl
  chunked := nofun
  paid := by decide

variable {sender sender' : AgentSender} {allowed : Action → Prop}

theorem Consistent.push (consistent : sender.Consistent) (message : Bytes) :
    (sender.push message).1.Consistent := by
  by_cases full : maxQueuedAgentMessages ≤ sender.queue.messages.length
  · simp only [AgentSender.push, AgentSendQueue.push_full message full]
    exact { consistent with }
  have room := Nat.not_le.mp full
  by_cases nonempty : message = []
  · subst nonempty
    simpa [AgentSender.push, AgentSendQueue.push, full] using consistent
  obtain ⟨queue', pushed, started, contents⟩ := AgentSendQueue.push_accepted room nonempty
  have unfolded : (sender.push message).1 =
      { sender with queue := queue', ledger := sender.ledger.post message } := by
    simp [AgentSender.push, pushed, nonempty]
  rw [unfolded]
  exact {
    ordered := consistent.ordered.post message
    waiting := by simp [withFate_post, contents, consistent.waiting]
    wire := by simp [withFate_post, started, consistent.wire]
    chunked := consistent.chunked
    paid := consistent.paid }

theorem sendChunk_cases (sent : sender.sendChunk = some sender') :
    0 < sender.tokens.toNat ∧ ∃ chunk queue, sender.queue.nextChunk = some (chunk, queue) ∧
      sender' = { sender with
        tokens := sender.tokens - 1
        queue
        bodies := sender.bodies ++ [chunk]
        ledger := if queue.messages.length < sender.queue.messages.length then
          sender.ledger.settle else sender.ledger
        spent := sender.spent + 1 } := by
  obtain ⟨positive, sent⟩ := Option.ite_none_right_eq_some.mp sent
  split at sent
  · cases sent
  · next chunk queue next =>
    refine ⟨positive, chunk, queue, next, ?_⟩
    simpa using sent.symm

theorem sendChunk_idle (halted : sender.sendChunk = none) :
    sender.tokens = 0 ∨ sender.queue.contents = [] := by
  by_cases positive : 0 < sender.tokens
  · right
    rw [sendChunk, if_pos positive] at halted
    split at halted
    · next stopped => exact AgentSendQueue.nextChunk_eq_none stopped
    · cases halted
  · exact .inl (UInt32.le_zero_iff.mp (UInt32.not_lt.mp positive))

/-- A flush pays one token for each body and stops only for want of tokens or of messages. -/
theorem flushRounds_idle (sender : AgentSender) {rounds : Nat}
    (enough : sender.tokens.toNat ≤ rounds) :
    let flushed := sender.flushRounds rounds
    flushed.bodies.length + flushed.tokens.toNat = sender.bodies.length + sender.tokens.toNat ∧
      (flushed.tokens = 0 ∨ flushed.queue.contents = []) := by
  induction rounds generalizing sender with
  | zero => exact ⟨rfl, .inl (UInt32.toNat_inj.mp (Nat.le_zero.mp enough))⟩
  | succ rounds ih =>
    rw [flushRounds]
    split
    · next halted => exact ⟨rfl, sendChunk_idle halted⟩
    · next sender' sent =>
      obtain ⟨positive, chunk, queue, -, next⟩ := sendChunk_cases sent
      have fewer : sender'.tokens.toNat = sender.tokens.toNat - 1 := by
        rw [next]
        exact UInt32.toNat_sub_of_le _ _ positive
      have longer : sender'.bodies.length = sender.bodies.length + 1 := by
        rw [next, length_append, length_singleton]
      obtain ⟨paid, idle⟩ := ih sender' (by omega)
      exact ⟨by omega, idle⟩

section

variable (consistent : sender.Consistent)
include consistent

theorem Consistent.sendChunk (sent : sender.sendChunk = some sender') : sender'.Consistent := by
  obtain ⟨positive, chunk, queue, next, rfl⟩ := sendChunk_cases sent
  obtain ⟨nonempty, short, effect⟩ := AgentSendQueue.nextChunk_cases next
  have chunked : ∀ body ∈ sender.bodies ++ [chunk], 1 ≤ body.length ∧
      body.length ≤ maxAgentChunk := by
    intro body listed
    rcases mem_append.mp listed with old | new
    · exact consistent.chunked body old
    · obtain rfl := mem_singleton.mp new
      exact ⟨nonempty, short⟩
  have paid : sender.spent + 1 + (sender.tokens - 1).toNat ≤ sender.granted := by
    have before := consistent.paid
    have one_le : 1 ≤ sender.tokens := positive
    have fewer : (sender.tokens - 1).toNat = sender.tokens.toNat - 1 :=
      UInt32.toNat_sub_of_le _ _ one_le
    omega
  rcases effect with ⟨contents, started, fewer⟩ | ⟨contents, started, same⟩
  · rw [if_pos fewer]
    have waiting := consistent.waiting
    rw [contents] at waiting
    exact {
      ordered := consistent.ordered.settle
      waiting := by simp [withFate_waiting_settle, waiting]
      wire := by
        simp [withFate_settled_settle consistent.ordered, waiting, started, consistent.wire]
      chunked
      paid }
  · rw [if_neg (by omega)]
    exact {
      ordered := consistent.ordered
      waiting := consistent.waiting.trans contents.symm
      wire := by simp [started, consistent.wire]
      chunked
      paid }

theorem Consistent.flushRounds (rounds : Nat) : (sender.flushRounds rounds).Consistent := by
  induction rounds generalizing sender with
  | zero => exact consistent
  | succ rounds ih =>
    rw [AgentSender.flushRounds]
    split
    · exact consistent
    · next sent => exact ih (consistent.sendChunk sent)

theorem Consistent.grant (count : UInt32) : (sender.grant count).Consistent where
  ordered := consistent.ordered
  waiting := consistent.waiting
  wire := consistent.wire
  chunked := consistent.chunked
  paid := by
    have before := consistent.paid
    have saturated := toNat_saturatingAdd sender.tokens count
    simp only [AgentSender.grant]
    omega

theorem Consistent.discardUnstarted : sender.discardUnstarted.Consistent where
  ordered := consistent.ordered.cancel _
  waiting := by
    simp only [AgentSender.discardUnstarted, withFate_waiting_cancel, consistent.waiting,
      AgentSendQueue.contents, AgentSendQueue.discardUnstarted, map_take]
  wire := by
    simp only [AgentSender.discardUnstarted, withFate_settled_cancel, consistent.wire,
      AgentSendQueue.started_discardUnstarted]
  chunked := consistent.chunked
  paid := consistent.paid

theorem Consistent.step (action : Action) : (sender.step action).Consistent := by
  cases action with
  | push message => exact consistent.push message
  | grant count => exact consistent.grant count
  | adoptWindow count => exact { consistent with paid := by simp [AgentSender.step, adoptWindow] }
  | discardUnstarted => exact consistent.discardUnstarted
  | flush => exact consistent.flushRounds _

theorem Consistent.run (actions : List Action) : (sender.run actions).Consistent := by
  induction actions generalizing sender with
  | nil => exact consistent
  | cons action actions ih => exact ih (consistent.step action)

end

/-! ## What is accepted, and what becomes of it -/

def accepted : AgentSender → List Action → List Bytes
  | _, [] => []
  | sender, .push message :: actions =>
    if (sender.push message).2 && !message.isEmpty then
      message :: accepted (sender.push message).1 actions
    else
      accepted (sender.push message).1 actions
  | sender, action :: actions => accepted (sender.step action) actions

theorem push_accepted (sender : AgentSender) {message : Bytes}
    (room : sender.queue.messages.length < maxQueuedAgentMessages) (nonempty : message ≠ []) :
    (sender.push message).2 = true ∧
      (sender.push message).1.ledger = sender.ledger.post message := by
  obtain ⟨queue', pushed, -⟩ := AgentSendQueue.push_accepted room nonempty
  simp [push, pushed, nonempty]

theorem ledger_push (sender : AgentSender) (message : Bytes) :
    (sender.push message).1.ledger =
      if (sender.push message).2 && !message.isEmpty then sender.ledger.post message
      else sender.ledger := rfl

theorem delivers_sendChunk (sent : sender.sendChunk = some sender') :
    sender.ledger.Delivers sender'.ledger ∧
      sender'.ledger.map Prod.fst = sender.ledger.map Prod.fst := by
  obtain ⟨-, chunk, queue, -, rfl⟩ := sendChunk_cases sent
  split
  · exact ⟨delivers_settle _, items_settle _⟩
  · exact ⟨.refl _, rfl⟩

section

variable (sender : AgentSender)

theorem delivers_flushRounds (rounds : Nat) :
    sender.ledger.Delivers (sender.flushRounds rounds).ledger ∧
      (sender.flushRounds rounds).ledger.map Prod.fst = sender.ledger.map Prod.fst := by
  induction rounds generalizing sender with
  | zero => exact ⟨.refl _, rfl⟩
  | succ rounds ih =>
    rw [flushRounds]
    split
    · exact ⟨.refl _, rfl⟩
    · next sent =>
      obtain ⟨early, same⟩ := delivers_sendChunk sent
      obtain ⟨late, same'⟩ := ih _
      exact ⟨early.trans late, same'.trans same⟩

theorem delivers_step {action : Action} (kept : action ≠ .discardUnstarted) :
    sender.ledger.Delivers (sender.step action).ledger := by
  cases action with
  | push message =>
    rw [step, ledger_push]
    split
    · exact delivers_post _ _
    · exact .refl _
  | grant count | adoptWindow count => exact .refl _
  | discardUnstarted => exact absurd rfl kept
  | flush => exact (delivers_flushRounds sender _).1

theorem advances_run (actions : List Action) :
    sender.ledger.Advances (sender.run actions).ledger := by
  induction actions generalizing sender with
  | nil => exact (Ledger.Delivers.refl _).advances
  | cons action actions ih =>
    refine Ledger.Advances.trans ?_ (ih (sender.step action))
    by_cases departs : action = .discardUnstarted
    · subst departs
      exact advances_cancel _ _
    · exact (delivers_step sender departs).advances

theorem items_run (actions : List Action) : (sender.run actions).ledger.map Prod.fst =
      sender.ledger.map Prod.fst ++ sender.accepted actions := by
  induction actions generalizing sender with
  | nil => simp [run, accepted]
  | cons action actions ih =>
    have later := ih (sender.step action)
    rw [run, foldl_cons, ← run, later]
    cases action with
    | push message =>
      rw [accepted, step, ledger_push]
      split <;> simp [post]
    | grant count => rfl
    | adoptWindow count => rfl
    | discardUnstarted =>
      rw [accepted, step, discardUnstarted, items_cancel]
      rintro _ ⟨⟩
    | flush =>
      rw [accepted, step, flush, (delivers_flushRounds sender _).2]
      rintro _ ⟨⟩

end

/-! ## Sequences of actions -/

/-- The sender got from one state to the other by actions that the condition allows. -/
def Reaches (allowed : Action → Prop) (sender sender' : AgentSender) : Prop :=
  ∃ actions : List Action, (∀ action ∈ actions, allowed action) ∧ sender' = sender.run actions

theorem Reaches.refl (allowed : Action → Prop) (sender : AgentSender) :
    Reaches allowed sender sender := ⟨[], nofun, rfl⟩

theorem Reaches.single (action : Action) (may : allowed action) :
    Reaches allowed sender (sender.step action) :=
  ⟨[action], by simpa using may, rfl⟩

theorem Reaches.trans {first second third : AgentSender} (early : Reaches allowed first second)
    (late : Reaches allowed second third) : Reaches allowed first third := by
  obtain ⟨actions, may, rfl⟩ := early
  obtain ⟨actions', may', rfl⟩ := late
  refine ⟨actions ++ actions', ?_, foldl_append.symm⟩
  intro action listed
  exact (mem_append.mp listed).elim (may action) (may' action)

theorem Reaches.weaken (reaches : Reaches allowed sender sender') :
    Reaches (fun _ => True) sender sender' := by
  obtain ⟨actions, -, rfl⟩ := reaches
  exact ⟨actions, fun _ _ => trivial, rfl⟩

/-- The sender got there without dropping a message. -/
abbrev Sends (sender sender' : AgentSender) : Prop :=
  Reaches (· ≠ .discardUnstarted) sender sender'

theorem Sends.delivers (sends : sender.Sends sender') : sender.ledger.Delivers sender'.ledger := by
  obtain ⟨actions, kept, rfl⟩ := sends
  induction actions generalizing sender with
  | nil => exact .refl _
  | cons action actions ih =>
    refine (delivers_step sender (kept action mem_cons_self)).trans (ih ?_)
    exact fun other listed => kept other (mem_cons_of_mem action listed)

theorem Reaches.advances (reaches : Reaches allowed sender sender') :
    sender.ledger.Advances sender'.ledger := by
  obtain ⟨actions, -, rfl⟩ := reaches
  exact advances_run sender actions

theorem Reaches.consistent (reaches : Reaches allowed sender sender')
    (consistent : sender.Consistent) : sender'.Consistent := by
  obtain ⟨actions, -, rfl⟩ := reaches
  exact consistent.run actions

theorem refused_flushRounds (sender : AgentSender) (rounds : Nat) :
    (sender.flushRounds rounds).refused = sender.refused := by
  induction rounds generalizing sender with
  | zero => rfl
  | succ rounds ih =>
    rw [flushRounds]
    split
    · rfl
    · next sent =>
      obtain ⟨-, chunk, queue, -, rfl⟩ := sendChunk_cases sent
      exact ih _

theorem refused_step (sender : AgentSender) (action : Action) :
    sender.refused ⊆ (sender.step action).refused := by
  cases action with
  | push message =>
    simp only [step, push]
    split
    · exact refl _
    · exact subset_append_left _ _
  | grant count | adoptWindow count | discardUnstarted => exact refl _
  | flush =>
    rw [step, flush, refused_flushRounds]
    exact refl _

theorem Reaches.refused (reaches : Reaches allowed sender sender') :
    sender.refused ⊆ sender'.refused := by
  obtain ⟨actions, -, rfl⟩ := reaches
  induction actions generalizing sender with
  | nil => exact List.Subset.refl _
  | cons action actions ih => exact List.Subset.trans (refused_step sender action) ih

/-! ## What the peer receives -/

theorem started_cases (queue : AgentSendQueue) : (queue.contents = [] ∧ queue.started = []) ∨
      ∃ front rest kept, queue.contents = front :: rest ∧ kept < front.length ∧
        queue.started = front.take kept := by
  obtain ⟨_ | ⟨front, rest⟩, bounded, unstarted⟩ := queue
  · exact .inl ⟨rfl, rfl⟩
  · exact .inr ⟨front.data, rest.map (·.data), front.sent, rfl, front.unfinished, rfl⟩

theorem exists_wires {bytes : List Bytes} {good : StreamMessage → Prop}
    (encoded : ∀ data ∈ bytes, ∃ message : StreamMessage, message.wire = data ∧ good message) :
    ∃ messages : List StreamMessage, messages.map StreamMessage.wire = bytes ∧
      ∀ message ∈ messages, good message := by
  induction bytes with
  | nil => exact ⟨[], rfl, nofun⟩
  | cons data bytes ih =>
    obtain ⟨message, same, valid⟩ := encoded data mem_cons_self
    obtain ⟨messages, rest, valid'⟩ :=
      ih fun other listed => encoded other (mem_cons_of_mem data listed)
    exact ⟨message :: messages, by simp [same, rest], forall_mem_cons.mpr ⟨valid, valid'⟩⟩

/-- A reassembler that accepts all messages finds exactly those that were sent completely. -/
theorem Consistent.reassembled (consistent : sender.Consistent) {maxMessageSize : Nat}
    (encoded : ∀ data ∈ sender.ledger.map Prod.fst, ∃ message : StreamMessage,
      message.wire = data ∧ message.payload.length ≤ maxMessageSize) :
    ∃ (completed : List StreamMessage) (final : AgentReassembler),
      completed.map StreamMessage.wire = sender.ledger.withFate .settled ∧
      (AgentReassembler.new maxMessageSize).pushAll sender.bodies =
        .ok (final, completed.map fun message => .message message.toAgentMessage) := by
  have listed : ∀ {fate data}, data ∈ sender.ledger.withFate fate →
      data ∈ sender.ledger.map Prod.fst := fun member =>
    mem_map.mpr ⟨_, mem_withFate.mp member, rfl⟩
  obtain ⟨completed, wires, small⟩ := exists_wires
    fun data (settled : data ∈ sender.ledger.withFate .settled) => encoded data (listed settled)
  have accepted_items : completed.map (StreamMessage.item maxMessageSize) =
      completed.map fun message => .message message.toAgentMessage := by
    refine map_congr_left fun message member => if_neg ?_
    have bound := small message member
    rw [message.sized] at bound
    omega
  -- With an empty queue, the stream ends before the first byte of any further message.
  have tail : ∃ (last : StreamMessage) (kept : Nat), kept < last.wire.length ∧
      sender.queue.started = last.wire.take kept ∧ last.earlyItems maxMessageSize kept = [] := by
    rcases started_cases sender.queue with
      ⟨-, nothing⟩ | ⟨front, rest, kept, contents, cut, started⟩
    · exact ⟨default, 0, by decide, nothing, if_neg fun large => absurd large.1 (by decide)⟩
    have front_waiting : front ∈ sender.ledger.withFate .waiting := by
      rw [consistent.waiting, contents]
      exact mem_cons_self
    obtain ⟨last, rfl, bound⟩ := encoded front (listed front_waiting)
    refine ⟨last, kept, cut, started, if_neg fun large => ?_⟩
    rw [last.sized] at bound
    omega
  obtain ⟨last, kept, cut, started, early⟩ := tail
  obtain ⟨final, drains, -⟩ := AgentReassembler.drains_stream maxMessageSize completed last cut
  refine ⟨completed, ⟨maxMessageSize, final⟩, wires, ?_⟩
  have wire := consistent.wire
  rw [← wires, ← flatMap_def, started] at wire
  rw [← wire, accepted_items, early, append_nil] at drains
  exact AgentReassembler.pushAll_of_drains AgentReassembler.collecting_initial drains

/-- The outbound agent stream: whole accepted messages in push order and a part of the front one,
within the limits of bodies, tokens and queue, and reassembled as exactly the completed ones. -/
theorem run_delivers (actions later : List Action) (maxMessageSize : Nat) :
    let sender := new.run actions
    sender.ledger.map Prod.fst = new.accepted actions ∧
    sender.ledger.withFate .waiting = sender.queue.contents ∧
    sender.bodies.flatten = (sender.ledger.withFate .settled).flatten ++ sender.queue.started ∧
    ((sender.queue.contents = [] ∧ sender.queue.started = []) ∨
      ∃ front rest kept, sender.queue.contents = front :: rest ∧ kept < front.length ∧
        sender.queue.started = front.take kept) ∧
    sender.ledger.Advances (sender.run later).ledger ∧
    (∀ body ∈ sender.bodies, 1 ≤ body.length ∧ body.length ≤ 2042) ∧
    sender.spent ≤ sender.granted ∧
    sender.queue.messages.length ≤ 32 ∧
    sender.flush.bodies.length + sender.flush.tokens.toNat =
      sender.bodies.length + sender.tokens.toNat ∧
    (sender.flush.tokens = 0 ∨ sender.flush.queue.contents = []) ∧
    ((∀ data ∈ new.accepted actions, ∃ message : StreamMessage,
        message.wire = data ∧ message.payload.length ≤ maxMessageSize) →
      ∃ (completed : List StreamMessage) (final : AgentReassembler),
        completed.map StreamMessage.wire = sender.ledger.withFate .settled ∧
        (AgentReassembler.new maxMessageSize).pushAll sender.bodies =
          .ok (final, completed.map fun message => .message message.toAgentMessage)) := by
  have consistent := consistent_new.run actions
  have items : (new.run actions).ledger.map Prod.fst = new.accepted actions :=
    items_run new actions
  have paid := consistent.paid
  obtain ⟨spends, idle⟩ := flushRounds_idle (new.run actions) (Nat.le_refl _)
  refine ⟨items, consistent.waiting, consistent.wire, started_cases _, advances_run _ later,
    consistent.chunked, by omega, (new.run actions).queue.bounded, spends, idle, fun encoded => ?_⟩
  rw [← items] at encoded
  exact consistent.reassembled encoded

def twoByteMessage : StreamMessage := ⟨⟨.new 4 2, [104, 105]⟩, rfl, rfl⟩

/-- A message that is pushed before its token comes is sent by the next flush and reassembled. -/
theorem twoByteMessage_reassembled :
    let actions : List Action := [.push twoByteMessage.wire, .flush, .adoptWindow 1, .flush]
    new.accepted actions = [twoByteMessage.wire] ∧
    (new.run actions).bodies = [twoByteMessage.wire] ∧
    ∃ (completed : List StreamMessage) (final : AgentReassembler),
      completed.map StreamMessage.wire = [twoByteMessage.wire] ∧
      (AgentReassembler.new 2).pushAll (new.run actions).bodies =
        .ok (final, completed.map fun message => .message message.toAgentMessage) := by
  have accepted : new.accepted [.push twoByteMessage.wire, .flush, .adoptWindow 1, .flush] =
      [twoByteMessage.wire] := by decide +kernel
  refine ⟨accepted, by decide +kernel, ?_⟩
  obtain ⟨-, -, -, -, -, -, -, -, -, -, reassembled⟩ := run_delivers
    [.push twoByteMessage.wire, .flush, .adoptWindow 1, .flush] [] 2
  rw [accepted] at reassembled
  obtain ⟨completed, final, wires, pushed⟩ := reassembled fun data listed =>
    ⟨twoByteMessage, (List.mem_singleton.mp listed).symm, by decide⟩
  exact ⟨completed, final, wires.trans (by decide +kernel), pushed⟩

end AgentSender

end Ryll
