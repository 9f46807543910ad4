import Ryll.Foundation.Outgoing
import Ryll.Foundation.Runs
import Ryll.Protocol.Reader

/-!
# Acknowledgement of received messages

The server may ask for an acknowledgement of every so many messages.  Five channels count what they
receive and answer, four of them in one way and the playback channel in another.
-/

namespace Ryll

/-! ## Messages -/

/-- The server asks for an acknowledgement of every `window` messages; zero asks for none. -/
structure SetAck where
  generation : UInt32
  window : UInt32

namespace SetAck

def read : Reading SetAck := do
  let generation ← readU32
  let window ← readU32
  return ⟨generation, window⟩

def write (setAck : SetAck) : Bytes := toLeBytes setAck.generation ++ toLeBytes setAck.window

instance : WireType SetAck := ⟨read, write⟩

end SetAck

/-- What a channel sends, as far as acknowledgements go. -/
inductive AckReply
  | ackSync (generation : UInt32)
  | ack
  | other

/-- A message that a channel receives. -/
inductive BaseMessage
  | setAck (payload : Bytes)
  /-- Another message, with the number of messages that its handler sends, or why it fails. -/
  | other (handler : Except String Nat)

/-- The messages received since the last request, counting it, after one more. -/
def BaseMessage.receivedAfter (received : Nat) : BaseMessage → Nat
  | .setAck _ => 1
  | .other _ => received + 1

/-! ## Channels -/

/-- What a channel keeps for acknowledgements, with counters of the given width. -/
structure AckChannel (width : Nat) where
  stream : Outgoing AckReply
  ackGeneration : UInt32
  ackWindow : UInt32
  messageCount : BitVec width
  lastAck : BitVec width

namespace AckChannel

variable {width : Nat}

def new (room : Option Nat) : AckChannel width := ⟨.opened room, 0, 0, 0, 0⟩

variable (channel : AckChannel width)

def send (reply : AckReply) : Outcome String (AckChannel width) := do
  let stream ← channel.stream.write "stream closed" reply
  return { channel with stream }

def sendOthers : Nat → AckChannel width → Outcome String (AckChannel width)
  | 0, channel => .ok channel
  | count + 1, channel => channel.send .other >>= sendOthers count

/-- The window is full. -/
def AckDue : Prop :=
  0 < channel.ackWindow ∧ channel.ackWindow.toNat ≤ (channel.messageCount - channel.lastAck).toNat

instance (channel : AckChannel width) : Decidable channel.AckDue :=
  inferInstanceAs (Decidable (_ ∧ _))

/-- Acknowledge if that is due. -/
def sendAck : Outcome String (AckChannel width) :=
  if channel.AckDue then do
    let channel ← channel.send .ack
    return { channel with lastAck := channel.messageCount }
  else .ok channel

def decodeSetAck (payload : Bytes) : Outcome String SetAck :=
  match (decode payload : Outcome LinkError SetAck) with
  | .ok setAck => .ok setAck
  | .error _ => .error "malformed SET_ACK"
  | .fault cause => .fault cause

def handleMessage : BaseMessage → Outcome String (AckChannel width)
  | .setAck payload => do
    let setAck ← decodeSetAck payload
    send { channel with ackGeneration := setAck.generation, ackWindow := setAck.window }
      (.ackSync setAck.generation)
  | .other (.ok count) => channel.sendOthers count
  | .other (.error reason) => .error reason

/-- Count, handle, then acknowledge. -/
def processMessage (message : BaseMessage) : Outcome String (AckChannel width) := do
  let channel ← handleMessage { channel with messageCount := channel.messageCount + 1 } message
  channel.sendAck

def handlePlayback : BaseMessage → Outcome String (AckChannel width)
  | .setAck payload => do
    let setAck ← decodeSetAck payload
    send { channel with
      ackGeneration := setAck.generation
      ackWindow := setAck.window
      messageCount := 0
      lastAck := 0 } (.ackSync setAck.generation)
  | .other (.ok count) => channel.sendOthers count
  | .other (.error reason) => .error reason

/-- Playback acknowledges first. -/
def processPlayback (message : BaseMessage) : Outcome String (AckChannel width) := do
  let channel ← sendAck { channel with messageCount := channel.messageCount + 1 }
  channel.handlePlayback message

end AckChannel

/-- The channels that acknowledge. -/
inductive AckKind
  | display
  | cursor
  | playback
  | usbredir
  | webdav
  deriving DecidableEq

namespace AckKind

def width : AckKind → Nat
  | .display => 64
  | .cursor | .playback | .usbredir | .webdav => 32

def process : (kind : AckKind) → AckChannel kind.width → BaseMessage →
    Outcome String (AckChannel kind.width)
  | .display | .cursor => AckChannel.processMessage
  | .playback => AckChannel.processPlayback
  | .usbredir | .webdav => AckChannel.processMessage

end AckKind

/-! ## Pace -/

def countAck : Nat → AckReply → Nat
  | _, .ackSync _ => 0
  | count, .ack => count + 1
  | count, .other => count

/-- The acknowledgements sent since the last answer to a request for them. -/
def acksSince (replies : List AckReply) : Nat := replies.foldl countAck 0

namespace AckChannel

variable {width : Nat} (channel : AckChannel width)

def acks : Nat := acksSince channel.stream.sent

def unacked : Nat := (channel.messageCount - channel.lastAck).toNat

/-- Acknowledgements keep pace with the messages received since the last request. -/
structure Paced (channel : AckChannel width) (received : Nat) : Prop where
  /-- None is sent without a window. -/
  idle : channel.ackWindow = 0 → channel.acks = 0
  /-- Less than a window is not acknowledged.  The request itself may or may not be counted. -/
  busy : channel.ackWindow ≠ 0 → channel.unacked < channel.ackWindow.toNat ∧
    ∃ uncounted ≤ 1, received = channel.acks * channel.ackWindow.toNat + channel.unacked + uncounted

theorem send_ensures (reply : AckReply) : (channel.send reply).Ensures fun channel' =>
      ∃ stream, channel' = { channel with stream } ∧
        acksSince stream.sent = countAck channel.acks reply := by
  refine (Outgoing.write_ensures _ _ _).bind fun stream sent => ⟨stream, rfl, ?_⟩
  rw [sent, acksSince, List.foldl_append]
  rfl

theorem sendOthers_ensures (count : Nat) (channel : AckChannel width) :
    (channel.sendOthers count).Ensures fun channel' =>
      ∃ stream, channel' = { channel with stream } ∧ acksSince stream.sent = channel.acks := by
  induction count generalizing channel with
  | zero => exact ⟨channel.stream, rfl, rfl⟩
  | succ count ih =>
    refine (channel.send_ensures .other).bind ?_
    rintro - ⟨stream, rfl, sent⟩
    refine (ih _).mono ?_
    rintro - ⟨stream', rfl, sent'⟩
    exact ⟨stream', rfl, sent'.trans sent⟩

theorem sendAck_ensures :
    channel.sendAck.Ensures fun channel' =>
      channel'.ackWindow = channel.ackWindow ∧
        if channel.AckDue then channel'.acks = channel.acks + 1 ∧ channel'.unacked = 0
        else channel' = channel := by
  unfold sendAck
  split
  case isTrue due =>
      refine (channel.send_ensures .ack).bind ?_
      rintro - ⟨stream, rfl, sent⟩
      exact ⟨rfl, sent, by simp [unacked]⟩
  case isFalse => exact ⟨rfl, rfl⟩

/-- As `Paced`, where an acknowledgement may be due. -/
structure Counted (channel : AckChannel width) (received : Nat) : Prop where
  idle : channel.ackWindow = 0 → channel.acks = 0
  busy : channel.ackWindow ≠ 0 → channel.unacked ≤ channel.ackWindow.toNat ∧
    ∃ uncounted ≤ 1, received = channel.acks * channel.ackWindow.toNat + channel.unacked + uncounted

theorem unacked_count : unacked { channel with messageCount := channel.messageCount + 1 } =
      (channel.unacked + 1) % 2 ^ width := by
  unfold unacked
  have one : (1 : BitVec width).toNat = 1 % 2 ^ width := BitVec.toNat_ofNat 1 width
  rw [add_sub_right_comm, BitVec.toNat_add, one, Nat.add_mod_mod]

variable {received : Nat} {message : BaseMessage}

theorem Paced.counted {channel : AckChannel width} (wide : 32 ≤ width)
    (paced : channel.Paced received) :
    Counted { channel with messageCount := channel.messageCount + 1 } (received + 1) where
  idle := paced.idle
  busy window := by
    obtain ⟨less, uncounted, small, account⟩ := paced.busy window
    have narrow : channel.ackWindow.toNat < 2 ^ width :=
      Nat.lt_of_lt_of_le channel.ackWindow.toNat_lt (Nat.pow_le_pow_right (by decide) wide)
    rw [unacked_count, Nat.mod_eq_of_lt (by omega)]
    refine ⟨less, uncounted, small, ?_⟩
    change received + 1 = channel.acks * channel.ackWindow.toNat + (channel.unacked + 1) + uncounted
    omega

theorem toNat_pos_of_ne_zero {window : UInt32} (nonzero : window ≠ 0) : 0 < window.toNat :=
  Nat.pos_of_ne_zero fun zero => nonzero (UInt32.toNat_inj.mp zero)

theorem not_due {channel : AckChannel width} (due : ¬ channel.AckDue)
    (nonzero : channel.ackWindow ≠ 0) : channel.unacked < channel.ackWindow.toNat :=
  Nat.not_le.mp fun reached =>
    due ⟨UInt32.lt_iff_toNat_lt.mpr (toNat_pos_of_ne_zero nonzero), reached⟩

theorem Counted.sendAck {channel : AckChannel width} (counted : channel.Counted received) :
    channel.sendAck.Ensures fun channel' => channel'.Paced received := by
  refine channel.sendAck_ensures.mono ?_
  rintro channel' ⟨window, effect⟩
  by_cases due : channel.AckDue
  · rw [if_pos due] at effect
    obtain ⟨acks, unacked⟩ := effect
    obtain ⟨set, reached⟩ := due
    have nonzero : channel.ackWindow ≠ 0 := by
      rintro zero
      rw [zero] at set
      exact absurd set (by decide)
    obtain ⟨within, uncounted, small, account⟩ := counted.busy nonzero
    have full : channel.unacked = channel.ackWindow.toNat := Nat.le_antisymm within reached
    refine ⟨fun zero => absurd (window.symm.trans zero) nonzero, fun _ => ?_⟩
    rw [window, acks, unacked, Nat.succ_mul]
    have positive : 0 < channel.ackWindow.toNat := UInt32.lt_iff_toNat_lt.mp set
    exact ⟨positive, uncounted, small, by omega⟩
  · rw [if_neg due] at effect
    subst effect
    refine ⟨counted.idle, fun nonzero => ?_⟩
    obtain ⟨-, uncounted, small, account⟩ := counted.busy nonzero
    exact ⟨not_due due nonzero, uncounted, small, account⟩

theorem send_ackSync_ensures (setAck : SetAck) :
    (channel.send (.ackSync setAck.generation)).Ensures fun channel' =>
      channel'.ackWindow = channel.ackWindow ∧ channel'.unacked = channel.unacked ∧
        channel'.acks = 0 := by
  refine (channel.send_ensures _).mono ?_
  rintro - ⟨stream, rfl, sent⟩
  exact ⟨rfl, rfl, sent⟩

theorem sendOthers_account (count : Nat) (channel : AckChannel width) :
    (channel.sendOthers count).Ensures fun channel' => ∀ received,
      (channel.Counted received → channel'.Counted received) ∧
        (channel.Paced received → channel'.Paced received) := by
  refine (channel.sendOthers_ensures count).mono ?_
  rintro - ⟨stream, rfl, sent⟩ received
  refine ⟨fun counted => ⟨fun idle => sent.trans (counted.idle idle), fun busy => ?_⟩,
    fun paced => ⟨fun idle => sent.trans (paced.idle idle), fun busy => ?_⟩⟩
  · have account := counted.busy busy
    rwa [← show acks { channel with stream } = channel.acks from sent] at account
  · have account := paced.busy busy
    rwa [← show acks { channel with stream } = channel.acks from sent] at account

theorem decodeSetAck_ensures (payload : Bytes) :
    (decodeSetAck payload).Ensures fun _ => True := by
  have total : (decode payload : Outcome LinkError SetAck).Ensures fun _ => True := by
    have read : (SetAck.read (BoundedReader.new payload)).Ensures fun _ => True := by
      refine (readNumber_ensures (BoundedReader.new payload)).bind fun generation _ => ?_
      exact (readNumber_ensures generation.2).bind fun _ _ => trivial
    exact read.bind fun _ _ => trivial
  unfold decodeSetAck
  cases decoded : (decode payload : Outcome LinkError SetAck) with
  | ok | error => trivial
  | fault cause =>
    rw [decoded] at total
    exact total

variable {channel : AckChannel width}

theorem sendAck_after_request (fresh : channel.acks = 0)
    (settled : channel.unacked = 1 ∨ channel.ackWindow.toNat ≤ 1) :
    channel.sendAck.Ensures fun channel' => channel'.Paced 1 := by
  refine channel.sendAck_ensures.mono ?_
  rintro channel' ⟨window, effect⟩
  by_cases due : channel.AckDue
  · rw [if_pos due] at effect
    obtain ⟨acks, unacked⟩ := effect
    have set : 0 < channel.ackWindow.toNat := UInt32.lt_iff_toNat_lt.mp due.1
    have reached : channel.ackWindow.toNat ≤ channel.unacked := due.2
    have one : channel.ackWindow.toNat = 1 := by omega
    refine ⟨fun zero => ?_, fun _ => ?_⟩
    · rw [← window, zero] at set
      exact absurd set (by decide)
    · rw [window, acks, unacked, fresh, one]
      exact ⟨by decide, 0, by decide, by decide⟩
  · rw [if_neg due] at effect
    subst effect
    refine ⟨fun _ => fresh, fun nonzero => ?_⟩
    have below := not_due due nonzero
    refine ⟨below, 1 - channel'.unacked, by omega, ?_⟩
    rw [fresh]
    omega

/-- The channels keep the pace if a window is set only while all messages are acknowledged. -/
theorem processMessage_paced (wide : 32 ≤ width)
    (paced : channel.Paced received)
    (settled : ∀ payload, message = .setAck payload → channel.messageCount = channel.lastAck ∨
        (decodeSetAck payload).Ensures fun setAck => setAck.window.toNat ≤ 1) :
    (channel.processMessage message).Ensures fun channel' =>
      channel'.Paced (message.receivedAfter received) := by
  cases message with
  | setAck payload =>
    have narrow : channel.messageCount = channel.lastAck →
        unacked { channel with messageCount := channel.messageCount + 1 } = 1 := by
      intro same
      rw [unacked_count, unacked, same, BitVec.sub_self, BitVec.toNat_zero]
      exact Nat.mod_eq_of_lt (Nat.one_lt_two_pow (by omega))
    have window : (decodeSetAck payload).Ensures fun setAck =>
        channel.messageCount = channel.lastAck ∨ setAck.window.toNat ≤ 1 := by
      rcases settled payload rfl with same | small
      · exact (decodeSetAck_ensures payload).mono fun _ _ => .inl same
      · exact small.mono fun _ => .inr
    have answered : (handleMessage { channel with messageCount := channel.messageCount + 1 }
        (.setAck payload)).Ensures fun channel' => channel'.acks = 0 ∧
          (channel'.unacked = 1 ∨ channel'.ackWindow.toNat ≤ 1) := by
      refine window.bind fun setAck settled => ?_
      refine (send_ackSync_ensures _ setAck).mono ?_
      rintro channel' ⟨set, unacked, acks⟩
      refine ⟨acks, ?_⟩
      rcases settled with same | small
      · exact .inl (unacked.trans (narrow same))
      · exact .inr (set ▸ small)
    exact answered.bind fun channel' ⟨fresh, settled⟩ => sendAck_after_request fresh settled
  | other handler =>
    cases handler with
    | error reason => trivial
    | ok count =>
      refine (sendOthers_account count _).bind fun handled account => ?_
      exact ((account _).1 (paced.counted wide)).sendAck

theorem processPlayback_paced (wide : 32 ≤ width)
    (paced : channel.Paced received) : (channel.processPlayback message).Ensures fun channel' =>
      channel'.Paced (message.receivedAfter received) := by
  refine (paced.counted wide).sendAck.bind fun acknowledged paced' => ?_
  cases message with
  | setAck payload =>
    refine (decodeSetAck_ensures payload).bind fun setAck _ => ?_
    refine (send_ackSync_ensures _ setAck).mono ?_
    rintro channel' ⟨window, unacked, acks⟩
    refine ⟨fun _ => acks, fun set => ?_⟩
    have zero : channel'.unacked = 0 := by
      rw [unacked]
      exact congrArg BitVec.toNat (sub_self (0 : BitVec width))
    rw [zero, acks]
    exact ⟨toNat_pos_of_ne_zero set, 1, Nat.le_refl 1, by rw [Nat.zero_mul]; rfl⟩
  | other handler =>
    cases handler with
    | error reason => trivial
    | ok count =>
      exact (sendOthers_account count acknowledged).mono fun _ account => (account _).2 paced'

end AckChannel

/-- A channel with the number of messages received since the last request, counting it (history). -/
structure AckWorld (kind : AckKind) where
  channel : AckChannel kind.width
  received : Nat

namespace AckWorld

variable {kind : AckKind}

def fresh (kind : AckKind) (room : Option Nat) : AckWorld kind := ⟨.new room, 0⟩

def step (world : AckWorld kind) (message : BaseMessage) : Option (AckWorld kind) :=
  (kind.process world.channel message).toOption.map fun channel =>
    ⟨channel, message.receivedAfter world.received⟩

/-- With a window acknowledgements keep pace with the messages, without one there are none. -/
def InPace (world : AckWorld kind) : Prop :=
  (world.channel.ackWindow.toNat = 0 → world.channel.acks = 0) ∧
    (world.channel.ackWindow.toNat ≠ 0 →
      world.channel.acks * world.channel.ackWindow.toNat ≤ world.received ∧
        world.received < world.channel.acks * world.channel.ackWindow.toNat +
          (world.channel.ackWindow.toNat + 1))

instance (world : AckWorld kind) : Decidable world.InPace :=
  inferInstanceAs (Decidable ((_ → _) ∧ (_ → _)))

/-- A window is set only with all messages acknowledged, or the channel counts anew. -/
def Settled (world : AckWorld kind) : BaseMessage → Prop
  | .setAck payload =>
    kind = .playback ∨ world.channel.messageCount = world.channel.lastAck ∨
      (AckChannel.decodeSetAck payload).Ensures fun setAck => setAck.window.toNat ≤ 1
  | .other _ => True

instance (world : AckWorld kind) : ∀ message, Decidable (world.Settled message)
  | .setAck _ => inferInstanceAs (Decidable (_ ∨ _ ∨ _))
  | .other _ => .isTrue trivial

variable {world : AckWorld kind}

theorem inPace_of_paced (paced : world.channel.Paced world.received) : world.InPace := by
  refine ⟨fun zero => paced.idle (UInt32.toNat_inj.mp zero), fun nonzero => ?_⟩
  obtain ⟨less, uncounted, small, account⟩ := paced.busy fun zero => nonzero (by rw [zero]; rfl)
  omega

theorem step_paced {world' : AckWorld kind} {message : BaseMessage}
    (paced : world.channel.Paced world.received) (settled : world.Settled message)
    (stepped : world.step message = some world') : world'.channel.Paced world'.received := by
  obtain ⟨channel, processed, rfl⟩ := Option.map_eq_some_iff.mp stepped
  have returned := toOption_eq_some.mp processed
  have settled' : kind ≠ .playback → ∀ payload, message = .setAck payload →
      world.channel.messageCount = world.channel.lastAck ∨
        (AckChannel.decodeSetAck payload).Ensures fun setAck => setAck.window.toNat ≤ 1 := by
    rintro other payload rfl
    exact settled.resolve_left other
  cases kind with
  | playback => exact (AckChannel.processPlayback_paced (by decide) paced).of_eq_ok returned
  | display | cursor | usbredir | webdav =>
    exact (AckChannel.processMessage_paced (by decide) paced (settled' nofun)).of_eq_ok returned

/-- Acknowledgements keep pace if a window of two or more is set only while all messages are
acknowledged, and on the playback channel always. -/
theorem acks_in_pace {room : Option Nat} {messages : List BaseMessage}
    (settled : Meets step Settled (fresh kind room) messages) :
    Along step InPace (fresh kind room) messages := by
  refine Along.of_invariant (fun world => world.channel.Paced world.received)
    (fun _ => inPace_of_paced) (fun _ _ _ => step_paced) ?_ settled
  exact ⟨fun _ => rfl, fun set => absurd rfl set⟩

def settledRun : List BaseMessage :=
  [.setAck [1, 0, 0, 0, 3, 0, 0, 0], .other (.ok 1), .other (.ok 0), .other (.ok 0),
    .setAck [2, 0, 0, 0, 0, 0, 0, 0], .other (.ok 2)]

theorem settledRun_in_pace : (run step (fresh .display none) settledRun).isSome ∧
      Along step InPace (fresh .display none) settledRun :=
  ⟨by decide +kernel, acks_in_pace (by decide +kernel)⟩

def earlyRun : List BaseMessage :=
  [.other (.ok 0), .other (.ok 0), .other (.ok 0), .other (.ok 0), .setAck [1, 0, 0, 0, 4, 0, 0, 0]]

/-- Such a window is acknowledged at once. -/
theorem early_ack : ¬ Along step InPace (fresh .display none) earlyRun ∧
    ¬ Along step InPace (fresh .cursor none) earlyRun ∧
    ¬ Along step InPace (fresh .usbredir none) earlyRun ∧
    ¬ Along step InPace (fresh .webdav none) earlyRun := by
  decide +kernel

end AckWorld

end Ryll
