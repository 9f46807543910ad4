import Ryll.Channels.Usbredir

/-!
# Attachment of a redirected device

Whether a device is attached is known to the channel's backend, to its list of redirected devices
and to the server.  Every event acts on them together, and two of the server's messages can set them
at odds: a hello that connects a second device, and an acknowledgement that arrives late.
-/

namespace Ryll

/-! ## The attachment -/

/-- What the three places know. -/
structure Attachment where
  attached : Bool
  listed : Nat
  connects : Nat
  /-- The number of disconnections sent to the server. -/
  disconnects : Nat

namespace Attachment

variable (state : Attachment)

def connect : Attachment :=
  { state with attached := true, listed := state.listed + 1, connects := state.connects + 1 }

def disconnect : Attachment :=
  if state.attached then
    { state with attached := false, listed := 0, disconnects := state.disconnects + 1 }
  else state

def acknowledge : Attachment := { state with attached := false }

/-- The three places agree, and at most one device is attached. -/
def Consistent : Prop :=
  state.listed ≤ 1 ∧ (state.attached = true ↔ state.listed = 1) ∧
    (state.attached = true ↔ state.connects = state.disconnects + 1)

instance (state : Attachment) : Decidable state.Consistent :=
  inferInstanceAs (Decidable (_ ∧ _ ∧ _))

/-- The connections and disconnections sent account for the listed device and the attached one. -/
structure Balanced (state : Attachment) : Prop where
  listed : state.listed = state.attached.toNat
  sent : state.connects = state.disconnects + state.attached.toNat

section

variable {state : Attachment} (balanced : state.Balanced)
include balanced

theorem Balanced.consistent : state.Consistent := by
  obtain ⟨listed, sent⟩ := balanced
  cases attached : state.attached <;> simp_all [Consistent]

theorem Balanced.disconnect : state.disconnect.Balanced ∧ state.disconnect.attached = false := by
  cases attached : state.attached with
  | false =>
    rw [Attachment.disconnect, if_neg (by simp [attached])]
    exact ⟨balanced, attached⟩
  | true =>
    rw [Attachment.disconnect, if_pos attached]
    have sent := balanced.sent
    rw [attached] at sent
    exact ⟨⟨rfl, sent⟩, rfl⟩

end

theorem not_consistent_connect {state : Attachment} (balanced : state.Balanced)
    (attached : state.attached = true) : ¬ state.connect.Consistent := by
  intro consistent
  have single : state.listed + 1 ≤ 1 := consistent.1
  have listed := balanced.listed
  rw [attached] at listed
  simp only [Bool.toNat_true] at listed
  omega

theorem not_consistent_acknowledge {state : Attachment} (balanced : state.Balanced)
    (attached : state.attached = true) : ¬ state.acknowledge.Consistent := by
  intro consistent
  have listed := balanced.listed
  rw [attached] at listed
  exact Bool.false_ne_true (consistent.2.1.mpr listed)

end Attachment

/-! ## What the channel does to it -/

def DeviceSearch.isFound {β : Type} : DeviceSearch β → Bool
  | .found _ => true
  | _ => false

namespace UsbredirChannel

variable {β : Type} (msgType : RedirType)

variable (messages : List UsbredirSent)

def sentCount : Nat :=
  messages.countP fun message => message.msgType = msgType

variable (channel : UsbredirChannel β)

def attachment : Attachment where
  attached := channel.backend.isSome
  listed := channel.redirectedDevices.length
  connects := sentCount .deviceConnect channel.stream.sent
  disconnects := sentCount .deviceDisconnect channel.stream.sent

theorem sentCount_append
    (message : UsbredirSent) :
    sentCount msgType (messages ++ [message]) =
      sentCount msgType messages + if message.msgType = msgType then 1 else 0 := by
  simp [sentCount, List.countP_append]

theorem sendUsbredir_ensures (id : UInt32) (payload : Bytes) :
    (channel.sendUsbredir msgType id payload).Ensures fun channel' =>
      channel'.backend = channel.backend ∧
        channel'.redirectedDevices.length = channel.redirectedDevices.length ∧
        channel'.stream.sent = channel.stream.sent ++ [⟨msgType, id, payload⟩] := by
  refine (Outgoing.write_ensures _ _ _).bind fun stream sent => ?_
  refine ⟨rfl, ?_, sent⟩
  simp [recordDeviceBytesToGuest, updateLast]

variable {msgType : RedirType}

theorem sendUsbredir_attachment (not_connect : msgType ≠ .deviceConnect)
    (not_disconnect : msgType ≠ .deviceDisconnect) (id : UInt32) (payload : Bytes) :
    (channel.sendUsbredir msgType id payload).Ensures fun channel' =>
      channel'.backend = channel.backend ∧ channel'.attachment = channel.attachment := by
  refine (channel.sendUsbredir_ensures msgType id payload).mono ?_
  rintro channel' ⟨backend, listed, sent⟩
  refine ⟨backend, ?_⟩
  simp [attachment, backend, listed, sent, sentCount_append, not_connect, not_disconnect]

variable (device : UsbDeviceBackend β)

theorem connectDevice_attachment (channel : UsbredirChannel β) (backend : β) :
    (channel.connectDevice device backend).Ensures fun channel' =>
      channel'.attachment = channel.attachment.connect := by
  refine (channel.sendUsbredir_attachment (by decide) (by decide) _ _).bind ?_
  rintro described ⟨-, same⟩
  refine (described.sendUsbredir_attachment (by decide) (by decide) _ _).bind ?_
  rintro described' ⟨-, same'⟩
  refine (described'.sendUsbredir_ensures _ _ _).bind ?_
  rintro sent ⟨-, listed, messages⟩
  rw [← same, ← same']
  simp [attachment, emit, Attachment.connect, listed, messages, sentCount_append]

theorem disconnectDevice_attachment : channel.disconnectDevice.Ensures fun channel' =>
      channel'.attachment = channel.attachment.disconnect := by
  unfold disconnectDevice
  split
  case isTrue attached =>
      refine (sendUsbredir_ensures _ _ _ _).bind ?_
      rintro sent ⟨-, -, messages⟩
      simp [attachment, emit, Attachment.disconnect, attached, messages, sentCount_append]
  case isFalse free =>
      exact (if_neg free).symm

theorem emit_attachment (notice : UsbNotice) :
    (channel.emit notice).attachment = channel.attachment := rfl

def connected (succeeded : Bool) (state : Attachment) : Attachment :=
  if succeeded then state.connect else state

variable (channel : UsbredirChannel β)

theorem connectVirtual_attachment (path : String)
    (opened : Except String β) : (channel.connectVirtual device path opened).Ensures fun channel' =>
      channel'.attachment = connected opened.isOk channel.attachment := by
  cases opened with
  | ok backend => exact channel.connectDevice_attachment device backend
  | error reason => exact emit_attachment _ _

def afterCommand (state : Attachment) : UsbCommand β → Attachment
  | .connectPhysical _ _ search => connected search.isFound state.disconnect
  | .connectVirtualDisk _ opened => connected opened.isOk state.disconnect
  | .disconnectDevice => state.disconnect

theorem answer_attachment (not_connect : msgType ≠ .deviceConnect)
    (not_disconnect : msgType ≠ .deviceDisconnect) (id : UInt32)
    (ask : β → Except String (Bytes × β)) :
    (channel.answer msgType id ask).Ensures fun channel' =>
      channel'.attachment = channel.attachment := by
  unfold answer
  split
  case h_1 => exact rfl
  case h_2 backend attached =>
      refine (Outcome.ofExcept_ensures _).bind fun answered _ => ?_
      refine (sendUsbredir_attachment _ not_connect not_disconnect id answered.1).mono ?_
      rintro channel' ⟨-, same⟩
      rw [same]
      simp [attachment, attached]

variable (opened : Except String β)

def afterMessage : UsbredirPayload → Attachment
  | .hello _ => connected (!channel.autoConnectDisks.isEmpty && opened.isOk) channel.attachment
  | .deviceDisconnectAck => channel.attachment.acknowledge
  | _ => channel.attachment

variable (channel : UsbredirChannel β)

theorem handleUsbredirMessage_attachment (message : UsbredirMessage) :
    (channel.handleUsbredirMessage device opened message).Ensures fun channel' =>
      channel'.attachment = afterMessage channel opened message.payload := by
  obtain ⟨id, payload⟩ := message
  cases payload with
  | hello hello =>
    change (channel.handleHello device opened hello).Ensures _
    unfold handleHello afterMessage
    cases disks : channel.autoConnectDisks with
    | nil => exact rfl
    | cons disk others => exact connectVirtual_attachment device _ disk.path opened
  | setConfiguration | getConfiguration | setAltSetting | getAltSetting | controlPacket
  | bulkPacket => exact answer_attachment _ (by decide) (by decide) _ _
  | reset => simp [handleUsbredirMessage, afterMessage, attachment]
  | cancelDataPacket | filterReject | deviceDisconnectAck | other => exact rfl
  | interruptPacket header data =>
    simp only [handleUsbredirMessage]
    split
    · exact rfl
    · exact answer_attachment _ (by decide) (by decide) _ _
  | startInterruptReceiving endpoint =>
    refine (sendUsbredir_attachment _ (by decide) (by decide) _ _).mono ?_
    rintro channel' ⟨-, same⟩
    refine same.trans ?_
    change (channel.startInterruptPoll device endpoint).2.attachment = channel.attachment
    unfold startInterruptPoll
    split
    · rfl
    split
    · rfl
    split
    · rfl
    split <;> simp [attachment, *]
  | stopInterruptReceiving endpoint =>
    refine (sendUsbredir_attachment _ (by decide) (by decide) _ _).mono ?_
    rintro channel' ⟨-, same⟩
    exact same

def after : UsbredirEvent β → Attachment
  | .message opened message => afterMessage channel opened message.payload
  | .command command => afterCommand channel.attachment command
  | .data _ | .interrupt _ => channel.attachment

theorem handle_attachment (channel : UsbredirChannel β) (event : UsbredirEvent β) :
    (channel.handle device event).Ensures fun channel' =>
      channel'.attachment = channel.after event := by
  cases event with
  | data size => simp [handle, after, attachment, recordDeviceBytesFromGuest, updateLast]
  | message opened message => exact channel.handleUsbredirMessage_attachment device opened message
  | command command =>
    cases command with
    | connectPhysical bus address search =>
      refine channel.disconnectDevice_attachment.bind fun detached same => ?_
      rw [after, afterCommand, ← same]
      cases search with
      | enumerationFailed reason | notFound | openFailed reason => exact emit_attachment _ _
      | found backend => exact detached.connectDevice_attachment device backend
    | connectVirtualDisk path opened =>
      refine channel.disconnectDevice_attachment.bind fun detached same => ?_
      rw [after, afterCommand, ← same]
      exact detached.connectVirtual_attachment device path opened
    | disconnectDevice => exact channel.disconnectDevice_attachment
  | interrupt delivered =>
    exact (sendUsbredir_attachment channel (by decide) (by decide) _ _).mono fun _ => And.right

end UsbredirChannel

/-! ## Runs -/

def UsbredirEvent.isAck {β : Type} : UsbredirEvent β → Bool
  | .message _ received => received.payload = .deviceDisconnectAck
  | _ => false

namespace UsbredirChannel

variable {β : Type} (device : UsbDeviceBackend β) (channel : UsbredirChannel β)

def handled (event : UsbredirEvent β) : Option (UsbredirChannel β) :=
  (channel.handle device event).toOption

/-- After the event the three places agree, and an acknowledgement detached nothing. -/
def Sound (event : UsbredirEvent β) : Prop :=
  ∀ channel', channel.handled device event = some channel' →
    channel'.attachment.Consistent ∧ (event.isAck = true → channel'.backend = channel.backend)

instance [DecidableEq β] (channel : UsbredirChannel β) (event : UsbredirEvent β) :
    Decidable (channel.Sound device event) :=
  inferInstanceAs (Decidable (∀ channel', channel.handled device event = some channel' → _))

def connectsDisk : UsbredirEvent β → Bool
  | .message opened ⟨_, .hello _⟩ => !channel.autoConnectDisks.isEmpty && opened.isOk
  | _ => false

/-- While a device is attached, no disconnection is acknowledged and no hello connects a disk. -/
def Orderly (event : UsbredirEvent β) : Prop :=
  channel.backend.isSome = true → event.isAck = false ∧ channel.connectsDisk event = false

instance (channel : UsbredirChannel β) (event : UsbredirEvent β) :
    Decidable (channel.Orderly event) :=
  inferInstanceAs (Decidable (_ → _ ∧ _))

variable {device}

theorem balanced_connected {state : Attachment} {succeeded : Bool} (balanced : state.Balanced)
    (free : succeeded = true → state.attached = false) : (connected succeeded state).Balanced := by
  cases succeeded with
  | false => exact balanced
  | true =>
    obtain ⟨listed, sent⟩ := balanced
    rw [(free rfl)] at listed sent
    exact ⟨congrArg (· + 1) listed, congrArg (· + 1) sent⟩

variable {event : UsbredirEvent β} {channel : UsbredirChannel β}

theorem balanced_after
    (balanced : channel.attachment.Balanced) (orderly : channel.Orderly event) :
    (channel.after event).Balanced := by
  cases event with
  | data | interrupt => exact balanced
  | command command =>
    obtain ⟨detached, free⟩ := balanced.disconnect
    cases command with
    | connectPhysical | connectVirtualDisk => exact balanced_connected detached fun _ => free
    | disconnectDevice => exact detached
  | message opened message =>
    obtain ⟨id, payload⟩ := message
    cases payload with
    | hello hello =>
      refine balanced_connected balanced fun connects => Bool.eq_false_iff.mpr fun attached => ?_
      exact absurd connects (Bool.eq_false_iff.mp (orderly attached).2)
    | deviceDisconnectAck =>
      have free : channel.attachment.attached = false :=
        Bool.eq_false_iff.mpr fun attached => Bool.false_ne_true (orderly attached).1.symm
      change channel.attachment.acknowledge.Balanced
      rwa [Attachment.acknowledge, ← free]
    | _ => exact balanced

/-- A disorderly event leaves the three places at odds. -/
theorem not_consistent_after
    (balanced : channel.attachment.Balanced) (disorderly : ¬ channel.Orderly event) :
    ¬ (channel.after event).Consistent := by
  obtain ⟨attached, ill⟩ := Classical.not_imp.mp disorderly
  cases event with
  | data | interrupt | command => exact absurd ⟨rfl, rfl⟩ ill
  | message opened message =>
    obtain ⟨id, payload⟩ := message
    cases payload with
    | hello hello =>
      have connects : (!channel.autoConnectDisks.isEmpty && opened.isOk) = true := by
        cases connects : (!channel.autoConnectDisks.isEmpty && opened.isOk)
        · exact absurd ⟨rfl, connects⟩ ill
        · rfl
      simp only [after, afterMessage, connected, connects, if_true]
      exact Attachment.not_consistent_connect balanced attached
    | deviceDisconnectAck => exact Attachment.not_consistent_acknowledge balanced attached
    | _ => exact absurd ⟨rfl, rfl⟩ ill

variable {channel' : UsbredirChannel β}

theorem handled_attachment
    (handled : channel.handled device event = some channel') :
    channel'.attachment = channel.after event :=
  (channel.handle_attachment device event).of_eq_ok (toOption_eq_some.mp handled)

theorem sound_iff_orderly (balanced : channel.attachment.Balanced)
    (handled : channel.handled device event = some channel') :
    channel.Sound device event ↔ channel.Orderly event := by
  constructor
  · intro sound
    by_contra disorderly
    have consistent := (sound channel' handled).1
    rw [handled_attachment handled] at consistent
    exact not_consistent_after balanced disorderly consistent
  · intro orderly other handled'
    constructor
    · rw [handled_attachment handled']
      exact (balanced_after balanced orderly).consistent
    intro acknowledges
    have free : channel.backend = none := by
      rw [← Option.not_isSome_iff_eq_none]
      intro attached
      rw [(orderly attached).1] at acknowledges
      exact Bool.false_ne_true acknowledges
    cases event with
    | data | interrupt | command => simp [UsbredirEvent.isAck] at acknowledges
    | message opened message =>
      obtain ⟨id, payload⟩ := message
      obtain rfl : payload = .deviceDisconnectAck := of_decide_eq_true acknowledges
      cases handled'
      exact free.symm

/-- A run keeps the three places in agreement exactly if all its events are orderly. -/
theorem attachment_consistent_iff {disks : List VirtualDiskConfig} {room : Option Nat}
    {start final : UsbredirChannel β} {events : List (UsbredirEvent β)}
    (begun : started disks room = .ok start)
    (reached : run (handled device) start events = some final) :
    start.attachment.Consistent ∧ (Meets (handled device) (Sound device) start events ↔
        Meets (handled device) Orderly start events) := by
  have balanced : start.attachment.Balanced := by
    obtain ⟨-, same⟩ := (sendUsbredir_attachment _ (by decide) (by decide) _ _).of_eq_ok begun
    rw [same]
    exact ⟨rfl, rfl⟩
  refine ⟨balanced.consistent, ?_⟩
  refine meets_congr (fun channel => channel.attachment.Balanced)
    (fun _ _ _ => sound_iff_orderly) ?_ balanced reached
  intro channel event channel' balanced orderly stepped
  rw [handled_attachment stepped]
  exact balanced_after balanced orderly

/-! ### Examples of runs -/

def connectDisk (path : String) : UsbredirEvent VirtualMsc :=
  .command (.connectVirtualDisk path (.ok (.openImage [] false)))

def serverHello : UsbredirEvent VirtualMsc :=
  .message (.ok (.openImage [] false)) ⟨0, .hello ⟨"qemu", 0⟩⟩

def disconnectAck : UsbredirEvent VirtualMsc := .message (.error "") ⟨0, .deviceDisconnectAck⟩

def orderlyRun : List (UsbredirEvent VirtualMsc) :=
  [serverHello, connectDisk "b.img", .command .disconnectDevice, disconnectAck]

theorem orderlyRun_consistent : ∃ start, started [⟨"a.img", false⟩] none = .ok start ∧
      Meets (handled (virtualMscBackend "a.img")) (Sound (virtualMscBackend "a.img")) start
        orderlyRun := by
  obtain ⟨start, begun⟩ : ∃ start : UsbredirChannel VirtualMsc,
      started [⟨"a.img", false⟩] none = .ok start := ⟨_, rfl⟩
  have checked : (started [⟨"a.img", false⟩] none).Ensures fun start =>
      (run (handled (virtualMscBackend "a.img")) start orderlyRun).isSome ∧
        Meets (handled (virtualMscBackend "a.img")) Orderly start orderlyRun := by
    decide +kernel
  obtain ⟨reached, orderly⟩ := checked.of_eq_ok begun
  obtain ⟨final, reached⟩ := Option.isSome_iff_exists.mp reached
  exact ⟨start, begun, (attachment_consistent_iff begun reached).2.mpr orderly⟩

/-- A late acknowledgement detaches a second disk, and a hello while one is attached lists both. -/
theorem late_ack_and_hello_inconsistent : (∃ start, started [] none = .ok start ∧
      ¬ Meets (handled (virtualMscBackend "a.img")) (Sound (virtualMscBackend "a.img")) start
        [connectDisk "a.img", connectDisk "b.img", disconnectAck]) ∧
      ∃ start, started [⟨"c.img", false⟩] none = .ok start ∧
        ¬ Meets (handled (virtualMscBackend "a.img")) (Sound (virtualMscBackend "a.img")) start
          [connectDisk "a.img", serverHello] :=
  ⟨⟨_, rfl, by decide +kernel⟩, ⟨_, rfl, by decide +kernel⟩⟩

end UsbredirChannel

end Ryll
