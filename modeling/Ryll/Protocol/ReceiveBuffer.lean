import Ryll.Protocol.Reader

/-!
# The receive buffer of a channel

Bytes read from the socket wait in `ReceiveBuffer` until they form a message: a mini header of six
bytes and the body it announces.  Taken bytes stay at the front until reclaiming them is cheap.
-/

namespace Ryll

open List

/-- Why bytes are refused. -/
inductive IoError
  | unexpectedEof (text : String)
  | invalidData (text : String)
  deriving DecidableEq

/-- The mini header. -/
structure MessageHeader where
  messageType : UInt16
  messageSize : UInt32

namespace MessageHeader

def wireSize : Nat := 6

def read (data : Bytes) : Except IoError MessageHeader :=
  if data.length < wireSize then
    .error (.unexpectedEof "Not enough data for message header")
  else
    .ok ⟨UInt16.ofNat (littleEndian (data.take 2)),
      UInt32.ofNat (littleEndian ((data.drop 2).take 4))⟩

end MessageHeader

/-- A message as it was taken. -/
structure ReceivedMessage where
  header : MessageHeader
  raw : Bytes

/-- Bytes received and not yet reclaimed. -/
structure ReceiveBuffer where
  data : Bytes
  /-- Bytes at the front that were taken as messages. -/
  start : Nat
  moved : Nat
  /-- Only received bytes are taken. -/
  inside : start ≤ data.length

open MessageHeader

namespace ReceiveBuffer

def new : ReceiveBuffer := ⟨[], 0, 0, Nat.le_refl 0⟩

variable (buffer : ReceiveBuffer)

def unconsumed : Bytes := buffer.data.drop buffer.start

def compact : ReceiveBuffer :=
  if buffer.start = 0 then
    buffer
  else
    let remaining := buffer.data.length - buffer.start
    if remaining = 0 then
      ⟨[], 0, buffer.moved, Nat.le_refl 0⟩
    else if remaining ≤ buffer.start then
      ⟨buffer.data.drop buffer.start, 0, buffer.moved + remaining, Nat.zero_le _⟩
    else
      buffer

variable (bytes : Bytes)

def extendFromSlice : ReceiveBuffer :=
  let buffer := buffer.compact
  ⟨buffer.data ++ bytes, buffer.start, buffer.moved, by
    have inside := buffer.inside
    rw [length_append]
    omega⟩

def overLimit (header : MessageHeader) (maxBody : Nat) : String :=
  "message type " ++ toString header.messageType ++ " declares a " ++
    toString header.messageSize.toNat ++ " byte body, over the " ++ toString maxBody ++
    " byte limit"

/-- Take a message that is complete. -/
def takeMessage (maxBody : Nat) : Except IoError (Option ReceivedMessage) × ReceiveBuffer :=
  let waiting := buffer.unconsumed
  if waiting.length < MessageHeader.wireSize then
    (.ok none, buffer)
  else
    match MessageHeader.read waiting with
    | .error reason => (.error reason, buffer)
    | .ok header =>
      let body := header.messageSize.toNat
      if maxBody < body then
        (.error (.invalidData (overLimit header maxBody)), buffer)
      else
        let total := MessageHeader.wireSize + body
        if short : waiting.length < total then
          (.ok none, buffer)
        else
          (.ok (some ⟨header, waiting.take total⟩),
            ⟨buffer.data, buffer.start + total, buffer.moved, by
              have inside := buffer.inside
              have room : waiting.length = buffer.data.length - buffer.start :=
                length_drop
              omega⟩)

/-! ## What waits in the buffer -/

def frontHeader : MessageHeader :=
  ⟨UInt16.ofNat (littleEndian (bytes.take 2)), UInt32.ofNat (littleEndian ((bytes.drop 2).take 4))⟩

/-- A complete header announces a body within the limit, or the header is not complete. -/
def Admissible (maxBody : Nat) (bytes : Bytes) : Prop :=
  MessageHeader.wireSize ≤ bytes.length → (frontHeader bytes).messageSize.toNat ≤ maxBody

/-- The bytes hold a complete header and the body it announces. -/
def HoldsMessage : Prop :=
  MessageHeader.wireSize + (frontHeader bytes).messageSize.toNat ≤ bytes.length

theorem unconsumed_compact : buffer.compact.unconsumed = buffer.unconsumed := by
  unfold compact
  split
  · rfl
  · dsimp only
    split
    · exact (drop_of_length_le (by omega)).symm
    · split <;> rfl

theorem unconsumed_extendFromSlice :
    (buffer.extendFromSlice bytes).unconsumed = buffer.unconsumed ++ bytes := by
  rw [← unconsumed_compact buffer]
  exact drop_append_of_le_length buffer.compact.inside

/-- Compaction pays for the bytes it moves with taken bytes it reclaims. -/
theorem moved_compact :
    buffer.compact.moved + buffer.compact.start ≤ buffer.moved + buffer.start := by
  unfold compact
  split
  · exact Nat.le_refl _
  dsimp only
  split
  · simp
  · split
    · dsimp only
      omega
    · exact Nat.le_refl _

theorem takeMessage_cases (buffer : ReceiveBuffer) (maxBody : Nat) :
    let waiting := buffer.unconsumed
    (¬ Admissible maxBody waiting ∧ buffer.takeMessage maxBody =
      (.error (.invalidData (overLimit (frontHeader waiting) maxBody)), buffer)) ∨
    (Admissible maxBody waiting ∧ ¬ HoldsMessage waiting ∧
      buffer.takeMessage maxBody = (.ok none, buffer)) ∨
    (Admissible maxBody waiting ∧ HoldsMessage waiting ∧ ∃ buffer',
      buffer.takeMessage maxBody = (.ok (some ⟨frontHeader waiting, waiting.take
        (wireSize + (frontHeader waiting).messageSize.toNat)⟩), buffer') ∧
      buffer'.unconsumed =
        waiting.drop (wireSize + (frontHeader waiting).messageSize.toNat) ∧
      buffer'.start =
        buffer.start + (wireSize + (frontHeader waiting).messageSize.toNat) ∧
      buffer'.moved = buffer.moved) := by
  intro waiting
  by_cases partial_header : waiting.length < wireSize
  · refine .inr (.inl ⟨fun complete => absurd complete (Nat.not_le.mpr partial_header), ?_, ?_⟩)
    · rw [HoldsMessage]
      omega
    · exact if_pos partial_header
  have complete := Nat.le_of_not_lt partial_header
  have header : read waiting = .ok (frontHeader waiting) := if_neg partial_header
  by_cases oversized : maxBody < (frontHeader waiting).messageSize.toNat
  · refine .inl ⟨fun admissible => absurd (admissible complete) (Nat.not_le.mpr oversized), ?_⟩
    simp only [takeMessage, waiting] at header partial_header oversized ⊢
    rw [if_neg partial_header, header]
    exact if_pos oversized
  have admissible : Admissible maxBody waiting := fun _ => Nat.le_of_not_lt oversized
  by_cases short : waiting.length < wireSize + (frontHeader waiting).messageSize.toNat
  · refine .inr (.inl ⟨admissible, Nat.not_le.mpr short, ?_⟩)
    simp only [takeMessage, waiting] at header partial_header oversized short ⊢
    rw [if_neg partial_header, header]
    simp only [if_neg oversized, dif_pos short]
  · refine .inr (.inr ⟨admissible, Nat.le_of_not_lt short, ?_⟩)
    simp only [takeMessage, waiting] at header partial_header oversized short ⊢
    rw [if_neg partial_header, header]
    simp only [if_neg oversized, dif_neg short]
    exact ⟨_, rfl, by simp [unconsumed, drop_drop], rfl, rfl⟩

/-! ## Runs -/

/-- A buffer with what was appended to it and taken from it (history). -/
structure Connection where
  buffer : ReceiveBuffer
  appended : Bytes
  taken : List ReceivedMessage

/-- An operation on the buffer. -/
inductive Action
  | extendFromSlice (bytes : Bytes)
  | takeMessage (maxBody : Nat)

def Connection.opened : Connection := ⟨.new, [], []⟩

variable (connection : Connection)

def Connection.consumed : Bytes :=
  connection.taken.flatMap ReceivedMessage.raw

def Connection.step : Action → Connection
  | .extendFromSlice bytes =>
    { connection with
      buffer := connection.buffer.extendFromSlice bytes
      appended := connection.appended ++ bytes }
  | .takeMessage maxBody =>
    let (result, buffer) := connection.buffer.takeMessage maxBody
    match result with
    | .ok (some message) => { connection with buffer, taken := connection.taken ++ [message] }
    | _ => { connection with buffer }

def Connection.run (actions : List Action) : Connection :=
  actions.foldl Connection.step connection

/-- A taken message is a mini header and exactly the body it announces. -/
def Framed (message : ReceivedMessage) : Prop :=
  MessageHeader.read message.raw = .ok message.header ∧
    message.raw.length = MessageHeader.wireSize + message.header.messageSize.toNat

/-- The buffer is a byte queue from which whole messages are taken. -/
structure Connection.Faithful (connection : Connection) : Prop where
  bytes : connection.consumed ++ connection.buffer.unconsumed = connection.appended
  framed : ∀ message ∈ connection.taken, Framed message
  /-- Moved bytes and taken bytes not yet reclaimed are covered by the bytes taken. -/
  moved : connection.buffer.moved + connection.buffer.start ≤ connection.consumed.length

theorem Connection.faithful_opened : Connection.opened.Faithful where
  bytes := rfl
  framed := nofun
  moved := Nat.le_refl 0

theorem framed_front {bytes : Bytes} (holds : HoldsMessage bytes) :
    Framed ⟨frontHeader bytes, bytes.take
      (wireSize + (frontHeader bytes).messageSize.toNat)⟩ := by
  rw [HoldsMessage] at holds
  have length : (bytes.take (wireSize +
      (frontHeader bytes).messageSize.toNat)).length =
        wireSize + (frontHeader bytes).messageSize.toNat := by
    rw [length_take]
    omega
  have typed : (bytes.take (wireSize +
      (frontHeader bytes).messageSize.toNat)).take 2 = bytes.take 2 := by
    rw [take_take, Nat.min_eq_left (by rw [wireSize]; omega)]
  have sized : ((bytes.take (wireSize +
      (frontHeader bytes).messageSize.toNat)).drop 2).take 4 = (bytes.drop 2).take 4 := by
    rw [drop_take, take_take, Nat.min_eq_left (by rw [wireSize]; omega)]
  refine ⟨?_, length⟩
  rw [MessageHeader.read, length, if_neg (by omega), typed, sized]
  rfl

variable {connection : Connection}

theorem Connection.Faithful.step (faithful : connection.Faithful) (action : Action) :
    (connection.step action).Faithful := by
  cases action with
  | extendFromSlice bytes =>
    exact {
      bytes := by
        simp only [Connection.step, unconsumed_extendFromSlice, ← faithful.bytes,
          Connection.consumed, append_assoc]
      framed := faithful.framed
      moved := Nat.le_trans (moved_compact connection.buffer) faithful.moved }
  | takeMessage maxBody =>
    rcases takeMessage_cases connection.buffer maxBody with
      ⟨-, refused⟩ | ⟨-, -, waits⟩ | ⟨-, holds, buffer', takes, rest, start, moved⟩
    · simpa [Connection.step, refused] using faithful
    · simpa [Connection.step, waits] using faithful
    · have framed := framed_front holds
      have before := faithful.moved
      have length := framed.2
      simp only [Connection.step, takes]
      exact {
        bytes := by
          rw [← faithful.bytes, Connection.consumed, Connection.consumed, flatMap_append,
            flatMap_singleton, rest, append_assoc, take_append_drop]
        framed := by
          intro message listed
          rcases mem_append.mp listed with old | new
          · exact faithful.framed message old
          · exact mem_singleton.mp new ▸ framed
        moved := by
          simp only [Connection.consumed, flatMap_append, flatMap_singleton,
            length_append] at before length ⊢
          omega }

theorem Connection.Faithful.run (faithful : connection.Faithful) (actions : List Action) :
    (connection.run actions).Faithful := by
  induction actions generalizing connection with
  | nil => exact faithful
  | cons action actions ih => exact ih (faithful.step action)

/-- The messages taken and the unread bytes are all bytes ever appended, messages are taken whole,
compaction moves no more bytes than were taken, and a take depends on the unread bytes only. -/
theorem run_frames (actions : List Action) (maxBody : Nat) :
    let connection := Connection.opened.run actions
    let waiting := connection.buffer.unconsumed
    connection.consumed ++ waiting = connection.appended ∧
    (∀ message ∈ connection.taken, Framed message) ∧
    connection.buffer.moved ≤ connection.consumed.length ∧
    connection.buffer.compact.unconsumed = waiting ∧
    ((connection.buffer.takeMessage maxBody).1 = .ok none ↔
      ¬ HoldsMessage waiting ∧ Admissible maxBody waiting) ∧
    ((∃ reason, (connection.buffer.takeMessage maxBody).1 = .error reason) ↔
      ¬ Admissible maxBody waiting) ∧
    (¬ Admissible maxBody waiting →
      (connection.buffer.takeMessage maxBody).2 = connection.buffer) := by
  intro connection waiting
  have faithful : connection.Faithful := Connection.faithful_opened.run actions
  have moved := faithful.moved
  refine ⟨faithful.bytes, faithful.framed, by omega, unconsumed_compact _, ?_⟩
  rcases takeMessage_cases connection.buffer maxBody with
    ⟨refusable, refused⟩ | ⟨admissible, short, waits⟩ | ⟨admissible, holds, buffer', takes, -⟩
  · rw [refused]
    simp [waiting, refusable]
  · rw [waits]
    simp [waiting, admissible, short]
  · rw [takes]
    simp [waiting, admissible, holds]

end ReceiveBuffer

end Ryll
