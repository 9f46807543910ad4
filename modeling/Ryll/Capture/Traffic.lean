import Ryll.Foundation.Bytes

/-!
# Captured traffic

The messages of a channel become the segments of a made-up TCP connection.  A live capture writes
them to a file as they come, and a ring keeps the latest of them for a bug report.
-/

namespace Ryll

open List

namespace Capture

/-- Which side sent a message. -/
inductive TrafficDirection
  | sent
  | received
  deriving DecidableEq

def TrafficDirection.other : TrafficDirection → TrafficDirection
  | sent => received
  | received => sent

/-- A message of a channel. -/
structure Message where
  direction : TrafficDirection
  bytes : Bytes

/-- An end of the made-up connection. -/
structure Endpoint where
  ip : Bytes
  port : UInt16

def clientIp : Bytes := [10, 0, 0, 1]
def serverIp : Bytes := [10, 0, 0, 2]
def serverPort : UInt16 := 5900
def pcapSnaplen : Nat := 262144

/-- What the headers of a frame say. -/
structure Headers where
  source : Endpoint
  destination : Endpoint
  seq : UInt32
  ack : UInt32

/-- The headers of Ethernet, IPv4 and TCP that etherparse writes in front of a payload. -/
structure Etherparse where
  headers (said : Headers) (payload : Bytes) : Bytes
  length_headers (said : Headers) (payload : Bytes) :
    (headers said payload).length = 14 + 20 + 20

variable (eth : Etherparse) (port : UInt16)

def buildTcpFrame (said : Headers) (payload : Bytes) : Bytes :=
  if 20 + payload.length > 65515 then [] else eth.headers said payload ++ payload

def maxPayload : Nat := 65495

def segmentFrom (build : UInt32 → Bytes → Bytes) (seq : UInt32) (data : Bytes)
    (offset : Nat) : List Bytes :=
  if offset < data.length then
    let stop := min (offset + maxPayload) data.length
    build (seq + UInt32.ofNat offset) ((data.drop offset).take (stop - offset)) ::
      segmentFrom build seq data stop
  else
    []
termination_by data.length - offset
decreasing_by
  simp only [maxPayload]
  omega

/-- Split a message into segments, at least one. -/
def segmentPayload (source destination : Endpoint) (seq ack : UInt32) (data : Bytes) :
    List Bytes :=
  let build (seq : UInt32) := buildTcpFrame eth ⟨source, destination, seq, ack⟩
  let frames := segmentFrom build seq data 0
  if frames = [] then [build seq data] else frames

/-- The next sequence number of either direction. -/
structure Sequences where
  clientSeq : UInt32
  serverSeq : UInt32

def Sequences.initial : Sequences := ⟨1000, 2000⟩

/-! ## The live capture -/

/-- The writer of one channel, with the packets it has written. -/
structure PcapChannelWriter extends Sequences where
  clientPort : UInt16
  refusedFrames : Nat
  packets : List Bytes

namespace PcapChannelWriter

def new (clientPort : UInt16) : PcapChannelWriter := ⟨.initial, clientPort, 0, []⟩

variable (writer : PcapChannelWriter)

/-- Write a packet; `pcap_file` refuses one that is longer than the snapshot length. -/
def writeFrame (frame : Bytes) : PcapChannelWriter :=
  if frame.length > pcapSnaplen then { writer with refusedFrames := writer.refusedFrames + 1 }
  else { writer with packets := writer.packets ++ [frame] }

def writeSegmented (source destination : Endpoint) (data : Bytes) : PcapChannelWriter :=
  let (seq, ack) :=
    if source.ip = clientIp then (writer.clientSeq, writer.serverSeq)
    else (writer.serverSeq, writer.clientSeq)
  (segmentPayload eth source destination seq ack data).foldl writeFrame writer

def writeSent (data : Bytes) : PcapChannelWriter :=
  let writer :=
    writer.writeSegmented eth ⟨clientIp, writer.clientPort⟩ ⟨serverIp, serverPort⟩ data
  { writer with clientSeq := writer.clientSeq + UInt32.ofNat data.length }

def writeReceived (data : Bytes) : PcapChannelWriter :=
  let writer :=
    writer.writeSegmented eth ⟨serverIp, serverPort⟩ ⟨clientIp, writer.clientPort⟩ data
  { writer with serverSeq := writer.serverSeq + UInt32.ofNat data.length }

def write : Message → PcapChannelWriter
  | ⟨.sent, data⟩ => writer.writeSent eth data
  | ⟨.received, data⟩ => writer.writeReceived eth data

end PcapChannelWriter

/-! ## The ring of a bug report -/

/-- A recorded message as frames. -/
structure TrafficEntry where
  direction : TrafficDirection
  pcapFrame : Bytes
  additionalSegments : List Bytes

def TrafficEntry.frames (entry : TrafficEntry) : List Bytes :=
  entry.pcapFrame :: entry.additionalSegments

def entryBytes (entry : TrafficEntry) : Nat :=
  entry.pcapFrame.length + (entry.additionalSegments.map length).sum

/-- The latest messages of a channel. -/
structure TrafficRingBuffer extends Sequences where
  /-- Newest at the back. -/
  entries : List TrafficEntry
  totalBytes : Nat
  maxBytes : Nat

namespace TrafficRingBuffer

def new (maxBytes : Nat) : TrafficRingBuffer := ⟨.initial, [], 0, maxBytes⟩

/-- Drop entries from the front as long as there are too many bytes. -/
def evict (maxBytes : Nat) : List TrafficEntry → Nat → List TrafficEntry × Nat
  | [], totalBytes => ([], totalBytes)
  | old :: entries, totalBytes =>
    if totalBytes > maxBytes then evict maxBytes entries (totalBytes - entryBytes old)
    else (old :: entries, totalBytes)

def push (ring : TrafficRingBuffer) (entry : TrafficEntry) : TrafficRingBuffer :=
  let kept := evict ring.maxBytes (ring.entries ++ [entry]) (ring.totalBytes + entryBytes entry)
  { ring with entries := kept.1, totalBytes := kept.2 }

def buildSegmentedFrames (isSent : Bool) (data : Bytes) (ring : TrafficRingBuffer) :
    List Bytes × TrafficRingBuffer :=
  if isSent then
    (segmentPayload eth ⟨clientIp, port⟩ ⟨serverIp, serverPort⟩ ring.clientSeq ring.serverSeq data,
      { ring with clientSeq := ring.clientSeq + UInt32.ofNat data.length })
  else
    (segmentPayload eth ⟨serverIp, serverPort⟩ ⟨clientIp, port⟩ ring.serverSeq ring.clientSeq data,
      { ring with serverSeq := ring.serverSeq + UInt32.ofNat data.length })

/-- Record a message, which takes its first frame out of at least one. -/
def record (ring : TrafficRingBuffer) (message : Message) : Option TrafficRingBuffer :=
  match ring.buildSegmentedFrames eth port (message.direction = .sent) message.bytes with
  | ([], _) => none
  | (pcapFrame :: additionalSegments, ring) =>
    some (ring.push ⟨message.direction, pcapFrame, additionalSegments⟩)

end TrafficRingBuffer

/-! ## Streams of segments -/

/-- The next sequence number of a direction. -/
def Sequences.next (seqs : Sequences) : TrafficDirection → UInt32
  | .sent => seqs.clientSeq
  | .received => seqs.serverSeq

def Sequences.advance (seqs : Sequences) (direction : TrafficDirection) (count : Nat) : Sequences :=
  match direction with
  | .sent => { seqs with clientSeq := seqs.clientSeq + UInt32.ofNat count }
  | .received => { seqs with serverSeq := seqs.serverSeq + UInt32.ofNat count }

def endpoint : TrafficDirection → Endpoint
  | .sent => ⟨clientIp, port⟩
  | .received => ⟨serverIp, serverPort⟩

/-- A TCP segment, as the headers of its frame describe it. -/
structure Segment where
  direction : TrafficDirection
  seq : UInt32
  ack : UInt32
  payload : Bytes

namespace Segment

variable (segment : Segment)

def headers : Headers :=
  ⟨endpoint port segment.direction, endpoint port segment.direction.other, segment.seq,
    segment.ack⟩

def frame : Bytes :=
  eth.headers (segment.headers port) segment.payload ++ segment.payload

def message : Message := ⟨segment.direction, segment.payload⟩

end Segment

/-- Each segment starts where the last of its direction ended and acknowledges the other. -/
def Continues : Sequences → List Segment → Sequences → Prop
  | start, [], stop => start = stop
  | start, segment :: segments, stop =>
    segment.seq = start.next segment.direction ∧
      segment.ack = start.next segment.direction.other ∧
      Continues (start.advance segment.direction segment.payload.length) segments stop

/-- The bytes of one direction. -/
def bytesOf (direction : TrafficDirection) (messages : List Message) : Bytes :=
  messages.flatMap fun message => if message.direction = direction then message.bytes else []

/-- The frames hold segments that carry the messages from the start to the stop of both streams. -/
def Carries (start : Sequences) (messages : List Message) (frames : List Bytes)
    (stop : Sequences) : Prop :=
  (∃ segments : List Segment, frames = segments.map (Segment.frame eth port) ∧
    Continues start segments stop ∧
    ∀ direction, bytesOf direction (segments.map Segment.message) = bytesOf direction messages) ∧
  ∀ frame ∈ frames, frame ≠ [] ∧ frame.length ≤ 14 + 65535

section Streams

variable {eth port} {start middle stop : Sequences} {messages messages' : List Message}
  {frames frames' : List Bytes}

theorem Continues.append {segments segments' : List Segment}
    (first : Continues start segments middle) (second : Continues middle segments' stop) :
    Continues start (segments ++ segments') stop := by
  induction segments generalizing start with
  | nil => exact first ▸ second
  | cons segment segments ih => exact ⟨first.1, first.2.1, ih first.2.2⟩

theorem Carries.append (first : Carries eth port start messages frames middle)
    (second : Carries eth port middle messages' frames' stop) :
    Carries eth port start (messages ++ messages') (frames ++ frames') stop := by
  obtain ⟨⟨segments, rfl, continued, bytes⟩, sized⟩ := first
  obtain ⟨⟨segments', rfl, continued', bytes'⟩, sized'⟩ := second
  refine ⟨⟨segments ++ segments', map_append.symm, continued.append continued', ?_⟩, ?_⟩
  · intro direction
    have joined : ∀ left right : List Message,
        bytesOf direction (left ++ right) = bytesOf direction left ++ bytesOf direction right :=
      fun _ _ => flatMap_append
    rw [map_append, joined, joined, bytes, bytes']
  · intro frame listed
    exact (mem_append.mp listed).elim (sized frame) (sized' frame)

end Streams

variable (seqs start : Sequences) (direction : TrafficDirection) (count : Nat) (message : Message)
  (messages : List Message)

theorem advance_add (more : Nat) :
    seqs.advance direction (count + more) =
      (seqs.advance direction count).advance direction more := by
  cases direction <;> simp [Sequences.advance, UInt32.ofNat_add, UInt32.add_assoc]

theorem next_advance :
    (seqs.advance direction count).next direction = seqs.next direction + UInt32.ofNat count := by
  cases direction <;> rfl

theorem next_advance_other :
    (seqs.advance direction count).next direction.other = seqs.next direction.other := by
  cases direction <;> rfl

/-- One segment that fits a frame. -/
theorem carries_chunk {chunk : Bytes} (fits : chunk.length ≤ maxPayload) :
    Carries eth port start [⟨direction, chunk⟩]
      [buildTcpFrame eth ⟨endpoint port direction, endpoint port direction.other,
        start.next direction, start.next direction.other⟩ chunk]
      (start.advance direction chunk.length) := by
  let segment : Segment := ⟨direction, start.next direction, start.next direction.other, chunk⟩
  have built : buildTcpFrame eth (segment.headers port) chunk = segment.frame eth port :=
    if_neg (by simp only [maxPayload] at fits; omega)
  have length : (segment.frame eth port).length = 54 + chunk.length := by
    rw [Segment.frame, length_append, eth.length_headers]
  refine ⟨⟨[segment], congrArg (· :: []) built, ⟨rfl, rfl, rfl⟩, fun _ => rfl⟩, ?_⟩
  intro frame listed
  obtain rfl := (mem_singleton.mp listed).trans built
  rw [← length_pos_iff, length]
  simp only [maxPayload] at fits
  omega

theorem carries_segmentFrom (data : Bytes) {offset : Nat} (inside : offset ≤ data.length) :
    Carries eth port (start.advance direction offset) [⟨direction, data.drop offset⟩]
        (segmentFrom (fun seq => buildTcpFrame eth ⟨endpoint port direction,
          endpoint port direction.other, seq, start.next direction.other⟩)
          (start.next direction) data offset) (start.advance direction data.length) := by
  induction left : data.length - offset using Nat.strongRecOn generalizing offset with
  | ind size ih =>
  rw [segmentFrom]
  split
  · next more =>
    have step : offset < min (offset + maxPayload) data.length := by
      simp only [maxPayload]
      omega
    generalize ended : min (offset + maxPayload) data.length = stop at step ⊢
    have length : ((data.drop offset).take (stop - offset)).length = stop - offset := by
      rw [length_take, length_drop]
      omega
    have first := carries_chunk eth port (start.advance direction offset) direction
      (show ((data.drop offset).take (stop - offset)).length ≤ maxPayload by omega)
    rw [next_advance, next_advance_other, length, ← advance_add,
      show offset + (stop - offset) = stop by omega] at first
    have rest := ih (data.length - stop) (by omega) (by omega) rfl
    obtain ⟨⟨segments, framed, continued, bytes⟩, sized⟩ := first.append rest
    refine ⟨⟨segments, framed, continued, fun direction' => (bytes direction').trans ?_⟩, sized⟩
    have joined : (data.drop offset).take (stop - offset) ++ data.drop stop = data.drop offset := by
      have split := take_append_drop (stop - offset) (data.drop offset)
      rwa [drop_drop, show offset + (stop - offset) = stop by omega] at split
    by_cases own : direction = direction'
    · simp [bytesOf, own, joined]
    · simp [bytesOf, own]
  · next ended =>
    obtain rfl : offset = data.length := by omega
    refine ⟨⟨[], rfl, rfl, fun direction' => ?_⟩, nofun⟩
    simp [bytesOf]

/-! ## Whole captures -/

/-- The frames of a message. -/
def framesOf : List Bytes :=
  segmentPayload eth (endpoint port message.direction) (endpoint port message.direction.other)
    (seqs.next message.direction) (seqs.next message.direction.other) message.bytes

def Sequences.after : Sequences :=
  seqs.advance message.direction message.bytes.length

/-- The frames of the messages, a list for each. -/
def frameGroups : Sequences → List Message → List (List Bytes)
  | _, [] => []
  | seqs, message :: messages =>
    framesOf eth port seqs message :: frameGroups (seqs.after message) messages

/-- The bytes that groups of frames take. -/
def framedBytes (groups : List (List Bytes)) : Nat :=
  (groups.map fun frames => (frames.map length).sum).sum

theorem carries_framesOf :
    Carries eth port start [message] (framesOf eth port start message) (start.after message) := by
  have zero : start.advance message.direction 0 = start := by
    cases message.direction <;> simp [Sequences.advance]
  have segments := carries_segmentFrom eth port start message.direction message.bytes
    (Nat.zero_le _)
  rw [zero, drop_zero] at segments
  unfold framesOf segmentPayload
  dsimp only
  split
  · next none_needed =>
    have empty : message.bytes.length ≤ maxPayload := by
      by_contra long
      rw [segmentFrom, if_pos (by omega)] at none_needed
      nomatch none_needed
    exact carries_chunk eth port start message.direction empty
  · exact segments

theorem carries_frameGroups :
    Carries eth port start messages (frameGroups eth port start messages).flatten
      (messages.foldl .after start) := by
  induction messages generalizing start with
  | nil => exact ⟨⟨[], rfl, rfl, fun _ => rfl⟩, nofun⟩
  | cons message messages ih => exact (carries_framesOf eth port start message).append (ih _)

theorem frameGroups_append (messages' : List Message) :
    frameGroups eth port start (messages ++ messages') = frameGroups eth port start messages ++
        frameGroups eth port (messages.foldl .after start) messages' := by
  induction messages generalizing start with
  | nil => rfl
  | cons message messages ih => rw [cons_append, frameGroups, frameGroups, ih]; rfl

theorem length_frameGroups : (frameGroups eth port start messages).length = messages.length := by
  induction messages generalizing start with
  | nil => rfl
  | cons message messages ih => rw [frameGroups, length_cons, ih, length_cons]

theorem drop_frameGroups : (frameGroups eth port start messages).drop count =
      frameGroups eth port ((messages.take count).foldl .after start) (messages.drop count) := by
  induction messages generalizing start count with
  | nil => cases count <;> rfl
  | cons message messages ih =>
    cases count with
    | zero => rfl
    | succ count => exact ih (start.after message) count

namespace PcapChannelWriter

variable (writer : PcapChannelWriter)

theorem foldl_writeFrame {frames : List Bytes}
    (sized : ∀ frame ∈ frames, frame ≠ [] ∧ frame.length ≤ 14 + 65535) :
    frames.foldl writeFrame writer = { writer with packets := writer.packets ++ frames } := by
  induction frames generalizing writer with
  | nil => simp
  | cons frame frames ih =>
    have short : ¬ frame.length > pcapSnaplen := by
      have := (sized frame mem_cons_self).2
      simp only [pcapSnaplen]
      omega
    rw [foldl_cons, writeFrame, if_neg short, ih _ fun other listed => sized other (.tail _ listed)]
    simp

theorem write_eq : writer.write eth message = { writer with
        toSequences := writer.toSequences.after message
        packets := writer.packets ++
          framesOf eth writer.clientPort writer.toSequences message } := by
  have sized := (carries_framesOf eth writer.clientPort writer.toSequences message).2
  have written := foldl_writeFrame writer sized
  obtain ⟨direction, data⟩ := message
  cases direction with
  | sent =>
    exact congrArg (fun writer => { writer with
      clientSeq := writer.clientSeq + UInt32.ofNat data.length }) written
  | received =>
    exact congrArg (fun writer => { writer with
      serverSeq := writer.serverSeq + UInt32.ofNat data.length }) written

/-- A live capture holds the frames of all messages. -/
theorem foldl_write : (messages.foldl (write eth) writer).packets = writer.packets ++
          (frameGroups eth writer.clientPort writer.toSequences messages).flatten ∧
      (messages.foldl (write eth) writer).refusedFrames = writer.refusedFrames := by
  induction messages generalizing writer with
  | nil => exact ⟨(append_nil _).symm, rfl⟩
  | cons message messages ih =>
    rw [foldl_cons, write_eq]
    obtain ⟨packets, refused⟩ := ih { writer with
      toSequences := writer.toSequences.after message
      packets := writer.packets ++ framesOf eth writer.clientPort writer.toSequences message }
    rw [packets, refused, frameGroups, flatten_cons, append_assoc]
    exact ⟨rfl, rfl⟩

end PcapChannelWriter

namespace TrafficRingBuffer

def groups (entries : List TrafficEntry) : List (List Bytes) :=
  entries.map TrafficEntry.frames

theorem framedBytes_append (front back : List (List Bytes)) :
    framedBytes (front ++ back) = framedBytes front + framedBytes back := by
  simp [framedBytes]

/-- Eviction leaves the longest suffix that fits. -/
theorem evict_spec (maxBytes : Nat) (entries : List TrafficEntry) : ∃ dropped ≤ entries.length,
      evict maxBytes entries (framedBytes (groups entries)) =
          (entries.drop dropped, framedBytes (groups (entries.drop dropped))) ∧
        framedBytes (groups (entries.drop dropped)) ≤ maxBytes ∧
        ∀ earlier < dropped, maxBytes < framedBytes (groups (entries.drop earlier)) := by
  induction entries with
  | nil => exact ⟨0, Nat.le_refl 0, rfl, Nat.zero_le _, nofun⟩
  | cons old entries ih =>
    rw [evict]
    split
    · next full =>
      have left : framedBytes (groups (old :: entries)) - entryBytes old =
          framedBytes (groups entries) := Nat.add_sub_cancel_left _ _
      obtain ⟨dropped, inside, evicted, fits, longer⟩ := ih
      refine ⟨dropped + 1, Nat.succ_le_succ inside, ?_, fits, ?_⟩
      · rw [left, evicted]
        rfl
      · intro earlier before
        cases earlier with
        | zero => exact full
        | succ earlier => exact longer earlier (Nat.lt_of_succ_lt_succ before)
    · next room => exact ⟨0, Nat.zero_le _, rfl, Nat.le_of_not_lt room, nofun⟩

/-- What the ring holds after messages were recorded: the longest suffix that fits. -/
structure Retains (evicted : Nat) (ring : TrafficRingBuffer) : Prop where
  seqs : ring.toSequences = messages.foldl .after .initial
  evicted_le : evicted ≤ messages.length
  held : groups ring.entries = (frameGroups eth port .initial messages).drop evicted
  total : ring.totalBytes = framedBytes (groups ring.entries)
  fits : ring.totalBytes ≤ ring.maxBytes
  longest : ∀ earlier < evicted,
    ring.maxBytes < framedBytes ((frameGroups eth port .initial messages).drop earlier)

theorem record_eq (ring : TrafficRingBuffer) :
    ∃ entry : TrafficEntry, entry.frames = framesOf eth port ring.toSequences message ∧
      ring.record eth port message =
        some ({ ring with toSequences := ring.toSequences.after message }.push entry) := by
  have some_frame : framesOf eth port ring.toSequences message ≠ [] := by
    unfold framesOf segmentPayload
    dsimp only
    split
    · exact cons_ne_nil _ _
    · assumption
  have built : ring.buildSegmentedFrames eth port (message.direction = .sent) message.bytes =
      (framesOf eth port ring.toSequences message,
        { ring with toSequences := ring.toSequences.after message }) := by
    obtain ⟨direction, data⟩ := message
    cases direction <;> rfl
  obtain ⟨pcapFrame, additionalSegments, frames⟩ := exists_cons_of_ne_nil some_frame
  refine ⟨⟨message.direction, pcapFrame, additionalSegments⟩, frames.symm, ?_⟩
  rw [record, built, frames]

variable {eth port messages} in
theorem Retains.record {ring : TrafficRingBuffer} {evicted : Nat}
    (retains : ring.Retains eth port messages evicted) :
    ∃ ring' evicted', ring.record eth port message = some ring' ∧
      ring'.maxBytes = ring.maxBytes ∧ ring'.Retains eth port (messages ++ [message]) evicted' := by
  obtain ⟨entry, framed, recorded⟩ := ring.record_eq eth port message
  have longer : frameGroups eth port .initial (messages ++ [message]) =
      frameGroups eth port .initial messages ++ [entry.frames] := by
    rw [frameGroups_append, framed, retains.seqs]
    rfl
  have count := length_frameGroups eth port .initial messages
  have evicted_le := retains.evicted_le
  have held : groups (ring.entries ++ [entry]) =
      (frameGroups eth port .initial (messages ++ [message])).drop evicted := by
    rw [longer, drop_append_of_le_length (by omega), ← retains.held]
    exact map_append
  have total : ring.totalBytes + entryBytes entry =
      framedBytes (groups (ring.entries ++ [entry])) := by
    rw [groups, map_append, framedBytes_append, retains.total]
    rfl
  have later : ∀ dropped, groups ((ring.entries ++ [entry]).drop dropped) =
      (frameGroups eth port .initial (messages ++ [message])).drop (evicted + dropped) := by
    intro dropped
    rw [groups, map_drop, ← groups, held, drop_drop]
  obtain ⟨dropped, inside, kept, fits, over_cap⟩ :=
    evict_spec ring.maxBytes (ring.entries ++ [entry])
  refine ⟨_, evicted + dropped, recorded, rfl, ?_⟩
  have size : (groups (ring.entries ++ [entry])).length = ring.entries.length + 1 := by
    simp [groups]
  rw [held, length_drop, length_frameGroups, length_append, length_singleton] at size
  rw [length_append, length_singleton] at inside
  unfold push
  rw [total, kept]
  refine ⟨?_, ?_, later dropped, rfl, fits, ?_⟩
  · rw [foldl_append, ← retains.seqs]
    rfl
  · rw [length_append, length_singleton]
    omega
  · intro earlier before
    by_cases old : earlier < evicted
    · have grown : framedBytes ((frameGroups eth port .initial messages).drop earlier) ≤
          framedBytes ((frameGroups eth port .initial (messages ++ [message])).drop earlier) := by
        rw [longer, drop_append_of_le_length (by omega), framedBytes_append]
        exact Nat.le_add_right _ _
      exact Nat.lt_of_lt_of_le (retains.longest earlier old) grown
    · have over_cap := over_cap (earlier - evicted) (by omega)
      rwa [later, Nat.add_sub_cancel' (Nat.le_of_not_lt old)] at over_cap

end TrafficRingBuffer

theorem foldlM_record (maxBytes : Nat) : ∃ ring evicted,
      messages.foldlM (TrafficRingBuffer.record eth port) (.new maxBytes) = some ring ∧
        ring.maxBytes = maxBytes ∧ ring.Retains eth port messages evicted := by
  induction messages using reverseRecOn with
  | nil => exact ⟨_, 0, rfl, rfl, rfl, Nat.le_refl 0, rfl, rfl, Nat.zero_le _, nofun⟩
  | append_singleton messages message ih =>
    obtain ⟨ring, evicted, recorded, cap, retains⟩ := ih
    obtain ⟨ring', evicted', recorded', cap', retains'⟩ := retains.record message
    refine ⟨ring', evicted', ?_, cap'.trans cap, retains'⟩
    rw [foldlM_append, recorded]
    exact (bind_pure _).trans recorded'

/-- Both captures hold gap-free streams: the file of all messages, the ring of the longest run of
the latest ones whose frames fit. -/
theorem traffic_reassembles (eth : Etherparse) (port : UInt16) (messages : List Message) :
    Carries eth port .initial messages
        (messages.foldl (PcapChannelWriter.write eth) (.new port)).packets
        (messages.foldl .after .initial) ∧
      (messages.foldl (PcapChannelWriter.write eth) (.new port)).refusedFrames = 0 ∧
      ∀ maxBytes, ∃ ring evicted,
        messages.foldlM (TrafficRingBuffer.record eth port) (.new maxBytes) = some ring ∧
        ring.maxBytes = maxBytes ∧ ring.Retains eth port messages evicted ∧
        Carries eth port ((messages.take evicted).foldl .after .initial) (messages.drop evicted)
          (ring.entries.flatMap TrafficEntry.frames) (messages.foldl .after .initial) := by
  obtain ⟨packets, refused⟩ := PcapChannelWriter.foldl_write eth messages (.new port)
  refine ⟨?_, refused, fun maxBytes => ?_⟩
  · rw [packets]
    exact carries_frameGroups eth port .initial messages
  · obtain ⟨ring, evicted, recorded, cap, retains⟩ := foldlM_record eth port messages maxBytes
    refine ⟨ring, evicted, recorded, cap, retains, ?_⟩
    have held := retains.held
    rw [drop_frameGroups] at held
    have carried := carries_frameGroups eth port
      ((messages.take evicted).foldl .after .initial) (messages.drop evicted)
    rwa [← held, ← foldl_append, take_append_drop] at carried

/-! ## A capture with its headers -/

/-- The sum of the words that bytes make, the last one filled up with a zero. -/
def wordSum : Bytes → Nat
  | high :: low :: bytes => high.toNat * 256 + low.toNat + wordSum bytes
  | [high] => high.toNat * 256
  | [] => 0

/-- The Internet checksum of bytes that are not all zero. -/
def checksum (bytes : Bytes) : Bytes :=
  toBigEndian 2 (65534 - (wordSum bytes - 1) % 65535)

def addresses (said : Headers) : Bytes :=
  toBigEndian 4 (bigEndian said.source.ip) ++ toBigEndian 4 (bigEndian said.destination.ip)

def ethernetHeader : Bytes := [2, 0, 0, 0, 0, 2, 2, 0, 0, 0, 0, 1, 8, 0]

/-- A header with the time to live of 64 and without fragments. -/
def ipv4Header (said : Headers) (payload : Bytes) : Bytes :=
  let fields := [0x45, 0] ++ toBigEndian 2 (40 + payload.length) ++ [0, 0, 0x40, 0, 64, 6]
  fields ++ checksum (fields ++ addresses said) ++ addresses said

/-- A header that acknowledges, with the largest window. -/
def tcpHeader (said : Headers) (payload : Bytes) : Bytes :=
  let fields := toBigEndian 2 said.source.port.toNat ++ toBigEndian 2 said.destination.port.toNat ++
    toBigEndian 4 said.seq.toNat ++ toBigEndian 4 said.ack.toNat ++ [0x50, 0x10, 255, 255]
  let pseudo := addresses said ++ [0, 6] ++ toBigEndian 2 (20 + payload.length)
  fields ++ checksum (pseudo ++ fields ++ [0, 0, 0, 0] ++ payload) ++ [0, 0]

def plainHeaders : Etherparse where
  headers said payload := ethernetHeader ++ ipv4Header said payload ++ tcpHeader said payload
  length_headers said payload := by
    simp [ethernetHeader, ipv4Header, tcpHeader, checksum, addresses]

theorem length_segmentFrom (build : UInt32 → Bytes → Bytes) (seq : UInt32)
    (data : Bytes) (offset : Nat) :
    (segmentFrom build seq data offset).length =
      (data.length - offset + (maxPayload - 1)) / maxPayload := by
  induction left : data.length - offset using Nat.strongRecOn generalizing offset with
  | ind size ih =>
  rw [segmentFrom]
  split
  · next more =>
    rw [length_cons, ih _ _ _ rfl]
    · simp only [maxPayload]
      omega
    · simp only [maxPayload]
      omega
  · next ended =>
    simp only [length_nil, maxPayload]
    omega

/-- A message takes the fewest segments that hold it, at least one. -/
theorem length_framesOf : (framesOf eth port seqs message).length =
    max 1 ((message.bytes.length + (maxPayload - 1)) / maxPayload) := by
  have count := fun build seq => length_segmentFrom build seq message.bytes 0
  rw [Nat.sub_zero] at count
  unfold framesOf segmentPayload
  dsimp only
  split
  · next none_needed =>
    have none_counted := count _ _ ▸ congrArg length none_needed
    rw [length_singleton, none_counted]
    rfl
  · next some_needed =>
    have one : 1 ≤ _ := length_pos_iff.mpr some_needed
    rw [count] at one ⊢
    exact (Nat.max_eq_right one).symm

/-- A message one byte too long for a segment, and an answer. -/
def longAndShort : List Message :=
  [⟨.sent, replicate (maxPayload + 1) 0⟩, ⟨.received, [1, 2, 3]⟩]

/-- The two messages take three segments. -/
theorem longAndShort_reassembled : ∃ segments : List Segment,
    (longAndShort.foldl (PcapChannelWriter.write plainHeaders) (.new 10001)).packets =
        segments.map (Segment.frame plainHeaders 10001) ∧ segments.length = 3 ∧
      Continues .initial segments ⟨66496, 2003⟩ ∧
      bytesOf .sent (segments.map Segment.message) = replicate (maxPayload + 1) 0 ∧
      bytesOf .received (segments.map Segment.message) = [1, 2, 3] := by
  obtain ⟨⟨⟨segments, packets, continued, bytes⟩, -⟩, -, -⟩ :=
    traffic_reassembles plainHeaders 10001 longAndShort
  have stop : longAndShort.foldl Sequences.after .initial = ⟨66496, 2003⟩ := by
    rw [longAndShort, foldl_cons, Sequences.after, length_replicate]
    rfl
  have count : segments.length = 3 := by
    rw [← length_map (Segment.frame plainHeaders 10001), ← packets,
      (PcapChannelWriter.foldl_write plainHeaders longAndShort (.new 10001)).1]
    simp only [longAndShort, frameGroups, flatten_cons, length_append, length_framesOf,
      length_replicate, flatten_nil, length_nil, maxPayload, length_cons]
    rfl
  rw [stop] at continued
  refine ⟨segments, packets, count, continued, ?_, ?_⟩
  · rw [bytes]
    simp [bytesOf, longAndShort]
  · rw [bytes]
    simp [bytesOf, longAndShort]

end Capture

end Ryll
