import Ryll.Foundation.Outgoing
import Ryll.Foundation.Runs
import Ryll.Webdav.Mux

/-!
# The WebDAV channel

The guest opens HTTP connections by sending frames for new client numbers.  A server task answers
each through a pipe, and a reader task moves the answers to one shared queue, from which the channel
sends them to the guest in frames.
-/

namespace Ryll

open List

/-! ## State -/

def duplexCapacity : Nat := 65536

def readerBufferSize : Nat := 65536

def responseQueueSize : Nat := 256

def maxMuxClients : Nat := 64

/-- A connection of the guest. -/
structure MuxClient where
  bytesReceived : Nat
  /-- Its pipe and its two tasks, numbered in the order in which they were created. -/
  connection : Nat

/-- What a reader puts into the queue; no data says that the connection has ended. -/
structure MuxResponse where
  clientId : Int64
  data : Bytes
  deriving DecidableEq

def MuxResponse.frame (response : MuxResponse) : MuxFrame := ⟨response.clientId, response.data⟩

/-- A command of the application, with whether a server could be created for the directory. -/
inductive WebdavCommand
  | shareDirectory (path : String) (readOnly : Bool) (created : Except String Unit)
  | stopSharing

/-- What the application is told. -/
inductive WebdavNotice
  | sharingStarted (path : String) (readOnly : Bool)
  | sharingStopped
  | error (reason : String)

/-- The channel with its connections. -/
structure WebdavChannel where
  /-- The data messages to the server. -/
  stream : Outgoing Bytes
  /-- A directory is shared. -/
  server : Bool
  clients : AList fun _ : Int64 => MuxClient
  httpRequestsReceived : Nat
  httpResponseBytesSent : Nat
  notices : List WebdavNotice
  spawned : Nat
  /-- The connections whose tasks were aborted (history). -/
  aborted : List Nat

namespace WebdavChannel

def new (room : Option Nat) : WebdavChannel where
  stream := .opened room
  server := false
  clients := ∅
  httpRequestsReceived := 0
  httpResponseBytesSent := 0
  notices := []
  spawned := 0
  aborted := []

variable (channel : WebdavChannel) (clientId : Int64)

def openUnder : Option Nat :=
  (channel.clients.lookup clientId).map MuxClient.connection

/-! ## Frames of the guest -/

def removeClient : WebdavChannel :=
  match channel.clients.lookup clientId with
  | some client => { channel with
      clients := channel.clients.erase clientId
      aborted := client.connection :: channel.aborted }
  | none => channel

def openClient (frame : MuxFrame) (written : Bool) : WebdavChannel :=
  if !channel.server then channel
  else if maxMuxClients ≤ channel.clients.entries.length then channel
  else
    let connection := channel.spawned
    let channel := { channel with spawned := channel.spawned + 1 }
    if written then { channel with
      clients := channel.clients.insert frame.clientId ⟨frame.data.length, connection⟩
      httpRequestsReceived := min (channel.httpRequestsReceived + 1) (2 ^ 64 - 1) }
    else { channel with aborted := connection :: channel.aborted }

/-- A frame opens, feeds or ends a connection. -/
def handleMuxFrame (frame : MuxFrame) (written : Bool) : WebdavChannel :=
  if frame.data = [] then channel.removeClient frame.clientId
  else match channel.clients.lookup frame.clientId with
    | some client =>
      if written then { channel with
        clients := channel.clients.insert frame.clientId
          { client with bytesReceived := client.bytesReceived + frame.data.length } }
      else channel.removeClient frame.clientId
    | none => channel.openClient frame written

/-! ## Responses -/

def sendMuxFrame (data : Bytes) : Outcome String WebdavChannel := do
  let frame ← encodeMuxFrame clientId data
  let stream ← channel.stream.write "stream closed" frame
  return { channel with stream }

def sendMuxClose : Outcome String WebdavChannel :=
  channel.sendMuxFrame clientId []

/-- Send what a reader has queued. -/
def handleResponse (response : MuxResponse) : Outcome String WebdavChannel :=
  if response.data = [] then do
    let channel ← channel.sendMuxClose response.clientId
    return channel.removeClient response.clientId
  else do
    let channel ← channel.sendMuxFrame response.clientId response.data
    return { channel with
      httpResponseBytesSent :=
        min (channel.httpResponseBytesSent + response.data.length) (2 ^ 64 - 1) }

/-! ## Commands -/

def shutdownAllClients : WebdavChannel :=
  { channel with
    clients := ∅
    aborted := channel.clients.entries.map (fun entry => entry.2.connection) ++ channel.aborted }

def handleCommand : WebdavCommand → WebdavChannel
  | .shareDirectory path readOnly (.ok ()) => { channel with
      server := true
      notices := channel.notices ++ [.sharingStarted path readOnly] }
  | .shareDirectory path _ (.error reason) => { channel with
      notices := channel.notices ++ [.error s!"Failed to share {path}: {reason}"] }
  | .stopSharing =>
    let channel := channel.shutdownAllClients
    { channel with server := false, notices := channel.notices ++ [.sharingStopped] }

end WebdavChannel

/-! ## Readers -/

/-- A read of a connection's pipe. -/
inductive PipeRead
  /-- Data, or the end of the pipe if there is none. -/
  | data (bytes : Bytes)
  | failed

def PipeRead.bytes : PipeRead → Bytes
  | .data bytes => bytes
  | .failed => []

/-- What a reader queues for its reads. -/
def readerTask (clientId : Int64) : List PipeRead → List MuxResponse
  | [] => []
  | read :: reads =>
    if read.bytes = [] then [⟨clientId, []⟩]
    else ⟨clientId, read.bytes⟩ :: readerTask clientId reads

def bytesRead : List PipeRead → Bytes
  | [] => []
  | read :: reads => if read.bytes = [] then [] else read.bytes ++ bytesRead reads

def readerEnded (reads : List PipeRead) : Bool := reads.any fun read => read.bytes = []

theorem readerTask_pieces (clientId : Int64) (reads : List PipeRead) :
    ∃ pieces : List Bytes, (∀ piece ∈ pieces, piece ≠ []) ∧
      pieces.flatten = bytesRead reads ∧
      (readerTask clientId reads).map MuxResponse.data =
        pieces ++ if readerEnded reads then [[]] else [] := by
  induction reads with
  | nil => exact ⟨[], nofun, rfl, rfl⟩
  | cons read reads ih =>
    by_cases ends : read.bytes = []
    · exact ⟨[], nofun, by simp [bytesRead, ends], by simp [readerTask, readerEnded, ends]⟩
    · obtain ⟨pieces, nonempty, joined, sent⟩ := ih
      refine ⟨read.bytes :: pieces, forall_mem_cons.mpr ⟨ends, nonempty⟩, ?_, ?_⟩
      · simp [bytesRead, ends, joined]
      · simpa [readerTask, readerEnded, ends] using sent

/-! ## Runs -/

/-- What the channel reacts to. -/
inductive WebdavEvent
  /-- A frame of the guest, and whether the pipe of its connection took its data. -/
  | frame (frame : MuxFrame) (written : Bool)
  | response (response : MuxResponse)
  | command (command : WebdavCommand)

def responsesOf (events : List WebdavEvent) : List MuxResponse :=
  events.filterMap fun
    | .response response => some response
    | _ => none

namespace WebdavChannel

variable (channel : WebdavChannel)

def handle : WebdavEvent → Outcome String WebdavChannel
  | .frame frame written => .ok (channel.handleMuxFrame frame written)
  | .response response => channel.handleResponse response
  | .command command => .ok (channel.handleCommand command)

def handled (event : WebdavEvent) : Option WebdavChannel :=
  (channel.handle event).toOption

/-- Handling the event does not stop the program. -/
def NoPanic (event : WebdavEvent) : Prop :=
  (channel.handle event).Ensures fun _ => True

/-- A response fits a frame. -/
def ResponseFits (_ : WebdavChannel) : WebdavEvent → Prop
  | .response response => response.data.length ≤ maxMuxSize
  | _ => True

instance (channel : WebdavChannel) : ∀ event, Decidable (channel.ResponseFits event)
  | .response _ => inferInstanceAs (Decidable (_ ≤ _))
  | .frame _ _ | .command _ => .isTrue trivial

/-! ### What a run sends -/

variable (clientId : Int64)

theorem removeClient_stream : (channel.removeClient clientId).stream = channel.stream := by
  unfold removeClient
  split <;> rfl

theorem handleMuxFrame_stream (frame : MuxFrame) (written : Bool) :
    (channel.handleMuxFrame frame written).stream = channel.stream := by
  unfold handleMuxFrame openClient
  split
  · exact channel.removeClient_stream frame.clientId
  split
  · split
    · rfl
    · exact channel.removeClient_stream frame.clientId
  · split_ifs <;> rfl

theorem handleCommand_stream (command : WebdavCommand) :
    (channel.handleCommand command).stream = channel.stream := by
  unfold handleCommand
  split <;> rfl

theorem sendMuxFrame_ensures {data : Bytes}
    (fits : data.length ≤ maxMuxSize) : (channel.sendMuxFrame clientId data).Ensures fun channel' =>
      channel'.stream.sent = channel.stream.sent ++ [MuxFrame.bytes ⟨clientId, data⟩] := by
  unfold sendMuxFrame encodeMuxFrame
  rw [if_pos fits, ok_bind]
  exact (Outgoing.write_ensures _ _ _).bind fun stream sent => sent

variable {response : MuxResponse}

theorem handleResponse_ensures (fits : response.data.length ≤ maxMuxSize) :
    (channel.handleResponse response).Ensures fun channel' =>
      channel'.stream.sent = channel.stream.sent ++ [response.frame.bytes] := by
  unfold handleResponse
  split
  case isTrue ends =>
      rw [MuxResponse.frame, ends]
      refine (channel.sendMuxFrame_ensures response.clientId (Nat.zero_le _)).bind ?_
      intro channel' sent
      rw [pure_eq, ensures_ok, removeClient_stream]
      exact sent
  case isFalse =>
      exact (channel.sendMuxFrame_ensures response.clientId fits).bind fun channel' sent => sent

theorem handleResponse_fault (large : maxMuxSize < response.data.length) :
    channel.handleResponse response = .fault .assertion := by
  have nonempty : response.data ≠ [] := ne_nil_of_length_pos (Nat.zero_lt_of_lt large)
  unfold handleResponse sendMuxFrame encodeMuxFrame
  rw [if_neg nonempty, if_neg (Nat.not_le.mpr large)]
  rfl

theorem noPanic_iff_responseFits (event : WebdavEvent) :
    channel.NoPanic event ↔ channel.ResponseFits event := by
  cases event with
  | frame | command => exact Iff.rfl
  | response response =>
    constructor
    · intro safe
      by_contra large
      rw [NoPanic, handle, channel.handleResponse_fault (Nat.not_le.mp large)] at safe
      exact safe
    · intro fits
      exact (channel.handleResponse_ensures fits).mono fun _ _ => trivial

theorem handled_sent {channel channel' : WebdavChannel} {event : WebdavEvent}
    (handled : channel.handled event = some channel') :
    (∀ response ∈ responsesOf [event], response.frame.Fits) ∧ channel'.stream.sent =
        channel.stream.sent ++ (responsesOf [event]).map fun response => response.frame.bytes := by
  have returned := toOption_eq_some.mp handled
  cases event with
  | frame frame written =>
    cases returned
    refine ⟨nofun, ?_⟩
    rw [handleMuxFrame_stream]
    exact (append_nil _).symm
  | command command =>
    cases returned
    refine ⟨nofun, ?_⟩
    rw [handleCommand_stream]
    exact (append_nil _).symm
  | response response =>
    have fits : response.data.length ≤ maxMuxSize := by
      by_contra large
      rw [handle, channel.handleResponse_fault (Nat.not_le.mp large)] at returned
      nomatch returned
    refine ⟨?_, (channel.handleResponse_ensures fits).of_eq_ok returned⟩
    rintro other listed
    obtain rfl : other = response := mem_singleton.mp listed
    exact fits

theorem run_sent {channel final : WebdavChannel} {events : List WebdavEvent}
    (reached : run handled channel events = some final) :
    (∀ response ∈ responsesOf events, response.frame.Fits) ∧ final.stream.sent =
        channel.stream.sent ++ (responsesOf events).map fun response => response.frame.bytes := by
  induction events generalizing channel with
  | nil =>
    cases reached
    exact ⟨nofun, (append_nil _).symm⟩
  | cons event events ih =>
    obtain ⟨channel', stepped, rest⟩ := run_cons.mp reached
    obtain ⟨fit, sent⟩ := handled_sent stepped
    obtain ⟨fit', sent'⟩ := ih rest
    rw [show responsesOf (event :: events) = responsesOf [event] ++ responsesOf events
      from filterMap_append (l := [event])]
    refine ⟨forall_mem_append.mpr ⟨fit, fit'⟩, ?_⟩
    rw [sent', sent, map_append, append_assoc]

def demuxed (sent : List Bytes) : List Bytes :=
  ((MuxDemuxer.new.feed sent.flatten).frames.1.filter (·.clientId = clientId)).map MuxFrame.data

theorem demuxed_responses {responses : List MuxResponse}
    (fit : ∀ response ∈ responses, response.frame.Fits) :
    demuxed clientId (responses.map fun response => response.frame.bytes) =
      (responses.filter (·.clientId = clientId)).map MuxResponse.data := by
  have joined : (responses.map fun response => response.frame.bytes).flatten =
      (responses.map MuxResponse.frame).flatMap MuxFrame.bytes := by
    simp [flatMap_def, Function.comp_def]
  have fits : ∀ frame ∈ responses.map MuxResponse.frame, frame.Fits := by
    simpa using fit
  rw [demuxed, joined, MuxDemuxer.frames_flatMap fits, filter_map, map_map]
  rfl

/-- Handling responses does not stop the program exactly if each fits a frame, and then the guest
gets the bytes of each reader, in order, and one empty frame at its end. -/
theorem responses_framed {channel : WebdavChannel} {events : List WebdavEvent} {clientId : Int64}
    {reads : List PipeRead}
    (queued : (responsesOf events).filter (·.clientId = clientId) = readerTask clientId reads) :
    (Meets handled NoPanic channel events ↔ Meets handled ResponseFits channel events) ∧
      ∀ final, run handled channel events = some final →
        ∃ sent pieces, final.stream.sent = channel.stream.sent ++ sent ∧
          (∀ piece ∈ pieces, piece ≠ []) ∧ pieces.flatten = bytesRead reads ∧
          demuxed clientId sent = pieces ++ if readerEnded reads then [[]] else [] := by
  have same : NoPanic = ResponseFits := by
    funext channel event
    exact propext (channel.noPanic_iff_responseFits event)
  refine ⟨by rw [same], ?_⟩
  intro final reached
  obtain ⟨fit, sent⟩ := run_sent reached
  obtain ⟨pieces, nonempty, joined, split⟩ := readerTask_pieces clientId reads
  refine ⟨_, pieces, sent, nonempty, joined, ?_⟩
  rw [demuxed_responses clientId fit, queued, split]

def answeredRun : List WebdavEvent :=
  [.command (.shareDirectory "/srv" true (.ok ())), .frame ⟨5, [71]⟩ true, .frame ⟨7, [71]⟩ true,
    .response ⟨5, [1, 2]⟩, .response ⟨7, [9]⟩, .response ⟨5, [3]⟩, .response ⟨5, []⟩]

theorem answeredRun_framed : Meets handled NoPanic (new none) answeredRun ∧
      ∃ final, run handled (new none) answeredRun = some final ∧
        ∃ sent pieces, final.stream.sent = (new none).stream.sent ++ sent ∧
          (∀ piece ∈ pieces, piece ≠ []) ∧ pieces.flatten = [1, 2, 3] ∧
          demuxed 5 sent = pieces ++ [[]] := by
  have queued : (responsesOf answeredRun).filter (·.clientId = 5) =
      readerTask 5 [.data [1, 2], .data [3], .data []] := by decide
  have fits : Meets handled ResponseFits (new none) answeredRun := by decide +kernel
  have defined : (run handled (new none) answeredRun).isSome := by decide +kernel
  obtain ⟨final, reached⟩ := Option.isSome_iff_exists.mp defined
  obtain ⟨safe, framed⟩ := responses_framed queued
  exact ⟨safe.mpr fits, final, reached, framed final reached⟩

def openedRun : List WebdavEvent :=
  [.command (.shareDirectory "/srv" true (.ok ())), .frame ⟨1, [71]⟩ true]

/-- A reader whose buffer is filled by one read stops the program. -/
theorem full_read_stops_program : ∃ reads : List PipeRead,
      (∀ read ∈ reads, 0 < read.bytes.length ∧ read.bytes.length ≤ duplexCapacity ∧
        read.bytes.length ≤ readerBufferSize) ∧
        ¬ Meets handled NoPanic (new none) (openedRun ++ (readerTask 1 reads).map .response) := by
  obtain ⟨bytes, full⟩ : ∃ bytes : Bytes, bytes.length = readerBufferSize :=
    ⟨List.replicate readerBufferSize 0, length_replicate⟩
  refine ⟨[.data bytes], ?_, ?_⟩
  · rintro read listed
    obtain rfl := mem_singleton.mp listed
    rw [PipeRead.bytes, full]
    exact ⟨by decide, Nat.le_refl _, Nat.le_refl _⟩
  · intro safe
    have defined : (run handled (new none) openedRun).isSome := by decide +kernel
    obtain ⟨channel, reached⟩ := Option.isSome_iff_exists.mp defined
    replace safe := safe.right reached
    have nonempty : PipeRead.bytes (.data bytes) ≠ [] :=
      ne_nil_of_length_pos (by rw [PipeRead.bytes, full]; decide)
    rw [readerTask, if_neg nonempty] at safe
    have fits := (noPanic_iff_responseFits _ _).mp safe.1
    rw [ResponseFits, PipeRead.bytes, full] at fits
    exact absurd fits (by decide)

end WebdavChannel

end Ryll
