import Mathlib

/-!
# Asking for the client mouse mode

The main channel asks for absolute positioning when a message offers it.  A request is outstanding
until the server reports client mode, so a server that declines is not asked again.
-/

namespace Ryll

open List

def mouseModeClient : UInt32 := 2

def shouldRequestClientMouseMode (supported current : UInt32) : Bool :=
  supported &&& mouseModeClient ≠ 0 && current ≠ mouseModeClient

/-- A message that tells of mouse modes. -/
inductive MouseModeMessage
  | init (supportedMouseModes currentMouseMode : UInt32)
  | mouseMode (supportedModes currentMode : UInt16)
  deriving DecidableEq

namespace MouseModeMessage

/-- It offers client mode, which is not current. -/
def offersClient : MouseModeMessage → Bool
  | init supported current => shouldRequestClientMouseMode supported current
  | mouseMode supported current => shouldRequestClientMouseMode supported.toUInt32 current.toUInt32

/-- It is a MOUSE_MODE, and client mode is current. -/
def reportsClient : MouseModeMessage → Bool
  | init _ _ => false
  | mouseMode _ current => current.toUInt32 = mouseModeClient

end MouseModeMessage

/-- Whether a request is outstanding. -/
structure MouseModeState where
  mouseModeRequestPending : Bool

namespace MouseModeState

def opened : MouseModeState := ⟨false⟩

/-- The flag says whether a MOUSE_MODE_REQUEST is sent. -/
def maybeRequestClientMouseMode (state : MouseModeState) (supported current : UInt32) :
    Bool × MouseModeState :=
  if !shouldRequestClientMouseMode supported current then (false, state)
  else if state.mouseModeRequestPending then (false, state)
  else (true, { state with mouseModeRequestPending := true })

def handleMessage (state : MouseModeState) : MouseModeMessage → Bool × MouseModeState
  | .init supported current => state.maybeRequestClientMouseMode supported current
  | .mouseMode supported current =>
    let state := if current.toUInt32 = mouseModeClient then
        { state with mouseModeRequestPending := false }
      else
        state
    state.maybeRequestClientMouseMode supported.toUInt32 current.toUInt32

variable (messages : List MouseModeMessage)

def after : MouseModeState :=
  messages.foldl (fun state message => (state.handleMessage message).2) opened

/-- Whether a message that arrives after others causes a request. -/
def requests (before : List MouseModeMessage) (message : MouseModeMessage) : Bool :=
  ((after before).handleMessage message).1

variable (state : MouseModeState) (message : MouseModeMessage)

theorem maybeRequest_eq (supported current : UInt32) :
    state.maybeRequestClientMouseMode supported current =
      (shouldRequestClientMouseMode supported current && !state.mouseModeRequestPending,
        ⟨shouldRequestClientMouseMode supported current || state.mouseModeRequestPending⟩) := by
  obtain ⟨pending⟩ := state
  rw [maybeRequestClientMouseMode]
  cases shouldRequestClientMouseMode supported current <;> cases pending <;> rfl

open MouseModeMessage

theorem handleMessage_eq : state.handleMessage message =
    (message.offersClient && !state.mouseModeRequestPending,
      ⟨message.offersClient || state.mouseModeRequestPending && !message.reportsClient⟩) := by
  cases message with
  | init supported current => simp [handleMessage, maybeRequest_eq, offersClient,
      reportsClient]
  | mouseMode supported current =>
    simp only [handleMessage, maybeRequest_eq, offersClient,
      reportsClient]
    by_cases client : current.toUInt32 = mouseModeClient <;>
      simp [client, shouldRequestClientMouseMode]

/-- A request was caused, and no client mode was reported since. -/
def Unanswered : Prop :=
  ∃ front request back, messages = front ++ request :: back ∧ requests front request = true ∧
    ∀ answer ∈ back, answer.reportsClient = false

theorem pending_iff : (after messages).mouseModeRequestPending = true ↔ Unanswered messages := by
  induction messages using List.reverseRecOn with
  | nil => simp [after, opened, Unanswered]
  | append_singleton messages message ih =>
    have step : (after (messages ++ [message])).mouseModeRequestPending =
        (message.offersClient || (after messages).mouseModeRequestPending &&
          !message.reportsClient) := by
      rw [after, foldl_append, ← after, foldl_cons, foldl_nil, handleMessage_eq]
    have fresh : message.offersClient = true → message.reportsClient = false := by
      cases message <;> simp [offersClient, reportsClient,
        shouldRequestClientMouseMode]
    rw [step, Bool.or_eq_true, Bool.and_eq_true, Bool.not_eq_true', ih]
    constructor
    · intro pending
      by_cases before : Unanswered messages
      · obtain ⟨front, request, back, rfl, caused, silent⟩ := before
        refine ⟨front, request, back ++ [message], by simp, caused, fun answer listed => ?_⟩
        rcases mem_append.mp listed with earlier | last
        · exact silent answer earlier
        · rw [mem_singleton.mp last]
          exact pending.elim fresh And.right
      · have offers := pending.resolve_right fun both => before both.1
        refine ⟨messages, message, [], rfl, ?_, nofun⟩
        rw [requests, handleMessage_eq, offers, Bool.eq_false_iff.mpr (mt ih.mp before)]
        rfl
    · rintro ⟨front, request, back, split, caused, silent⟩
      rcases eq_nil_or_concat' back with rfl | ⟨back, last, rfl⟩
      · obtain ⟨rfl, ⟨⟩⟩ := append_inj' split rfl
        rw [requests, handleMessage_eq, Bool.and_eq_true] at caused
        exact .inl caused.1
      · rw [← cons_append, ← append_assoc] at split
        obtain ⟨rfl, ⟨⟩⟩ := append_inj' split rfl
        refine .inr ⟨⟨front, request, back, rfl, caused, fun answer listed => ?_⟩, ?_⟩
        · exact silent answer (mem_append_left _ listed)
        · exact silent message (mem_append_right _ (mem_singleton.mpr rfl))

/-- A message causes a request exactly when it offers client mode while that is not current, and
every earlier request was granted. -/
theorem requests_iff (before : List MouseModeMessage) (message : MouseModeMessage) :
    requests before message = true ↔ message.offersClient = true ∧
      ∀ front request back, before = front ++ request :: back → requests front request = true →
        ∃ answer ∈ back, answer.reportsClient = true := by
  rw [requests, handleMessage_eq, Bool.and_eq_true, Bool.not_eq_true', Bool.eq_false_iff, ne_eq,
    pending_iff, Unanswered]
  simp

/-- A server that declines client mode and offers it again is not asked again. -/
theorem declined_not_repeated : requests [] (.init 3 1) = true ∧
    (mouseMode 3 1).offersClient = true ∧
    requests [.init 3 1, .mouseMode 3 1] (.mouseMode 3 1) = false := by
  decide

end MouseModeState

end Ryll
