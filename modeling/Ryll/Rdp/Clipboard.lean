import Ryll.Channels.MainChannel
import Ryll.Foundation.Runs

/-!
# Guest copies offered to an RDP client

Text that the client copies is fetched and stored for the guest; text that the guest copies is
offered to the client, unless the client's clipboard already holds it.  That is remembered as a
hash, which is not kept up when text that the client copied could not be taken.
-/

namespace Ryll

def maxClientTextBytes : Nat := 100 * 1024 * 1024

/-- How the client answers a request for its text. -/
structure FormatDataResponse where
  isError : Bool
  dataLength : Nat
  /-- Its data is UTF-16. -/
  decodes : Bool

/-- Why text of the client is not taken. -/
inductive ClientTextError
  | utf16TooLong (utf16Bytes : Nat)
  | tooLong (bytes : Nat)
  | undecodable

def clientText (holds : List Char) (response : FormatDataResponse) (limit : Nat) :
    Outcome ClientTextError (List Char) :=
  if limit < response.dataLength / 4 then
    .error (.utf16TooLong response.dataLength)
  else if response.decodes then
    let text := replaceCrLf holds
    let bytes := (utf8Bytes text).length
    if limit < bytes then .error (.tooLong bytes) else .ok text
  else
    .error .undecodable

def storedText (holds : List Char) (response : FormatDataResponse) : Option (List Char) :=
  if response.isError then
    none
  else
    match clientText holds response maxClientTextBytes with
    | .ok text => some text
    | _ => none

/-- What the client's clipboard holds (history). -/
inductive ClientContents
  | other
  | own (text : List Char) (stored : Bool)
  | offered (text : List Char)

def ClientContents.text : ClientContents → Option (List Char)
  | other => none
  | own text _ | offered text => some text

/-- The state of the channel. -/
inductive ClipboardChannel
  | starting
  | ready
  | idle
  deriving DecidableEq

/-- A run of the task that offers (history). -/
structure TaskRun where
  text : Option (List Char)
  contents : ClientContents
  offered : Bool

/-- The clipboard of a session. -/
structure SessionClipboard (η : Type) where
  channel : ClipboardChannel
  clientText : Option η
  offering : Bool
  /-- A guest copy the task has not seen. -/
  changed : Bool
  text : Option (List Char)
  contents : ClientContents
  runs : List TaskRun

/-- What the client copies. -/
inductive ClientCopy
  | other
  | text (holds : List Char) (response : FormatDataResponse)

/-- What can happen. -/
inductive ClipboardStep
  /-- The channel becomes ready, with a clipboard and a sender or without. -/
  | onReady (served : Bool)
  | clientCopy (copy : ClientCopy)
  | guestCopy (text : List Char)
  /-- The guest-copy task runs, and its message is taken as long as the server is there. -/
  | offerGuestCopies (sent : Bool)

namespace SessionClipboard

variable {η : Type} (hash : List Char → η)

def hashText (text : List Char) : η := hash (normalizeClipboard text)

def new : SessionClipboard η := ⟨.starting, none, false, false, none, .other, []⟩

def onReady (clipboard : SessionClipboard η) (served : Bool) : SessionClipboard η :=
  match clipboard.channel with
  | .starting =>
    if served then
      { clipboard with channel := .ready, offering := true, changed := false }
    else
      { clipboard with channel := .idle }
  | _ => clipboard

def onRemoteCopy (clipboard : SessionClipboard η) (copy : ClientCopy) : SessionClipboard η :=
  match copy with
  | .other =>
    let clipboard := { clipboard with contents := .other }
    if clipboard.channel = .ready then { clipboard with clientText := none } else clipboard
  | .text holds response =>
    let clipboard := { clipboard with contents := .own holds false }
    if clipboard.channel = .ready then
      match storedText holds response with
      | some text =>
        { clipboard with
          clientText := some (hashText hash text)
          text := some text
          contents := .own holds true }
      | none => clipboard
    else
      clipboard

def guestCopy (clipboard : SessionClipboard η) (text : List Char) : SessionClipboard η :=
  { clipboard with text := some text, changed := true }

def offerGuestCopies [DecidableEq η] (clipboard : SessionClipboard η) (sent : Bool) :
    SessionClipboard η :=
  let clipboard := { clipboard with changed := false }
  let hashed := clipboard.text.map (hashText hash)
  if hashed.isSome ∧ clipboard.clientText = hashed then
    { clipboard with runs := clipboard.runs ++ [⟨clipboard.text, clipboard.contents, false⟩] }
  else if sent then
    { clipboard with
      clientText := hashed
      contents := (clipboard.text.map .offered).getD .other
      runs := clipboard.runs ++ [⟨clipboard.text, clipboard.contents, true⟩] }
  else
    { clipboard with offering := false }

def step [DecidableEq η] (clipboard : SessionClipboard η) :
    ClipboardStep → Option (SessionClipboard η)
  | .onReady served => some (clipboard.onReady served)
  | .clientCopy copy => some (clipboard.onRemoteCopy hash copy)
  | .guestCopy text => some (clipboard.guestCopy text)
  | .offerGuestCopies sent =>
    if clipboard.offering ∧ clipboard.changed then
      some (clipboard.offerGuestCopies hash sent)
    else
      none

/-! ## The hash stands for what the client holds -/

/-- Text that a client copies is stored with its normal form, or while nothing is remembered. -/
def Remembered (clipboard : SessionClipboard η) : ClipboardStep → Prop
  | .clientCopy (.text holds response) =>
    clipboard.channel = .ready →
    match storedText holds response with
    | some text => normalizeClipboard text = normalizeClipboard holds
    | none => clipboard.clientText = none
  | _ => True

/-- The hash tells normal forms apart. -/
def Separates : Prop :=
  ∀ first second, hashText hash first = hashText hash second →
    normalizeClipboard first = normalizeClipboard second

/-- The hash of the text that the client's clipboard is known to hold. -/
def known : ClientContents → Option η
  | .other => none
  | .own text stored => if stored then some (hashText hash text) else none
  | .offered text => some (hashText hash text)

/-- A run withheld the text only if the client held it, and offered none that the client stored. -/
structure Right (run : TaskRun) : Prop where
  withheld : run.offered = false → ∃ text held, run.text = some text ∧
    run.contents.text = some held ∧ normalizeClipboard held = normalizeClipboard text
  offered : run.offered = true → ∀ text held, run.text = some text →
    run.contents = .own held true → normalizeClipboard held ≠ normalizeClipboard text

/-- What holds in every state in which the hash was kept up. -/
structure Sound (clipboard : SessionClipboard η) : Prop where
  remembers : clipboard.clientText = known hash clipboard.contents
  unready : clipboard.channel ≠ .ready → clipboard.clientText = none ∧ clipboard.offering = false
  right : ∀ run ∈ clipboard.runs, Right run

variable {hash} {clipboard next : SessionClipboard η}

theorem new_sound : Sound hash (new : SessionClipboard η) where
  remembers := rfl
  unready := fun _ => ⟨rfl, rfl⟩
  right := nofun

theorem Sound.onReady (sound : Sound hash clipboard) (served : Bool) :
    Sound hash (clipboard.onReady served) := by
  unfold SessionClipboard.onReady
  split
  · next starting =>
    split
    · exact { sound with unready := fun other => absurd rfl other }
    · exact { sound with unready := fun _ => sound.unready (by simp [starting]) }
  · exact sound

theorem held_of_known {contents : ClientContents} {value : η}
    (same : known hash contents = some value) :
    ∃ held, contents.text = some held ∧ hashText hash held = value := by
  cases contents with
  | other => cases same
  | own text stored =>
    cases stored with
    | false => cases same
    | true => exact ⟨text, rfl, Option.some.inj same⟩
  | offered text => exact ⟨text, rfl, Option.some.inj same⟩

theorem Sound.offerGuestCopies [DecidableEq η] (sound : Sound hash clipboard)
    (separates : Separates hash) (offering : clipboard.offering) (sent : Bool) :
    Sound hash (clipboard.offerGuestCopies hash sent) := by
  have ready : clipboard.channel = .ready := by
    by_contra unready
    rw [(sound.unready unready).2] at offering
    cases offering
  simp only [SessionClipboard.offerGuestCopies]
  split
  · next equal =>
    obtain ⟨text, present⟩ : ∃ text, clipboard.text = some text := by
      simpa [Option.isSome_iff_exists] using equal.1
    have same : known hash clipboard.contents = some (hashText hash text) := by
      rw [← sound.remembers, equal.2, present]
      rfl
    obtain ⟨held, on, hashed⟩ := held_of_known same
    refine ⟨sound.remembers, fun other => absurd ready other,
      List.forall_mem_append.mpr ⟨sound.right, List.forall_mem_singleton.mpr ⟨fun _ => ?_, nofun⟩⟩⟩
    exact ⟨text, held, present, on, separates held text hashed⟩
  · next differs =>
    split
    · refine ⟨?_, fun other => absurd ready other,
        List.forall_mem_append.mpr ⟨sound.right, List.forall_mem_singleton.mpr ⟨nofun, ?_⟩⟩⟩
      · cases clipboard.text <;> rfl
      · intro _ text held present on equal
        dsimp only at present on
        have same := sound.remembers
        rw [on] at same
        refine differs ⟨by simp [present], ?_⟩
        simp [same, known, present, hashText, equal]
    · exact { sound with unready := fun other => absurd ready other }

theorem Sound.step [DecidableEq η] (sound : Sound hash clipboard) (separates : Separates hash)
    (action : ClipboardStep) (remembered : clipboard.Remembered action)
    (stepped : clipboard.step hash action = some next) : Sound hash next := by
  cases action with
  | onReady served =>
    cases stepped
    exact sound.onReady served
  | clientCopy copy =>
    cases stepped
    cases copy with
    | other =>
      simp only [SessionClipboard.onRemoteCopy]
      split
      · next ready =>
        exact ⟨rfl, fun other => absurd ready other, sound.right⟩
      · next unready =>
        exact ⟨(sound.unready unready).1, fun _ => sound.unready unready, sound.right⟩
    | text holds response =>
      simp only [SessionClipboard.onRemoteCopy]
      split
      · next ready =>
        have kept := remembered ready
        split
        · next text stored =>
          simp only [stored] at kept
          refine ⟨?_, fun other => absurd ready other, sound.right⟩
          simp [known, hashText, kept]
        · next missed =>
          simp only [missed] at kept
          exact ⟨kept, fun other => absurd ready other, sound.right⟩
      · next unready =>
        exact ⟨(sound.unready unready).1, fun _ => sound.unready unready, sound.right⟩
  | guestCopy text =>
    cases stepped
    exact { sound with }
  | offerGuestCopies sent =>
    obtain ⟨due, ⟨⟩⟩ := Option.ite_none_right_eq_some.mp stepped
    exact sound.offerGuestCopies separates due.1 sent

/-- As long as the hash is kept up, a guest copy is withheld only if the client holds the same text,
and text of the client is not offered back while it holds it. -/
theorem copies_offered [DecidableEq η] (hash : List Char → η) (separates : Separates hash)
    (actions : List ClipboardStep) (final : SessionClipboard η)
    (meets : Meets (step hash) Remembered new actions)
    (reached : run (step hash) new actions = some final) :
    (∀ run ∈ final.runs, run.offered = false → ∃ text held, run.text = some text ∧
      run.contents.text = some held ∧ normalizeClipboard held = normalizeClipboard text) ∧
    ∀ run ∈ final.runs, run.offered = true → ∀ text held, run.text = some text →
      run.contents = .own held true → normalizeClipboard held ≠ normalizeClipboard text := by
  have sound : Sound hash final :=
    run_invariant (fun _ action _ sound remembered stepped =>
      sound.step separates action remembered stepped) new_sound meets reached
  exact ⟨fun run listed => (sound.right run listed).withheld,
    fun run listed => (sound.right run listed).offered⟩

def copiedBack (second : ClientCopy) : List ClipboardStep :=
  [.onReady true, .clientCopy (.text ['x'] ⟨false, 4, true⟩), .clientCopy second,
    .guestCopy ['x'], .offerGuestCopies true]

/-- Text is offered back after the client copied something else, and then withheld. -/
def copiedTwice : List ClipboardStep :=
  copiedBack .other ++ [.guestCopy ['x'], .offerGuestCopies true]

theorem copied_back_offered : ∃ final, run (step id) new copiedTwice = some final ∧
      final.runs = [⟨some ['x'], .other, true⟩, ⟨some ['x'], .offered ['x'], false⟩] ∧
      ∀ run ∈ final.runs, run.offered = false → ∃ text held, run.text = some text ∧
        run.contents.text = some held ∧ normalizeClipboard held = normalizeClipboard text := by
  have remembered : Meets (step id) Remembered new copiedTwice :=
    .cons trivial rfl (.cons (fun _ => rfl) rfl (.cons trivial rfl (.cons trivial rfl
      (.cons trivial rfl (.cons trivial rfl (.cons trivial rfl trivial))))))
  exact ⟨_, rfl, rfl, (copies_offered id (fun _ _ same => same) copiedTwice _ remembered rfl).1⟩

/-- The client copies a text that it cannot supply: a guest copy of the text before is withheld from
it. -/
theorem unfetched_copy_withholds :
    ∃ final, run (step id) new (copiedBack (.text ['y'] ⟨true, 0, true⟩)) = some final ∧
      final.runs = [⟨some ['x'], .own ['y'] false, false⟩] ∧
      normalizeClipboard ['y'] ≠ normalizeClipboard ['x'] :=
  ⟨_, rfl, rfl, by decide⟩

end SessionClipboard

end Ryll
