import Ryll.Foundation.Buffer
import Ryll.Foundation.Characters
import Ryll.Foundation.Delimited

/-!
# The CONNECT exchange with an HTTP proxy

The client asks a proxy for a tunnel and reads the response one byte at a time up to the blank line
that ends its headers.  What follows belongs to the protocol that runs through the tunnel.
-/

namespace Ryll

open List

def maxConnectResponseBytes : Nat := 16 * 1024

def maxQuotedStatusLine : Nat := 256

def userAgent : List Char := "shakenfist-spice-protocol/0.3.0".toList

/-- Why there is no tunnel. -/
inductive ConnectError
  | io
  | invalidTarget
  | closedBeforeHeaders (received : Nat)
  | headersTooLarge (limit : Nat)
  | malformedStatusLine (statusLine : List Char)
  | unauthorized (statusLine : List Char)
  | proxyAuthenticationRequired (statusLine : List Char)
  | refused (status : Nat) (statusLine : List Char)
  deriving DecidableEq

/-! ## The request -/

def authority (isIpv6 : List Char → Bool) (host : List Char) (port : UInt16) : List Char :=
  if isIpv6 host then
    '[' :: host ++ "]:".toList ++ Nat.toDigits 10 port.toNat
  else
    host ++ ':' :: Nat.toDigits 10 port.toNat

def connectRequest (target : List Char) : List Char :=
  "CONNECT ".toList ++ target ++ " HTTP/1.0\r\n".toList ++
  "Host: ".toList ++ target ++ "\r\n".toList ++
  "Proxy-Connection: keep-alive\r\n".toList ++
  "User-Agent: ".toList ++ userAgent ++ "\r\n".toList ++
  "\r\n".toList

def writeConnectRequest (isIpv6 : List Char → Bool) (fails : Option Nat) (targetHost : List Char)
    (targetPort : UInt16) : Outcome ConnectError Unit × Bytes :=
  if targetHost.isEmpty || targetHost.any fun c => isWhitespace c || isControl c then
    (.error .invalidTarget, [])
  else
    let request := utf8Bytes (connectRequest (authority isIpv6 targetHost targetPort))
    match fails with
    | none => (.ok (), request)
    | some taken => (.error .io, request.take taken)

/-! ## The response -/

/-- How a stream ends. -/
inductive StreamEnding
  | closed
  | failed

/-- The bytes a proxy sends, in the pieces in which they arrive. -/
structure ProxyStream where
  chunks : List Bytes
  ending : StreamEnding

namespace ProxyStream

def bytes (stream : ProxyStream) : Bytes := stream.chunks.flatten

def nextByte : List Bytes → Option (UInt8 × List Bytes)
  | [] => none
  | [] :: chunks => nextByte chunks
  | (byte :: chunk) :: chunks => some (byte, chunk :: chunks)

def read (stream : ProxyStream) : Outcome ConnectError (Option UInt8) × ProxyStream :=
  match nextByte stream.chunks, stream.ending with
  | some (byte, chunks), _ => (.ok (some byte), { stream with chunks })
  | none, .closed => (.ok none, stream)
  | none, .failed => (.error .io, stream)

end ProxyStream

def crlf : Bytes := [13, 10]

def blankLine : Bytes := [13, 10, 13, 10]

def readHeaders : Nat → ProxyStream → Bytes → Outcome ConnectError Bytes × ProxyStream
  | 0, stream, _ => (.fault .diverged, stream)
  | rounds + 1, stream, block =>
    match stream.read with
    | (.ok (some byte), stream) =>
      let block := block ++ [byte]
      if blankLine.isSuffixOf block then
        (.ok block, stream)
      else if maxConnectResponseBytes ≤ block.length then
        (.error (.headersTooLarge maxConnectResponseBytes), stream)
      else
        readHeaders rounds stream block
    | (.ok none, stream) => (.error (.closedBeforeHeaders block.length), stream)
    | (.error reason, stream) => (.error reason, stream)
    | (.fault cause, stream) => (.fault cause, stream)

def isAsciiDigit (byte : UInt8) : Bool := 48 ≤ byte && byte ≤ 57

def stripFront (front text : Bytes) : Option Bytes :=
  if front.isPrefixOf text then some (text.drop front.length) else none

def http10 : Bytes := [72, 84, 84, 80, 47, 49, 46, 48]

def http11 : Bytes := [72, 84, 84, 80, 47, 49, 46, 49]

def statusDigits (digits : Bytes) : Option Nat :=
  if digits.length < 3 then
    none
  else
    let code := digits.take 3
    let after := digits.drop 3
    if code.all isAsciiDigit && (after.isEmpty || [32].isPrefixOf after) then
      some (code.foldl (fun value byte => value * 10 + (byte.toNat - 48)) 0)
    else
      none

def parseStatusCode (line : Bytes) : Option Nat := do
  let rest ← (stripFront http10 line).or (stripFront http11 line)
  let digits ← stripFront [32] rest
  statusDigits (digits.drop (digits.takeWhile (· == 32)).length)

variable (lossy : Bytes → List Char)

def quoteStatusLine (line : Bytes) : List Char :=
  let text := lossy line
  let quoted := text.take maxQuotedStatusLine
  if maxQuotedStatusLine < text.length then quoted ++ "...".toList else quoted

def statusLine (block : Bytes) : Bytes :=
  match (block.zip block.tail).findIdx? (· == (13, 10)) with
  | some position => block.take position
  | none => block

def parseConnectResponse (block : Bytes) : Outcome ConnectError Unit :=
  let line := statusLine block
  let quoted := quoteStatusLine lossy line
  match parseStatusCode line with
  | none => .error (.malformedStatusLine quoted)
  | some status =>
    if 200 ≤ status ∧ status ≤ 299 then .ok ()
    else if status = 401 then .error (.unauthorized quoted)
    else if status = 407 then .error (.proxyAuthenticationRequired quoted)
    else .error (.refused status quoted)

def readConnectResponse (stream : ProxyStream) : Outcome ConnectError Unit × ProxyStream :=
  let (block, stream) := readHeaders maxConnectResponseBytes stream []
  (block >>= parseConnectResponse lossy, stream)

/-! ## Reading the headers -/

namespace ProxyStream

variable {chunks : List Bytes}

theorem nextByte_eq_none (none : nextByte chunks = none) : chunks.flatten = [] := by
  fun_induction nextByte chunks with
  | case1 => rfl
  | case2 chunks ih => exact ih none
  | case3 => cases none

theorem nextByte_eq_some {rest : List Bytes} {byte : UInt8}
    (some : nextByte chunks = some (byte, rest)) : chunks.flatten = byte :: rest.flatten := by
  fun_induction nextByte chunks with
  | case1 => cases some
  | case2 chunks ih => exact ih some
  | case3 =>
    cases some
    rfl

theorem read_cases (stream : ProxyStream) :
    (stream.bytes = [] ∧ (stream.read = (.ok none, stream) ∨ stream.read = (.error .io, stream))) ∨
      ∃ byte rest, stream.read = (.ok (some byte), rest) ∧ stream.bytes = byte :: rest.bytes := by
  cases next : nextByte stream.chunks with
  | none =>
    refine .inl ⟨nextByte_eq_none next, ?_⟩
    cases ending : stream.ending <;> simp [read, next, ending]
  | some taken =>
    obtain ⟨byte, chunks⟩ := taken
    refine .inr ⟨byte, { stream with chunks }, ?_, nextByte_eq_some next⟩
    simp [read, next]

end ProxyStream

/-- The text up to the first blank line and the stream right behind it, or a failure, within the
limit. -/
def HeadersRead (text : Bytes) (result : Outcome ConnectError Bytes × ProxyStream) :
    Prop :=
  (∃ position ≤ maxConnectResponseBytes, EndsAt blankLine text position ∧
    result.1 = .ok (text.take position) ∧ result.2.bytes = text.drop position) ∨
  (∀ position ≤ maxConnectResponseBytes, ¬ EndsAt blankLine text position) ∧
    (∃ reason, result.1 = .error reason) ∧
    ∃ position ≤ maxConnectResponseBytes, result.2.bytes = text.drop position

theorem readHeaders_spec {rounds : Nat} {stream : ProxyStream} {block : Bytes}
    (left : rounds + block.length = maxConnectResponseBytes) (unfinished : rounds ≠ 0)
    (clear : ∀ position ≤ block.length, ¬ blankLine <:+ (block ++ stream.bytes).take position) :
    HeadersRead (block ++ stream.bytes) (readHeaders rounds stream block) := by
  induction rounds generalizing stream block with
  | zero => exact absurd rfl unfinished
  | succ rounds ih =>
    obtain ⟨empty, ended⟩ | ⟨byte, rest, taken, split⟩ := stream.read_cases
    · right
      rw [empty, append_nil] at clear ⊢
      refine ⟨fun position _ ends => clear position ends.1 ends.2.1, ?_⟩
      have behind : stream.bytes = block.drop block.length := by simp [empty]
      rcases ended with ended | ended <;> simp only [readHeaders, ended] <;>
        exact ⟨⟨_, rfl⟩, block.length, by omega, behind⟩
    · have length : (block ++ [byte]).length = block.length + 1 := by simp
      have text : block ++ stream.bytes = block ++ [byte] ++ rest.bytes := by simp [split]
      simp only [readHeaders, taken, isSuffixOf_iff_suffix]
      split
      · next complete =>
        left
        refine ⟨(block ++ [byte]).length, by omega, ?_, ?_, ?_⟩
        · rw [text]
          refine ⟨by simp, by rwa [take_left], fun earlier less => ?_⟩
          rw [← text]
          exact clear earlier (by omega)
        · rw [text, take_left]
        · rw [text, drop_left]
      · next incomplete =>
        rw [split] at clear
        have clear' := clear_append_singleton incomplete clear
        split
        · next full =>
          right
          refine ⟨fun position within ends => ?_, ⟨_, rfl⟩, (block ++ [byte]).length,
            by omega, by rw [text, drop_left]⟩
          rw [text] at ends
          exact clear' position (by omega) ends.2.1
        · next room =>
          rw [text]
          exact ih (by omega) (by omega) clear'

/-! ## The status line -/

theorem stripFront_eq_some {front text rest : Bytes} :
    stripFront front text = some rest ↔ text = front ++ rest := by
  unfold stripFront
  split
  · next starts =>
    obtain ⟨others, rfl⟩ := isPrefixOf_iff_prefix.mp starts
    simp [eq_comm]
  · next other =>
    simp only [reduceCtorEq, false_iff]
    rintro rfl
    exact other <| isPrefixOf_iff_prefix.mpr (prefix_append _ _)

def threeDigits (a b c : UInt8) : Nat :=
  100 * (a.toNat - 48) + 10 * (b.toNat - 48) + (c.toNat - 48)

/-- A status line: a version, spaces, three digits, and nothing more or a space. -/
def StatusLine (line : Bytes) (status : Nat) : Prop :=
  ∃ version spaces a b c reason, (version = http10 ∨ version = http11) ∧
    line = version ++ List.replicate (spaces + 1) 32 ++ [a, b, c] ++ reason ∧
    (isAsciiDigit a ∧ isAsciiDigit b ∧ isAsciiDigit c) ∧
    (reason = [] ∨ ∃ phrase, reason = 32 :: phrase) ∧ status = threeDigits a b c

variable {digits line : Bytes} {isIpv6 : List Char → Bool} {host : List Char} {port : UInt16}

theorem statusDigits_iff {status : Nat} :
    statusDigits digits = some status ↔ ∃ a b c reason, digits = [a, b, c] ++ reason ∧
      (isAsciiDigit a ∧ isAsciiDigit b ∧ isAsciiDigit c) ∧
      (reason = [] ∨ ∃ phrase, reason = 32 :: phrase) ∧ status = threeDigits a b c := by
  rcases digits with _ | ⟨a, _ | ⟨b, _ | ⟨c, reason⟩⟩⟩
  · simp [statusDigits]
  · simp [statusDigits]
  · simp [statusDigits]
  · have checks : ([a, b, c].all isAsciiDigit && (reason.isEmpty || [32].isPrefixOf reason)) ↔
        (isAsciiDigit a ∧ isAsciiDigit b ∧ isAsciiDigit c) ∧
          (reason = [] ∨ ∃ phrase, reason = 32 :: phrase) := by
      rcases reason with _ | ⟨byte, phrase⟩
      · simp
      · simp [@eq_comm _ 32 byte]
    have value : [a, b, c].foldl (fun value byte => value * 10 + (byte.toNat - 48)) 0 =
        threeDigits a b c := by
      simp only [foldl_cons, foldl_nil, threeDigits]
      omega
    have reads : statusDigits (a :: b :: c :: reason) =
        if ([a, b, c].all isAsciiDigit && (reason.isEmpty || [32].isPrefixOf reason)) then
          some (threeDigits a b c)
        else
          none := by
      rw [statusDigits, if_neg (by simp), ← value]
      rfl
    rw [reads, Option.ite_none_right_eq_some, checks]
    constructor
    · rintro ⟨⟨numeric, ending⟩, same⟩
      exact ⟨a, b, c, reason, rfl, numeric, ending, (Option.some.inj same).symm⟩
    · rintro ⟨_, _, _, _, split, numeric, ending, rfl⟩
      cases split
      exact ⟨⟨numeric, ending⟩, rfl⟩

theorem drop_spaces_iff {text : Bytes} {first : UInt8} (digit : isAsciiDigit first) :
    text.drop (text.takeWhile (· == 32)).length = first :: digits ↔
      ∃ spaces, text = List.replicate spaces 32 ++ first :: digits := by
  have other : first ≠ 32 := by
    rintro rfl
    cases digit
  induction text with
  | nil =>
    constructor
    · simp
    · rintro ⟨spaces, same⟩
      simp at same
  | cons byte text ih =>
    by_cases space : byte = 32
    · subst space
      refine ih.trans ?_
      constructor
      · rintro ⟨spaces, rfl⟩
        exact ⟨spaces + 1, rfl⟩
      · rintro ⟨_ | spaces, same⟩
        · exact absurd (List.cons.inj same).1.symm other
        · exact ⟨spaces, (List.cons.inj same).2⟩
    · rw [takeWhile_cons_of_neg (by simpa using space), length_nil, drop_zero]
      constructor
      · intro same
        exact ⟨0, same⟩
      · rintro ⟨_ | spaces, same⟩
        · exact same
        · exact absurd (List.cons.inj same).1 space

theorem stripVersion_iff {rest : Bytes} :
    (stripFront http10 line).or (stripFront http11 line) = some rest ↔
      line = http10 ++ rest ∨ line = http11 ++ rest := by
  rw [Option.or_eq_some_iff, stripFront_eq_some, stripFront_eq_some]
  constructor
  · rintro (first | ⟨-, second⟩)
    · exact .inl first
    · exact .inr second
  · rintro (first | rfl)
    · exact .inl first
    · exact .inr ⟨rfl, rfl⟩

theorem parseStatusCode_iff {status : Nat} :
    parseStatusCode line = some status ↔ StatusLine line status := by
  simp only [parseStatusCode, Option.bind_eq_bind, Option.bind_eq_some_iff, stripVersion_iff,
    stripFront_eq_some, statusDigits_iff]
  constructor
  · rintro ⟨rest, versions, digits, rfl, a, b, c, reason, split, numeric, ending, rfl⟩
    obtain ⟨spaces, rfl⟩ := (drop_spaces_iff numeric.1).mp split
    rcases versions with rfl | rfl
    · exact ⟨http10, spaces, a, b, c, reason, .inl rfl, by simp [replicate_succ], numeric,
        ending, rfl⟩
    · exact ⟨http11, spaces, a, b, c, reason, .inr rfl, by simp [replicate_succ], numeric,
        ending, rfl⟩
  · rintro ⟨version, spaces, a, b, c, reason, versions, rfl, numeric, ending, rfl⟩
    refine ⟨List.replicate (spaces + 1) 32 ++ [a, b, c] ++ reason, ?_,
      List.replicate spaces 32 ++ [a, b, c] ++ reason, by simp [replicate_succ], a, b, c,
      reason, ?_, numeric, ending, rfl⟩
    · rcases versions with rfl | rfl <;> simp
    · exact (drop_spaces_iff numeric.1).mpr ⟨spaces, by simp⟩

/-- The text before the first line break. -/
def FirstLine (block line : Bytes) : Prop :=
  ∃ length, EndsAt crlf block (length + 2) ∧ line = block.take length

theorem firstLine_iff {block : Bytes} (complete : blankLine <:+ block) :
    FirstLine block line ↔ line = statusLine block := by
  have breaks : crlf <:+ block := List.IsSuffix.trans ⟨crlf, rfl⟩ complete
  obtain ⟨position, ends⟩ := exists_endsAt breaks
  have long : 2 ≤ position := by
    have short := ends.2.1.length_le
    simp [crlf] at short
    omega
  obtain ⟨length, rfl⟩ := Nat.exists_eq_add_of_le' long
  have same : statusLine block = block.take length := by
    rw [statusLine, endsAt_pair_iff.mp ends]
  rw [same]
  constructor
  · rintro ⟨other, others, rfl⟩
    rw [Nat.add_right_cancel (others.unique ends)]
  · rintro rfl
    exact ⟨length, ends, rfl⟩

/-- A status line with success. -/
def Granted (line : Bytes) : Prop :=
  ∃ status, StatusLine line status ∧ 200 ≤ status ∧ status ≤ 299

theorem readConnectResponse_spec (stream : ProxyStream) :
    (∃ position ≤ maxConnectResponseBytes, EndsAt blankLine stream.bytes position ∧
      (readConnectResponse lossy stream).2.bytes = stream.bytes.drop position ∧
      (((readConnectResponse lossy stream).1 = .ok () ∧
          ∃ line, FirstLine (stream.bytes.take position) line ∧ Granted line) ∨
        (∃ reason, (readConnectResponse lossy stream).1 = .error reason) ∧
          ¬ ∃ line, FirstLine (stream.bytes.take position) line ∧ Granted line)) ∨
    (∀ position ≤ maxConnectResponseBytes, ¬ EndsAt blankLine stream.bytes position) ∧
      (∃ reason, (readConnectResponse lossy stream).1 = .error reason) ∧
      ∃ position ≤ maxConnectResponseBytes,
        (readConnectResponse lossy stream).2.bytes = stream.bytes.drop position := by
  have clear : ∀ position ≤ ([] : Bytes).length,
      ¬ blankLine <:+ ([] ++ stream.bytes).take position := by
    intro position none
    rw [Nat.le_zero.mp none, take_zero]
    decide
  have headers := @readHeaders_spec maxConnectResponseBytes stream [] rfl (by decide) clear
  unfold readConnectResponse
  obtain ⟨position, within, ends, block, rest⟩ | ⟨none, ⟨reason, failed⟩, rest⟩ := headers
  · left
    rw [nil_append] at ends block rest
    refine ⟨position, within, ends, rest, ?_⟩
    simp only [block, ok_bind, firstLine_iff ends.2.1, exists_eq_left]
    unfold parseConnectResponse
    dsimp only
    cases read : parseStatusCode (statusLine (stream.bytes.take position)) with
    | none =>
      refine .inr ⟨⟨_, rfl⟩, ?_⟩
      rintro ⟨status, line, -⟩
      rw [parseStatusCode_iff.mpr line] at read
      cases read
    | some status =>
      by_cases granted : 200 ≤ status ∧ status ≤ 299
      · exact .inl ⟨if_pos granted, status, parseStatusCode_iff.mp read, granted⟩
      refine .inr ⟨?_, ?_⟩
      · dsimp only
        rw [if_neg granted]
        split
        · exact ⟨_, rfl⟩
        · split <;> exact ⟨_, rfl⟩
      · rintro ⟨other, line, range⟩
        rw [parseStatusCode_iff.mpr line] at read
        cases read
        exact granted range
  · right
    refine ⟨none, ⟨reason, ?_⟩, rest⟩
    simp [failed]

/-! ## No host adds a header -/

def requestLines (target : List Char) : List (List Char) :=
  ["CONNECT ".toList ++ target ++ " HTTP/1.0".toList, "Host: ".toList ++ target,
    "Proxy-Connection: keep-alive".toList, "User-Agent: ".toList ++ userAgent, []]

theorem connectRequest_eq (target : List Char) :
    connectRequest target = (requestLines target).flatMap fun line => line ++ "\r\n".toList := by
  -- The texts are variables here, so that they are not compared letter by letter.
  have joined : ∀ ending connect version host connection agent versionEnd connectionEnd,
      versionEnd = version ++ ending → connectionEnd = connection ++ ending →
      connect ++ target ++ versionEnd ++ host ++ target ++ ending ++ connectionEnd ++ agent ++
          userAgent ++ ending ++ ending =
        [connect ++ target ++ version, host ++ target, connection, agent ++ userAgent, []].flatMap
          fun line => line ++ ending := by
    rintro ending connect version host connection agent _ _ rfl rfl
    simp only [flatMap_cons, flatMap_nil, append_assoc, nil_append, append_nil]
  exact joined _ _ _ _ _ _ _ _ (by simp) (by simp)

theorem authority_unbroken (plain : ¬ host.any fun c => isWhitespace c || isControl c) {char : Char}
    (ends : char = '\r' ∨ char = '\n') : char ∉ authority isIpv6 host port := by
  have outside : char ∉ host := by
    intro inside
    refine plain (any_eq_true.mpr ⟨char, inside, ?_⟩)
    rcases ends with rfl | rfl <;> decide
  have number : char ∉ Nat.toDigits 10 port.toNat := by
    intro inside
    have digit := Nat.isDigit_of_mem_toDigits (by decide) (by decide) inside
    rcases ends with rfl | rfl <;> cases digit
  unfold authority
  split
  · have bracket : char ∉ "]:".toList ∧ char ≠ '[' := by rcases ends with rfl | rfl <;> decide
    simp only [mem_append, mem_cons, outside, number, bracket, or_self, not_false_eq_true]
  · have colon : char ≠ ':' := by rcases ends with rfl | rfl <;> decide
    simp only [mem_append, mem_cons, outside, number, colon, or_self, not_false_eq_true]

theorem requestLines_unbroken {target : List Char} {char : Char} (ends : char = '\r' ∨ char = '\n')
    (unbroken : char ∉ target) : ∀ line ∈ requestLines target, char ∉ line := by
  have fixed : char ∉ "CONNECT ".toList ∧ char ∉ " HTTP/1.0".toList ∧ char ∉ "Host: ".toList ∧
      char ∉ "Proxy-Connection: keep-alive".toList ∧ char ∉ "User-Agent: ".toList ∧
      char ∉ userAgent := by
    rcases ends with rfl | rfl <;> decide
  obtain ⟨connect, version, host, connection, agent, name⟩ := fixed
  intro line member
  simp only [requestLines, mem_cons, not_mem_nil, or_false] at member
  rcases member with rfl | rfl | rfl | rfl | rfl
  · simp only [mem_append, connect, version, unbroken, or_self, not_false_eq_true]
  · simp only [mem_append, host, unbroken, or_self, not_false_eq_true]
  · exact connection
  · simp only [mem_append, agent, name, or_self, not_false_eq_true]
  · simp

theorem writeConnectRequest_spec {fails : Option Nat}
    (sent : (writeConnectRequest isIpv6 fails host port).1 = .ok ()) :
    let lines := (requestLines (authority isIpv6 host port)).map utf8Bytes
    (writeConnectRequest isIpv6 fails host port).2 = lines.flatMap (fun line => line ++ crlf) ∧
      (∀ line ∈ lines, 13 ∉ line ∧ 10 ∉ line) ∧
      adjacent 13 10 (writeConnectRequest isIpv6 fails host port).2 = 5 := by
  unfold writeConnectRequest at sent ⊢
  split at sent
  · cases sent
  next accepted =>
  rw [if_neg accepted]
  rw [Bool.or_eq_true, not_or] at accepted
  have unbroken : ∀ line ∈ (requestLines (authority isIpv6 host port)).map utf8Bytes,
      13 ∉ line ∧ 10 ∉ line := by
    intro line member
    obtain ⟨text, inside, rfl⟩ := mem_map.mp member
    have unbroken : ∀ char, char = '\r' ∨ char = '\n' → char ∉ text := fun char ends =>
      requestLines_unbroken ends (authority_unbroken accepted.2 ends) text inside
    exact ⟨not_mem_utf8Bytes (by decide) (unbroken '\r' (.inl rfl)),
      not_mem_utf8Bytes (by decide) (unbroken '\n' (.inr rfl))⟩
  cases fails with
  | some taken => cases sent
  | none =>
    have breaks : utf8Bytes "\r\n".toList = crlf := by decide
    rw [connectRequest_eq, utf8Bytes_lines, breaks]
    refine ⟨rfl, unbroken, ?_⟩
    exact adjacent_lines (show (10 : UInt8) ≠ 13 by decide) fun line member =>
      (unbroken line member).1

/-- The response is read up to its first blank line and not a byte beyond, its first line alone
decides, and no host adds a line break to the request. -/
theorem connect_exchange_exact (lossy : Bytes → List Char) (isIpv6 : List Char → Bool) :
    (∀ stream : ProxyStream, let result := readConnectResponse lossy stream
      (∀ position ≤ maxConnectResponseBytes, EndsAt blankLine stream.bytes position →
        result.2.bytes = stream.bytes.drop position) ∧
      ((¬ ∃ position ≤ maxConnectResponseBytes, EndsAt blankLine stream.bytes position) →
        (∃ reason, result.1 = .error reason) ∧
          ∃ consumed ≤ maxConnectResponseBytes, result.2.bytes = stream.bytes.drop consumed) ∧
      (result.1 = .ok () ↔ ∃ position ≤ maxConnectResponseBytes,
        EndsAt blankLine stream.bytes position ∧
          ∃ line, FirstLine (stream.bytes.take position) line ∧ Granted line)) ∧
    ∀ (fails : Option Nat) (host : List Char) (port : UInt16),
      let result := writeConnectRequest isIpv6 fails host port
      (result.1 = .error .invalidTarget → result.2 = []) ∧
      (result.1 = .ok () → let lines := (requestLines (authority isIpv6 host port)).map utf8Bytes
        result.2 = lines.flatMap (fun line => line ++ crlf) ∧
          (∀ line ∈ lines, 13 ∉ line ∧ 10 ∉ line) ∧ adjacent 13 10 result.2 = 5) := by
  refine ⟨fun stream => ?_, fun fails host port => ⟨?_, writeConnectRequest_spec⟩⟩
  · dsimp only
    obtain ⟨position, within, ends, rest, decided⟩ | ⟨none, ⟨reason, failed⟩, rest⟩ :=
      readConnectResponse_spec lossy stream
    · refine ⟨fun other _ others => others.unique ends ▸ rest,
        fun none => absurd ⟨position, within, ends⟩ none, ?_⟩
      obtain ⟨granted, line⟩ | ⟨⟨reason, failed⟩, other⟩ := decided
      · exact ⟨fun _ => ⟨position, within, ends, line⟩, fun _ => granted⟩
      rw [failed]
      constructor
      · intro granted
        cases granted
      · rintro ⟨_, -, others, line⟩
        rw [others.unique ends] at line
        exact absurd line other
    · refine ⟨fun position within ends => absurd ends (none position within),
        fun _ => ⟨⟨reason, failed⟩, rest⟩, ?_⟩
      rw [failed]
      constructor
      · intro granted
        cases granted
      · rintro ⟨position, within, ends, -⟩
        exact absurd ends (none position within)
  · unfold writeConnectRequest
    split
    · exact fun _ => rfl
    · cases fails <;> rintro ⟨⟩

end Ryll
