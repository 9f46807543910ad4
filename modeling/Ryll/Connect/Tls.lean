import Ryll.Connect.HostSubject

/-!
# The identity of a TLS server

Which certificates a client accepts is decided by the roots it trusts, by a pinned subject and by
the name it dialled.  Reading certificates and validating chains are left to the environment.
-/

namespace Ryll

/-- A proxy to tunnel through. -/
structure HttpProxy where
  host : List Char
  port : UInt16

/-- What a connection is made with. -/
structure ConnectionConfig where
  host : List Char
  port : UInt16
  tlsPort : Option UInt16
  caCert : Option (List Char)
  hostSubject : Option (List Char)
  proxy : Option HttpProxy

/-- What a server presents. -/
structure CertificateChain (Cert : Type) where
  endEntity : Cert
  intermediates : List Cert

/-- What webpki says of a chain. -/
inductive ChainVerdict
  | valid
  /-- The chain is valid and the name is not the certificate's. -/
  | notValidForName
  | invalid
  deriving DecidableEq

/-- The libraries that read and validate certificates, and the embedding process. -/
structure TlsEnvironment (Cert : Type) where
  publicRoots : List Cert
  pemCerts : List Char → Option (List Cert)
  /-- `RootCertStore::add` takes the certificate. -/
  addable : Cert → Bool
  providerInstalled : Bool
  verifierBuilds : List Cert → Bool
  validName : List Char → Bool
  /-- `WebPkiServerVerifier::verify_server_cert` for some roots. -/
  verdict : List Cert → List Char → CertificateChain Cert → ChainVerdict
  fromDer : Cert → ParsedCertificate

/-- Why no client is created. -/
inductive ClientError
  | malformedHostSubject (error : HostSubjectError)
  | proxyWithoutHostSubject (proxy : HttpProxy)
  | proxyWithoutTlsPort (proxy : HttpProxy)
  | unreadableCa
  | noCertificates
  | unusableCertificate
  | noCryptoProvider
  | verifierBuild

/-- Why no transport is opened. -/
inductive TransportError
  | plaintextThroughProxy
  | dial
  | tunnel
  | tlsNotConfigured
  | serverName
  | certificate
  | handshake

variable {Cert : Type}

/-- The roots, and whether they were configured. -/
structure TrustAnchors (Cert : Type) where
  store : List Cert
  privatePki : Bool

def unescapeNewlines : List Char → List Char
  | '\\' :: 'n' :: rest => '\n' :: unescapeNewlines rest
  | c :: rest => c :: unescapeNewlines rest
  | [] => []

namespace TlsEnvironment

def buildRootStore (env : TlsEnvironment Cert) (caCert : Option (List Char)) :
    Outcome ClientError (TrustAnchors Cert) :=
  match caCert with
  | none => .ok ⟨env.publicRoots, false⟩
  | some caCert =>
    match env.pemCerts (unescapeNewlines caCert) with
    | none => .error .unreadableCa
    | some certs =>
      if certs.isEmpty then .error .noCertificates
      else if certs.all env.addable then .ok ⟨certs, true⟩
      else .error .unusableCertificate

end TlsEnvironment

def needsSpiceVerifier (anchors : TrustAnchors Cert) (expectedSubject : Option ExpectedSubject) :
    Bool :=
  anchors.privatePki || expectedSubject.isSome

/-- The verifier that a client uses. -/
inductive TlsConnector (Cert : Type)
  | spice (roots : List Cert) (expectedSubject : Option ExpectedSubject)
  /-- The verifier of webpki, with its check of the name. -/
  | stock (roots : List Cert)

namespace TlsEnvironment

def checkSubject (env : TlsEnvironment Cert) (expectedSubject : Option ExpectedSubject)
    (endEntity : Cert) : Bool :=
  match expectedSubject with
  | none => true
  | some expected => expected.matchesCertDer (env.fromDer endEntity) = .ok ()

def verifyServerCert (env : TlsEnvironment Cert) (connector : TlsConnector Cert)
    (name : List Char) (chain : CertificateChain Cert) (caAlone : Bool) : Bool × Bool :=
  match connector with
  | .stock roots => (env.verdict roots name chain = .valid, caAlone)
  | .spice roots expectedSubject =>
    match env.verdict roots name chain with
    | .valid => (env.checkSubject expectedSubject chain.endEntity, caAlone)
    | .notValidForName =>
      if env.checkSubject expectedSubject chain.endEntity then
        (true, caAlone || expectedSubject.isNone)
      else
        (false, caAlone)
    | .invalid => (false, caAlone)

end TlsEnvironment

/-- A client with the chains it accepted. -/
structure SpiceClient (Cert : Type) where
  config : ConnectionConfig
  tlsConnector : Option (TlsConnector Cert)
  caAlone : Bool
  accepted : List (CertificateChain Cert)

/-- What happens on the network when a transport is opened. -/
structure ConnectionAttempt (Cert : Type) where
  /-- The socket connects in time. -/
  dials : Bool
  tunnels : Bool
  presents : Option (CertificateChain Cert)
  /-- The handshake completes once the chain is accepted. -/
  completes : Bool

/-- An open transport. -/
inductive Transport (Cert : Type)
  | plain
  | tls (chain : CertificateChain Cert)

namespace SpiceClient

def createTlsConnector (env : TlsEnvironment Cert) (config : ConnectionConfig)
    (expectedSubject : Option ExpectedSubject) : Outcome ClientError (TlsConnector Cert) := do
  let anchors ← env.buildRootStore config.caCert
  if needsSpiceVerifier anchors expectedSubject then
    if env.providerInstalled then
      if env.verifierBuilds anchors.store then
        return .spice anchors.store expectedSubject
      else
        .error .verifierBuild
    else
      .error .noCryptoProvider
  else
    return .stock anchors.store

def expectedSubject (config : ConnectionConfig) : Outcome ClientError (Option ExpectedSubject) :=
  match config.hostSubject with
  | none => .ok none
  | some subject =>
    match parseHostSubject subject with
    | .ok expected => .ok (some expected)
    | .error reason => .error (.malformedHostSubject reason)
    | .fault cause => .fault cause

def checkProxy (config : ConnectionConfig) (expected : Option ExpectedSubject) :
    Outcome ClientError Unit :=
  match config.proxy with
  | none => .ok ()
  | some proxy =>
    if expected.isNone then .error (.proxyWithoutHostSubject proxy)
    else if config.tlsPort.isNone then .error (.proxyWithoutTlsPort proxy)
    else .ok ()

def new (env : TlsEnvironment Cert) (config : ConnectionConfig) :
    Outcome ClientError (SpiceClient Cert) := do
  let expected ← expectedSubject config
  checkProxy config expected
  if config.tlsPort.isSome then
    let connector ← createTlsConnector env config expected
    return ⟨config, some connector, false, []⟩
  else
    return ⟨config, none, false, []⟩

def trustedByCaAlone (client : SpiceClient Cert) : Bool := client.caAlone

end SpiceClient

def ConnectionConfig.serverName (config : ConnectionConfig) : List Char :=
  match config.proxy with
  | some proxy => proxy.host
  | none => config.host

namespace SpiceClient

def handshake (env : TlsEnvironment Cert) (client : SpiceClient Cert)
    (attempt : ConnectionAttempt Cert) :
    Outcome TransportError (Transport Cert) × SpiceClient Cert :=
  match client.tlsConnector with
  | none => (.error .tlsNotConfigured, client)
  | some connector =>
    if env.validName client.config.serverName then
      match attempt.presents with
      | none => (.error .handshake, client)
      | some chain =>
        let (accepts, caAlone) :=
          env.verifyServerCert connector client.config.serverName chain client.caAlone
        if accepts then
          (if attempt.completes then .ok (.tls chain) else .error .handshake,
            { client with caAlone, accepted := client.accepted ++ [chain] })
        else
          (.error .certificate, { client with caAlone })
    else
      (.error .serverName, client)

variable (env : TlsEnvironment Cert) (client : SpiceClient Cert)

def openTransport (useTls : Bool) (attempt : ConnectionAttempt Cert) :
    Outcome TransportError (Transport Cert) × SpiceClient Cert :=
  if client.config.proxy.isSome ∧ ¬ useTls then
    (.error .plaintextThroughProxy, client)
  else if ¬ attempt.dials then
    (.error .dial, client)
  else if client.config.proxy.isSome ∧ ¬ attempt.tunnels then
    (.error .tunnel, client)
  else if useTls then
    client.handshake env attempt
  else
    (.ok .plain, client)

def connectChannel (attempt : ConnectionAttempt Cert) :
    Outcome TransportError (Transport Cert) × SpiceClient Cert :=
  client.openTransport env client.config.tlsPort.isSome attempt

def connectAll (attempts : List (ConnectionAttempt Cert)) : SpiceClient Cert :=
  attempts.foldl (fun client attempt => (client.connectChannel env attempt).2) client

end SpiceClient

/-! ## What identifies a server -/

namespace TlsEnvironment

variable {env : TlsEnvironment Cert} {config : ConnectionConfig} {roots : List Cert}
  {chain : CertificateChain Cert}

section

variable (env : TlsEnvironment Cert) (config : ConnectionConfig) (roots : List Cert)

/-- The roots of a configuration: exactly the configured ones, or the public ones. -/
def Trusts : Prop :=
  match config.caCert with
  | none => roots = env.publicRoots
  | some caCert => env.pemCerts (unescapeNewlines caCert) = some roots ∧ roots ≠ []

variable (chain : CertificateChain Cert)

/-- The subject of the certificate is the pinned one. -/
def Pinned : Prop :=
  ∃ pin expected subject, config.hostSubject = some pin ∧ parseHostSubject pin = .ok expected ∧
    env.fromDer chain.endEntity = .ok (0, subject) ∧
    List.Forall₂ ExpectedSubject.Carries subject.flatten expected.entries

/-- A chain is valid and something ties it to the server: a pin, a private CA or its name. -/
def Identified : Prop :=
  env.verdict roots config.serverName chain ≠ .invalid ∧
    (env.Pinned config chain ∨ (config.hostSubject = none ∧ config.caCert.isSome) ∨
      (config.hostSubject = none ∧ config.caCert = none ∧
        env.verdict roots config.serverName chain = .valid))

/-- A chain has another name, comes from a configured CA and is not pinned. -/
def OnCaAlone : Prop :=
  env.verdict roots config.serverName chain = .notValidForName ∧ config.caCert.isSome ∧
    config.hostSubject = none

end

/-- The connector that a configuration with some roots and a parsed pin gets. -/
def connectorFor (config : ConnectionConfig) (roots : List Cert)
    (expected : Option ExpectedSubject) : TlsConnector Cert :=
  if config.caCert.isSome || expected.isSome then .spice roots expected else .stock roots

theorem Trusts.unique {others : List Cert} (first : env.Trusts config roots)
    (second : env.Trusts config others) : roots = others := by
  unfold Trusts at first second
  cases ca : config.caCert with
  | none => simp_all
  | some caCert =>
    simp only [ca] at first second
    exact Option.some.inj (first.1.symm.trans second.1)

theorem buildRootStore_eq_ok {anchors : TrustAnchors Cert}
    (built : env.buildRootStore config.caCert = .ok anchors) :
    env.Trusts config anchors.store ∧ anchors.privatePki = config.caCert.isSome := by
  unfold Trusts
  cases ca : config.caCert with
  | none =>
    rw [ca] at built
    cases built
    exact ⟨rfl, rfl⟩
  | some caCert =>
    simp only [ca, buildRootStore] at built
    split at built
    · cases built
    next certs read =>
    split at built
    · cases built
    · next filled =>
      split at built
      · cases built
        exact ⟨⟨read, by simpa using filled⟩, rfl⟩
      · cases built

variable {expected : Option ExpectedSubject}

theorem expectedSubject_cases (parsed : SpiceClient.expectedSubject config = .ok expected) :
    (config.hostSubject = none ∧ expected = none) ∨
      ∃ pin subject, config.hostSubject = some pin ∧ parseHostSubject pin = .ok subject ∧
        expected = some subject := by
  unfold SpiceClient.expectedSubject at parsed
  cases pinned : config.hostSubject with
  | none =>
    simp only [pinned] at parsed
    cases parsed
    exact .inl ⟨rfl, rfl⟩
  | some pin =>
    simp only [pinned] at parsed
    split at parsed <;> cases parsed
    next accepted => exact .inr ⟨pin, _, rfl, accepted, rfl⟩

theorem checkSubject_iff (parsed : SpiceClient.expectedSubject config = .ok expected) :
    env.checkSubject expected chain.endEntity ↔
      config.hostSubject = none ∨ env.Pinned config chain := by
  obtain ⟨free, rfl⟩ | ⟨pin, subject, pinned, accepted, rfl⟩ := expectedSubject_cases parsed
  · simp [checkSubject, free]
  · simp [checkSubject, ExpectedSubject.matchesCertDer_eq_ok, Pinned, pinned, accepted]

theorem not_pinned (free : config.hostSubject = none) : ¬ env.Pinned config chain := by
  rintro ⟨pin, _, _, pinned, -⟩
  rw [free] at pinned
  cases pinned

section Verify

variable {expected : Option ExpectedSubject} {name : List Char} {caAlone : Bool}

theorem verify_spice_accepts : (env.verifyServerCert (.spice roots expected) name chain caAlone).1 ↔
      env.verdict roots name chain ≠ .invalid ∧ env.checkSubject expected chain.endEntity := by
  cases verdict : env.verdict roots name chain with
  | valid => simp [verifyServerCert, verdict]
  | notValidForName =>
    by_cases matched : env.checkSubject expected chain.endEntity <;>
      simp [verifyServerCert, verdict, matched]
  | invalid => simp [verifyServerCert, verdict]

theorem verify_spice_caAlone : (env.verifyServerCert (.spice roots expected) name chain caAlone).2 ↔
      caAlone ∨ env.verdict roots name chain = .notValidForName ∧ expected = none := by
  cases verdict : env.verdict roots name chain with
  | valid => simp [verifyServerCert, verdict]
  | notValidForName =>
    cases expected with
    | none => simp [verifyServerCert, verdict, checkSubject]
    | some subject =>
      by_cases matched : env.checkSubject (some subject) chain.endEntity <;>
        simp [verifyServerCert, verdict, matched]
  | invalid => simp [verifyServerCert, verdict]

theorem verifyServerCert_accepts (parsed : SpiceClient.expectedSubject config = .ok expected) :
    (env.verifyServerCert (connectorFor config roots expected) config.serverName chain
      caAlone).1 ↔ env.Identified config roots chain := by
  unfold connectorFor Identified
  split
  · next relaxed =>
    rw [verify_spice_accepts, checkSubject_iff parsed]
    obtain ⟨free, rfl⟩ | ⟨pin, subject, pinned, -, rfl⟩ := expectedSubject_cases parsed
    · have ca : config.caCert.isSome := by simpa using relaxed
      simp [free, ca]
    · simp [pinned]
  · next strict =>
    obtain ⟨free, rfl⟩ | ⟨pin, subject, pinned, -, rfl⟩ := expectedSubject_cases parsed
    · have none : config.caCert = none := by simpa using strict
      cases verdict : env.verdict roots config.serverName chain <;>
        simp [verifyServerCert, verdict, free, none, not_pinned free]
    · simp at strict

theorem verifyServerCert_caAlone (parsed : SpiceClient.expectedSubject config = .ok expected) :
    (env.verifyServerCert (connectorFor config roots expected) config.serverName chain
      caAlone).2 ↔ caAlone ∨ env.OnCaAlone config roots chain := by
  unfold connectorFor OnCaAlone
  obtain ⟨free, rfl⟩ | ⟨pin, subject, pinned, -, rfl⟩ := expectedSubject_cases parsed
  · by_cases ca : config.caCert.isSome
    · simp [ca, free, verify_spice_caAlone]
    · simp [ca, verifyServerCert]
  · simp [pinned, verify_spice_caAlone]

theorem OnCaAlone.identified (alone : env.OnCaAlone config roots chain) :
    env.Identified config roots chain := by
  obtain ⟨mismatch, ca, free⟩ := alone
  exact ⟨by simp [mismatch], .inr (.inl ⟨free, ca⟩)⟩

end Verify

end TlsEnvironment

namespace SpiceClient

open TlsEnvironment (connectorFor)

variable {env : TlsEnvironment Cert} {config : ConnectionConfig} {client : SpiceClient Cert}

/-- A client created from a configuration, with the certificates it has accepted. -/
structure Established (env : TlsEnvironment Cert) (config : ConnectionConfig)
    (client : SpiceClient Cert) : Prop where
  config_eq : client.config = config
  tunnelled : config.proxy.isSome → config.tlsPort.isSome ∧ config.hostSubject.isSome
  connector : ∀ connector, client.tlsConnector = some connector → ∃ roots expected,
    env.Trusts config roots ∧ expectedSubject config = .ok expected ∧
      connector = connectorFor config roots expected
  identified : ∀ chain ∈ client.accepted, ∃ roots, env.Trusts config roots ∧
    env.Identified config roots chain
  caAlone : client.caAlone ↔ ∃ chain ∈ client.accepted, ∃ roots, env.Trusts config roots ∧
    env.OnCaAlone config roots chain

variable {expected : Option ExpectedSubject} {attempt : ConnectionAttempt Cert}
  {transport : Transport Cert}

theorem checkProxy_eq_ok (parsed : expectedSubject config = .ok expected)
    (checked : checkProxy config expected = .ok ()) (tunnelled : config.proxy.isSome) :
    config.tlsPort.isSome ∧ config.hostSubject.isSome := by
  obtain ⟨proxy, through⟩ := Option.isSome_iff_exists.mp tunnelled
  simp only [checkProxy, through] at checked
  obtain ⟨free, rfl⟩ | ⟨pin, subject, pinned, -, rfl⟩ := TlsEnvironment.expectedSubject_cases parsed
  · simp at checked
  · cases port : config.tlsPort with
    | none => simp [port] at checked
    | some port => simp [pinned]

theorem new_established (created : new env config = .ok client) :
    Established env config client := by
  obtain ⟨expected, parsed, created⟩ := bind_eq_ok.mp created
  obtain ⟨_, checked, created⟩ := bind_eq_ok.mp created
  split at created
  · obtain ⟨connector, connected, created⟩ := bind_eq_ok.mp created
    cases created
    refine ⟨rfl, checkProxy_eq_ok parsed checked, ?_, by simp, by simp⟩
    rintro _ ⟨⟩
    obtain ⟨anchors, built, connected⟩ := bind_eq_ok.mp connected
    obtain ⟨trusts, ca⟩ := TlsEnvironment.buildRootStore_eq_ok built
    refine ⟨anchors.store, expected, trusts, parsed, ?_⟩
    rw [needsSpiceVerifier, ca] at connected
    unfold connectorFor
    split at connected
    · next relaxed =>
      rw [if_pos relaxed]
      split at connected
      · split at connected <;> cases connected
        rfl
      · cases connected
    · next strict =>
      cases connected
      rw [if_neg strict]
  · cases created
    exact ⟨rfl, checkProxy_eq_ok parsed checked, by simp, by simp, by simp⟩

theorem handshake_cases (attempt : ConnectionAttempt Cert) :
    ((∃ reason, (client.handshake env attempt).1 = .error reason) ∧
        (client.handshake env attempt).2 = client) ∨
      ∃ connector chain, client.tlsConnector = some connector ∧
        let verified :=
          env.verifyServerCert connector client.config.serverName chain client.caAlone
        (verified.1 = true ∧ ((client.handshake env attempt).1 = .ok (.tls chain) ∨
            (client.handshake env attempt).1 = .error .handshake) ∧
          (client.handshake env attempt).2 =
            { client with caAlone := verified.2, accepted := client.accepted ++ [chain] }) ∨
        (verified.1 = false ∧ (client.handshake env attempt).1 = .error .certificate ∧
          (client.handshake env attempt).2 = { client with caAlone := verified.2 }) := by
  cases configured : client.tlsConnector with
  | none => exact .inl (by simp [handshake, configured])
  | some connector =>
    by_cases named : env.validName client.config.serverName
    · cases presented : attempt.presents with
      | none => exact .inl (by simp [handshake, configured, named, presented])
      | some chain =>
        refine .inr ⟨connector, chain, rfl, ?_⟩
        cases accepts : (env.verifyServerCert connector client.config.serverName chain
          client.caAlone).1 with
        | true =>
          left
          cases attempt.completes <;>
            simp [handshake, configured, named, presented, accepts]
        | false =>
          exact .inr (by simp [handshake, configured, named, presented, accepts])
    · exact .inl (by simp [handshake, configured, named])

theorem connectChannel_cases (attempt : ConnectionAttempt Cert) :
    client.connectChannel env attempt = client.handshake env attempt ∨
      (client.connectChannel env attempt).2 = client ∧
        ((∃ reason, (client.connectChannel env attempt).1 = .error reason) ∨
          client.config.tlsPort = none ∧ client.config.proxy = none) := by
  unfold connectChannel openTransport
  split
  · exact .inr ⟨rfl, .inl ⟨_, rfl⟩⟩
  next direct =>
  split
  · exact .inr ⟨rfl, .inl ⟨_, rfl⟩⟩
  split
  · exact .inr ⟨rfl, .inl ⟨_, rfl⟩⟩
  · split
    · exact .inl rfl
    · next plain =>
      exact .inr ⟨rfl, .inr ⟨by simpa using plain, by simpa [plain] using direct⟩⟩

section

variable (established : Established env config client)
include established

theorem Established.handshake (attempt : ConnectionAttempt Cert) :
    Established env config (client.handshake env attempt).2 := by
  obtain ⟨-, same⟩ | ⟨connector, chain, configured, verified⟩ := handshake_cases attempt
  · rwa [same]
  obtain ⟨roots, expected, trusts, parsed, rfl⟩ := established.connector connector configured
  rw [established.config_eq] at verified
  have accepts := @TlsEnvironment.verifyServerCert_accepts _ env config roots chain expected
    client.caAlone parsed
  have raised := @TlsEnvironment.verifyServerCert_caAlone _ env config roots chain expected
    client.caAlone parsed
  obtain ⟨accepted, -, same⟩ | ⟨rejected, -, same⟩ := verified
  · rw [same]
    refine ⟨rfl, established.tunnelled, established.connector, ?_, ?_⟩
    · intro other member
      rcases List.mem_append.mp member with earlier | last
      · exact established.identified other earlier
      · rw [List.mem_singleton.mp last]
        exact ⟨roots, trusts, accepts.mp accepted⟩
    · have alone : (∃ roots, env.Trusts config roots ∧ env.OnCaAlone config roots chain) ↔
          env.OnCaAlone config roots chain :=
        ⟨fun ⟨_, others, alone⟩ => trusts.unique others ▸ alone,
          fun alone => ⟨roots, trusts, alone⟩⟩
      simp only [raised, established.caAlone, List.mem_append, List.mem_singleton, or_and_right,
        exists_or, exists_eq_left, alone]
  · rw [same]
    refine { established with config_eq := rfl, caAlone := ?_ }
    -- A certificate on the CA alone would have been accepted.
    have other : ¬ env.OnCaAlone config roots chain := by
      intro alone
      rw [accepts.mpr alone.identified] at rejected
      cases rejected
    simp only [raised, other, or_false, established.caAlone]

theorem Established.connectAll (attempts : List (ConnectionAttempt Cert)) :
    Established env config (client.connectAll env attempts) := by
  induction attempts generalizing client with
  | nil => exact established
  | cons attempt attempts ih =>
    refine @ih (client.connectChannel env attempt).2 ?_
    rcases connectChannel_cases attempt with same | ⟨same, -⟩
    · rw [same]
      exact established.handshake attempt
    · rwa [same]

end

theorem Established.tunnel (established : Established env config client)
    (opened : (client.connectChannel env attempt).1 = .ok transport)
    (tunnelled : config.proxy.isSome) : ∃ chain, transport = .tls chain ∧
      chain ∈ (client.connectChannel env attempt).2.accepted ∧ env.Pinned config chain := by
  have secured := established.tunnelled tunnelled
  rcases @connectChannel_cases _ env client attempt with
    same | ⟨-, ⟨reason, failed⟩ | ⟨plain, -⟩⟩
  · rw [same] at opened ⊢
    obtain ⟨⟨reason, failed⟩, -⟩ | ⟨connector, chain, -, verified⟩ :=
      @handshake_cases _ env client attempt
    · rw [failed] at opened
      cases opened
    obtain ⟨-, result | failed, report⟩ | ⟨-, failed, -⟩ := verified
    rotate_left
    · rw [failed] at opened
      cases opened
    · rw [failed] at opened
      cases opened
    rw [result] at opened
    cases opened
    have accepted : chain ∈ (client.handshake env attempt).2.accepted := by simp [report]
    obtain ⟨roots, -, -, pinned | ⟨free, -⟩ | ⟨free, -⟩⟩ :=
      (established.handshake attempt).identified chain accepted
    · exact ⟨chain, rfl, accepted, pinned⟩
    · simp [free] at secured
    · simp [free] at secured
  · rw [failed] at opened
    cases opened
  · rw [established.config_eq] at plain
    simp [plain] at secured

/-- Every accepted chain is valid under the configured roots and tied to the server, a tunnel is TLS
and pinned, and the client knows what it trusted by its CA alone. -/
theorem server_identified (env : TlsEnvironment Cert) (config : ConnectionConfig)
    (client : SpiceClient Cert) (created : new env config = .ok client)
    (attempts : List (ConnectionAttempt Cert)) :
    let after := client.connectAll env attempts
    (∀ chain ∈ after.accepted, ∃ roots, env.Trusts config roots ∧
      env.Identified config roots chain) ∧
    (config.proxy.isSome → ∀ attempt transport,
      (after.connectChannel env attempt).1 = .ok transport → ∃ chain, transport = .tls chain ∧
          chain ∈ (after.connectChannel env attempt).2.accepted ∧ env.Pinned config chain) ∧
    (after.trustedByCaAlone ↔ ∃ chain ∈ after.accepted, ∃ roots, env.Trusts config roots ∧
      env.OnCaAlone config roots chain) := by
  have established := (new_established created).connectAll attempts
  refine ⟨established.identified, ?_, established.caAlone⟩
  intro tunnelled attempt transport opened
  exact established.tunnel opened tunnelled

def namelessEnvironment : TlsEnvironment Nat where
  publicRoots := [0]
  pemCerts := fun text => some (text.map Char.toNat)
  addable := fun _ => true
  providerInstalled := true
  verifierBuilds := fun _ => true
  validName := fun _ => true
  verdict := fun _ _ _ => .notValidForName
  fromDer := fun _ => .ok (0, [])

def unpinnedConfig : ConnectionConfig where
  host := ['h']
  port := 5900
  tlsPort := some 5901
  caCert := some ['A']
  hostSubject := none
  proxy := none

def blankConfig : ConnectionConfig where
  host := ['h']
  port := 5900
  tlsPort := some 5901
  caCert := none
  hostSubject := some [' ']
  proxy := some ⟨['p'], 3128⟩

def singleCertificate : ConnectionAttempt Nat := ⟨true, true, some ⟨7, []⟩, true⟩

theorem unpinned_trusted_by_ca :
    let client : SpiceClient Nat := ⟨unpinnedConfig, some (.spice [65] none), false, []⟩
    new namelessEnvironment unpinnedConfig = .ok client ∧
      ∃ chain ∈ (client.connectAll namelessEnvironment [singleCertificate]).accepted, ∃ roots,
        namelessEnvironment.Trusts unpinnedConfig roots ∧
          namelessEnvironment.OnCaAlone unpinnedConfig roots chain :=
  ⟨rfl, (server_identified namelessEnvironment unpinnedConfig _ rfl
    [singleCertificate]).2.2.mp rfl⟩

/-- With a blank pin, a certificate of another name is accepted under the public roots. -/
theorem blank_pin_accepts :
    ∃ client, new namelessEnvironment blankConfig = .ok client ∧ (⟨7, []⟩ : CertificateChain Nat) ∈
        (client.connectAll namelessEnvironment [singleCertificate]).accepted ∧
      blankConfig.caCert = none ∧
      namelessEnvironment.verdict namelessEnvironment.publicRoots blankConfig.serverName ⟨7, []⟩ =
        .notValidForName ∧ ¬ ∃ pin expected, blankConfig.hostSubject = some pin ∧
        parseHostSubject pin = .ok expected ∧ expected.entries ≠ [] := by
  refine ⟨_, rfl, List.mem_singleton.mpr rfl, rfl, rfl, ?_⟩
  rintro ⟨pin, expected, pinned, parsed, attributes⟩
  cases pinned
  cases parsed
  exact attributes rfl

end SpiceClient

end Ryll
