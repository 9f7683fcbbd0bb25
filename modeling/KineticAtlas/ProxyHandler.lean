import KineticAtlas.HostSplit
import KineticAtlas.Registry

/-!
The HTTP handler (handle_proxy_request in proxy.rs): routing by host, the signature
checks on the record found in the DHT, the choice of target records and the failover
over them. The answers of the swarm, the gateways and the peers are inputs. The
results here say what the checks on a record look at: its bytes and the network id
of the TLD, and nothing else of the request, so that a record is not bound to the
domain it is the answer for.
-/
namespace KineticAtlas.ProxyHandler

open Library.Texts KineticAtlas.Types HostSplit Registry

/-- A request with its headers in order, their names in lower case. The body is
missing when it cannot be read to its end. -/
structure HttpRequest where
  method : Str
  pathAndQuery : Option Str
  headers : List (Str × Bytes)
  body : Option Bytes

structure HttpResponse where
  status : UInt16
  headers : List (Str × Bytes)
  body : Bytes
  deriving DecidableEq

/-- The third-party code the handler calls: JSON decoding and `kinetic_verify`, the
parser of peer ids, and the methods and the response builder of the http library. -/
structure Libraries (Reveal : Type) where
  parseReveal : Bytes → Option Reveal
  payload : Reveal → Bytes
  verifySignature : Reveal → (networkId : Str) → Except Str Unit
  parseZone : Bytes → Option DnsZone
  parsePeerId : Str → Option PeerId
  methodKnown : Str → Bool
  buildResponse : UInt16 → List (Str × Bytes) → Bytes → Option HttpResponse

/-- What comes back over a swarm's channel: the command could not be sent, its
responder was dropped, or it was answered. -/
inductive ChannelAnswer (V : Type)
  | sendFailed
  | dropped
  | answered (value : Option V)

/-- What a run of the handler meets; gateways and peers by the number of the attempt. -/
structure Answers where
  swarm : Bool
  record : ChannelAnswer Bytes
  gateway : ℕ → Except Str HttpResponse
  peer : ℕ → ChannelAnswer ProxyResponse

inductive Effect
  | getOrSpawnSwarm (tld : Str) (config : NetworkConfig)
  | getRecord (domain : Str)
  | gatewayRequest (method url : Str) (headers : List (Str × Str)) (body : Bytes)
  | sendProxyRequest (peerId : PeerId) (request : ProxyRequest)
  deriving DecidableEq

/-- The outcome of the handler with what it has asked of others, in order. -/
structure Handled where
  effects : List Effect
  result : Except AtlasError HttpResponse

/-- `HeaderValue::to_str`: visible ASCII only. -/
def toStr (value : Bytes) : Option Str :=
  if value.all (fun b => (32 ≤ b ∧ b < 127) ∨ b = 9) then
    some (value.map fun b => Char.ofNat b.toNat)
  else none

/-- The host without its port, in lower case. -/
def fullDomainOf (headers : List (Str × Bytes)) : Except AtlasError Str :=
  match headers.lookup "host".toList with
  | none => .error (.invalidProxyRequest "Missing host header")
  | some h =>
    match toStr h with
    | none => .error (.invalidProxyRequest "Invalid host header format")
    | some s => .ok ((s.takeWhile (· ≠ ':')).map Char.toLower)

/-- Everything from the last dot on. -/
def tldOf (fullDomain : Str) : Except AtlasError Str :=
  if '.' ∈ fullDomain then .ok ('.' :: fullDomain.rtakeWhile (· ≠ '.'))
  else .error (.invalidProxyRequest "Invalid domain structure: No TLD")

structure Route where
  fullDomain : Str
  cleanTld : Str
  config : NetworkConfig
  baseDomain : Str
  subdomain : Str

def route (registry : TldRegistry) (req : HttpRequest) : Except AtlasError Route := do
  let fullDomain ← fullDomainOf req.headers
  let cleanTld ← tldOf fullDomain
  match registry.getConfig cleanTld with
  | none => .error .tldBlacklisted
  | some config =>
    match extractBaseDomainAndSubdomain fullDomain cleanTld with
    | none => .error (.invalidProxyRequest "Could not parse base domain")
    | some (baseDomain, subdomain) => .ok ⟨fullDomain, cleanTld, config, baseDomain, subdomain⟩

variable {Reveal : Type}

def notInDht : AtlasError := .dnsResolutionFailed "Domain not found in DHT"

def invalidFormat : AtlasError := .dnsResolutionFailed "Invalid DHT payload format"

def invalidSignature (e : Str) : AtlasError :=
  .dnsResolutionFailed ("Invalid DHT payload signature: ".toList ++ e)

def invalidZone : AtlasError := .dnsResolutionFailed "Invalid DNS zone format"

def verifyRecord (lib : Libraries Reveal) (networkId : Str) (dhtBytes : Bytes) :
    Except AtlasError DnsZone :=
  match lib.parseReveal dhtBytes with
  | none => .error invalidFormat
  | some reveal =>
    match lib.verifySignature reveal networkId with
    | .error e => .error (invalidSignature e)
    | .ok () =>
      match lib.parseZone (lib.payload reveal) with
      | none => .error invalidZone
      | some zone => .ok zone

/-- The apex falls back to www. -/
def recordsOf (zone : DnsZone) (subdomain : Str) : Except AtlasError (List DnsRecord) :=
  match zone.records subdomain with
  | some records => .ok records
  | none =>
    if subdomain = apex then
      match zone.records "www" with
      | some records => .ok records
      | none => .error (.dnsResolutionFailed "No usable records in domain zone")
    else .error (.dnsResolutionFailed "Subdomain not found in zone")

def isTarget : DnsRecord → Bool
  | .ipfs _ => true
  | .peerId _ => true
  | _ => false

def targetsOf (zone : DnsZone) (subdomain : Str) : Except AtlasError (List DnsRecord) :=
  match recordsOf zone subdomain with
  | .error e => .error e
  | .ok records =>
    match records.filter isTarget with
    | [] => .error (.dnsResolutionFailed "No target records found")
    | target :: rest => .ok (target :: rest)

/-- The parts of the request that are sent on. -/
structure Forward where
  method : Str
  path : Str
  proxyHeaders : List (Str × Str)
  body : Bytes

def proxyHeadersOf (headers : List (Str × Bytes)) : List (Str × Str) :=
  headers.filterMap fun header => (toStr header.2).map fun v => (header.1, v)

def maxBody : ℕ := 10 * 1024 * 1024

def readBody (body : Option Bytes) : Except AtlasError Bytes :=
  match body with
  | some bytes =>
    if bytes.length ≤ maxBody then .ok bytes
    else .error (.invalidProxyRequest "Failed to read body")
  | none => .error (.invalidProxyRequest "Failed to read body")

def gatewayOf (globalConfig : AtlasConfig) (config : NetworkConfig) : Str :=
  globalConfig.overrideIpfsGateway.getD (config.ipfsGateway.getD defaultIpfsGateway)

def ipfsUrl (gateway cid path : Str) : Str :=
  gateway ++ "/ipfs/".toList ++ cid ++ if path = "/".toList then [] else path

def respond (lib : Libraries Reveal) (status : UInt16) (headers : List (Str × Bytes))
    (body : Bytes) : Except AtlasError HttpResponse :=
  match lib.buildResponse status headers body with
  | some response => .ok response
  | none => .error .proxyTargetFailed

/-- One round of the failover: a result ends it, no result moves on to the next target. -/
def attemptTarget (lib : Libraries Reveal) (gateway : Str) (answers : Answers) (fwd : Forward)
    (i : ℕ) : DnsRecord → List Effect × Option (Except AtlasError HttpResponse)
  | .ipfs cid =>
    let request := Effect.gatewayRequest
      (if lib.methodKnown fwd.method then fwd.method else "GET".toList)
      (ipfsUrl gateway cid fwd.path)
      (fwd.proxyHeaders.filter fun header => header.1 ≠ "host".toList) fwd.body
    match answers.gateway i with
    | .ok res => ([request], some (respond lib res.status res.headers res.body))
    | .error _ => ([request], none)
  | .peerId peerStr =>
    match lib.parsePeerId peerStr with
    | none => ([], none)
    | some peerId =>
      let request :=
        Effect.sendProxyRequest peerId ⟨fwd.method, fwd.path, fwd.proxyHeaders, fwd.body⟩
      match answers.peer i with
      | .sendFailed => ([], none)
      | .answered (some res) =>
        let headers := res.headers.map fun header =>
          (header.1, header.2.flatMap String.utf8EncodeChar)
        ([request], some (respond lib res.status headers res.body))
      | _ => ([request], none)
  | _ => ([], none)

def failover (lib : Libraries Reveal) (gateway : Str) (answers : Answers) (fwd : Forward) :
    ℕ → List DnsRecord → Handled
  | _, [] => ⟨[], .error .proxyTargetFailed⟩
  | i, target :: rest =>
    match attemptTarget lib gateway answers fwd i target with
    | (effects, some result) => ⟨effects, result⟩
    | (effects, none) =>
      let later := failover lib gateway answers fwd (i + 1) rest
      ⟨effects ++ later.effects, later.result⟩

def handleProxyRequest (lib : Libraries Reveal) (globalConfig : AtlasConfig)
    (registry : TldRegistry) (answers : Answers) (req : HttpRequest) : Handled :=
  match route registry req with
  | .error e => ⟨[], .error e⟩
  | .ok r =>
    let spawn := Effect.getOrSpawnSwarm r.cleanTld r.config
    if answers.swarm then
      match answers.record with
      | .sendFailed =>
        ⟨[spawn], .error (.dnsResolutionFailed "Failed to communicate with swarm")⟩
      | .answered (some dhtBytes) =>
        let targets := do
          let zone ← verifyRecord lib r.config.networkId dhtBytes
          let targets ← targetsOf zone r.subdomain
          let body ← readBody req.body
          pure (targets, body)
        match targets with
        | .error e => ⟨[spawn, .getRecord r.baseDomain], .error e⟩
        | .ok (targets, body) =>
          let fwd :=
            ⟨req.method, req.pathAndQuery.getD "/".toList, proxyHeadersOf req.headers, body⟩
          let forwarded :=
            failover lib (gatewayOf globalConfig r.config) answers fwd 0 targets
          ⟨[spawn, .getRecord r.baseDomain] ++ forwarded.effects, forwarded.result⟩
      | _ => ⟨[spawn, .getRecord r.baseDomain], .error notInDht⟩
    else
      ⟨[spawn], .error (.networkInitFailed
        ("Failed to connect to network for TLD ".toList ++ r.cleanTld))⟩

/-- The record is a Reveal, its signature verifies for the network and its payload is
a zone. -/
def Verifies (lib : Libraries Reveal) (networkId : Str) (dhtBytes : Bytes) : Prop :=
  ∃ reveal zone, lib.parseReveal dhtBytes = some reveal ∧
    lib.verifySignature reveal networkId = .ok () ∧ lib.parseZone (lib.payload reveal) = some zone

/-- The errors that say no record was found or its bytes were turned down. -/
def isResolutionError : AtlasError → Bool
  | .dnsResolutionFailed reason =>
    reason = "Domain not found in DHT".toList ∨
      reason = "Invalid DHT payload format".toList ∨
      "Invalid DHT payload signature: ".toList <+: reason ∨
      reason = "Invalid DNS zone format".toList
  | _ => false

/-- Whatever becomes of the request, the answer of the DHT was accepted as its record. -/
def Resolved (handled : Handled) : Prop :=
  ∀ e, handled.result = .error e → isResolutionError e = false

variable {lib : Libraries Reveal} {globalConfig : AtlasConfig} {registry : TldRegistry}
  {answers : Answers} {req : HttpRequest} {r : Route}

theorem isResolutionError_invalidSignature (e : Str) :
    isResolutionError (invalidSignature e) = true := by
  unfold isResolutionError invalidSignature
  exact decide_eq_true (Or.inr (Or.inr (Or.inl (List.prefix_append _ e))))

/-- The checks succeed on a verifying record and else end in a resolution error. -/
theorem verifyRecord_spec (lib : Libraries Reveal) (networkId : Str) (dhtBytes : Bytes) :
    (Verifies lib networkId dhtBytes ∧ ∃ zone, verifyRecord lib networkId dhtBytes = .ok zone) ∨
      (¬ Verifies lib networkId dhtBytes ∧
        ∃ e, verifyRecord lib networkId dhtBytes = .error e ∧ isResolutionError e = true) := by
  unfold verifyRecord
  cases hreveal : lib.parseReveal dhtBytes with
  | none =>
    refine Or.inr ⟨?_, _, rfl, by decide⟩
    rintro ⟨reveal, zone, hr, -⟩
    simp [hreveal] at hr
  | some reveal =>
    cases hsig : lib.verifySignature reveal networkId with
    | error e =>
      refine Or.inr ⟨?_, invalidSignature e, by simp only [hsig],
        isResolutionError_invalidSignature e⟩
      rintro ⟨reveal', zone, hr, hs, -⟩
      obtain rfl : reveal = reveal' := Option.some.inj (hreveal.symm.trans hr)
      simp [hsig] at hs
    | ok _ =>
      cases hzone : lib.parseZone (lib.payload reveal) with
      | none =>
        refine Or.inr ⟨?_, invalidZone, by simp only [hsig, hzone], by decide⟩
        rintro ⟨reveal', zone, hr, -, hz⟩
        obtain rfl : reveal = reveal' := Option.some.inj (hreveal.symm.trans hr)
        simp [hzone] at hz
      | some zone =>
        exact Or.inl ⟨⟨reveal, zone, hreveal, hsig, hzone⟩, zone, by simp only [hsig, hzone]⟩

theorem recordsOf_error {zone : DnsZone} {subdomain : Str} {e : AtlasError}
    (h : recordsOf zone subdomain = .error e) : isResolutionError e = false := by
  unfold recordsOf at h
  split at h
  · cases h
  · split at h
    · split at h
      · cases h
      · cases h
        decide
    · cases h
      decide

theorem targetsOf_error {zone : DnsZone} {subdomain : Str} {e : AtlasError}
    (h : targetsOf zone subdomain = .error e) : isResolutionError e = false := by
  unfold targetsOf at h
  split at h
  · rename_i hrecords
    cases h
    exact recordsOf_error hrecords
  · split at h
    · cases h
      decide
    · cases h

theorem readBody_error {body : Option Bytes} {e : AtlasError} (h : readBody body = .error e) :
    isResolutionError e = false := by
  unfold readBody at h
  split at h
  · split at h
    · cases h
    · cases h
      decide
  · cases h
    decide

theorem respond_error {status : UInt16} {headers : List (Str × Bytes)} {body : Bytes}
    {e : AtlasError} (h : respond lib status headers body = .error e) : e = .proxyTargetFailed := by
  unfold respond at h
  split at h
  · cases h
  · cases h
    rfl

theorem attemptTarget_error {gateway : Str} {fwd : Forward} {i : ℕ} {target : DnsRecord}
    {e : AtlasError} (h : (attemptTarget lib gateway answers fwd i target).2 = some (.error e)) :
    e = .proxyTargetFailed := by
  cases target with
  | ipfs cid =>
    cases hg : answers.gateway i with
    | ok res =>
      simp only [attemptTarget, hg, Option.some.injEq] at h
      exact respond_error h
    | error _ => simp [attemptTarget, hg] at h
  | peerId peerStr =>
    cases hp : lib.parsePeerId peerStr with
    | none => simp [attemptTarget, hp] at h
    | some peerId =>
      cases ha : answers.peer i with
      | sendFailed => simp [attemptTarget, hp, ha] at h
      | dropped => simp [attemptTarget, hp, ha] at h
      | answered value =>
        cases value with
        | none => simp [attemptTarget, hp, ha] at h
        | some res =>
          simp only [attemptTarget, hp, ha, Option.some.injEq] at h
          exact respond_error h
  | a | aaaa | cname | txt | kid | other => simp [attemptTarget] at h

/-- A target has a request sent to the gateway for its content, or one to a peer. -/
theorem attemptTarget_effect {gateway : Str} {fwd : Forward} {i : ℕ} {target : DnsRecord}
    {effect : Effect} (h : effect ∈ (attemptTarget lib gateway answers fwd i target).1) :
    (∃ cid method headers, target = .ipfs cid ∧
        effect = .gatewayRequest method (ipfsUrl gateway cid fwd.path) headers fwd.body) ∨
      ∃ peerId request, effect = .sendProxyRequest peerId request := by
  cases target with
  | ipfs cid =>
    left
    cases hg : answers.gateway i with
    | ok res =>
      simp only [attemptTarget, hg] at h
      exact ⟨cid, _, _, rfl, List.mem_singleton.mp h⟩
    | error _ =>
      simp only [attemptTarget, hg] at h
      exact ⟨cid, _, _, rfl, List.mem_singleton.mp h⟩
  | peerId peerStr =>
    right
    cases hp : lib.parsePeerId peerStr with
    | none => simp [attemptTarget, hp] at h
    | some peerId =>
      cases ha : answers.peer i with
      | sendFailed => simp [attemptTarget, hp, ha] at h
      | dropped =>
        simp only [attemptTarget, hp, ha] at h
        exact ⟨_, _, List.mem_singleton.mp h⟩
      | answered value =>
        cases value with
        | none =>
          simp only [attemptTarget, hp, ha] at h
          exact ⟨_, _, List.mem_singleton.mp h⟩
        | some res =>
          simp only [attemptTarget, hp, ha] at h
          exact ⟨_, _, List.mem_singleton.mp h⟩
  | a | aaaa | cname | txt | kid | other => simp [attemptTarget] at h

/-- The failover ends in a response or in one error. -/
theorem failover_error {gateway : Str} {fwd : Forward} {i : ℕ} {targets : List DnsRecord}
    {e : AtlasError} (h : (failover lib gateway answers fwd i targets).result = .error e) :
    e = .proxyTargetFailed := by
  induction targets generalizing i with
  | nil => simpa [failover] using h.symm
  | cons target rest ih =>
    cases hattempt : attemptTarget lib gateway answers fwd i target with
    | mk effects result =>
      cases result with
      | some result =>
        simp only [failover, hattempt] at h
        subst result
        exact attemptTarget_error (congrArg Prod.snd hattempt)
      | none =>
        simp only [failover, hattempt] at h
        exact ih h

/-- What the failover asks of others it asks for one of the targets. -/
theorem failover_effect {gateway : Str} {fwd : Forward} {i : ℕ} {targets : List DnsRecord}
    {effect : Effect} (h : effect ∈ (failover lib gateway answers fwd i targets).effects) :
    ∃ j, ∃ target ∈ targets, effect ∈ (attemptTarget lib gateway answers fwd j target).1 := by
  induction targets generalizing i with
  | nil => simp [failover] at h
  | cons target rest ih =>
    cases hattempt : attemptTarget lib gateway answers fwd i target with
    | mk effects result =>
      have hfirst : ∀ e ∈ effects, ∃ j, ∃ t ∈ target :: rest,
          e ∈ (attemptTarget lib gateway answers fwd j t).1 := fun e he =>
        ⟨i, target, List.mem_cons_self, by rw [hattempt]; exact he⟩
      cases result with
      | some result =>
        simp only [failover, hattempt] at h
        exact hfirst effect h
      | none =>
        simp only [failover, hattempt] at h
        rcases List.mem_append.mp h with hnow | hlater
        · exact hfirst effect hnow
        · obtain ⟨j, t, ht, he⟩ := ih hlater
          exact ⟨j, t, List.mem_cons_of_mem target ht, he⟩

/-- A request that is routed has passed the four stages of routing. -/
theorem route_parts (h : route registry req = .ok r) :
    fullDomainOf req.headers = .ok r.fullDomain ∧ tldOf r.fullDomain = .ok r.cleanTld ∧
      registry.getConfig r.cleanTld = some r.config ∧
      extractBaseDomainAndSubdomain r.fullDomain r.cleanTld = some (r.baseDomain, r.subdomain) := by
  cases hhost : fullDomainOf req.headers with
  | error e => simp [route, hhost, bind, Except.bind] at h
  | ok fullDomain =>
    cases htld : tldOf fullDomain with
    | error e => simp [route, hhost, htld, bind, Except.bind] at h
    | ok cleanTld =>
      cases hconfig : registry.getConfig cleanTld with
      | none => simp [route, hhost, htld, hconfig, bind, Except.bind] at h
      | some config =>
        cases hsplit : extractBaseDomainAndSubdomain fullDomain cleanTld with
        | none => simp [route, hhost, htld, hconfig, hsplit, bind, Except.bind] at h
        | some split =>
          obtain rfl : (⟨fullDomain, cleanTld, config, split.1, split.2⟩ : Route) = r := by
            simpa [route, hhost, htld, hconfig, hsplit, bind, Except.bind] using h
          exact ⟨rfl, htld, hconfig, hsplit⟩

theorem route_config (h : route registry req = .ok r) :
    registry.getConfig r.cleanTld = some r.config :=
  (route_parts h).2.2.1

/-- What precedes the failover, once it has succeeded. -/
theorem targets_of_ok {networkId subdomain : Str} {dhtBytes : Bytes} {content : Option Bytes}
    {targets : List DnsRecord} {body : Bytes}
    (h : (do
        let zone ← verifyRecord lib networkId dhtBytes
        let targets ← targetsOf zone subdomain
        let body ← readBody content
        pure (targets, body)) = .ok (targets, body)) :
    ∃ zone, verifyRecord lib networkId dhtBytes = .ok zone ∧
      targetsOf zone subdomain = .ok targets := by
  cases hverify : verifyRecord lib networkId dhtBytes with
  | error e => simp [hverify, bind, Except.bind] at h
  | ok zone =>
    cases htargets : targetsOf zone subdomain with
    | error e => simp [hverify, htargets, bind, Except.bind] at h
    | ok found =>
      cases hbody : readBody content with
      | error e => simp [hverify, htargets, hbody, bind, Except.bind] at h
      | ok bytes =>
        simp only [hverify, htargets, hbody, bind, Except.bind, pure, Except.pure,
          Except.ok.injEq, Prod.mk.injEq] at h
        exact ⟨zone, rfl, by rw [← h.1]; exact htargets⟩

/-- The handler asks for a swarm, for the record of the domain it has routed the request
to, and then for what the failover over the targets of its zone asks for. -/
theorem handled_effect {effect : Effect}
    (h : effect ∈ (handleProxyRequest lib globalConfig registry answers req).effects) :
    ∃ r, route registry req = .ok r ∧
      (effect = .getOrSpawnSwarm r.cleanTld r.config ∨ effect = .getRecord r.baseDomain ∨
        ∃ dhtBytes zone targets body, answers.record = .answered (some dhtBytes) ∧
          verifyRecord lib r.config.networkId dhtBytes = .ok zone ∧
          targetsOf zone r.subdomain = .ok targets ∧
          effect ∈ (failover lib (gatewayOf globalConfig r.config) answers
            ⟨req.method, req.pathAndQuery.getD "/".toList, proxyHeadersOf req.headers, body⟩
            0 targets).effects) := by
  cases hroute : route registry req with
  | error e => simp [handleProxyRequest, hroute] at h
  | ok r =>
    refine ⟨r, rfl, ?_⟩
    have hsent : ∀ later : List Effect,
        effect ∈ [.getOrSpawnSwarm r.cleanTld r.config, .getRecord r.baseDomain] ++ later →
          effect = .getOrSpawnSwarm r.cleanTld r.config ∨ effect = .getRecord r.baseDomain ∨
            effect ∈ later := by
      intro later hmem
      simpa using hmem
    simp only [handleProxyRequest, hroute] at h
    split at h
    · split at h
      · exact Or.inl (List.mem_singleton.mp h)
      · split at h
        · exact (hsent [] h).imp_right fun hlater => Or.inl (by simpa using hlater)
        · rename_i dhtBytes hrecord _ targets body hready
          obtain ⟨zone, hverify, htargets⟩ := targets_of_ok hready
          exact (hsent _ h).imp_right fun hlater => hlater.imp_right fun hfailover =>
            ⟨dhtBytes, zone, targets, body, hrecord, hverify, htargets, hfailover⟩
      · exact (hsent [] h).imp_right fun hlater => Or.inl (by simpa using hlater)
    · exact Or.inl (List.mem_singleton.mp h)

theorem handled_of_route_error {e : AtlasError} (h : route registry req = .error e) :
    handleProxyRequest lib globalConfig registry answers req = ⟨[], .error e⟩ := by
  simp only [handleProxyRequest, h]

/-- What the handler makes of a record that the swarm has answered with. -/
theorem resolved_iff_verifies {dhtBytes : Bytes} (hroute : route registry req = .ok r)
    (hswarm : answers.swarm = true) (hrecord : answers.record = .answered (some dhtBytes)) :
    Resolved (handleProxyRequest lib globalConfig registry answers req) ↔
      Verifies lib r.config.networkId dhtBytes := by
  rcases verifyRecord_spec lib r.config.networkId dhtBytes with
    ⟨hverifies, zone, hzone⟩ | ⟨hnot, e, herror, hreject⟩
  · refine ⟨fun _ => hverifies, fun _ e he => ?_⟩
    cases htargets : targetsOf zone r.subdomain with
    | error e' =>
      have heq : e' = e := by
        simpa [handleProxyRequest, hroute, hswarm, hrecord, hzone, htargets, bind, Except.bind]
          using he
      exact heq ▸ targetsOf_error htargets
    | ok targets =>
      cases hbody : readBody req.body with
      | error e' =>
        have heq : e' = e := by
          simpa [handleProxyRequest, hroute, hswarm, hrecord, hzone, htargets, hbody, bind,
            Except.bind] using he
        exact heq ▸ readBody_error hbody
      | ok body =>
        simp only [handleProxyRequest, hroute, hswarm, hrecord, hzone, htargets, hbody, bind,
          Except.bind, pure, Except.pure, if_true] at he
        rw [failover_error he]
        rfl
  · refine ⟨fun hresolved => ?_, fun hverifies => absurd hverifies hnot⟩
    have hresult : (handleProxyRequest lib globalConfig registry answers req).result =
        .error e := by
      simp [handleProxyRequest, hroute, hswarm, hrecord, herror, bind, Except.bind]
    rw [hresolved e hresult] at hreject
    cases hreject

theorem not_resolved_of_no_record (hroute : route registry req = .ok r)
    (hswarm : answers.swarm = true) (hrecord : answers.record = .answered none) :
    ¬ Resolved (handleProxyRequest lib globalConfig registry answers req) := by
  intro hresolved
  have hresult : (handleProxyRequest lib globalConfig registry answers req).result =
      .error notInDht := by
    simp [handleProxyRequest, hroute, hswarm, hrecord]
  exact absurd (hresolved notInDht hresult) (by decide)

/-- Two requests under one TLD accept the same records, whatever domains they ask for. -/
theorem acceptance_ignores_domain {req₁ req₂ : HttpRequest} {r₁ r₂ : Route}
    {answers₁ answers₂ : Answers} (dhtBytes : Bytes)
    (hroute₁ : route registry req₁ = .ok r₁) (hroute₂ : route registry req₂ = .ok r₂)
    (htld : r₁.cleanTld = r₂.cleanTld)
    (hanswers₁ : answers₁.swarm = true ∧ answers₁.record = .answered (some dhtBytes))
    (hanswers₂ : answers₂.swarm = true ∧ answers₂.record = .answered (some dhtBytes)) :
    Resolved (handleProxyRequest lib globalConfig registry answers₁ req₁) ↔
      Resolved (handleProxyRequest lib globalConfig registry answers₂ req₂) := by
  have hconfig : r₁.config = r₂.config := by
    have h₁ := route_config hroute₁
    rw [htld, route_config hroute₂] at h₁
    exact (Option.some.inj h₁).symm
  rw [resolved_iff_verifies hroute₁ hanswers₁.1 hanswers₁.2,
    resolved_iff_verifies hroute₂ hanswers₂.1 hanswers₂.2, hconfig]

def ascii (s : Str) : Bytes := s.map fun c => UInt8.ofNat c.toNat

def kinNetwork : NetworkConfig :=
  ⟨"1.0", "kin-net", "kin", [], "127.0.0.1", none, none, none, none⟩

def kinRegistry : TldRegistry where
  networks tld := if tld = ".kin".toList then some kinNetwork else none

def zoneJson : Bytes :=
  ascii "\x7b\"records\":\x7b\"@\":[\x7b\"type\":\"IPFS\",\"value\":\"cid\"\x7d]\x7d\x7d"

def zoneOfA : DnsZone where
  records key := if key = apex then some [.ipfs "cid"] else none

/-- A reveal of the zone, by its bytes; its signature is good for `kin-net` only. -/
def revealOfA : Bytes := ascii "reveal of a.kin"

def sampleLibraries : Libraries Bytes where
  parseReveal bytes := if bytes = revealOfA then some bytes else none
  payload _ := zoneJson
  verifySignature _ networkId :=
    if networkId = "kin-net".toList then .ok () else .error "signature mismatch"
  parseZone bytes := if bytes = zoneJson then some zoneOfA else none
  parsePeerId _ := none
  methodKnown _ := true
  buildResponse status headers body := some ⟨status, headers, body⟩

def globalDefaults : AtlasConfig :=
  ⟨"1.0", [], [], 17002, "http://127.0.0.1:16202", "", "networks", none, none, none⟩

def requestFor (host : Str) : HttpRequest :=
  ⟨"GET", some "/", [("host", ascii host)], some []⟩

def revealAnswered : Answers :=
  ⟨true, .answered (some revealOfA), fun _ => .error "unreachable", fun _ => .dropped⟩

theorem revealOfA_verifies : Verifies sampleLibraries "kin-net" revealOfA :=
  ⟨revealOfA, zoneOfA, rfl, rfl, rfl⟩

theorem acceptance_ignores_domain_kin :
    Resolved (handleProxyRequest sampleLibraries globalDefaults kinRegistry revealAnswered
        (requestFor "a.kin")) ↔
      Resolved (handleProxyRequest sampleLibraries globalDefaults kinRegistry revealAnswered
        (requestFor "b.kin")) :=
  acceptance_ignores_domain revealOfA rfl rfl rfl ⟨rfl, rfl⟩ ⟨rfl, rfl⟩

/-- The zone signed for `a.kin` is accepted for `b.kin` as well. -/
theorem record_accepted_for_two_domains :
    ∃ r₁ r₂, route kinRegistry (requestFor "a.kin") = .ok r₁ ∧
      route kinRegistry (requestFor "b.kin") = .ok r₂ ∧
      r₁.cleanTld = r₂.cleanTld ∧ r₁.baseDomain ≠ r₂.baseDomain ∧
      Resolved (handleProxyRequest sampleLibraries globalDefaults kinRegistry revealAnswered
        (requestFor "a.kin")) ∧
      Resolved (handleProxyRequest sampleLibraries globalDefaults kinRegistry revealAnswered
        (requestFor "b.kin")) :=
  ⟨_, _, rfl, rfl, rfl, by decide,
    (resolved_iff_verifies rfl rfl rfl).mpr revealOfA_verifies,
    (resolved_iff_verifies rfl rfl rfl).mpr revealOfA_verifies⟩

end KineticAtlas.ProxyHandler
