import KineticAtlas.ProxyHandler
import KineticAtlas.Library.Json

/-!
The errors of the daemon and what a client sees of them (error.rs). An error becomes a
problem document, which is read back as it was written unless its details are null. The
status of a failed request tells at which stage the handler has stopped, and a client is
told to retry exactly where the fault is not its own.
-/
namespace KineticAtlas.ErrorResponses

open Library.Texts Library.Json KineticAtlas.Types Registry ProxyHandler

def code : AtlasError → Str
  | .networkInitFailed _ => "KIN-ATL-001"
  | .dnsResolutionFailed _ => "KIN-ATL-002"
  | .configError _ => "KIN-ATL-003"
  | .invalidProxyRequest _ => "KIN-ATL-004"
  | .proxyTargetFailed => "KIN-ATL-005"
  | .updaterFailed _ => "KIN-ATL-006"
  | .tldBlacklisted => "KIN-ATL-007"

def errorTypeUri (e : AtlasError) : Str := "https://docs.kinetic.network/errors/".toList ++ code e

def isRetryable : AtlasError → Bool
  | .networkInitFailed _ => true
  | .dnsResolutionFailed _ => true
  | .updaterFailed _ => true
  | .proxyTargetFailed => true
  | _ => false

/-- The derived `Display`. -/
def toText : AtlasError → Str
  | .networkInitFailed reason => "Swarm network initialization failed: ".toList ++ reason
  | .dnsResolutionFailed reason => "Failed to resolve DNS tree: ".toList ++ reason
  | .configError reason => "Configuration error: ".toList ++ reason
  | .invalidProxyRequest reason => "Invalid proxy request: ".toList ++ reason
  | .proxyTargetFailed => "All proxy targets failed for domain"
  | .updaterFailed reason => "Auto-updater failed to fetch from GitHub: ".toList ++ reason
  | .tldBlacklisted => "The requested TLD is blacklisted"

def userMessage (e : AtlasError) : Str := toText e

def details (_ : AtlasError) : Value := .obj []

/-- `instance` in the source. -/
structure ApiError where
  errorType : Str
  title : Str
  status : UInt16
  detail : Str
  instanceUri : Option Str
  code : Str
  retryable : Bool
  details : Value
  requestId : Str

def currentRequestId : Str := "atlas-req-id-placeholder"

def statusTitle : AtlasError → UInt16 × Str
  | .networkInitFailed _ => (500, "Network Initialization Failed")
  | .dnsResolutionFailed _ => (502, "DNS Resolution Failed")
  | .configError _ => (500, "Server Configuration Error")
  | .invalidProxyRequest _ => (400, "Invalid Proxy Request")
  | .proxyTargetFailed => (502, "Bad Gateway")
  | .updaterFailed _ => (500, "Auto-Updater Error")
  | .tldBlacklisted => (403, "Domain Blacklisted")

def status (e : AtlasError) : UInt16 := (statusTitle e).1

/-- `From<AtlasError>`. -/
def ApiError.ofError (e : AtlasError) : ApiError where
  errorType := errorTypeUri e
  title := (statusTitle e).2
  status := ErrorResponses.status e
  detail := userMessage e
  instanceUri := none
  code := ErrorResponses.code e
  retryable := isRetryable e
  details := ErrorResponses.details e
  requestId := currentRequestId

/-- A member that may be skipped. -/
def skippable (name : Str) (value : Option Value) : Members :=
  (value.map fun v => (name, v)).toList

def nonNull : Value → Option Value
  | .null => none
  | value => some value

def membersOf (api : ApiError) : Members :=
  [("type".toList, .str api.errorType), ("title".toList, .str api.title),
      ("status".toList, .int api.status.toNat), ("detail".toList, .str api.detail)] ++
    (skippable "instance" (api.instanceUri.map .str) ++
      ([("code".toList, .str api.code), ("retryable".toList, .bool api.retryable)] ++
        (skippable "details" (nonNull api.details) ++
          [("request_id".toList, .str api.requestId)])))

def toJson (api : ApiError) : Value := .obj (membersOf api)

def asBool : Value → Option Bool
  | .bool b => some b
  | _ => none

/-- A missing `instance` is none; missing `details` are an error. -/
def decodeApiError (value : Value) : Option ApiError := do
  let field ← structFields 9 value
  let errorType ← required asStr (field "type" 0)
  let title ← required asStr (field "title" 1)
  let status ← required asU16 (field "status" 2)
  let detail ← required asStr (field "detail" 3)
  let instanceUri ← defaulted (asOption asStr) none (field "instance" 4)
  let code ← required asStr (field "code" 5)
  let retryable ← required asBool (field "retryable" 6)
  let details ← required some (field "details" 7)
  let requestId ← required asStr (field "request_id" 8)
  pure ⟨errorType, title, status, detail, instanceUri, code, retryable, details, requestId⟩

theorem skippable_names (name : Str) (value : Option Value) :
    ((skippable name value).map Prod.fst).Sublist [name] := by
  cases value with
  | none => exact List.nil_sublist _
  | some v => exact List.Sublist.refl _

/-- No name is written twice. -/
theorem membersOf_nodup (api : ApiError) : ((membersOf api).map Prod.fst).Nodup := by
  have hnames : ((membersOf api).map Prod.fst).Sublist
      (["type".toList, "title".toList, "status".toList, "detail".toList] ++ (["instance".toList] ++
        (["code".toList, "retryable".toList] ++ (["details".toList] ++
          ["request_id".toList])))) := by
    simp only [membersOf, List.map_append]
    exact (List.Sublist.refl _).append ((skippable_names _ _).append
      ((List.Sublist.refl _).append ((skippable_names _ _).append (List.Sublist.refl _))))
  exact hnames.nodup (by decide)

theorem member_membersOf (api : ApiError) (name : Str) :
    member name (membersOf api) = some ((membersOf api).lookup name) :=
  member_of_nodup name (membersOf_nodup api)

theorem lookup_details (api : ApiError) :
    (membersOf api).lookup "details".toList = nonNull api.details := by
  cases hi : api.instanceUri <;> cases hd : api.details <;>
    simp only [membersOf, hi, hd] <;> rfl

theorem lookup_late (api : ApiError) :
    (membersOf api).lookup "instance".toList = api.instanceUri.map .str ∧
      (membersOf api).lookup "code".toList = some (.str api.code) ∧
      (membersOf api).lookup "retryable".toList = some (.bool api.retryable) ∧
      (membersOf api).lookup "request_id".toList = some (.str api.requestId) := by
  cases hi : api.instanceUri <;> cases hd : api.details <;>
    simp only [membersOf, hi, hd] <;> exact ⟨rfl, rfl, rfl, rfl⟩

theorem defaulted_instance (text : Option Str) :
    defaulted (asOption asStr) none (some (text.map .str)) = some text := by
  cases text <;> rfl

/-- What is read from a problem document, down to its details. -/
theorem decodeApiError_toJson (api : ApiError) :
    decodeApiError (toJson api) = (nonNull api.details).map fun _ => api := by
  have htype : (membersOf api).lookup "type".toList = some (.str api.errorType) := rfl
  have htitle : (membersOf api).lookup "title".toList = some (.str api.title) := rfl
  have hstatus : (membersOf api).lookup "status".toList = some (.int api.status.toNat) := rfl
  have hdetail : (membersOf api).lookup "detail".toList = some (.str api.detail) := rfl
  obtain ⟨hinstance, hcode, hretryable, hrequest⟩ := lookup_late api
  have hu16 : required asU16 (some (some (.int api.status.toNat))) = some api.status :=
    asU16_toNat api.status
  have hstr : ∀ text, required asStr (some (some (.str text))) = some text := fun _ => rfl
  have hbool : ∀ b, required asBool (some (some (.bool b))) = some b := fun _ => rfl
  simp only [decodeApiError, toJson, structFields, member_membersOf, htype, htitle, hstatus,
    hdetail, hinstance, hcode, hretryable, hrequest, lookup_details, hu16, hstr, hbool,
    defaulted_instance, Option.bind_eq_bind, Option.bind_some]
  cases hd : api.details <;> simp only [nonNull] <;> first | rfl | (rw [← hd]; rfl)

/-- An ApiError comes back from its JSON form exactly if its details are not null; without
them the form cannot be read at all. -/
theorem api_error_round_trip (api : ApiError) :
    (decodeApiError (toJson api) = some api ↔ api.details ≠ .null) ∧
      (decodeApiError (toJson api) = none ↔ api.details = .null) := by
  rw [decodeApiError_toJson]
  cases hd : api.details <;> simp [nonNull]

/-- A status out of the range of the http library becomes 500. -/
def intoResponse (toVec : Value → Bytes) (api : ApiError) : HttpResponse where
  status := if 100 ≤ api.status ∧ api.status ≤ 999 then api.status else 500
  headers := [("content-type".toList, ascii "application/json")]
  body := toVec (toJson api)

/-- What a client is sent when the handler has ended. -/
def sent (toVec : Value → Bytes) (handled : Handled) : HttpResponse :=
  match handled.result with
  | .ok response => response
  | .error e => intoResponse toVec (ApiError.ofError e)

def ofGateway : Effect → Bool
  | .gatewayRequest .. => true
  | .sendProxyRequest .. => true
  | _ => false

variable {Reveal : Type}

/-- The record of the domain is there, is signed for the network and names a target. -/
def TargetsFound (lib : Libraries Reveal) (answers : Answers) (r : Route) : Prop :=
  ∃ dhtBytes zone targets, answers.record = .answered (some dhtBytes) ∧
    verifyRecord lib r.config.networkId dhtBytes = .ok zone ∧
    targetsOf zone r.subdomain = .ok targets

/-- The body cannot be read, or is too long. -/
def BodyRefused (body : Option Bytes) : Prop :=
  ∀ bytes, body = some bytes → maxBody < bytes.length

section Stages

variable {lib : Libraries Reveal} {globalConfig : AtlasConfig} {registry : TldRegistry}
  {answers : Answers} {req : HttpRequest} {r : Route} {e : AtlasError}

theorem fullDomainOf_error {headers : List (Str × Bytes)} (h : fullDomainOf headers = .error e) :
    ∃ reason, e = .invalidProxyRequest reason := by
  unfold fullDomainOf at h
  split at h
  · exact ⟨_, (Except.error.inj h).symm⟩
  · split at h
    · exact ⟨_, (Except.error.inj h).symm⟩
    · cases h

theorem tldOf_error {fullDomain : Str} (h : tldOf fullDomain = .error e) :
    ∃ reason, e = .invalidProxyRequest reason := by
  unfold tldOf at h
  split at h
  · cases h
  · exact ⟨_, (Except.error.inj h).symm⟩

/-- Routing fails on a malformed request or on a TLD without a network. -/
theorem route_error (h : route registry req = .error e) :
    e = .tldBlacklisted ∨ ∃ reason, e = .invalidProxyRequest reason := by
  cases hhost : fullDomainOf req.headers with
  | error e' =>
    have he : e' = e := by simpa [route, hhost, bind, Except.bind] using h
    exact Or.inr (fullDomainOf_error (he ▸ hhost))
  | ok fullDomain =>
    cases htld : tldOf fullDomain with
    | error e' =>
      have he : e' = e := by simpa [route, hhost, htld, bind, Except.bind] using h
      exact Or.inr (tldOf_error (he ▸ htld))
    | ok cleanTld =>
      cases hconfig : registry.getConfig cleanTld with
      | none =>
        left
        simpa [route, hhost, htld, hconfig, bind, Except.bind] using h.symm
      | some config =>
        cases hsplit : HostSplit.extractBaseDomainAndSubdomain fullDomain cleanTld with
        | none =>
          right
          exact ⟨"Could not parse base domain", by
            simpa [route, hhost, htld, hconfig, hsplit, bind, Except.bind] using h.symm⟩
        | some split => simp [route, hhost, htld, hconfig, hsplit, bind, Except.bind] at h

theorem verifyRecord_error {networkId : Str} {dhtBytes : Bytes}
    (h : verifyRecord lib networkId dhtBytes = .error e) :
    ∃ reason, e = .dnsResolutionFailed reason := by
  unfold verifyRecord at h
  split at h
  · exact ⟨_, (Except.error.inj h).symm⟩
  · split at h
    · exact ⟨_, (Except.error.inj h).symm⟩
    · split at h
      · exact ⟨_, (Except.error.inj h).symm⟩
      · cases h

theorem targetsOf_resolution {zone : DnsZone} {subdomain : Str}
    (h : targetsOf zone subdomain = .error e) : ∃ reason, e = .dnsResolutionFailed reason := by
  unfold targetsOf at h
  split at h
  · rename_i hrecords
    obtain rfl := Except.error.inj h
    unfold recordsOf at hrecords
    split at hrecords
    · cases hrecords
    · split at hrecords
      · split at hrecords
        · cases hrecords
        · exact ⟨_, (Except.error.inj hrecords).symm⟩
      · exact ⟨_, (Except.error.inj hrecords).symm⟩
  · split at h
    · exact ⟨_, (Except.error.inj h).symm⟩
    · cases h

theorem readBody_cases (body : Option Bytes) :
    (BodyRefused body ∧ readBody body = .error (.invalidProxyRequest "Failed to read body")) ∨
      (¬ BodyRefused body ∧ ∃ bytes, readBody body = .ok bytes) := by
  cases body with
  | none =>
    left
    exact ⟨fun _ hbytes => absurd hbytes (Option.some_ne_none _).symm, rfl⟩
  | some content =>
    by_cases hlength : content.length ≤ maxBody
    · right
      refine ⟨fun hrefused => ?_, content, if_pos hlength⟩
      have := hrefused content rfl
      omega
    · left
      refine ⟨fun bytes hbytes => ?_, if_neg hlength⟩
      obtain rfl := Option.some.inj hbytes
      omega

/-- The four ways in which a request fails once it has been routed. -/
inductive FailedAfterRouting (lib : Libraries Reveal) (answers : Answers) (req : HttpRequest)
    (r : Route) : AtlasError → List Effect → Prop
  | swarm (reason : Str) (h : answers.swarm = false) :
      FailedAfterRouting lib answers req r (.networkInitFailed reason)
        [.getOrSpawnSwarm r.cleanTld r.config]
  | record (reason : Str) (effects : List Effect) (h : answers.swarm = true)
      (hmissing : ¬ TargetsFound lib answers r) :
      FailedAfterRouting lib answers req r (.dnsResolutionFailed reason) effects
  | body (reason : Str) (h : answers.swarm = true) (hfound : TargetsFound lib answers r)
      (hrefused : BodyRefused req.body) :
      FailedAfterRouting lib answers req r (.invalidProxyRequest reason)
        [.getOrSpawnSwarm r.cleanTld r.config, .getRecord r.baseDomain]
  | targets (effects : List Effect) (h : answers.swarm = true)
      (hfound : TargetsFound lib answers r) (hread : ¬ BodyRefused req.body) :
      FailedAfterRouting lib answers req r .proxyTargetFailed effects

/-- No answer but a record can lead to targets. -/
theorem not_targetsFound (h : ∀ dhtBytes, answers.record ≠ .answered (some dhtBytes)) :
    ¬ TargetsFound lib answers r := by
  rintro ⟨dhtBytes, zone, targets, hrecord, -⟩
  exact h dhtBytes hrecord

/-- What becomes of a record that the swarm has answered with. -/
theorem failed_on_record {dhtBytes : Bytes} (hroute : route registry req = .ok r)
    (hswarm : answers.swarm = true) (hrecord : answers.record = .answered (some dhtBytes))
    (h : (handleProxyRequest lib globalConfig registry answers req).result = .error e) :
    FailedAfterRouting lib answers req r e
      (handleProxyRequest lib globalConfig registry answers req).effects := by
  cases hverify : verifyRecord lib r.config.networkId dhtBytes with
  | error e' =>
    have hmissing : ¬ TargetsFound lib answers r := by
      rintro ⟨bytes, zone, targets, hbytes, hzone, -⟩
      rw [hrecord] at hbytes
      simp only [ChannelAnswer.answered.injEq, Option.some.injEq] at hbytes
      rw [← hbytes, hverify] at hzone
      cases hzone
    obtain ⟨reason, rfl⟩ := verifyRecord_error hverify
    simp only [handleProxyRequest, hroute, hswarm, hrecord, hverify, if_true, bind, Except.bind,
      Except.error.injEq] at h
    exact h ▸ .record reason _ hswarm hmissing
  | ok zone =>
    cases htargets : targetsOf zone r.subdomain with
    | error e' =>
      have hmissing : ¬ TargetsFound lib answers r := by
        rintro ⟨bytes, zone', targets, hbytes, hzone, hfound⟩
        rw [hrecord] at hbytes
        simp only [ChannelAnswer.answered.injEq, Option.some.injEq] at hbytes
        rw [← hbytes, hverify] at hzone
        rw [← Except.ok.inj hzone, htargets] at hfound
        cases hfound
      obtain ⟨reason, rfl⟩ := targetsOf_resolution htargets
      simp only [handleProxyRequest, hroute, hswarm, hrecord, hverify, htargets, if_true, bind,
        Except.bind, Except.error.injEq] at h
      exact h ▸ .record reason _ hswarm hmissing
    | ok targets =>
      have hfound : TargetsFound lib answers r :=
        ⟨dhtBytes, zone, targets, hrecord, hverify, htargets⟩
      rcases readBody_cases req.body with ⟨hrefused, hbody⟩ | ⟨hread, bytes, hbody⟩
      · simp only [handleProxyRequest, hroute, hswarm, hrecord, hverify, htargets, hbody, if_true,
          bind, Except.bind, Except.error.injEq] at h ⊢
        exact h ▸ .body _ hswarm hfound hrefused
      · simp only [handleProxyRequest, hroute, hswarm, hrecord, hverify, htargets, hbody, if_true,
          bind, Except.bind, pure, Except.pure] at h
        exact failover_error h ▸ .targets _ hswarm hfound hread

theorem failed_after_routing (hroute : route registry req = .ok r)
    (h : (handleProxyRequest lib globalConfig registry answers req).result = .error e) :
    FailedAfterRouting lib answers req r e
      (handleProxyRequest lib globalConfig registry answers req).effects := by
  cases hswarm : answers.swarm with
  | false =>
    simp only [handleProxyRequest, hroute, hswarm, Bool.false_eq_true, if_false,
      Except.error.injEq] at h ⊢
    subst h
    exact .swarm _ hswarm
  | true =>
    cases hrecord : answers.record with
    | sendFailed =>
      simp only [handleProxyRequest, hroute, hswarm, hrecord, if_true, Except.error.injEq] at h ⊢
      subst h
      exact .record _ _ hswarm (not_targetsFound fun _ heq => by simp [hrecord] at heq)
    | dropped =>
      simp only [handleProxyRequest, hroute, hswarm, hrecord, if_true, Except.error.injEq] at h ⊢
      subst h
      exact .record _ _ hswarm (not_targetsFound fun _ heq => by simp [hrecord] at heq)
    | answered value =>
      cases value with
      | none =>
        simp only [handleProxyRequest, hroute, hswarm, hrecord, if_true, Except.error.injEq]
          at h ⊢
        subst h
        exact .record _ _ hswarm (not_targetsFound fun _ heq => by simp [hrecord] at heq)
      | some dhtBytes =>
        exact failed_on_record hroute hswarm hrecord h

/-- A failed request has failed in its routing, with nothing asked of others, or after it. -/
theorem failure_cases
    (h : (handleProxyRequest lib globalConfig registry answers req).result = .error e) :
    ∃ effects, (handleProxyRequest lib globalConfig registry answers req).effects = effects ∧
      ((route registry req = .error e ∧
          (e = .tldBlacklisted ∨ ∃ reason, e = .invalidProxyRequest reason) ∧ effects = []) ∨
        ∃ r, route registry req = .ok r ∧ FailedAfterRouting lib answers req r e effects) := by
  refine ⟨_, rfl, ?_⟩
  cases hroute : route registry req with
  | error e' =>
    left
    rw [handled_of_route_error hroute] at h ⊢
    obtain rfl := Except.error.inj h
    exact ⟨rfl, route_error hroute, rfl⟩
  | ok r =>
    right
    exact ⟨r, rfl, failed_after_routing hroute h⟩

theorem client_error_iff
    (h : (handleProxyRequest lib globalConfig registry answers req).result = .error e) :
    (status e = 403 ↔ route registry req = .error .tldBlacklisted) ∧
      (status e = 400 ↔ (∃ reason, route registry req = .error (.invalidProxyRequest reason)) ∨
        ∃ r, route registry req = .ok r ∧ answers.swarm = true ∧ TargetsFound lib answers r ∧
          BodyRefused req.body) := by
  rcases failure_cases h with
    ⟨_, -, ⟨hroute, rfl | ⟨reason, rfl⟩, -⟩ | ⟨r, hroute, hfailed⟩⟩
  · simp [hroute, status, statusTitle]
  · simp [hroute, status, statusTitle]
  · cases hfailed with
    | swarm reason hswarm => simp [hroute, status, statusTitle, hswarm]
    | record reason effects hswarm hmissing => simp [hroute, status, statusTitle, hmissing]
    | body reason hswarm hfound hrefused =>
      simp [hroute, status, statusTitle, hswarm, hfound, hrefused]
    | targets effects hswarm hfound hread => simp [hroute, status, statusTitle, hread]

theorem server_error_iff
    (h : (handleProxyRequest lib globalConfig registry answers req).result = .error e) :
    (status e = 500 ↔ (∃ r, route registry req = .ok r) ∧ answers.swarm = false) ∧
      (status e = 502 ↔ ∃ r, route registry req = .ok r ∧ answers.swarm = true ∧
        (TargetsFound lib answers r → ¬ BodyRefused req.body)) := by
  rcases failure_cases h with
    ⟨_, -, ⟨hroute, rfl | ⟨reason, rfl⟩, -⟩ | ⟨r, hroute, hfailed⟩⟩
  · simp [hroute, status, statusTitle]
  · simp [hroute, status, statusTitle]
  · cases hfailed with
    | swarm reason hswarm => simp [hroute, status, statusTitle, hswarm]
    | record reason effects hswarm hmissing => simp [hroute, status, statusTitle, hswarm, hmissing]
    | body reason hswarm hfound hrefused =>
      simp [hroute, status, statusTitle, hswarm, hfound, hrefused]
    | targets effects hswarm hfound hread => simp [hroute, status, statusTitle, hswarm, hread]

/-- The client is told to retry exactly where the fault is not its own. -/
theorem retryable_iff
    (h : (handleProxyRequest lib globalConfig registry answers req).result = .error e) :
    isRetryable e = true ↔ 500 ≤ status e := by
  rcases failure_cases h with ⟨_, -, ⟨-, rfl | ⟨reason, rfl⟩, -⟩ | ⟨r, -, hfailed⟩⟩
  · simp [isRetryable, status, statusTitle]
  · simp [isRetryable, status, statusTitle]
  · cases hfailed <;> simp [isRetryable, status, statusTitle]

theorem nothing_forwarded
    (h : (handleProxyRequest lib globalConfig registry answers req).result = .error e)
    (hstatus : status e < 500) {effect : Effect}
    (hmem : effect ∈ (handleProxyRequest lib globalConfig registry answers req).effects) :
    ofGateway effect = false := by
  obtain ⟨effects, heffects, hcases⟩ := failure_cases h
  rw [heffects] at hmem
  rcases hcases with ⟨-, -, rfl⟩ | ⟨r, -, hfailed⟩
  · exact absurd hmem List.not_mem_nil
  · cases hfailed with
    | swarm reason hswarm => simp [status, statusTitle] at hstatus
    | record reason _ hswarm hmissing => simp [status, statusTitle] at hstatus
    | body reason hswarm hfound hrefused =>
      rcases List.mem_pair.mp hmem with rfl | rfl
      · rfl
      · rfl
    | targets _ hswarm hfound hread => simp [status, statusTitle] at hstatus

theorem status_range (e : AtlasError) : 100 ≤ status e ∧ status e ≤ 999 := by
  cases e <;> simp [status, statusTitle]

/-- The answer to a failed request reads back as its error, under the status of the error. -/
theorem sent_error (toVec : Value → Bytes) {handled : Handled} (h : handled.result = .error e) :
    ∃ document, sent toVec handled =
        ⟨status e, [("content-type".toList, ascii "application/json")], toVec document⟩ ∧
      decodeApiError document = some (ApiError.ofError e) := by
  refine ⟨toJson (ApiError.ofError e), ?_, ?_⟩
  · have hrange : 100 ≤ (ApiError.ofError e).status ∧ (ApiError.ofError e).status ≤ 999 :=
      status_range e
    simp only [sent, h, intoResponse]
    rw [if_pos hrange]
    rfl
  · rw [decodeApiError_toJson]
    rfl

/-- The status of a failed request says at which stage the handler has stopped. The client is
told to retry exactly where the fault is not its own, and where it is, no gateway and no peer
has been asked for anything. -/
theorem failure_stage (toVec : Value → Bytes)
    (h : (handleProxyRequest lib globalConfig registry answers req).result = .error e) :
    ((status e = 403 ↔ route registry req = .error .tldBlacklisted) ∧
      (status e = 400 ↔ (∃ reason, route registry req = .error (.invalidProxyRequest reason)) ∨
        ∃ r, route registry req = .ok r ∧ answers.swarm = true ∧ TargetsFound lib answers r ∧
          BodyRefused req.body)) ∧
      ((status e = 500 ↔ (∃ r, route registry req = .ok r) ∧ answers.swarm = false) ∧
        (status e = 502 ↔ ∃ r, route registry req = .ok r ∧ answers.swarm = true ∧
          (TargetsFound lib answers r → ¬ BodyRefused req.body))) ∧
      (isRetryable e = true ↔ 500 ≤ status e) ∧
      (status e < 500 → ∀ effect ∈
        (handleProxyRequest lib globalConfig registry answers req).effects,
          ofGateway effect = false) ∧
      ∃ document, sent toVec (handleProxyRequest lib globalConfig registry answers req) =
          ⟨status e, [("content-type".toList, ascii "application/json")], toVec document⟩ ∧
        decodeApiError document = some (ApiError.ofError e) :=
  ⟨client_error_iff h, server_error_iff h, retryable_iff h,
    fun hstatus _ hmem => nothing_forwarded h hstatus hmem, sent_error toVec h⟩

def foreignRecords : Libraries Bytes :=
  { sampleLibraries with verifySignature := fun _ _ => .error "signature mismatch" }

theorem failure_stage_foreign :
    (handleProxyRequest foreignRecords globalDefaults kinRegistry revealAnswered
        (requestFor "a.kin")).result = .error (invalidSignature "signature mismatch") ∧
      status (invalidSignature "signature mismatch") = 502 ∧
      isRetryable (invalidSignature "signature mismatch") = true := by
  have h : (handleProxyRequest foreignRecords globalDefaults kinRegistry revealAnswered
      (requestFor "a.kin")).result = .error (invalidSignature "signature mismatch") := rfl
  exact ⟨h, rfl, (failure_stage (fun _ => []) h).2.2.1.mpr (by decide)⟩

end Stages

end KineticAtlas.ErrorResponses
