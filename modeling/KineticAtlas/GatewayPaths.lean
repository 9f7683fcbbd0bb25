import KineticAtlas.ProxyHandler
import KineticAtlas.Library.UrlPaths

/-!
Where the requests to an IPFS gateway go (proxy.rs). Their address is put together from
the gateway, the content named by a record and the path of the client, and only then read
as a URL. A request keeps to the content exactly when reading the URL does not change the
content and the path does not lead out of it, or leads back to it.
-/
namespace KineticAtlas.GatewayPaths

open Library.Texts Library.UrlPaths KineticAtlas.Types Registry ProxyHandler

variable {Host Reveal : Type}

/-- The path requested by the HTTP client; no request is sent if the URL cannot be parsed. -/
def requestedPath (caret : Bool) (hostOf : Str → Option Host) (url : Str) : Option Str :=
  (parseHttp caret hostOf url).map HttpUrl.path

/-- The address of a gateway: an origin and a path, if any, that is left as it is. -/
def IsGateway (caret : Bool) (hostOf : Str → Option Host) (origin gatewayPath : Str) : Prop :=
  IsOrigin hostOf origin ∧
    (gatewayPath = [] ∨ ∃ path, gatewayPath = '/' :: path ∧ PlainPath caret path)

def contentPath (gatewayPath cid : Str) : Str := gatewayPath ++ "/ipfs/".toList ++ cid

/-- Neither the content nor the path of the client leads a request elsewhere. -/
structure KeepsToContent (caret : Bool) (gatewayPath cid path : Str) : Prop where
  content_plain : PlainPath caret cid
  comes_back : ComesBack caret ((contentPath gatewayPath cid).drop 1)
    (if path = "/".toList then [] else path)

variable {caret : Bool} {hostOf : Str → Option Host} {origin gatewayPath : Str}

theorem contentPath_cons (hgateway : IsGateway caret hostOf origin gatewayPath) (cid : Str) :
    ∃ path, contentPath gatewayPath cid = '/' :: path ∧
      (PlainPath caret path ↔ PlainPath caret cid) := by
  have hipfs : PlainPath caret "ipfs".toList :=
    ⟨plain_of_all (by cases caret <;> decide), by decide⟩
  have hcid : PlainPath caret ("ipfs".toList ++ '/' :: cid) ↔ PlainPath caret cid := by
    rw [plainPath_append_slash_iff]
    exact and_iff_right hipfs
  rcases hgateway.2 with rfl | ⟨path, rfl, hpath⟩
  · exact ⟨"ipfs".toList ++ '/' :: cid, rfl, hcid⟩
  · refine ⟨path ++ '/' :: ("ipfs".toList ++ '/' :: cid), by simp [contentPath], ?_⟩
    rw [plainPath_append_slash_iff, hcid]
    exact and_iff_right hpath

theorem requested_under_content_iff (hgateway : IsGateway caret hostOf origin gatewayPath)
    (cid path : Str) :
    (∃ p, requestedPath caret hostOf (ipfsUrl (origin ++ gatewayPath) cid path) = some p ∧
        IsUnder (contentPath gatewayPath cid) p) ↔
      KeepsToContent caret gatewayPath cid path := by
  obtain ⟨below, hcontent, hplain⟩ := contentPath_cons hgateway cid
  have hurl : ipfsUrl (origin ++ gatewayPath) cid path =
      origin ++ '/' :: (below ++ if path = "/".toList then [] else path) := by
    have hjoin : ipfsUrl (origin ++ gatewayPath) cid path =
        origin ++ (contentPath gatewayPath cid ++ if path = "/".toList then [] else path) := by
      simp [ipfsUrl, contentPath]
    rw [hjoin, hcontent, List.cons_append]
  have hkeeps : KeepsToContent caret gatewayPath cid path ↔
      PlainPath caret below ∧ ComesBack caret below (if path = "/".toList then [] else path) := by
    rw [hplain]
    have hdrop : (contentPath gatewayPath cid).drop 1 = below := by rw [hcontent]; rfl
    exact ⟨fun ⟨h₁, h₂⟩ => ⟨h₁, hdrop ▸ h₂⟩, fun ⟨h₁, h₂⟩ => ⟨h₁, hdrop.symm ▸ h₂⟩⟩
  rw [hkeeps, ← requested_under_iff hgateway.1, hurl, hcontent]
  simp [requestedPath]

/-- Contents of the usual kind and paths without dots are kept to. -/
theorem keepsToContent_of_no_dots (hgateway : IsGateway caret hostOf origin gatewayPath)
    {cid rest : Str} (hcid : PlainPath caret cid)
    (hrest : ∀ s ∈ segmentsOf caret ((cleanedEnd rest).takeWhile fun c => !endsPath c),
      isDots s = false) :
    KeepsToContent caret gatewayPath cid ('/' :: rest) := by
  obtain ⟨below, hcontent, hplain⟩ := contentPath_cons hgateway cid
  have hback := comesBack_of_no_dots (hplain.mpr hcid) hrest
  refine ⟨hcid, ?_⟩
  rw [hcontent, List.drop_succ_cons, List.drop_zero]
  split
  · exact hback.1
  · exact hback.2

variable {lib : Libraries Reveal} {globalConfig : AtlasConfig} {registry : TldRegistry}
  {answers : Answers} {req : HttpRequest}

/-- Every request to a gateway is made for an IPFS record of the zone. -/
theorem gatewayRequest_record {method url : Str} {headers : List (Str × Str)} {body : Bytes}
    (h : .gatewayRequest method url headers body ∈
      (handleProxyRequest lib globalConfig registry answers req).effects) :
    ∃ r dhtBytes zone targets cid, route registry req = .ok r ∧
      answers.record = .answered (some dhtBytes) ∧
      verifyRecord lib r.config.networkId dhtBytes = .ok zone ∧
      targetsOf zone r.subdomain = .ok targets ∧ .ipfs cid ∈ targets ∧
      url = ipfsUrl (gatewayOf globalConfig r.config) cid (req.pathAndQuery.getD "/".toList) := by
  obtain ⟨r, hroute, hspawn | hrecord | hfailover⟩ := handled_effect h
  · cases hspawn
  · cases hrecord
  · obtain ⟨dhtBytes, zone, targets, body', hrecord, hverify, htargets, heffect⟩ := hfailover
    obtain ⟨i, target, htarget, heffect⟩ := failover_effect heffect
    rcases attemptTarget_effect heffect with ⟨cid, method', headers', rfl, heq⟩ | ⟨_, _, heq⟩
    · obtain ⟨-, hurl, -, -⟩ := Effect.gatewayRequest.inj heq
      exact ⟨r, dhtBytes, zone, targets, cid, hroute, hrecord, hverify, htargets, htarget, hurl⟩
    · cases heq

/-- A request that is sent to the gateway is built from an IPFS record of the zone and the path
of the client. It asks for that content or for something below it exactly when the two keep
to it. -/
theorem gateway_request_kept_iff (hgateway : IsGateway caret hostOf origin gatewayPath)
    (hconfig : ∀ r, route registry req = .ok r →
      gatewayOf globalConfig r.config = origin ++ gatewayPath)
    {method url : Str} {headers : List (Str × Str)} {body : Bytes}
    (hsent : .gatewayRequest method url headers body ∈
      (handleProxyRequest lib globalConfig registry answers req).effects) :
    ∃ r dhtBytes zone targets cid, route registry req = .ok r ∧
      answers.record = .answered (some dhtBytes) ∧
      verifyRecord lib r.config.networkId dhtBytes = .ok zone ∧
      targetsOf zone r.subdomain = .ok targets ∧ .ipfs cid ∈ targets ∧
      url = ipfsUrl (origin ++ gatewayPath) cid (req.pathAndQuery.getD "/".toList) ∧
      ((∃ p, requestedPath caret hostOf url = some p ∧
          IsUnder (contentPath gatewayPath cid) p) ↔
        KeepsToContent caret gatewayPath cid (req.pathAndQuery.getD "/".toList)) := by
  obtain ⟨r, dhtBytes, zone, targets, cid, hroute, hrecord, hverify, htargets, hcid, hurl⟩ :=
    gatewayRequest_record hsent
  rw [hconfig r hroute] at hurl
  refine ⟨r, dhtBytes, zone, targets, cid, hroute, hrecord, hverify, htargets, hcid, hurl, ?_⟩
  rw [hurl]
  exact requested_under_content_iff hgateway cid _

/-- The authority of the gateway on the same machine. -/
def localHost (authority : Str) : Option Str :=
  if authority = "127.0.0.1:8080".toList then some authority else none

theorem isGateway_default : IsGateway false localHost defaultIpfsGateway [] := by
  refine ⟨⟨"http", "127.0.0.1:8080", by decide, Or.inl (by decide), by decide, ?_, by decide⟩,
    Or.inl rfl⟩
  have hall := List.all_eq_true.mp (by decide : "127.0.0.1:8080".toList.all fun c =>
    decide (endsAuthority c = false) && decide (isTabOrNewline c = false))
  simpa using hall

def requestPath (path : Str) : HttpRequest := { requestFor "a.kin" with pathAndQuery := some path }

theorem gateway_request_kept_index :
    ∃ r dhtBytes zone targets cid, route kinRegistry (requestPath "/index.html") = .ok r ∧
      revealAnswered.record = .answered (some dhtBytes) ∧
      verifyRecord sampleLibraries r.config.networkId dhtBytes = .ok zone ∧
      targetsOf zone r.subdomain = .ok targets ∧ .ipfs cid ∈ targets ∧
      ipfsUrl defaultIpfsGateway "cid" "/index.html" =
        ipfsUrl (defaultIpfsGateway ++ []) cid "/index.html" ∧
      ((∃ p, requestedPath false localHost
            (ipfsUrl defaultIpfsGateway "cid" "/index.html") = some p ∧
          IsUnder (contentPath [] cid) p) ↔
        KeepsToContent false [] cid "/index.html".toList) :=
  have hsent : .gatewayRequest "GET" (ipfsUrl defaultIpfsGateway "cid" "/index.html") [] [] ∈
      (handleProxyRequest sampleLibraries globalDefaults kinRegistry revealAnswered
        (requestPath "/index.html")).effects := by
    decide +kernel
  gateway_request_kept_iff isGateway_default
    (fun r hroute => by cases hroute; rfl) hsent

/-- A path that climbs two levels leaves the content. -/
theorem path_leaves_content :
    .gatewayRequest "GET" (ipfsUrl defaultIpfsGateway "cid" "/../../api/v0/id") [] [] ∈
        (handleProxyRequest sampleLibraries globalDefaults kinRegistry revealAnswered
          (requestPath "/../../api/v0/id")).effects ∧
      requestedPath false localHost (ipfsUrl defaultIpfsGateway "cid" "/../../api/v0/id") =
        some "/api/v0/id".toList ∧
      ¬ IsUnder (contentPath [] "cid") "/api/v0/id" := by
  refine ⟨by decide +kernel, by decide +kernel, ?_⟩
  unfold IsUnder
  decide

end KineticAtlas.GatewayPaths
