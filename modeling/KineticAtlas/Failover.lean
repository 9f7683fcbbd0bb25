import KineticAtlas.ProxyHandler

/-!
The failover over the target records of a domain. A target that cannot be reached
is passed over, but the first target that answers at all decides the request, also
when its answer cannot be turned into a response: status and headers come from a
remote peer. The main result says exactly when no target is given up too early.
-/
namespace KineticAtlas.Failover

open Library.Texts KineticAtlas.Types HostSplit Registry ProxyHandler

/-- What a target has answered: status, headers and body for the response builder. -/
structure TargetAnswer where
  status : UInt16
  headers : List (Str × Bytes)
  body : Bytes

section Targets

variable {Reveal : Type}

/-- The answer of the target at place `i` of the list, if it is reached and answers. -/
def answerOf (lib : Libraries Reveal) (answers : Answers) (i : ℕ) :
    DnsRecord → Option TargetAnswer
  | .ipfs _ =>
    match answers.gateway i with
    | .ok res => some ⟨res.status, res.headers, res.body⟩
    | .error _ => none
  | .peerId peerStr =>
    match lib.parsePeerId peerStr with
    | none => none
    | some _ =>
      match answers.peer i with
      | .answered (some res) =>
        some ⟨res.status,
          res.headers.map fun header => (header.1, header.2.flatMap String.utf8EncodeChar),
          res.body⟩
      | _ => none
  | _ => none

def responseOf (lib : Libraries Reveal) (answer : TargetAnswer) : Option HttpResponse :=
  lib.buildResponse answer.status answer.headers answer.body

/-- The first response that the targets from place `i` on can give, in list order. -/
def firstResponse (lib : Libraries Reveal) (answers : Answers) (i : ℕ)
    (targets : List DnsRecord) : Option HttpResponse :=
  (targets.zipIdx i).findSome? fun target =>
    (answerOf lib answers target.2 target.1).bind (responseOf lib)

/-- The targets for which the loop body is entered. -/
def attempted (lib : Libraries Reveal) (gateway : Str) (answers : Answers) (fwd : Forward) :
    ℕ → List DnsRecord → List DnsRecord
  | _, [] => []
  | i, target :: rest =>
    match (attemptTarget lib gateway answers fwd i target).2 with
    | some _ => [target]
    | none => target :: attempted lib gateway answers fwd (i + 1) rest

/-- None of the targets from place `i` on answers. -/
def Silent (lib : Libraries Reveal) (answers : Answers) : ℕ → List DnsRecord → Prop
  | _, [] => True
  | i, target :: rest => answerOf lib answers i target = none ∧ Silent lib answers (i + 1) rest

/-- The first target that answers gives a response, or no target is left after it. -/
def FirstAnswerServes (lib : Libraries Reveal) (answers : Answers) (targets : List DnsRecord) :
    Prop :=
  ∀ before target after answer, targets = before ++ target :: after →
    Silent lib answers 0 before → answerOf lib answers before.length target = some answer →
      responseOf lib answer ≠ none ∨ after = []

variable {lib : Libraries Reveal} {gateway : Str} {answers : Answers} {fwd : Forward}

/-- An attempt goes on to the next target only when there is no answer. -/
theorem attemptTarget_result (lib : Libraries Reveal) (gateway : Str) (answers : Answers)
    (fwd : Forward) (i : ℕ) (target : DnsRecord) :
    (attemptTarget lib gateway answers fwd i target).2 =
      (answerOf lib answers i target).map fun answer =>
        respond lib answer.status answer.headers answer.body := by
  cases target with
  | ipfs cid =>
    cases hg : answers.gateway i with
    | ok res => simp only [attemptTarget, answerOf, hg, Option.map_some]
    | error _ => simp only [attemptTarget, answerOf, hg, Option.map_none]
  | peerId peerStr =>
    cases hp : lib.parsePeerId peerStr with
    | none => simp only [attemptTarget, answerOf, hp, Option.map_none]
    | some peerId =>
      cases ha : answers.peer i with
      | sendFailed => simp only [attemptTarget, answerOf, hp, ha, Option.map_none]
      | dropped => simp only [attemptTarget, answerOf, hp, ha, Option.map_none]
      | answered value =>
        cases value with
        | none => simp only [attemptTarget, answerOf, hp, ha, Option.map_none]
        | some res =>
          simp only [attemptTarget, answerOf, hp, ha, Option.map_some]
  | a | aaaa | cname | txt | kid | other => rfl

/-- The requests that go out are those of the attempted targets. -/
theorem failover_effects (i : ℕ) (targets : List DnsRecord) :
    (failover lib gateway answers fwd i targets).effects =
      ((attempted lib gateway answers fwd i targets).zipIdx i).flatMap fun target =>
        (attemptTarget lib gateway answers fwd target.2 target.1).1 := by
  induction targets generalizing i with
  | nil => rfl
  | cons target rest ih =>
    cases hattempt : attemptTarget lib gateway answers fwd i target with
    | mk effects result =>
      cases result with
      | some result => simp [failover, attempted, hattempt]
      | none => simp [failover, attempted, hattempt, ih (i + 1)]

theorem failover_silent (gateway : Str) (fwd : Forward) {i : ℕ} {before : List DnsRecord}
    (h : Silent lib answers i before) (rest : List DnsRecord) :
    (failover lib gateway answers fwd i (before ++ rest)).result =
      (failover lib gateway answers fwd (i + before.length) rest).result := by
  induction before generalizing i with
  | nil => rfl
  | cons target before ih =>
    have hnone := attemptTarget_result lib gateway answers fwd i target
    rw [h.1, Option.map_none] at hnone
    cases hattempt : attemptTarget lib gateway answers fwd i target with
    | mk effects result =>
      rw [hattempt] at hnone
      subst hnone
      simp only [List.cons_append, failover, hattempt, List.length_cons]
      rw [ih h.2, Nat.add_assoc, Nat.add_comm 1]

theorem attempted_silent (gateway : Str) (fwd : Forward) {i : ℕ} {before : List DnsRecord}
    (h : Silent lib answers i before) (rest : List DnsRecord) :
    attempted lib gateway answers fwd i (before ++ rest) =
      before ++ attempted lib gateway answers fwd (i + before.length) rest := by
  induction before generalizing i with
  | nil => rfl
  | cons target before ih =>
    simp only [List.cons_append, attempted, attemptTarget_result, h.1, Option.map_none,
      List.length_cons]
    rw [ih h.2, Nat.add_assoc, Nat.add_comm 1]

theorem firstResponse_silent {i : ℕ} {before : List DnsRecord} (h : Silent lib answers i before)
    (rest : List DnsRecord) :
    firstResponse lib answers i (before ++ rest) =
      firstResponse lib answers (i + before.length) rest := by
  induction before generalizing i with
  | nil => rfl
  | cons target before ih =>
    have hrest := ih h.2
    simp only [firstResponse, List.cons_append, List.zipIdx_cons, List.findSome?_cons, h.1,
      Option.bind_none, List.length_cons] at hrest ⊢
    rw [hrest, Nat.add_assoc, Nat.add_comm 1]

/-- Either no target answers or there is a first one that does. -/
theorem first_answer (lib : Libraries Reveal) (answers : Answers) (i : ℕ)
    (targets : List DnsRecord) :
    Silent lib answers i targets ∨
      ∃ before target after answer, targets = before ++ target :: after ∧
        Silent lib answers i before ∧
        answerOf lib answers (i + before.length) target = some answer := by
  induction targets generalizing i with
  | nil => exact Or.inl trivial
  | cons target rest ih =>
    cases hanswer : answerOf lib answers i target with
    | some answer => exact Or.inr ⟨[], target, rest, answer, rfl, trivial, hanswer⟩
    | none =>
      rcases ih (i + 1) with hsilent | ⟨before, first, after, answer, hsplit, hsilent, hfirst⟩
      · exact Or.inl ⟨hanswer, hsilent⟩
      · refine Or.inr ⟨target :: before, first, after, answer, by rw [hsplit]; rfl,
          ⟨hanswer, hsilent⟩, ?_⟩
        rw [List.length_cons, ← hfirst]
        congr 1
        omega

theorem silent_append {i : ℕ} {before rest : List DnsRecord} :
    Silent lib answers i (before ++ rest) ↔
      Silent lib answers i before ∧ Silent lib answers (i + before.length) rest := by
  induction before generalizing i with
  | nil => simp [Silent]
  | cons target before ih =>
    simp only [List.cons_append, Silent, ih, List.length_cons, and_assoc]
    rw [Nat.add_assoc, Nat.add_comm 1]

/-- A list has one first target that answers. -/
theorem first_answer_unique {before before' after after' : List DnsRecord}
    {target target' : DnsRecord} {answer answer' : TargetAnswer}
    (hsplit : before ++ target :: after = before' ++ target' :: after')
    (hsilent : Silent lib answers 0 before) (hsilent' : Silent lib answers 0 before')
    (h : answerOf lib answers before.length target = some answer)
    (h' : answerOf lib answers before'.length target' = some answer') :
    before = before' ∧ target = target' ∧ after = after' := by
  rcases List.append_eq_append_iff.mp hsplit with ⟨between, hb, hrest⟩ | ⟨between, hb, hrest⟩
  · cases between with
    | nil => simpa [hb] using hrest
    | cons t ts =>
      obtain ⟨rfl, -⟩ := List.cons.inj hrest
      rw [hb, silent_append, Nat.zero_add] at hsilent'
      simp [hsilent'.2.1] at h
  · cases between with
    | nil => simpa [hb, eq_comm] using hrest
    | cons t ts =>
      obtain ⟨rfl, -⟩ := List.cons.inj hrest
      rw [hb, silent_append, Nat.zero_add] at hsilent
      simp [hsilent.2.1] at h'

/-- The first target that answers ends the failover, whatever its answer is worth. -/
theorem failover_first_answer {i : ℕ} {target : DnsRecord} {answer : TargetAnswer}
    (h : answerOf lib answers i target = some answer) (rest : List DnsRecord) :
    (failover lib gateway answers fwd i (target :: rest)).result =
        respond lib answer.status answer.headers answer.body ∧
      attempted lib gateway answers fwd i (target :: rest) = [target] := by
  have hsome := attemptTarget_result lib gateway answers fwd i target
  rw [h, Option.map_some] at hsome
  constructor
  · cases hattempt : attemptTarget lib gateway answers fwd i target with
    | mk effects result =>
      rw [hattempt] at hsome
      subst hsome
      simp only [failover, hattempt]
  · simp only [attempted, hsome]

theorem firstResponse_first_answer {i : ℕ} {target : DnsRecord} {answer : TargetAnswer}
    (h : answerOf lib answers i target = some answer) (rest : List DnsRecord) :
    firstResponse lib answers i (target :: rest) =
      (responseOf lib answer).or (firstResponse lib answers (i + 1) rest) := by
  simp only [firstResponse, List.zipIdx_cons, List.findSome?_cons, h, Option.bind_some]
  cases responseOf lib answer <;> rfl

theorem firstAnswerServes_iff {before after : List DnsRecord} {target : DnsRecord}
    {answer : TargetAnswer} (hsilent : Silent lib answers 0 before)
    (h : answerOf lib answers before.length target = some answer) :
    FirstAnswerServes lib answers (before ++ target :: after) ↔
      responseOf lib answer ≠ none ∨ after = [] := by
  constructor
  · intro hserves
    exact hserves before target after answer rfl hsilent h
  · intro hserves before' target' after' answer' hsplit hsilent' h'
    obtain ⟨rfl, rfl, rfl⟩ := first_answer_unique hsplit hsilent hsilent' h h'
    obtain rfl : answer = answer' := Option.some.inj (h.symm.trans h')
    exact hserves

theorem respond_of_response {answer : TargetAnswer} {response : HttpResponse}
    (h : responseOf lib answer = some response) :
    respond lib answer.status answer.headers answer.body = .ok response := by
  unfold responseOf at h
  simp only [respond, h]

theorem respond_of_no_response {answer : TargetAnswer} (h : responseOf lib answer = none) :
    respond lib answer.status answer.headers answer.body = .error .proxyTargetFailed := by
  unfold responseOf at h
  simp only [respond, h]

end Targets

/-- A request that has come as far as the forwarding: it is routed, the record of its
domain verifies, the zone has records for its subdomain and its body can be read. -/
structure Forwarding {Reveal : Type} (lib : Libraries Reveal) (registry : TldRegistry)
    (answers : Answers) (req : HttpRequest) where
  target : Route
  dhtBytes : Bytes
  zone : DnsZone
  records : List DnsRecord
  body : Bytes
  routed : route registry req = .ok target
  connected : answers.swarm = true
  found : answers.record = .answered (some dhtBytes)
  verified : verifyRecord lib target.config.networkId dhtBytes = .ok zone
  selected : recordsOf zone target.subdomain = .ok records
  readable : readBody req.body = .ok body

namespace Forwarding

variable {Reveal : Type} {lib : Libraries Reveal} {registry : TldRegistry} {answers : Answers}
  {req : HttpRequest}

/-- The IPFS and PeerId records of the subdomain, in list order. -/
def targets (f : Forwarding lib registry answers req) : List DnsRecord := f.records.filter isTarget

def forward (f : Forwarding lib registry answers req) : Forward :=
  ⟨req.method, req.pathAndQuery.getD "/".toList, proxyHeadersOf req.headers, f.body⟩

def gateway (f : Forwarding lib registry answers req) (globalConfig : AtlasConfig) : Str :=
  gatewayOf globalConfig f.target.config

/-- The first response a target can give is returned, and the request fails for its
targets only when all of them were attempted and none had a response to give. -/
def TriesEvery (f : Forwarding lib registry answers req) (globalConfig : AtlasConfig) : Prop :=
  (∀ response, firstResponse lib answers 0 f.targets = some response →
    (handleProxyRequest lib globalConfig registry answers req).result = .ok response) ∧
  ((handleProxyRequest lib globalConfig registry answers req).result = .error .proxyTargetFailed →
    attempted lib (f.gateway globalConfig) answers f.forward 0 f.targets = f.targets ∧
      firstResponse lib answers 0 f.targets = none)

theorem handled_of_no_target (f : Forwarding lib registry answers req) (globalConfig : AtlasConfig)
    (h : f.targets = []) :
    (handleProxyRequest lib globalConfig registry answers req).result =
      .error (.dnsResolutionFailed "No target records found") := by
  unfold targets at h
  have htargets : targetsOf f.zone f.target.subdomain =
      .error (.dnsResolutionFailed "No target records found") := by
    simp only [targetsOf, f.selected, h]
  simp [handleProxyRequest, f.routed, f.connected, f.found, f.verified, htargets, bind, Except.bind]

theorem handled_of_target (f : Forwarding lib registry answers req) (globalConfig : AtlasConfig)
    (h : f.targets ≠ []) :
    handleProxyRequest lib globalConfig registry answers req =
      ⟨[.getOrSpawnSwarm f.target.cleanTld f.target.config, .getRecord f.target.baseDomain] ++
          (failover lib (f.gateway globalConfig) answers f.forward 0 f.targets).effects,
        (failover lib (f.gateway globalConfig) answers f.forward 0 f.targets).result⟩ := by
  have htargets : targetsOf f.zone f.target.subdomain = .ok f.targets := by
    cases hf : f.targets with
    | nil => exact absurd hf h
    | cons target rest =>
      unfold targets at hf
      simp only [targetsOf, f.selected, hf]
  simp [handleProxyRequest, f.routed, f.connected, f.found, f.verified, htargets, f.readable, bind,
    Except.bind, pure, Except.pure, gateway, forward]

/-- What the handler asks of gateways and peers: the requests of the attempted targets. -/
theorem handled_effects (f : Forwarding lib registry answers req) (globalConfig : AtlasConfig)
    (h : f.targets ≠ []) :
    (handleProxyRequest lib globalConfig registry answers req).effects =
      [.getOrSpawnSwarm f.target.cleanTld f.target.config, .getRecord f.target.baseDomain] ++
        ((attempted lib (f.gateway globalConfig) answers f.forward 0 f.targets).zipIdx 0).flatMap
          fun target => (attemptTarget lib (f.gateway globalConfig) answers f.forward
            target.2 target.1).1 := by
  rw [f.handled_of_target globalConfig h, failover_effects]

/-- Without any answer all targets are attempted, and there is no response to return. -/
theorem tries_every_of_silent (f : Forwarding lib registry answers req) (globalConfig : AtlasConfig)
    (hnil : f.targets ≠ []) (hsilent : Silent lib answers 0 f.targets) :
    f.TriesEvery globalConfig := by
  have hresult := failover_silent (f.gateway globalConfig) f.forward hsilent []
  have hall := attempted_silent (f.gateway globalConfig) f.forward hsilent []
  have hfirst := firstResponse_silent hsilent []
  rw [List.append_nil] at hresult hall hfirst
  rw [TriesEvery, f.handled_of_target globalConfig hnil]
  refine ⟨fun response hresponse => ?_, fun _ => ⟨?_, hfirst⟩⟩
  · rw [hfirst] at hresponse
    cases hresponse
  · rw [hall]
    exact List.append_nil _

/-- The first answer is returned if it can be built, and else the later targets are lost. -/
theorem tries_every_of_answer (f : Forwarding lib registry answers req) (globalConfig : AtlasConfig)
    {before after : List DnsRecord} {target : DnsRecord} {answer : TargetAnswer}
    (hsplit : f.targets = before ++ target :: after) (hsilent : Silent lib answers 0 before)
    (hanswer : answerOf lib answers before.length target = some answer) :
    f.TriesEvery globalConfig ↔ responseOf lib answer ≠ none ∨ after = [] := by
  have hnil : f.targets ≠ [] := by simp [hsplit]
  rw [TriesEvery, f.handled_of_target globalConfig hnil, hsplit, failover_silent _ _ hsilent,
    attempted_silent _ _ hsilent, firstResponse_silent hsilent, Nat.zero_add,
    (failover_first_answer hanswer after).1, (failover_first_answer hanswer after).2,
    firstResponse_first_answer hanswer]
  cases hresponse : responseOf lib answer with
  | some response =>
    rw [respond_of_response hresponse]
    refine iff_of_true ⟨fun response' h => ?_, fun h => by cases h⟩ (Or.inl (by simp))
    rw [Option.some_or] at h
    exact congrArg Except.ok (Option.some.inj h)
  | none =>
    rw [respond_of_no_response hresponse, Option.none_or]
    constructor
    · rintro ⟨-, hall⟩
      have hsame := (hall rfl).1
      rw [List.append_cancel_left_eq, List.cons.injEq] at hsame
      exact Or.inr hsame.2.symm
    · rintro (hne | rfl)
      · exact absurd rfl hne
      · refine ⟨fun response h => ?_, fun _ => ⟨rfl, rfl⟩⟩
        simp [firstResponse] at h

/-- The failover tries every target exactly when the first answer it gets serves. -/
theorem tries_every_iff (f : Forwarding lib registry answers req) (globalConfig : AtlasConfig) :
    f.TriesEvery globalConfig ↔ FirstAnswerServes lib answers f.targets := by
  by_cases hnil : f.targets = []
  · refine iff_of_true ⟨?_, ?_⟩ ?_
    · simp [hnil, firstResponse]
    · rw [f.handled_of_no_target globalConfig hnil]
      intro h
      cases h
    · intro before target after answer hsplit
      simp [hnil] at hsplit
  · rcases first_answer lib answers 0 f.targets with
      hsilent | ⟨before, target, after, answer, hsplit, hsilent, hanswer⟩
    · refine iff_of_true (f.tries_every_of_silent globalConfig hnil hsilent) ?_
      intro before target after answer hsplit _ hanswer
      rw [hsplit, silent_append, Nat.zero_add] at hsilent
      simp [hsilent.2.1] at hanswer
    · rw [Nat.zero_add] at hanswer
      rw [f.tries_every_of_answer globalConfig hsplit hsilent hanswer, hsplit,
        firstAnswerServes_iff hsilent hanswer]

end Forwarding

def firstPeer : Str := "12D3KooWEyoppNCUx8Yx66oV9fJnriXwCcXwDDUA2kj6vnc6iDEp"

def secondPeer : Str := "QmbWqxBEKC3P8tqsKc98xmWNzrzDtRLMiMPL8wBuTGsMnR"

/-- `HeaderName` and `HeaderValue` of the http crate: tokens, and no control characters
but the tab. -/
def legalHeader (header : Str × Bytes) : Bool :=
  header.1 ≠ [] ∧
    header.1.all (fun c => c.isAlphanum ∨ c ∈ "!#$%&'*+-.^_|~".toList ∨ c.toNat = 96) ∧
    header.2.all fun b => (32 ≤ b ∧ b ≠ 127) ∨ b = 9

def twoPeers : Libraries Bytes :=
  { sampleLibraries with
    parseZone := fun bytes => if bytes = zoneJson then
      some ⟨fun key => if key = apex then some [.peerId firstPeer, .peerId secondPeer] else none⟩
      else none
    parsePeerId := fun text =>
      if text = firstPeer ∨ text = secondPeer then some ⟨ascii text⟩ else none
    buildResponse := fun status headers body =>
      if 100 ≤ status ∧ status ≤ 999 ∧ headers.all legalHeader then some ⟨status, headers, body⟩
      else none }

/-- The first peer answers with the given status, the second with a page. -/
def peersAnswer (status : UInt16) : Answers :=
  { revealAnswered with
    peer := fun i => .answered (some (if i = 0 then ⟨status, [], []⟩ else ⟨200, [], ascii "page"⟩)) }

def twoPeersForwarding (status : UInt16) :
    Forwarding twoPeers kinRegistry (peersAnswer status) (requestFor "a.kin") where
  target := ⟨"a.kin", ".kin", kinNetwork, "a.kin", "@"⟩
  dhtBytes := revealOfA
  zone := ⟨fun key => if key = apex then some [.peerId firstPeer, .peerId secondPeer] else none⟩
  records := [.peerId firstPeer, .peerId secondPeer]
  body := []
  routed := rfl
  connected := rfl
  found := rfl
  verified := rfl
  selected := rfl
  readable := rfl

/-- With status 0 from the first peer the request fails, though the second peer has the
page. -/
theorem healthy_peer_not_tried :
    (handleProxyRequest twoPeers globalDefaults kinRegistry (peersAnswer 0)
        (requestFor "a.kin")).result = .error .proxyTargetFailed ∧
      firstResponse twoPeers (peersAnswer 0) 0 (twoPeersForwarding 0).targets =
        some ⟨200, [], ascii "page"⟩ ∧
      ¬ (twoPeersForwarding 0).TriesEvery globalDefaults := by
  have hresult : (handleProxyRequest twoPeers globalDefaults kinRegistry (peersAnswer 0)
      (requestFor "a.kin")).result = .error .proxyTargetFailed := by
    decide +kernel
  have hfirst : firstResponse twoPeers (peersAnswer 0) 0 (twoPeersForwarding 0).targets =
      some ⟨200, [], ascii "page"⟩ := by
    decide +kernel
  refine ⟨hresult, hfirst, fun htries => ?_⟩
  have hall := (htries.2 hresult).2
  rw [hfirst] at hall
  cases hall

/-- With a proper status from the first peer nothing is lost. -/
theorem tries_every_proper_status : (twoPeersForwarding 200).TriesEvery globalDefaults := by
  apply ((twoPeersForwarding 200).tries_every_iff globalDefaults).mpr
  apply (@firstAnswerServes_iff _ _ _ [] _ _ _ trivial rfl).mpr
  exact Or.inl (by decide)

end KineticAtlas.Failover
