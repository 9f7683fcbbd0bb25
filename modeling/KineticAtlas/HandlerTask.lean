import KineticAtlas.ProxyHandler
import KineticAtlas.Library.Dialogues

/-!
The HTTP handler as a task (handle_proxy_request in proxy.rs): what it does between two
awaits, with what it waits for as questions to its surroundings. The handler as one function
of all the answers it will get is what such a task comes to, whenever and by whomever it is
answered.
-/
namespace KineticAtlas.HandlerTask

open Library.Texts Library.Dialogues KineticAtlas.Types HostSplit Registry ProxyHandler

/-- What the handler awaits; gateways and peers by the number of the attempt. -/
inductive Question
  | swarm (tld : Str) (config : NetworkConfig)
  | record (domain : Str)
  | gateway (i : ℕ) (method url : Str) (headers : List (Str × Str)) (body : Bytes)
  | peer (i : ℕ) (peerId : PeerId) (request : ProxyRequest)

inductive Slot
  | swarm
  | record
  | gateway (i : ℕ)
  | peer (i : ℕ)
  deriving DecidableEq

def slotOf : Question → Slot
  | .swarm _ _ => .swarm
  | .record _ => .record
  | .gateway i _ _ _ _ => .gateway i
  | .peer i _ _ => .peer i

def AnswerTo : Slot → Type
  | .swarm => Bool
  | .record => ChannelAnswer Bytes
  | .gateway _ => Except Str HttpResponse
  | .peer _ => ChannelAnswer ProxyResponse

/-- Answers for questions that are never asked. -/
def unasked : ∀ s, AnswerTo s
  | .swarm => false
  | .record => ChannelAnswer.dropped
  | .gateway _ => Except.error []
  | .peer _ => ChannelAnswer.dropped

abbrev Outcome := Except AtlasError HttpResponse

abbrev Task := Dialogue slotOf AnswerTo Outcome

abbrev Trace := List (Exchange slotOf AnswerTo)

variable {Reveal : Type}

def gatewayQuestion (lib : Libraries Reveal) (gateway : Str) (fwd : Forward) (i : ℕ)
    (cid : Str) : Question :=
  .gateway i (if lib.methodKnown fwd.method then fwd.method else "GET".toList)
    (ipfsUrl gateway cid fwd.path)
    (fwd.proxyHeaders.filter fun header => header.1 ≠ "host".toList) fwd.body

def failoverTask (lib : Libraries Reveal) (gateway : Str) (fwd : Forward) :
    ℕ → List DnsRecord → Task
  | _, [] => .done (.error .proxyTargetFailed)
  | i, .ipfs cid :: rest =>
    .ask (gatewayQuestion lib gateway fwd i cid) fun answer : Except Str HttpResponse =>
      match answer with
      | .ok res => .done (respond lib res.status res.headers res.body)
      | .error _ => failoverTask lib gateway fwd (i + 1) rest
  | i, .peerId peerStr :: rest =>
    match lib.parsePeerId peerStr with
    | none => failoverTask lib gateway fwd (i + 1) rest
    | some peerId =>
      .ask (.peer i peerId ⟨fwd.method, fwd.path, fwd.proxyHeaders, fwd.body⟩)
        fun answer : ChannelAnswer ProxyResponse =>
          match answer with
          | .answered (some res) =>
            .done (respond lib res.status
              (res.headers.map fun header =>
                (header.1, header.2.flatMap String.utf8EncodeChar)) res.body)
          | _ => failoverTask lib gateway fwd (i + 1) rest
  | i, _ :: rest => failoverTask lib gateway fwd (i + 1) rest

/-- The handler from the record it has been given. -/
def afterRecord (lib : Libraries Reveal) (globalConfig : AtlasConfig) (r : Route)
    (req : HttpRequest) (dhtBytes : Bytes) : Task :=
  match verifyRecord lib r.config.networkId dhtBytes with
  | .error e => .done (.error e)
  | .ok zone =>
    match targetsOf zone r.subdomain with
    | .error e => .done (.error e)
    | .ok targets =>
      match readBody req.body with
      | .error e => .done (.error e)
      | .ok body =>
        failoverTask lib (gatewayOf globalConfig r.config)
          ⟨req.method, req.pathAndQuery.getD "/".toList, proxyHeadersOf req.headers, body⟩ 0
          targets

/-- The handler from the registry it has looked its TLD up in. -/
def handler (lib : Libraries Reveal) (globalConfig : AtlasConfig) (registry : TldRegistry)
    (req : HttpRequest) : Task :=
  match route registry req with
  | .error e => .done (.error e)
  | .ok r =>
    .ask (.swarm r.cleanTld r.config) fun connected : Bool =>
      if connected then
        .ask (.record r.baseDomain) fun answer : ChannelAnswer Bytes =>
          match answer with
          | .sendFailed =>
            .done (.error (.dnsResolutionFailed "Failed to communicate with swarm"))
          | .answered (some dhtBytes) => afterRecord lib globalConfig r req dhtBytes
          | _ => .done (.error notInDht)
      else
        .done (.error (.networkInitFailed
          ("Failed to connect to network for TLD ".toList ++ r.cleanTld)))

def answersOf (oracle : ∀ s, AnswerTo s) : Answers where
  swarm := oracle .swarm
  record := oracle .record
  gateway i := oracle (.gateway i)
  peer i := oracle (.peer i)

/-- A command that could not be sent has asked nobody for anything. -/
def effectsOf : Exchange slotOf AnswerTo → List Effect
  | ⟨.swarm tld config, _⟩ => [.getOrSpawnSwarm tld config]
  | ⟨.record domain, answer⟩ =>
    match (answer : ChannelAnswer Bytes) with
    | .sendFailed => []
    | _ => [.getRecord domain]
  | ⟨.gateway _ method url headers body, _⟩ => [.gatewayRequest method url headers body]
  | ⟨.peer _ peerId request, answer⟩ =>
    match (answer : ChannelAnswer ProxyResponse) with
    | .sendFailed => []
    | _ => [.sendProxyRequest peerId request]

def handledOf (played : Trace × Outcome) : Handled := ⟨played.1.flatMap effectsOf, played.2⟩

variable {lib : Libraries Reveal} {globalConfig : AtlasConfig} {registry : TldRegistry}
  {req : HttpRequest} {gateway : Str} {fwd : Forward}

theorem play_failoverTask (oracle : ∀ s, AnswerTo s) (i : ℕ) (targets : List DnsRecord) :
    handledOf ((failoverTask lib gateway fwd i targets).play oracle) =
      failover lib gateway (answersOf oracle) fwd i targets := by
  induction targets generalizing i with
  | nil => rfl
  | cons target rest ih =>
    have hskip : ∀ effects, attemptTarget lib gateway (answersOf oracle) fwd i target =
        (effects, none) →
          failover lib gateway (answersOf oracle) fwd i (target :: rest) =
            ⟨effects ++ (handledOf ((failoverTask lib gateway fwd (i + 1) rest).play
              oracle)).effects,
              (handledOf ((failoverTask lib gateway fwd (i + 1) rest).play oracle)).result⟩ := by
      intro effects hattempt
      simp only [failover, hattempt, ih (i + 1)]
    cases target with
    | ipfs cid =>
      cases hg : (answersOf oracle).gateway i with
      | ok res =>
        have hg' : oracle (.gateway i) = .ok res := hg
        simp only [failover, attemptTarget, hg, failoverTask, Dialogue.play, gatewayQuestion,
          slotOf, hg', handledOf]
        rfl
      | error e =>
        have hg' : oracle (.gateway i) = .error e := hg
        rw [hskip (effectsOf ⟨gatewayQuestion lib gateway fwd i cid, oracle (.gateway i)⟩)
          (by simp only [attemptTarget, hg]; rfl)]
        simp only [failoverTask, Dialogue.play, gatewayQuestion, slotOf, hg', handledOf]
        rfl
    | peerId peerStr =>
      cases hp : lib.parsePeerId peerStr with
      | none =>
        rw [hskip [] (by simp only [attemptTarget, hp])]
        simp only [failoverTask, hp, List.nil_append]
      | some peerId =>
        cases ha : (answersOf oracle).peer i with
        | sendFailed =>
          have ha' : oracle (.peer i) = .sendFailed := ha
          rw [hskip [] (by simp only [attemptTarget, hp, ha])]
          simp only [failoverTask, hp, Dialogue.play, slotOf, ha', handledOf]
          rfl
        | dropped =>
          have ha' : oracle (.peer i) = .dropped := ha
          rw [hskip [.sendProxyRequest peerId ⟨fwd.method, fwd.path, fwd.proxyHeaders, fwd.body⟩]
            (by simp only [attemptTarget, hp, ha])]
          simp only [failoverTask, hp, Dialogue.play, slotOf, ha', handledOf]
          rfl
        | answered value =>
          cases value with
          | none =>
            have ha' : oracle (.peer i) = .answered none := ha
            rw [hskip [.sendProxyRequest peerId ⟨fwd.method, fwd.path, fwd.proxyHeaders, fwd.body⟩]
            (by simp only [attemptTarget, hp, ha])]
            simp only [failoverTask, hp, Dialogue.play, slotOf, ha', handledOf]
            rfl
          | some res =>
            have ha' : oracle (.peer i) = .answered (some res) := ha
            simp only [failover, attemptTarget, hp, ha, failoverTask, Dialogue.play, slotOf, ha',
              handledOf]
            rfl
    | a | aaaa | cname | txt | kid | other =>
      rw [hskip [] rfl]
      simp only [failoverTask, List.nil_append]

/-- Played against all its answers, the task is the handler as a function. -/
theorem play_handler (oracle : ∀ s, AnswerTo s) :
    handledOf ((handler lib globalConfig registry req).play oracle) =
      handleProxyRequest lib globalConfig registry (answersOf oracle) req := by
  cases hroute : route registry req with
  | error e =>
    simp only [handler, handleProxyRequest, hroute, Dialogue.play, handledOf]
    rfl
  | ok r =>
    cases hs : (answersOf oracle).swarm with
    | false =>
      have hs' : oracle .swarm = false := hs
      simp only [handler, handleProxyRequest, hroute, hs, Dialogue.play, slotOf, hs', handledOf]
      rfl
    | true =>
      have hs' : oracle .swarm = true := hs
      cases ha : (answersOf oracle).record with
      | sendFailed =>
        have ha' : oracle .record = .sendFailed := ha
        simp only [handler, handleProxyRequest, hroute, hs, ha, if_true, Dialogue.play, slotOf,
          hs', ha', handledOf]
        rfl
      | dropped =>
        have ha' : oracle .record = .dropped := ha
        simp only [handler, handleProxyRequest, hroute, hs, ha, if_true, Dialogue.play, slotOf,
          hs', ha', handledOf]
        rfl
      | answered value =>
        have ha' : oracle .record = .answered value := ha
        cases value with
        | none =>
          simp only [handler, handleProxyRequest, hroute, hs, ha, if_true, Dialogue.play, slotOf,
            hs', ha', handledOf]
          rfl
        | some dhtBytes =>
          simp only [handler, handleProxyRequest, hroute, hs, ha, Dialogue.play, slotOf, hs', ha',
            if_true]
          rw [afterRecord]
          cases hverify : verifyRecord lib r.config.networkId dhtBytes with
          | error e =>
            simp only [Dialogue.play, handledOf, bind, Except.bind]
            rfl
          | ok zone =>
            cases htargets : targetsOf zone r.subdomain with
            | error e =>
              simp only [htargets, Dialogue.play, handledOf, bind, Except.bind]
              rfl
            | ok targets =>
              cases hbody : readBody req.body with
              | error e =>
                simp only [htargets, Dialogue.play, handledOf, bind, Except.bind]
                rfl
              | ok body =>
                simp only [htargets, bind, Except.bind, pure, Except.pure]
                rw [← play_failoverTask]
                rfl

theorem asksOnce_failoverTask {used : Slot → Prop} (i : ℕ) (targets : List DnsRecord)
    (hused : ∀ j, i ≤ j → ¬ used (.gateway j) ∧ ¬ used (.peer j)) :
    (failoverTask lib gateway fwd i targets).AsksOnce used := by
  induction targets generalizing i used with
  | nil => trivial
  | cons target rest ih =>
    have hlater : (failoverTask lib gateway fwd (i + 1) rest).AsksOnce used :=
      ih (i + 1) fun j hj => hused j (by omega)
    cases target with
    | ipfs cid =>
      refine ⟨(hused i (Nat.le_refl i)).1, fun answer => ?_⟩
      have hnext : (failoverTask lib gateway fwd (i + 1) rest).AsksOnce
          (fun s => used s ∨ s = Slot.gateway i) := by
        refine ih (i + 1) fun j hj => ?_
        have hne : j ≠ i := by omega
        have hj := hused j (by omega)
        simp [hj.1, hj.2, hne]
      cases (answer : Except Str HttpResponse) with
      | ok res => trivial
      | error e => exact hnext
    | peerId peerStr =>
      cases hp : lib.parsePeerId peerStr with
      | none => simpa only [failoverTask, hp] using hlater
      | some peerId =>
        simp only [failoverTask, hp]
        refine ⟨(hused i (Nat.le_refl i)).2, fun answer => ?_⟩
        have hnext : (failoverTask lib gateway fwd (i + 1) rest).AsksOnce
            (fun s => used s ∨ s = Slot.peer i) := by
          refine ih (i + 1) fun j hj => ?_
          have hne : j ≠ i := by omega
          have hj := hused j (by omega)
          simp [hj.1, hj.2, hne]
        cases (answer : ChannelAnswer ProxyResponse) with
        | sendFailed => exact hnext
        | dropped => exact hnext
        | answered value =>
          cases value with
          | none => exact hnext
          | some res => trivial
    | a | aaaa | cname | txt | kid | other => exact hlater

theorem asksOnce_handler : (handler lib globalConfig registry req).AsksOnce fun _ => False := by
  unfold handler
  cases route registry req with
  | error e => trivial
  | ok r =>
    refine ⟨id, fun connected => ?_⟩
    cases (connected : Bool) with
    | false => trivial
    | true =>
      refine ⟨by simp [slotOf], fun answer => ?_⟩
      cases (answer : ChannelAnswer Bytes) with
      | sendFailed => trivial
      | dropped => trivial
      | answered value =>
        cases value with
        | none => trivial
        | some dhtBytes =>
          simp only [afterRecord]
          split
          · trivial
          · split
            · trivial
            · split
              · trivial
              · exact asksOnce_failoverTask 0 _ fun j _ => by simp [slotOf]

/-- However a task has been answered on its way to the end, the handler as a function does
and returns the same on some answers, those it was given. -/
theorem handled_of_plays {trace : Trace} {outcome : Outcome}
    (h : (handler lib globalConfig registry req).Plays trace (.done outcome)) :
    ∃ oracle, Agrees oracle trace ∧ (∀ s ∉ slots trace, oracle s = unasked s) ∧
      handleProxyRequest lib globalConfig registry (answersOf oracle) req =
        ⟨trace.flatMap effectsOf, outcome⟩ := by
  obtain ⟨oracle, hagrees, hunasked, hplay⟩ := exists_oracle_of_plays unasked h asksOnce_handler
  refine ⟨oracle, hagrees, hunasked, ?_⟩
  rw [← play_handler, hplay, handledOf]

/-- The request as it is passed on to peers. -/
def forwarded (req : HttpRequest) (body : Bytes) : ProxyRequest :=
  ⟨req.method, req.pathAndQuery.getD "/".toList, proxyHeadersOf req.headers, body⟩

def OwnQuestion (r : Route) (req : HttpRequest) : Question → Prop
  | .swarm tld config => tld = r.cleanTld ∧ config = r.config
  | .record domain => domain = r.baseDomain
  | .gateway _ _ _ _ body => req.body = some body
  | .peer _ _ request => ∃ body, req.body = some body ∧ request = forwarded req body

theorem readBody_ok {body : Option Bytes} {bytes : Bytes} (h : readBody body = .ok bytes) :
    body = some bytes := by
  unfold readBody at h
  split at h
  · rename_i content
    split at h
    · rw [Except.ok.inj h]
    · cases h
  · cases h

theorem asks_failoverTask {P : Question → Prop} {i : ℕ} {targets : List DnsRecord}
    (hgateway : ∀ i cid, P (gatewayQuestion lib gateway fwd i cid))
    (hpeer : ∀ i peerId, P (.peer i peerId ⟨fwd.method, fwd.path, fwd.proxyHeaders, fwd.body⟩)) :
    (failoverTask lib gateway fwd i targets).Asks P := by
  induction targets generalizing i with
  | nil => trivial
  | cons target rest ih =>
    cases target with
    | ipfs cid =>
      refine ⟨hgateway i cid, fun answer => ?_⟩
      cases (answer : Except Str HttpResponse) with
      | ok res => trivial
      | error e => exact ih
    | peerId peerStr =>
      cases hp : lib.parsePeerId peerStr with
      | none => simpa only [failoverTask, hp] using ih
      | some peerId =>
        simp only [failoverTask, hp]
        refine ⟨hpeer i peerId, fun answer => ?_⟩
        cases (answer : ChannelAnswer ProxyResponse) with
        | sendFailed => exact ih
        | dropped => exact ih
        | answered value =>
          cases value with
          | none => exact ih
          | some res => trivial
    | a | aaaa | cname | txt | kid | other => exact ih

theorem asks_handler {r : Route} (hroute : route registry req = .ok r) :
    (handler lib globalConfig registry req).Asks (OwnQuestion r req) := by
  simp only [handler, hroute]
  refine ⟨⟨rfl, rfl⟩, fun connected => ?_⟩
  cases (connected : Bool) with
  | false => trivial
  | true =>
    refine ⟨rfl, fun answer => ?_⟩
    cases (answer : ChannelAnswer Bytes) with
    | sendFailed => trivial
    | dropped => trivial
    | answered value =>
      cases value with
      | none => trivial
      | some dhtBytes =>
        simp only [afterRecord]
        split
        · trivial
        · split
          · trivial
          · split
            · trivial
            · rename_i body hbody
              have hread := readBody_ok hbody
              exact asks_failoverTask (fun _ _ => hread) fun _ _ => ⟨body, hread, rfl⟩

/-- A handler that asks anything has found a route. -/
theorem route_of_asking {trace : Trace} {rest : Task}
    (h : (handler lib globalConfig registry req).Plays trace rest)
    (hasking : trace ≠ [] ∨ ∃ q next, rest = .ask q next) :
    ∃ r, route registry req = .ok r := by
  cases hroute : route registry req with
  | ok r => exact ⟨r, rfl⟩
  | error e =>
    have hnothing : (handler lib globalConfig registry req).Asks fun _ => False := by
      simp only [handler, hroute]
      trivial
    obtain ⟨hbefore, hnow⟩ := Dialogue.asked_of_plays h hnothing
    rcases hasking with htrace | ⟨q, next, rfl⟩
    · obtain ⟨e, he⟩ := List.exists_mem_of_ne_nil trace htrace
      exact (hbefore e he).elim
    · exact hnow.1.elim

end KineticAtlas.HandlerTask
