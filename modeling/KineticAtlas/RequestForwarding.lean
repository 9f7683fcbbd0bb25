import KineticAtlas.RequestSystem

/-!
What clients are answered with (proxy.rs). A request that gets as far as its targets is put
to them in the order of its zone, as it came, until one of them replies; the reply is passed
on as it is. All other requests end in an error before any target has heard of them.
-/
namespace KineticAtlas.RequestForwarding

open Library.Texts Library.Runs Library.Dialogues KineticAtlas.Types Registry HandlerTask
  RequestSystem
open ProxyHandler (HttpRequest HttpResponse Libraries ChannelAnswer Forward Route gatewayOf
  proxyHeadersOf respond readBody route targetsOf verifyRecord)

variable {Reveal : Type}

/-- The request as it is put to a target, if it can be. -/
def targetQuestion (lib : Libraries Reveal) (gateway : Str) (fwd : Forward) (i : ℕ) :
    DnsRecord → Option Question
  | .ipfs cid => some (gatewayQuestion lib gateway fwd i cid)
  | .peerId peerStr => (lib.parsePeerId peerStr).map fun peerId =>
    .peer i peerId ⟨fwd.method, fwd.path, fwd.proxyHeaders, fwd.body⟩
  | _ => none

def questionsOf (lib : Libraries Reveal) (gateway : Str) (fwd : Forward) :
    ℕ → List DnsRecord → List Question
  | _, [] => []
  | i, target :: rest =>
    (targetQuestion lib gateway fwd i target).toList ++ questionsOf lib gateway fwd (i + 1) rest

/-- The reply of a target with its headers as bytes. -/
def replyOf : Exchange slotOf AnswerTo → Option HttpResponse
  | ⟨.gateway _ _ _ _ _, answer⟩ =>
    match (answer : Except Str HttpResponse) with
    | .ok res => some res
    | .error _ => none
  | ⟨.peer _ _ _, answer⟩ =>
    match (answer : ChannelAnswer ProxyResponse) with
    | .answered (some res) =>
      some ⟨res.status, res.headers.map fun header =>
        (header.1, header.2.flatMap String.utf8EncodeChar), res.body⟩
    | _ => none
  | ⟨.swarm _ _, _⟩ => none
  | ⟨.record _, _⟩ => none

/-- The targets are asked in order until one replies, whose reply is passed on. -/
inductive Forwarded (lib : Libraries Reveal) (questions : List Question) : Trace → Outcome → Prop
  | passed (before : Trace) (e : Exchange slotOf AnswerTo) (res : HttpResponse) :
      (before ++ [e]).map Exchange.question <+: questions →
      (∀ e' ∈ before, replyOf e' = none) → replyOf e = some res →
      Forwarded lib questions (before ++ [e]) (respond lib res.status res.headers res.body)
  | exhausted (attempts : Trace) :
      attempts.map Exchange.question = questions → (∀ e ∈ attempts, replyOf e = none) →
      Forwarded lib questions attempts (.error .proxyTargetFailed)

variable {lib : Libraries Reveal} {globalConfig : AtlasConfig} {gateway : Str} {fwd : Forward}
  {oracle : ∀ s, AnswerTo s} {questions : List Question}

/-- A target that does not reply only delays the others. -/
theorem Forwarded.after {attempts : Trace} {outcome : Outcome} {e : Exchange slotOf AnswerTo}
    (hnone : replyOf e = none) (h : Forwarded lib questions attempts outcome) :
    Forwarded lib (e.question :: questions) (e :: attempts) outcome := by
  cases h with
  | passed before last res hinturn hbefore hlast =>
    refine .passed (e :: before) last res ?_ (fun e' he' => ?_) hlast
    · rw [List.cons_append, List.map_cons]
      exact List.cons_prefix_cons.mpr ⟨rfl, hinturn⟩
    · rcases List.mem_cons.mp he' with rfl | hmem
      · exact hnone
      · exact hbefore e' hmem
  | exhausted attempts hall hsilent =>
    refine .exhausted (e :: attempts) (by rw [List.map_cons, hall]) fun e' he' => ?_
    rcases List.mem_cons.mp he' with rfl | hmem
    · exact hnone
    · exact hsilent e' hmem

theorem forwarded_reply {e : Exchange slotOf AnswerTo} {res : HttpResponse}
    (hreply : replyOf e = some res) (later : List Question) :
    Forwarded lib (e.question :: later) [e] (respond lib res.status res.headers res.body) :=
  .passed [] e res (List.cons_prefix_cons.mpr ⟨rfl, List.nil_prefix⟩) (by simp) hreply

theorem forwarded_ask {q : Question} {next : AnswerTo (slotOf q) → Task} {later : Task}
    (hreply : ∀ answer res, replyOf ⟨q, answer⟩ = some res →
      next answer = .done (respond lib res.status res.headers res.body))
    (hnone : ∀ answer, replyOf ⟨q, answer⟩ = none → next answer = later)
    (hlater : Forwarded lib questions (later.play oracle).1 (later.play oracle).2) :
    Forwarded lib (q :: questions) ((Dialogue.ask q next : Task).play oracle).1
      ((Dialogue.ask q next : Task).play oracle).2 := by
  cases h : replyOf ⟨q, oracle (slotOf q)⟩ with
  | some res =>
    rw [Dialogue.play, hreply _ _ h]
    exact forwarded_reply h questions
  | none =>
    rw [Dialogue.play, hnone _ h]
    exact hlater.after h

/-- The loop over the targets. -/
theorem play_forwarded (i : ℕ) (targets : List DnsRecord) :
    Forwarded lib (questionsOf lib gateway fwd i targets)
      ((failoverTask lib gateway fwd i targets).play oracle).1
      ((failoverTask lib gateway fwd i targets).play oracle).2 := by
  induction targets generalizing i with
  | nil => exact .exhausted [] rfl (by simp)
  | cons target rest ih =>
    have hlater := ih (i + 1)
    cases target with
    | ipfs cid =>
      refine forwarded_ask (fun answer res h => ?_) (fun answer h => ?_) hlater
      · cases (answer : Except Str HttpResponse) with
        | ok res' =>
          obtain rfl : res' = res := Option.some.inj h
          rfl
        | error e => cases h
      · cases (answer : Except Str HttpResponse) with
        | ok res' => cases h
        | error e => rfl
    | peerId peerStr =>
      cases hp : lib.parsePeerId peerStr with
      | none =>
        simpa only [failoverTask, questionsOf, targetQuestion, hp, Option.map_none,
          Option.toList_none, List.nil_append] using hlater
      | some peerId =>
        simp only [failoverTask, questionsOf, targetQuestion, hp]
        refine forwarded_ask (fun answer res h => ?_) (fun answer h => ?_) hlater
        · cases (answer : ChannelAnswer ProxyResponse) with
          | sendFailed => cases h
          | dropped => cases h
          | answered value =>
            cases value with
            | none => cases h
            | some res' =>
              obtain rfl := Option.some.inj h
              rfl
        · cases (answer : ChannelAnswer ProxyResponse) with
          | sendFailed => rfl
          | dropped => rfl
          | answered value =>
            cases value with
            | none => rfl
            | some res' => cases h
    | a | aaaa | cname | txt | kid | other =>
      simpa only [failoverTask, questionsOf, targetQuestion, Option.toList_none,
        List.nil_append] using hlater

/-- The request was put to the targets of its subdomain in a zone that verified. -/
structure PutToTargets (lib : Libraries Reveal) (globalConfig : AtlasConfig)
    (registry : TldRegistry) (req : HttpRequest) (r : Route) (dhtBytes body : Bytes)
    (targets : List DnsRecord) (attempts trace : Trace) (outcome : Outcome) : Prop where
  routed : route registry req = .ok r
  verified : ∃ zone, verifyRecord lib r.config.networkId dhtBytes = .ok zone ∧
    targetsOf zone r.subdomain = .ok targets
  read : readBody req.body = .ok body
  asked : trace = ⟨.swarm r.cleanTld r.config, true⟩ ::
    ⟨.record r.baseDomain, ChannelAnswer.answered (some dhtBytes)⟩ :: attempts
  forwarded : Forwarded lib (questionsOf lib (gatewayOf globalConfig r.config)
    ⟨req.method, req.pathAndQuery.getD "/".toList, proxyHeadersOf req.headers, body⟩ 0 targets)
    attempts outcome

def isForTarget : Question → Bool
  | .gateway _ _ _ _ _ => true
  | .peer _ _ _ => true
  | .swarm _ _ => false
  | .record _ => false

/-- No target has heard of the request. -/
def TurnedDown (trace : Trace) (outcome : Outcome) : Prop :=
  (∃ e, outcome = .error e) ∧ ∀ x ∈ trace, isForTarget x.question = false

variable {registry : TldRegistry} {req : HttpRequest} {r : Route}

theorem turnedDown_swarm (connected : Bool) (e : AtlasError) :
    TurnedDown [⟨.swarm r.cleanTld r.config, connected⟩] (.error e) :=
  ⟨⟨e, rfl⟩, fun _ hx => List.mem_singleton.mp hx ▸ rfl⟩

theorem turnedDown_record (answer : ChannelAnswer Bytes) (e : AtlasError) :
    TurnedDown [⟨.swarm r.cleanTld r.config, true⟩, ⟨.record r.baseDomain, answer⟩]
      (.error e) := by
  refine ⟨⟨e, rfl⟩, fun x hx => ?_⟩
  rcases List.mem_cons.mp hx with rfl | hrecord
  · rfl
  · exact List.mem_singleton.mp hrecord ▸ rfl

theorem play_afterRecord (hroute : route registry req = .ok r) (dhtBytes : Bytes) :
    (∃ body targets attempts, PutToTargets lib globalConfig registry req r dhtBytes body targets
      attempts (⟨.swarm r.cleanTld r.config, true⟩ ::
        ⟨.record r.baseDomain, ChannelAnswer.answered (some dhtBytes)⟩ ::
          ((afterRecord lib globalConfig r req dhtBytes).play oracle).1)
      ((afterRecord lib globalConfig r req dhtBytes).play oracle).2) ∨
    ∃ e, afterRecord lib globalConfig r req dhtBytes = .done (.error e) := by
  unfold afterRecord
  cases hverify : verifyRecord lib r.config.networkId dhtBytes with
  | error e => exact Or.inr ⟨e, rfl⟩
  | ok zone =>
    dsimp only
    cases htargets : targetsOf zone r.subdomain with
    | error e => exact Or.inr ⟨e, rfl⟩
    | ok targets =>
      dsimp only
      cases hbody : readBody req.body with
      | error e => exact Or.inr ⟨e, rfl⟩
      | ok body =>
        exact Or.inl ⟨body, targets, _, hroute, ⟨zone, hverify, htargets⟩, hbody, rfl,
          play_forwarded 0 targets⟩

variable (lib globalConfig registry req) in
theorem play_handler_cases (oracle : ∀ s, AnswerTo s) :
    (∃ r dhtBytes body targets attempts, PutToTargets lib globalConfig registry req r dhtBytes
      body targets attempts ((handler lib globalConfig registry req).play oracle).1
      ((handler lib globalConfig registry req).play oracle).2) ∨
    TurnedDown ((handler lib globalConfig registry req).play oracle).1
      ((handler lib globalConfig registry req).play oracle).2 := by
  cases hroute : route registry req with
  | error e =>
    simp only [handler, hroute, Dialogue.play]
    exact Or.inr ⟨⟨e, rfl⟩, fun x hx => absurd hx List.not_mem_nil⟩
  | ok r =>
    cases hs : (oracle .swarm : Bool) with
    | false =>
      simp only [handler, hroute, Dialogue.play, slotOf, hs]
      exact Or.inr (turnedDown_swarm false _)
    | true =>
      cases ha : (oracle .record : ChannelAnswer Bytes) with
      | sendFailed =>
        simp only [handler, hroute, Dialogue.play, slotOf, hs, ha, if_true]
        exact Or.inr (turnedDown_record .sendFailed _)
      | dropped =>
        simp only [handler, hroute, Dialogue.play, slotOf, hs, ha, if_true]
        exact Or.inr (turnedDown_record .dropped _)
      | answered value =>
        cases value with
        | none =>
          simp only [handler, hroute, Dialogue.play, slotOf, hs, ha, if_true]
          exact Or.inr (turnedDown_record (.answered none) _)
        | some dhtBytes =>
          simp only [handler, hroute, Dialogue.play, slotOf, hs, ha, if_true]
          rcases play_afterRecord hroute dhtBytes with ⟨body, targets, attempts, hput⟩ | ⟨e, he⟩
          · exact Or.inl ⟨r, dhtBytes, body, targets, attempts, hput⟩
          · rw [he]
            exact Or.inr (turnedDown_record (.answered (some dhtBytes)) e)

variable {parsePeerId : Str → Option PeerId} {actions : List SystemAction} {s : System}

/-- However requests are interleaved: a request that is answered was either turned down before
any target had heard of it, or its record verified for its network and it was put to the
targets of its subdomain in their order, with its own method, path, headers and body, until
one replied. The client is answered with that reply as it is, and with an error only if the
reply is no HTTP response or all targets have failed. -/
theorem forwarded_or_turned_down
    (hrun : (system lib globalConfig parsePeerId).Run actions s) :
    ∀ f ∈ s.finished,
      (∃ r dhtBytes body targets attempts, PutToTargets lib globalConfig f.registry f.req r
        dhtBytes body targets attempts f.trace f.outcome) ∨ TurnedDown f.trace f.outcome := by
  intro f hf
  obtain ⟨hplays, -⟩ := (faithful_run hrun).finished f hf
  obtain ⟨oracle, -, -, hplay⟩ := exists_oracle_of_plays unasked hplays asksOnce_handler
  have hcases := play_handler_cases lib globalConfig f.registry f.req oracle
  rw [hplay] at hcases
  exact hcases

/-- The first of two requests is forwarded, the other has no record. -/
theorem forwarded_or_turned_down_two :
    ∃ s, (system ProxyHandler.sampleLibraries ProxyHandler.globalDefaults fun _ => none).Run
        twoRequests s ∧ s.finished.map (fun f => f.outcome.isOk) = [false, true] ∧
      ∀ f ∈ s.finished,
        (∃ r dhtBytes body targets attempts, PutToTargets ProxyHandler.sampleLibraries
          ProxyHandler.globalDefaults f.registry f.req r dhtBytes body targets attempts f.trace
          f.outcome) ∨ TurnedDown f.trace f.outcome := by
  have hrun := (system ProxyHandler.sampleLibraries ProxyHandler.globalDefaults
    fun _ => none).run_get twoRequests (by decide +kernel)
  exact ⟨_, hrun, by decide +kernel, forwarded_or_turned_down hrun⟩

end KineticAtlas.RequestForwarding
