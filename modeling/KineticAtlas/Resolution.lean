import KineticAtlas.NodeAccounting
import KineticAtlas.ProxyHandler

/-!
Resolution across the event loop and the handler. The loop answers a GetRecord
with the first progress of its query and drops the responder; the handler checks
the record afterwards. The main result joins the two: a request resolves exactly
if the first record that arrives for its query verifies.
-/
namespace KineticAtlas.Resolution

open Library.Texts Library.Runs Library.Ledgers KineticAtlas.Types Registry NodeLoop
  NodeAccounting ProxyHandler

/-- The results with which a query has progressed, in the order of the inputs. -/
def progress (queryId : ℕ) (is : List (LoopInput Unit)) : List QueryResult :=
  is.filterMap fun i =>
    match i with
    | .event (.outboundQueryProgressed id result) => if id = queryId then some result else none
    | _ => none

/-- What the handler receives on its responder; it is dropped if the loop ends first. -/
def answerTo (h : History) (n : ℕ) : ChannelAnswer Bytes :=
  match (queryLedger h).answers.lookup n with
  | some (value, _) => .answered value
  | none => .dropped

variable {parsePeerId : Str → Option PeerId} {h h' : History} {i : LoopInput Unit}
  {is pre post : List (LoopInput Unit)}

theorem progress_snoc (queryId : ℕ) (is : List (LoopInput Unit)) (i : LoopInput Unit) :
    progress queryId (is ++ [i]) = progress queryId is ++ progress queryId [i] := by
  simp [progress]

theorem eq_event_of_progress {queryId : ℕ} {result : QueryResult} {rest : List QueryResult}
    (h : progress queryId [i] = result :: rest) :
    i = .event (.outboundQueryProgressed queryId result) ∧ rest = [] := by
  cases i with
  | recv cmd answers => simp [progress] at h
  | event event =>
    cases event with
    | outboundQueryProgressed id result' =>
      by_cases hid : id = queryId
      · subst id
        obtain ⟨rfl, rfl⟩ : result' = result ∧ [] = rest := by simpa [progress] using h
        exact ⟨rfl, rfl⟩
      · simp [progress, hid] at h
    | response | request | outboundFailure | connectionEstablished
    | outgoingConnectionError | identify | other => simp [progress] at h

theorem taken_length (hrun : (machine parsePeerId).Run is h) :
    h.taken.length = (is.flatMap takenBy).length := by
  refine Machine.Run.invariant (P := fun is h => h.taken.length = (is.flatMap takenBy).length)
    rfl ?_ hrun
  intro is h i h' _ ih hstep
  rw [taken_step hstep]
  simp [ih]

/-- The query of a command waits for its first progress, or was answered by it. -/
def AnsweredByFirst (h : History) (queryId n : ℕ) : List QueryResult → Prop
  | [] => (queryLedger h).pending queryId = some n
  | first :: _ => ∃ cause, (n, (first.value, cause)) ∈ (queryLedger h).answers

/-- An answer given to a query stays. -/
theorem query_answer_kept {n : ℕ} {value : Option Bytes} {cause : LoopInput Unit}
    (hstep : (machine parsePeerId).step h i = some h')
    (hmem : (n, (value, cause)) ∈ (queryLedger h).answers) :
    (n, (value, cause)) ∈ (queryLedger h').answers := by
  rw [(ledgers_step hstep).1]
  unfold queryMove
  split
  · exact hmem
  · exact Ledger.mem_answers_settle hmem
  · exact hmem

/-- A query waits on while it does not progress: a fresh query takes another slot. -/
theorem query_pending_kept {queryId n : ℕ} (hrun : (machine parsePeerId).Run is h)
    (hstep : (machine parsePeerId).step h i = some h') (hf : FreshIds h')
    (hpending : (queryLedger h).pending queryId = some n) (hno : progress queryId [i] = []) :
    (queryLedger h').pending queryId = some n := by
  rw [(ledgers_step hstep).1]
  unfold queryMove
  split
  · rename_i domain resp answers
    have hfree := query_slot_free (queryLedger_sound hrun) hf hstep
    have hne : queryId ≠ answers.queryId := by
      rintro rfl
      rw [hpending] at hfree
      cases hfree
    simpa [Ledger.store, hne] using hpending
  · rename_i id result
    have hne : queryId ≠ id := by
      rintro rfl
      simp [progress] at hno
    exact Ledger.pending_settle_of_ne hne hpending
  · exact hpending

theorem answeredByFirst_step {queryId n : ℕ} (hrun : (machine parsePeerId).Run is h)
    (hstep : (machine parsePeerId).step h i = some h') (hf : FreshIds h')
    (hfirst : AnsweredByFirst h queryId n (progress queryId post)) :
    AnsweredByFirst h' queryId n (progress queryId (post ++ [i])) := by
  rw [progress_snoc]
  cases hp : progress queryId post with
  | cons first rest =>
    rw [hp] at hfirst
    obtain ⟨cause, hmem⟩ := hfirst
    exact ⟨cause, query_answer_kept hstep hmem⟩
  | nil =>
    rw [hp] at hfirst
    have hpending : (queryLedger h).pending queryId = some n := hfirst
    cases hi : progress queryId [i] with
    | nil => exact query_pending_kept hrun hstep hf hpending hi
    | cons result rest =>
      obtain ⟨rfl, rfl⟩ := eq_event_of_progress hi
      refine ⟨.event (.outboundQueryProgressed queryId result), ?_⟩
      rw [(ledgers_step hstep).1]
      exact Ledger.mem_settle_of_pending hpending

variable {domain : Str} {libp2p : Libp2pAnswers}

/-- From the command on, its query is answered by its first progress. -/
theorem answeredByFirst_run
    (hrun : (machine parsePeerId).Run (pre ++ .recv (some (.getRecord domain ())) libp2p :: post) h)
    (hf : FreshIds h) :
    AnsweredByFirst h libp2p.queryId (pre.flatMap takenBy).length
      (progress libp2p.queryId post) := by
  induction post using List.reverseRecOn generalizing h with
  | nil =>
    generalize his : pre ++ [.recv (some (.getRecord domain ())) libp2p] = is at hrun
    cases hrun with
    | nil => simp at his
    | snoc hrun hstep =>
      obtain ⟨rfl, hi⟩ := List.append_inj' his rfl
      obtain rfl := (List.cons.inj hi).1
      have hpending : (queryLedger h).pending libp2p.queryId =
          some (pre.flatMap takenBy).length := by
        rw [(ledgers_step hstep).1, ← taken_length hrun]
        simp [queryMove, Ledger.store]
      exact hpending
  | append_singleton post i ih =>
    rw [← List.cons_append, ← List.append_assoc] at hrun
    generalize his : pre ++ .recv (some (.getRecord domain ())) libp2p :: post ++ [i] = is at hrun
    cases hrun with
    | nil => simp at his
    | snoc hrun hstep =>
      obtain ⟨rfl, hi⟩ := List.append_inj' his rfl
      obtain rfl := (List.cons.inj hi).1
      exact answeredByFirst_step hrun hstep hf (ih hrun (hf.of_step hstep))

/-- A responder is answered once, so any answer found is the one received. -/
theorem answerTo_of_mem (hrun : (machine parsePeerId).Run is h) {n : ℕ} {value : Option Bytes}
    {cause : LoopInput Unit} (hmem : (n, (value, cause)) ∈ (queryLedger h).answers) :
    answerTo h n = .answered value := by
  have hnodup := (queryLedger_sound hrun).answers_nodup
  have hlookup : (queryLedger h).answers.lookup n = some (value, cause) := by
    obtain ⟨before, after, heq⟩ := List.append_of_mem hmem
    rw [List.lookup_eq_some_iff]
    refine ⟨before, after, heq, fun p hp => ?_⟩
    rw [heq, List.map_append, List.nodup_append] at hnodup
    have hne : p.1 ≠ n := hnodup.2.2 p.1 (List.mem_map_of_mem hp) n (by simp)
    simpa using hne.symm
  simp [answerTo, hlookup]

/-- A handler whose query was answered with the records `values`, in this order, and
then finished, resolves exactly if the first of them verifies. -/
theorem resolves_iff_first_verifies {Reveal : Type} {lib : Libraries Reveal}
    {globalConfig : AtlasConfig} {registry : TldRegistry} {answers : Answers} {req : HttpRequest}
    {r : Route} {values : List Bytes} (hroute : route registry req = .ok r)
    (hswarm : answers.swarm = true)
    (hrun : (machine parsePeerId).Run
      (pre ++ .recv (some (.getRecord r.baseDomain ())) libp2p :: post) h)
    (hf : FreshIds h)
    (hprogress : progress libp2p.queryId post = values.map .foundRecord ++ [.other])
    (hanswer : answers.record = answerTo h (pre.flatMap takenBy).length) :
    Resolved (handleProxyRequest lib globalConfig registry answers req) ↔
      ∃ first, values.head? = some first ∧ Verifies lib r.config.networkId first := by
  have hfirst := answeredByFirst_run hrun hf
  rw [hprogress] at hfirst
  cases values with
  | nil =>
    obtain ⟨cause, hmem⟩ := hfirst
    rw [answerTo_of_mem hrun hmem] at hanswer
    exact iff_of_false (not_resolved_of_no_record hroute hswarm hanswer) (by simp)
  | cons first rest =>
    obtain ⟨cause, hmem⟩ := hfirst
    rw [answerTo_of_mem hrun hmem] at hanswer
    rw [resolved_iff_verifies hroute hswarm hanswer]
    simp

def routeOfA : Route := ⟨"a.kin", ".kin", kinNetwork, "a.kin", "@"⟩

def queryOfA : LoopInput Unit := .recv (some (.getRecord routeOfA.baseDomain ())) ⟨7, false, 0⟩

def found (dhtBytes : Bytes) : LoopInput Unit :=
  .event (.outboundQueryProgressed 7 (.foundRecord dhtBytes))

def finished : LoopInput Unit := .event (.outboundQueryProgressed 7 .other)

def forged : Bytes := ascii "forged"

def answersFrom (h : History) : Answers := { revealAnswered with record := answerTo h 0 }

theorem resolves_when_genuine_first :
    ∃ h, (machine fun _ => none).Run
        ([] ++ queryOfA :: [found revealOfA, found forged, finished]) h ∧
      Resolved (handleProxyRequest sampleLibraries globalDefaults kinRegistry (answersFrom h)
        (requestFor "a.kin")) := by
  have hrun := (machine fun _ => none).run_get
    ([] ++ queryOfA :: [found revealOfA, found forged, finished]) rfl
  exact ⟨_, hrun, (resolves_iff_first_verifies (r := routeOfA) rfl rfl hrun
    ⟨by decide, by decide⟩ (show _ = [revealOfA, forged].map _ ++ _ from rfl) rfl).mpr
    ⟨revealOfA, rfl, revealOfA_verifies⟩⟩

/-- A forged record that arrives first fails the request, though a record that
verifies is found as well. -/
theorem forged_first_fails :
    ∃ h, (machine fun _ => none).Run
        ([] ++ queryOfA :: [found forged, found revealOfA, finished]) h ∧
      Verifies sampleLibraries routeOfA.config.networkId revealOfA ∧
      ¬ Resolved (handleProxyRequest sampleLibraries globalDefaults kinRegistry (answersFrom h)
        (requestFor "a.kin")) := by
  refine ⟨_, (machine fun _ => none).run_get _ rfl, revealOfA_verifies, fun hresolved => ?_⟩
  exact absurd (hresolved invalidFormat rfl) (by decide)

end KineticAtlas.Resolution
