import KineticAtlas.NodeLoop

/-!
Response accounting of the node's event loop over whole runs. A history records
the commands taken from the channel and every reply with the input that caused it.
Read through one kind of command, a history is a ledger: commands store or refuse
responders and events settle them. Query and request ids are fresh, so those two
ledgers stay full; dials are keyed by peer, and their ledger stays full exactly as
long as no lookup is stored over another one still waiting for the same peer.
-/
namespace KineticAtlas.NodeAccounting

open Library.Texts Library.Runs Library.Ledgers KineticAtlas.Types NodeLoop

def withResponder (r : ℕ) : NetworkCommand Unit → NetworkCommand ℕ
  | .getRecord domain _ => .getRecord domain r
  | .lookupPeer peerIdStr _ => .lookupPeer peerIdStr r
  | .sendProxyRequest peerId request _ => .sendProxyRequest peerId request r

def inputWithResponder (r : ℕ) : LoopInput Unit → LoopInput ℕ
  | .recv cmd answers => .recv (cmd.map (withResponder r)) answers
  | .event event => .event event

/-- The loop's state with the commands taken so far and the replies given so far,
each with the input of the turn that gave it. -/
structure History where
  state : NodeState ℕ
  taken : List (NetworkCommand Unit × Libp2pAnswers)
  replies : List (Reply ℕ × LoopInput Unit)

def takenBy : LoopInput Unit → List (NetworkCommand Unit × Libp2pAnswers)
  | .recv (some cmd) answers => [(cmd, answers)]
  | _ => []

/-- The loop as a machine. A run stops where the channel is found closed. -/
def machine (parsePeerId : Str → Option PeerId) : Machine History (LoopInput Unit) where
  init := ⟨⟨fun _ => none, fun _ => none, fun _ => none⟩, [], []⟩
  step h i :=
    (loopTurn parsePeerId h.state (inputWithResponder h.taken.length i)).map fun turn =>
      { state := turn.state
        taken := h.taken ++ takenBy i
        replies := h.replies ++ turn.reply.toList.map (fun reply => (reply, i)) }

/-- The commands that a key function assigns a key, with that key and their position. -/
def storedBy {K : Type} (key : NetworkCommand Unit → Libp2pAnswers → Option K)
    (taken : List (NetworkCommand Unit × Libp2pAnswers)) : List (K × ℕ) :=
  taken.zipIdx.filterMap fun entry => (key entry.1.1 entry.1.2).map fun k => (k, entry.2)

def answersBy {V : Type} (value : Reply ℕ → Option (ℕ × V))
    (replies : List (Reply ℕ × LoopInput Unit)) : List (ℕ × (V × LoopInput Unit)) :=
  replies.filterMap fun entry => (value entry.1).map fun v => (v.1, (v.2, entry.2))

def queryKey : NetworkCommand Unit → Libp2pAnswers → Option ℕ
  | .getRecord _ _, answers => some answers.queryId
  | _, _ => none

def requestKey : NetworkCommand Unit → Libp2pAnswers → Option ℕ
  | .sendProxyRequest _ _ _, answers => some answers.requestId
  | _, _ => none

/-- A lookup is stored under its peer when the dial was started. -/
def dialKey (parsePeerId : Str → Option PeerId) :
    NetworkCommand Unit → Libp2pAnswers → Option PeerId
  | .lookupPeer peerIdStr _, answers => if answers.dialOk then parsePeerId peerIdStr else none
  | _, _ => none

def dialRefused (parsePeerId : Str → Option PeerId) :
    NetworkCommand Unit → Libp2pAnswers → Option Unit
  | .lookupPeer peerIdStr _, answers =>
    if answers.dialOk ∧ (parsePeerId peerIdStr).isSome then none else some ()
  | _, _ => none

def recordReply : Reply ℕ → Option (ℕ × Option Bytes)
  | .record n value => some (n, value)
  | _ => none

def peerReply : Reply ℕ → Option (ℕ × Option IpAddr)
  | .peer n ip => some (n, ip)
  | _ => none

def proxyReply : Reply ℕ → Option (ℕ × Option ProxyResponse)
  | .proxy n response => some (n, response)
  | _ => none

def queryLedger (h : History) : Ledger ℕ ℕ (Option Bytes × LoopInput Unit) where
  pending := h.state.pendingQueries
  stored := storedBy queryKey h.taken
  refused := []
  answers := answersBy recordReply h.replies

def requestLedger (h : History) : Ledger ℕ ℕ (Option ProxyResponse × LoopInput Unit) where
  pending := h.state.pendingRequests
  stored := storedBy requestKey h.taken
  refused := []
  answers := answersBy proxyReply h.replies

def dialLedger (parsePeerId : Str → Option PeerId) (h : History) :
    Ledger PeerId ℕ (Option IpAddr × LoopInput Unit) where
  pending := h.state.pendingDials
  stored := storedBy (dialKey parsePeerId) h.taken
  refused := (storedBy (dialRefused parsePeerId) h.taken).map Prod.snd
  answers := answersBy peerReply h.replies

theorem mem_storedBy_iff {K : Type} (key : NetworkCommand Unit → Libp2pAnswers → Option K)
    (taken : List (NetworkCommand Unit × Libp2pAnswers)) (k : K) (n : ℕ) :
    (k, n) ∈ storedBy key taken ↔
      ∃ cmd answers, taken[n]? = some (cmd, answers) ∧ key cmd answers = some k := by
  simp only [storedBy, List.mem_filterMap, Option.map_eq_some_iff, Prod.mk.injEq,
    Prod.exists, List.mem_zipIdx_iff_getElem?]
  constructor
  · rintro ⟨cmd, answers, m, hget, k', hkey, rfl, rfl⟩
    exact ⟨cmd, answers, hget, hkey⟩
  · rintro ⟨cmd, answers, hget, hkey⟩
    exact ⟨cmd, answers, n, hget, k, hkey, rfl, rfl⟩

theorem storedBy_snoc {K : Type} (key : NetworkCommand Unit → Libp2pAnswers → Option K)
    (taken : List (NetworkCommand Unit × Libp2pAnswers)) (cmd : NetworkCommand Unit)
    (answers : Libp2pAnswers) :
    storedBy key (taken ++ [(cmd, answers)]) =
      storedBy key taken ++ ((key cmd answers).map fun k => (k, taken.length)).toList := by
  cases hkey : key cmd answers <;>
    simp [storedBy, List.zipIdx_append, hkey]

theorem storedBy_lt {K : Type} (key : NetworkCommand Unit → Libp2pAnswers → Option K)
    (taken : List (NetworkCommand Unit × Libp2pAnswers)) (k : K) (n : ℕ)
    (h : (k, n) ∈ storedBy key taken) : n < taken.length := by
  obtain ⟨cmd, answers, hget, -⟩ := (mem_storedBy_iff key taken k n).mp h
  exact (List.getElem?_eq_some_iff.mp hget).choose

def queryMove (h : History) (i : LoopInput Unit) : Ledger ℕ ℕ (Option Bytes × LoopInput Unit) :=
  match i with
  | .recv (some (.getRecord _ _)) answers =>
    (queryLedger h).store answers.queryId h.taken.length
  | .event (.outboundQueryProgressed id result) => (queryLedger h).settle id (result.value, i)
  | _ => queryLedger h

def requestMove (h : History) (i : LoopInput Unit) :
    Ledger ℕ ℕ (Option ProxyResponse × LoopInput Unit) :=
  match i with
  | .recv (some (.sendProxyRequest _ _ _)) answers =>
    (requestLedger h).store answers.requestId h.taken.length
  | .event (.response requestId response) =>
    (requestLedger h).settle requestId (some response, i)
  | .event (.outboundFailure requestId) => (requestLedger h).settle requestId (none, i)
  | _ => requestLedger h

def dialMove (parsePeerId : Str → Option PeerId) (h : History) (i : LoopInput Unit) :
    Ledger PeerId ℕ (Option IpAddr × LoopInput Unit) :=
  match i with
  | .recv (some (.lookupPeer peerIdStr resp)) answers =>
    match dialKey parsePeerId (.lookupPeer peerIdStr resp) answers with
    | some peerId => (dialLedger parsePeerId h).store peerId h.taken.length
    | none => (dialLedger parsePeerId h).refuse h.taken.length (none, i)
  | .event (.connectionEstablished peerId remoteAddress) =>
    (dialLedger parsePeerId h).settle peerId (remoteIp remoteAddress, i)
  | .event (.outgoingConnectionError (some peerId)) =>
    (dialLedger parsePeerId h).settle peerId (none, i)
  | _ => dialLedger parsePeerId h

variable {parsePeerId : Str → Option PeerId} {h h' : History} {i : LoopInput Unit}

theorem machine_step (hstep : (machine parsePeerId).step h i = some h') :
    ∃ turn, loopTurn parsePeerId h.state (inputWithResponder h.taken.length i) = some turn ∧
      h' =
        { state := turn.state
          taken := h.taken ++ takenBy i
          replies := h.replies ++ turn.reply.toList.map (fun reply => (reply, i)) } := by
  obtain ⟨turn, hturn, rfl⟩ := Option.map_eq_some_iff.mp hstep
  exact ⟨turn, hturn, rfl⟩

theorem taken_step (hstep : (machine parsePeerId).step h i = some h') :
    h'.taken = h.taken ++ takenBy i := by
  obtain ⟨turn, _, rfl⟩ := machine_step hstep
  rfl

section

attribute [local simp] queryLedger queryMove requestLedger requestMove dialLedger dialMove
  takenBy storedBy_snoc queryKey requestKey dialKey dialRefused answersBy recordReply proxyReply
  peerReply

theorem ledgers_command {cmd : NetworkCommand Unit} {answers : Libp2pAnswers}
    (hstep : (machine parsePeerId).step h (.recv (some cmd) answers) = some h') :
    queryLedger h' = queryMove h (.recv (some cmd) answers) ∧
      requestLedger h' = requestMove h (.recv (some cmd) answers) ∧
      dialLedger parsePeerId h' = dialMove parsePeerId h (.recv (some cmd) answers) := by
  obtain ⟨turn, hturn, rfl⟩ := machine_step hstep
  simp only [inputWithResponder, Option.map_some, loopTurn, Option.some.injEq] at hturn
  subst turn
  cases cmd with
  | getRecord domain resp => simp [withResponder, handleCommand, Ledger.store]
  | lookupPeer peerIdStr resp =>
    cases hp : parsePeerId peerIdStr <;> cases hd : answers.dialOk <;>
      simp [withResponder, handleCommand, Ledger.store, Ledger.refuse, hp, hd]
  | sendProxyRequest peerId request resp => simp [withResponder, handleCommand, Ledger.store]

theorem ledgers_event {event : SwarmEvent}
    (hstep : (machine parsePeerId).step h (.event event) = some h') :
    queryLedger h' = queryMove h (.event event) ∧
      requestLedger h' = requestMove h (.event event) ∧
      dialLedger parsePeerId h' = dialMove parsePeerId h (.event event) := by
  obtain ⟨turn, hturn, rfl⟩ := machine_step hstep
  simp only [inputWithResponder, loopTurn, Option.some.injEq] at hturn
  subst turn
  cases event with
  | outboundQueryProgressed id result =>
    cases hq : h.state.pendingQueries id <;> simp [handleEvent, Ledger.settle, hq]
  | response requestId response =>
    cases hr : h.state.pendingRequests requestId <;> simp [handleEvent, Ledger.settle, hr]
  | outboundFailure requestId =>
    cases hr : h.state.pendingRequests requestId <;> simp [handleEvent, Ledger.settle, hr]
  | connectionEstablished peerId remoteAddress =>
    cases hd : h.state.pendingDials peerId <;> simp [handleEvent, Ledger.settle, hd]
  | outgoingConnectionError peer =>
    cases peer with
    | none => simp [handleEvent]
    | some peerId =>
      cases hd : h.state.pendingDials peerId <;> simp [handleEvent, Ledger.settle, hd]
  | request | identify | other => simp [handleEvent]

end

/-- A turn is one move on each of the three ledgers. -/
theorem ledgers_step (hstep : (machine parsePeerId).step h i = some h') :
    queryLedger h' = queryMove h i ∧ requestLedger h' = requestMove h i ∧
      dialLedger parsePeerId h' = dialMove parsePeerId h i := by
  cases i with
  | recv cmd answers =>
    cases cmd with
    | none => simp [machine, inputWithResponder, loopTurn] at hstep
    | some cmd => exact ledgers_command hstep
  | event event => exact ledgers_event hstep

def QueryCause (id : ℕ) (a : Option Bytes × LoopInput Unit) : Prop :=
  ∃ result : QueryResult, a = (result.value, .event (.outboundQueryProgressed id result))

def RequestCause (id : ℕ) (a : Option ProxyResponse × LoopInput Unit) : Prop :=
  (∃ response, a = (some response, .event (.response id response))) ∨
    a = (none, .event (.outboundFailure id))

def DialCause (peerId : PeerId) (a : Option IpAddr × LoopInput Unit) : Prop :=
  (∃ addr, a = (remoteIp addr, .event (.connectionEstablished peerId addr))) ∨
    a = (none, .event (.outgoingConnectionError (some peerId)))

theorem queryLedger_fresh (h : History) : h.taken.length ∉ (queryLedger h).tokens := by
  intro hmem
  obtain ⟨⟨k, n⟩, hs, hn⟩ : ∃ x ∈ storedBy queryKey h.taken, x.2 = h.taken.length := by
    simpa [Ledger.tokens, queryLedger] using hmem
  have hlt := storedBy_lt queryKey h.taken k n hs
  omega

theorem requestLedger_fresh (h : History) : h.taken.length ∉ (requestLedger h).tokens := by
  intro hmem
  obtain ⟨⟨k, n⟩, hs, hn⟩ : ∃ x ∈ storedBy requestKey h.taken, x.2 = h.taken.length := by
    simpa [Ledger.tokens, requestLedger] using hmem
  have hlt := storedBy_lt requestKey h.taken k n hs
  omega

theorem dialLedger_fresh (parsePeerId : Str → Option PeerId) (h : History) :
    h.taken.length ∉ (dialLedger parsePeerId h).tokens := by
  intro hmem
  rcases List.mem_append.mp hmem with hs | hr
  · obtain ⟨⟨k, n⟩, hs, hn⟩ := List.mem_map.mp hs
    have hlt := storedBy_lt _ h.taken k n hs
    exact absurd hn (by simp only; omega)
  · obtain ⟨⟨k, n⟩, hs, hn⟩ := List.mem_map.mp hr
    have hlt := storedBy_lt _ h.taken k n hs
    exact absurd hn (by simp only; omega)

theorem queryMove_sound (hs : (queryLedger h).Sound QueryCause) :
    (queryMove h i).Sound QueryCause := by
  unfold queryMove
  split
  · exact hs.store (queryLedger_fresh h)
  · exact hs.settle ⟨_, rfl⟩
  · exact hs

theorem requestMove_sound (hs : (requestLedger h).Sound RequestCause) :
    (requestMove h i).Sound RequestCause := by
  unfold requestMove
  split
  · exact hs.store (requestLedger_fresh h)
  · exact hs.settle (Or.inl ⟨_, rfl⟩)
  · exact hs.settle (Or.inr rfl)
  · exact hs

theorem dialMove_sound (hs : (dialLedger parsePeerId h).Sound DialCause) :
    (dialMove parsePeerId h i).Sound DialCause := by
  unfold dialMove
  split
  · split
    · exact hs.store (dialLedger_fresh parsePeerId h)
    · exact hs.refuse (dialLedger_fresh parsePeerId h)
  · exact hs.settle (Or.inl ⟨_, rfl⟩)
  · exact hs.settle (Or.inr rfl)
  · exact hs

variable {is : List (LoopInput Unit)}

theorem queryLedger_sound (hrun : (machine parsePeerId).Run is h) :
    (queryLedger h).Sound QueryCause := by
  refine Machine.Run.invariant (P := fun _ h => (queryLedger h).Sound QueryCause)
    Ledger.sound_empty ?_ hrun
  intro _ _ _ _ _ hs hstep
  rw [(ledgers_step hstep).1]
  exact queryMove_sound hs

theorem requestLedger_sound (hrun : (machine parsePeerId).Run is h) :
    (requestLedger h).Sound RequestCause := by
  refine Machine.Run.invariant (P := fun _ h => (requestLedger h).Sound RequestCause)
    Ledger.sound_empty ?_ hrun
  intro _ _ _ _ _ hs hstep
  rw [(ledgers_step hstep).2.1]
  exact requestMove_sound hs

theorem dialLedger_sound (hrun : (machine parsePeerId).Run is h) :
    (dialLedger parsePeerId h).Sound DialCause := by
  refine Machine.Run.invariant (P := fun _ h => (dialLedger parsePeerId h).Sound DialCause)
    Ledger.sound_empty ?_ hrun
  intro _ _ _ _ _ hs hstep
  rw [(ledgers_step hstep).2.2]
  exact dialMove_sound hs

/-- No two get_record calls and no two send_request calls were given one id. -/
def FreshIds (h : History) : Prop :=
  ((storedBy queryKey h.taken).map Prod.fst).Nodup ∧
    ((storedBy requestKey h.taken).map Prod.fst).Nodup

theorem storedBy_append {K : Type} (key : NetworkCommand Unit → Libp2pAnswers → Option K)
    (taken more : List (NetworkCommand Unit × Libp2pAnswers)) :
    storedBy key taken <+: storedBy key (taken ++ more) := by
  unfold storedBy
  rw [List.zipIdx_append, List.filterMap_append]
  exact List.prefix_append _ _

theorem FreshIds.of_step (hstep : (machine parsePeerId).step h i = some h')
    (hf : FreshIds h') : FreshIds h := by
  unfold FreshIds at hf
  rw [taken_step hstep] at hf
  exact ⟨hf.1.sublist ((storedBy_append queryKey h.taken _).map Prod.fst).sublist,
    hf.2.sublist ((storedBy_append requestKey h.taken _).map Prod.fst).sublist⟩

/-- With the ids of all commands distinct, that of the last one was unused before. -/
theorem key_unused {key : NetworkCommand Unit → Libp2pAnswers → Option ℕ}
    {taken : List (NetworkCommand Unit × Libp2pAnswers)} {cmd : NetworkCommand Unit}
    {answers : Libp2pAnswers} {k : ℕ}
    (hnodup : ((storedBy key (taken ++ [(cmd, answers)])).map Prod.fst).Nodup)
    (hkey : key cmd answers = some k) (n : ℕ) : (k, n) ∉ storedBy key taken := by
  intro hmem
  rw [storedBy_snoc, List.map_append, List.nodup_append] at hnodup
  exact hnodup.2.2 k (List.mem_map_of_mem (f := Prod.fst) hmem) k (by simp [hkey]) rfl

theorem query_slot_free {domain : Str} {resp : Unit} {answers : Libp2pAnswers}
    (hs : (queryLedger h).Sound QueryCause) (hf : FreshIds h')
    (hstep : (machine parsePeerId).step h (.recv (some (.getRecord domain resp)) answers) =
      some h') :
    (queryLedger h).pending answers.queryId = none := by
  have hnodup := hf.1
  rw [taken_step hstep] at hnodup
  exact Option.eq_none_iff_forall_ne_some.mpr fun n hp =>
    key_unused hnodup rfl n (hs.pending_stored _ _ hp)

theorem request_slot_free {peerId : PeerId} {request : ProxyRequest} {resp : Unit}
    {answers : Libp2pAnswers} (hs : (requestLedger h).Sound RequestCause) (hf : FreshIds h')
    (hstep : (machine parsePeerId).step h
      (.recv (some (.sendProxyRequest peerId request resp)) answers) = some h') :
    (requestLedger h).pending answers.requestId = none := by
  have hnodup := hf.2
  rw [taken_step hstep] at hnodup
  exact Option.eq_none_iff_forall_ne_some.mpr fun n hp =>
    key_unused hnodup rfl n (hs.pending_stored _ _ hp)

theorem queryMove_full (hs : (queryLedger h).Sound QueryCause) (hfull : (queryLedger h).Full)
    (hstep : (machine parsePeerId).step h i = some h') (hf : FreshIds h') :
    (queryMove h i).Full := by
  unfold queryMove
  split
  · exact (hs.full_store_iff (queryLedger_fresh h)).mpr ⟨hfull, query_slot_free hs hf hstep⟩
  · exact hs.full_settle_iff.mpr hfull
  · exact hfull

theorem requestMove_full (hs : (requestLedger h).Sound RequestCause)
    (hfull : (requestLedger h).Full) (hstep : (machine parsePeerId).step h i = some h')
    (hf : FreshIds h') : (requestMove h i).Full := by
  unfold requestMove
  split
  · exact (hs.full_store_iff (requestLedger_fresh h)).mpr ⟨hfull, request_slot_free hs hf hstep⟩
  · exact hs.full_settle_iff.mpr hfull
  · exact hs.full_settle_iff.mpr hfull
  · exact hfull

theorem fresh_ledgers_full (hrun : (machine parsePeerId).Run is h) :
    FreshIds h → (queryLedger h).Full ∧ (requestLedger h).Full := by
  refine Machine.Run.invariant
    (P := fun _ h => FreshIds h → (queryLedger h).Full ∧ (requestLedger h).Full) ?_ ?_ hrun
  · exact fun _ => ⟨Ledger.full_empty, Ledger.full_empty⟩
  intro _ h i h' hrun ih hstep hf
  obtain ⟨hq, hr⟩ := ih (hf.of_step hstep)
  rw [(ledgers_step hstep).1, (ledgers_step hstep).2.1]
  exact ⟨queryMove_full (queryLedger_sound hrun) hq hstep hf,
    requestMove_full (requestLedger_sound hrun) hr hstep hf⟩

def respOf : Reply ℕ → ℕ
  | .record n _ => n
  | .peer n _ => n
  | .proxy n _ => n

def timesAnswered (h : History) (n : ℕ) : ℕ :=
  h.replies.countP fun entry => decide (respOf entry.1 = n)

def HeldNowhere (h : History) (n : ℕ) : Prop :=
  (∀ k, h.state.pendingQueries k ≠ some n) ∧ (∀ k, h.state.pendingRequests k ≠ some n) ∧
    ∀ p, h.state.pendingDials p ≠ some n

def HeldAsQuery (h : History) (n id : ℕ) : Prop :=
  (∀ k, h.state.pendingQueries k = some n ↔ k = id) ∧
    (∀ k, h.state.pendingRequests k ≠ some n) ∧ ∀ p, h.state.pendingDials p ≠ some n

def HeldAsRequest (h : History) (n id : ℕ) : Prop :=
  (∀ k, h.state.pendingRequests k = some n ↔ k = id) ∧
    (∀ k, h.state.pendingQueries k ≠ some n) ∧ ∀ p, h.state.pendingDials p ≠ some n

/-- Every reply is an answer in exactly one of the three ledgers. -/
theorem timesAnswered_eq (parsePeerId : Str → Option PeerId) (h : History) (n : ℕ) :
    timesAnswered h n = ((queryLedger h).answers.map Prod.fst).count n +
      ((requestLedger h).answers.map Prod.fst).count n +
      ((dialLedger parsePeerId h).answers.map Prod.fst).count n := by
  simp only [timesAnswered, queryLedger, requestLedger, dialLedger]
  induction h.replies with
  | nil => rfl
  | cons entry rest ih =>
    obtain ⟨reply, cause⟩ := entry
    cases reply with
    | record m _ | peer m _ | proxy m _ =>
      by_cases hm : m = n <;>
        simp [answersBy, recordReply, proxyReply, peerReply, respOf, hm] at ih ⊢ <;> omega

theorem mem_answersBy_iff {V : Type} (value : Reply ℕ → Option (ℕ × V))
    (replies : List (Reply ℕ × LoopInput Unit)) (n : ℕ) (v : V) (cause : LoopInput Unit) :
    (n, (v, cause)) ∈ answersBy value replies ↔
      ∃ reply, (reply, cause) ∈ replies ∧ value reply = some (n, v) := by
  simp only [answersBy, List.mem_filterMap, Option.map_eq_some_iff, Prod.mk.injEq, Prod.exists]
  constructor
  · rintro ⟨reply, cause', hmem, n', v', hval, rfl, rfl, rfl⟩
    exact ⟨reply, hmem, hval⟩
  · rintro ⟨reply, hmem, hval⟩
    exact ⟨reply, cause, hmem, n, v, hval, rfl, rfl, rfl⟩

variable (parsePeerId) in
/-- A command is a token of the ledger of its own kind only. -/
theorem not_mem_tokens {cmd : NetworkCommand Unit} {answers : Libp2pAnswers} {n : ℕ}
    (hn : h.taken[n]? = some (cmd, answers)) :
    (queryKey cmd answers = none → n ∉ (queryLedger h).tokens) ∧
      (requestKey cmd answers = none → n ∉ (requestLedger h).tokens) ∧
      (dialKey parsePeerId cmd answers = none → dialRefused parsePeerId cmd answers = none →
        n ∉ (dialLedger parsePeerId h).tokens) := by
  have hkey : ∀ {K : Type} (key : NetworkCommand Unit → Libp2pAnswers → Option K),
      key cmd answers = none → n ∉ (storedBy key h.taken).map Prod.snd := by
    intro K key hnone hmem
    obtain ⟨⟨k, m⟩, hs, rfl⟩ := List.mem_map.mp hmem
    obtain ⟨cmd', answers', hget, hk⟩ := (mem_storedBy_iff key h.taken k m).mp hs
    obtain ⟨rfl, rfl⟩ := Prod.mk.inj (Option.some.inj (hn.symm.trans hget))
    rw [hnone] at hk
    cases hk
  refine ⟨fun hq => ?_, fun hr => ?_, fun hd hrefused => ?_⟩
  · simpa [Ledger.tokens, queryLedger] using hkey queryKey hq
  · simpa [Ledger.tokens, requestLedger] using hkey requestKey hr
  · intro hmem
    rcases List.mem_append.mp hmem with hs | hs
    · exact hkey (dialKey parsePeerId) hd hs
    · exact hkey (dialRefused parsePeerId) hrefused hs

theorem getRecord_accounted (hrun : (machine parsePeerId).Run is h) (hf : FreshIds h)
    {n : ℕ} {domain : Str} {resp : Unit} {answers : Libp2pAnswers}
    (hn : h.taken[n]? = some (.getRecord domain resp, answers)) :
    (HeldAsQuery h n answers.queryId ∧ timesAnswered h n = 0) ∨
      (HeldNowhere h n ∧ timesAnswered h n = 1 ∧ ∃ result : QueryResult,
        (.record n result.value, .event (.outboundQueryProgressed answers.queryId result)) ∈
          h.replies) := by
  have hsound := queryLedger_sound hrun
  obtain ⟨-, hreq, hdial⟩ := not_mem_tokens parsePeerId hn
  obtain ⟨hnoReq, hcountReq⟩ := (requestLedger_sound hrun).absent (hreq rfl)
  obtain ⟨hnoDial, hcountDial⟩ := (dialLedger_sound hrun).absent (hdial rfl rfl)
  have hstored : (answers.queryId, n) ∈ (queryLedger h).stored :=
    (mem_storedBy_iff queryKey h.taken answers.queryId n).mpr ⟨_, _, hn, rfl⟩
  have htimes := timesAnswered_eq parsePeerId h n
  rcases hsound.accounted (fresh_ledgers_full hrun hf).1 hstored with
    ⟨hheld, hcount⟩ | ⟨hheld, hcount, ⟨value, cause⟩, hans, result, hcause⟩
  · exact Or.inl ⟨⟨hheld, hnoReq, hnoDial⟩, by omega⟩
  · obtain ⟨rfl, rfl⟩ := Prod.mk.inj hcause
    obtain ⟨reply, hmem, hreply⟩ := (mem_answersBy_iff recordReply h.replies _ _ _).mp hans
    cases reply with
    | record m value =>
      obtain ⟨rfl, rfl⟩ : m = n ∧ value = result.value := by simpa [recordReply] using hreply
      exact Or.inr ⟨⟨hheld, hnoReq, hnoDial⟩, by omega, result, hmem⟩
    | peer m ip => simp [recordReply] at hreply
    | proxy m response => simp [recordReply] at hreply

theorem sendProxyRequest_accounted (hrun : (machine parsePeerId).Run is h) (hf : FreshIds h)
    {n : ℕ} {peerId : PeerId} {request : ProxyRequest} {resp : Unit} {answers : Libp2pAnswers}
    (hn : h.taken[n]? = some (.sendProxyRequest peerId request resp, answers)) :
    (HeldAsRequest h n answers.requestId ∧ timesAnswered h n = 0) ∨
      (HeldNowhere h n ∧ timesAnswered h n = 1 ∧
        ((∃ response, (.proxy n (some response), .event (.response answers.requestId response)) ∈
            h.replies) ∨
          (.proxy n none, .event (.outboundFailure answers.requestId)) ∈ h.replies)) := by
  have hsound := requestLedger_sound hrun
  obtain ⟨hquery, -, hdial⟩ := not_mem_tokens parsePeerId hn
  obtain ⟨hnoQuery, hcountQuery⟩ := (queryLedger_sound hrun).absent (hquery rfl)
  obtain ⟨hnoDial, hcountDial⟩ := (dialLedger_sound hrun).absent (hdial rfl rfl)
  have hstored : (answers.requestId, n) ∈ (requestLedger h).stored :=
    (mem_storedBy_iff requestKey h.taken answers.requestId n).mpr ⟨_, _, hn, rfl⟩
  have htimes := timesAnswered_eq parsePeerId h n
  rcases hsound.accounted (fresh_ledgers_full hrun hf).2 hstored with
    ⟨hheld, hcount⟩ | ⟨hheld, hcount, ⟨value, cause⟩, hans, hcause⟩
  · exact Or.inl ⟨⟨hheld, hnoQuery, hnoDial⟩, by omega⟩
  · refine Or.inr ⟨⟨hnoQuery, hheld, hnoDial⟩, by omega, ?_⟩
    obtain ⟨reply, hmem, hreply⟩ := (mem_answersBy_iff proxyReply h.replies _ _ _).mp hans
    cases reply with
    | proxy m response =>
      obtain ⟨rfl, rfl⟩ : m = n ∧ response = value := by simpa [proxyReply] using hreply
      rcases hcause with ⟨response, heq⟩ | heq
      · obtain ⟨rfl, rfl⟩ := Prod.mk.inj heq
        exact Or.inl ⟨response, hmem⟩
      · obtain ⟨rfl, rfl⟩ := Prod.mk.inj heq
        exact Or.inr hmem
    | record m value => simp [proxyReply] at hreply
    | peer m ip => simp [proxyReply] at hreply

/-- In every state the loop reaches, each GetRecord and each SendProxyRequest taken
from the channel waits under its own id in its own map, unanswered, or has been
answered exactly once and by an event that carries its id. -/
theorem commands_accounted (hrun : (machine parsePeerId).Run is h) (hf : FreshIds h) :
    (∀ n domain resp answers, h.taken[n]? = some (.getRecord domain resp, answers) →
      (HeldAsQuery h n answers.queryId ∧ timesAnswered h n = 0) ∨
        (HeldNowhere h n ∧ timesAnswered h n = 1 ∧ ∃ result : QueryResult,
          (.record n result.value, .event (.outboundQueryProgressed answers.queryId result)) ∈
            h.replies)) ∧
    ∀ n peerId request resp answers,
      h.taken[n]? = some (.sendProxyRequest peerId request resp, answers) →
      (HeldAsRequest h n answers.requestId ∧ timesAnswered h n = 0) ∨
        (HeldNowhere h n ∧ timesAnswered h n = 1 ∧
          ((∃ response,
              (.proxy n (some response), .event (.response answers.requestId response)) ∈
                h.replies) ∨
            (.proxy n none, .event (.outboundFailure answers.requestId)) ∈ h.replies)) :=
  ⟨fun _ _ _ _ hn => getRecord_accounted hrun hf hn,
    fun _ _ _ _ _ hn => sendProxyRequest_accounted hrun hf hn⟩

/-- A GetRecord given the query id 7. -/
def getRecordAs7 : LoopInput Unit := .recv (some (.getRecord "a.kin" ())) ⟨7, false, 0⟩

def recordFoundFor7 : LoopInput Unit := .event (.outboundQueryProgressed 7 (.foundRecord [1]))

theorem commands_accounted_found :
    ∃ h, (machine fun _ => none).Run [getRecordAs7, recordFoundFor7, recordFoundFor7] h ∧
      ((HeldAsQuery h 0 7 ∧ timesAnswered h 0 = 0) ∨
        (HeldNowhere h 0 ∧ timesAnswered h 0 = 1 ∧ ∃ result : QueryResult,
          (.record 0 result.value, .event (.outboundQueryProgressed 7 result)) ∈ h.replies)) := by
  have hrun := (machine fun _ => none).run_get
    [getRecordAs7, recordFoundFor7, recordFoundFor7] rfl
  exact ⟨_, hrun, (commands_accounted hrun ⟨by decide, by decide⟩).1 0 "a.kin" () ⟨7, false, 0⟩ rfl⟩

end KineticAtlas.NodeAccounting
