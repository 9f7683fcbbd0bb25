import KineticAtlas.SwarmManager
import Mathlib.Data.Finset.Basic

/-!
Nodes that end while they are in the map of swarms (swarm_manager.rs). The task of a node
may end at any time, by the shutdown signal or by a panic. Nothing in the manager looks at
it: a call returns the sender of the entry it finds, whether its node runs or not, and
only the collector removes an entry, after ten minutes without a call for its TLD.
-/
namespace KineticAtlas.DeadSwarms

open Library.Texts Library.Runs KineticAtlas.Types SwarmManager

/-- The manager with the nodes that have ended, those that had when a call began, and
the time at which a sender was last returned for a TLD. -/
structure MortalState where
  history : History
  ended : Finset ℕ
  begun : ℕ → Finset ℕ
  lastReturn : Str → Option ℕ

inductive MortalAction
  | manage (a : Action)
  | ends (n : ℕ)

def noteCall (ended : Finset ℕ) (begun : ℕ → Finset ℕ) : Action → ℕ → Finset ℕ
  | .call c _ _ => Function.update begun c ended
  | _ => begun

def noteReturn (now : ℕ) (times : Str → Option ℕ) : Event → Str → Option ℕ
  | .returned _ tld _ (some _) => Function.update times tld (some now)
  | _ => times

def mortalStep (s : MortalState) : MortalAction → Option MortalState
  | .manage a =>
    (managerStep s.history.state a).map fun next =>
      { history := ⟨next.1, s.history.log ++ next.2⟩
        ended := s.ended
        begun := noteCall s.ended s.begun a
        lastReturn := next.2.foldl (noteReturn next.1.now) s.lastReturn }
  | .ends n =>
    if n < s.history.state.nodes.length then some { s with ended := insert n s.ended } else none

/-- The manager and its nodes from a given state on. -/
def mortalFrom (s : MortalState) : Machine MortalState MortalAction where
  init := s
  step := mortalStep

def mortal : Machine MortalState MortalAction :=
  mortalFrom ⟨manager.init, ∅, fun _ => ∅, fun _ => none⟩

/-- The collector does not find that the last sender for the TLD was returned more than
ten minutes ago. -/
def Busy (tld : Str) (s : MortalState) : MortalAction → Prop
  | .manage .tick => ∀ time, s.lastReturn tld = some time →
      s.history.state.now - time ≤ idleTimeout
  | _ => True

/-- What the manager has done between two states. -/
def eventsSince (s s' : MortalState) : List Event := s'.history.log.drop s.history.log.length

variable {s s' t : MortalState} {m m' : ManagerState} {a : Action} {evs : List Event} {tld : Str}
  {n : ℕ}

/-- The manager does not notice the end of a node. -/
theorem mortal_step {i : MortalAction} (h : mortalStep s i = some s') :
    (∃ a evs, i = .manage a ∧ managerStep s.history.state a = some (s'.history.state, evs) ∧
      s'.history.log = s.history.log ++ evs ∧ s'.ended = s.ended ∧
      s'.begun = noteCall s.ended s.begun a ∧
      s'.lastReturn = evs.foldl (noteReturn s'.history.state.now) s.lastReturn) ∨
    ∃ n, i = .ends n ∧ n < s.history.state.nodes.length ∧
      s' = { s with ended := insert n s.ended } := by
  cases i with
  | manage a =>
    obtain ⟨next, hnext, rfl⟩ := Option.map_eq_some_iff.mp h
    exact Or.inl ⟨a, next.2, rfl, hnext, rfl, rfl, rfl, rfl⟩
  | ends n =>
    simp only [mortalStep] at h
    split at h
    · rename_i hspawned
      exact Or.inr ⟨n, rfl, hspawned, (Option.some.inj h).symm⟩
    · cases h

/-- A call fails only for want of an entry. -/
theorem failed_without_entry {c c' : ℕ} {config : NetworkConfig}
    (hstep : managerStep m (.secondLock c false) = some (m', evs))
    (hret : .returned c' tld config none ∈ evs) : holder m tld = none := by
  cases hc : m.calls c with
  | none => simp [managerStep, hc] at hstep
  | some call =>
    obtain ⟨tld', config', phase⟩ := call
    cases phase with
    | entered => simp [managerStep, hc] at hstep
    | resolving => simp [managerStep, hc] at hstep
    | resolved configClone =>
      cases hentry : m.swarms tld' with
      | some handle =>
        simp only [managerStep, hc, spawnOrReuse, lookupSwarm, hentry, Option.map_some,
          Option.some.injEq, Prod.mk.injEq] at hstep
        obtain ⟨-, rfl⟩ := hstep
        simp at hret
      | none =>
        simp only [managerStep, hc, spawnOrReuse, lookupSwarm, hentry, Option.map_none,
          Option.some.injEq, Prod.mk.injEq, Bool.false_eq_true, if_false] at hstep
        obtain ⟨-, rfl⟩ := hstep
        obtain ⟨-, rfl, -⟩ : c' = c ∧ tld = tld' ∧ config = config' := by simpa using hret
        simp [holder, hentry]

/-- The result of a call is the entry it finds, or the node it spawns for want of one. -/
theorem returned_entry {c : ℕ} {config : NetworkConfig} {sender : Option ℕ}
    (hstep : managerStep m a = some (m', evs)) (hret : .returned c tld config sender ∈ evs) :
    sender = holder m tld ∨ holder m tld = none ∧ sender = some m.nodes.length := by
  cases step_of_managerStep hstep with
  | hit a c' call handle hcall hhit =>
    obtain ⟨rfl, rfl, rfl, rfl⟩ : c = c' ∧ tld = call.tld ∧ config = call.config ∧
        sender = some handle.tx := by simpa using hret
    exact Or.inl (by simp [holder, hhit])
  | spawn c' tld' config' configClone hcall hmiss =>
    obtain ⟨rfl, rfl, rfl, rfl⟩ : c = c' ∧ tld = tld' ∧ config = config' ∧
        sender = some m.nodes.length := by simpa using hret
    exact Or.inr ⟨by simp [holder, hmiss], rfl⟩
  | newFailed c' call hcall =>
    obtain ⟨rfl, rfl, rfl, rfl⟩ : c = c' ∧ tld = call.tld ∧ config = call.config ∧
        sender = none := by simpa using hret
    exact Or.inl (failed_without_entry hstep hret).symm
  | tick => simp at hret
  | call | miss | resolve | abandon | advance => simp at hret

/-- An entry outlasts every step but a tick that finds it idle. -/
theorem entry_kept (hstep : Step m a m' evs) (hentry : holder m tld = some n) :
    holder m' tld = some n ∨ a = .tick ∧ holder m' tld = none ∧
      ∃ handle, m.swarms tld = some handle ∧ idleTimeout < m.now - handle.lastUsed := by
  cases hstep with
  | hit a c call handle hcall hhit =>
    refine Or.inl ?_
    by_cases htld : tld = call.tld
    · subst tld
      simpa [holder, setCall, hhit] using hentry
    · simpa [holder, setCall, htld] using hentry
  | spawn c tld' config configClone hcall hmiss =>
    have htld : tld ≠ tld' := by
      rintro rfl
      simp [holder, hmiss] at hentry
    exact Or.inl (by simpa [holder, setCall, htld] using hentry)
  | tick =>
    obtain ⟨handle, hhandle, rfl⟩ := Option.map_eq_some_iff.mp hentry
    by_cases hidle : idleTimeout < m.now - handle.lastUsed
    · exact Or.inr ⟨rfl, by simp [holder, retainSwarms, idleSwarms, hhandle, hidle], handle,
        hhandle, hidle⟩
    · exact Or.inl (by simp [holder, retainSwarms, idleSwarms, hhandle, hidle])
  | call | miss | resolve | newFailed | abandon | advance => exact Or.inl hentry

/-- A node that is not in the map does not come back. -/
theorem entry_gone (hstep : Step m a m' evs) (hspawned : n < m.nodes.length)
    (hgone : holder m tld ≠ some n) : holder m' tld ≠ some n := by
  cases hstep with
  | hit a c call handle hcall hhit =>
    by_cases htld : tld = call.tld
    · subst tld
      simpa [holder, setCall, hhit] using hgone
    · simpa [holder, setCall, htld] using hgone
  | spawn c tld' config configClone hcall hmiss =>
    by_cases htld : tld = tld'
    · have hfresh : m.nodes.length ≠ n := by omega
      simpa [holder, setCall, htld] using hfresh
    · simpa [holder, setCall, htld] using hgone
  | tick =>
    intro hback
    obtain ⟨handle, hhandle, rfl⟩ := Option.map_eq_some_iff.mp hback
    exact hgone (by simp [holder, retainSwarms_some hhandle])
  | call | miss | resolve | newFailed | abandon | advance => exact hgone

/-- Entries were last used when a sender was last returned for their TLD. -/
structure Known (s : MortalState) : Prop where
  ended : ∀ n ∈ s.ended, n < s.history.state.nodes.length
  begun : ∀ c, s.begun c ⊆ s.ended
  returns : ∀ tld handle, s.history.state.swarms tld = some handle →
    s.lastReturn tld = some handle.lastUsed

/-- The entry that a call stores was last used when the call returns its sender. -/
theorem returns_update {swarms : Str → Option SwarmHandle} {times : Str → Option ℕ}
    (h : ∀ tld handle, swarms tld = some handle → times tld = some handle.lastUsed)
    {stored : SwarmHandle} (tld' : Str) :
    ∀ tld handle, Function.update swarms tld' (some stored) tld = some handle →
      Function.update times tld' (some stored.lastUsed) tld = some handle.lastUsed := by
  intro tld handle hhandle
  by_cases htld : tld = tld'
  · subst tld
    rw [Function.update_self] at hhandle
    rw [Function.update_self, ← Option.some.inj hhandle]
  · rw [Function.update_of_ne htld] at hhandle ⊢
    exact h tld handle hhandle

theorem returns_step {times : Str → Option ℕ}
    (h : ∀ tld handle, m.swarms tld = some handle → times tld = some handle.lastUsed)
    (hstep : Step m a m' evs) :
    ∀ tld handle, m'.swarms tld = some handle →
      evs.foldl (noteReturn m'.now) times tld = some handle.lastUsed := by
  cases hstep with
  | hit a c call handle' hcall hhit => exact returns_update h call.tld
  | spawn c tld' config configClone hcall hmiss => exact returns_update h tld'
  | tick => exact fun tld handle hhandle => h tld handle (retainSwarms_some hhandle)
  | call | miss | resolve | newFailed | abandon | advance => exact h

theorem known_step {i : MortalAction} (h : Known s) (hstep : mortalStep s i = some s') :
    Known s' := by
  rcases mortal_step hstep with ⟨a, evs, rfl, hmanager, -, hended, hbegun, htimes⟩ |
    ⟨n, rfl, hspawned, rfl⟩
  · have hcases := step_of_managerStep hmanager
    refine ⟨fun n hn => ?_, fun c => ?_, ?_⟩
    · rw [hended] at hn
      exact (h.ended n hn).trans_le (nodes_step hcases).length_le
    · rw [hbegun, hended]
      cases a with
      | call c' tld config =>
        by_cases hc : c = c'
        · simp [noteCall, hc]
        · simpa [noteCall, hc] using h.begun c
      | firstLock | resolve | secondLock | abandon | tick | advance => exact h.begun c
    · rw [htimes]
      exact returns_step h.returns hcases
  · refine ⟨fun n' hn' => ?_, fun c => (h.begun c).trans (Finset.subset_insert _ _), h.returns⟩
    rcases Finset.mem_insert.mp hn' with rfl | hold
    · exact hspawned
    · exact h.ended n' hold

theorem known_run {is : List MortalAction} (hrun : mortal.Run is s) : Known s := by
  refine Machine.Run.invariant (P := fun _ s => Known s) ?_ ?_ hrun
  · exact ⟨fun n hn => absurd hn (Finset.notMem_empty n), fun _ => Finset.Subset.refl _, nofun⟩
  · intro _ _ _ _ _ ih hstep
    exact known_step ih hstep

theorem eventsSince_of_append (h : s'.history.log = s.history.log ++ evs) :
    eventsSince s s' = evs := by
  rw [eventsSince, h, List.drop_left]

/-- A call takes the entry it finds; a node spawned for want of one runs. -/
theorem returned_step {i : MortalAction} (h : Known s) (hstep : mortalStep s i = some s')
    {c : ℕ} {config : NetworkConfig} {sender : Option ℕ}
    (hret : .returned c tld config sender ∈ eventsSince s s') :
    sender = holder s.history.state tld ∨ holder s.history.state tld = none ∧
      ∃ fresh, sender = some fresh ∧ fresh ∉ s.begun c ∧ fresh ∉ s'.ended := by
  rcases mortal_step hstep with ⟨a, evs, rfl, hmanager, hlog, hended, -, -⟩ | ⟨n, rfl, -, rfl⟩
  · rw [eventsSince_of_append hlog] at hret
    refine (returned_entry hmanager hret).imp_right fun ⟨hnone, hfresh⟩ => ?_
    have hnot : s.history.state.nodes.length ∉ s.ended := fun hmem =>
      absurd (h.ended _ hmem) (Nat.lt_irrefl _)
    exact ⟨hnone, _, hfresh, fun hmem => hnot (h.begun c hmem), hended ▸ hnot⟩
  · simp [eventsSince] at hret

/-- An entry leaves the map only when its TLD has not been asked for in ten minutes. -/
theorem entry_step {i : MortalAction} (h : Known s) (hstep : mortalStep s i = some s')
    (hentry : holder s.history.state tld = some n) :
    holder s'.history.state tld = some n ∨ i = .manage .tick ∧
      holder s'.history.state tld = none ∧
      ∃ time, s.lastReturn tld = some time ∧ idleTimeout < s.history.state.now - time := by
  rcases mortal_step hstep with ⟨a, evs, rfl, hmanager, -⟩ | ⟨n', rfl, -, rfl⟩
  · refine (entry_kept (step_of_managerStep hmanager) hentry).imp_right ?_
    rintro ⟨rfl, hnone, handle, hhandle, hidle⟩
    exact ⟨rfl, hnone, handle.lastUsed, h.returns tld handle hhandle, hidle⟩
  · exact Or.inl hentry

/-- A node in the map, with nothing else returned for its TLD since. -/
def BoundSince (s : MortalState) (tld : Str) (n : ℕ) (u : MortalState) : Prop :=
  Known u ∧ holder u.history.state tld = some n ∧
    ∃ later, u.history.log = s.history.log ++ later ∧
      ∀ c config sender, .returned c tld config sender ∈ later → sender = some n

theorem boundSince_step {u u' : MortalState} {i : MortalAction} (h : BoundSince s tld n u)
    (hbusy : Busy tld u i) (hstep : mortalStep u i = some u') : BoundSince s tld n u' := by
  obtain ⟨hknown, hentry, later, hlater, hall⟩ := h
  have hkept : holder u'.history.state tld = some n := by
    rcases entry_step hknown hstep hentry with hsame | ⟨rfl, -, time, htime, hidle⟩
    · exact hsame
    · exact absurd (hbusy time htime) (Nat.not_le.mpr hidle)
  refine ⟨known_step hknown hstep, hkept, ?_⟩
  rcases mortal_step hstep with ⟨a, evs, rfl, hmanager, hlog, -⟩ | ⟨n', rfl, -, rfl⟩
  · refine ⟨later ++ evs, by rw [hlog, hlater, List.append_assoc], fun c config sender hret => ?_⟩
    rcases List.mem_append.mp hret with hold | hnow
    · exact hall c config sender hold
    · rcases returned_entry hmanager hnow with heq | ⟨hnone, -⟩
      · exact heq.trans hentry
      · rw [hentry] at hnone
        cases hnone
  · exact ⟨later, hlater, hall⟩

/-- A node out of the map, never returned since. -/
def GoneSince (s : MortalState) (tld : Str) (n : ℕ) (u : MortalState) : Prop :=
  (n < u.history.state.nodes.length ∧ holder u.history.state tld ≠ some n) ∧
    ∃ later, u.history.log = s.history.log ++ later ∧
      ∀ c config, .returned c tld config (some n) ∉ later

theorem goneSince_step {u u' : MortalState} {i : MortalAction} (h : GoneSince s tld n u)
    (hstep : mortalStep u i = some u') : GoneSince s tld n u' := by
  obtain ⟨⟨hspawned, hgone⟩, later, hlater, hall⟩ := h
  rcases mortal_step hstep with ⟨a, evs, rfl, hmanager, hlog, -⟩ | ⟨n', rfl, -, rfl⟩
  · have hcases := step_of_managerStep hmanager
    refine ⟨⟨hspawned.trans_le (nodes_step hcases).length_le, entry_gone hcases hspawned hgone⟩,
      later ++ evs, by rw [hlog, hlater, List.append_assoc], fun c config hret => ?_⟩
    rcases List.mem_append.mp hret with hold | hnow
    · exact hall c config hold
    · rcases returned_entry hmanager hnow with heq | ⟨-, heq⟩
      · exact hgone heq.symm
      · exact absurd (Option.some.inj heq) (Nat.ne_of_lt hspawned)
  · exact ⟨⟨hspawned, hgone⟩, later, hlater, hall⟩

/-- In every run: a call returns the sender of the entry it finds, also when its node had
ended before the call began, and else a node that runs, or nothing. An entry is removed
only by a tick that comes more than ten minutes after the last sender returned for its
TLD; while no tick does, all calls return the node of the entry; and once it is removed
they never do again. -/
theorem dead_swarm_kept_until_idle {is : List MortalAction} (hrun : mortal.Run is s) :
    (∀ i s', mortal.step s i = some s' → ∀ c tld config sender,
      .returned c tld config sender ∈ eventsSince s s' →
        sender = holder s.history.state tld ∨ holder s.history.state tld = none ∧
          ∃ fresh, sender = some fresh ∧ fresh ∉ s.begun c ∧ fresh ∉ s'.ended) ∧
    (∀ i s' tld n, mortal.step s i = some s' → holder s.history.state tld = some n →
      holder s'.history.state tld = some n ∨ i = .manage .tick ∧
        holder s'.history.state tld = none ∧
        ∃ time, s.lastReturn tld = some time ∧ idleTimeout < s.history.state.now - time) ∧
    (∀ tld n js t, holder s.history.state tld = some n → (mortalFrom s).Run js t →
      (mortalFrom s).Throughout (Busy tld) js →
        ∀ c config sender, .returned c tld config sender ∈ eventsSince s t → sender = some n) ∧
    ∀ tld n js t, n < s.history.state.nodes.length → holder s.history.state tld ≠ some n →
      (mortalFrom s).Run js t → ∀ c config, .returned c tld config (some n) ∉ eventsSince s t := by
  have hknown := known_run hrun
  refine ⟨fun i s' hstep c tld config sender => returned_step hknown hstep,
    fun i s' tld n hstep => entry_step hknown hstep, ?_, ?_⟩
  · intro tld n js t hentry hlater hbusy
    have hbound : BoundSince s tld n t :=
      hlater.invariant_throughout (P := BoundSince s tld n)
        ⟨hknown, hentry, [], (List.append_nil _).symm, nofun⟩
        (fun _ _ _ h hok hstep => boundSince_step h hok hstep) hbusy
    obtain ⟨-, -, later, hlog, hall⟩ := hbound
    rw [eventsSince_of_append hlog]
    exact hall
  · intro tld n js t hspawned hgone hlater
    have hsince : GoneSince s tld n t :=
      Machine.Run.invariant (P := fun _ u => GoneSince s tld n u)
        ⟨⟨hspawned, hgone⟩, [], (List.append_nil _).symm, nofun⟩
        (fun _ _ _ _ _ h hstep => goneSince_step h hstep) hlater
    obtain ⟨-, later, hlog, hall⟩ := hsince
    rw [eventsSince_of_append hlog]
    exact hall

/-- A node is spawned and ends; then another call begins. -/
def deadKin : List MortalAction :=
  [.manage (.call 0 ".kin" kinConfig), .manage (.firstLock 0), .manage (.resolve 0 []),
    .manage (.secondLock 0 true), .ends 0, .manage (.call 1 ".kin" kinConfig)]

def deadState : MortalState := (mortal.exec deadKin).get rfl

theorem deadState_run : mortal.Run deadKin deadState := mortal.run_get deadKin rfl

/-- The call is given the sender of a node that had ended when it began. -/
theorem dead_swarm_returned :
    ∃ s', mortal.Run deadKin deadState ∧ 0 ∈ deadState.begun 1 ∧
      mortal.step deadState (.manage (.firstLock 1)) = some s' ∧
      .returned 1 ".kin" kinConfig (some 0) ∈ eventsSince deadState s' :=
  ⟨_, deadState_run, by decide, rfl, List.mem_cons_self⟩

/-- Calls for the TLD nine minutes apart, with a tick in between. -/
def trafficBefore : List MortalAction :=
  [.manage (.firstLock 1), .manage (.advance (9 * 60 * 1000000000))]

def trafficAfter : List MortalAction := [.manage (.call 2 ".kin" kinConfig), .manage (.firstLock 2)]

theorem traffic_busy :
    (mortalFrom deadState).Throughout (Busy ".kin")
      (trafficBefore ++ [.manage .tick] ++ trafficAfter) := by
  have hother : ∀ i ∈ trafficBefore ++ trafficAfter, ∀ s, Busy ".kin" s i := by
    simp [trafficBefore, trafficAfter, Busy]
  have hbefore : (mortalFrom deadState).Throughout (Busy ".kin") trafficBefore :=
    (Machine.throughout_nil _ _).append fun i hi => hother i (List.mem_append_left _ hi)
  have htick : ∀ s, (mortalFrom deadState).Run trafficBefore s → Busy ".kin" s (.manage .tick) := by
    intro s hs time htime
    obtain rfl := ((mortalFrom deadState).run_get trafficBefore rfl).unique hs
    obtain rfl : 0 = time := Option.some.inj htime
    decide
  exact (hbefore.snoc htick).append fun i hi => hother i (List.mem_append_right _ hi)

theorem dead_swarm_kept_under_traffic :
    ∃ t, (mortalFrom deadState).Run (trafficBefore ++ [.manage .tick] ++ trafficAfter) t ∧
      .returned 2 ".kin" kinConfig (some 0) ∈ eventsSince deadState t ∧
      ∀ c config sender, .returned c ".kin" config sender ∈ eventsSince deadState t →
        sender = some 0 := by
  have hlater :=
    (mortalFrom deadState).run_get (trafficBefore ++ [.manage .tick] ++ trafficAfter) rfl
  refine ⟨_, hlater, ?_, ?_⟩
  · exact List.mem_cons_of_mem _ (List.mem_cons_of_mem _ List.mem_cons_self)
  · exact (dead_swarm_kept_until_idle deadState_run).2.2.1 ".kin" 0 _ _ rfl hlater traffic_busy

end KineticAtlas.DeadSwarms
