import KineticAtlas.SwarmManager

/-!
The garbage collector against the clock (start_garbage_collector in swarm_manager.rs). The
manager is watched by an observer who notes when a call was last given a sender of a TLD and
when the collector last ran. A swarm lives at least the idle timeout beyond its last use, and
at most that and the time from one run of the collector to the next.
-/
namespace KineticAtlas.IdleSwarms

open Library.Texts Library.Runs KineticAtlas.Types SwarmManager

structure Watched where
  manager : History
  lastUse : Str → Option ℕ
  sinceTick : ℕ

/-- A call that returns a sender uses the swarm of its TLD. -/
def noteUse (now : ℕ) (lastUse : Str → Option ℕ) : Event → Str → Option ℕ
  | .returned _ tld _ (some _) => Function.update lastUse tld (some now)
  | _ => lastUse

def sinceTickAfter (sinceTick : ℕ) : Action → ℕ
  | .tick => 0
  | .advance d => sinceTick + d
  | _ => sinceTick

def watch (s : Watched) (a : Action) : Option Watched :=
  (managerStep s.manager.state a).map fun next => {
    manager := ⟨next.1, s.manager.log ++ next.2⟩
    lastUse := next.2.foldl (noteUse s.manager.state.now) s.lastUse
    sinceTick := sinceTickAfter s.sinceTick a }

def watched : Machine Watched Action where
  init := ⟨SwarmManager.manager.init, fun _ => none, 0⟩
  step := watch

variable {s s' : Watched} {is : List Action}

/-- The observer does not interfere. -/
theorem manager_run (hrun : watched.Run is s) : SwarmManager.manager.Run is s.manager := by
  induction hrun with
  | nil => exact Machine.Run.nil
  | snoc _ hstep ih =>
    obtain ⟨next, hnext, rfl⟩ := Option.map_eq_some_iff.mp hstep
    refine ih.snoc ?_
    show (managerStep _ _).map _ = _
    rw [hnext]
    rfl

/-- The collector runs before more time than `p` has passed since its last run. -/
def TickDue (p : ℕ) (s : Watched) (a : Action) : Prop := sinceTickAfter s.sinceTick a ≤ p

structure Timely (s : Watched) : Prop where
  used : ∀ tld handle, s.manager.state.swarms tld = some handle →
    s.lastUse tld = some handle.lastUsed
  past : ∀ tld time, s.lastUse tld = some time → time ≤ s.manager.state.now
  kept : ∀ tld time, s.lastUse tld = some time → s.manager.state.now ≤ time + idleTimeout →
    s.manager.state.swarms tld ≠ none
  collected : ∀ tld handle, s.manager.state.swarms tld = some handle →
    s.manager.state.now ≤ handle.lastUsed + idleTimeout + s.sinceTick

/-- What a step of the watched manager does. -/
theorem watch_cases {a : Action} (hstep : watch s a = some s') :
    ∃ evs, Step s.manager.state a s'.manager.state evs ∧
      s'.lastUse = evs.foldl (noteUse s.manager.state.now) s.lastUse ∧
      s'.sinceTick = sinceTickAfter s.sinceTick a := by
  obtain ⟨next, hnext, rfl⟩ := Option.map_eq_some_iff.mp hstep
  exact ⟨next.2, step_of_managerStep hnext, rfl, rfl⟩

/-- Nothing is timed but the swarms, the clock and the notes of the observer. -/
theorem Timely.of_same (h : Timely s) (hswarms : s'.manager.state.swarms = s.manager.state.swarms)
    (hnow : s'.manager.state.now = s.manager.state.now) (huse : s'.lastUse = s.lastUse)
    (htick : s'.sinceTick = s.sinceTick) : Timely s' := by
  refine ⟨?_, ?_, ?_, ?_⟩
  · rw [hswarms, huse]
    exact h.used
  · rw [hnow, huse]
    exact h.past
  · rw [hswarms, hnow, huse]
    exact h.kept
  · rw [hswarms, hnow, htick]
    exact h.collected

/-- A use of a TLD at the present time. -/
theorem Timely.of_use (h : Timely s) {tld : Str} (handle : SwarmHandle)
    (hlast : handle.lastUsed = s.manager.state.now)
    (hswarms : s'.manager.state.swarms =
      Function.update s.manager.state.swarms tld (some handle))
    (hnow : s'.manager.state.now = s.manager.state.now)
    (huse : s'.lastUse = Function.update s.lastUse tld (some s.manager.state.now))
    (htick : s'.sinceTick = s.sinceTick) : Timely s' := by
  refine ⟨fun tld' handle' hlive => ?_, fun tld' time htime => ?_, fun tld' time htime hrecent => ?_,
    fun tld' handle' hlive => ?_⟩
  · rw [hswarms] at hlive
    rw [huse]
    by_cases ht : tld' = tld
    · subst ht
      rw [Function.update_self] at hlive ⊢
      rw [← Option.some.inj hlive, hlast]
    · rw [Function.update_of_ne ht] at hlive ⊢
      exact h.used tld' handle' hlive
  · rw [huse] at htime
    rw [hnow]
    by_cases ht : tld' = tld
    · subst ht
      rw [Function.update_self] at htime
      exact (Option.some.inj htime).symm.le
    · rw [Function.update_of_ne ht] at htime
      exact h.past tld' time htime
  · rw [huse] at htime
    rw [hnow] at hrecent
    rw [hswarms]
    by_cases ht : tld' = tld
    · subst ht
      rw [Function.update_self]
      exact Option.some_ne_none handle
    · rw [Function.update_of_ne ht] at htime ⊢
      exact h.kept tld' time htime hrecent
  · rw [hswarms] at hlive
    rw [hnow, htick]
    by_cases ht : tld' = tld
    · subst ht
      rw [Function.update_self] at hlive
      rw [← Option.some.inj hlive, hlast]
      omega
    · rw [Function.update_of_ne ht] at hlive
      exact h.collected tld' handle' hlive

/-- The collector drops exactly the swarms that have been idle for too long. -/
theorem Timely.of_tick (h : Timely s) (hstep : watch s .tick = some s') : Timely s' := by
  obtain rfl : Watched.mk ⟨{ s.manager.state with
      swarms := retainSwarms s.manager.state.swarms s.manager.state.now },
      s.manager.log ++ [Event.collected (idleSwarms s.manager.state.swarms s.manager.state.now)]⟩
      s.lastUse 0 = s' := Option.some.inj hstep
  refine ⟨fun tld handle hlive => h.used tld handle (retainSwarms_some hlive), h.past,
    fun tld time htime hrecent => ?_, fun tld handle hlive => ?_⟩
  · dsimp only at htime hrecent ⊢
    cases hlive : s.manager.state.swarms tld with
    | none => exact absurd hlive (h.kept tld time htime hrecent)
    | some handle =>
      have hlast : time = handle.lastUsed :=
        Option.some.inj (htime.symm.trans (h.used tld handle hlive))
      have hbusy : ¬ s.manager.state.now - handle.lastUsed > idleTimeout := by omega
      simp [retainSwarms, idleSwarms, hlive, hbusy]
  · dsimp only at hlive ⊢
    have hold := retainSwarms_some hlive
    by_contra hlate
    have hidle : s.manager.state.now - handle.lastUsed > idleTimeout := by omega
    simp [retainSwarms, idleSwarms, hold, hidle] at hlive

theorem Timely.of_advance {d : ℕ} (h : Timely s) (hstep : watch s (.advance d) = some s') :
    Timely s' := by
  obtain rfl : Watched.mk ⟨{ s.manager.state with now := s.manager.state.now + d },
      s.manager.log ++ []⟩ s.lastUse (s.sinceTick + d) = s' := Option.some.inj hstep
  refine ⟨h.used, fun tld time htime => ?_, fun tld time htime hrecent => ?_,
    fun tld handle hlive => ?_⟩
  · exact (h.past tld time htime).trans (Nat.le_add_right _ d)
  · dsimp only at htime hrecent
    exact h.kept tld time htime (by omega)
  · have hbefore := h.collected tld handle hlive
    show s.manager.state.now + d ≤ _ + (s.sinceTick + d)
    omega

/-- Only the collector and the clock touch what the observer measures. -/
theorem action_cases (a : Action) :
    a = .tick ∨ (∃ d, a = .advance d) ∨ ∀ t, sinceTickAfter t a = t := by
  cases a with
  | tick => exact Or.inl rfl
  | advance d => exact Or.inr (Or.inl ⟨d, rfl⟩)
  | call | firstLock | resolve | secondLock | abandon => exact Or.inr (Or.inr fun _ => rfl)

theorem timely_step {a : Action} (h : Timely s) (hstep : watch s a = some s') : Timely s' := by
  rcases action_cases a with rfl | ⟨d, rfl⟩ | hother
  · exact h.of_tick hstep
  · exact h.of_advance hstep
  · obtain ⟨evs, hs, huse, htick⟩ := watch_cases hstep
    rw [hother] at htick
    generalize hstate : s'.manager.state = state at hs
    cases hs with
    | hit a c call handle hcall hhit =>
      exact h.of_use { handle with lastUsed := s.manager.state.now } rfl
        (by rw [hstate]; rfl) (by rw [hstate]; rfl) huse htick
    | spawn c tld config configClone hcall hmiss =>
      exact h.of_use ⟨s.manager.state.nodes.length, s.manager.state.now⟩ rfl
        (by rw [hstate]; rfl) (by rw [hstate]; rfl) huse htick
    | tick => exact absurd (hother 1) (by decide)
    | advance d =>
      obtain rfl : d = 0 := by simpa [sinceTickAfter] using hother 0
      exact h.of_same (by rw [hstate]) (by rw [hstate]; rfl) huse htick
    | call | miss | resolve | newFailed | abandon =>
      exact h.of_same (by rw [hstate]; rfl) (by rw [hstate]; rfl) huse htick

theorem timely_run (hrun : watched.Run is s) : Timely s := by
  have hinit : Timely watched.init :=
    ⟨fun _ _ h => (by cases h), fun _ _ h => (by cases h), fun _ _ h => (by cases h),
      fun _ _ h => (by cases h)⟩
  refine Machine.Run.invariant (P := fun _ s => Timely s) hinit ?_ hrun
  intro _ s a s' _ ih hstep
  exact timely_step ih hstep

theorem sinceTick_le {p : ℕ} (hrun : watched.Run is s) (hdue : watched.Throughout (TickDue p) is) :
    s.sinceTick ≤ p := by
  refine hrun.invariant_throughout (P := fun s => s.sinceTick ≤ p) (Nat.zero_le p) ?_ hdue
  intro s a s' _ hok hstep
  obtain ⟨_, -, -, htick⟩ := watch_cases hstep
  exact htick ▸ hok

/-- Where the collector runs at least every `p`, the swarm of a TLD is there for the idle
timeout after its last use, and gone after the idle timeout and `p`: whatever requests come
in, at no time are there swarms but of the TLDs used within that time. -/
theorem swarm_lives_while_used {p : ℕ} (hrun : watched.Run is s)
    (hdue : watched.Throughout (TickDue p) is) (tld : Str) :
    (∀ time, s.lastUse tld = some time → s.manager.state.now ≤ time + idleTimeout →
        s.manager.state.swarms tld ≠ none) ∧
      (s.manager.state.swarms tld ≠ none →
        ∃ time, s.lastUse tld = some time ∧ s.manager.state.now ≤ time + idleTimeout + p) := by
  have htimely := timely_run hrun
  refine ⟨htimely.kept tld, fun hlive => ?_⟩
  obtain ⟨handle, hhandle⟩ := Option.ne_none_iff_exists'.mp hlive
  have hkept := htimely.collected tld handle hhandle
  have htick := sinceTick_le hrun hdue
  exact ⟨handle.lastUsed, htimely.used tld handle hhandle, by omega⟩

/-- A step that takes no time is never late. -/
theorem due_snoc {p : ℕ} {a : Action} (hdue : watched.Throughout (TickDue p) is)
    (hother : ∀ t, sinceTickAfter t a = t) : watched.Throughout (TickDue p) (is ++ [a]) := by
  refine hdue.snoc fun s hrun => ?_
  rw [TickDue, hother]
  exact sinceTick_le hrun hdue

def loneNetwork : NetworkConfig :=
  ⟨"1.0", "kin-net", "kin", ["/a"], "127.0.0.1", none, none, none, none⟩

def loneUse : List Action :=
  [.advance 5, .tick, .call 0 ".kin" loneNetwork, .firstLock 0, .resolve 0 [], .secondLock 0 true]

theorem loneUse_due : watched.Throughout (TickDue 5) loneUse := by
  have hadvance : watched.Throughout (TickDue 5) ([] ++ [.advance 5]) := by
    refine (watched.throughout_nil _).snoc fun s hrun => ?_
    rw [hrun.unique Machine.Run.nil]
    exact Nat.le_refl 5
  have htick : watched.Throughout (TickDue 5) ([.advance 5] ++ [.tick]) :=
    hadvance.snoc fun _ _ => Nat.zero_le 5
  exact due_snoc (due_snoc (due_snoc (due_snoc htick fun _ => rfl) fun _ => rfl) fun _ => rfl)
    fun _ => rfl

theorem swarm_lives_while_used_lone :
    ∃ s, watched.Run loneUse s ∧ s.lastUse ".kin" = some 5 ∧
      s.manager.state.swarms ".kin" ≠ none := by
  have hrun := watched.run_get loneUse (by decide +kernel)
  have huse : ((watched.exec loneUse).get (by decide +kernel)).lastUse ".kin" = some 5 := by
    decide +kernel
  exact ⟨_, hrun, huse, (swarm_lives_while_used hrun loneUse_due ".kin").1 5 huse
    (by decide +kernel)⟩

end KineticAtlas.IdleSwarms
