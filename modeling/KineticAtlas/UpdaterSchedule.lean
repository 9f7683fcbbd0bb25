import KineticAtlas.Updater
import KineticAtlas.Library.Streaks
import Mathlib.Data.List.Chain

/-!
The updater against the clock (start_auto_updater in updater.rs). A fetch takes its time and a
sleep follows it: a day after a success, and after failures a delay that starts at an hour and
doubles up to a day. The server may answer as it likes; it is never asked twice in an hour, and
always again within a day of the end of a round's work.
-/
namespace KineticAtlas.UpdaterSchedule

open Library.Texts Library.Runs Library.Files Library.Streaks KineticAtlas.Types Registry Updater

/-- One round on the clock, in seconds. -/
structure Timed where
  start : ℕ
  duration : ℕ
  ok : Bool
  pause : ℕ

structure Paced (F : Type) where
  updater : UpdaterState F
  clock : ℕ
  rounds : List Timed

variable {F Key : Type} [DecidableEq F]

def succeeded (lib : Libraries Key) (config : AtlasConfig) (source : Str × Str) (round : Round F)
    (s : UpdaterState F) : Bool :=
  (fetchAndUpdate lib round.fs round.server source.1 source.2 config.networksDir s.disk).2.isOk

/-- A round of the loop, and how long its fetch and the reload after it take. -/
def pacedStep (lib : Libraries Key) (json : Json) (config : AtlasConfig) (s : Paced F)
    (i : Round F × ℕ) : Option (Paced F) :=
  (updaterSource config).map fun source =>
    let next := loopRound lib json config source.1 source.2 i.1 s.updater
    { updater := next.1
      clock := s.clock + i.2 + next.2
      rounds := s.rounds ++ [⟨s.clock, i.2, succeeded lib config source i.1 s.updater, next.2⟩] }

def paced (lib : Libraries Key) (json : Json) (config : AtlasConfig) (disk : Disk F)
    (registry : TldRegistry) : Machine (Paced F) (Round F × ℕ) where
  init := ⟨(updater lib json config disk registry).init, 0, []⟩
  step := pacedStep lib json config

/-- The delays of the loop. -/
def schedule : Backoff := ⟨hour, day, day, by decide⟩

def outcomes (rounds : List Timed) : List Bool := rounds.map Timed.ok

def Timed.next (r : Timed) : ℕ := r.start + r.duration + r.pause

/-- The delay, the pauses and the starts so far. -/
structure OnSchedule (s : Paced F) : Prop where
  delay : s.updater.failDelay = schedule.delayAfter (outcomes s.rounds)
  pauses : ∀ before r, before ++ [r] <+: s.rounds →
    r.pause = schedule.pause (schedule.delayAfter (outcomes before)) r.ok
  chained : s.rounds.IsChain fun r r' => r'.start = r.next
  clock : ∀ r ∈ s.rounds.getLast?, s.clock = r.next
  apart : s.rounds.Pairwise fun r r' => r.start + hour ≤ r'.start
  past : ∀ r ∈ s.rounds, r.start + hour ≤ s.clock

variable {lib : Libraries Key} {json : Json} {config : AtlasConfig} {disk : Disk F}
  {registry : TldRegistry} {is : List (Round F × ℕ)} {s s' : Paced F}

/-- The pause and the next delay of a round are those of the backoff. -/
theorem loopRound_delay (lib : Libraries Key) (json : Json) (config : AtlasConfig)
    (source : Str × Str) (round : Round F) (u : UpdaterState F) :
    (loopRound lib json config source.1 source.2 round u).1.failDelay =
        schedule.next u.failDelay (succeeded lib config source round u) ∧
      (loopRound lib json config source.1 source.2 round u).2 =
        schedule.pause u.failDelay (succeeded lib config source round u) := by
  unfold loopRound succeeded
  obtain ⟨disk', result⟩ :=
    fetchAndUpdate lib round.fs round.server source.1 source.2 config.networksDir u.disk
  cases result with
  | ok count => exact ⟨rfl, rfl⟩
  | error e => exact ⟨rfl, rfl⟩

theorem pause_bounds (past : List Bool) (ok : Bool) :
    hour ≤ schedule.pause (schedule.delayAfter past) ok ∧
      schedule.pause (schedule.delayAfter past) ok ≤ day := by
  cases ok with
  | true => exact ⟨schedule.base_le, Nat.le_refl day⟩
  | false => exact schedule.delayAfter_bounds past

theorem onSchedule_step {i : Round F × ℕ} (h : OnSchedule s)
    (hstep : pacedStep lib json config s i = some s') : OnSchedule s' := by
  obtain ⟨source, -, rfl⟩ := Option.map_eq_some_iff.mp hstep
  obtain ⟨hdelay, hpause⟩ := loopRound_delay lib json config source i.1 s.updater
  rw [h.delay] at hdelay hpause
  have hbounds := pause_bounds (outcomes s.rounds) (succeeded lib config source i.1 s.updater)
  rw [← hpause] at hbounds
  refine ⟨?_, fun before r hpre => ?_, ?_, fun r hr => ?_, ?_, fun r hr => ?_⟩
  · rw [outcomes, List.map_append, List.map_singleton, schedule.delayAfter_snoc]
    exact hdelay
  · rcases List.prefix_concat_iff.mp hpre with heq | hshort
    · obtain ⟨rfl, hlast⟩ := List.append_inj' heq rfl
      obtain rfl := List.singleton_inj.mp hlast
      exact hpause
    · exact h.pauses before r hshort
  · refine List.isChain_append.mpr ⟨h.chained, List.isChain_singleton _, ?_⟩
    intro r hr r' hr'
    obtain rfl : _ = r' := by simpa using hr'
    exact h.clock r hr
  · obtain rfl : _ = r := by simpa using hr
    rfl
  · refine List.pairwise_append.mpr ⟨h.apart, List.pairwise_singleton _ _, ?_⟩
    intro r hr r' hr'
    rw [List.mem_singleton.mp hr']
    exact h.past r hr
  · rcases List.mem_append.mp hr with hold | hlast
    · have := h.past r hold
      show r.start + hour ≤ s.clock + i.2 + _
      omega
    · rw [List.mem_singleton.mp hlast]
      show s.clock + hour ≤ s.clock + i.2 + _
      omega

theorem onSchedule_run (hrun : (paced lib json config disk registry).Run is s) : OnSchedule s := by
  have hinit : OnSchedule (paced lib json config disk registry).init := by
    refine ⟨rfl, fun before r hpre => ?_, List.isChain_nil, fun r hr => ?_, List.Pairwise.nil,
      fun r hr => absurd hr List.not_mem_nil⟩
    · simp [paced] at hpre
    · cases hr
  refine Machine.Run.invariant (P := fun _ s => OnSchedule s) hinit ?_ hrun
  intro _ s i s' _ ih hstep
  exact onSchedule_step ih hstep

/-- Whatever the server does and however long it takes: after a success the loop sleeps a day,
after the n-th failure in a row 2^(n-1) hours, but no more than a day. No two rounds start
within an hour, and each starts within a day of the end of the work of the round before. -/
theorem rounds_on_schedule (hrun : (paced lib json config disk registry).Run is s) :
    (∀ before r, before ++ [r] <+: s.rounds →
      r.pause = if r.ok then day else min (hour * 2 ^ streak (outcomes before)) day) ∧
    (s.rounds.Pairwise fun r r' => r.start + hour ≤ r'.start) ∧
    s.rounds.IsChain fun r r' =>
      r.start + r.duration + hour ≤ r'.start ∧ r'.start ≤ r.start + r.duration + day := by
  have h := onSchedule_run hrun
  refine ⟨fun before r hpre => ?_, h.apart, ?_⟩
  · rw [h.pauses before r hpre, Backoff.pause, schedule.delayAfter_eq]
    rfl
  · refine h.chained.imp_of_mem_imp fun r r' hr _ hnext => ?_
    obtain ⟨before, after, hsplit⟩ := List.append_of_mem hr
    have hpre : before ++ [r] <+: s.rounds := ⟨after, by rw [hsplit]; simp⟩
    have hbounds := pause_bounds (outcomes before) r.ok
    rw [← h.pauses before r hpre] at hbounds
    rw [hnext, Timed.next]
    omega

/-- A listing that cannot be had, and then one signed file. -/
def failedThenSynced : List (Round Str × ℕ) :=
  [({ signedRound with server := { signedRound.server with listing := fun _ => .sendError "down" } },
      30), (signedRound, 5)]

theorem rounds_on_schedule_synced :
    ∃ s, (paced oneSignature noNetworks syncedConfig (fun _ => none) .new).Run failedThenSynced s ∧
      s.rounds.map Timed.start = [0, 30 + hour] ∧
      s.rounds.Pairwise fun r r' => r.start + hour ≤ r'.start := by
  have hrun := (paced oneSignature noNetworks syncedConfig (fun _ => none) .new).run_get
    failedThenSynced rfl
  exact ⟨_, hrun, by decide +kernel, (rounds_on_schedule hrun).2.1⟩

end KineticAtlas.UpdaterSchedule
