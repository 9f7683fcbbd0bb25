import KineticAtlas.RegistrationBot
import KineticAtlas.Library.Runs

/-!
Registrations one after another. The file of a network is named by its TLD alone, and
the bot looks at no file that is there before it writes its own. The main result says in
which histories every registration keeps its TLD, its network id and its bind address to
itself: in those whose forms happened to be new in all three.
-/
namespace KineticAtlas.RegistrationRuns

open Library.Texts Library.Runs RegistrationBot
open IssueForm (Data)

/-- The networks directory, and the configurations written to it in order. -/
structure Directory where
  files : Str → Option BotConfig
  written : List BotConfig

structure Submission where
  env : Surroundings
  data : Data

def jsonPath (tld : Str) : Str := "networks/".toList ++ tld ++ ".json".toList

/-- One run of the bot. -/
def register (s : Directory) (i : Submission) : Option Directory :=
  match main i.env i.data with
  | .error _ => some s
  | .ok config => some {
      files := Function.update s.files (jsonPath config.tld) (some config)
      written := s.written ++ [config] }

def bot : Machine Directory Submission where
  init := ⟨fun _ => none, []⟩
  step := register

def Apart (c c' : BotConfig) : Prop :=
  c.tld ≠ c'.tld ∧ c.networkId ≠ c'.networkId ∧ c.localBindIp ≠ c'.localBindIp

/-- No two registrations share a key, and each one still has its file. -/
structure Unique (s : Directory) : Prop where
  apart : s.written.Pairwise Apart
  kept : ∀ config ∈ s.written, s.files (jsonPath config.tld) = some config

/-- A form that passes the checks names a TLD, a network id and a bind address that no
configuration written before has. -/
def NewKeys (s : Directory) (i : Submission) : Prop :=
  (∃ config, main i.env i.data = .ok config) →
    ∀ config ∈ s.written, config.tld ≠ normalTld i.data ∧
      config.networkId ≠ textOf i.data .networkId ∧
      config.localBindIp ≠ textOf i.data .localBindIp

theorem jsonPath_injective {tld tld' : Str} (h : jsonPath tld = jsonPath tld') : tld = tld' := by
  unfold jsonPath at h
  exact List.append_cancel_left (List.append_cancel_right h)

theorem register_total (s : Directory) (i : Submission) : ∃ s', register s i = some s' := by
  unfold register
  cases main i.env i.data with
  | error e => exact ⟨s, rfl⟩
  | ok config => exact ⟨_, rfl⟩

/-- What one run of the bot does to the directory. -/
theorem register_cases {s s' : Directory} {i : Submission} (h : register s i = some s') :
    (s' = s ∧ ∃ e, main i.env i.data = .error e) ∨
      ∃ config, main i.env i.data = .ok config ∧ s' = {
        files := Function.update s.files (jsonPath config.tld) (some config)
        written := s.written ++ [config] } := by
  unfold register at h
  cases hmain : main i.env i.data with
  | error e =>
    simp only [hmain] at h
    exact Or.inl ⟨(Option.some.inj h).symm, e, rfl⟩
  | ok config =>
    simp only [hmain] at h
    exact Or.inr ⟨config, rfl, (Option.some.inj h).symm⟩

theorem unique_init : Unique bot.init :=
  ⟨List.Pairwise.nil, fun _ hconfig => absurd hconfig List.not_mem_nil⟩

theorem newKeys_apart {s : Directory} {i : Submission} {config : BotConfig}
    (hmain : main i.env i.data = .ok config) :
    NewKeys s i ↔ ∀ c ∈ s.written, Apart c config := by
  have hpassed := main_passed hmain
  unfold NewKeys Apart
  rw [hpassed.tld, hpassed.networkId, hpassed.localBindIp]
  exact ⟨fun h => h ⟨config, hmain⟩, fun h _ => h⟩

/-- A registration with new keys leaves the others alone. -/
theorem unique_step {s s' : Directory} {i : Submission} (h : Unique s) (hnew : NewKeys s i)
    (hstep : register s i = some s') : Unique s' := by
  rcases register_cases hstep with ⟨rfl, -⟩ | ⟨config, hmain, rfl⟩
  · exact h
  · have hapart := (newKeys_apart hmain).mp hnew
    refine ⟨?_, fun c hc => ?_⟩
    · refine List.pairwise_append.mpr ⟨h.apart, List.pairwise_singleton _ _, ?_⟩
      intro c hc c' hc'
      rw [List.mem_singleton.mp hc']
      exact hapart c hc
    · rcases List.mem_append.mp hc with hold | hlast
      · have hpath : jsonPath c.tld ≠ jsonPath config.tld := fun heq =>
          (hapart c hold).1 (jsonPath_injective heq)
        exact (Function.update_of_ne hpath _ _).trans (h.kept c hold)
      · rw [List.mem_singleton.mp hlast]
        exact Function.update_self _ _ _

/-- Keys that are not new collide with those of a registration that is there. -/
theorem newKeys_of_unique {s s' : Directory} {i : Submission} (hstep : register s i = some s')
    (h : Unique s') : NewKeys s i := by
  rcases register_cases hstep with ⟨-, e, he⟩ | ⟨config, hmain, rfl⟩
  · rintro ⟨config, hmain⟩
    rw [he] at hmain
    cases hmain
  · rw [newKeys_apart hmain]
    intro c hc
    exact (List.pairwise_append.mp h.apart).2.2 c hc config (List.mem_singleton.mpr rfl)

/-- Registrations stay unique along a history exactly when each accepted form was new. -/
theorem registrations_unique_iff (is : List Submission) :
    (∀ js s, js <+: is → bot.Run js s → Unique s) ↔ bot.Throughout NewKeys is := by
  constructor
  · intro hunique js i s hpre hrun
    obtain ⟨s', hstep⟩ := register_total s i
    exact newKeys_of_unique hstep (hunique _ s' hpre (hrun.snoc hstep))
  · intro hnew js s hpre hrun
    have hprefix : bot.Throughout NewKeys js := fun ks i t hks => hnew ks i t (hks.trans hpre)
    exact hrun.invariant_throughout unique_init
      (fun _ _ _ hunique hkeys hstep => unique_step hunique hkeys hstep) hprefix

def submission (tld networkId localBindIp : Str) : Submission :=
  ⟨quietSurroundings, sampleForm tld networkId localBindIp "8080" sampleNodes⟩

def writtenFor (tld networkId localBindIp : Str) : BotConfig :=
  sampleConfig tld networkId localBindIp 8080 sampleNodes

theorem submission_accepted {tld networkId localBindIp : Str}
    (hgiven : tld ≠ [] ∧ networkId ≠ [] ∧ localBindIp ≠ [])
    (htld : strip (IssueForm.lower tld) = tld ∧ tld.all isAlphanumeric) :
    main (submission tld networkId localBindIp).env (submission tld networkId localBindIp).data =
      .ok (writtenFor tld networkId localBindIp) :=
  sampleNodes_accepted ⟨hgiven.1, hgiven.2.1, hgiven.2.2, by decide⟩ htld (by decide +kernel)

theorem register_submission (s : Directory) (tld networkId localBindIp : Str)
    (hgiven : tld ≠ [] ∧ networkId ≠ [] ∧ localBindIp ≠ [])
    (htld : strip (IssueForm.lower tld) = tld ∧ tld.all isAlphanumeric) :
    ∃ s', bot.step s (submission tld networkId localBindIp) = some s' ∧
      s'.files (jsonPath tld) = some (writtenFor tld networkId localBindIp) ∧
      s'.written = s.written ++ [writtenFor tld networkId localBindIp] := by
  refine ⟨⟨Function.update s.files (jsonPath tld) (some (writtenFor tld networkId localBindIp)), _⟩,
    ?_, Function.update_self _ _ _, rfl⟩
  show register s _ = _
  unfold register
  rw [submission_accepted hgiven htld]
  rfl

theorem first_registration : ∃ s, bot.Run [submission "fork" "fork-net" "127.0.0.2"] s ∧
    s.written = [writtenFor "fork" "fork-net" "127.0.0.2"] := by
  obtain ⟨s, hstep, -, hwritten⟩ := register_submission bot.init "fork" "fork-net" "127.0.0.2"
    ⟨by decide, by decide, by decide⟩ (by decide +kernel)
  exact ⟨s, Machine.Run.nil.snoc hstep, hwritten⟩

/-- Two registrations that share a key are not unique. -/
theorem not_unique_of_shared {s : Directory} {c c' : BotConfig} (h : s.written = [c] ++ [c'])
    (hshared : ¬ Apart c c') : ¬ Unique s := by
  intro hunique
  have hpair := hunique.apart
  rw [h, List.pairwise_append] at hpair
  exact hshared (hpair.2.2 c (List.mem_singleton.mpr rfl) c' (List.mem_singleton.mpr rfl))

/-- A second form for `.fork` is accepted and takes the file of the first; a form for
`.spoon` is accepted with the network id of `.fork`. -/
theorem second_applicant_takes_over :
    (∃ s, bot.Run [submission "fork" "fork-net" "127.0.0.2",
        submission "fork" "other-net" "127.0.0.3"] s ∧
      s.files (jsonPath "fork") = some (writtenFor "fork" "other-net" "127.0.0.3") ∧
      ¬ Unique s) ∧
    ∃ s, bot.Run [submission "fork" "fork-net" "127.0.0.2",
        submission "spoon" "fork-net" "127.0.0.3"] s ∧ ¬ Unique s := by
  obtain ⟨s, hfirst, hwritten⟩ := first_registration
  obtain ⟨t, hsecond, hfile, ht⟩ := register_submission s "fork" "other-net" "127.0.0.3"
    ⟨by decide, by decide, by decide⟩ (by decide +kernel)
  obtain ⟨u, hspoon, -, hu⟩ := register_submission s "spoon" "fork-net" "127.0.0.3"
    ⟨by decide, by decide, by decide⟩ (by decide +kernel)
  rw [hwritten] at ht hu
  exact ⟨⟨t, hfirst.snoc hsecond, hfile, not_unique_of_shared ht fun h => h.1 rfl⟩,
    u, hfirst.snoc hspoon, not_unique_of_shared hu fun h => h.2.1 rfl⟩

/-- A form for `.spoon` with keys of its own disturbs nothing. -/
theorem registrations_unique_apart :
    (∃ s, bot.Run [submission "fork" "fork-net" "127.0.0.2"] s ∧
      s.written = [writtenFor "fork" "fork-net" "127.0.0.2"]) ∧
    ∀ js s, js <+: [submission "fork" "fork-net" "127.0.0.2",
        submission "spoon" "spoon-net" "127.0.0.3"] → bot.Run js s → Unique s := by
  obtain ⟨s, hfirst, hwritten⟩ := first_registration
  refine ⟨⟨s, hfirst, hwritten⟩, (registrations_unique_iff _).mpr ?_⟩
  have hone : bot.Throughout NewKeys [submission "fork" "fork-net" "127.0.0.2"] := by
    refine (bot.throughout_nil NewKeys).snoc fun t ht _ config hconfig => ?_
    rw [ht.unique Machine.Run.nil] at hconfig
    exact absurd hconfig List.not_mem_nil
  refine hone.snoc fun t ht _ config hconfig => ?_
  rw [ht.unique hfirst, hwritten, List.mem_singleton] at hconfig
  subst hconfig
  decide +kernel

end KineticAtlas.RegistrationRuns
