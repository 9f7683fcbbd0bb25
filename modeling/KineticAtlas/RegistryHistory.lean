import KineticAtlas.AtlasScripts
import KineticAtlas.Library.Streaks
import KineticAtlas.RegistrationBot
import KineticAtlas.UptimeRule

/-!
What the repository of networks is for, without its files. Under each TLD it keeps the last
form accepted for it, and what the daily probes of its nodes have found since the TLD was
first registered. A network is shown offline when the last seven probes have failed and no
form has been accepted since the last one.
-/
namespace KineticAtlas.RegistryHistory

open Library.Texts Library.Streaks AtlasScripts RegistrationBot
open IssueForm (Data)

structure Network where
  config : BotConfig
  form : Data
  probes : List Bool
  probedSince : Bool

abbrev Networks := Str → Option Network

/-- A form was accepted, or the nodes of all networks were probed. -/
inductive Event
  | accepted (form : Data) (config : BotConfig)
  | probed (answers : BotConfig → Bool)

def Network.probe (answers : BotConfig → Bool) (n : Network) : Network :=
  { n with probes := n.probes ++ [answers n.config], probedSince := true }

/-- A new form takes over the probes of the network it replaces. -/
def after (networks : Networks) : Event → Networks
  | .accepted form config =>
    Function.update networks config.tld
      (some ⟨config, form, ((networks config.tld).map Network.probes).getD [], false⟩)
  | .probed answers => fun tld => (networks tld).map (Network.probe answers)

def history (events : List Event) : Networks := events.foldl after fun _ => none

def Network.Down (n : Network) : Prop := List.replicate 7 false <:+ n.probes ∧ n.probedSince = true

instance (n : Network) : Decidable n.Down := inferInstanceAs (Decidable (_ ∧ _))

def Network.status (n : Network) : Str := if n.Down then offlineBadge else activeBadge

/-- The counter is there from the first probe on. -/
def Network.counter (n : Network) : Option ℕ :=
  if n.probes = [] then none else some (streak n.probes)

/-- The cells of the row of a network. -/
def Network.cells (n : Network) : List Str :=
  rowCells n.config.tld (textOf n.form .networkId) ((n.form .networkType).getD "Public".toList)
    n.status (textOf n.form .desc) (textOf n.form .localBindIp) (textOf n.form .url)
    (textOf n.form .repo)

section Events

variable {networks : Networks} {form : Data} {config : BotConfig} {answers : BotConfig → Bool}
  {tld : Str} {n : Network}

/-- What is registered after a form was accepted. -/
theorem after_accepted_iff :
    after networks (.accepted form config) tld = some n ↔
      (tld ≠ config.tld ∧ networks tld = some n) ∨ (tld = config.tld ∧
        n = ⟨config, form, ((networks config.tld).map Network.probes).getD [], false⟩) := by
  by_cases htld : tld = config.tld
  · subst htld
    simp [after, eq_comm]
  · simp [after, htld]

theorem after_probed (networks : Networks) (answers : BotConfig → Bool) (tld : Str) :
    after networks (.probed answers) tld = (networks tld).map (Network.probe answers) := rfl

theorem after_probed_iff :
    after networks (.probed answers) tld = some n ↔
      ∃ m, networks tld = some m ∧ m.probe answers = n := Option.map_eq_some_iff

end Events

theorem history_snoc (events : List Event) (e : Event) :
    history (events ++ [e]) = after (history events) e := by
  rw [history, List.foldl_append]
  rfl

/-- A probe counts up or starts over, and shows what it has counted. -/
theorem counter_probe (n : Network) (answers : BotConfig → Bool) :
    (n.probe answers).counter =
      some (if answers n.config then 0 else n.counter.getD 0 + 1) := by
  have hold : n.counter.getD 0 = streak n.probes := by
    unfold Network.counter
    split
    · rename_i hnone
      rw [hnone]
      rfl
    · rfl
  have hprobed : (n.probe answers).probes ≠ [] := by simp [Network.probe]
  rw [hold, ← streak_snoc, Network.counter, if_neg hprobed]
  rfl

theorem status_probe (n : Network) (answers : BotConfig → Bool) :
    (n.probe answers).status =
      (UptimeRule.badgeFor (if answers n.config then 0 else n.counter.getD 0 + 1)).text := by
  have hcount : (n.probe answers).counter.getD 0 = streak (n.probe answers).probes := by
    simp [Network.counter, Network.probe]
  have hdown : (n.probe answers).Down ↔
      7 ≤ (if answers n.config then 0 else n.counter.getD 0 + 1) := by
    rw [Network.Down, replicate_suffix_iff, ← hcount, counter_probe, Option.getD_some]
    exact and_iff_left rfl
  unfold Network.status UptimeRule.badgeFor
  by_cases hseven : 7 ≤ (if answers n.config then 0 else n.counter.getD 0 + 1)
  · rw [if_pos hseven, if_pos (hdown.mpr hseven)]
    rfl
  · rw [if_neg hseven, if_neg fun h => hseven (hdown.mp h)]
    rfl

end KineticAtlas.RegistryHistory
