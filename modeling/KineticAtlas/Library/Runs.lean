import Mathlib.Data.List.Induction

/-!
Machines with explicit inputs and their finite runs. A step may refuse an input,
in which case no run contains it there. An invariant is proved once for a step
and once for the initial state; a forward simulation carries whole runs of one
machine to runs of another. Runs of concrete inputs are computed by `exec`.
-/
namespace Library.Runs

structure Machine (S I : Type*) where
  init : S
  step : S → I → Option S

variable {S I T J : Type*}

namespace Machine

/-- `Run M is s`: reading the inputs `is` one after another leads to `s`. -/
inductive Run (M : Machine S I) : List I → S → Prop
  | nil : Run M [] M.init
  | snoc {is : List I} {s s' : S} {i : I} :
      Run M is s → M.step s i = some s' → Run M (is ++ [i]) s'

def exec (M : Machine S I) (is : List I) : Option S :=
  is.foldl (fun s i => s.bind (fun s => M.step s i)) (some M.init)

theorem exec_snoc (M : Machine S I) (is : List I) (i : I) :
    M.exec (is ++ [i]) = (M.exec is).bind (fun s => M.step s i) := by
  simp [exec]

theorem run_iff_exec (M : Machine S I) (is : List I) (s : S) :
    M.Run is s ↔ M.exec is = some s := by
  constructor
  · intro h
    induction h with
    | nil => rfl
    | snoc _ hstep ih => rw [exec_snoc, ih]; exact hstep
  · intro h
    induction is using List.reverseRecOn generalizing s with
    | nil =>
      obtain rfl : M.init = s := by simpa [exec] using h
      exact Run.nil
    | append_singleton is i ih =>
      rw [exec_snoc] at h
      obtain ⟨t, ht, hstep⟩ := Option.bind_eq_some_iff.mp h
      exact Run.snoc (ih t ht) hstep

/-- The run of concrete inputs, computed. -/
theorem run_get (M : Machine S I) (is : List I) (h : (M.exec is).isSome) :
    M.Run is ((M.exec is).get h) :=
  (run_iff_exec M is _).mpr (Option.some_get h).symm

/-- The inputs determine the state. -/
theorem Run.unique {M : Machine S I} {is : List I} {s t : S} (hs : M.Run is s)
    (ht : M.Run is t) : s = t := by
  rw [run_iff_exec] at hs ht
  exact Option.some.inj (hs.symm.trans ht)

/-- What holds initially and survives every step holds after every run. The
step may use that its source state was itself reached by a run. -/
theorem Run.invariant {M : Machine S I} {P : List I → S → Prop} (hinit : P [] M.init)
    (hstep : ∀ is s i s', M.Run is s → P is s → M.step s i = some s' → P (is ++ [i]) s')
    {is : List I} {s : S} (h : M.Run is s) : P is s := by
  induction h with
  | nil => exact hinit
  | snoc hrun hs ih => exact hstep _ _ _ _ hrun ih hs

/-- Every state passed on the way is itself reached by a shorter run. -/
theorem Run.of_append {M : Machine S I} {is js : List I} {s : S} (h : M.Run (is ++ js) s) :
    ∃ t, M.Run is t := by
  induction js using List.reverseRecOn generalizing s with
  | nil => exact ⟨s, by simpa using h⟩
  | append_singleton js j ih =>
    rw [← List.append_assoc] at h
    generalize hks : is ++ js ++ [j] = ks at h
    cases h with
    | nil => simp at hks
    | snoc hrun _ =>
      have hpre := (List.append_inj' hks rfl).1
      exact ih (hpre ▸ hrun)

/-- Every step of the run meets a condition on its input and its source state. -/
def Throughout (M : Machine S I) (ok : S → I → Prop) (is : List I) : Prop :=
  ∀ js i s, js ++ [i] <+: is → M.Run js s → ok s i

theorem throughout_nil (M : Machine S I) (ok : S → I → Prop) : M.Throughout ok [] := by
  intro js i s hpre
  simp at hpre

theorem Throughout.snoc {M : Machine S I} {ok : S → I → Prop} {is : List I} {i : I}
    (h : M.Throughout ok is) (hi : ∀ s, M.Run is s → ok s i) : M.Throughout ok (is ++ [i]) := by
  intro js j t hpre ht
  rcases List.prefix_concat_iff.mp hpre with heq | hshort
  · obtain ⟨rfl, hj⟩ := List.append_inj' heq rfl
    obtain rfl : j = i := by simpa using hj
    exact hi t ht
  · exact h js j t hshort ht

/-- A condition that asks nothing of the inputs added is still met. -/
theorem Throughout.append {M : Machine S I} {ok : S → I → Prop} {is js : List I}
    (h : M.Throughout ok is) (hjs : ∀ j ∈ js, ∀ s, ok s j) : M.Throughout ok (is ++ js) := by
  induction js using List.reverseRecOn with
  | nil => simpa using h
  | append_singleton js j ih =>
    rw [← List.append_assoc]
    exact (ih fun j' hj' => hjs j' (List.mem_append_left _ hj')).snoc
      fun s _ => hjs j (by simp) s

theorem throughout_snoc_iff {M : Machine S I} {ok : S → I → Prop} {is : List I} {s : S} {i : I}
    (hrun : M.Run is s) : M.Throughout ok (is ++ [i]) ↔ M.Throughout ok is ∧ ok s i := by
  constructor
  · intro hall
    exact ⟨fun js j t hpre => hall js j t (hpre.trans (List.prefix_append is [i])),
      hall is i s List.prefix_rfl hrun⟩
  · rintro ⟨hbefore, hnow⟩
    exact hbefore.snoc fun t ht => ht.unique hrun ▸ hnow

/-- An invariant that needs a condition holds along the runs that meet it throughout. -/
theorem Run.invariant_throughout {M : Machine S I} {ok : S → I → Prop} {P : S → Prop}
    (hinit : P M.init) (hstep : ∀ s i s', P s → ok s i → M.step s i = some s' → P s')
    {is : List I} {s : S} (h : M.Run is s) (hok : M.Throughout ok is) : P s := by
  induction h with
  | nil => exact hinit
  | snoc hrun hs ih =>
    obtain ⟨hbefore, hnow⟩ := (throughout_snoc_iff hrun).mp hok
    exact hstep _ _ _ (ih hbefore) hnow hs

end Machine

end Library.Runs
