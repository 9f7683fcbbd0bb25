import Mathlib.Data.List.Induction

/-!
Attempts under a budget of successes. They are made in order, whatever their outcomes, and no
more once as many as the budget allows have succeeded. What has been attempted is the shortest
part of the list, from its front, that spends the budget, or all of it.
-/
namespace Library.Budget

structure Spending (A : Type) where
  attempted : List A
  succeeded : ℕ

variable {A : Type} (ok : ℕ → Bool) (budget : ℕ)

/-- The attempts are numbered; `ok` says which of them succeed. -/
def attempt (s : Spending A) (a : A) : Spending A :=
  if s.succeeded < budget then
    ⟨s.attempted ++ [a], if ok s.attempted.length then s.succeeded + 1 else s.succeeded⟩
  else s

def attemptAll (xs : List A) : Spending A := xs.foldl (attempt ok budget) ⟨[], 0⟩

/-- How many of the first attempts have succeeded. -/
def successes : ℕ → ℕ
  | 0 => 0
  | n + 1 => if ok n then successes n + 1 else successes n

/-- The part of the list that is attempted. -/
structure Spends (xs : List A) (s : Spending A) : Prop where
  in_order : s.attempted <+: xs
  counted : s.succeeded = successes ok s.attempted.length
  within : s.succeeded ≤ budget
  all_or_spent : s.attempted = xs ∨ s.succeeded = budget
  unspent_before : ∀ n < s.attempted.length, successes ok n < budget

variable {ok budget}

theorem attemptAll_snoc (xs : List A) (x : A) :
    attemptAll ok budget (xs ++ [x]) = attempt ok budget (attemptAll ok budget xs) x := by
  rw [attemptAll, List.foldl_append]
  rfl

theorem Spends.attempt {xs : List A} {s : Spending A} (h : Spends ok budget xs s) (x : A) :
    Spends ok budget (xs ++ [x]) (attempt ok budget s x) := by
  unfold Budget.attempt
  by_cases hless : s.succeeded < budget
  · have hall : s.attempted = xs := h.all_or_spent.resolve_right (by omega)
    have hcounted : (if ok s.attempted.length then s.succeeded + 1 else s.succeeded) =
        successes ok (s.attempted ++ [x]).length := by
      rw [List.length_append, List.length_singleton, successes, h.counted]
    have hsame : s.attempted ++ [x] = xs ++ [x] := by rw [hall]
    rw [if_pos hless]
    refine ⟨hsame ▸ List.prefix_rfl, hcounted, ?_, Or.inl hsame, fun n hn => ?_⟩
    · dsimp only
      split <;> omega
    · rw [List.length_append, List.length_singleton] at hn
      rcases Nat.lt_succ_iff_lt_or_eq.mp hn with hlt | rfl
      · exact h.unspent_before n hlt
      · exact h.counted ▸ hless
  · have hspent : s.succeeded = budget := by
      have := h.within
      omega
    rw [if_neg hless]
    exact ⟨h.in_order.trans (List.prefix_append xs [x]), h.counted, h.within, Or.inr hspent,
      h.unspent_before⟩

theorem attemptAll_spends (xs : List A) : Spends ok budget xs (attemptAll ok budget xs) := by
  induction xs using List.reverseRecOn with
  | nil =>
    exact ⟨List.prefix_rfl, rfl, Nat.zero_le _, Or.inl rfl,
      fun n hn => absurd hn (Nat.not_lt_zero n)⟩
  | append_singleton xs x ih =>
    rw [attemptAll_snoc]
    exact ih.attempt x

/-- What comes later is attempted only after all that comes first, and with budget left. -/
theorem Spends.later {xs ys : List A} {s : Spending A} (h : Spends ok budget (xs ++ ys) s)
    (hmore : xs.length < s.attempted.length) :
    xs <+: s.attempted ∧ successes ok xs.length < budget := by
  refine ⟨?_, h.unspent_before _ hmore⟩
  exact List.prefix_of_prefix_length_le (List.prefix_append xs ys) h.in_order (by omega)

theorem successes_le (ok : ℕ → Bool) (n : ℕ) : successes ok n ≤ n := by
  induction n with
  | zero => exact Nat.le_refl 0
  | succ n ih =>
    rw [successes]
    split <;> omega

/-- As many as the budget allows are always attempted. -/
theorem Spends.at_least {xs : List A} {s : Spending A} (h : Spends ok budget xs s) :
    xs.take budget <+: s.attempted := by
  rcases h.all_or_spent with hall | hspent
  · rw [hall]
    exact List.take_prefix budget xs
  · have hlength : budget ≤ s.attempted.length := by
      have := successes_le ok s.attempted.length
      have := h.counted
      omega
    refine List.prefix_of_prefix_length_le (List.take_prefix budget xs) h.in_order ?_
    rw [List.length_take]
    omega

end Library.Budget
