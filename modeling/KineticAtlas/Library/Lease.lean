import KineticAtlas.Library.Runs

/-!
A lease with one holder at a time. It is acquired only when free and released only
by its holder, so between two acquisitions the first holder has released it. Any
resource that is created when absent and removed when stale is used through leases.
-/
namespace Library.Leases

open Runs

inductive LeaseOp (N : Type*)
  | acquire (n : N)
  | release (n : N)

variable {N : Type*} [DecidableEq N]

/-- The state is the present holder. -/
def lease : Machine (Option N) (LeaseOp N) where
  init := none
  step s op :=
    match s, op with
    | none, .acquire n => some (some n)
    | some m, .release n => if m = n then some none else none
    | _, _ => none

theorem lease_acquire {s s' : Option N} {n : N} (h : lease.step s (.acquire n) = some s') :
    s = none ∧ s' = some n := by
  cases s with
  | none =>
    refine ⟨rfl, ?_⟩
    simpa [lease] using h.symm
  | some m => simp [lease] at h

theorem lease_release {s s' : Option N} {n : N} (h : lease.step s (.release n) = some s') :
    s = some n ∧ s' = none := by
  cases s with
  | none => simp [lease] at h
  | some m =>
    by_cases hm : m = n
    · refine ⟨congrArg some hm, ?_⟩
      simpa [lease, hm] using h.symm
    · simp [lease, hm] at h

/-- Once acquired, the lease is released by its holder or still held. -/
theorem released_or_held (pre mid : List (LeaseOp N)) (i : N) (s : Option N)
    (h : lease.Run (pre ++ .acquire i :: mid) s) : .release i ∈ mid ∨ s = some i := by
  induction mid using List.reverseRecOn generalizing s with
  | nil =>
    generalize hops : pre ++ [.acquire i] = ops at h
    cases h with
    | nil => simp at hops
    | snoc _ hstep =>
      obtain rfl := (List.cons.inj (List.append_inj' hops rfl).2).1
      exact Or.inr (lease_acquire hstep).2
  | append_singleton mid op ih =>
    rw [← List.cons_append, ← List.append_assoc] at h
    generalize hops : pre ++ .acquire i :: mid ++ [op] = ops at h
    cases h with
    | nil => simp at hops
    | snoc hrun hstep =>
      obtain ⟨rfl, hop⟩ := List.append_inj' hops rfl
      obtain rfl := (List.cons.inj hop).1
      rcases ih _ hrun with hmem | rfl
      · exact Or.inl (List.mem_append_left _ hmem)
      · cases op with
        | acquire n => exact absurd (lease_acquire hstep).1 (Option.some_ne_none i)
        | release n =>
          obtain rfl : i = n := by simpa using (lease_release hstep).1
          exact Or.inl (by simp)

/-- Between two acquisitions the first holder has released the lease. -/
theorem released_between (pre mid post : List (LeaseOp N)) (i j : N) (s : Option N)
    (h : lease.Run (pre ++ .acquire i :: mid ++ .acquire j :: post) s) : .release i ∈ mid := by
  rw [List.append_cons (pre ++ .acquire i :: mid)] at h
  obtain ⟨t, ht⟩ := h.of_append
  generalize hops : pre ++ .acquire i :: mid ++ [.acquire j] = ops at ht
  cases ht with
  | nil => simp at hops
  | snoc hrun hstep =>
    obtain ⟨rfl, hop⟩ := List.append_inj' hops rfl
    obtain rfl := (List.cons.inj hop).1
    rcases released_or_held pre mid i _ hrun with hmem | rfl
    · exact hmem
    · exact absurd (lease_acquire hstep).1 (Option.some_ne_none i)

end Library.Leases
