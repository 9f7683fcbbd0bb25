import Mathlib.Data.Set.Card

/-!
Counted handles. Every owner has at most one handle, of one thing, and each thing has
a counter that clones raise and drops lower. As long as the counters are right, a thing
whose counter is zero has no owner left, and a thing with an owner has not been freed.
-/
namespace Library.Handles

variable {O K : Type*}

/-- The counter of each thing is the number of its owners. -/
def Counted (count : K → ℕ) (holds : O → Option K) : Prop :=
  ∀ k, {o | holds o = some k}.encard = count k

variable {count : K → ℕ} {holds : O → Option K}

theorem counted_none : Counted (fun _ : K => 0) (fun _ : O => none) := by
  intro k
  simp

theorem Counted.pos (h : Counted count holds) {o : O} {k : K} (ho : holds o = some k) :
    0 < count k := by
  by_contra hzero
  have hempty : {o | holds o = some k} = ∅ := by
    rw [← Set.encard_eq_zero, h k]
    exact_mod_cast Nat.eq_zero_of_not_pos hzero
  exact (Set.eq_empty_iff_forall_notMem.mp hempty) o ho

/-- Once the counter is zero nobody holds a handle. -/
theorem Counted.unowned (h : Counted count holds) {k : K} (hzero : count k = 0) (o : O) :
    holds o ≠ some k := by
  intro ho
  have hpos := h.pos ho
  omega

theorem Counted.eq_zero (h : Counted count holds) {k : K} (hnone : ∀ o, holds o ≠ some k) :
    count k = 0 := by
  have hempty : {o | holds o = some k} = ∅ := Set.eq_empty_of_forall_notMem hnone
  have hcard := h k
  rw [hempty, Set.encard_empty] at hcard
  exact_mod_cast hcard.symm

/-- A new handle for an owner that had none. -/
theorem Counted.clone [DecidableEq O] [DecidableEq K] (h : Counted count holds) {o : O}
    (hfree : holds o = none) (k : K) :
    Counted (Function.update count k (count k + 1)) (Function.update holds o (some k)) := by
  intro k'
  by_cases hk : k' = k
  · subst k'
    have howners : {o' | Function.update holds o (some k) o' = some k} =
        insert o {o' | holds o' = some k} := by
      ext o'
      by_cases ho : o' = o
      · simp [ho]
      · simp [ho]
    have hnew : o ∉ {o' | holds o' = some k} := by simp [hfree]
    rw [howners, Set.encard_insert_of_notMem hnew, h k, Function.update_self]
    exact_mod_cast rfl
  · have howners : {o' | Function.update holds o (some k) o' = some k'} =
        {o' | holds o' = some k'} := by
      ext o'
      by_cases ho : o' = o
      · simp [ho, hfree, Ne.symm hk]
      · simp [ho]
    rw [howners, h k', Function.update_of_ne hk]

/-- Handles of several things are dropped at once, of each thing at most one. -/
theorem Counted.drop_all {count' : K → ℕ} {holds' : O → Option K} (h : Counted count holds)
    (released : O → Prop)
    (hone : ∀ o o' k, released o → released o' → holds o = some k → holds o' = some k → o = o')
    (hgone : ∀ o, released o → holds' o = none) (hkept : ∀ o, ¬ released o → holds' o = holds o)
    (hless : ∀ k o, released o → holds o = some k → count' k = count k - 1)
    (hsame : ∀ k, (∀ o, released o → holds o ≠ some k) → count' k = count k) :
    Counted count' holds' := by
  intro k
  by_cases hdropped : ∃ o, released o ∧ holds o = some k
  · obtain ⟨o, hreleased, ho⟩ := hdropped
    have howners : {o' | holds' o' = some k} = {o' | holds o' = some k} \ {o} := by
      ext o'
      simp only [Set.mem_ofPred_eq, Set.mem_sdiff, Set.mem_singleton_iff]
      constructor
      · intro ho'
        have hkept' : ¬ released o' := fun hr => by simp [hgone o' hr] at ho'
        rw [hkept o' hkept'] at ho'
        exact ⟨ho', fun heq => hkept' (heq ▸ hreleased)⟩
      · rintro ⟨ho', hne⟩
        rw [hkept o' fun hr => hne (hone o' o k hr hreleased ho' ho)]
        exact ho'
    have hmem : o ∈ {o' | holds o' = some k} := ho
    rw [howners, Set.encard_sdiff_singleton_of_mem hmem, h k, hless k o hreleased ho]
    exact_mod_cast rfl
  · have hnot : ∀ o, released o → holds o ≠ some k := fun o hr ho => hdropped ⟨o, hr, ho⟩
    have howners : {o' | holds' o' = some k} = {o' | holds o' = some k} := by
      ext o'
      by_cases hr : released o'
      · simp [hgone o' hr, hnot o' hr]
      · simp [hkept o' hr]
    rw [howners, h k, hsame k hnot]

/-- The handle of one owner is dropped. -/
theorem Counted.drop [DecidableEq O] [DecidableEq K] (h : Counted count holds) {o : O} {k : K}
    (ho : holds o = some k) :
    Counted (Function.update count k (count k - 1)) (Function.update holds o none) := by
  refine h.drop_all (fun o' => o' = o) ?_ ?_ ?_ ?_ ?_
  · rintro o₁ o₂ - rfl rfl - -
    rfl
  · rintro o' rfl
    exact Function.update_self _ _ _
  · intro o' hne
    exact Function.update_of_ne hne _ _
  · rintro k' o' rfl ho'
    obtain rfl := Option.some.inj (ho.symm.trans ho')
    exact Function.update_self _ _ _
  · intro k' hne
    have hk : k' ≠ k := fun heq => hne o rfl (heq ▸ ho)
    exact Function.update_of_ne hk _ _

end Library.Handles
