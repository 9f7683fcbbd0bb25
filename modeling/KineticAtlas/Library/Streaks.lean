import Mathlib.Algebra.Ring.Nat
import Mathlib.Data.List.DropRight
import Mathlib.Data.List.Induction

/-!
The failures at the end of a history of outcomes: how many there are, and the delay that an
exponential backoff has reached after them. A success ends the streak and resets the delay.
-/
namespace Library.Streaks

/-- The failed outcomes at the end. -/
def streak (outcomes : List Bool) : ℕ := (outcomes.rtakeWhile fun ok => !ok).length

theorem streak_snoc (outcomes : List Bool) (ok : Bool) :
    streak (outcomes ++ [ok]) = if ok then 0 else streak outcomes + 1 := by
  unfold streak
  rw [List.rtakeWhile_concat]
  cases ok <;> simp

/-- So many failures stand at the end exactly if the streak is that long. -/
theorem replicate_suffix_iff (n : ℕ) (outcomes : List Bool) :
    List.replicate n false <:+ outcomes ↔ n ≤ streak outcomes := by
  constructor
  · rintro ⟨before, rfl⟩
    have hall : ∀ ok ∈ List.replicate n false, (!ok) = true := fun ok hok => by
      rw [List.eq_of_mem_replicate hok]
      rfl
    rw [streak, List.rtakeWhile, List.length_reverse, List.reverse_append, List.reverse_replicate,
      List.takeWhile_append_of_pos hall, List.length_append, List.length_replicate]
    omega
  · intro hlong
    have hall : outcomes.rtakeWhile (fun ok => !ok) = List.replicate (streak outcomes) false := by
      refine List.eq_replicate_iff.mpr ⟨rfl, fun ok hok => ?_⟩
      simpa using List.mem_rtakeWhile_imp hok
    have hsplit : streak outcomes = (streak outcomes - n) + n := by omega
    refine List.IsSuffix.trans ⟨List.replicate (streak outcomes - n) false, ?_⟩
      (List.rtakeWhile_suffix (fun ok => !ok) outcomes)
    rw [hall, List.replicate_append_replicate, ← hsplit]

/-- The delay starts at the base and is doubled with each failure, up to a cap; after a
success the pause is a fixed one. -/
structure Backoff where
  base : ℕ
  cap : ℕ
  rest : ℕ
  base_le : base ≤ cap

namespace Backoff

variable (b : Backoff)

def next (delay : ℕ) (ok : Bool) : ℕ := if ok then b.base else min (delay * 2) b.cap

def pause (delay : ℕ) (ok : Bool) : ℕ := if ok then b.rest else delay

def delayAfter (outcomes : List Bool) : ℕ := outcomes.foldl b.next b.base

theorem delayAfter_snoc (outcomes : List Bool) (ok : Bool) :
    b.delayAfter (outcomes ++ [ok]) = b.next (b.delayAfter outcomes) ok := by
  rw [delayAfter, List.foldl_append]
  rfl

theorem delayAfter_eq (outcomes : List Bool) :
    b.delayAfter outcomes = min (b.base * 2 ^ streak outcomes) b.cap := by
  have hbase : min b.base b.cap = b.base := Nat.min_eq_left b.base_le
  induction outcomes using List.reverseRecOn with
  | nil => simpa [delayAfter, streak] using hbase.symm
  | append_singleton outcomes ok ih =>
    rw [delayAfter_snoc, ih, streak_snoc]
    cases ok with
    | true => simpa [next] using hbase.symm
    | false =>
      have hdouble : b.base * 2 ^ (streak outcomes + 1) = b.base * 2 ^ streak outcomes * 2 := by
        rw [Nat.pow_succ, Nat.mul_assoc]
      simp only [next, Bool.false_eq_true, if_false, hdouble]
      omega

theorem delayAfter_bounds (outcomes : List Bool) :
    b.base ≤ b.delayAfter outcomes ∧ b.delayAfter outcomes ≤ b.cap := by
  rw [delayAfter_eq]
  have hgrow : b.base ≤ b.base * 2 ^ streak outcomes :=
    Nat.le_mul_of_pos_right _ (Nat.two_pow_pos _)
  have := b.base_le
  omega

end Backoff

end Library.Streaks
