import KineticAtlas.Library.Texts
import Mathlib.Logic.Function.Basic

/-!
A disk as a partial map from files to their bytes. Paths lead to files, several
paths possibly to one. A program is judged by how it changes the disk: it is
confined to a set of contents when every file it changed holds one of them.
-/
namespace Library.Files

open Texts

abbrev Disk (F : Type) := F → Option Bytes

/-- `Path::join`: an absolute name replaces the base. -/
def joinPath (base name : Str) : Str :=
  if name.head? = some '/' then name
  else if base = [] ∨ base.getLast? = some '/' then base ++ name
  else base ++ '/' :: name

/-- `Path::extension` of a file name: what follows its last dot, unless that dot
begins the name. -/
def extension (name : Str) : Option Str :=
  if (name.rdropWhile (· ≠ '.')).length ≤ 1 then none else some (name.rtakeWhile (· ≠ '.'))

theorem extension_append {stem ext : Str} (hstem : stem ≠ []) (hext : '.' ∉ ext) :
    extension (stem ++ '.' :: ext) = some ext := by
  have hpos : ∀ c ∈ ext.reverse, decide (c ≠ '.') = true := by
    intro c hc
    rw [decide_eq_true_eq]
    rintro rfl
    exact hext (List.mem_reverse.mp hc)
  have hrev : (stem ++ '.' :: ext).reverse = ext.reverse ++ '.' :: stem.reverse := by simp
  have hdrop : (stem ++ '.' :: ext).rdropWhile (· ≠ '.') = stem ++ ['.'] := by
    rw [List.rdropWhile, hrev, List.dropWhile_append_of_pos hpos]
    simp
  have htake : (stem ++ '.' :: ext).rtakeWhile (· ≠ '.') = ext := by
    rw [List.rtakeWhile, hrev, List.takeWhile_append_of_pos hpos]
    simp
  have hlong : ¬ (stem ++ ['.']).length ≤ 1 := by
    have hlen : 0 < stem.length := List.length_pos_iff.mpr hstem
    simp only [List.length_append, List.length_singleton]
    omega
  rw [extension, hdrop, htake, if_neg hlong]

variable {F : Type}

/-- Every file has its old content or one of the admitted ones. -/
def Confined (P : F → Bytes → Prop) (d d' : Disk F) : Prop :=
  ∀ f, d' f = d f ∨ ∃ b, d' f = some b ∧ P f b

variable {P Q : F → Bytes → Prop} {d d' d'' : Disk F}

theorem Confined.refl (P : F → Bytes → Prop) (d : Disk F) : Confined P d d := fun _ => Or.inl rfl

theorem Confined.trans (h : Confined P d d') (h' : Confined P d' d'') : Confined P d d'' := by
  intro f
  rcases h' f with hsame | hnew
  · rw [hsame]
    exact h f
  · exact Or.inr hnew

theorem Confined.mono (hPQ : ∀ f b, P f b → Q f b) (h : Confined P d d') : Confined Q d d' :=
  fun f => (h f).imp_right fun ⟨b, hb, hP⟩ => ⟨b, hb, hPQ f b hP⟩

theorem Confined.write [DecidableEq F] (f : F) (b : Bytes) (h : P f b) :
    Confined P d (Function.update d f (some b)) := by
  intro g
  by_cases hg : g = f
  · subst g
    exact Or.inr ⟨b, by simp, h⟩
  · exact Or.inl (by simp [hg])

/-- A loop whose rounds are confined is confined. -/
theorem Confined.foldl {S E : Type} (disk : S → Disk F) (step : S → E → S)
    (hstep : ∀ s e, Confined P (disk s) (disk (step s e))) (es : List E) (s : S) :
    Confined P (disk s) (disk (es.foldl step s)) := by
  induction es generalizing s with
  | nil => exact Confined.refl P _
  | cons e es ih => exact (hstep s e).trans (ih (step s e))

/-- Every file that is there has an admitted content. -/
def Holds (A : Bytes → Prop) (d : Disk F) : Prop := ∀ f b, d f = some b → A b

variable {A B : Bytes → Prop}

theorem Holds.mono (hAB : ∀ b, A b → B b) (h : Holds A d) : Holds B d :=
  fun f b hb => hAB b (h f b hb)

/-- A program confined to admitted contents leaves nothing else behind. -/
theorem Holds.confined (h : Holds A d) (hPA : ∀ f b, P f b → A b) (hd : Confined P d d') :
    Holds A d' := by
  intro f b hb
  rcases hd f with hsame | ⟨b', hb', hP⟩
  · exact h f b (hsame ▸ hb)
  · obtain rfl : b' = b := Option.some.inj (hb'.symm.trans hb)
    exact hPA f b' hP

end Library.Files
