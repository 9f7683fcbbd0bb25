import Mathlib.Data.List.Nodup
import Mathlib.Logic.Function.Basic

/-!
Programs that ask their environment questions and go on with the answers. A question has
a slot, and a slot the type of its answers. A program may be played against an oracle that
knows the answer of every slot beforehand, or be answered step by step from outside. If it
asks no slot twice, every play from outside is one against some oracle.
-/
namespace Library.Dialogues

inductive Dialogue {Q S : Type} (slot : Q → S) (A : S → Type) (R : Type)
  | done (result : R)
  | ask (question : Q) (next : A (slot question) → Dialogue slot A R)

structure Exchange {Q S : Type} (slot : Q → S) (A : S → Type) where
  question : Q
  answer : A (slot question)

variable {Q S R : Type} {slot : Q → S} {A : S → Type}

def slots (trace : List (Exchange slot A)) : List S := trace.map fun e => slot e.question

/-- The oracle gives the answers of the trace. -/
def Agrees (oracle : ∀ s, A s) (trace : List (Exchange slot A)) : Prop :=
  ∀ e ∈ trace, oracle (slot e.question) = e.answer

namespace Dialogue

/-- `Plays d trace d'`: after the exchanges of the trace, `d'` is left of `d`. -/
inductive Plays (d : Dialogue slot A R) : List (Exchange slot A) → Dialogue slot A R → Prop
  | nil : Plays d [] d
  | snoc {trace : List (Exchange slot A)} {q : Q} {next : A (slot q) → Dialogue slot A R}
      (a : A (slot q)) : Plays d trace (.ask q next) → Plays d (trace ++ [⟨q, a⟩]) (next a)

/-- The whole play against an oracle, with the result. -/
def play (oracle : ∀ s, A s) : Dialogue slot A R → List (Exchange slot A) × R
  | .done result => ([], result)
  | .ask q next =>
    let later := (next (oracle (slot q))).play oracle
    (⟨q, oracle (slot q)⟩ :: later.1, later.2)

/-- Every question that may ever be asked satisfies `P`. -/
def Asks (P : Q → Prop) : Dialogue slot A R → Prop
  | .done _ => True
  | .ask q next => P q ∧ ∀ a, Asks P (next a)

/-- No slot is asked twice, nor one that is used already. -/
def AsksOnce : (S → Prop) → Dialogue slot A R → Prop
  | _, .done _ => True
  | used, .ask q next =>
    ¬ used (slot q) ∧ ∀ a, AsksOnce (fun s => used s ∨ s = slot q) (next a)

variable {d d' : Dialogue slot A R} {trace : List (Exchange slot A)} {oracle : ∀ s, A s}
  {used used' : S → Prop}

theorem AsksOnce.mono (h : AsksOnce used d) (hused : ∀ s, used' s → used s) :
    AsksOnce used' d := by
  induction d generalizing used used' with
  | done result => trivial
  | ask q next ih =>
    refine ⟨fun hq => h.1 (hused _ hq), fun a => ih a (h.2 a) fun s hs => ?_⟩
    exact hs.imp_left (hused s)

theorem asked_of_plays {P : Q → Prop} (h : Plays d trace d') (hd : Asks P d) :
    (∀ e ∈ trace, P e.question) ∧ Asks P d' := by
  induction h with
  | nil => exact ⟨by simp, hd⟩
  | snoc a hplays ih =>
    obtain ⟨hbefore, hnow, hlater⟩ := ih
    refine ⟨fun e he => ?_, hlater a⟩
    rcases List.mem_append.mp he with hold | hlast
    · exact hbefore e hold
    · exact (List.mem_singleton.mp hlast) ▸ hnow

/-- What is left of a play goes on like the play itself. -/
theorem play_of_plays (h : Plays d trace d') (hagrees : Agrees oracle trace) :
    d.play oracle = (trace ++ (d'.play oracle).1, (d'.play oracle).2) := by
  induction h with
  | nil => rfl
  | snoc a hplays ih =>
    rename_i before q next
    have hbefore : Agrees oracle before := fun e he => hagrees e (List.mem_append_left _ he)
    have hanswer : oracle (slot q) = a := hagrees ⟨q, a⟩ (by simp)
    rw [ih hbefore, play, hanswer]
    simp

theorem asked_once (h : Plays d trace d') (hd : AsksOnce used d) :
    (slots trace).Nodup ∧ (∀ s ∈ slots trace, ¬ used s) ∧
      AsksOnce (fun s => used s ∨ s ∈ slots trace) d' := by
  induction h with
  | nil => exact ⟨List.nodup_nil, by simp [slots], hd.mono fun s hs => by simpa [slots] using hs⟩
  | snoc a hplays ih =>
    rename_i before q next
    obtain ⟨hnodup, hunused, hasks⟩ := ih
    have hslots : slots (before ++ [⟨q, a⟩]) = slots before ++ [slot q] := List.map_append
    obtain ⟨hnew, hlater⟩ := hasks
    rw [not_or] at hnew
    rw [hslots]
    refine ⟨?_, ?_, ?_⟩
    · rw [← List.concat_eq_append]
      exact hnodup.concat hnew.2
    · intro s hs
      rcases List.mem_append.mp hs with hold | hlast
      · exact hunused s hold
      · exact (List.mem_singleton.mp hlast) ▸ hnew.1
    · refine (hlater a).mono fun s hs => ?_
      simpa [or_assoc] using hs

end Dialogue

open Dialogue

/-- An oracle for a trace that answers as it likes where the trace asks nothing. -/
theorem exists_oracle (default : ∀ s, A s) (trace : List (Exchange slot A))
    (hnodup : (slots trace).Nodup) :
    ∃ oracle, Agrees oracle trace ∧ ∀ s ∉ slots trace, oracle s = default s := by
  classical
  induction trace with
  | nil => exact ⟨default, fun e he => absurd he List.not_mem_nil, fun s _ => rfl⟩
  | cons e rest ih =>
    obtain ⟨hnew, hrest⟩ := List.nodup_cons.mp hnodup
    obtain ⟨oracle, horacle, hdefault⟩ := ih hrest
    refine ⟨Function.update oracle (slot e.question) e.answer, fun e' he' => ?_, fun s hs => ?_⟩
    · rcases List.mem_cons.mp he' with rfl | hmem
      · simp
      · have hslot : slot e'.question ≠ slot e.question := by
          intro heq
          have hin : slot e'.question ∈ slots rest := List.mem_map_of_mem hmem
          rw [heq] at hin
          exact hnew hin
        rw [Function.update_of_ne hslot]
        exact horacle e' hmem
    · obtain ⟨hslot, hunasked⟩ : s ≠ slot e.question ∧ s ∉ slots rest := by
        simpa [slots] using hs
      rw [Function.update_of_ne hslot]
      exact hdefault s hunasked

/-- A play from outside that comes to an end is a play against an oracle. -/
theorem exists_oracle_of_plays (default : ∀ s, A s) {d : Dialogue slot A R}
    {trace : List (Exchange slot A)} {result : R} (h : Plays d trace (.done result))
    (hd : AsksOnce (fun _ => False) d) :
    ∃ oracle, Agrees oracle trace ∧ (∀ s ∉ slots trace, oracle s = default s) ∧
      d.play oracle = (trace, result) := by
  obtain ⟨oracle, horacle, hdefault⟩ := exists_oracle default trace (asked_once h hd).1
  refine ⟨oracle, horacle, hdefault, ?_⟩
  rw [play_of_plays h horacle, play, List.append_nil]

end Library.Dialogues
