import Mathlib.Data.Finset.Basic

/-!
A value behind a read-write lock. Shared guards are held by named readers, the
exclusive guard by one writer, which may store into the value any number of times
before it gives the guard back. The history has the values at which no guard was
exclusive, and a reader never sees another one.
-/
namespace Library.Locks

structure RwLock (R D : Type*) where
  value : D
  readers : Finset R
  writing : Bool
  history : List D

variable {R D : Type*}

namespace RwLock

def new (d : D) : RwLock R D := ⟨d, ∅, false, [d]⟩

/-- The exclusive guard is only given out when there is no other. -/
def write [DecidableEq R] (l : RwLock R D) : Option (RwLock R D) :=
  if l.writing = false ∧ l.readers = ∅ then some { l with writing := true } else none

/-- A store of the writer. -/
def store (l : RwLock R D) (d : D) : RwLock R D := { l with value := d }

def dropWrite (l : RwLock R D) : RwLock R D :=
  { l with writing := false, history := l.history ++ [l.value] }

/-- The last value that was not in the writer's hands. -/
def settled? (l : RwLock R D) : Option D := l.history.getLast?

section Readers

variable [DecidableEq R]

def read (l : RwLock R D) (r : R) : Option (RwLock R D) :=
  if l.writing = false ∧ r ∉ l.readers then some { l with readers := insert r l.readers } else none

def dropRead (l : RwLock R D) (r : R) : RwLock R D := { l with readers := l.readers.erase r }

end Readers

/-- Readers and the writer exclude each other, and only the writer changes the value. -/
structure Sound (l : RwLock R D) : Prop where
  excludes : l.writing = true → l.readers = ∅
  settled : l.writing = false → l.settled? = some l.value

/-- Consecutive values of the history are related, each pair in its own way. -/
def Evolves (T : ℕ → D → D → Prop) (l : RwLock R D) : Prop :=
  ∀ (n : ℕ) (a b : D), l.history[n]? = some a → l.history[n + 1]? = some b → T n a b

variable {l l' : RwLock R D} {T : ℕ → D → D → Prop}

theorem sound_new (d : D) : Sound (new d : RwLock R D) :=
  ⟨fun h => absurd h (by simp [new]), fun _ => rfl⟩

theorem Sound.store (h : Sound l) (hwriting : l.writing = true) (d : D) : Sound (l.store d) :=
  ⟨h.excludes, fun hnot => absurd (hwriting.symm.trans hnot) (by decide)⟩

theorem Sound.dropWrite (h : Sound l) (hwriting : l.writing = true) : Sound l.dropWrite := by
  refine ⟨fun _ => h.excludes hwriting, fun _ => ?_⟩
  simp [settled?, RwLock.dropWrite]

/-- Whoever holds a shared guard sees the last settled value. -/
theorem Sound.reader_sees (h : Sound l) {r : R} (hr : r ∈ l.readers) :
    l.settled? = some l.value := by
  apply h.settled
  by_contra hwriting
  have hnone : l.readers = ∅ := h.excludes (by simpa using hwriting)
  simp [hnone] at hr

/-- The settled value is the last of the history. -/
theorem settled_index {d : D} (h : l.settled? = some d) :
    l.history[l.history.length - 1]? = some d := by
  rwa [settled?, List.getLast?_eq_getElem?] at h

theorem evolves_new (d : D) : Evolves T (new d : RwLock R D) := by
  intro n a b _ hb
  simp [new] at hb

/-- The value given back extends the history. -/
theorem Evolves.dropWrite {T' : ℕ → D → D → Prop} (h : Evolves T l)
    (hmono : ∀ n a b, T n a b → T' n a b) {a : D} (ha : l.settled? = some a)
    (hT : T' (l.history.length - 1) a l.value) : Evolves T' l.dropWrite := by
  have hlast := settled_index ha
  intro n a' b hn hn'
  have hold : n < l.history.length → l.history[n]? = some a' := by
    intro hlt
    simpa [RwLock.dropWrite, List.getElem?_append_left hlt] using hn
  rcases Nat.lt_trichotomy (n + 1) l.history.length with hlt | heq | hgt
  · have hnext : l.history[n + 1]? = some b := by
      simpa [RwLock.dropWrite, List.getElem?_append_left hlt] using hn'
    exact hmono n a' b (h n a' b (hold (by omega)) hnext)
  · obtain rfl : l.value = b := by simpa [RwLock.dropWrite, heq] using hn'
    have hindex : l.history.length - 1 = n := by omega
    rw [hindex] at hlast hT
    rw [hold (by omega)] at hlast
    exact Option.some.inj hlast ▸ hT
  · have hlong : (l.history ++ [l.value]).length ≤ n + 1 := by simp; omega
    simp [RwLock.dropWrite, List.getElem?_eq_none hlong] at hn'

section Readers

variable [DecidableEq R] {r : R}

theorem read_some (h : l.read r = some l') :
    l.writing = false ∧ r ∉ l.readers ∧ l' = { l with readers := insert r l.readers } := by
  unfold read at h
  split at h
  · rename_i hfree
    exact ⟨hfree.1, hfree.2, (Option.some.inj h).symm⟩
  · cases h

theorem write_some (h : l.write = some l') :
    l.writing = false ∧ l.readers = ∅ ∧ l' = { l with writing := true } := by
  unfold write at h
  split at h
  · rename_i hfree
    exact ⟨hfree.1, hfree.2, (Option.some.inj h).symm⟩
  · cases h

theorem Sound.read (h : Sound l) (hread : l.read r = some l') : Sound l' := by
  obtain ⟨hfree, -, rfl⟩ := read_some hread
  exact ⟨fun hwriting => absurd (hwriting.symm.trans hfree) (by decide), h.settled⟩

theorem Sound.dropRead (h : Sound l) (r : R) : Sound (l.dropRead r) := by
  refine ⟨fun hwriting => ?_, h.settled⟩
  simp [RwLock.dropRead, h.excludes hwriting]

theorem sound_of_write (hwrite : l.write = some l') : Sound l' := by
  obtain ⟨-, hnone, rfl⟩ := write_some hwrite
  exact ⟨fun _ => hnone, fun hnot => absurd hnot (by simp)⟩

end Readers

end RwLock

end Library.Locks
