import KineticAtlas.Library.Texts

/-!
JSON values and the readers that derived schemas are made of. An object keeps its
members in text order, repeated names included: a reader of a record turns a
repeated member down, a reader of a map lets the last one win.
-/
namespace Library.Json

open Library.Texts

inductive Value
  | null
  | bool (b : Bool)
  | int (n : ℤ)
  | float (literal : Str)
  | str (text : Str)
  | arr (elems : List Value)
  | obj (members : List (Str × Value))

abbrev Members := List (Str × Value)

/-- The value of a member that may be left out; there is none if the name is repeated. -/
def member (name : Str) (members : Members) : Option (Option Value) :=
  match members.filter fun m => m.1 = name with
  | [] => some none
  | [m] => some (some m.2)
  | _ => none

/-- Without repeated names a member is found by lookup. -/
theorem member_of_nodup (name : Str) {members : Members}
    (h : (members.map Prod.fst).Nodup) : member name members = some (members.lookup name) := by
  induction members with
  | nil => rfl
  | cons m rest ih =>
    obtain ⟨n, v⟩ := m
    rw [List.map_cons, List.nodup_cons] at h
    have hrest := ih h.2
    unfold member at hrest ⊢
    by_cases hn : n = name
    · have hnone : rest.filter (fun m => m.1 = name) = [] := by
        apply List.filter_eq_nil_iff.mpr
        intro m hm
        rw [decide_eq_true_eq]
        intro heq
        exact h.1 (List.mem_map.mpr ⟨m, hm, heq.trans hn.symm⟩)
      rw [List.filter_cons_of_pos (by simpa using hn), hnone, ← hn, List.lookup_cons_self]
    · have hbeq : (name == n) = false := beq_false_of_ne (Ne.symm hn)
      rw [List.filter_cons_of_neg (by simpa using hn), List.lookup_cons, hbeq]
      exact hrest

def asStr : Value → Option Str
  | .str text => some text
  | _ => none

def asU16 : Value → Option UInt16
  | .int n => if 0 ≤ n ∧ n ≤ 65535 then some (UInt16.ofNat n.toNat) else none
  | _ => none

def asListOf {A : Type} (read : Value → Option A) : Value → Option (List A)
  | .arr elems => elems.mapM read
  | _ => none

def asOption {A : Type} (read : Value → Option A) : Value → Option (Option A)
  | .null => some none
  | value => (read value).map some

/-- The last entry under a name is the one a map keeps. -/
def lastEntry {A : Type} (name : Str) (entries : List (Str × A)) : Option A :=
  entries.reverse.lookup name

def asMapOf {A : Type} (read : Value → Option A) : Value → Option (Str → Option A)
  | .obj members =>
    (members.mapM fun m => (read m.2).map fun a => (m.1, a)).map fun entries name =>
      lastEntry name entries
  | _ => none

/-- A member of a record that must be there. -/
def required {A : Type} (read : Value → Option A) (value : Option (Option Value)) : Option A :=
  value.bind fun v => v.bind read

/-- A member of a record with a default. -/
def defaulted {A : Type} (read : Value → Option A) (dflt : A) (value : Option (Option Value)) :
    Option A :=
  value.bind fun v => v.elim (some dflt) read

/-- The fields of a record with so many of them: by name in an object, by place in an array. -/
def structFields (count : ℕ) : Value → Option (Str → ℕ → Option (Option Value))
  | .obj members => some fun name _ => member name members
  | .arr elems => if elems.length ≤ count then some fun _ i => some elems[i]? else none
  | _ => none

theorem lookup_map_value {A B : Type} (f : A → B) (name : Str) (entries : List (Str × A)) :
    (entries.map fun e => (e.1, f e.2)).lookup name = (entries.lookup name).map f := by
  induction entries with
  | nil => rfl
  | cons e rest ih =>
    rw [List.map_cons, List.lookup_cons, List.lookup_cons, ih]
    cases name == e.1 <;> rfl

theorem lastEntry_map {A B : Type} (f : A → B) (name : Str) (entries : List (Str × A)) :
    lastEntry name (entries.map fun e => (e.1, f e.2)) = (lastEntry name entries).map f := by
  rw [lastEntry, ← List.map_reverse, lookup_map_value]
  rfl

section Sequences

variable {A B : Type} {read : A → Option B}

theorem mapM_of_forall {xs : List A} (value : A → B) (h : ∀ x ∈ xs, read x = some (value x)) :
    xs.mapM read = some (xs.map value) := by
  induction xs with
  | nil => rfl
  | cons x rest ih =>
    rw [List.mapM_cons, h x List.mem_cons_self, ih fun y hy => h y (List.mem_cons_of_mem x hy)]
    rfl

theorem read_of_mapM {xs : List A} {ys : List B} (h : xs.mapM read = some ys) :
    ∀ x ∈ xs, ∃ y, read x = some y := by
  induction xs generalizing ys with
  | nil => simp
  | cons x rest ih =>
    rw [List.mapM_cons] at h
    cases hx : read x with
    | none => simp [hx] at h
    | some y =>
      cases hrest : rest.mapM read with
      | none => simp [hx, hrest] at h
      | some zs =>
        intro x' hx'
        rcases List.mem_cons.mp hx' with rfl | hmem
        · exact ⟨y, hx⟩
        · exact ih hrest x' hmem

end Sequences

/-- A list is read back where its elements are. -/
theorem asListOf_map {A B : Type} {read : Value → Option B} {write : A → Value} {xs : List A}
    (value : A → B) (h : ∀ x ∈ xs, read (write x) = some (value x)) :
    asListOf read (.arr (xs.map write)) = some (xs.map value) := by
  rw [asListOf, List.mapM_map]
  exact mapM_of_forall value h

theorem asListOf_str (texts : List Str) : asListOf asStr (.arr (texts.map .str)) = some texts := by
  have hread : ∀ text ∈ texts, asStr (.str text) = some (id text) := fun _ _ => rfl
  rw [asListOf_map id hread, List.map_id]

theorem asU16_toNat (n : UInt16) : asU16 (.int n.toNat) = some n := by
  have hrange : (0 : ℤ) ≤ n.toNat ∧ (n.toNat : ℤ) ≤ 65535 := by
    have hlt := n.toNat_lt
    omega
  rw [asU16, if_pos hrange, Int.toNat_natCast, UInt16.ofNat_toNat]

end Library.Json
