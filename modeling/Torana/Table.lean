import Mathlib.Data.List.Basic

/-!
Finite maps: `Table` holds one value for each key, as a hash map does, and
`Multimap` any number of values for each key in order. Neither says anything
about an iteration order.
-/
namespace Torana

/-! ## One value for each key -/

/-- The entries of a map, newest first: of several entries with one key the newest counts. -/
structure Table (κ ν : Type) where
  entries : List (κ × ν)

namespace Table
variable {κ ν : Type}

def empty : Table κ ν := ⟨[]⟩
def insert (t : Table κ ν) (k : κ) (v : ν) : Table κ ν := ⟨(k, v) :: t.entries⟩
/-- The map collected from a list, where a later entry replaces an earlier one. -/
def collect (entries : List (κ × ν)) : Table κ ν :=
  entries.foldl (fun t e => t.insert e.1 e.2) empty

theorem foldl_insert_entries (entries : List (κ × ν)) (t : Table κ ν) :
    (entries.foldl (fun t e => t.insert e.1 e.2) t).entries = entries.reverse ++ t.entries := by
  induction entries generalizing t with
  | nil => rfl
  | cons e rest ih =>
    rw [List.foldl_cons, ih]
    simp [insert]

variable [DecidableEq κ]

def get (t : Table κ ν) (k : κ) : Option ν := t.entries.lookup k
def containsKey (t : Table κ ν) (k : κ) : Bool := (t.get k).isSome

@[simp] theorem get_empty (k : κ) : (empty : Table κ ν).get k = none := rfl
@[simp] theorem get_insert_self (t : Table κ ν) (k : κ) (v : ν) : (t.insert k v).get k = some v := by
  simp [get, insert]
theorem get_insert_ne (t : Table κ ν) {k k' : κ} (v : ν) (other : k' ≠ k) : (t.insert k v).get k' = t.get k' := by
  have different : (k' == k) = false := by simpa using other
  simp [get, insert, List.lookup_cons, different]
theorem get_insert (t : Table κ ν) (k k' : κ) (v : ν) :
    (t.insert k v).get k' = if k' = k then some v else t.get k' := by
  by_cases same : k' = k
  · subst same; simp
  · simp [same, get_insert_ne t v same]
theorem get_insert_some {t : Table κ ν} {k k' : κ} {v v' : ν} (got : (t.insert k v).get k' = some v') :
    (k' = k ∧ v' = v) ∨ (k' ≠ k ∧ t.get k' = some v') := by
  by_cases same : k' = k
  · rw [same, get_insert_self] at got
    exact .inl ⟨same, (Option.some.inj got).symm⟩
  · rw [get_insert_ne t v same] at got
    exact .inr ⟨same, got⟩
theorem containsKey_iff {t : Table κ ν} {k : κ} : t.containsKey k = true ↔ ∃ v, t.get k = some v := by
  simp [containsKey, Option.isSome_iff_exists]

/-- The collected map holds the last entry of each key. -/
theorem get_collect (entries : List (κ × ν)) (k : κ) :
    (collect entries).get k = (entries.reverse.find? (fun e => e.1 = k)).map Prod.snd := by
  have reversed : (collect entries).entries = entries.reverse := by
    rw [collect, foldl_insert_entries]
    simp [empty]
  rw [get, reversed]
  induction entries.reverse with
  | nil => rfl
  | cons e rest ih =>
    obtain ⟨k', v⟩ := e
    by_cases same : k' = k
    · subst same; simp
    · have different : (k == k') = false := by simpa using Ne.symm same
      simp [List.lookup_cons, different, same, ih]

end Table

/-! ## Any number of values for each key -/

/-- The values of each key, in order; a key without values is absent. -/
structure Multimap (κ ν : Type) where
  getAll : κ → List ν

namespace Multimap
variable {κ ν : Type}

def empty : Multimap κ ν := ⟨fun _ => []⟩
/-- The first value. -/
def get (m : Multimap κ ν) (k : κ) : Option ν := (m.getAll k).head?

@[simp] theorem getAll_empty (k : κ) : (empty : Multimap κ ν).getAll k = [] := rfl

variable [DecidableEq κ]

/-- Put one value in place of all values of the key. -/
def insert (m : Multimap κ ν) (k : κ) (v : ν) : Multimap κ ν :=
  ⟨fun k' => if k' = k then [v] else m.getAll k'⟩
/-- Add a value behind the values of the key. -/
def append (m : Multimap κ ν) (k : κ) (v : ν) : Multimap κ ν :=
  ⟨fun k' => if k' = k then m.getAll k ++ [v] else m.getAll k'⟩
/-- Drop all values of the key. -/
def remove (m : Multimap κ ν) (k : κ) : Multimap κ ν :=
  ⟨fun k' => if k' = k then [] else m.getAll k'⟩
def removeAll (m : Multimap κ ν) (ks : List κ) : Multimap κ ν := ks.foldl remove m

@[simp] theorem getAll_insert (m : Multimap κ ν) (k k' : κ) (v : ν) :
    (m.insert k v).getAll k' = if k' = k then [v] else m.getAll k' := rfl
@[simp] theorem getAll_append (m : Multimap κ ν) (k k' : κ) (v : ν) :
    (m.append k v).getAll k' = if k' = k then m.getAll k ++ [v] else m.getAll k' := rfl
@[simp] theorem getAll_remove (m : Multimap κ ν) (k k' : κ) :
    (m.remove k).getAll k' = if k' = k then [] else m.getAll k' := rfl

theorem getAll_removeAll (m : Multimap κ ν) (ks : List κ) (k : κ) :
    (m.removeAll ks).getAll k = if k ∈ ks then [] else m.getAll k := by
  induction ks generalizing m with
  | nil => simp [removeAll]
  | cons first rest ih =>
    have step : m.removeAll (first :: rest) = (m.remove first).removeAll rest := rfl
    rw [step, ih]
    by_cases later : k ∈ rest
    · simp [later]
    · by_cases same : k = first
      · simp [same]
      · simp [later, same]

end Multimap
end Torana
