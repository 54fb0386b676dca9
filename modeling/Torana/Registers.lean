import Torana.Pool

/-!
Parts of the shared state that only some actions replace. A register holds the
value that was written last (`reaches_get`), so what a log wrote says which value
every read returned. The version of a register counts its writes; it never goes
back along a run.
-/
namespace Torana
namespace Registers
open Pool (World Reaches)

variable {ι Act σ Outside Value : Type} {Res : Act → Type}

/-! ## Versions -/

/-- The values that the events wrote, in order. -/
def writes (write : Act → Option Value) (log : List (ι × Event Res)) : List Value :=
  log.filterMap fun e => write e.2.act

/-- How often the register was written. -/
def version (write : Act → Option Value) (log : List (ι × Event Res)) : Nat := (writes write log).length

section
variable {write : Act → Option Value}

@[simp] theorem writes_nil : writes write ([] : List (ι × Event Res)) = [] := rfl
@[simp] theorem writes_append (before after : List (ι × Event Res)) :
    writes write (before ++ after) = writes write before ++ writes write after := by
  simp [writes]

theorem version_append_le (before after : List (ι × Event Res)) :
    version write before ≤ version write (before ++ after) := by
  rw [version, version, writes_append]
  exact (List.prefix_append _ _).length_le

theorem version_append (before after : List (ι × Event Res)) :
    version write (before ++ after) = version write before + version write after := by
  simp [version]

/-- Where nothing is written the version stays. -/
theorem version_quiet {log : List (ι × Event Res)} (quiet : ∀ e ∈ log, write e.2.act = none) :
    version write log = 0 := by
  simpa [version, writes] using quiet

/-- A register that one thread writes is written by that thread's own events. -/
theorem writes_own [DecidableEq ι] {t : ι} {log : List (ι × Event Res)}
    (only : ∀ e ∈ log, e.1 ≠ t → write e.2.act = none) :
    writes write log = (Pool.own t log).filterMap fun e => write e.act := by
  induction log with
  | nil => rfl
  | cons e rest ih =>
    obtain ⟨here, later⟩ := List.forall_mem_cons.mp only
    have split : e :: rest = [e] ++ rest := rfl
    rw [split, writes_append, Pool.own_append, List.filterMap_append, ih later]
    congr 1
    by_cases same : e.1 = t
    · obtain ⟨t', e⟩ := e
      obtain rfl := same
      rw [Pool.own_single_self]
      rfl
    · rw [Pool.own_single_other e.2 same]
      simp [writes, here same]

end

/-! ## Registers -/

/-- A part of the shared state, with the actions that replace it and by what. -/
structure Register (perform : Outside → ι → (a : Act) → σ → Option (Res a × σ)) (Value : Type) where
  get : σ → Value
  write : Act → Option Value
  written : ∀ {o t a s r s'}, perform o t a s = some (r, s') → get s' = (write a).getD (get s)

variable [DecidableEq ι] {perform : Outside → ι → (a : Act) → σ → Option (Res a × σ)}
  {meets : World ι Res σ → ι → Prop} {w w' : World ι Res σ}

/-- A register holds the value that was written last, or its first one. -/
theorem reaches_get (register : Register perform Value) (empty : w.log = []) (reaches : Reaches perform meets w w') :
    (register.get w.state :: writes register.write w'.log)[version register.write w'.log]? =
      some (register.get w'.state) := by
  have last : ∀ {first : Value} (values : List Value), (first :: values)[values.length]? = (first :: values).getLast? := by
    intro first values
    rw [List.getLast?_eq_getElem?]
    rfl
  rw [version, last]
  refine Pool.reaches_invariant (fun w' =>
    (register.get w.state :: writes register.write w'.log).getLast? = some (register.get w'.state)) ?_ ?_ reaches
  · simp [empty]
  · intro o t w₁ w₂ _ held _ taken
    obtain ⟨a, next, r, s, _, done, rfl⟩ := Pool.step_cases taken
    have value := register.written done
    show (register.get w.state :: writes register.write (w₁.log ++ [(t, ⟨a, r⟩)])).getLast? = some (register.get s)
    rw [writes_append, ← List.cons_append, value]
    cases wrote : register.write a with
    | none => simpa [writes, wrote] using held
    | some v =>
      have added : writes register.write [(t, (⟨a, r⟩ : Event Res))] = [v] := by simp [writes, wrote]
      rw [added, List.getLast?_concat]
      rfl

/-- Of what a log wrote into a register, every reached state holds the value at its own version. -/
theorem reaches_version (register : Register perform Value) (empty : w.log = [])
    (reaches : Reaches perform meets w w') {later values : List Value}
    (wrote : writes register.write w'.log ++ later = values) :
    (register.get w.state :: values)[version register.write w'.log]? = some (register.get w'.state) := by
  rw [← wrote, ← List.cons_append, List.getElem?_append_left (by simp [version])]
  exact reaches_get register empty reaches

end Registers
end Torana
