import Torana.Handling
import Torana.Rotation

/-!
The counters of balancers. Whatever the tasks that share a counter do otherwise,
the calls of `fetch_add` on it are answered with consecutive values
(`reaches_drawn`); a value selects a position of the schedule.
-/
namespace Torana.Counter
open Pool (World Reaches)
open Prog (Only)

/-! ## The values of one counter -/

/-- The answers of the calls of `fetch_add` on one cell, in order. -/
def drawn (cell : Nat) (log : List (Tid × Event Act.Res)) : List Nat :=
  log.filterMap fun
    | (_, ⟨.fetchAdd c _, start⟩) => if c = cell then some start else none
    | _ => none

/-- A task that uses the cell only as a counter of this width. -/
def Counts (cell bits : Nat) (a : Act) : Prop :=
  (∀ count, a ≠ .newCounters count) ∧ ∀ width, a = .fetchAdd cell width → width = bits

@[simp] theorem drawn_nil (cell : Nat) : drawn cell [] = [] := rfl
@[simp] theorem drawn_append (cell : Nat) (left right : List (Tid × Event Act.Res)) :
    drawn cell (left ++ right) = drawn cell left ++ drawn cell right := by
  simp [drawn]
@[simp] theorem drawn_fetchAdd (cell bits start : Nat) (t : Tid) :
    drawn cell [(t, ⟨.fetchAdd cell bits, start⟩)] = [start] := by
  simp [drawn]
theorem drawn_other {cell : Nat} {a : Act} {r : a.Res} (t : Tid) (other : ∀ bits, a ≠ .fetchAdd cell bits) :
    drawn cell [(t, ⟨a, r⟩)] = [] := by
  cases a with
  | fetchAdd c bits =>
    have different : c ≠ cell := by
      rintro rfl
      exact other bits rfl
    simp [drawn, different]
  | _ => rfl

section
variable {crates : Crates} {o : Outside} {t : Tid} {s s' : Store}

theorem perform_fetchAdd {cell bits start : Nat}
    (done : perform crates o t (.fetchAdd cell bits) s = some (start, s')) :
    start = s.counters cell ∧ s'.counters cell = (start + 1) % 2 ^ bits := by
  unfold perform at done
  split at done
  · cases done
  · cases done
    exact ⟨rfl, by simp⟩

/-- Whoever calls, the values are handed out one after the other, and none twice before
    the counter wraps. -/
theorem reaches_drawn {cell bits : Nat} {meets : World Tid Act.Res Store → Tid → Prop} {w w' : World Tid Act.Res Store}
    (counts : ∀ t, Only (Counts cell bits) (w.threads t)) (below : w.state.counters cell < 2 ^ bits)
    (empty : w.log = []) (reaches : Reaches (perform crates) meets w w') :
    drawn cell w'.log =
      (List.range (drawn cell w'.log).length).map fun i => (w.state.counters cell + i) % 2 ^ bits := by
  -- The counter is as far from its first value as values were drawn.
  suffices invariant : w'.state.counters cell = (w.state.counters cell + (drawn cell w'.log).length) % 2 ^ bits ∧
      drawn cell w'.log =
        (List.range (drawn cell w'.log).length).map fun i => (w.state.counters cell + i) % 2 ^ bits from invariant.2
  refine Pool.reaches_invariant (fun w' =>
    w'.state.counters cell = (w.state.counters cell + (drawn cell w'.log).length) % 2 ^ bits ∧
      drawn cell w'.log =
        (List.range (drawn cell w'.log).length).map fun i => (w.state.counters cell + i) % 2 ^ bits) ?_ ?_ reaches
  · simp [empty, Nat.mod_eq_of_lt below]
  · rintro o t w₁ w₂ before ⟨here, values⟩ - taken
    obtain ⟨a, next, r, s, at_t, done, rfl⟩ := Pool.step_cases taken
    have allowed := Pool.reaches_only (counts t) before
    rw [at_t] at allowed
    by_cases draws : ∃ width, a = .fetchAdd cell width
    · obtain ⟨width, rfl⟩ := draws
      obtain rfl := allowed.1.2 width rfl
      obtain ⟨rfl, left⟩ := perform_fetchAdd done
      simp only [drawn_append, drawn_fetchAdd, List.length_append, List.length_singleton, List.range_succ,
        List.map_append, List.map_singleton]
      refine ⟨?_, by rw [← values, here]⟩
      rw [left, here, Nat.mod_add_mod, Nat.add_assoc]
    · have other : ∀ width, a ≠ .fetchAdd cell width := fun width same => draws ⟨width, same⟩
      rw [(perform_leaves done).counters cell allowed.1.1 other, drawn_append, drawn_other t other, List.append_nil]
      exact ⟨here, values⟩

end

end Torana.Counter
