import Mathlib.Data.List.Basic

/-!
Programs as trees of actions. A program performs an action, receives an answer
from whatever surrounds it, and continues; it is data, so the same program can
be run alone, against arbitrary answers, or interleaved with others.

`Runs` is the meaning against arbitrary answers. `Keeps` is a contract over the
history of one run: what may be performed after it and what holds at the end.
`Only` bounds the actions that occur at all.
-/
namespace Torana

/-- A program over actions of type `Act`, each answered by a value of `Res a`,
    that ends with a value of type `α`. -/
inductive Prog (Act : Type) (Res : Act → Type) (α : Type) where
  | ret (value : α)
  | act (a : Act) (next : Res a → Prog Act Res α)

/-- An action that was performed, with its answer. -/
structure Event {Act : Type} (Res : Act → Type) where
  act : Act
  answer : Res act

namespace Prog
variable {Act : Type} {Res : Act → Type} {α β γ : Type}

/-- The program that performs one action and returns its answer. -/
def call (a : Act) : Prog Act Res (Res a) := .act a .ret

/-- Run `p`, then the program that its value selects. -/
def bind : Prog Act Res α → (α → Prog Act Res β) → Prog Act Res β
  | .ret value, f => f value
  | .act a next, f => .act a (fun r => (next r).bind f)

instance : Monad (Prog Act Res) where
  pure := .ret
  bind := bind

@[simp] theorem pure_eq (value : α) : (pure value : Prog Act Res α) = .ret value := rfl
@[simp] theorem ret_bind (value : α) (f : α → Prog Act Res β) : (Prog.ret value >>= f) = f value := rfl
@[simp] theorem act_bind (a : Act) (next : Res a → Prog Act Res α) (f : α → Prog Act Res β) :
    (Prog.act a next >>= f) = .act a (fun r => next r >>= f) := rfl
@[simp] theorem call_bind (a : Act) (f : Res a → Prog Act Res β) : (call a >>= f) = .act a f := rfl

theorem bind_assoc (p : Prog Act Res α) (f : α → Prog Act Res β) (g : β → Prog Act Res γ) :
    (p >>= f) >>= g = p >>= fun value => f value >>= g := by
  induction p with
  | ret value => rfl
  | act a next ih =>
    simp only [act_bind]
    congr 1
    funext r
    exact ih r

/-! ## Runs -/

/-- `p` performs the events `trace` and is then `q`. -/
inductive Runs : Prog Act Res α → List (Event Res) → Prog Act Res α → Prop where
  | nil (p : Prog Act Res α) : Runs p [] p
  | cons {a : Act} {next : Res a → Prog Act Res α} (r : Res a) {trace : List (Event Res)} {q : Prog Act Res α}
      (rest : Runs (next r) trace q) : Runs (.act a next) (⟨a, r⟩ :: trace) q

theorem runs_append {p q s : Prog Act Res α} {first second : List (Event Res)} (left : Runs p first q)
    (right : Runs q second s) : Runs p (first ++ second) s := by
  induction left with
  | nil p => exact right
  | cons r _ ih => exact .cons r (ih right)

theorem runs_snoc {p : Prog Act Res α} {a : Act} {next : Res a → Prog Act Res α} {trace : List (Event Res)}
    (left : Runs p trace (.act a next)) (r : Res a) : Runs p (trace ++ [⟨a, r⟩]) (next r) :=
  runs_append left (.cons r (.nil _))

/-- A run splits at every event that it performs. -/
theorem runs_split {p q : Prog Act Res α} {before after : List (Event Res)} {e : Event Res}
    (run : Runs p (before ++ e :: after) q) :
    ∃ next, Runs p before (.act e.act next) ∧ Runs (next e.answer) after q := by
  induction before generalizing p with
  | nil =>
    cases run with
    | @cons a next r _ _ rest => exact ⟨next, .nil _, rest⟩
  | cons first before ih =>
    cases run with
    | @cons a next r _ _ rest =>
      obtain ⟨next', left, right⟩ := ih rest
      exact ⟨next', .cons r left, right⟩

theorem runs_act {a : Act} {next : Res a → Prog Act Res α} {trace : List (Event Res)} {q : Prog Act Res α}
    (run : Runs (.act a next) trace q) :
    (trace = [] ∧ q = .act a next) ∨ ∃ r rest, trace = ⟨a, r⟩ :: rest ∧ Runs (next r) rest q := by
  cases run with
  | nil => exact .inl ⟨rfl, rfl⟩
  | cons r rest => exact .inr ⟨r, _, rfl, rest⟩

theorem runs_cons {a : Act} {next : Res a → Prog Act Res α} {r : Res a} {trace : List (Event Res)}
    {q : Prog Act Res α} : Runs (.act a next) (⟨a, r⟩ :: trace) q ↔ Runs (next r) trace q := by
  constructor
  · intro run
    cases run with
    | cons _ rest => exact rest
  · exact .cons r

/-- A sequence goes on with the program that the value of its first one selects. -/
theorem runs_then {p : Prog Act Res α} {f : α → Prog Act Res β} {first second : List (Event Res)} {mid : α}
    {q : Prog Act Res β} (left : Runs p first (.ret mid)) (right : Runs (f mid) second q) :
    Runs (p >>= f) (first ++ second) q := by
  refine runs_append ?_ right
  generalize ended : (Prog.ret mid : Prog Act Res α) = q at left
  induction left with
  | nil p =>
    subst ended
    exact .nil _
  | cons r _ ih => exact .cons r (ih ended)

/-- A sequence ends when its first program ends and then the one its value selects. -/
theorem runs_bind {p : Prog Act Res α} {f : α → Prog Act Res β} {trace : List (Event Res)} {value : β} :
    Runs (p >>= f) trace (.ret value) ↔
      ∃ first second mid, trace = first ++ second ∧ Runs p first (.ret mid) ∧ Runs (f mid) second (.ret value) := by
  constructor
  · intro run
    induction p generalizing trace with
    | ret mid => exact ⟨[], trace, mid, rfl, .nil _, run⟩
    | act a next ih =>
      rw [act_bind] at run
      obtain ⟨-, ends⟩ | ⟨r, rest, rfl, later⟩ := runs_act run
      · cases ends
      · obtain ⟨first, second, mid, rfl, left, right⟩ := ih r later
        exact ⟨⟨a, r⟩ :: first, second, mid, rfl, .cons r left, right⟩
  · rintro ⟨first, second, mid, rfl, left, right⟩
    exact runs_then left right

theorem runs_ret {trace : List (Event Res)} {value : α} {q : Prog Act Res α} :
    Runs (.ret value) trace q ↔ trace = [] ∧ q = .ret value := by
  constructor
  · intro run
    cases run
    exact ⟨rfl, rfl⟩
  · rintro ⟨rfl, rfl⟩
    exact .nil _

/-- An action alone is performed once. -/
theorem runs_call {a : Act} {trace : List (Event Res)} {r : Res a} :
    Runs (call a) trace (.ret r) ↔ trace = [⟨a, r⟩] := by
  constructor
  · intro run
    obtain ⟨-, ended⟩ | ⟨answer, rest, rfl, later⟩ := runs_act run
    · cases ended
    · obtain ⟨rfl, same⟩ := runs_ret.mp later
      rw [ret.inj same]
  · rintro rfl
    exact .cons r (.nil _)

/-- Call a program a number of times, one call after the other. -/
def times (p : Prog Act Res α) : Nat → Prog Act Res (List α)
  | 0 => return []
  | n + 1 => do
    let value ← p
    let rest ← times p n
    return value :: rest

/-- Run a program against fixed answers for as long as there are answers. -/
def follow (answer : (a : Act) → Option (Res a)) : Prog Act Res α → List (Event Res) × Prog Act Res α
  | .ret value => ([], .ret value)
  | .act a next =>
    match answer a with
    | none => ([], .act a next)
    | some r => (⟨a, r⟩ :: (follow answer (next r)).1, (follow answer (next r)).2)

theorem runs_follow (answer : (a : Act) → Option (Res a)) (p : Prog Act Res α) :
    Runs p (follow answer p).1 (follow answer p).2 := by
  induction p with
  | ret value => exact .nil _
  | act a next ih =>
    unfold follow
    cases answer a with
    | none => exact .nil _
    | some r => exact .cons r (ih r)

theorem follow_answered {answer : (a : Act) → Option (Res a)} {p : Prog Act Res α} {e : Event Res}
    (member : e ∈ (follow answer p).1) : answer e.act = some e.answer := by
  induction p with
  | ret value => cases member
  | act a next ih =>
    unfold follow at member
    cases answered : answer a with
    | none =>
      rw [answered] at member
      cases member
    | some r =>
      rw [answered] at member
      rcases List.mem_cons.mp member with rfl | later
      · exact answered
      · exact ih r later

theorem follow_call_bind {answer : (a : Act) → Option (Res a)} {a : Act} {r : Res a} (answered : answer a = some r)
    (f : Res a → Prog Act Res β) :
    follow answer (call a >>= f) = (⟨a, r⟩ :: (follow answer (f r)).1, (follow answer (f r)).2) := by
  rw [call_bind, follow, answered]

theorem follow_bind {answer : (a : Act) → Option (Res a)} {p : Prog Act Res α} {value : α}
    (ends : (follow answer p).2 = .ret value) (f : α → Prog Act Res β) :
    follow answer (p >>= f) =
      ((follow answer p).1 ++ (follow answer (f value)).1, (follow answer (f value)).2) := by
  induction p with
  | ret v =>
    cases ends
    rfl
  | act a next ih =>
    unfold follow at ends
    rw [act_bind, follow, follow]
    cases answered : answer a with
    | none =>
      rw [answered] at ends
      cases ends
    | some r =>
      rw [answered] at ends
      simp only [ih r ends, List.cons_append]

/-! ## Contracts over the history of a run -/

/-- After the events `past`, everything that the program performs is allowed by
    `may`, and it ends as `fin` says, whatever the answers. -/
def Keeps (may : List (Event Res) → Act → Prop) (fin : List (Event Res) → α → Prop) :
    List (Event Res) → Prog Act Res α → Prop
  | past, .ret value => fin past value
  | past, .act a next => may past a ∧ ∀ r, Keeps may fin (past ++ [⟨a, r⟩]) (next r)

variable {may : List (Event Res) → Act → Prop}

@[simp] theorem keeps_ret {fin : List (Event Res) → α → Prop} {past : List (Event Res)} {value : α} :
    Keeps may fin past (.ret value) ↔ fin past value := Iff.rfl
@[simp] theorem keeps_act {fin : List (Event Res) → α → Prop} {past : List (Event Res)} {a : Act}
    {next : Res a → Prog Act Res α} :
    Keeps may fin past (.act a next) ↔ may past a ∧ ∀ r, Keeps may fin (past ++ [⟨a, r⟩]) (next r) := Iff.rfl

theorem keeps_call_bind {fin : List (Event Res) → β → Prop} {past : List (Event Res)} {a : Act}
    {f : Res a → Prog Act Res β} :
    Keeps may fin past (call a >>= f) ↔ may past a ∧ ∀ r, Keeps may fin (past ++ [⟨a, r⟩]) (f r) := Iff.rfl

/-- The contract of a sequence: the first program ends where the second starts. -/
theorem keeps_bind {fin : List (Event Res) → β → Prop} {past : List (Event Res)} {p : Prog Act Res α}
    {f : α → Prog Act Res β} :
    Keeps may fin past (p >>= f) ↔ Keeps may (fun past value => Keeps may fin past (f value)) past p := by
  induction p generalizing past with
  | ret value => rfl
  | act a next ih => simp only [act_bind, keeps_act, ih]

theorem keeps_mono {may' : List (Event Res) → Act → Prop} {fin fin' : List (Event Res) → α → Prop}
    (weaker : ∀ past a, may past a → may' past a) (ends : ∀ past value, fin past value → fin' past value)
    {past : List (Event Res)} {p : Prog Act Res α} (keeps : Keeps may fin past p) : Keeps may' fin' past p := by
  induction p generalizing past with
  | ret value => exact ends past value keeps
  | act a next ih => exact ⟨weaker past a keeps.1, fun r => ih r (keeps.2 r)⟩

/-- A contract without a history holds in every history, with whatever its actions preserve. -/
theorem keeps_stable (inv : List (Event Res) → Prop) {allowed : Act → Prop} {post : α → Prop}
    (stable : ∀ past a r, inv past → allowed a → inv (past ++ [⟨a, r⟩]))
    (permits : ∀ past a, inv past → allowed a → may past a) {before past : List (Event Res)} {p : Prog Act Res α}
    (keeps : Keeps (fun _ a => allowed a) (fun _ value => post value) before p) (here : inv past) :
    Keeps may (fun past value => inv past ∧ post value) past p := by
  induction p generalizing before past with
  | ret value => exact ⟨here, keeps⟩
  | act a next ih => exact ⟨permits past a here keeps.1, fun r => ih r (keeps.2 r) (stable past a r here keeps.1)⟩

/-- A contract over the history holds together with whatever its actions preserve. -/
theorem keeps_invariant (inv : List (Event Res) → Prop) {may' : List (Event Res) → Act → Prop}
    {fin : List (Event Res) → α → Prop} (stable : ∀ past a r, inv past → may past a → inv (past ++ [⟨a, r⟩]))
    (permits : ∀ past a, inv past → may past a → may' past a) {past : List (Event Res)} {p : Prog Act Res α}
    (keeps : Keeps may fin past p) (here : inv past) :
    Keeps may' (fun past value => inv past ∧ fin past value) past p := by
  induction p generalizing past with
  | ret value => exact ⟨here, keeps⟩
  | act a next ih => exact ⟨permits past a here keeps.1, fun r => ih r (keeps.2 r) (stable past a r here keeps.1)⟩

/-- Two contracts of one program hold together. -/
theorem keeps_and {may' : List (Event Res) → Act → Prop} {fin fin' : List (Event Res) → α → Prop}
    {past : List (Event Res)} {p : Prog Act Res α} (left : Keeps may fin past p) (right : Keeps may' fin' past p) :
    Keeps (fun past a => may past a ∧ may' past a) (fun past value => fin past value ∧ fin' past value) past p := by
  induction p generalizing past with
  | ret value => exact ⟨left, right⟩
  | act a next ih => exact ⟨⟨left.1, right.1⟩, fun r => ih r (left.2 r) (right.2 r)⟩

/-- What all complete runs say about their end strengthens a contract. -/
theorem keeps_of_runs {fin : List (Event Res) → α → Prop} {past : List (Event Res)} {p : Prog Act Res α}
    (permitted : Keeps may (fun _ _ => True) past p)
    (ends : ∀ trace value, Runs p trace (.ret value) → fin (past ++ trace) value) : Keeps may fin past p := by
  induction p generalizing past with
  | ret value => simpa using ends [] value (.nil _)
  | act a next ih =>
    refine ⟨permitted.1, fun r => ih r (permitted.2 r) fun trace value run => ?_⟩
    simpa using ends (⟨a, r⟩ :: trace) value (.cons r run)

theorem keeps_runs {fin : List (Event Res) → α → Prop} {past trace : List (Event Res)} {p q : Prog Act Res α}
    (keeps : Keeps may fin past p) (run : Runs p trace q) : Keeps may fin (past ++ trace) q := by
  induction run generalizing past with
  | nil p => simpa using keeps
  | cons r _ ih => simpa using ih (keeps.2 r)

/-- Every event of a run was allowed after the events before it. -/
theorem keeps_event {fin : List (Event Res) → α → Prop} {past before after : List (Event Res)} {e : Event Res}
    {p q : Prog Act Res α} (keeps : Keeps may fin past p) (run : Runs p (before ++ e :: after) q) :
    may (past ++ before) e.act := by
  obtain ⟨next, left, _⟩ := runs_split run
  exact (keeps_runs keeps left).1

/-! ## The actions that occur -/

/-- Whatever the answers, the program performs only actions in `allowed`. -/
def Only (allowed : Act → Prop) : Prog Act Res α → Prop
  | .ret _ => True
  | .act a next => allowed a ∧ ∀ r, Only allowed (next r)

variable {allowed : Act → Prop}

@[simp] theorem only_ret {value : α} : Only allowed (.ret value : Prog Act Res α) ↔ True := Iff.rfl
@[simp] theorem only_act {a : Act} {next : Res a → Prog Act Res α} :
    Only allowed (.act a next) ↔ allowed a ∧ ∀ r, Only allowed (next r) := Iff.rfl

theorem only_bind {p : Prog Act Res α} {f : α → Prog Act Res β} (left : Only allowed p)
    (right : ∀ value, Only allowed (f value)) : Only allowed (p >>= f) := by
  induction p with
  | ret value => simpa using right value
  | act a next ih =>
    rw [act_bind, only_act]
    obtain ⟨here, later⟩ := left
    exact ⟨here, fun r => ih r (later r)⟩

theorem only_call_bind {a : Act} {f : Res a → Prog Act Res β} (here : allowed a)
    (later : ∀ r, Only allowed (f r)) : Only allowed (call a >>= f) := ⟨here, later⟩

theorem only_times {p : Prog Act Res α} (only : Only allowed p) (n : Nat) : Only allowed (times p n) := by
  induction n with
  | zero => trivial
  | succ n ih => exact only_bind only fun _ => only_bind ih fun _ => trivial

/-- What a contract permits in every history is all that occurs. -/
theorem only_of_keeps {fin : List (Event Res) → α → Prop} {past : List (Event Res)} {p : Prog Act Res α}
    (sub : ∀ past a, may past a → allowed a) (keeps : Keeps may fin past p) : Only allowed p := by
  induction p generalizing past with
  | ret value => trivial
  | act a next ih => exact ⟨sub past a keeps.1, fun r => ih r (keeps.2 r)⟩

theorem keeps_of_only {past : List (Event Res)} {p : Prog Act Res α} (only : Only allowed p) :
    Keeps (fun _ a => allowed a) (fun _ _ => True) past p := by
  induction p generalizing past with
  | ret value => trivial
  | act a next ih => exact ⟨only.1, fun r => ih r (only.2 r)⟩

theorem only_mono {wider : Act → Prop} (sub : ∀ a, allowed a → wider a) {p : Prog Act Res α}
    (only : Only allowed p) : Only wider p := by
  induction p with
  | ret value => trivial
  | act a next ih => exact ⟨sub a only.1, fun r => ih r (only.2 r)⟩

/-- A program ends when all actions that occur are answered. -/
theorem follow_ends {answer : (a : Act) → Option (Res a)} (answers : ∀ a, allowed a → ∃ r, answer a = some r)
    {p : Prog Act Res α} (only : Only allowed p) : ∃ value, (follow answer p).2 = .ret value := by
  induction p with
  | ret value => exact ⟨value, rfl⟩
  | act a next ih =>
    obtain ⟨r, answered⟩ := answers a only.1
    unfold follow
    rw [answered]
    exact ih r (only.2 r)

/-- A program whose actions all have a good answer comes to an end with good answers. -/
theorem only_ends {good : (a : Act) → Res a → Prop} {p : Prog Act Res α} (only : Only (fun a => ∃ r, good a r) p) :
    ∃ trace value, Runs p trace (.ret value) ∧ ∀ e ∈ trace, good e.act e.answer := by
  induction p with
  | ret value => exact ⟨[], value, .nil _, by simp⟩
  | act a next ih =>
    obtain ⟨⟨r, answered⟩, later⟩ := only
    obtain ⟨trace, value, run, goods⟩ := ih r (later r)
    refine ⟨⟨a, r⟩ :: trace, value, .cons r run, ?_⟩
    intro e member
    rcases List.mem_cons.mp member with rfl | behind
    · exact answered
    · exact goods e behind

theorem only_runs {p q : Prog Act Res α} {trace : List (Event Res)} (only : Only allowed p)
    (run : Runs p trace q) : Only allowed q := by
  induction run with
  | nil p => exact only
  | cons r _ ih => exact ih (only.2 r)

end Prog
end Torana
