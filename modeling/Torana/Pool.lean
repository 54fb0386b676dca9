import Torana.Prog
import Mathlib.Logic.Function.Basic

/-!
Programs that share a state and take turns. `perform` says what one action of
one thread does to the shared state, given what the outside supplies; a step of
the world is one action of one thread, and a run is any number of steps in any
order.

A thread's own events form a run of its program (`reaches_runs`), so facts about
one program alone carry over to every interleaving. For the thread that drives
the shared state, `Follows` is a proof outline: the thread's position is a ghost
value, each position has an assertion and allows actions behind the thread's events
so far, and the other threads must not disturb the assertions (`reaches_follows`).
-/
namespace Torana
namespace Pool
open Prog (Runs Keeps Only)
universe u

/-- The shared state, what is left of every thread's program, and the events so
    far in the order in which they happened. -/
structure World (ι : Type) {Act : Type} (Res : Act → Type) (σ : Type) where
  state : σ
  threads : ι → Prog Act Res Unit
  log : List (ι × Event Res)

variable {ι Act σ Outside : Type} {Res : Act → Type}

/-! ## One program alone -/

/-- Run a program alone, with one and the same outside throughout. -/
def alone (perform : Outside → ι → (a : Act) → σ → Option (Res a × σ)) {α : Type} (o : Outside) (t : ι) :
    Prog Act Res α → σ → Option (α × σ)
  | .ret value, s => some (value, s)
  | .act a next, s => (perform o t a s).bind fun done => alone perform o t (next done.1) done.2

section
variable {α β : Type} {perform : Outside → ι → (a : Act) → σ → Option (Res a × σ)} {o : Outside} {t : ι}

@[simp] theorem alone_ret (value : α) (s : σ) : alone perform o t (.ret value) s = some (value, s) := rfl
theorem alone_act (a : Act) (next : Res a → Prog Act Res α) (s : σ) :
    alone perform o t (.act a next) s =
      (perform o t a s).bind fun done => alone perform o t (next done.1) done.2 := rfl

theorem alone_call_bind (a : Act) (f : Res a → Prog Act Res β) (s : σ) :
    alone perform o t (Prog.call a >>= f) s =
      (perform o t a s).bind fun done => alone perform o t (f done.1) done.2 := rfl
theorem alone_call (a : Act) (s : σ) : alone perform o t (Prog.call a) s = perform o t a s := by
  show (perform o t a s).bind (fun done => some (done.1, done.2)) = _
  cases perform o t a s <;> rfl

theorem alone_bind (p : Prog Act Res α) (f : α → Prog Act Res β) (s : σ) :
    alone perform o t (p >>= f) s =
      (alone perform o t p s).bind fun done => alone perform o t (f done.1) done.2 := by
  induction p generalizing s with
  | ret value => rfl
  | act a next ih =>
    simp only [Prog.act_bind, alone_act, Option.bind_assoc]
    congr 1
    funext done
    exact ih done.1 done.2

/-- A program whose actions change nothing ends, in some history of its contract. -/
theorem alone_keeps {permitted : List (Event Res) → Act → Prop} {post : List (Event Res) → α → Prop} {s : σ}
    (reads : ∀ past a, permitted past a → ∃ r, perform o t a s = some (r, s)) {past : List (Event Res)}
    {p : Prog Act Res α} (keeps : Keeps permitted post past p) :
    ∃ value more, alone perform o t p s = some (value, s) ∧ post (past ++ more) value ∧
      ∀ e ∈ more, perform o t e.act s = some (e.answer, s) := by
  induction p generalizing past with
  | ret value => exact ⟨value, [], rfl, by simpa using keeps, by simp⟩
  | act a next ih =>
    obtain ⟨r, done⟩ := reads past a keeps.1
    obtain ⟨value, more, ends, held, answered⟩ := ih r (keeps.2 r)
    refine ⟨value, ⟨a, r⟩ :: more, by rw [alone_act, done]; exact ends, by simpa using held, ?_⟩
    intro e member
    rcases List.mem_cons.mp member with rfl | later
    · exact done
    · exact answered e later

end

/-! ## Proof outlines for one thread -/

section
variable {α β Ghost : Type} (perform : Outside → ι → (a : Act) → σ → Option (Res a × σ))
  (holds : Ghost → σ → Prop) (may : Ghost → List (Event Res) → Act → Prop)

/-- From the position `g`, whose assertion is `holds g`, behind its events `past` the
    program performs only what its positions allow, every action leads to a position
    whose assertion holds, and it ends in a position that satisfies `fin`. -/
def Follows (t : ι) (fin : Ghost → List (Event Res) → α → Prop) : Ghost → List (Event Res) → Prog Act Res α → Prop
  | g, past, .ret value => fin g past value
  | g, past, .act a next => may g past a ∧ ∀ o s r s', holds g s → perform o t a s = some (r, s') →
      ∃ g', holds g' s' ∧ Follows t fin g' (past ++ [⟨a, r⟩]) (next r)

variable {perform holds may} {t : ι}

@[simp] theorem follows_ret {fin : Ghost → List (Event Res) → α → Prop} {g : Ghost} {past : List (Event Res)}
    {value : α} : Follows perform holds may t fin g past (.ret value) ↔ fin g past value := Iff.rfl

theorem follows_bind {fin : Ghost → List (Event Res) → β → Prop} {g : Ghost} {past : List (Event Res)}
    {p : Prog Act Res α} {f : α → Prog Act Res β}
    (outline : Follows perform holds may t (fun g past value => Follows perform holds may t fin g past (f value))
      g past p) :
    Follows perform holds may t fin g past (p >>= f) := by
  induction p generalizing g past with
  | ret value => exact outline
  | act a next ih =>
    rw [Prog.act_bind]
    refine ⟨outline.1, fun o s r s' here done => ?_⟩
    obtain ⟨g', holds', rest⟩ := outline.2 o s r s' here done
    exact ⟨g', holds', ih r rest⟩

theorem follows_call_bind {fin : Ghost → List (Event Res) → β → Prop} {g : Ghost} {past : List (Event Res)} {a : Act}
    {f : Res a → Prog Act Res β} :
    Follows perform holds may t fin g past (Prog.call a >>= f) ↔ may g past a ∧ ∀ o s r s', holds g s →
      perform o t a s = some (r, s') → ∃ g', holds g' s' ∧
        Follows perform holds may t fin g' (past ++ [⟨a, r⟩]) (f r) := Iff.rfl

/-- A program stays where it is when none of its actions disturbs the assertion. What its
    actions preserve of the events before it holds behind it. -/
theorem follows_keeps {permitted : List (Event Res) → Act → Prop} {post : List (Event Res) → α → Prop} {g : Ghost}
    (quiet : ∀ past a, permitted past a → may g past a ∧
      ∀ o s r s', holds g s → perform o t a s = some (r, s') → holds g s')
    {past : List (Event Res)} {p : Prog Act Res α} (keeps : Keeps permitted post past p) :
    Follows perform holds may t (fun g' past value => g' = g ∧ post past value) g past p := by
  induction p generalizing past with
  | ret value => exact ⟨rfl, keeps⟩
  | act a next ih =>
    obtain ⟨allowed, undisturbed⟩ := quiet past a keeps.1
    exact ⟨allowed, fun o s r s' here done => ⟨g, undisturbed o s r s' here done, ih r (keeps.2 r)⟩⟩

theorem follows_mono {fin fin' : Ghost → List (Event Res) → α → Prop}
    (ends : ∀ g past value, fin g past value → fin' g past value) {g : Ghost} {past : List (Event Res)}
    {p : Prog Act Res α} (outline : Follows perform holds may t fin g past p) :
    Follows perform holds may t fin' g past p := by
  induction p generalizing g past with
  | ret value => exact ends g past value outline
  | act a next ih =>
    refine ⟨outline.1, fun o s r s' here done => ?_⟩
    obtain ⟨g', holds', rest⟩ := outline.2 o s r s' here done
    exact ⟨g', holds', ih r rest⟩

/-- What was performed before stays performed. -/
theorem follows_grows {fin : Ghost → List (Event Res) → α → Prop} {g : Ghost} {past : List (Event Res)}
    {p : Prog Act Res α} (outline : Follows perform holds may t fin g past p) :
    Follows perform holds may t (fun g past' value => fin g past' value ∧ ∃ more, past' = past ++ more) g past p := by
  induction p generalizing g past with
  | ret value => exact ⟨outline, [], (List.append_nil past).symm⟩
  | act a next ih =>
    refine ⟨outline.1, fun o s r s' here done => ?_⟩
    obtain ⟨g', holds', rest⟩ := outline.2 o s r s' here done
    refine ⟨g', holds', follows_mono ?_ (ih r rest)⟩
    rintro _ _ value ⟨ended, more, rfl⟩
    exact ⟨ended, _, List.append_assoc ..⟩

end

/-! ## Interleavings -/

variable [DecidableEq ι] (perform : Outside → ι → (a : Act) → σ → Option (Res a × σ))

/-- One action of thread `t`; none when it has ended or has to wait. -/
def step (o : Outside) (t : ι) (w : World ι Res σ) : Option (World ι Res σ) :=
  match w.threads t with
  | .ret _ => none
  | .act a next => (perform o t a w.state).map fun done =>
      ⟨done.2, Function.update w.threads t (next done.1), w.log ++ [(t, ⟨a, done.1⟩)]⟩

/-- `w` can become `w'` by steps that each meet the condition before them. -/
inductive Reaches (meets : World ι Res σ → ι → Prop) (w : World ι Res σ) : World ι Res σ → Prop where
  | refl : Reaches meets w w
  | step {w₁ w₂ : World ι Res σ} (t : ι) (o : Outside) (before : Reaches meets w w₁) (here : meets w₁ t)
      (taken : step perform o t w₁ = some w₂) : Reaches meets w w₂

/-- The events of one thread, in order. -/
def own (t : ι) (log : List (ι × Event Res)) : List (Event Res) :=
  log.filterMap fun e => if e.1 = t then some e.2 else none

@[simp] theorem own_nil (t : ι) : (own t [] : List (Event Res)) = [] := rfl
@[simp] theorem own_append (t : ι) (left right : List (ι × Event Res)) :
    own t (left ++ right) = own t left ++ own t right := by
  simp [own]
@[simp] theorem own_single_self (t : ι) (e : Event Res) : own t [(t, e)] = [e] := by
  simp [own]
theorem own_single_other {t t' : ι} (e : Event Res) (other : t' ≠ t) : own t [(t', e)] = [] := by
  simp [own, other]
theorem mem_own {t : ι} {e : Event Res} {log : List (ι × Event Res)} : e ∈ own t log ↔ (t, e) ∈ log := by
  simp only [own, List.mem_filterMap, Option.ite_none_right_eq_some, Option.some.injEq]
  constructor
  · rintro ⟨⟨t', e'⟩, member, rfl, rfl⟩
    exact member
  · intro member
    exact ⟨(t, e), member, rfl, rfl⟩

variable {perform}

/-- Everything that one step does. -/
theorem step_cases {o : Outside} {t : ι} {w w' : World ι Res σ} (taken : step perform o t w = some w') :
    ∃ a next r s, w.threads t = .act a next ∧ perform o t a w.state = some (r, s) ∧
      w' = ⟨s, Function.update w.threads t (next r), w.log ++ [(t, ⟨a, r⟩)]⟩ := by
  unfold step at taken
  split at taken
  · cases taken
  · rename_i a next at_t
    obtain ⟨⟨r, s⟩, done, rfl⟩ := Option.map_eq_some_iff.mp taken
    exact ⟨a, next, r, s, at_t, done, rfl⟩

/-- A thread steps when its next action can be performed. -/
theorem step_of_perform {o : Outside} {t : ι} {w : World ι Res σ} {a : Act} {next : Res a → Prog Act Res Unit}
    {r : Res a} {s : σ} (head : w.threads t = .act a next) (done : perform o t a w.state = some (r, s)) :
    step perform o t w = some ⟨s, Function.update w.threads t (next r), w.log ++ [(t, ⟨a, r⟩)]⟩ := by
  simp only [step, head, done, Option.map_some]

section
variable {meets : World ι Res σ → ι → Prop} {w w' : World ι Res σ}

theorem reaches_trans {w'' : World ι Res σ} (first : Reaches perform meets w w')
    (second : Reaches perform meets w' w'') : Reaches perform meets w w'' := by
  induction second with
  | refl => exact first
  | step t o _ here taken ih => exact .step t o ih here taken

theorem reaches_mono {meets' : World ι Res σ → ι → Prop} (sub : ∀ w t, meets w t → meets' w t)
    (reaches : Reaches perform meets w w') : Reaches perform meets' w w' := by
  induction reaches with
  | refl => exact .refl
  | step t o _ here taken ih => exact .step t o ih (sub _ _ here) taken

/-- What holds at the start and survives every step that meets the condition
    holds in every state reached. -/
theorem reaches_invariant (inv : World ι Res σ → Prop) (start : inv w)
    (preserved : ∀ o t w₁ w₂, Reaches perform meets w w₁ → inv w₁ → meets w₁ t →
      step perform o t w₁ = some w₂ → inv w₂)
    (reaches : Reaches perform meets w w') : inv w' := by
  induction reaches with
  | refl => exact start
  | step t o before here taken ih => exact preserved o t _ _ before ih here taken

/-- Each thread's own events are a run of its program, whatever the others do. -/
theorem reaches_runs (reaches : Reaches perform meets w w') :
    ∃ trace, w'.log = w.log ++ trace ∧ ∀ t, Runs (w.threads t) (own t trace) (w'.threads t) := by
  induction reaches with
  | refl => exact ⟨[], by simp, fun t => .nil _⟩
  | step t o _ _ taken ih =>
    obtain ⟨trace, logged, runs⟩ := ih
    obtain ⟨a, next, r, s, at_t, _, rfl⟩ := step_cases taken
    refine ⟨trace ++ [(t, ⟨a, r⟩)], by simp [logged], fun t' => ?_⟩
    by_cases same : t' = t
    · subst same
      have mine := runs t'
      rw [at_t] at mine
      simpa using Prog.runs_snoc mine r
    · simpa [own_single_other _ (Ne.symm same), same] using runs t'

/-- What a thread does alone it can do while the others wait. -/
theorem reaches_alone {o : Outside} {t : ι} {s : σ} (free : ∀ w, meets w t)
    (ends : alone perform o t (w.threads t) w.state = some ((), s)) :
    ∃ w' trace, Reaches perform meets w w' ∧ w'.state = s ∧ w'.log = w.log ++ trace ∧ ∀ e ∈ trace, e.1 = t := by
  generalize head : w.threads t = p at ends
  induction p generalizing w with
  | ret value =>
    cases ends
    exact ⟨w, [], .refl, rfl, by simp, by simp⟩
  | act a next ih =>
    rw [alone_act] at ends
    obtain ⟨⟨r, s₁⟩, done, later⟩ := Option.bind_eq_some_iff.mp ends
    have taken : step perform o t w = some ⟨s₁, Function.update w.threads t (next r), w.log ++ [(t, ⟨a, r⟩)]⟩ := by
      simp only [step, head, done, Option.map_some]
    obtain ⟨w', trace, reaches, state, logged, mine⟩ :=
      ih r (w := ⟨s₁, Function.update w.threads t (next r), w.log ++ [(t, ⟨a, r⟩)]⟩) (Function.update_self ..) later
    refine ⟨w', (t, ⟨a, r⟩) :: trace, reaches_trans (.step t o .refl (free w) taken) reaches, state, ?_, ?_⟩
    · rw [logged, List.append_assoc, List.singleton_append]
    · exact List.forall_mem_cons.mpr ⟨rfl, mine⟩

/-- Every event of a run happened in a step from the world that the events before it reached. -/
theorem reaches_event {t : ι} {e : Event Res} {before after : List (ι × Event Res)}
    (reaches : Reaches perform meets w w') (logged : w'.log = w.log ++ before ++ (t, e) :: after) :
    ∃ o w₁ next s, Reaches perform meets w w₁ ∧ w₁.log = w.log ++ before ∧ meets w₁ t ∧
      w₁.threads t = .act e.act next ∧ perform o t e.act w₁.state = some (e.answer, s) := by
  induction reaches generalizing after with
  | refl => simp at logged
  | @step w₁ w₂ t' o first here taken ih =>
    obtain ⟨a, next, r, s, at_t, done, rfl⟩ := step_cases taken
    have same : w₁.log ++ [(t', ⟨a, r⟩)] = (w.log ++ before) ++ (t, e) :: after := by simpa using logged
    rcases List.eq_nil_or_concat after with rfl | ⟨rest, last, rfl⟩
    · obtain ⟨logs, events⟩ := List.append_inj' same rfl
      cases events
      exact ⟨o, w₁, next, s, first, logs, here, at_t, done⟩
    · rw [List.concat_eq_append, ← List.cons_append, ← List.append_assoc] at same
      obtain ⟨logs, _⟩ := List.append_inj' same rfl
      exact ih logs

/-- What no thread's program performs does not happen. -/
theorem reaches_log {allowed : Act → Prop} (only : ∀ t, Only allowed (w.threads t))
    (reaches : Reaches perform meets w w') : ∀ e ∈ w'.log, e ∈ w.log ∨ allowed e.2.act := by
  induction reaches with
  | refl => exact fun e member => .inl member
  | @step w₁ w₂ t o before here taken ih =>
    obtain ⟨a, next, r, s, at_t, _, rfl⟩ := step_cases taken
    obtain ⟨trace, _, runs⟩ := reaches_runs before
    have remains := Prog.only_runs (only t) (runs t)
    rw [at_t] at remains
    intro e member
    rcases List.mem_append.mp member with earlier | last
    · exact ih e earlier
    · obtain rfl := List.mem_singleton.mp last
      exact .inr remains.1

/-- A thread that uses only the allowed actions still does after any run. -/
theorem reaches_only {allowed : Act → Prop} {t : ι} (only : Only allowed (w.threads t))
    (reaches : Reaches perform meets w w') : Only allowed (w'.threads t) := by
  obtain ⟨trace, _, runs⟩ := reaches_runs reaches
  exact Prog.only_runs only (runs t)

end

section
variable {α Ghost : Type} {holds : Ghost → σ → Prop} {may : Ghost → List (Event Res) → Act → Prop} {t : ι}

/-- In every interleaving the thread is at some position whose assertion holds, as
    long as the others' actions keep every assertion. -/
theorem reaches_follows {meets : World ι Res σ → ι → Prop} {w w' : World ι Res σ}
    {fin : Ghost → List (Event Res) → Unit → Prop} (others : Act → Prop)
    (frame : ∀ g o t' a s r s', t' ≠ t → others a → holds g s → perform o t' a s = some (r, s') → holds g s')
    (only : ∀ t', t' ≠ t → Only others (w.threads t'))
    (start : ∃ g, holds g w.state ∧ Follows perform holds may t fin g (own t w.log) (w.threads t))
    (reaches : Reaches perform meets w w') :
    ∃ g, holds g w'.state ∧ Follows perform holds may t fin g (own t w'.log) (w'.threads t) := by
  refine reaches_invariant
    (fun w => ∃ g, holds g w.state ∧ Follows perform holds may t fin g (own t w.log) (w.threads t)) start ?_ reaches
  rintro o t' w₁ w₂ before ⟨g, here, outline⟩ _ taken
  obtain ⟨a, next, r, s, at_t, done, rfl⟩ := step_cases taken
  by_cases same : t' = t
  · subst same
    rw [at_t] at outline
    obtain ⟨g', holds', rest⟩ := outline.2 o _ r s here done
    exact ⟨g', holds', by simpa using rest⟩
  · have allowed := reaches_only (only t' same) before
    rw [at_t] at allowed
    refine ⟨g, frame g o t' a _ r s same allowed.1 here done, ?_⟩
    simpa [own_single_other _ same, Function.update_of_ne (Ne.symm same)] using outline

end

/-! ## Schedules -/

/-- Take the steps of a schedule, each of which has to pass the check before it. -/
def run (perform : Outside → ι → (a : Act) → σ → Option (Res a × σ)) (check : World ι Res σ → ι → Bool) :
    List (ι × Outside) → World ι Res σ → Option (World ι Res σ)
  | [], w => some w
  | (t, o) :: rest, w => if check w t then (step perform o t w).bind (run perform check rest) else none

/-- What a schedule computes is reached. -/
theorem run_reaches {meets : World ι Res σ → ι → Prop} {check : World ι Res σ → ι → Bool}
    (sound : ∀ w t, check w t = true → meets w t) {schedule : List (ι × Outside)} {w w' : World ι Res σ}
    (ran : run perform check schedule w = some w') : Reaches perform meets w w' := by
  induction schedule generalizing w with
  | nil =>
    cases ran
    exact .refl
  | cons turn rest ih =>
    obtain ⟨t, o⟩ := turn
    simp only [run] at ran
    split at ran
    · rename_i passed
      obtain ⟨w₁, taken, later⟩ := Option.bind_eq_some_iff.mp ran
      exact reaches_trans (.step t o .refl (sound w t passed) taken) (ih later)
    · cases ran

/-! ## Events in a log -/

/-- Some event of a list passes a check against the events before it. -/
def somewhere {α : Type} (check : List α → α → Bool) : (before events : List α) → Bool
  | _, [] => false
  | before, e :: rest => check before e || somewhere check (before ++ [e]) rest

theorem somewhere_split {α : Type} {check : List α → α → Bool} {before events : List α}
    (found : somewhere check before events = true) :
    ∃ middle e after, events = middle ++ e :: after ∧ check (before ++ middle) e = true := by
  induction events generalizing before with
  | nil => cases found
  | cons e rest ih =>
    rcases Bool.or_eq_true_iff.mp found with here | later
    · exact ⟨[], e, rest, rfl, by simpa using here⟩
    · obtain ⟨middle, e', after, rfl, passed⟩ := ih later
      exact ⟨e :: middle, e', after, rfl, by simpa using passed⟩

end Pool
end Torana
