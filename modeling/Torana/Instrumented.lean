import Torana.Pool

/-!
Programs with marks. A mark is an action of its own that always succeeds, answers
nothing and touches only a record that no other action reads; counters of a metrics
endpoint are of this kind. Erasing the marks of a program gives the program that it
observes, and a pool of marked programs goes through the same worlds as the pool of
the erased ones (`reaches_erase`, `reaches_lift`): what holds of every run of the
programs holds of every run of their marked versions.
-/
namespace Torana
namespace Instrumented
open Prog (Runs)
open Pool (World Reaches own)

variable {ι Act Mark σ μ Outside Extra : Type} {Res : Act → Type} {α β : Type}

/-- A mark answers nothing. -/
@[reducible] def Both (Res : Act → Type) (Mark : Type) : Act ⊕ Mark → Type
  | .inl a => Res a
  | .inr _ => Unit

/-! ## Erasing marks -/

/-- A program behind some marks. -/
def marks : List Mark → Prog (Act ⊕ Mark) (Both Res Mark) α → Prog (Act ⊕ Mark) (Both Res Mark) α
  | [], p => p
  | m :: rest, p => .act (.inr m) fun _ => marks rest p

/-- A program that makes marks behind its actions, by what is answered to them. -/
def annotate (behind : (a : Act) → Res a → List Mark) : Prog Act Res α → Prog (Act ⊕ Mark) (Both Res Mark) α
  | .ret value => .ret value
  | .act a next => .act (.inl a) fun r => marks (behind a r) (annotate behind (next r))

/-- A program without marks, among those that have some. -/
def lift (p : Prog Act Res α) : Prog (Act ⊕ Mark) (Both Res Mark) α := annotate (fun _ _ => []) p

def erase : Prog (Act ⊕ Mark) (Both Res Mark) α → Prog Act Res α
  | .ret value => .ret value
  | .act (.inl a) next => .act a fun r => erase (next r)
  | .act (.inr _) next => erase (next ())

def plainEvent : Event (Both Res Mark) → Option (Event Res)
  | ⟨.inl a, r⟩ => some ⟨a, r⟩
  | ⟨.inr _, _⟩ => none

def markOf : Event (Both Res Mark) → Option Mark
  | ⟨.inl _, _⟩ => none
  | ⟨.inr m, _⟩ => some m

@[simp] theorem erase_ret (value : α) : erase (.ret value : Prog (Act ⊕ Mark) (Both Res Mark) α) = .ret value := rfl
@[simp] theorem erase_act (a : Act) (next : Res a → Prog (Act ⊕ Mark) (Both Res Mark) α) :
    erase (.act (.inl a) next) = .act a fun r => erase (next r) := rfl
@[simp] theorem erase_mark_act (m : Mark) (next : Unit → Prog (Act ⊕ Mark) (Both Res Mark) α) :
    erase (.act (.inr m) next) = erase (next ()) := rfl

@[simp] theorem erase_marks (ms : List Mark) (p : Prog (Act ⊕ Mark) (Both Res Mark) α) : erase (marks ms p) = erase p := by
  induction ms with
  | nil => rfl
  | cons m rest ih => simpa [marks] using ih

/-- Without its marks a program does what it does. -/
@[simp] theorem erase_annotate (behind : (a : Act) → Res a → List Mark) (p : Prog Act Res α) :
    erase (annotate behind p) = p := by
  induction p with
  | ret value => rfl
  | act a next ih => simp [annotate, ih]

theorem erase_lift (p : Prog Act Res α) : erase (lift p : Prog (Act ⊕ Mark) (Both Res Mark) α) = p := by
  simp [lift]

theorem runs_marks {ms : List Mark} {p : Prog (Act ⊕ Mark) (Both Res Mark) α} {trace : List (Event (Both Res Mark))}
    {value : α} (run : Runs (marks ms p) trace (.ret value)) :
    ∃ rest, trace = ms.map (fun m => ⟨.inr m, ()⟩) ++ rest ∧ Runs p rest (.ret value) := by
  induction ms generalizing trace with
  | nil => exact ⟨trace, rfl, run⟩
  | cons m ms ih =>
    rcases Prog.runs_act run with ⟨-, ends⟩ | ⟨r, rest, rfl, later⟩
    · cases ends
    · obtain ⟨rest, rfl, behind⟩ := ih later
      exact ⟨rest, rfl, behind⟩

theorem filterMap_marks {Res : Act → Type} (ms : List Mark) :
    (ms.map fun m => (⟨.inr m, ()⟩ : Event (Both Res Mark))).filterMap plainEvent = [] ∧
      (ms.map fun m => (⟨.inr m, ()⟩ : Event (Both Res Mark))).filterMap markOf = ms := by
  induction ms with
  | nil => exact ⟨rfl, rfl⟩
  | cons m rest ih => exact ⟨ih.1, congrArg (m :: ·) ih.2⟩

/-- When an annotated program ends, its own events are a run of the program and its marks
    are those behind them. -/
theorem runs_annotate {behind : (a : Act) → Res a → List Mark} {p : Prog Act Res α}
    {trace : List (Event (Both Res Mark))} {value : α} (run : Runs (annotate behind p) trace (.ret value)) :
    Runs p (trace.filterMap plainEvent) (.ret value) ∧
      trace.filterMap markOf = (trace.filterMap plainEvent).flatMap fun e => behind e.act e.answer := by
  induction p generalizing trace with
  | ret v =>
    obtain ⟨rfl, same⟩ := Prog.runs_ret.mp run
    cases same
    exact ⟨.nil _, rfl⟩
  | act a next ih =>
    rcases Prog.runs_act run with ⟨-, ends⟩ | ⟨r, rest, rfl, later⟩
    · cases ends
    · obtain ⟨rest, rfl, continued⟩ := runs_marks later
      obtain ⟨own, marked⟩ := ih r continued
      obtain ⟨foreign, all⟩ := filterMap_marks (behind a r)
      have first : plainEvent (⟨.inl a, r⟩ : Event (Both Res Mark)) = some ⟨a, r⟩ := rfl
      have unmarked : markOf (⟨.inl a, r⟩ : Event (Both Res Mark)) = none := rfl
      rw [List.filterMap_cons_some first, List.filterMap_cons_none unmarked, List.filterMap_append,
        List.filterMap_append, foreign, all, List.nil_append, List.flatMap_cons, marked]
      exact ⟨Prog.runs_cons.mpr own, rfl⟩

/-- A program without marks performs its own actions and no others. -/
theorem runs_lift {allowed : Act → Prop} {p : Prog Act Res α} (only : Prog.Only allowed p)
    {trace : List (Event (Both Res Mark))} {q : Prog (Act ⊕ Mark) (Both Res Mark) α} (run : Runs (lift p) trace q) :
    ∀ e ∈ trace, ∃ a r, e = ⟨.inl a, r⟩ ∧ allowed a := by
  induction p generalizing trace with
  | ret value =>
    obtain ⟨rfl, -⟩ := Prog.runs_ret.mp run
    exact fun e member => nomatch member
  | act a next ih =>
    rcases Prog.runs_act run with ⟨rfl, -⟩ | ⟨r, rest, rfl, later⟩
    · exact fun e member => nomatch member
    · intro e member
      rcases List.mem_cons.mp member with rfl | behind
      · exact ⟨a, r, rfl, only.1⟩
      · exact ih r (only.2 r) later e behind

/-! ## Counts of a log -/

theorem countP_plain (check : Event Res → Bool) (trace : List (Event (Both Res Mark))) :
    trace.countP (fun e => (plainEvent e).any check) = (trace.filterMap plainEvent).countP check := by
  induction trace with
  | nil => rfl
  | cons e rest ih =>
    rw [List.countP_cons, List.filterMap_cons, ih]
    cases plainEvent e with
    | none => rfl
    | some e' => rw [List.countP_cons]; rfl

theorem own_other [DecidableEq ι] {t t' : ι} (log : List (ι × Event Res)) (other : t' ≠ t) :
    own t' (log.filter fun e => e.1 ≠ t) = own t' log := by
  unfold own
  rw [List.filterMap_filter]
  refine List.filterMap_congr fun e _ => ?_
  by_cases mine : e.1 = t
  · simp [mine, Ne.symm other]
  · simp [mine]

theorem own_filtered [DecidableEq ι] (t : ι) (log : List (ι × Event Res)) :
    own t (log.filter fun e => e.1 ≠ t) = [] := by
  unfold own
  rw [List.filterMap_eq_nil_iff]
  intro e member
  simpa using (List.mem_filter.mp member).2

theorem countP_split [DecidableEq ι] (t : ι) (check : Event Res → Bool) (log : List (ι × Event Res)) :
    log.countP (fun e => check e.2) =
      (own t log).countP check + (log.filter fun e => e.1 ≠ t).countP fun e => check e.2 := by
  induction log with
  | nil => rfl
  | cons e rest ih =>
    have first : own t (e :: rest) = own t [e] ++ own t rest := Pool.own_append t [e] rest
    rw [List.countP_cons, ih, first, List.countP_append]
    by_cases mine : e.1 = t
    · have one : own t [e] = [e.2] := by
        obtain ⟨t', e⟩ := e
        cases mine
        exact Pool.own_single_self _ e
      simp only [one, List.countP_cons, List.countP_nil, mine, List.filter_cons, ne_eq, not_true_eq_false,
        decide_false, Bool.false_eq_true, if_false]
      omega
    · have quiet : own t [e] = [] := Pool.own_single_other e.2 mine
      simp only [quiet, List.countP_nil, mine, List.filter_cons, ne_eq, not_false_eq_true, decide_true, if_true,
        List.countP_cons]
      omega

/-- What every thread has at most as often as something else the log has at most as often. -/
theorem countP_own_le [DecidableEq ι] {check check' : Event Res → Bool} {log : List (ι × Event Res)}
    (each : ∀ t, (own t log).countP check ≤ (own t log).countP check') :
    log.countP (fun e => check e.2) ≤ log.countP fun e => check' e.2 := by
  generalize size : log.length = n
  induction n using Nat.strongRecOn generalizing log with
  | _ n ih =>
    cases log with
    | nil => exact Nat.le_refl _
    | cons e rest =>
      have fewer : ((e :: rest).filter fun e' => e'.1 ≠ e.1).length < n := by
        rw [List.filter_cons, if_neg (by simp), ← size, List.length_cons]
        exact Nat.lt_succ_of_le (List.length_filter_le _ _)
      rw [countP_split e.1, countP_split e.1 check']
      refine Nat.add_le_add (each e.1) (ih _ fewer (fun t => ?_) rfl)
      by_cases same : t = e.1
      · rw [same, own_filtered]
        exact Nat.le_refl _
      · rw [own_other _ same]
        exact each t

/-- What every thread has as often as something else the log has as often. -/
theorem countP_own [DecidableEq ι] {check check' : Event Res → Bool} {log : List (ι × Event Res)}
    (each : ∀ t, (own t log).countP check = (own t log).countP check') :
    log.countP (fun e => check e.2) = log.countP fun e => check' e.2 :=
  Nat.le_antisymm (countP_own_le fun t => Nat.le_of_eq (each t)) (countP_own_le fun t => Nat.le_of_eq (each t).symm)

/-! ## Marked pools -/

/-- Marks are recorded beside the shared state. -/
def performBoth (perform : Outside → ι → (a : Act) → σ → Option (Res a × σ)) (record : Extra → Mark → μ → μ) :
    Outside × Extra → ι → (a : Act ⊕ Mark) → σ × μ → Option (Both Res Mark a × (σ × μ))
  | (o, _), t, .inl a, (s, m) => (perform o t a s).map fun done => (done.1, done.2, m)
  | (_, x), _, .inr k, (s, m) => some ((), s, record x k m)

def eraseEntry (e : ι × Event (Both Res Mark)) : Option (ι × Event Res) := (plainEvent e.2).map fun e' => (e.1, e')

/-- The world without its marks and their record. -/
def eraseWorld (w : World ι (Both Res Mark) (σ × μ)) : World ι Res σ :=
  ⟨w.state.1, fun t => erase (w.threads t), w.log.filterMap eraseEntry⟩

section
variable [DecidableEq ι] {perform : Outside → ι → (a : Act) → σ → Option (Res a × σ)} {record : Extra → Mark → μ → μ}

theorem erase_update (threads : ι → Prog (Act ⊕ Mark) (Both Res Mark) Unit) (t : ι)
    (p : Prog (Act ⊕ Mark) (Both Res Mark) Unit) :
    (fun t' => erase (Function.update threads t p t')) = Function.update (fun t' => erase (threads t')) t (erase p) := by
  funext t'
  by_cases same : t' = t
  · subst same
    simp
  · simp [same]

/-- A mark is not seen. -/
theorem eraseWorld_mark {w : World ι (Both Res Mark) (σ × μ)} {t : ι} {k : Mark} {m : μ}
    {next : Unit → Prog (Act ⊕ Mark) (Both Res Mark) Unit} (head : w.threads t = .act (.inr k) next) :
    eraseWorld ⟨(w.state.1, m), Function.update w.threads t (next ()), w.log ++ [(t, ⟨.inr k, ()⟩)]⟩ =
      eraseWorld w := by
  have threads : (fun t' => erase (Function.update w.threads t (next ()) t')) = fun t' => erase (w.threads t') := by
    rw [erase_update]
    refine Function.update_eq_self_iff.mpr ?_
    rw [head, erase_mark_act]
  simp only [eraseWorld, threads, List.filterMap_append]
  simp [eraseEntry, plainEvent]

theorem eraseWorld_act {w : World ι (Both Res Mark) (σ × μ)} {t : ι} {a : Act} {r : Res a} {s : σ} {m : μ}
    {next : Res a → Prog (Act ⊕ Mark) (Both Res Mark) Unit} :
    eraseWorld ⟨(s, m), Function.update w.threads t (next r), w.log ++ [(t, ⟨.inl a, r⟩)]⟩ =
      ⟨s, Function.update (eraseWorld w).threads t (erase (next r)), (eraseWorld w).log ++ [(t, ⟨a, r⟩)]⟩ := by
  simp only [eraseWorld, erase_update, List.filterMap_append]
  simp [eraseEntry, plainEvent]

/-- A run of the marked programs is one of the programs. -/
theorem reaches_erase {meets : World ι (Both Res Mark) (σ × μ) → ι → Prop} {w w' : World ι (Both Res Mark) (σ × μ)}
    (reaches : Reaches (performBoth perform record) meets w w') :
    Reaches perform (fun _ _ => True) (eraseWorld w) (eraseWorld w') := by
  induction reaches with
  | refl => exact .refl
  | @step w₁ w₂ t o _ _ taken ih =>
    obtain ⟨a, next, r, s, head, done, rfl⟩ := Pool.step_cases taken
    obtain ⟨o, x⟩ := o
    obtain ⟨⟨s₁, m₁⟩, threads, log⟩ := w₁
    cases a with
    | inl a =>
      obtain ⟨⟨r', s'⟩, plainly, same⟩ := Option.map_eq_some_iff.mp done
      cases same
      refine .step t o ih trivial ?_
      rw [eraseWorld_act]
      have here : (eraseWorld ⟨(s₁, m₁), threads, log⟩).threads t = .act a fun r => erase (next r) := by
        show erase (threads t) = _
        have head : threads t = .act (.inl a) next := head
        rw [head]
        rfl
      exact Pool.step_of_perform here plainly
    | inr k =>
      cases done
      rw [eraseWorld_mark head]
      exact ih

/-- The marks at the head of a program are made one after the other. -/
theorem reaches_marks {w : World ι (Both Res Mark) (σ × μ)} {t : ι} {a : Act} {f : Res a → Prog Act Res Unit}
    (o : Outside × Extra) (head : erase (w.threads t) = .act a f) :
    ∃ w' next, Reaches (performBoth perform record) (fun _ _ => True) w w' ∧ eraseWorld w' = eraseWorld w ∧
      w'.threads t = .act (.inl a) next ∧ (fun r => erase (next r)) = f := by
  generalize at_t : w.threads t = p at head
  induction p generalizing w with
  | ret value => cases head
  | act b next ih =>
    cases b with
    | inl b =>
      cases head
      exact ⟨w, next, .refl, rfl, at_t, rfl⟩
    | inr k =>
      obtain ⟨o, x⟩ := o
      obtain ⟨⟨s, m⟩, threads, log⟩ := w
      have taken : Pool.step (performBoth perform record) (o, x) t ⟨(s, m), threads, log⟩ = some
          ⟨(s, record x k m), Function.update threads t (next ()), log ++ [(t, ⟨.inr k, ()⟩)]⟩ :=
        Pool.step_of_perform at_t rfl
      obtain ⟨w', next', reaches, same, there, erased⟩ := ih ()
        (w := ⟨(s, record x k m), Function.update threads t (next ()), log ++ [(t, ⟨.inr k, ()⟩)]⟩)
        (Function.update_self ..) head
      refine ⟨w', next', Pool.reaches_trans (.step t (o, x) .refl trivial taken) reaches, ?_, there, erased⟩
      rw [same]
      exact eraseWorld_mark (w := ⟨(s, m), threads, log⟩) at_t

/-- Every run of the programs is one of the marked programs. -/
theorem reaches_lift [Nonempty Extra] {w : World ι (Both Res Mark) (σ × μ)} {v : World ι Res σ}
    (reaches : Reaches perform (fun _ _ => True) (eraseWorld w) v) :
    ∃ w', Reaches (performBoth perform record) (fun _ _ => True) w w' ∧ eraseWorld w' = v := by
  obtain ⟨x⟩ := ‹Nonempty Extra›
  induction reaches with
  | refl => exact ⟨w, .refl, rfl⟩
  | @step v₁ v₂ t o _ _ taken ih =>
    obtain ⟨w₁, reaches₁, rfl⟩ := ih
    obtain ⟨a, f, r, s, head, done, rfl⟩ := Pool.step_cases taken
    obtain ⟨w₂, next, marked, same, there, rfl⟩ : ∃ w₂ next, Reaches (performBoth perform record) _ w₁ w₂ ∧ _ :=
      reaches_marks (o, x) head
    rw [← same] at done ⊢
    obtain ⟨⟨s₂, m₂⟩, threads₂, log₂⟩ := w₂
    have taken₂ : Pool.step (performBoth perform record) (o, x) t ⟨(s₂, m₂), threads₂, log₂⟩ = some
        ⟨(s, m₂), Function.update threads₂ t (next r), log₂ ++ [(t, ⟨.inl a, r⟩)]⟩ := by
      refine Pool.step_of_perform there ?_
      have done : perform o t a s₂ = some (r, s) := done
      simp [performBoth, done]
    exact ⟨_, .step t (o, x) (Pool.reaches_trans reaches₁ marked) trivial taken₂,
      eraseWorld_act (w := ⟨(s₂, m₂), threads₂, log₂⟩)⟩

end

end Instrumented
end Torana
