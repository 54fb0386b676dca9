import Torana.Contacts

/-!
How often probers probe. A prober waits for the interval of its check between one probe
and the next, whatever the other tasks do and however often a reload aborts and starts
probers; so within less than an interval it asks its upstream once at most.
-/
namespace Torana
open Config (Duration)
open Health (probeSpecs)
open Prog (Keeps keeps_bind keeps_call_bind keeps_mono keeps_stable keeps_of_only)

namespace Pacing
open Contacts Rounds

/-! ## Clocks -/

/-- An event of a log and the time, in milliseconds, at which it was over. -/
structure Stamped where
  time : Nat
  task : Tid
  event : Event Act.Res

def Stamped.entry (x : Stamped) : Tid × Event Act.Res := (x.task, x.event)

/-- What a task sleeps before the event is over. -/
def sleepOf : Act → Option Duration
  | .sleep interval => some interval
  | _ => none

/-- Time does not run backwards, and a sleep is over when its interval has passed since all
    that its task did before. -/
def Later (x y : Stamped) : Prop :=
  x.time ≤ y.time ∧ ∀ interval ∈ sleepOf y.event.act, x.task = y.task → x.time + interval ≤ y.time

instance (x y : Stamped) : Decidable (Later x y) := inferInstanceAs (Decidable (_ ∧ _))

/-- A log with times that a clock can have shown. -/
def Clock (stamped : List Stamped) : Prop := stamped.Pairwise Later

instance (stamped : List Stamped) : Decidable (Clock stamped) := inferInstanceAs (Decidable (stamped.Pairwise Later))

def isProbe : Act → Bool
  | .exchange _ _ _ _ => true
  | _ => false

/-! ## What a prober has done before it probes -/

/-- Behind each probe of the history there is a sleep. -/
def Rested (interval : Duration) (past : History) : Prop :=
  ∀ before e after, past = before ++ e :: after → isProbe e.act = true → ⟨.sleep interval, ()⟩ ∈ after

theorem rested_nil {interval : Duration} : Rested interval [] :=
  fun _ _ _ split => absurd split (by simp)

theorem rested_slept {interval : Duration} (past : History) : Rested interval (past ++ [⟨.sleep interval, ()⟩]) := by
  intro before e after split probe
  rcases List.eq_nil_or_concat after with rfl | ⟨rest, last, rfl⟩
  · obtain ⟨-, same⟩ := List.append_inj' split rfl
    cases same
    cases probe
  · rw [List.concat_eq_append, ← List.cons_append, ← List.append_assoc] at split
    obtain ⟨-, same⟩ := List.append_inj' split rfl
    cases same
    simp

theorem rested_quiet {interval : Duration} {past : History} {a : Act} (r : a.Res) (quiet : isProbe a = false)
    (rested : Rested interval past) : Rested interval (past ++ [⟨a, r⟩]) := by
  intro before e after split probe
  rcases List.eq_nil_or_concat after with rfl | ⟨rest, last, rfl⟩
  · obtain ⟨-, same⟩ := List.append_inj' split rfl
    cases same
    exact absurd probe (by simp [quiet])
  · rw [List.concat_eq_append, ← List.cons_append, ← List.append_assoc] at split
    obtain ⟨same, -⟩ := List.append_inj' split rfl
    rw [List.concat_eq_append]
    exact List.mem_append_left _ (rested before e rest same probe)

/-- The prober was given these targets, and has probed no others. -/
structure Told (spec : ProbeSpec) (past : History) : Prop where
  started : ⟨.startProber, spec⟩ ∈ past
  probes : ∀ e ∈ past, Probe spec.addr spec.path spec.timeout e.act

theorem told_append {spec : ProbeSpec} {past : History} {a : Act} (r : a.Res)
    (probe : Probe spec.addr spec.path spec.timeout a) (told : Told spec past) : Told spec (past ++ [⟨a, r⟩]) := by
  refine ⟨List.mem_append_left _ told.started, fun e member => ?_⟩
  rcases List.mem_append.mp member with earlier | last
  · exact told.probes e earlier
  · cases List.mem_singleton.mp last
    exact probe

theorem probe_quiet {addr path : String} {timeout : Duration} {a : Act} (quiet : isProbe a = false) :
    Probe addr path timeout a := by
  cases a <;> trivial

/-- A prober probes as it was told, and has slept since its last probe. -/
def Ready (past : History) (a : Act) : Prop :=
  isProbe a = true → ∃ spec, Told spec past ∧ Probe spec.addr spec.path spec.timeout a ∧ Rested spec.interval past

theorem ready_quiet {past : History} {a : Act} (quiet : isProbe a = false) : Ready past a :=
  fun probe => absurd probe (by simp [quiet])

/-- One probe is allowed where the prober has rested. -/
theorem probeOnce_ready {spec : ProbeSpec} {past : History} (told : Told spec past)
    (rested : Rested spec.interval past) :
    Keeps Ready (fun past _ => Told spec past) past (Health.probeOnce spec.addr spec.path spec.timeout) := by
  unfold Health.probeOnce
  split
  · exact told
  · rename_i host port cut
    refine keeps_call_bind.mpr ⟨fun _ => ⟨spec, told, ⟨rfl, cut, rfl⟩, rested⟩, fun reply => ?_⟩
    cases reply <;> exact told_append _ ⟨rfl, cut, rfl⟩ told

theorem proberRounds_ready (spec : ProbeSpec) (rounds : Nat) {past : History} (told : Told spec past)
    (rested : Rested spec.interval past) :
    Keeps Ready (fun _ _ => True) past (Health.proberRounds spec rounds) := by
  induction rounds generalizing past with
  | zero => trivial
  | succ rounds ih =>
    refine keeps_bind.mpr (keeps_mono (fun _ _ may => may) ?_ (probeOnce_ready told rested))
    intro past healthy told
    have records : Keeps (fun _ a => isProbe a = false) (fun _ _ => True) past (Health.set spec.addr healthy) :=
      keeps_of_only (Health.set_only rfl rfl (fun _ => rfl) rfl)
    refine keeps_bind.mpr (keeps_mono (fun _ _ may => may) ?_
      (keeps_stable (Told spec) (fun _ _ r told quiet => told_append r (probe_quiet quiet) told)
        (fun _ _ _ quiet => ready_quiet quiet) records told))
    rintro past _ ⟨told, -⟩
    exact keeps_call_bind.mpr ⟨ready_quiet rfl, fun _ => ih (told_append _ trivial told) (rested_slept past)⟩

theorem prober_ready (rounds : Nat) : Keeps Ready (fun _ _ => True) [] (Health.prober rounds) := by
  refine keeps_call_bind.mpr ⟨ready_quiet rfl, fun spec => ?_⟩
  have told : Told spec [⟨.startProber, spec⟩] := ⟨List.mem_singleton_self _, by simp [Probe]⟩
  exact proberRounds_ready spec rounds told (rested_quiet spec rfl rested_nil)

/-! ## Every run -/

/-- The two probes of one prober do the same, and the interval lies between them. -/
def Spaced (sys : System) (first : Config) (log : List (Tid × Event Act.Res)) (x y : Stamped) : Prop :=
  ∀ n, x.task = .prober n → y.task = .prober n → isProbe x.event.act = true → isProbe y.event.act = true →
    ∃ config, Accepted sys first log config ∧ ∃ spec ∈ probeSpecs config,
      Probe spec.addr spec.path spec.timeout x.event.act ∧ Probe spec.addr spec.path spec.timeout y.event.act ∧
      x.time + spec.interval ≤ y.time

theorem pairwise_of_splits {α : Type} {R : α → α → Prop} {xs : List α}
    (related : ∀ before x between y after, xs = before ++ x :: (between ++ y :: after) → R x y) : xs.Pairwise R := by
  induction xs with
  | nil => exact List.Pairwise.nil
  | cons x rest ih =>
    refine List.Pairwise.cons (fun y member => ?_) (ih fun before a between b after split => ?_)
    · obtain ⟨between, after, rfl⟩ := List.append_of_mem member
      exact related [] x between y after rfl
    · exact related (x :: before) a between b after (by rw [split, List.cons_append])

section
variable {sys : System} {meets : System.World → Tid → Prop} {s : Store} {w : System.World}

/-- A prober that probes has slept since each of its probes before. -/
theorem slept_between (reaches : sys.Reaches meets s w) {n : Nat} {before between after : List (Tid × Event Act.Res)}
    {e e' : Event Act.Res} (logged : w.log = before ++ (.prober n, e) :: (between ++ (.prober n, e') :: after))
    (probe : isProbe e.act = true) (again : isProbe e'.act = true) :
    ∃ spec, (.prober n, ⟨.startProber, spec⟩) ∈ w.log ∧ Probe spec.addr spec.path spec.timeout e.act ∧
      Probe spec.addr spec.path spec.timeout e'.act ∧ (.prober n, ⟨.sleep spec.interval, ()⟩) ∈ between := by
  have split : w.log = (before ++ (.prober n, e) :: between) ++ (.prober n, e') :: after := by rw [logged]; simp
  obtain ⟨o, w₁, next, s', earlier, log, -, head, done⟩ := Pool.reaches_event reaches split
  have log : w₁.log = before ++ (.prober n, e) :: between := log
  have contract := System.own_keeps (t := .prober n) (prober_ready (sys.rounds n)) earlier
  rw [head] at contract
  obtain ⟨spec, told, probes, rested⟩ := contract.1 again
  have own : Pool.own (.prober n) w₁.log = Pool.own (.prober n) before ++ e :: Pool.own (.prober n) between := by
    rw [log, List.append_cons, Pool.own_append, Pool.own_append, Pool.own_single_self, List.append_assoc]
    rfl
  refine ⟨spec, ?_, told.probes e (by rw [own]; simp), probes, Pool.mem_own.mp (rested _ e _ own probe)⟩
  rw [split, ← log]
  exact List.mem_append_left _ (Pool.mem_own.mp told.started)

end

/-- In every run that the start of an accepted config leads to, whenever its events took place:
    the probes of one prober are all alike, as an accepted config has them, and at least the
    interval of the check apart. -/
theorem probes_paced (sys : System) (o : Outside) (first : Config) (s : Store) (w : System.World)
    (valid : first.validate sys.build sys.crates.parseUri = .ok ())
    (started : Pool.alone (perform sys.crates) o .main (Reload.start sys.build sys.crates first) Store.initial =
      some ((), s)) (reaches : sys.Reaches (fun _ _ => True) s w) (stamped : List Stamped) (clock : Clock stamped)
    (logged : stamped.map Stamped.entry = w.log) : stamped.Pairwise (Spaced sys first w.log) := by
  obtain ⟨plugins, ends, -⟩ := alone_start sys.build sys.crates (o := o) first
  cases started.symm.trans ends
  have start : Known sys first [] (Rounds.started sys.build first plugins) := started_known valid
  refine pairwise_of_splits fun before x between y after split n mine same probe again => ?_
  have log : w.log = before.map Stamped.entry ++ (.prober n, x.event) :: (between.map Stamped.entry ++
      (.prober n, y.event) :: after.map Stamped.entry) := by
    rw [← logged, split]
    simp [Stamped.entry, mine, same]
  obtain ⟨spec, told, earlier, probes, slept⟩ := slept_between reaches log probe again
  obtain ⟨config, accepted, named⟩ := spec_read start reaches told
  refine ⟨config, accepted, spec, named, earlier, probes, ?_⟩
  obtain ⟨z, inside, entry⟩ := List.mem_map.mp slept
  obtain ⟨task, event⟩ := Prod.mk.inj entry
  rw [split] at clock
  obtain ⟨-, clock, -⟩ := List.pairwise_append.mp clock
  obtain ⟨behind, clock⟩ := List.pairwise_cons.mp clock
  obtain ⟨-, -, across⟩ := List.pairwise_append.mp clock
  have rests : x.time + spec.interval ≤ z.time := by
    refine (behind z (List.mem_append_left _ inside)).2 spec.interval ?_ (mine.trans task.symm)
    rw [event]
    rfl
  exact rests.trans (across z inside y List.mem_cons_self).1

/-! ## Two probes -/

/-- One prober that probes twice. -/
def probing : System := { Verdicts.unchecking with rounds := fun _ => 2 }

/-- The times of its first events: the first probe takes 30 ms, then it sleeps. -/
def times : List Nat := [0, 30, 30, 30, 30, 10030, 10060]

def stampedWith (times : List Nat) (log : List (Tid × Event Act.Res)) : List Stamped :=
  (times.zip log).map fun x => ⟨x.1, x.2.1, x.2.2⟩

theorem probes_paced_twice :
    ∃ w stamped, probing.Reaches (fun _ _ => True) Verdicts.checkedStore w ∧ Clock stamped ∧
      stamped.map Stamped.entry = w.log ∧ (stamped.countP fun x => isProbe x.event.act) = 2 ∧
      stamped.Pairwise (Spaced probing ReloadRuns.checkedConfig w.log) := by
  obtain ⟨w, reaches, ended⟩ := System.reaches_of_run probing (fun _ _ => true)
    (List.replicate 7 (.prober 0, { Samples.outside with reply := some (Text.asBytes "HTTP/1.1 200 OK".toList) }))
    Verdicts.checkedStore (fun w => w.log.length = 7 && (Clock (stampedWith times w.log) &&
      ((stampedWith times w.log).countP fun x => isProbe x.event.act) = 2)) (by decide +kernel)
  simp only [Bool.and_eq_true, decide_eq_true_eq] at ended
  obtain ⟨size, clock, twice⟩ := ended
  have logged : (stampedWith times w.log).map Stamped.entry = w.log := by
    rw [stampedWith, List.map_map]
    exact List.map_snd_zip (by rw [size]; decide)
  have reaches := Pool.reaches_mono (fun _ _ _ => trivial) reaches
  exact ⟨w, _, reaches, clock, logged, twice, probes_paced probing Samples.outside ReloadRuns.checkedConfig
    Verdicts.checkedStore w (by decide +kernel) Verdicts.start_checked reaches _ clock logged⟩

end Pacing
end Torana
