import Mathlib.Algebra.GroupWithZero.Nat
import Mathlib.Algebra.Order.BigOperators.Group.List
import Mathlib.Algebra.Order.Group.Nat
import Torana.Attempts
import Torana.Guarding

/-!
The read guard of the config. A request holds it from the read of the config to
the drop, and in between it reads at most its plugin: it never waits for an
upstream, a plugin or the clock while a reload waits for it. So nothing is ever
stuck: whoever comes to read the config behind a waiting reload waits for that
reload, and its write comes after at most two actions of each request that held a
guard when the reload came to it.
-/
namespace Torana
open Http
open Config (Build RouteConfig)
open Prog (Keeps keeps_bind keeps_call_bind keeps_mono)
open Pool (Reaches own)

namespace Holding
open Server Handling

/-! ## The guard in a history -/

def isConfigRead : Act → Bool
  | .readConfig => true
  | _ => false

def isPluginRead : Act → Bool
  | .getPlugin _ => true
  | _ => false

/-- A request has read the config, perhaps its plugin, and nothing else. -/
def holding : History → Bool
  | [first] => isConfigRead first.act
  | [first, second] => isConfigRead first.act && isPluginRead second.act
  | _ => false

theorem isConfigRead_iff {e : Event Act.Res} : isConfigRead e.act = true ↔ ∃ config, e = ⟨.readConfig, config⟩ := by
  obtain ⟨a, r⟩ := e
  cases a <;> simp [isConfigRead]

theorem isPluginRead_iff {e : Event Act.Res} :
    isPluginRead e.act = true ↔ ∃ path plugin, e = ⟨.getPlugin path, plugin⟩ := by
  obtain ⟨a, r⟩ := e
  cases a <;> simp [isPluginRead]

theorem holding_iff {past : History} : holding past = true ↔ (∃ config, past = [⟨.readConfig, config⟩]) ∨
    ∃ config path plugin, past = [⟨.readConfig, config⟩, ⟨.getPlugin path, plugin⟩] := by
  constructor
  · intro held
    rcases past with _ | ⟨first, _ | ⟨second, _ | ⟨third, rest⟩⟩⟩
    · cases held
    · obtain ⟨config, rfl⟩ := isConfigRead_iff.mp held
      exact .inl ⟨config, rfl⟩
    · obtain ⟨read, filter⟩ := Bool.and_eq_true_iff.mp held
      obtain ⟨config, rfl⟩ := isConfigRead_iff.mp read
      obtain ⟨path, plugin, rfl⟩ := isPluginRead_iff.mp filter
      exact .inr ⟨config, path, plugin, rfl⟩
    · cases held
  · rintro (⟨config, rfl⟩ | ⟨config, path, plugin, rfl⟩) <;> rfl

/-- The actions of a request that do not concern its guard; none is a failed expectation. -/
def unguarded : Act → Bool
  | .evaluate _ _ _ | .subsecNanos | .spawnMirror _ _ _ | .mirrorFailed _ _ | .getBalancer _ | .fetchAdd _ _
  | .isHealthy _ | .sendRequest _ _ _ | .failUnsent _ _ | .respond _ => true
  | _ => false

/-- What a request may perform, by the guard it holds. -/
def May (past : History) : Act → Prop
  | .readConfig => past = []
  | .getPlugin _ => ∃ config, past = [⟨.readConfig, config⟩]
  | .dropConfig => holding past = true
  | a => unguarded a = true ∧ past ≠ [] ∧ holding past = false

theorem may_unguarded {past : History} {a : Act} (free : unguarded a = true) (begun : past ≠ [])
    (dropped : holding past = false) : May past a := by
  cases a <;> first | exact ⟨free, begun, dropped⟩ | cases free

/-- Once the guard is dropped no more events make it held. -/
theorem holding_append {past : History} (e : Event Act.Res) (begun : past ≠ []) (dropped : holding past = false) :
    holding (past ++ [e]) = false := by
  by_contra held
  rcases holding_iff.mp (by simpa using held) with ⟨config, one⟩ | ⟨config, path, plugin, two⟩
  · rcases List.append_eq_singleton_iff.mp one with ⟨empty, _⟩ | ⟨_, empty⟩
    · exact begun empty
    · cases empty
  · have split : past ++ [e] = [⟨.readConfig, config⟩] ++ [⟨.getPlugin path, plugin⟩] := two
    obtain ⟨first, _⟩ := List.append_inj' split rfl
    rw [first] at dropped
    cases dropped

theorem holding_drop {past : History} (held : holding past = true) :
    past ++ [⟨.dropConfig, ()⟩] ≠ [] ∧ holding (past ++ [⟨.dropConfig, ()⟩]) = false := by
  refine ⟨by simp, ?_⟩
  rcases holding_iff.mp held with ⟨config, rfl⟩ | ⟨config, path, plugin, rfl⟩ <;> rfl

section
variable {build : Build} {crates : Crates} {conn : Conn} {route : RouteConfig} {req : Request Incoming}

theorem forward_unguarded (past : History) :
    Keeps (fun _ a => unguarded a = true) (fun _ _ => True) past (forward build crates conn route req) := by
  refine keeps_mono (fun _ a free => ?_) (fun _ _ _ => trivial) (Attempts.forward_forwards past)
  cases a <;> first | rfl | cases free

/-- What never concerns the guard may follow once it is dropped. -/
theorem keeps_dropped {α : Type} {p : Program α} {past : History}
    (free : Keeps (fun _ a => unguarded a = true) (fun _ _ => True) past p) (begun : past ≠ [])
    (dropped : holding past = false) :
    Keeps May (fun past _ => past ≠ [] ∧ holding past = false) past p :=
  keeps_mono (fun _ _ may => may) (fun _ _ kept => kept.1)
    (Prog.keeps_invariant (fun past => past ≠ [] ∧ holding past = false)
      (fun _ _ _ state _ => ⟨by simp, holding_append _ state.1 state.2⟩)
      (fun _ _ state free => may_unguarded free state.1 state.2) free ⟨begun, dropped⟩)

theorem serveRoute_holds (config : Config) :
    Keeps May (fun past _ => past ≠ [] ∧ holding past = false) [⟨.readConfig, config⟩]
      (serveRoute build crates conn route req) := by
  have filter : Keeps May (fun past _ => holding past = true) [⟨.readConfig, config⟩] (readPlugin build route) := by
    unfold readPlugin
    split
    · split
      · exact ⟨⟨config, rfl⟩, fun _ => rfl⟩
      · rfl
    · rfl
  refine keeps_bind.mpr (keeps_mono (fun _ _ may => may) ?_ filter)
  intro past plugin held
  refine keeps_call_bind.mpr ⟨held, fun _ => ?_⟩
  obtain ⟨begun, dropped⟩ := holding_drop held
  cases plugin with
  | none => exact keeps_dropped (forward_unguarded _) begun dropped
  | some plugin =>
    refine keeps_call_bind.mpr ⟨may_unguarded rfl begun dropped, fun verdict => ?_⟩
    have dropped := holding_append
      ⟨.evaluate plugin req.parts.method.asStr req.parts.uri.path, verdict⟩ begun dropped
    cases verdict with
    | allow => exact keeps_dropped (forward_unguarded _) (by simp) dropped
    | deny status => exact ⟨by simp, dropped⟩

/-- A request that has ended holds no guard. -/
theorem serve_holds : Keeps May (fun past _ => holding past = false) [] (serve build crates conn req) := by
  refine keeps_bind.mpr (keeps_call_bind.mpr ⟨rfl, fun config => ?_⟩)
  have answered : ∀ past resp, past ≠ [] ∧ holding past = false →
      Keeps May (fun past _ => holding past = false) past (call (.respond resp)) := by
    rintro past resp ⟨begun, dropped⟩
    exact ⟨may_unguarded rfl begun dropped, fun _ => holding_append _ begun dropped⟩
  cases chooseRoute config req.parts with
  | none => exact keeps_call_bind.mpr ⟨rfl, fun _ => answered _ _ ⟨by simp, rfl⟩⟩
  | some route => exact keeps_mono (fun _ _ may => may) answered (serveRoute_holds config)

end

/-! ## The guards that are held -/

section
variable {sys : System} {meets : System.World → Tid → Prop} {s : Store} {w : System.World}

theorem request_holds (sys : System) (n : Nat) :
    Keeps May (fun past _ => holding past = false) [] (sys.program (.request n)) := serve_holds

theorem head_role (reaches : sys.Reaches meets s w) {t : Tid} {a : Act} {next : a.Res → Program Unit}
    (head : w.threads t = .act a next) : a.role = t.role := by
  have only := Pool.reaches_only (t := t) (Installing.program_only sys t) reaches
  rw [head] at only
  exact only.1

/-- What a request does next is what its guard permits. -/
theorem request_may (reaches : sys.Reaches meets s w) {n : Nat} {a : Act} {next : a.Res → Program Unit}
    (head : w.threads (.request n) = .act a next) : May (own (.request n) w.log) a := by
  have contract := System.own_keeps (request_holds sys n) reaches
  rw [head] at contract
  exact contract.1

/-- Only requests hold the guard. -/
theorem holder_request (reaches : sys.Reaches meets s w) {t : Tid} (held : holding (own t w.log) = true) :
    ∃ n, t = .request n := by
  have read : ∃ config, (t, (⟨.readConfig, config⟩ : Event Act.Res)) ∈ w.log := by
    rcases holding_iff.mp held with ⟨config, past⟩ | ⟨config, path, plugin, past⟩
    · exact ⟨config, Pool.mem_own.mp (by simp [past])⟩
    · exact ⟨config, Pool.mem_own.mp (by simp [past])⟩
  obtain ⟨config, member⟩ := read
  obtain ⟨before, after, logged⟩ := List.append_of_mem member
  obtain ⟨_, w₁, next, _, reaches₁, _, _, head, _⟩ := Pool.reaches_event reaches logged
  have role : Role.request = t.role := head_role reaches₁ head
  cases t with
  | request n => exact ⟨n, rfl⟩
  | _ => cases role

/-- The guards of the config are those of the tasks whose history says so, one each. -/
structure Held (w : System.World) : Prop where
  nodup : w.state.guards.Nodup
  mem_iff : ∀ t, t ∈ w.state.guards ↔ holding (own t w.log) = true

/-- An action that leaves the guards and what its task holds. -/
theorem held_same {w₁ : System.World} {t : Tid} {e : Event Act.Res} {next : Tid → Program Unit} {s' : Store}
    (held : Held w₁) (same : s'.guards = w₁.state.guards)
    (still : holding (own t w₁.log ++ [e]) = holding (own t w₁.log)) : Held ⟨s', next, w₁.log ++ [(t, e)]⟩ := by
  refine ⟨same ▸ held.nodup, fun t' => ?_⟩
  show t' ∈ s'.guards ↔ holding (own t' (w₁.log ++ [(t, e)])) = true
  rw [same, Pool.own_append, held.mem_iff t']
  by_cases mine : t' = t
  · subst mine
    rw [Pool.own_single_self, still]
  · rw [Pool.own_single_other e (Ne.symm mine), List.append_nil]

/-- In every run the guards that are held are those of the requests between the read
    of the config and its drop. -/
theorem reaches_held (free : s.guards = []) (reaches : sys.Reaches meets s w) : Held w := by
  refine Pool.reaches_invariant Held ⟨by simp [System.world, free], fun t => by simp [System.world, free, holding]⟩
    ?_ reaches
  intro o t w₁ w₂ before held here taken
  have reaches₂ : sys.Reaches meets s w₂ := .step t o before here taken
  obtain ⟨a, next, r, s', head, done, rfl⟩ := Pool.step_cases taken
  have changes := (perform_changes done).guards
  by_cases request : ∃ n, t = .request n
  · obtain ⟨n, rfl⟩ := request
    have may := request_may before head
    have mine := held.mem_iff (.request n)
    have others : ∀ t', t' ≠ .request n →
        own t' (w₁.log ++ [(.request n, (⟨a, r⟩ : Event Act.Res))]) = own t' w₁.log := by
      intro t' other
      rw [Pool.own_append, Pool.own_single_other _ (Ne.symm other), List.append_nil]
    cases a with
    | readConfig =>
      have past : own (.request n) w₁.log = [] := may
      obtain ⟨rfl, rfl⟩ := perform_readConfig done
      refine ⟨List.nodup_cons.mpr ⟨by simp [mine, past, holding], held.nodup⟩, fun t' => ?_⟩
      by_cases same : t' = .request n
      · subst same
        rw [Pool.own_append, past]
        simp [holding, isConfigRead]
      · simp only [others t' same, List.mem_cons, same, false_or]
        exact held.mem_iff t'
    | dropConfig =>
      have past : holding (own (.request n) w₁.log) = true := may
      have less : s'.guards = w₁.state.guards.erase (.request n) := perform_dropConfig done
      refine ⟨by rw [less]; exact held.nodup.erase _, fun t' => ?_⟩
      show t' ∈ s'.guards ↔ _
      rw [less, held.nodup.mem_erase_iff]
      by_cases same : t' = .request n
      · subst same
        rw [Pool.own_append, Pool.own_single_self, (holding_drop past).2]
        simp
      · rw [others t' same, held.mem_iff t']
        exact and_iff_right same
    | getPlugin path =>
      obtain ⟨config, past⟩ := may
      refine held_same held (by simpa using changes) ?_
      rw [past]
      rfl
    | _ =>
      obtain ⟨_, begun, dropped⟩ := may
      refine held_same held (by simpa using changes) ?_
      rw [dropped, holding_append _ begun dropped]
  · have never : holding (own t w₁.log ++ [⟨a, r⟩]) = false ∧ holding (own t w₁.log) = false := by
      constructor
      · by_contra yes
        refine request (holder_request reaches₂ (t := t) ?_)
        rw [Pool.own_append, Pool.own_single_self]
        simpa using yes
      · by_contra yes
        exact request (holder_request before (by simpa using yes))
    have role := head_role before head
    refine held_same held ?_ (never.1.trans never.2.symm)
    rcases changes with same | ⟨rfl, _⟩ | ⟨rfl, _⟩
    · exact same
    · cases t <;> first | exact absurd ⟨_, rfl⟩ request | cases role
    · cases t <;> first | exact absurd ⟨_, rfl⟩ request | cases role

/-! ## Who can go on -/

/-- The actions that a request performs while it holds its guard. -/
def guardAct : Act → Bool
  | .getPlugin _ | .dropConfig => true
  | _ => false

/-- A holder of the guard is a request that reads its plugin or drops the guard next. -/
theorem holder_next (free : s.guards = []) (reaches : sys.Reaches meets s w) {t : Tid} (member : t ∈ w.state.guards) :
    ∃ n a next, t = .request n ∧ w.threads t = .act a next ∧ guardAct a = true := by
  have held := ((reaches_held free reaches).mem_iff t).mp member
  obtain ⟨n, rfl⟩ := holder_request reaches held
  have contract := System.own_keeps (request_holds sys n) reaches
  cases head : w.threads (.request n) with
  | ret value =>
    rw [head] at contract
    have dropped : holding (own (.request n) w.log) = false := contract
    rw [held] at dropped
    cases dropped
  | act a next =>
    refine ⟨n, a, next, rfl, rfl, ?_⟩
    have may := request_may reaches head
    cases a with
    | getPlugin path => rfl
    | dropConfig => rfl
    | readConfig =>
      have past : own (.request n) w.log = [] := may
      rw [past] at held
      cases held
    | _ =>
      have dropped := may.2.2
      rw [held] at dropped
      cases dropped

/-- In every reached world the guards of the config are held once each, by requests
    alone, and never by one that has ended or that is about to do anything but read
    its plugin or drop the guard: not while it waits for a plugin or an upstream. -/
theorem guard_scope (sys : System) (s : Store) (w : System.World) (free : s.guards = [])
    (reaches : sys.Reaches (fun _ _ => True) s w) :
    w.state.guards.Nodup ∧ (∀ t ∈ w.state.guards, ∃ n, t = .request n) ∧
      (∀ n, w.threads (.request n) = .ret () → .request n ∉ w.state.guards) ∧
      ∀ n a next, w.threads (.request n) = .act a next → guardAct a = false → .request n ∉ w.state.guards := by
  refine ⟨(reaches_held free reaches).nodup, fun t member => ?_, fun n ended member => ?_,
    fun n a next head other member => ?_⟩
  · obtain ⟨n, a, next, same, -⟩ := holder_next free reaches member
    exact ⟨n, same⟩
  · obtain ⟨m, a, next, same, head, -⟩ := holder_next free reaches member
    cases same
    rw [ended] at head
    cases head
  · obtain ⟨m, b, rest, same, head', guarded⟩ := holder_next free reaches member
    cases same
    obtain ⟨rfl, -⟩ := Prog.act.inj (head.symm.trans head')
    rw [other] at guarded
    cases guarded

theorem request_able {n : Nat} {past : History} {a : Act} (may : May past a) (o : Outside) (crates : Crates)
    (s : Store) : ∃ r s', perform crates o (.request n) a s = some (r, s') := by
  cases a with
  | expectFailed message => cases may.1
  | _ => first | exact ⟨_, _, rfl⟩ | cases may.1

theorem reload_able {a : Act} (role : a.role = .reload) {s : Store}
    (unlocked : ∀ config, a = .writeConfig config → s.guards = []) (o : Outside) (crates : Crates) :
    ∃ r s', perform crates o .reload a s = some (r, s') := by
  cases a with
  | writeConfig config =>
    have empty := unlocked config rfl
    exact ⟨(), { s with config }, by simp [perform, Store.mayAct, empty]⟩
  | _ => first | exact ⟨_, _, rfl⟩ | cases role

theorem prober_able {n : Nat} {a : Act} (role : a.role = .prober) {s : Store} (live : s.mayAct (.prober n) = true)
    (o : Outside) (crates : Crates) : ∃ r s', perform crates o (.prober n) a s = some (r, s') := by
  unfold perform
  rw [live]
  cases a with
  | startProber =>
    obtain ⟨task, there, _⟩ := (Option.any_eq_true _ _).mp live
    exact ⟨task.spec, s, by simp [there]⟩
  | getOrInsertFlag addr =>
    cases found : s.flags.get addr with
    | none => exact ⟨_, _, by simp only [found]; rfl⟩
    | some flag => exact ⟨_, _, by simp only [found]; rfl⟩
  | _ => first | exact ⟨_, _, rfl⟩ | cases role

/-- The reload has come to its write of the config. -/
def aboutToWrite (w : System.World) : Bool :=
  match w.threads .reload with
  | .act (.writeConfig _) _ => true
  | _ => false

/-- The task has come to its read of the config. -/
def aboutToRead (w : System.World) (t : Tid) : Bool :=
  match w.threads t with
  | .act .readConfig _ => true
  | _ => false

/-- The lock of the config is fair: whoever comes to read while the reload waits to write
    waits behind it. -/
def granted (w : System.World) (t : Tid) : Bool := !(aboutToRead w t && aboutToWrite w)

/-- The task can take its next step under the fair lock. -/
def Able (sys : System) (o : Outside) (w : System.World) (t : Tid) : Prop :=
  granted w t = true ∧ ∃ w', Pool.step (perform sys.crates) o t w = some w'

theorem aboutToRead_other {t : Tid} {a : Act} {next : a.Res → Program Unit} (head : w.threads t = .act a next)
    (other : a ≠ .readConfig) : aboutToRead w t = false := by
  unfold aboutToRead
  rw [head]
  cases a <;> first | rfl | exact absurd rfl other

theorem granted_other {t : Tid} {a : Act} {next : a.Res → Program Unit} (head : w.threads t = .act a next)
    (other : a ≠ .readConfig) : granted w t = true := by
  rw [granted, aboutToRead_other head other]
  rfl

theorem guardAct_other {a : Act} (guarded : guardAct a = true) : a ≠ .readConfig := by
  rintro rfl
  cases guarded

/-- In every reached world, whatever the outside supplies: each request that has not ended
    can go on, unless it is about to read the config while the reload waits to write it;
    each prober that is alive can go on; and the reload can, or it waits for a request
    that holds the guard and can go on. -/
theorem never_stuck (sys : System) (s : Store) (w : System.World) (free : s.guards = [])
    (reaches : sys.Reaches (fun _ _ => True) s w) (o : Outside) :
    (∀ n a next, w.threads (.request n) = .act a next →
      Able sys o w (.request n) ∨ aboutToRead w (.request n) = true ∧ aboutToWrite w = true) ∧
    (∀ n a next, w.threads (.prober n) = .act a next → w.state.mayAct (.prober n) = true →
      Able sys o w (.prober n)) ∧
    ∀ a next, w.threads .reload = .act a next →
      Able sys o w .reload ∨ ∃ config n, a = .writeConfig config ∧ .request n ∈ w.state.guards ∧
        Able sys o w (.request n) := by
  have request : ∀ n a next, w.threads (.request n) = .act a next →
      ∃ w', Pool.step (perform sys.crates) o (.request n) w = some w' := by
    intro n a next head
    obtain ⟨r, s', done⟩ := request_able (n := n) (request_may reaches head) o sys.crates w.state
    exact ⟨_, Pool.step_of_perform head done⟩
  refine ⟨?_, ?_, ?_⟩
  · intro n a next head
    by_cases waits : granted w (.request n) = true
    · exact .inl ⟨waits, request n a next head⟩
    · exact .inr (by simpa [granted] using waits)
  · intro n a next head live
    have role := head_role reaches head
    obtain ⟨r, s', done⟩ := prober_able role live o sys.crates
    exact ⟨granted_other head (by rintro rfl; cases role), _, Pool.step_of_perform head done⟩
  · intro a next head
    have role := head_role reaches head
    by_cases unlocked : ∀ config, a = .writeConfig config → w.state.guards = []
    · obtain ⟨r, s', done⟩ := reload_able role unlocked o sys.crates
      exact .inl ⟨granted_other head (by rintro rfl; cases role), _, Pool.step_of_perform head done⟩
    · push Not at unlocked
      obtain ⟨config, writes, locked⟩ := unlocked
      obtain ⟨t, member⟩ := List.exists_mem_of_ne_nil _ locked
      obtain ⟨n, b, rest, rfl, head', guarded⟩ := holder_next free reaches member
      exact .inr ⟨config, n, writes, member, granted_other head' (guardAct_other guarded), request n b rest head'⟩

/-! ## How long a reload waits -/

/-- How many actions the holders of the guard have left at most until they drop it. -/
def remaining (w : System.World) : Nat := (w.state.guards.map fun t => 3 - (own t w.log).length).sum

theorem holding_length {past : History} (held : holding past = true) : 1 ≤ past.length ∧ past.length ≤ 2 := by
  rcases holding_iff.mp held with ⟨config, rfl⟩ | ⟨config, path, plugin, rfl⟩ <;> simp

theorem remaining_le (held : Held w) : remaining w ≤ 2 * w.state.guards.length := by
  have bound : ∀ n ∈ w.state.guards.map (fun t => 3 - (own t w.log).length), n ≤ 2 := by
    intro n member
    obtain ⟨t, listed, rfl⟩ := List.mem_map.mp member
    have := (holding_length ((held.mem_iff t).mp listed)).1
    omega
  have total := List.sum_le_card_nsmul _ 2 bound
  simpa [remaining, Nat.mul_comm] using total

/-- What the others have left does not change when a task acts. -/
theorem remaining_others {guards : List Tid} {t : Tid} (log : List (Tid × Event Act.Res)) (e : Event Act.Res)
    (absent : t ∉ guards) :
    (guards.map fun t' => 3 - (own t' (log ++ [(t, e)])).length).sum =
      (guards.map fun t' => 3 - (own t' log).length).sum := by
  congr 1
  refine List.map_congr_left fun t' member => ?_
  have other : t ≠ t' := by
    rintro rfl
    exact absent member
  rw [Pool.own_append, Pool.own_single_other e other, List.append_nil]

/-- Every action of a holder leaves less to wait for; other actions but new reads leave it as it is. -/
theorem remaining_step (free : s.guards = []) {o : Outside} {t : Tid} {w' : System.World}
    (reaches : sys.Reaches meets s w) (here : meets w t) (taken : Pool.step (perform sys.crates) o t w = some w')
    {a : Act} {next : a.Res → Program Unit} (head : w.threads t = .act a next) (old : a ≠ .readConfig) :
    if guardAct a then remaining w' + 1 ≤ remaining w else remaining w' = remaining w := by
  have held := reaches_held free reaches
  obtain ⟨a', next', r, s', head', done, rfl⟩ := Pool.step_cases taken
  obtain ⟨rfl, -⟩ := Prog.act.inj (head'.symm.trans head)
  have changes := (perform_changes done).guards
  unfold remaining
  by_cases member : t ∈ w.state.guards
  · obtain ⟨n, b, rest, rfl, head₂, guarded⟩ := holder_next free reaches member
    obtain ⟨rfl, -⟩ := Prog.act.inj (head₂.symm.trans head)
    rw [if_pos guarded, Nat.add_one_le_iff]
    have past := holding_length ((held.mem_iff _).mp member)
    have apart : .request n ∉ w.state.guards.erase (.request n) := fun again => (held.nodup.mem_erase_iff.mp again).1 rfl
    rw [← List.sum_map_erase (fun t => 3 - (own t w.log).length) member]
    have others := remaining_others w.log ⟨b, r⟩ apart
    cases b with
    | dropConfig =>
      have less : s'.guards = w.state.guards.erase (.request n) := perform_dropConfig done
      show (s'.guards.map _).sum < _
      rw [less, others]
      omega
    | getPlugin path =>
      have same : s'.guards = w.state.guards := by simpa using changes
      obtain ⟨config, single⟩ := request_may reaches head
      show (s'.guards.map fun t => 3 - (own t (w.log ++ [(.request n, _)])).length).sum < _
      rw [same, ← List.sum_map_erase _ member, others, Pool.own_append, Pool.own_single_self, single]
      simp
    | _ => cases guarded
  · have quiet : guardAct a' = false := by
      by_contra guarded
      have role := head_role reaches head
      cases a' with
      | getPlugin path =>
        cases t with
        | request n =>
          obtain ⟨config, past⟩ := request_may reaches head
          exact member ((held.mem_iff _).mpr (by rw [past]; rfl))
        | _ => cases role
      | dropConfig =>
        cases t with
        | request n => exact member ((held.mem_iff _).mpr (request_may reaches head))
        | _ => cases role
      | _ => exact guarded rfl
    rw [quiet]
    have same : s'.guards = w.state.guards := by
      rcases changes with same | ⟨read, _⟩ | ⟨dropped, _⟩
      · exact same
      · exact absurd read old
      · rw [dropped] at quiet
        cases quiet
    show (s'.guards.map _).sum = _
    rw [same]
    exact remaining_others _ _ member

/-- How many actions of holders a log has. -/
def guardActs (log : List (Tid × Event Act.Res)) : Nat := log.countP fun e => guardAct e.2.act

/-- No request begins to read the config; so it is while the lock has a writer waiting. -/
def noNewReader (w : System.World) (t : Tid) : Prop := ∀ next, w.threads t ≠ .act .readConfig next

/-- Without new readers the holders act at most as often as they had left. -/
theorem holders_bounded (free : s.guards = []) (reaches : sys.Reaches (fun _ _ => True) s w) {w' : System.World}
    (later : Reaches (perform sys.crates) noNewReader w w') :
    ∃ trace, w'.log = w.log ++ trace ∧ guardActs trace + remaining w' ≤ remaining w := by
  refine Pool.reaches_invariant (fun w' => ∃ trace, w'.log = w.log ++ trace ∧
    guardActs trace + remaining w' ≤ remaining w) ⟨[], by simp, by simp [guardActs]⟩ ?_ later
  rintro o t w₁ w₂ between ⟨trace, logged, bound⟩ old taken
  have reaches₁ := Pool.reaches_trans reaches (Pool.reaches_mono (fun _ _ _ => trivial) between)
  obtain ⟨a, next, r, s', head, done, same⟩ := Pool.step_cases taken
  have less := remaining_step free reaches₁ trivial taken head (by rintro rfl; exact old next head)
  refine ⟨trace ++ [(t, ⟨a, r⟩)], by rw [same]; simp [logged], ?_⟩
  have more : guardActs (trace ++ [(t, ⟨a, r⟩)]) = guardActs trace + if guardAct a then 1 else 0 := by
    simp [guardActs, List.countP_cons]
  by_cases guarded : guardAct a = true
  · rw [if_pos guarded] at less more
    omega
  · rw [if_neg guarded] at less more
    omega

/-- The holders alone can bring it about that no guard is held. -/
theorem holders_drain (free : s.guards = []) (reaches : sys.Reaches (fun _ _ => True) s w) (o : Outside) :
    ∃ w' trace, Reaches (perform sys.crates) (fun w t => t ∈ w.state.guards) w w' ∧ w'.log = w.log ++ trace ∧
      trace.length ≤ remaining w ∧ w'.state.guards = [] ∧ w'.threads .reload = w.threads .reload := by
  generalize left : remaining w = k
  induction k using Nat.strong_induction_on generalizing w with
  | _ k ih =>
    by_cases unguarded : w.state.guards = []
    · exact ⟨w, [], .refl, by simp, by simp, unguarded, rfl⟩
    · obtain ⟨t, member⟩ := List.exists_mem_of_ne_nil _ unguarded
      obtain ⟨n, a, next, rfl, head, guarded⟩ := holder_next free reaches member
      obtain ⟨r, s', done⟩ := request_able (n := n) (request_may reaches head) o sys.crates w.state
      have taken := Pool.step_of_perform head done
      have less := remaining_step free reaches trivial taken head (guardAct_other guarded)
      rw [if_pos guarded] at less
      obtain ⟨w', trace, rest, logged, short, empty, same⟩ :=
        ih _ (by omega) (Pool.reaches_trans reaches (.step _ o .refl trivial taken)) rfl
      refine ⟨w', (.request n, ⟨a, r⟩) :: trace, Pool.reaches_trans (.step _ o .refl member taken) rest, ?_, ?_,
        empty, ?_⟩
      · rw [logged]
        exact List.append_assoc w.log [_] trace
      · rw [List.length_cons]
        omega
      · have other : Tid.reload ≠ .request n := nofun
        rw [same]
        show Function.update w.threads (.request n) (next r) .reload = w.threads .reload
        rw [Function.update_of_ne other]

/-- A reload that has come to the write of the config waits for at most two actions of
    each request that holds the guard, as long as no new request gets it, and the
    holders need nothing but to act for the write to follow. -/
theorem write_waits_briefly (sys : System) (s : Store) (w : System.World) (config : Config)
    (next : Unit → Program Unit) (o : Outside) (free : s.guards = []) (reaches : sys.Reaches (fun _ _ => True) s w)
    (about : w.threads .reload = .act (.writeConfig config) next) :
    (∀ w', Reaches (perform sys.crates) noNewReader w w' → ∃ trace, w'.log = w.log ++ trace ∧
      guardActs trace ≤ 2 * w.state.guards.length) ∧
    ∃ w' w'' trace, Reaches (perform sys.crates) (fun w t => t ∈ w.state.guards) w w' ∧ w'.log = w.log ++ trace ∧
      trace.length ≤ 2 * w.state.guards.length ∧ Pool.step (perform sys.crates) o .reload w' = some w'' ∧
      w''.state.config = config := by
  have most := remaining_le (reaches_held free reaches)
  constructor
  · intro w' later
    obtain ⟨trace, logged, bound⟩ := holders_bounded free reaches later
    exact ⟨trace, logged, by omega⟩
  · obtain ⟨w', trace, drains, logged, short, empty, same⟩ := holders_drain free reaches o
    obtain ⟨r, s', done⟩ := reload_able (a := .writeConfig config) rfl (fun _ _ => empty) o sys.crates
    refine ⟨w', _, trace, drains, logged, by omega, Pool.step_of_perform (same.trans about) done, ?_⟩
    exact congrArg Store.config (perform_writeConfig done).2

end

/-! ## A reload that comes to its write while a request holds the guard -/

/-- The request reads the config, then the reload goes on up to its write. -/
def meeting : List (Tid × Outside) :=
  (.request 0, Samples.outside) :: List.replicate 5 (.reload, Guarding.reloading)

theorem meeting_reaches :
    ∃ w, Guarding.unguarding.Reaches (fun w t => granted w t = true) (Guarding.guardedStore [0]) w ∧
      aboutToWrite w = true ∧ aboutToRead w (.request 1) = true ∧ w.state.guards = [.request 0] := by
  obtain ⟨w, reaches, shown⟩ := System.reaches_of_run Guarding.unguarding granted meeting (Guarding.guardedStore [0])
    (fun w => aboutToWrite w && (aboutToRead w (.request 1) && w.state.guards = [.request 0])) (by decide +kernel)
  simp only [Bool.and_eq_true, decide_eq_true_eq] at shown
  exact ⟨w, reaches, shown⟩

theorem guard_scope_meeting :
    ∃ w, Guarding.unguarding.Reaches (fun _ _ => True) (Guarding.guardedStore [0]) w ∧
      w.state.guards = [.request 0] ∧ w.state.guards.Nodup ∧
      ∀ n, w.threads (.request n) = .ret () → .request n ∉ w.state.guards := by
  obtain ⟨w, reaches, _, _, held⟩ := meeting_reaches
  have reaches := Pool.reaches_mono (fun _ _ _ => trivial) reaches
  obtain ⟨nodup, _, ended, _⟩ := guard_scope Guarding.unguarding (Guarding.guardedStore [0]) w rfl reaches
  exact ⟨w, reaches, held, nodup, ended⟩

/-- The holder of the guard can go on, and the request behind it waits. -/
theorem never_stuck_meeting :
    ∃ w, Guarding.unguarding.Reaches (fun w t => granted w t = true) (Guarding.guardedStore [0]) w ∧
      Able Guarding.unguarding Samples.outside w (.request 0) ∧
      ¬ Able Guarding.unguarding Samples.outside w (.request 1) := by
  obtain ⟨w, reaches, about, waits, held⟩ := meeting_reaches
  have anyhow := Pool.reaches_mono (fun _ _ _ => trivial) reaches
  obtain ⟨requests, -, -⟩ := never_stuck Guarding.unguarding (Guarding.guardedStore [0]) w rfl anyhow Samples.outside
  obtain ⟨n, a, next, same, head, guarded⟩ :=
    holder_next rfl anyhow (t := .request 0) (by rw [held]; exact List.mem_cons_self)
  cases same
  refine ⟨w, reaches, (requests 0 a next head).resolve_right fun ⟨reading, _⟩ => ?_, fun able => ?_⟩
  · rw [aboutToRead_other head (guardAct_other guarded)] at reading
    cases reading
  · rw [Able, granted, waits, about] at able
    cases able.1

theorem write_waits_briefly_meeting :
    ∃ w config w' w'' trace, Guarding.unguarding.Reaches (fun _ _ => True) (Guarding.guardedStore [0]) w ∧
      w.state.guards = [.request 0] ∧
      Reaches (perform Guarding.unguarding.crates) (fun w t => t ∈ w.state.guards) w w' ∧ w'.log = w.log ++ trace ∧
      trace.length ≤ 2 ∧ Pool.step (perform Guarding.unguarding.crates) Samples.outside .reload w' = some w'' ∧
      w''.state.config = config := by
  obtain ⟨w, reaches, about, _, held⟩ := meeting_reaches
  have reaches := Pool.reaches_mono (fun _ _ _ => trivial) reaches
  unfold aboutToWrite at about
  split at about
  · rename_i config next head
    obtain ⟨-, w', w'', trace, drains, logged, short, written⟩ := write_waits_briefly Guarding.unguarding
      (Guarding.guardedStore [0]) w config next Samples.outside rfl reaches head
    rw [held] at short
    exact ⟨w, config, w', w'', trace, reaches, held, drains, logged, short, written⟩
  · cases about

end Holding
end Torana
