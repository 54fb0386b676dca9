import Torana.Handling
import Torana.Reload

/-!
The whole proxy: which task runs which program over the shared state, and the
worlds that it reaches. Each action belongs to one role, and every task performs
actions of its own role only.
-/
namespace Torana
open Http
open Config (Build)
open Prog (Only Keeps only_call_bind only_of_keeps keeps_runs)

/-- The kinds of tasks. -/
inductive Role where
  | request
  | prober
  | reload
  | runtime
  deriving DecidableEq

def Act.role : Act → Role
  | .readConfig | .dropConfig | .getPlugin _ | .evaluate _ _ _ | .subsecNanos | .spawnMirror _ _ _
  | .mirrorFailed _ _ | .getBalancer _ | .fetchAdd _ _ | .isHealthy _ | .sendRequest _ _ _ | .failUnsent _ _
  | .expectFailed _ | .respond _ => .request
  | .startProber | .exchange _ _ _ _ | .getFlag _ | .getOrInsertFlag _ | .swapFlag _ _ _ | .logTransition _ _
  | .sleep _ => .prober
  | .recvSighup | .readToString _ | .readFile _ | .newCounters _ | .spawnProber _ | .writeLbCache _
  | .writePluginCache _ | .writeConfig _ | .replaceHandles _ | .abort _ => .reload
  | .stopTask _ => .runtime

def Tid.role : Tid → Role
  | .request _ => .request
  | .prober _ => .prober
  | .reload => .reload
  | .runtime _ => .runtime
  | .main => .runtime

/-- What a run of the proxy is made of: the build, the requests with their
    connections, and how long the tasks that never end are followed. -/
structure System where
  build : Build
  crates : Crates
  configPath : String
  reloads : Nat
  rounds : Nat → Nat
  conn : Nat → Server.Conn
  req : Nat → Request Incoming

namespace System

abbrev World := Pool.World Tid Act.Res Store

def program (sys : System) : Tid → Program Unit
  | .request n => Server.serve sys.build sys.crates (sys.conn n) (sys.req n)
  | .reload => Reload.watchConfigSignal sys.build sys.crates sys.configPath sys.reloads
  | .prober n => Health.prober (sys.rounds n)
  | .runtime n => call (.stopTask n)
  | .main => return ()

/-- Every task at its beginning, over the given shared state. -/
def world (sys : System) (s : Store) : World := ⟨s, sys.program, []⟩

/-- A run from the given shared state whose steps meet a condition. -/
abbrev Reaches (sys : System) (meets : World → Tid → Prop) (s : Store) : World → Prop :=
  Pool.Reaches (perform sys.crates) meets (sys.world s)

/-! ## Roles -/

theorem may_role {build : Build} {crates : Crates} {conn : Server.Conn} {req : Request Incoming} {past : History}
    {a : Act} (may : Handling.May build crates conn req past a) : a.role = .request := by
  cases a <;> first | rfl | exact may.elim

theorem serve_only (build : Build) (crates : Crates) (conn : Server.Conn) (req : Request Incoming) :
    Only (fun a => a.role = .request) (Server.serve build crates conn req) :=
  only_of_keeps (fun _ _ => may_role) Handling.serve_keeps

theorem prober_only (rounds : Nat) : Only (fun a => a.role = .prober) (Health.prober rounds) := by
  have records : ∀ addr healthy, Only (fun a => a.role = .prober) (Health.set addr healthy) :=
    fun _ _ => Health.set_only rfl rfl (fun _ => rfl) rfl
  refine only_call_bind rfl fun spec => ?_
  exact Health.proberRounds_only rounds (Health.probeOnce_only fun _ _ _ => rfl) (records spec.addr) rfl

/-- The tasks other than the reload never perform an action of the reload. -/
theorem program_role (sys : System) {t : Tid} (other : t ≠ .reload) :
    Only (fun a => a.role = t.role) (sys.program t) := by
  cases t with
  | request n => exact serve_only sys.build sys.crates _ _
  | reload => exact absurd rfl other
  | prober n => exact prober_only _
  | runtime n => exact ⟨rfl, fun _ => trivial⟩
  | main => trivial

/-- What a request's task may perform after a history. -/
abbrev May (sys : System) (n : Nat) : History → Act → Prop :=
  Handling.May sys.build sys.crates (sys.conn n) (sys.req n)

theorem request_keeps (sys : System) (n : Nat) : Keeps (sys.May n) (fun _ _ => True) [] (sys.program (.request n)) :=
  Handling.serve_keeps

/-! ## Runs -/

section
variable {sys : System} {meets : World → Tid → Prop} {s : Store} {w : World}

/-- In every run each task keeps the contract of its program over its own history. -/
theorem own_keeps {may : History → Act → Prop} {fin : History → Unit → Prop} {t : Tid}
    (keeps : Keeps may fin [] (sys.program t)) (reaches : sys.Reaches meets s w) :
    Keeps may fin (Pool.own t w.log) (w.threads t) := by
  obtain ⟨trace, logged, runs⟩ := Pool.reaches_runs reaches
  have own : Pool.own t w.log = Pool.own t trace := by
    rw [logged]
    rfl
  rw [own]
  exact keeps_runs keeps (runs t)

/-- What a request did it did in a state that was reached, and its contract allowed it there. -/
theorem request_event {n : Nat} {e : Event Act.Res} {before after : List (Tid × Event Act.Res)}
    (reaches : sys.Reaches meets s w) (logged : w.log = before ++ (.request n, e) :: after) :
    ∃ o w₁ next s', sys.Reaches meets s w₁ ∧ w₁.log = before ∧ meets w₁ (.request n) ∧
      w₁.threads (.request n) = .act e.act next ∧
      perform sys.crates o (.request n) e.act w₁.state = some (e.answer, s') ∧
      sys.May n (Pool.own (.request n) before) e.act := by
  obtain ⟨o, w₁, next, s', reaches₁, log, here, head, done⟩ := Pool.reaches_event reaches logged
  have log : w₁.log = before := log
  have own := own_keeps (sys.request_keeps n) reaches₁
  rw [head, log] at own
  exact ⟨o, w₁, next, s', reaches₁, log, here, head, done, own.1⟩

/-- Only the reload performs the actions of the reload. -/
theorem reload_only (reaches : sys.Reaches meets s w) {t : Tid} {a : Act} {next : a.Res → Program Unit}
    (head : w.threads t = .act a next) (role : a.role = .reload) : t = .reload := by
  by_contra other
  have only := Pool.reaches_only (sys.program_role other) reaches
  rw [head] at only
  have same := only.1.symm.trans role
  cases t <;> first | exact other rfl | cases same

end

/-- A schedule that can be taken, with every step passing the check, is a run. -/
theorem reaches_of_run (sys : System) (check : World → Tid → Bool) (schedule : List (Tid × Outside)) (s : Store)
    (ends : World → Bool)
    (ran : (Pool.run (perform sys.crates) check schedule (sys.world s)).any ends = true) :
    ∃ w, sys.Reaches (fun w t => check w t = true) s w ∧ ends w = true := by
  obtain ⟨w, taken, ended⟩ := (Option.any_eq_true _ _).mp ran
  exact ⟨w, Pool.run_reaches (fun _ _ passed => passed) taken, ended⟩

end System
end Torana
