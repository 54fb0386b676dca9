import Torana.Ownership
import Torana.Selection

/-!
The addresses that one request tries, in the order of its attempts. Each attempt
takes the address that the balancer chose for it after all earlier ones were put on
the exclusion list (`handle_picks`); what `next_healthy` promises about excluded
upstreams is a promise about retries.
-/
namespace Torana
open Http
open Config (RouteConfig Build)
open Prog (Runs Keeps keeps_bind keeps_call_bind keeps_mono)

namespace Retries
open Server Handling Ownership

/-- The addresses that a request has tried. -/
def triedIn (past : History) : List String := past.filterMap fun e => tries e.act

@[simp] theorem triedIn_nil : triedIn [] = [] := rfl
@[simp] theorem triedIn_append (left right : History) : triedIn (left ++ right) = triedIn left ++ triedIn right := by
  simp [triedIn]

theorem triedIn_single {a : Act} {r : a.Res} {addr : String} (takes : tries a = some addr) :
    triedIn [⟨a, r⟩] = [addr] := by
  simp [triedIn, takes]

theorem triedIn_none {past : History} (quiet : ∀ e ∈ past, tries e.act = none) : triedIn past = [] :=
  List.filterMap_eq_nil_iff.mpr quiet

theorem plain_tries {a : Act} (plain : Attempts.plain a = true) : tries a = none := by
  cases a <;> first | rfl | cases plain

/-! ## What was chosen for an attempt -/

section
variable (build : Build) (req : Request Incoming)

/-- The last thing that happened is that the balancer chose this address for the route,
    knowing which addresses the request had tried. -/
def Chosen (past : History) (addr : String) : Prop :=
  ∃ route earlier choice, selected req past = some route ∧ past = earlier ++ choice ∧
    (∀ e ∈ choice, tries e.act = none) ∧ Runs (pickUpstream build route (triedIn earlier)) choice (.ret (some addr))

/-- Every attempt takes an address that was chosen for it. -/
def Picks (past : History) (a : Act) : Prop := ∀ addr, tries a = some addr → Chosen build req past addr

end

section
variable {build : Build} {crates : Crates} {conn : Conn} {req : Request Incoming} {route : RouteConfig}

theorem picks_plain {past : History} {a : Act} (plain : Attempts.plain a = true) : Picks build req past a := by
  intro addr takes
  rw [plain_tries plain] at takes
  cases takes

/-- Choosing an upstream tries nothing. -/
theorem pickUpstream_tries (tried : List String) {choice : History} {addr : Option String}
    (run : Runs (pickUpstream build route tried) choice (.ret addr)) : ∀ e ∈ choice, tries e.act = none := by
  intro e member
  obtain ⟨before, after, rfl⟩ := List.append_of_mem member
  exact plain_tries (Prog.keeps_event (Attempts.pickUpstream_plain tried []) run)

/-- What is sent behind a choice is the attempt that was chosen for, and when it fails to connect
    exactly its address was added to the tried ones. -/
theorem proxyRequest_picks {timeout : Config.Duration} {given : Request UpstreamBody} {past choice : History}
    {addr : String} (serving : selected req past = some route)
    (run : Runs (pickUpstream build route (triedIn past)) choice (.ret (some addr))) :
    Keeps (Picks build req) (fun past' outcome => outcome = .failed true →
      selected req past' = some route ∧ triedIn past' = triedIn past ++ [addr]) (past ++ choice)
      (proxyRequest crates conn timeout given addr) := by
  have quiet := pickUpstream_tries _ run
  have chosen : Chosen build req (past ++ choice) addr :=
    ⟨route, past, choice, selected_append _ serving, rfl, quiet, run⟩
  unfold proxyRequest
  split
  · refine keeps_call_bind.mpr ⟨?_, fun _ => by rintro ⟨⟩⟩
    rintro _ ⟨⟩
    exact chosen
  · rename_i out _
    refine keeps_call_bind.mpr ⟨?_, fun outcome => ?_⟩
    · rintro _ ⟨⟩
      exact chosen
    · have served := selected_append [⟨.sendRequest timeout addr out, outcome⟩] (selected_append choice serving)
      have added : triedIn (past ++ choice ++ ([⟨.sendRequest timeout addr out, outcome⟩] : History)) =
          triedIn past ++ [addr] := by
        rw [triedIn_append, triedIn_append, triedIn_none quiet, triedIn_single rfl, List.append_nil]
      cases outcome with
      | responded resp => rintro ⟨⟩
      | failed isConnect => exact fun _ => ⟨served, added⟩
      | elapsed => rintro ⟨⟩

theorem attempts_picks {retry : Bool} (remaining : Nat) {incoming : Option Incoming} {past : History}
    (serving : selected req past = some route) (available : retry = true ∨ incoming ≠ none) :
    Keeps (Picks build req) (fun _ _ => True) past
      (attempts build crates conn route req.parts retry remaining incoming (triedIn past)) := by
  refine attempts_rule (fun _ tried past => selected req past = some route ∧ tried = triedIn past)
    (fun _ tried addr past => ∃ earlier choice, past = earlier ++ choice ∧ tried = triedIn earlier ∧
      selected req earlier = some route ∧ Runs (pickUpstream build route (triedIn earlier)) choice (.ret addr))
    (fun _ => trivial) ?_ (fun _ => trivial) ?_ remaining available ⟨serving, rfl⟩
  · rintro n tried past ⟨serving, rfl⟩
    refine Prog.keeps_of_runs (keeps_mono (fun _ _ => picks_plain) (fun _ _ _ => trivial)
      (Attempts.pickUpstream_plain _ _)) ?_
    intro choice addr run
    exact ⟨past, choice, rfl, rfl, serving, run⟩
  · rintro n tried addr past body ⟨earlier, choice, rfl, rfl, serving, run⟩ -
    refine keeps_mono (fun _ _ may => may) ?_ (proxyRequest_picks serving run)
    intro past' outcome behind
    refine ⟨fun _ failed => ?_, fun _ => trivial⟩
    obtain ⟨served, added⟩ := behind failed
    exact ⟨served, added.symm⟩

/-- Nothing was tried yet on behalf of the route. -/
def Untouched (req : Request Incoming) (route : RouteConfig) (past : History) : Prop :=
  selected req past = some route ∧ triedIn past = []

theorem untouched_steady : Attempts.Steady (Picks build req) (Untouched req route) where
  kept past r untouched plain := by
    refine ⟨selected_append _ untouched.1, ?_⟩
    rw [triedIn_append, untouched.2, triedIn_none]
    · rfl
    · intro e member
      rw [List.mem_singleton.mp member]
      exact plain_tries plain
  permits _ plain := picks_plain plain

theorem serveRoute_picks {past : History} (untouched : Untouched req route past) :
    Keeps (Picks build req) (fun _ _ => True) past (serveRoute build crates conn route req) := by
  refine Attempts.serveRoute_rule untouched_steady (fun _ => trivial) ?_ untouched
  rintro past ⟨serving, untried⟩
  rw [← untried]
  exact attempts_picks _ serving (.inr (by simp))

/-- The addresses that a request tries were chosen one after the other, each with all
    earlier ones excluded. -/
theorem handle_picks : Keeps (Picks build req) (fun _ _ => True) [] (handle build crates conn req) := by
  refine keeps_call_bind.mpr ⟨picks_plain rfl, fun config => ?_⟩
  cases choice : chooseRoute config req.parts with
  | none => exact ⟨picks_plain rfl, fun _ => trivial⟩
  | some route => exact serveRoute_picks ⟨choice, rfl⟩

theorem serve_picks : Keeps (Picks build req) (fun _ _ => True) [] (serve build crates conn req) := by
  refine keeps_bind.mpr (keeps_mono (fun _ _ may => may) ?_ handle_picks)
  intro past resp _
  exact ⟨picks_plain rfl, fun _ => trivial⟩

/-- A choice reads the balancer of the route and makes one call of `next_healthy` on it. -/
theorem pickUpstream_runs {tried : List String} {choice : History} {addr : Option String}
    (run : Runs (pickUpstream build route tried) choice (.ret addr)) :
    (choice = [⟨.getBalancer route.name, none⟩] ∧ addr = none) ∨
      ∃ lb call picked, choice = ⟨.getBalancer route.name, some lb⟩ :: call ∧ addr = picked.map (·.addr) ∧
        Runs (lb.nextHealthy build.usizeBits tried) call (.ret picked) := by
  unfold pickUpstream at run
  rw [Torana.call, Prog.call_bind] at run
  obtain ⟨-, ends⟩ | ⟨found, rest, rfl, later⟩ := Prog.runs_act run
  · cases ends
  · cases found with
    | none =>
      obtain ⟨rfl, same⟩ := Prog.runs_ret.mp later
      cases same
      exact .inl ⟨rfl, rfl⟩
    | some lb =>
      obtain ⟨call, unfound, picked, rfl, here, ends⟩ := Prog.runs_bind.mp later
      obtain ⟨rfl, same⟩ := Prog.runs_ret.mp ends
      cases same
      exact .inr ⟨lb, call, picked, by simp, rfl, here⟩

end

/-! ## Retries go elsewhere -/

/-- The last thing that happened is a choice of this address from a balancer's schedule.
    Unless the pass wrapped around the end of the counter, the address is one that was not
    tried as long as there is such an address in the schedule that the choice, whenever it
    read its health, read as healthy. -/
def GoesElsewhere (bits : Nat) (past : History) (addr : String) : Prop :=
  ∃ earlier name lb start reads,
    past = earlier ++ ⟨.getBalancer name, some lb⟩ :: ⟨.fetchAdd lb.counter bits, start⟩ :: reads ∧
    (∀ read ∈ reads, ∃ addr healthy, read = ⟨.isHealthy addr, healthy⟩) ∧ addr ∈ lb.upstreams.map (·.addr) ∧
    (start + lb.upstreams.length ≤ 2 ^ bits ∨ lb.upstreams.length ∣ 2 ^ bits →
      (∃ u ∈ lb.upstreams, u.addr ∉ triedIn past ∧
        ∀ healthy, ⟨.isHealthy u.addr, healthy⟩ ∈ reads → healthy = true) →
      addr ∉ triedIn past)

/-- In every run of the proxy, every attempt of a request goes to an address that the
    request has not tried as long as one of these is healthy. -/
theorem retry_elsewhere (sys : System) (s : Store) (w : System.World) (n : Nat)
    (reaches : sys.Reaches (fun _ _ => True) s w) (before after : History) (e : Event Act.Res) (addr : String)
    (split : Pool.own (.request n) w.log = before ++ e :: after) (takes : tries e.act = some addr) :
    GoesElsewhere sys.build.usizeBits before addr := by
  obtain ⟨trace, logged, runs⟩ := Pool.reaches_runs reaches
  have mine : Runs (serve sys.build sys.crates (sys.conn n) (sys.req n)) (before ++ e :: after)
      (w.threads (.request n)) := by
    rw [← split, logged]
    exact runs (.request n)
  obtain ⟨route, earlier, choice, -, same, quiet, run⟩ := Prog.keeps_event serve_picks mine addr takes
  rw [List.nil_append] at same
  subst same
  obtain ⟨-, absent⟩ | ⟨lb, call, picked, rfl, found, chose⟩ := pickUpstream_runs run
  · cases absent
  obtain ⟨u, rfl, rfl⟩ := Option.map_eq_some_iff.mp found.symm
  have filled : lb.upstreams ≠ [] := by
    intro empty
    cases (Selection.nextHealthy_none chose).mpr empty
  obtain ⟨start, reads, rfl, plain⟩ := Selection.nextHealthy_trace filled chose
  have listed : u ∈ lb.upstreams :=
    (Prog.keeps_runs (nextHealthy_keeps lb sys.build.usizeBits (triedIn earlier) []) chose).1 u rfl
  refine ⟨earlier, route.name, lb, start, reads, rfl, plain, List.mem_map.mpr ⟨u, listed, rfl⟩, ?_⟩
  rw [triedIn_append, triedIn_none quiet, List.append_nil]
  rintro unwrapped ⟨other, scheduled, untried, healthy⟩ again
  have chooses := (Selection.nextHealthy_chooses filled unwrapped).mp chose
  have unhealthy := Selection.chooses_excluded chooses (fun chosen chose => Option.some.inj chose ▸ again)
    (List.mem_rotate.mpr scheduled) untried
  cases healthy false unhealthy

/-! ## Two upstreams that refuse the connection -/

/-- One request to a route with two upstreams. -/
def pairSystem : System where
  build := Samples.build
  crates := Samples.unreloaded
  configPath := "torana.toml"
  reloads := 0
  rounds _ := 0
  conn _ := Samples.conn
  req _ := Samples.get Multimap.empty

def pairStore : Store := Samples.store (Samples.config [Attempts.pairRoute]) Table.empty

/-- The health check of the second upstream failed. -/
def secondDown : Store :=
  { pairStore with flags := Table.empty.insert "http://10.0.0.2:80" 0, flagValues := fun _ => false, nextFlag := 1 }

def refusing (steps : Nat) : List (Tid × Outside) :=
  List.replicate steps (.request 0, { Samples.outside with outcome := .failed true })

def secondTry (addr : String) (before : History) (e : Event Act.Res) : Bool :=
  tries e.act = some addr && triedIn before = ["http://10.0.0.1:80"]

/-- Both are healthy, and the retry goes to the second one. -/
theorem retry_elsewhere_pair :
    ∃ w before e after, pairSystem.Reaches (fun _ _ => True) pairStore w ∧
      Pool.own (.request 0) w.log = before ++ e :: after ∧ tries e.act = some "http://10.0.0.2:80" ∧
      triedIn before = ["http://10.0.0.1:80"] ∧ GoesElsewhere 64 before "http://10.0.0.2:80" := by
  obtain ⟨w, reaches, found⟩ := System.reaches_of_run pairSystem (fun _ _ => true) (refusing 10) pairStore
    (fun w => Pool.somewhere (secondTry "http://10.0.0.2:80") [] (Pool.own (.request 0) w.log)) (by decide +kernel)
  obtain ⟨before, e, after, split, passed⟩ := Pool.somewhere_split found
  simp only [secondTry, Bool.and_eq_true, decide_eq_true_eq] at passed
  have reaches := Pool.reaches_mono (fun _ _ _ => trivial) reaches
  exact ⟨w, before, e, after, reaches, split, passed.1, passed.2,
    retry_elsewhere pairSystem pairStore w 0 reaches before after e _ split passed.1⟩

/-- The second one is unhealthy, and the retry goes to the first one again. -/
theorem tried_again :
    ∃ w before e after addr, pairSystem.Reaches (fun _ _ => True) secondDown w ∧
      Pool.own (.request 0) w.log = before ++ e :: after ∧ tries e.act = some addr ∧ addr ∈ triedIn before ∧
      ∃ lb, secondDown.lbCache.get "api" = some lb ∧ ∃ u ∈ lb.upstreams, u.addr ∉ triedIn before := by
  obtain ⟨w, reaches, found⟩ := System.reaches_of_run pairSystem (fun _ _ => true) (refusing 12) secondDown
    (fun w => Pool.somewhere (secondTry "http://10.0.0.1:80") [] (Pool.own (.request 0) w.log)) (by decide +kernel)
  obtain ⟨before, e, after, split, passed⟩ := Pool.somewhere_split found
  simp only [secondTry, Bool.and_eq_true, decide_eq_true_eq, List.nil_append] at passed
  obtain ⟨takes, tried⟩ := passed
  refine ⟨w, before, e, after, _, Pool.reaches_mono (fun _ _ _ => trivial) reaches, split, takes, ?_, ?_⟩
  · rw [tried]
    exact List.mem_cons_self
  · refine ⟨_, rfl, ⟨"http://10.0.0.2:80", 1⟩, ?_, ?_⟩
    · decide +kernel
    · rw [tried]
      decide

end Retries
end Torana
