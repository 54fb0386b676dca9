import Torana.Attempts
import Torana.Installing
import Torana.Instrumented

/-!
The metrics of `ProxyEngine::handle` (`metrics.rs`). Each request is counted when it
arrives, its duration is observed when an upstream has answered, and every attempt
that an upstream did not answer is counted as an error. The counters are marks behind
the actions of `handle`: they change nothing that the proxy does, and whenever no
request is under way they agree with what the requests did.
-/
namespace Torana
open Http Proxy
open Config (RouteConfig Build)
open Prog (Runs Keeps keeps_and keeps_bind keeps_call_bind keeps_mono keeps_of_only)
open Pool (own)
open Instrumented (Both annotate erase erase_lift lift marks plainEvent markOf performBoth eraseWorld)

namespace Metering
open Server (Conn)
open Attempts (AnswerOf AtMostOnce Reply outcomeOf outcomes)

/-! ## The metrics -/

/-- What `handle` does with its `Metrics`. -/
inductive Meter where
  | incRequests
  | observeDuration
  | incErrors
  deriving DecidableEq

/-- The counters are 64 bits wide; of the histogram only the observations are kept. -/
structure Metrics where
  httpRequestsTotal : Nat
  httpRequestDurationSeconds : List Nat
  upstreamConnectionErrors : Nat

def Metrics.initial : Metrics := ⟨0, [], 0⟩

/-- The effect of a mark, `elapsed` after the request arrived. -/
def record (elapsed : Nat) : Meter → Metrics → Metrics
  | .incRequests, m => { m with httpRequestsTotal := (m.httpRequestsTotal + 1) % 2 ^ 64 }
  | .observeDuration, m => { m with httpRequestDurationSeconds := m.httpRequestDurationSeconds ++ [elapsed] }
  | .incErrors, m => { m with upstreamConnectionErrors := (m.upstreamConnectionErrors + 1) % 2 ^ 64 }

abbrev Metered (α : Type) := Prog (Act ⊕ Meter) (Both Act.Res Meter) α
abbrev MeteredHistory := List (Event (Both Act.Res Meter))

/-! ## Requests with their metrics -/

/-- What `handle` does with its metrics behind an action: the answer of an upstream is
    observed, and an attempt that ends without one is counted. -/
def metersBehind : (a : Act) → a.Res → List Meter
  | .sendRequest _ _ _, .responded _ => [.observeDuration]
  | .sendRequest _ _ _, .failed _ => [.incErrors]
  | .sendRequest _ _ _, .elapsed => [.incErrors]
  | .failUnsent _ _, _ => [.incErrors]
  | _, _ => []

/-- One request of a connection with its metrics: it is counted before `handle` does anything. -/
def serve (build : Build) (crates : Crates) (conn : Conn) (req : Request Incoming) : Metered Unit :=
  marks [.incRequests] (annotate metersBehind (Server.serve build crates conn req))

/-! ## What the metrics count -/

def marked (m : Meter) (e : Event (Both Act.Res Meter)) : Bool := markOf e = some m

def fails (e : Event Act.Res) : Bool :=
  match outcomeOf e with
  | some (.responded _) | none => false
  | some _ => true

def answers : Event Act.Res → Bool
  | ⟨.respond _, _⟩ => true
  | _ => false

def isStreamed : Response ProxyBody → Bool
  | ⟨_, _, .streamed _⟩ => true
  | _ => false

def relays : Event Act.Res → Bool
  | ⟨.respond resp, _⟩ => isStreamed resp
  | _ => false

/-- An attempt that no upstream answered. -/
def failed (e : Event (Both Act.Res Meter)) : Bool := (plainEvent e).any fails

/-- The answer was sent to the client. -/
def answered (e : Event (Both Act.Res Meter)) : Bool := (plainEvent e).any answers

/-- The answer of an upstream was sent to the client. -/
def relayed (e : Event (Both Act.Res Meter)) : Bool := (plainEvent e).any relays

/-- What the metrics say about a history: every request in it was counted once and
    answered once, every attempt that failed was counted, and every duration belongs
    to an answer that an upstream gave. -/
structure Balanced (past : MeteredHistory) : Prop where
  requests : past.countP (marked .incRequests) = past.countP answered
  errors : past.countP (marked .incErrors) = past.countP failed
  durations : past.countP (marked .observeDuration) = past.countP relayed

/-! ## What a request does -/

/-- An attempt that an upstream answered. -/
def responds (e : Event Act.Res) : Bool :=
  match outcomeOf e with
  | some (.responded _) => true
  | _ => false

def isResponse : Outcome → Bool
  | .responded _ => true
  | _ => false

theorem responds_outcomes (past : History) : past.countP responds = (outcomes past).countP isResponse := by
  rw [outcomes, List.countP_filterMap]
  refine List.countP_congr fun e _ => ?_
  unfold responds
  cases outcomeOf e with
  | none => simp
  | some outcome => cases outcome <;> simp [isResponse]

/-- An upstream answered exactly where its answer is relayed. -/
theorem answerOf_responds {route : RouteConfig} {req : Request Incoming} {past : History} {resp : Response ProxyBody}
    (once : AtMostOnce route req past) (answer : AnswerOf route past resp) :
    past.countP responds = if isStreamed resp then 1 else 0 := by
  rw [responds_outcomes]
  unfold AnswerOf at answer
  rcases List.eq_nil_or_concat (outcomes past) with untried | ⟨earlier, last, split⟩
  · rw [untried] at answer ⊢
    obtain ⟨message, rfl⟩ := answer
    rfl
  · rw [List.concat_eq_append] at split
    have retried := once.retried
    rw [split, List.dropLast_concat] at retried
    have before : earlier.countP isResponse = 0 := by
      rw [List.countP_eq_zero]
      intro outcome member
      rw [retried outcome member]
      decide
    rw [split, List.getLast?_concat] at answer
    rw [split, List.countP_append, before, List.countP_singleton]
    cases last with
    | responded upstream =>
      cases answer
      rfl
    | elapsed =>
      cases answer
      rfl
    | failed isConnect =>
      obtain ⟨message, rfl⟩ := answer
      rfl

section
variable {build : Build} {crates : Crates} {conn : Conn} {req : Request Incoming}

theorem handle_responds :
    Keeps (fun _ _ => True) (fun past resp => past.countP responds = if isStreamed resp then 1 else 0) []
      (Server.handle build crates conn req) := by
  refine keeps_call_bind.mpr ⟨trivial, fun config => ?_⟩
  cases Server.chooseRoute config req.parts with
  | none => exact ⟨trivial, fun _ => rfl⟩
  | some route =>
    have fresh : Attempts.Fresh [⟨.readConfig, config⟩] := ⟨⟨rfl, rfl⟩, rfl⟩
    refine keeps_mono (fun _ _ _ => trivial) ?_ (Attempts.serveRoute_answered fresh)
    rintro past resp ⟨once, reply⟩
    unfold Reply at reply
    split at reply
    · obtain ⟨unattempted, rfl⟩ := reply
      rw [responds_outcomes, unattempted]
      rfl
    · exact answerOf_responds once reply

/-- A request that has ended was answered once, with the answer of an upstream exactly
    where one had answered. -/
theorem serve_answers :
    Keeps (fun _ _ => True) (fun past _ => past.countP answers = 1 ∧ past.countP relays = past.countP responds) []
      (Server.serve build crates conn req) := by
  have quiet : Keeps (fun _ a => Attempts.silent a) (fun _ _ => True) [] (Server.handle build crates conn req) :=
    keeps_of_only Attempts.handle_silent
  have unanswered : Keeps (fun _ _ => True)
      (fun past _ => (past.countP answers = 0 ∧ past.countP relays = 0) ∧ True) []
      (Server.handle build crates conn req) :=
    Prog.keeps_stable _ ?_ (fun _ _ _ _ => trivial) quiet ⟨rfl, rfl⟩
  · refine keeps_bind.mpr (keeps_mono (fun _ _ _ => trivial) ?_ (keeps_and unanswered handle_responds))
    rintro past resp ⟨⟨⟨before, never⟩, -⟩, responded⟩
    refine ⟨trivial, fun _ => ⟨?_, ?_⟩⟩
    · rw [List.countP_append, before]
      rfl
    · rw [List.countP_append, never, List.countP_append, responded, List.countP_singleton, List.countP_singleton]
      exact Nat.zero_add _
  · rintro past a r ⟨before, never⟩ isSilent
    rw [List.countP_append, List.countP_append, before, never]
    cases a <;> first | exact ⟨rfl, rfl⟩ | exact absurd rfl (isSilent _)

/-! ## What its metrics are -/

/-- Behind an action its failure is counted or its answer observed, and no request. -/
theorem metersBehind_each (e : Event Act.Res) : (metersBehind e.act e.answer).count .incRequests = 0 ∧
    (metersBehind e.act e.answer).count .incErrors = (if fails e then 1 else 0) ∧
    (metersBehind e.act e.answer).count .observeDuration = if responds e then 1 else 0 := by
  obtain ⟨a, r⟩ := e
  cases a <;> first | exact ⟨rfl, rfl, rfl⟩ | (cases r <;> exact ⟨rfl, rfl, rfl⟩)

theorem count_metersBehind {m : Meter} {check : Event Act.Res → Bool} {past : History}
    (each : ∀ e, (metersBehind e.act e.answer).count m = if check e then 1 else 0) :
    (past.flatMap fun e => metersBehind e.act e.answer).count m = past.countP check := by
  induction past with
  | nil => rfl
  | cons e rest ih => rw [List.flatMap_cons, List.count_append, each, ih, List.countP_cons, Nat.add_comm]

theorem countP_marked (m : Meter) (past : MeteredHistory) :
    past.countP (marked m) = (past.filterMap markOf).count m := by
  rw [List.count_filterMap]
  refine List.countP_congr fun e _ => ?_
  simp [marked]

/-- A request that has ended is balanced. -/
theorem serve_balanced {past : MeteredHistory} (run : Runs (serve build crates conn req) past (.ret ())) :
    Balanced past := by
  obtain ⟨rest, rfl, ended⟩ := Instrumented.runs_marks run
  obtain ⟨plainly, made⟩ := Instrumented.runs_annotate ended
  have contract : (rest.filterMap plainEvent).countP answers = 1 ∧
      (rest.filterMap plainEvent).countP relays = (rest.filterMap plainEvent).countP responds :=
    Prog.keeps_runs serve_answers plainly
  have behind : ∀ m check, (∀ e, (metersBehind e.act e.answer).count m = if check e then 1 else 0) →
      (rest.filterMap markOf).count m = (rest.filterMap plainEvent).countP check := by
    intro m check each
    rw [made, count_metersBehind each]
  have counts : ∀ m, List.countP (marked m) (⟨.inr .incRequests, ()⟩ :: rest : MeteredHistory) =
      (.incRequests :: rest.filterMap markOf).count m := fun m => countP_marked m _
  have plain : ∀ check : Event Act.Res → Bool,
      List.countP (fun e => (plainEvent e).any check) (⟨.inr .incRequests, ()⟩ :: rest : MeteredHistory) =
        (rest.filterMap plainEvent).countP check := fun check => Instrumented.countP_plain check _
  refine ⟨?_, ?_, ?_⟩
  · have others := behind .incRequests (fun _ => false) fun e => (metersBehind_each e).1
    rw [List.countP_eq_zero.mpr (by simp)] at others
    refine (counts _).trans (Eq.trans ?_ ((plain answers).trans contract.1).symm)
    rw [List.count_cons_self, others]
  · refine (counts _).trans (Eq.trans ?_ (plain fails).symm)
    rw [List.count_cons_of_ne (by decide)]
    exact behind .incErrors fails fun e => (metersBehind_each e).2.1
  · refine (counts _).trans (Eq.trans ?_ ((plain relays).trans contract.2).symm)
    rw [List.count_cons_of_ne (by decide)]
    exact behind .observeDuration responds fun e => (metersBehind_each e).2.2

/-- Without its metrics a request does what it does. -/
theorem erase_serve : erase (serve build crates conn req) = Server.serve build crates conn req := by
  simp [serve]

end

/-! ## The whole proxy with its metrics -/

abbrev MeteredWorld := Pool.World Tid (Both Act.Res Meter) (Store × Metrics)

/-- The tasks of the proxy; only requests keep metrics. -/
def program (sys : System) : Tid → Metered Unit
  | .request n => serve sys.build sys.crates (sys.conn n) (sys.req n)
  | t => lift (sys.program t)

def world (sys : System) (s : Store) : MeteredWorld := ⟨(s, Metrics.initial), program sys, []⟩

/-- A run of the proxy with its metrics, from the given stores and fresh metrics. -/
abbrev Reaches (sys : System) (s : Store) : MeteredWorld → Prop :=
  Pool.Reaches (performBoth (perform sys.crates) record) (fun _ _ => True) (world sys s)

theorem erase_world (sys : System) (s : Store) : eraseWorld (world sys s) = sys.world s := by
  have programs : (fun t => erase (program sys t)) = sys.program := by
    funext t
    cases t with
    | request n => exact erase_serve
    | _ => exact erase_lift _
  show (⟨s, fun t => erase (program sys t), []⟩ : System.World) = ⟨s, sys.program, []⟩
  rw [programs]

/-- The metrics change nothing: the runs of the proxy with its metrics are, without
    them, exactly the runs of the proxy. -/
theorem metering_transparent (sys : System) (s : Store) (v : System.World) :
    sys.Reaches (fun _ _ => True) s v ↔ ∃ w, Reaches sys s w ∧ eraseWorld w = v := by
  constructor
  · intro reaches
    rw [System.Reaches, ← erase_world] at reaches
    have : Nonempty Nat := ⟨0⟩
    exact Instrumented.reaches_lift reaches
  · rintro ⟨w, reaches, rfl⟩
    have plainly := Instrumented.reaches_erase reaches
    rwa [erase_world] at plainly

section
variable {sys : System} {s : Store} {w : MeteredWorld}

/-- The metrics are what the marks so far come to. -/
theorem reaches_recorded (reaches : Reaches sys s w) :
    w.state.2.httpRequestsTotal = w.log.countP (fun e => marked .incRequests e.2) % 2 ^ 64 ∧
      w.state.2.upstreamConnectionErrors = w.log.countP (fun e => marked .incErrors e.2) % 2 ^ 64 ∧
      w.state.2.httpRequestDurationSeconds.length = w.log.countP fun e => marked .observeDuration e.2 := by
  refine Pool.reaches_invariant (fun w : MeteredWorld =>
    w.state.2.httpRequestsTotal = w.log.countP (fun e => marked .incRequests e.2) % 2 ^ 64 ∧
      w.state.2.upstreamConnectionErrors = w.log.countP (fun e => marked .incErrors e.2) % 2 ^ 64 ∧
      w.state.2.httpRequestDurationSeconds.length = w.log.countP fun e => marked .observeDuration e.2)
    ⟨rfl, rfl, rfl⟩ ?_ reaches
  rintro ⟨o, x⟩ t w₁ w₂ _ ⟨requests, errors, durations⟩ _ taken
  obtain ⟨a, next, r, ⟨s', m'⟩, _, done, rfl⟩ := Pool.step_cases taken
  simp only [List.countP_append, List.countP_singleton]
  cases a with
  | inl a =>
    obtain ⟨done', _, same⟩ := Option.map_eq_some_iff.mp done
    cases same
    exact ⟨requests, errors, durations⟩
  | inr m =>
    cases done
    cases m with
    | incRequests =>
      refine ⟨?_, errors, durations⟩
      show (w₁.state.2.httpRequestsTotal + 1) % 2 ^ 64 = (_ + 1) % 2 ^ 64
      rw [requests, Nat.mod_add_mod]
    | incErrors =>
      refine ⟨requests, ?_, durations⟩
      show (w₁.state.2.upstreamConnectionErrors + 1) % 2 ^ 64 = (_ + 1) % 2 ^ 64
      rw [errors, Nat.mod_add_mod]
    | observeDuration =>
      refine ⟨requests, errors, ?_⟩
      show (w₁.state.2.httpRequestDurationSeconds ++ [x]).length = _ + 1
      rw [List.length_append, durations]
      rfl

/-- What a task without metrics does no counter is about. -/
theorem uncounted_balanced {past : MeteredHistory} (only : ∀ e ∈ past, ∃ a r, e = ⟨.inl a, r⟩ ∧ a.role ≠ .request) :
    Balanced past := by
  have zero : ∀ check : Event (Both Act.Res Meter) → Bool,
      (∀ a r, a.role ≠ .request → check ⟨.inl a, r⟩ = false) → past.countP check = 0 := by
    intro check unseen
    rw [List.countP_eq_zero]
    intro e member
    obtain ⟨a, r, rfl, other⟩ := only e member
    simp [unseen a r other]
  have unmarked : ∀ m (a : Act) (r : a.Res), a.role ≠ .request → marked m ⟨.inl a, r⟩ = false := fun _ _ _ _ => rfl
  have silent : ∀ (a : Act) (r : a.Res), a.role ≠ .request →
      failed ⟨.inl a, r⟩ = false ∧ answered ⟨.inl a, r⟩ = false ∧ relayed ⟨.inl a, r⟩ = false := by
    intro a r other
    cases a <;> first | exact ⟨rfl, rfl, rfl⟩ | exact absurd rfl other
  refine ⟨?_, ?_, ?_⟩
  · rw [zero _ (unmarked _), zero _ fun a r other => (silent a r other).2.1]
  · rw [zero _ (unmarked _), zero _ fun a r other => (silent a r other).1]
  · rw [zero _ (unmarked _), zero _ fun a r other => (silent a r other).2.2]

/-- Where no request is under way every task is balanced. -/
theorem own_balanced (reaches : Reaches sys s w)
    (quiet : ∀ n, w.threads (.request n) = .ret () ∨ own (.request n) w.log = []) (t : Tid) : Balanced (own t w.log) := by
  obtain ⟨trace, logged, runs⟩ := Pool.reaches_runs reaches
  have same : own t w.log = own t trace := by
    rw [logged]
    rfl
  by_cases request : ∃ n, t = .request n
  · obtain ⟨n, rfl⟩ := request
    rcases quiet n with ended | empty
    · have run := runs (.request n)
      rw [ended] at run
      rw [same]
      exact serve_balanced run
    · rw [empty]
      exact ⟨rfl, rfl, rfl⟩
  · refine uncounted_balanced fun e member => ?_
    have lifted : (world sys s).threads t = lift (sys.program t) := by
      cases t <;> first | rfl | exact absurd ⟨_, rfl⟩ request
    have run := runs t
    rw [lifted] at run
    rw [same] at member
    obtain ⟨a, r, shape, role⟩ := Instrumented.runs_lift (Installing.program_only sys t) run e member
    refine ⟨a, r, shape, ?_⟩
    rw [role]
    cases t <;> first | exact absurd ⟨_, rfl⟩ request | exact nofun

/-- Whenever every request has been answered or has not begun, whatever reloads and
    probers did in between, the counters are the number of answers sent and of attempts
    that no upstream answered, and the histogram has one observation for each upstream's
    answer. -/
theorem metrics_exact (sys : System) (s : Store) (w : MeteredWorld) (reaches : Reaches sys s w)
    (quiet : ∀ n, w.threads (.request n) = .ret () ∨ own (.request n) w.log = []) :
    w.state.2.httpRequestsTotal = w.log.countP (fun e => answered e.2) % 2 ^ 64 ∧
      w.state.2.upstreamConnectionErrors = w.log.countP (fun e => failed e.2) % 2 ^ 64 ∧
      w.state.2.httpRequestDurationSeconds.length = w.log.countP fun e => relayed e.2 := by
  obtain ⟨requests, errors, durations⟩ := reaches_recorded reaches
  have balanced := own_balanced reaches quiet
  refine ⟨requests.trans ?_, errors.trans ?_, durations.trans ?_⟩
  · rw [Instrumented.countP_own fun t => (balanced t).requests]
  · rw [Instrumented.countP_own fun t => (balanced t).errors]
  · exact Instrumented.countP_own fun t => (balanced t).durations

end

/-! ## A request that is retried -/

/-- One request to a route with two upstreams. -/
def pair : System where
  build := Samples.build
  crates := Samples.unreloaded
  configPath := "torana.toml"
  reloads := 0
  rounds _ := 0
  conn _ := Samples.conn
  req _ := Samples.get Multimap.empty

def pairStore : Store := Samples.store (Samples.config [Attempts.pairRoute]) Table.empty

/-- The first upstream cannot be connected to, the second answers after 7 ms. -/
def failingOver : List (Tid × (Outside × Nat)) :=
  List.replicate 8 (.request 0, { Samples.outside with outcome := .failed true }, 0) ++
    List.replicate 6 (.request 0, Samples.outside, 7)

def ended (w : MeteredWorld) (t : Tid) : Bool :=
  match w.threads t with
  | .ret _ => true
  | _ => false

theorem metrics_exact_failingOver :
    ∃ w, Reaches pair pairStore w ∧ w.log.countP (fun e => failed e.2) = 1 ∧
      w.state.2.upstreamConnectionErrors = 1 ∧
      w.state.2.httpRequestsTotal = w.log.countP (fun e => answered e.2) % 2 ^ 64 := by
  obtain ⟨w, ran, shown⟩ := (Option.any_eq_true _ _).mp (show (Pool.run (performBoth (perform pair.crates) record)
    (fun _ _ => true) failingOver (world pair pairStore)).any (fun w => ended w (.request 0) &&
      w.log.all (fun e => e.1 = .request 0) && w.log.countP (fun e => failed e.2) = 1) = true by decide +kernel)
  simp only [Bool.and_eq_true, decide_eq_true_eq, List.all_eq_true] at shown
  obtain ⟨⟨done, single⟩, one⟩ := shown
  have reaches : Reaches pair pairStore w := Pool.run_reaches (fun _ _ _ => trivial) ran
  have quiet : ∀ n, w.threads (.request n) = .ret () ∨ own (.request n) w.log = [] := by
    intro n
    by_cases zero : n = 0
    · left
      subst zero
      unfold ended at done
      split at done
      · rename_i head
        exact head
      · cases done
    · right
      rw [own, List.filterMap_eq_nil_iff]
      intro e member
      rw [single e member]
      simp [Ne.symm zero]
  obtain ⟨requests, errors, _⟩ := metrics_exact pair pairStore w reaches quiet
  refine ⟨w, reaches, one, ?_, requests⟩
  rw [errors, one]
  rfl

end Metering
end Torana
