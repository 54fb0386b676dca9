import Torana.Actions

/-!
Health checks (`health.rs`): the registry's `set`, one probe, the prober tasks,
and the probers of a config. Balancers (`upstream.rs`) read the registry when
they choose an upstream.

A prober runs until it is aborted; its program is any number of rounds of it.
-/
namespace Torana
open Proxy (upstreamHostPort)
open Config (Duration)
open Upstream (UpstreamPool LoadBalancer)
open Prog (Only only_bind only_call_bind)

namespace Health

/-- The flag of an address: look up under the read lock, get or insert under the
    write lock if absent. -/
def flagOf (addr : String) : Program Nat := do
  match ← call (.getFlag addr) with
  | some flag => return flag
  | none => call (.getOrInsertFlag addr)

/-- `HealthRegistry::set`. -/
def set (addr : String) (healthy : Bool) : Program Unit := do
  let flag ← flagOf addr
  let wasHealthy ← call (.swapFlag addr flag healthy)
  if wasHealthy ≠ healthy then call (.logTransition addr healthy)

/-- The status in the head of a response: its second word, or 0. -/
def probeStatus (head : List Char) : Nat :=
  ((Text.splitWhitespace head)[1]?.bind fun word => (Text.parseUint 16 word).toOption).getD 0

/-- One probe: connect, write the request and read once into a buffer of 512 bytes.
    An error on the way and the end of the time are no answer. -/
def probeOnce (addr path : String) (timeout : Duration) : Program Bool :=
  match upstreamHostPort addr with
  | .error _ => return false
  | .ok (host, port) => do
    let request := s!"GET {path} HTTP/1.1\r\nHost: {host}\r\nConnection: close\r\n\r\n"
    match ← call (.exchange timeout host port request) with
    | none => return false
    | some bytes =>
      let status := probeStatus (Text.decodeLossy (bytes.take 512))
      return status ≠ 0 && status < 500

def proberRounds (spec : ProbeSpec) : (rounds : Nat) → Program Unit
  | 0 => return ()
  | rounds + 1 => do
    let healthy ← probeOnce spec.addr spec.path spec.timeout
    set spec.addr healthy
    call (.sleep spec.interval)
    proberRounds spec rounds

/-- The task of `spawn_prober`. -/
def prober (rounds : Nat) : Program Unit := do
  let spec ← call .startProber
  proberRounds spec rounds

/-- The probers of a config: one for every upstream of every route with a health check. -/
def probeSpecs (config : Config) : List ProbeSpec :=
  config.route.flatMap fun route =>
    match route.healthCheck with
    | none => []
    | some hc =>
      let interval := hc.intervalDuration.toOption.getD 10000
      let timeout := hc.timeoutDuration.toOption.getD 2000
      route.upstream.map fun upstream => ⟨upstream.addr, hc.probePath, interval, timeout⟩

def spawnProbers : List ProbeSpec → Program (List Nat)
  | [] => return []
  | spec :: rest => do
    let handle ← call (.spawnProber spec)
    return handle :: (← spawnProbers rest)

def spawnAllProbers (config : Config) : Program (List Nat) := spawnProbers (probeSpecs config)

/-! ## What a prober performs -/

section
variable {allowed : Act → Prop}

theorem set_only {addr : String} {healthy : Bool} (finds : allowed (.getFlag addr))
    (inserts : allowed (.getOrInsertFlag addr)) (swaps : ∀ flag, allowed (.swapFlag addr flag healthy))
    (logs : allowed (.logTransition addr healthy)) : Only allowed (set addr healthy) := by
  unfold set flagOf
  refine only_bind (only_call_bind finds fun flag => ?_) fun flag => only_call_bind (swaps flag) fun before => ?_
  · cases flag with
    | some flag => trivial
    | none => exact ⟨inserts, fun _ => trivial⟩
  · split
    · exact ⟨logs, fun _ => trivial⟩
    · trivial

theorem probeOnce_only {addr path : String} {timeout : Duration}
    (asks : ∀ host port, upstreamHostPort addr = .ok (host, port) → allowed (.exchange timeout host port
      s!"GET {path} HTTP/1.1\r\nHost: {host}\r\nConnection: close\r\n\r\n")) :
    Only allowed (probeOnce addr path timeout) := by
  unfold probeOnce
  split
  · trivial
  · rename_i host port cut
    refine only_call_bind (asks host port cut) fun reply => ?_
    cases reply <;> trivial

theorem proberRounds_only {spec : ProbeSpec} (rounds : Nat)
    (probes : Only allowed (probeOnce spec.addr spec.path spec.timeout))
    (records : ∀ healthy, Only allowed (set spec.addr healthy)) (sleeps : allowed (.sleep spec.interval)) :
    Only allowed (proberRounds spec rounds) := by
  induction rounds with
  | zero => trivial
  | succ rounds ih =>
    exact only_bind probes fun healthy => only_bind (records healthy) fun _ => only_call_bind sleeps fun _ => ih

end

end Health

/-! ## Choosing an upstream -/

namespace Upstream.LoadBalancer

/-- `LoadBalancer::next`. -/
def next (lb : LoadBalancer) (bits : Nat) : Program (Option UpstreamPool) :=
  if lb.upstreams = [] then return none
  else do
    let start ← call (.fetchAdd lb.counter bits)
    return lb.upstreams[start % lb.upstreams.length]?

/-- The candidates of one pass from the counter value `start`; the sum wraps as it
    does in a release build. -/
def candidates (lb : LoadBalancer) (bits start : Nat) : List UpstreamPool :=
  (List.range lb.upstreams.length).filterMap fun i => lb.upstreams[(start + i) % 2 ^ bits % lb.upstreams.length]?

/-- One pass: the first candidate that is not excluded and healthy. -/
def firstHealthy (exclude : List String) : List UpstreamPool → Program (Option UpstreamPool)
  | [] => return none
  | candidate :: rest =>
    if candidate.addr ∈ exclude then firstHealthy exclude rest
    else do
      if ← call (.isHealthy candidate.addr) then return some candidate
      else firstHealthy exclude rest

/-- Skip the excluded upstreams and prefer the healthy ones, then the healthy excluded
    ones, and finally fail open. -/
def nextHealthy (lb : LoadBalancer) (bits : Nat) (exclude : List String) : Program (Option UpstreamPool) :=
  if lb.upstreams = [] then return none
  else do
    let start ← call (.fetchAdd lb.counter bits)
    match ← firstHealthy exclude (lb.candidates bits start) with
    | some candidate => return some candidate
    | none =>
      match ← firstHealthy [] (lb.candidates bits start) with
      | some candidate => return some candidate
      | none => return lb.upstreams[start % lb.upstreams.length]?

end Upstream.LoadBalancer
end Torana
