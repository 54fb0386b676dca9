import Torana.Config

/-!
Load balancers (`upstream.rs`): the weighted schedule that a balancer expands its
upstreams into, and the map of balancers, one entry for each route name.
-/
namespace Torana.Upstream
open Config (RouteConfig)

structure UpstreamPool where
  addr : String
  weight : Nat
  deriving DecidableEq

/-- A balancer: its schedule, and the cell of its atomic counter, which lives in the
    shared state and tells one balancer object from another. -/
structure LoadBalancer where
  upstreams : List UpstreamPool
  counter : Nat
  deriving DecidableEq

/-! ## Greatest common divisor -/

/-- `gcd` with fuel; the second argument shrinks in every call. -/
def gcdFrom : (fuel a b : Nat) → Nat
  | 0, a, _ => a
  | fuel + 1, a, b => if b = 0 then a else gcdFrom fuel b (a % b)

def gcd (a b : Nat) : Nat := gcdFrom (b + 1) a b

theorem gcdFrom_eq {fuel a b : Nat} (enough : b < fuel) : gcdFrom fuel a b = Nat.gcd a b := by
  induction fuel generalizing a b with
  | zero => omega
  | succ fuel ih =>
    rw [gcdFrom]
    by_cases zero : b = 0
    · simp [zero]
    · have smaller : a % b < b := Nat.mod_lt a (by omega)
      rw [if_neg zero, ih (by omega), Nat.gcd_comm b, ← Nat.gcd_rec, Nat.gcd_comm]

theorem gcd_eq (a b : Nat) : gcd a b = Nat.gcd a b := gcdFrom_eq (Nat.lt_succ_self b)

/-- The recursion of the source. -/
theorem gcd_unfold (a b : Nat) : gcd a b = if b = 0 then a else gcd b (a % b) := by
  by_cases zero : b = 0
  · simp [zero, gcd_eq]
  · rw [if_neg zero, gcd_eq, gcd_eq, Nat.gcd_comm b, ← Nat.gcd_rec, Nat.gcd_comm]

/-! ## The schedule -/

/-- The common divisor of the weights, each taken as at least 1. -/
def gcdAll (upstreams : List UpstreamPool) : Nat := (upstreams.map fun u => max u.weight 1).foldl gcd 0

/-- The upstreams with their weights divided by the common divisor. -/
def reduced (upstreams : List UpstreamPool) : List UpstreamPool :=
  upstreams.map fun u => { u with weight := max u.weight 1 / max (gcdAll upstreams) 1 }

/-- Round `i` picks every upstream whose reduced weight exceeds `i`. -/
def expanded (upstreams : List UpstreamPool) : List UpstreamPool :=
  let maxWeight := ((upstreams.map (·.weight)).max?).getD 1
  (List.range maxWeight).flatMap fun i => upstreams.filter fun u => i < u.weight

/-- `LoadBalancer::new`, whose counter is the given cell. -/
def LoadBalancer.new (upstreams : List UpstreamPool) (counter : Nat) : LoadBalancer :=
  ⟨expanded (reduced upstreams), counter⟩

theorem gcdAll_dvd {upstreams : List UpstreamPool} {u : UpstreamPool} (member : u ∈ upstreams) :
    gcdAll upstreams ∣ max u.weight 1 := by
  have general : ∀ (weights : List Nat) (acc : Nat),
      weights.foldl gcd acc ∣ acc ∧ ∀ w ∈ weights, weights.foldl gcd acc ∣ w := by
    intro weights
    induction weights with
    | nil => intro acc; simp
    | cons w rest ih =>
      intro acc
      obtain ⟨divides, others⟩ := ih (gcd acc w)
      rw [gcd_eq] at divides others
      rw [List.foldl_cons, gcd_eq]
      refine ⟨Nat.dvd_trans divides (Nat.gcd_dvd_left acc w), ?_⟩
      intro w' member
      rcases List.mem_cons.mp member with rfl | member
      · exact Nat.dvd_trans divides (Nat.gcd_dvd_right acc w')
      · exact others w' member
  exact (general _ 0).2 _ (List.mem_map.mpr ⟨u, member, rfl⟩)

/-- A reduced weight is at least 1. -/
theorem reduced_weight_pos {upstreams : List UpstreamPool} {u : UpstreamPool} (member : u ∈ reduced upstreams) :
    1 ≤ u.weight := by
  obtain ⟨original, listed, rfl⟩ := List.mem_map.mp member
  have positive : 1 ≤ max original.weight 1 := by omega
  have divisor : max (gcdAll upstreams) 1 ≤ max original.weight 1 := by
    have := Nat.le_of_dvd positive (gcdAll_dvd listed)
    omega
  exact (Nat.one_le_div_iff (by omega)).mpr divisor

theorem reduced_addr (upstreams : List UpstreamPool) :
    (reduced upstreams).map (·.addr) = upstreams.map (·.addr) := by
  simp [reduced]

theorem mem_expanded {upstreams : List UpstreamPool} {u : UpstreamPool} (positive : ∀ u ∈ upstreams, 1 ≤ u.weight) :
    u ∈ expanded upstreams ↔ u ∈ upstreams := by
  simp only [expanded, List.mem_flatMap, List.mem_range, List.mem_filter, decide_eq_true_eq]
  constructor
  · rintro ⟨_, _, member, _⟩
    exact member
  · intro member
    refine ⟨0, ?_, member, positive u member⟩
    cases largest : (upstreams.map (·.weight)).max? with
    | none => simp
    | some w =>
      have bound := (List.max?_eq_some_iff.mp largest).2 u.weight (List.mem_map.mpr ⟨u, member, rfl⟩)
      have := positive u member
      simp only [Option.getD_some]
      omega

/-- The schedule holds exactly the addresses of the upstreams. -/
theorem mem_schedule_addr (upstreams : List UpstreamPool) (counter : Nat) (addr : String) :
    addr ∈ (LoadBalancer.new upstreams counter).upstreams.map (·.addr) ↔ addr ∈ upstreams.map (·.addr) := by
  have positive : ∀ u ∈ reduced upstreams, 1 ≤ u.weight := fun u member => reduced_weight_pos member
  rw [← reduced_addr upstreams]
  simp only [LoadBalancer.new, List.mem_map, mem_expanded positive]

/-! ## The map of balancers -/

/-- The upstreams of a route as balancers take them: the default weight is 100. -/
def routePools (route : RouteConfig) : List UpstreamPool :=
  route.upstream.map fun u => ⟨u.addr, u.weight.getD 100⟩

/-- Build one balancer per route and collect them by name; each takes the next cell
    from `base` on. -/
def buildLbMap (base : Nat) (config : Config) : Table String LoadBalancer :=
  Table.collect (config.route.zipIdx.map fun entry =>
    (entry.1.name, LoadBalancer.new (routePools entry.1) (base + entry.2)))

/-- The addresses that a route lists. -/
def routeAddrs (route : RouteConfig) : List String := route.upstream.map (·.addr)

/-- The last route of a name. -/
def lastNamed (routes : List RouteConfig) (name : String) : Option RouteConfig :=
  routes.reverse.find? fun route => route.name = name

/-- The balancer of a name is the one of the last route of that name. -/
theorem get_buildLbMap (base : Nat) (config : Config) (name : String) :
    ((buildLbMap base config).get name).map (·.upstreams) =
      (lastNamed config.route name).map fun route => (LoadBalancer.new (routePools route) 0).upstreams := by
  have routes : config.route = config.route.zipIdx.map Prod.fst := List.zipIdx_map_fst 0 config.route |>.symm
  rw [buildLbMap, Table.get_collect, lastNamed, ← List.map_reverse, List.find?_map]
  conv_rhs => rw [routes, ← List.map_reverse, List.find?_map]
  simp only [Option.map_map, Function.comp_def]
  rfl

theorem routePools_addr (route : RouteConfig) : (routePools route).map (·.addr) = routeAddrs route := by
  simp [routePools, routeAddrs]

/-- The addresses that the balancer of a name draws from. -/
theorem buildLbMap_addrs {base : Nat} {config : Config} {name : String} {lb : LoadBalancer}
    (found : (buildLbMap base config).get name = some lb) :
    ∃ route, lastNamed config.route name = some route ∧
      ∀ addr, addr ∈ lb.upstreams.map (·.addr) ↔ addr ∈ routeAddrs route := by
  have schedules := get_buildLbMap base config name
  rw [found, Option.map_some] at schedules
  obtain ⟨route, last, same⟩ := Option.map_eq_some_iff.mp schedules.symm
  refine ⟨route, last, fun addr => ?_⟩
  rw [← same, mem_schedule_addr, routePools_addr]

theorem buildLbMap_isSome (base : Nat) (config : Config) (name : String) :
    ((buildLbMap base config).get name).isSome = (lastNamed config.route name).isSome := by
  have schedules := congrArg Option.isSome (get_buildLbMap base config name)
  simpa using schedules

/-- A name that some route has names a last route. -/
theorem lastNamed_isSome {routes : List RouteConfig} {route : RouteConfig} (member : route ∈ routes) :
    ∃ last, lastNamed routes route.name = some last := by
  rw [← Option.isSome_iff_exists, lastNamed, List.find?_isSome]
  exact ⟨route, List.mem_reverse.mpr member, by simp⟩

end Torana.Upstream
