import Torana.Schedule

/-!
What `next_healthy` returns, as a relation between the order in which a balancer
visits its schedule, the answers of the registry in one call, and the choice. The
registry may change between any two of these reads.
-/
namespace Torana.Selection
open Upstream (LoadBalancer UpstreamPool)
open Prog (Runs runs_bind runs_ret)

/-! ## One pass -/

/-- A candidate that was read, with the answer. -/
def read (healthy : Bool) (candidate : UpstreamPool) : Event Act.Res := ⟨.isHealthy candidate.addr, healthy⟩

/-- The reads of a pass that nothing ended. -/
def refused (candidates : List UpstreamPool) : History := candidates.map (read false)

/-- The candidates of a pass. -/
def admitted (exclude : List String) (order : List UpstreamPool) : List UpstreamPool :=
  order.filter fun u => u.addr ∉ exclude

/-- A pass reads its candidates in order and ends with the first one that it reads healthy. -/
inductive Pass (candidates : List UpstreamPool) : History → Option UpstreamPool → Prop where
  | found (before : List UpstreamPool) (u : UpstreamPool) (after : List UpstreamPool)
      (split : candidates = before ++ u :: after) : Pass candidates (refused before ++ [read true u]) (some u)
  | exhausted : Pass candidates (refused candidates) none

theorem pass_cons {u : UpstreamPool} {rest : List UpstreamPool} {reads : History} {choice : Option UpstreamPool}
    (pass : Pass rest reads choice) : Pass (u :: rest) (read false u :: reads) choice := by
  cases pass with
  | found before u' after split => exact .found (u :: before) u' after (by rw [split]; rfl)
  | exhausted => exact .exhausted

theorem pass_cases {u : UpstreamPool} {rest : List UpstreamPool} {reads : History} {choice : Option UpstreamPool}
    (pass : Pass (u :: rest) reads choice) :
    (reads = [read true u] ∧ choice = some u) ∨
      ∃ others, reads = read false u :: others ∧ Pass rest others choice := by
  cases pass with
  | found before u' after split =>
    cases before with
    | nil =>
      cases split
      exact .inl ⟨rfl, rfl⟩
    | cons first before =>
      cases split
      exact .inr ⟨_, rfl, .found before u' after rfl⟩
  | exhausted => exact .inr ⟨_, rfl, .exhausted⟩

/-- The loop of the source makes one pass over the candidates that are not excluded. -/
theorem firstHealthy_runs (exclude : List String) (order : List UpstreamPool) {trace : History}
    {choice : Option UpstreamPool} :
    Runs (LoadBalancer.firstHealthy exclude order) trace (.ret choice) ↔ Pass (admitted exclude order) trace choice := by
  induction order generalizing trace with
  | nil =>
    rw [LoadBalancer.firstHealthy, Prog.pure_eq, runs_ret]
    constructor
    · rintro ⟨rfl, same⟩
      cases same
      exact .exhausted
    · intro pass
      cases pass with
      | found before u after split => simp [admitted] at split
      | exhausted => exact ⟨rfl, rfl⟩
  | cons u rest ih =>
    rw [LoadBalancer.firstHealthy]
    by_cases excluded : u.addr ∈ exclude
    · rw [if_pos excluded, ih]
      simp [admitted, excluded]
    · have here : admitted exclude (u :: rest) = u :: admitted exclude rest := by simp [admitted, excluded]
      rw [if_neg excluded, here, call, Prog.call_bind]
      constructor
      · intro run
        obtain ⟨-, ends⟩ | ⟨healthy, others, rfl, later⟩ := Prog.runs_act run
        · cases ends
        · cases healthy with
          | true =>
            obtain ⟨rfl, same⟩ := runs_ret.mp later
            cases same
            exact .found [] u _ rfl
          | false => exact pass_cons (ih.mp later)
      · intro pass
        obtain ⟨rfl, rfl⟩ | ⟨others, rfl, behind⟩ := pass_cases pass
        · rw [read, Prog.runs_cons]
          exact .nil _
        · rw [read, Prog.runs_cons]
          exact ih.mpr behind

/-! ## The choice -/

/-- The choice from an order of upstreams: the first pass leaves out the excluded ones,
    the second one does not, and after both the first upstream is taken as it is. -/
inductive Chooses (exclude : List String) (order : List UpstreamPool) : History → Option UpstreamPool → Prop where
  | preferred {reads : History} {u : UpstreamPool} (first : Pass (admitted exclude order) reads (some u)) :
      Chooses exclude order reads (some u)
  | repeated {reads : History} {u : UpstreamPool} (second : Pass order reads (some u)) :
      Chooses exclude order (refused (admitted exclude order) ++ reads) (some u)
  | failOpen : Chooses exclude order (refused (admitted exclude order) ++ refused order) order.head?

theorem pass_none {candidates : List UpstreamPool} {reads : History} (pass : Pass candidates reads none) :
    reads = refused candidates := by
  cases pass
  rfl

theorem admitted_nil (order : List UpstreamPool) : admitted [] order = order := by simp [admitted]

/-- What was read tells how the choice was made. -/
theorem chooses_iff {exclude : List String} {order : List UpstreamPool} {reads : History}
    {choice : Option UpstreamPool} :
    Chooses exclude order reads choice ↔ ∃ first second picked, reads = first ++ second ∧
      Pass (admitted exclude order) first picked ∧
      match picked with
      | some u => second = [] ∧ choice = some u
      | none => ∃ again, Pass order second again ∧ choice = again.or order.head? := by
  constructor
  · rintro (first | second | _)
    · exact ⟨_, [], _, by simp, first, rfl, rfl⟩
    · exact ⟨_, _, none, rfl, .exhausted, _, second, rfl⟩
    · exact ⟨_, _, none, rfl, .exhausted, none, .exhausted, rfl⟩
  · rintro ⟨first, second, picked, rfl, pass, later⟩
    cases picked with
    | some u =>
      obtain ⟨rfl, rfl⟩ := later
      rw [List.append_nil]
      exact .preferred pass
    | none =>
      obtain ⟨again, behind, rfl⟩ := later
      rw [pass_none pass]
      cases again with
      | some u => exact .repeated behind
      | none =>
        rw [pass_none behind]
        exact .failOpen

/-! ## The order of one call -/

section
variable {lb : LoadBalancer} {bits start : Nat}

/-- Where the sums of a pass do not wrap, or wrap to the slot that is next anyway, a call
    visits the schedule cyclically from its counter value on. -/
theorem candidates_eq_rotate
    (unwrapped : start + lb.upstreams.length ≤ 2 ^ bits ∨ lb.upstreams.length ∣ 2 ^ bits) :
    lb.candidates bits start = lb.upstreams.rotate start := by
  have cyclic := Rotation.map_range_getElem? lb.upstreams start
  have same : (List.range lb.upstreams.length).map (fun i => lb.upstreams[(start + i) % 2 ^ bits % lb.upstreams.length]?) =
      (List.range lb.upstreams.length).map fun i => lb.upstreams[(start + i) % lb.upstreams.length]? := by
    refine List.map_congr_left fun i inside => ?_
    have inside := List.mem_range.mp inside
    rcases unwrapped with fits | divides
    · rw [Nat.mod_eq_of_lt (by omega : start + i < 2 ^ bits)]
    · rw [Nat.mod_mod_of_dvd _ divides]
  have all : lb.candidates bits start = ((List.range lb.upstreams.length).map fun i =>
      lb.upstreams[(start + i) % 2 ^ bits % lb.upstreams.length]?).filterMap id := by
    rw [List.filterMap_map]
    rfl
  rw [all, same, cyclic, List.filterMap_map]
  exact List.filterMap_some

theorem head?_rotate (nonempty : lb.upstreams ≠ []) (start : Nat) :
    (lb.upstreams.rotate start).head? = lb.upstreams[start % lb.upstreams.length]? := by
  rw [← List.rotate_mod, List.head?_rotate (Nat.mod_lt _ (List.length_pos_iff.mpr nonempty))]

/-- A call draws one counter value and chooses from the candidates that it selects. -/
theorem nextHealthy_runs (nonempty : lb.upstreams ≠ []) {exclude : List String} {trace : History}
    {choice : Option UpstreamPool} :
    Runs (lb.nextHealthy bits exclude) trace (.ret choice) ↔
      ∃ start first second picked, trace = ⟨.fetchAdd lb.counter bits, start⟩ :: (first ++ second) ∧
        Pass (admitted exclude (lb.candidates bits start)) first picked ∧
        match picked with
        | some u => second = [] ∧ choice = some u
        | none => ∃ again, Pass (lb.candidates bits start) second again ∧
            choice = again.or lb.upstreams[start % lb.upstreams.length]? := by
  rw [LoadBalancer.nextHealthy, if_neg nonempty, call, Prog.call_bind]
  constructor
  · intro run
    obtain ⟨-, ends⟩ | ⟨start, rest, rfl, later⟩ := Prog.runs_act run
    · cases ends
    · obtain ⟨first, second, picked, rfl, pass, behind⟩ := runs_bind.mp later
      refine ⟨start, first, second, picked, rfl, (firstHealthy_runs exclude _).mp pass, ?_⟩
      cases picked with
      | some u =>
        obtain ⟨rfl, same⟩ := runs_ret.mp behind
        cases same
        exact ⟨rfl, rfl⟩
      | none =>
        obtain ⟨reads, unfound, again, rfl, pass, ends⟩ := runs_bind.mp behind
        refine ⟨again, ?_, ?_⟩
        · cases again <;> obtain ⟨rfl, -⟩ := runs_ret.mp ends <;>
            simpa [admitted_nil] using (firstHealthy_runs [] _).mp pass
        · cases again <;> obtain ⟨-, same⟩ := runs_ret.mp ends <;> cases same <;> rfl
  · rintro ⟨start, first, second, picked, rfl, pass, later⟩
    refine .cons start (runs_bind.mpr ⟨first, second, picked, rfl, (firstHealthy_runs exclude _).mpr pass, ?_⟩)
    cases picked with
    | some u =>
      obtain ⟨rfl, rfl⟩ := later
      exact .nil _
    | none =>
      obtain ⟨again, behind, rfl⟩ := later
      refine runs_bind.mpr ⟨second, [], again, by simp, ?_, ?_⟩
      · rw [firstHealthy_runs, admitted_nil]
        exact behind
      · cases again <;> exact .nil _

/-- The call chooses from the schedule in cyclic order. -/
theorem nextHealthy_chooses (nonempty : lb.upstreams ≠ []) {exclude : List String} {reads : History}
    {choice : Option UpstreamPool}
    (unwrapped : start + lb.upstreams.length ≤ 2 ^ bits ∨ lb.upstreams.length ∣ 2 ^ bits) :
    Runs (lb.nextHealthy bits exclude) (⟨.fetchAdd lb.counter bits, start⟩ :: reads) (.ret choice) ↔
      Chooses exclude (lb.upstreams.rotate start) reads choice := by
  rw [nextHealthy_runs nonempty, chooses_iff]
  constructor
  · rintro ⟨start', first, second, picked, same, pass, later⟩
    cases same
    rw [candidates_eq_rotate unwrapped] at pass later
    rw [head?_rotate nonempty]
    exact ⟨first, second, picked, rfl, pass, later⟩
  · rintro ⟨first, second, picked, rfl, pass, later⟩
    rw [head?_rotate nonempty] at later
    refine ⟨start, first, second, picked, rfl, ?_⟩
    rw [candidates_eq_rotate unwrapped]
    exact ⟨pass, later⟩

end

/-! ## What the choice guarantees -/

section
variable {exclude : List String} {order : List UpstreamPool} {reads : History} {choice : Option UpstreamPool}

theorem pass_mem {candidates : List UpstreamPool} {u : UpstreamPool} (pass : Pass candidates reads (some u)) :
    u ∈ candidates := by
  cases pass with
  | found before u after split => simp [split]

theorem mem_admitted {u : UpstreamPool} : u ∈ admitted exclude order ↔ u ∈ order ∧ u.addr ∉ exclude := by
  simp [admitted]

/-- When the choice is excluded, every upstream that is not was read unhealthy. -/
theorem chooses_excluded (chooses : Chooses exclude order reads choice)
    (excluded : ∀ chosen, choice = some chosen → chosen.addr ∈ exclude) {u : UpstreamPool} (listed : u ∈ order)
    (allowed : u.addr ∉ exclude) : read false u ∈ reads := by
  have candidate : u ∈ admitted exclude order := mem_admitted.mpr ⟨listed, allowed⟩
  cases chooses with
  | preferred first => exact absurd (excluded _ rfl) (mem_admitted.mp (pass_mem first)).2
  | repeated second => exact List.mem_append_left _ (List.mem_map.mpr ⟨u, candidate, rfl⟩)
  | failOpen => exact List.mem_append_left _ (List.mem_map.mpr ⟨u, candidate, rfl⟩)

/-- When every read is healthy and nothing is excluded, the first upstream is chosen. -/
theorem chooses_head (chooses : Chooses [] order reads choice) (nonempty : order ≠ [])
    (healthy : ∀ u, read false u ∉ reads) : choice = order.head? := by
  obtain ⟨first, rest, rfl⟩ := List.exists_cons_of_ne_nil nonempty
  have unread : ∀ more, reads ≠ refused (first :: rest) ++ more := by
    rintro more rfl
    exact healthy first (List.mem_append_left _ List.mem_cons_self)
  cases chooses with
  | preferred pass =>
    rw [admitted_nil] at pass
    obtain ⟨-, same⟩ | ⟨others, rfl, -⟩ := pass_cases pass
    · exact same
    · exact absurd List.mem_cons_self (healthy first)
  | repeated second =>
    rw [admitted_nil] at unread
    exact absurd rfl (unread _)
  | failOpen => rfl

theorem pass_reads {candidates : List UpstreamPool} (pass : Pass candidates reads choice) :
    ∀ e ∈ reads, ∃ addr healthy, e = ⟨.isHealthy addr, healthy⟩ := by
  have plain : ∀ candidates, ∀ e ∈ refused candidates, ∃ addr healthy, e = ⟨.isHealthy addr, healthy⟩ := by
    intro candidates e member
    obtain ⟨u, -, rfl⟩ := List.mem_map.mp member
    exact ⟨u.addr, false, rfl⟩
  cases pass with
  | found before u after split =>
    intro e member
    rcases List.mem_append.mp member with earlier | last
    · exact plain before e earlier
    · obtain rfl := List.mem_singleton.mp last
      exact ⟨u.addr, true, rfl⟩
  | exhausted => exact plain candidates

end

/-! ## A registry that does not change -/

/-- Every read is answered as the registry says. -/
def ReadBy (health : String → Bool) (reads : History) : Prop :=
  ∀ addr healthy, ⟨.isHealthy addr, healthy⟩ ∈ reads → healthy = health addr

section
variable {health : String → Bool} {exclude : List String} {order : List UpstreamPool} {reads : History}
  {choice : Option UpstreamPool}

theorem readBy_append {first second : History} :
    ReadBy health (first ++ second) ↔ ReadBy health first ∧ ReadBy health second := by
  constructor
  · intro both
    exact ⟨fun addr healthy member => both addr healthy (List.mem_append_left _ member),
      fun addr healthy member => both addr healthy (List.mem_append_right _ member)⟩
  · rintro ⟨left, right⟩ addr healthy member
    exact (List.mem_append.mp member).elim (left addr healthy) (right addr healthy)

theorem readBy_read {u : UpstreamPool} (healthy : Bool) : ReadBy health [read healthy u] ↔ healthy = health u.addr := by
  constructor
  · intro stable
    exact stable u.addr healthy List.mem_cons_self
  · rintro rfl addr healthy member
    cases List.mem_singleton.mp member
    rfl

theorem readBy_refused {candidates : List UpstreamPool} :
    ReadBy health (refused candidates) ↔ ∀ u ∈ candidates, health u.addr = false := by
  constructor
  · intro stable u member
    exact (stable u.addr false (List.mem_map.mpr ⟨u, member, rfl⟩)).symm
  · intro unhealthy addr healthy member
    obtain ⟨u, listed, same⟩ := List.mem_map.mp member
    cases same
    exact (unhealthy u listed).symm

theorem pass_stable {candidates : List UpstreamPool} (stable : ReadBy health reads) (pass : Pass candidates reads choice) :
    choice = candidates.find? fun u => health u.addr := by
  cases pass with
  | found before u after split =>
    obtain ⟨unhealthy, healthy⟩ := readBy_append.mp stable
    symm
    refine List.find?_eq_some_iff_append.mpr ⟨((readBy_read true).mp healthy).symm, before, after, split, ?_⟩
    intro a member
    simp [readBy_refused.mp unhealthy a member]
  | exhausted =>
    symm
    refine List.find?_eq_none.mpr fun u member => ?_
    simp [readBy_refused.mp stable u member]

theorem pass_exists (health : String → Bool) (candidates : List UpstreamPool) :
    ∃ reads, ReadBy health reads ∧ Pass candidates reads (candidates.find? fun u => health u.addr) := by
  cases found : candidates.find? fun u => health u.addr with
  | none =>
    refine ⟨refused candidates, readBy_refused.mpr fun u member => ?_, .exhausted⟩
    simpa using List.find?_eq_none.mp found u member
  | some u =>
    obtain ⟨healthy, before, after, split, unhealthy⟩ := List.find?_eq_some_iff_append.mp found
    refine ⟨refused before ++ [read true u], readBy_append.mpr ⟨readBy_refused.mpr fun a member => ?_, ?_⟩,
      .found before u after split⟩
    · simpa using unhealthy a member
    · exact (readBy_read true).mpr healthy.symm

/-- The choice under a registry that does not change: the first healthy upstream that is
    not excluded, then the first healthy one, then the first one. -/
theorem chooses_stable (stable : ReadBy health reads) (chooses : Chooses exclude order reads choice) :
    choice = ((admitted exclude order).find? fun u => health u.addr).or
      ((order.find? fun u => health u.addr).or order.head?) := by
  obtain ⟨first, second, picked, rfl, pass, later⟩ := chooses_iff.mp chooses
  obtain ⟨left, right⟩ := readBy_append.mp stable
  rw [← pass_stable left pass]
  cases picked with
  | some u => exact later.2
  | none =>
    obtain ⟨again, behind, rfl⟩ := later
    rw [← pass_stable right behind]
    rfl

/-- Some reads are answered so. -/
theorem chooses_exists (health : String → Bool) (exclude : List String) (order : List UpstreamPool) :
    ∃ reads choice, ReadBy health reads ∧ Chooses exclude order reads choice := by
  obtain ⟨first, left, pass⟩ := pass_exists health (admitted exclude order)
  obtain ⟨second, right, again⟩ := pass_exists health order
  cases picked : (admitted exclude order).find? fun u => health u.addr with
  | some u =>
    rw [picked] at pass
    exact ⟨first, _, left, .preferred pass⟩
  | none =>
    rw [picked] at pass
    exact ⟨first ++ second, _, readBy_append.mpr ⟨left, right⟩,
      chooses_iff.mpr ⟨first, second, none, rfl, pass, _, again, rfl⟩⟩

end

/-! ## One call -/

section
variable {lb : LoadBalancer} {bits : Nat} {exclude : List String}

/-- A call draws one counter value, and all else that it does is to read the registry. -/
theorem nextHealthy_trace (nonempty : lb.upstreams ≠ []) {trace : History} {choice : Option UpstreamPool}
    (run : Runs (lb.nextHealthy bits exclude) trace (.ret choice)) :
    ∃ start reads, trace = ⟨.fetchAdd lb.counter bits, start⟩ :: reads ∧
      ∀ e ∈ reads, ∃ addr healthy, e = ⟨.isHealthy addr, healthy⟩ := by
  obtain ⟨start, first, second, picked, rfl, pass, later⟩ := (nextHealthy_runs nonempty).mp run
  refine ⟨start, _, rfl, fun e member => ?_⟩
  rcases List.mem_append.mp member with here | behind
  · exact pass_reads pass e here
  · cases picked with
    | some u =>
      rw [later.1] at behind
      cases behind
    | none =>
      obtain ⟨again, pass, -⟩ := later
      exact pass_reads pass e behind

/-- A call returns nothing only for an empty schedule. -/
theorem nextHealthy_none {trace : History} {choice : Option UpstreamPool}
    (run : Runs (lb.nextHealthy bits exclude) trace (.ret choice)) : choice = none ↔ lb.upstreams = [] := by
  constructor
  · intro missing
    have kept := Prog.keeps_runs (Handling.nextHealthy_keeps lb bits exclude []) run
    exact kept.2 missing
  · intro empty
    rw [LoadBalancer.nextHealthy, if_pos empty] at run
    obtain ⟨-, same⟩ := runs_ret.mp run
    cases same
    rfl

end

/-- Every call on a schedule that is not empty draws one counter value, which advances the
    counter by one, reads the registry and returns an upstream. Where the sums fit the
    counter, it is the first one in cyclic order from that value on that is not excluded
    and healthy when it is read; if there is none, the first one that is healthy when it
    is read again; and else the one at the value itself. So an upstream that is not
    excluded and healthy throughout keeps the excluded ones from being returned, and
    without any that is unhealthy or excluded the call returns what `next` returns. -/
theorem nextHealthy_exact (lb : LoadBalancer) (bits : Nat) (exclude : List String) :
    (∀ trace choice, Runs (lb.nextHealthy bits exclude) trace (.ret choice) →
      (choice = none ↔ lb.upstreams = []) ∧
      (lb.upstreams ≠ [] → ∃ start reads, trace = ⟨.fetchAdd lb.counter bits, start⟩ :: reads ∧
        ∀ e ∈ reads, ∃ addr healthy, e = ⟨.isHealthy addr, healthy⟩)) ∧
    (∀ crates o t s s' start, perform crates o t (.fetchAdd lb.counter bits) s = some (start, s') →
      start = s.counters lb.counter ∧ s'.counters lb.counter = (start + 1) % 2 ^ bits) ∧
    ∀ start reads choice, lb.upstreams ≠ [] → start + lb.upstreams.length ≤ 2 ^ bits →
      (lb.upstreams.rotate start).head? = lb.upstreams[start % lb.upstreams.length]? ∧
      (Runs (lb.nextHealthy bits exclude) (⟨.fetchAdd lb.counter bits, start⟩ :: reads) (.ret choice) ↔
        Chooses exclude (lb.upstreams.rotate start) reads choice) ∧
      (Chooses exclude (lb.upstreams.rotate start) reads choice →
        (∀ u ∈ lb.upstreams, u.addr ∉ exclude →
          (∀ healthy, ⟨.isHealthy u.addr, healthy⟩ ∈ reads → healthy = true) →
          ∃ chosen, choice = some chosen ∧ chosen.addr ∉ exclude) ∧
        (exclude = [] → (∀ addr healthy, ⟨.isHealthy addr, healthy⟩ ∈ reads → healthy = true) →
          Runs (lb.next bits) [⟨.fetchAdd lb.counter bits, start⟩] (.ret choice))) := by
  refine ⟨fun trace choice run => ⟨nextHealthy_none run, fun nonempty => nextHealthy_trace nonempty run⟩,
    fun crates o t s s' start done => Counter.perform_fetchAdd done, fun start reads choice nonempty fits => ?_⟩
  refine ⟨head?_rotate nonempty start, nextHealthy_chooses nonempty (.inl fits), fun chooses => ⟨?_, ?_⟩⟩
  · intro u listed allowed healthy
    by_contra none
    refine absurd (healthy false (chooses_excluded chooses (fun chosen same => ?_) (List.mem_rotate.mpr listed) allowed))
      (by simp)
    by_contra included
    exact none ⟨chosen, same, included⟩
  · rintro rfl healthy
    have rotated : lb.upstreams.rotate start ≠ [] := by rwa [Ne, List.rotate_eq_nil_iff]
    have head := chooses_head chooses rotated fun u unhealthy => absurd (healthy u.addr false unhealthy) (by simp)
    exact (Schedule.next_runs nonempty).mpr ⟨start, rfl, head.trans (head?_rotate nonempty start)⟩

/-! ## An upstream that comes back between two reads -/

def pair : LoadBalancer := LoadBalancer.new [⟨"http://10.0.0.1:80", 1⟩, ⟨"http://10.0.0.2:80", 1⟩] 0

/-- The second upstream is down in the first pass, which leaves out the first one, and up
    in the second pass. -/
theorem nextHealthy_exact_flapping :
    Runs (pair.nextHealthy 64 ["http://10.0.0.1:80"])
      [⟨.fetchAdd 0 64, 7⟩, ⟨.isHealthy "http://10.0.0.2:80", false⟩, ⟨.isHealthy "http://10.0.0.2:80", true⟩]
      (.ret (some ⟨"http://10.0.0.2:80", 1⟩)) := by
  obtain ⟨-, -, exact⟩ := nextHealthy_exact pair 64 ["http://10.0.0.1:80"]
  obtain ⟨-, runs, -⟩ := exact 7 [read false ⟨"http://10.0.0.2:80", 1⟩, read true ⟨"http://10.0.0.2:80", 1⟩]
    (some ⟨"http://10.0.0.2:80", 1⟩) (by decide) (by decide)
  refine runs.mpr (chooses_iff.mpr ⟨[read false ⟨"http://10.0.0.2:80", 1⟩], [read true ⟨"http://10.0.0.2:80", 1⟩],
    none, rfl, ?_, some ⟨"http://10.0.0.2:80", 1⟩, ?_, rfl⟩)
  · exact .exhausted
  · exact .found [] ⟨"http://10.0.0.2:80", 1⟩ [⟨"http://10.0.0.1:80", 1⟩] (by decide)

end Torana.Selection
