import Torana.Config

/-!
Route selection (`routing.rs`): the first route, in the order of the
configuration, whose host and path constraints the request meets.
-/
namespace Torana.Routing
open Config (RouteConfig)

/-- A route without a host matches anything, and a route with one never matches a
    request without. The port of the request's host is cut at its first colon. -/
def hostMatches (pattern actual : Option String) : Bool :=
  match pattern, actual with
  | none, _ => true
  | some _, none => false
  | some pattern, some actual =>
    let actual := Text.splitNext ':' actual.toList
    match Text.stripPrefix "*.".toList pattern.toList with
    | some suffix =>
      Text.eqIgnoreAsciiCase actual suffix ||
        ('.' :: Text.toAsciiLowercase suffix).isSuffixOf (Text.toAsciiLowercase actual)
    | none => Text.eqIgnoreAsciiCase actual pattern.toList

def pathMatches (pattern : Option String) (actual : String) : Bool :=
  match pattern with
  | none => true
  | some pattern =>
    let pattern := pattern.toList.rdropWhile (· = '/')
    if pattern = [] then true
    else if !pattern.isPrefixOf actual.toList then false
    -- Require a segment boundary so "/api" doesn't match "/apiary".
    else match (Text.asBytes actual.toList)[(Text.asBytes pattern).length]? with
      | none => true
      | some b => b = 47

/-- The route's host and path constraints both match. -/
def routeMatches (host : Option String) (path : String) (route : RouteConfig) : Bool :=
  hostMatches route.host host && pathMatches route.path path

def selectRoute (routes : List RouteConfig) (host : Option String) (path : String) : Option RouteConfig :=
  routes.find? (routeMatches host path)

theorem selectRoute_mem {routes : List RouteConfig} {host : Option String} {path : String} {route : RouteConfig}
    (selected : selectRoute routes host path = some route) : route ∈ routes :=
  List.mem_of_find?_eq_some selected

/-! ## First matches under two conditions -/

/-- A wider condition finds the same first element exactly when everything that it
    adds stands behind an element that the narrower one finds. -/
theorem find?_eq_iff {α : Type} {narrow wide : α → Bool} (sub : ∀ x, narrow x = true → wide x = true)
    (l : List α) : l.find? wide = l.find? narrow ↔
      ∀ before x after, l = before ++ x :: after → wide x = true → narrow x = false →
        ∃ y ∈ before, narrow y = true := by
  induction l with
  | nil => simp
  | cons first rest ih =>
    by_cases inNarrow : narrow first = true
    · have found : (first :: rest).find? wide = (first :: rest).find? narrow := by
        simp [sub first inNarrow, inNarrow]
      refine ⟨fun _ before x after split _ outside => ?_, fun _ => found⟩
      cases before with
      | nil =>
        obtain ⟨rfl, _⟩ := List.cons.inj split
        rw [inNarrow] at outside
        cases outside
      | cons y before =>
        obtain ⟨rfl, _⟩ := List.cons.inj split
        exact ⟨first, by simp, inNarrow⟩
    · have notNarrow : narrow first = false := by simpa using inNarrow
      by_cases inWide : wide first = true
      · constructor
        · intro found
          rw [List.find?_cons_of_pos inWide, List.find?_cons_of_neg (by simp [notNarrow])] at found
          exact absurd (List.find?_some found.symm) inNarrow
        · intro shielded
          obtain ⟨y, member, _⟩ := shielded [] first rest rfl inWide notNarrow
          cases member
      · have notWide : wide first = false := by simpa using inWide
        rw [List.find?_cons_of_neg (by simp [notWide]), List.find?_cons_of_neg (by simp [notNarrow]), ih]
        constructor
        · intro shielded before x after split inside outside
          cases before with
          | nil =>
            obtain ⟨rfl, _⟩ := List.cons.inj split
            exact absurd inside inWide
          | cons y before =>
            obtain ⟨_, later⟩ := List.cons.inj split
            obtain ⟨z, member, holds⟩ := shielded before x after later inside outside
            exact ⟨z, List.mem_cons_of_mem _ member, holds⟩
        · intro shielded before x after split inside outside
          obtain ⟨z, member, holds⟩ := shielded (first :: before) x after (by simp [split]) inside outside
          rcases List.mem_cons.mp member with rfl | member
          · exact absurd holds inNarrow
          · exact ⟨z, member, holds⟩

/-- Every route that constrains the host and matches the request stands behind a
    route without a host that matches it as well. -/
def Shielded (routes : List RouteConfig) (host : Option String) (path : String) : Prop :=
  ∀ before route after, routes = before ++ route :: after → route.host ≠ none →
    hostMatches route.host host = true → pathMatches route.path path = true →
    ∃ earlier ∈ before, earlier.host = none ∧ pathMatches earlier.path path = true

theorem hostMatches_none (pattern : Option String) : hostMatches pattern none = true ↔ pattern = none := by
  cases pattern <;> simp [hostMatches]

theorem hostMatches_any (host : Option String) : hostMatches none host = true := rfl

/-- A host selects the route that no host selects exactly when the routes that
    constrain the host are shielded. -/
theorem selectRoute_hostless {routes : List RouteConfig} {host : Option String} {path : String} :
    selectRoute routes host path = selectRoute routes none path ↔ Shielded routes host path := by
  have sub : ∀ route, routeMatches none path route = true → routeMatches host path route = true := by
    intro route met
    simp only [routeMatches, Bool.and_eq_true, hostMatches_none] at met ⊢
    exact ⟨by rw [met.1]; exact hostMatches_any host, met.2⟩
  rw [selectRoute, selectRoute, find?_eq_iff sub]
  simp only [routeMatches, Bool.and_eq_true, Bool.and_eq_false_iff, hostMatches_none, Shielded]
  constructor
  · intro shielded before route after split constrained hosted pathed
    have unmatched : hostMatches route.host none = false := by
      simpa [← Bool.not_eq_true, hostMatches_none] using constrained
    obtain ⟨y, member, met⟩ := shielded before route after split ⟨hosted, pathed⟩ (.inl unmatched)
    exact ⟨y, member, met⟩
  · rintro shielded before route after split ⟨hosted, pathed⟩ (unmatched | unpathed)
    · have constrained : route.host ≠ none := by
        intro free
        rw [free] at unmatched
        cases unmatched
      obtain ⟨y, member, met⟩ := shielded before route after split constrained hosted pathed
      exact ⟨y, member, met⟩
    · rw [pathed] at unpathed
      cases unpathed

end Torana.Routing
