import Torana.Addresses
import Torana.Parts
import Torana.Samples

/-!
What the host and the path of a route ask of a request, by labels and by segments, and what
`select_route` makes of it. Hosts are compared by what stands in front of their first colon, so
that an IPv6 address in brackets, which is written with colons, is compared by a piece of itself.
-/
namespace Torana
open Config (RouteConfig)
open Routing (hostMatches pathMatches selectRoute)

namespace Matching

/-! ## Hosts -/

/-- A host as RFC 3986 writes it. The empty name is one. -/
structure Host where
  text : List Char
  legal : text = [] ∨ Uris.isHost text = true

/-- A `Host` header with the host, and behind a colon the port. -/
def Host.header (host : Host) (port : Option (List Char)) : String :=
  String.ofList (host.text ++ port.elim [] (':' :: ·))

/-- The labels of a host, without regard to ASCII case. -/
def labels (host : List Char) : List (List Char) := (Text.toAsciiLowercase host).splitOn '.'

/-- What a pattern asks of a host: behind a `*.` the last labels, and else the host itself. -/
def Fits : List Char → List Char → Prop
  | '*' :: '.' :: suffix, host => labels suffix <:+ labels host
  | pattern, host => Text.toAsciiLowercase pattern = Text.toAsciiLowercase host

theorem fits_wildcard {suffix host : List Char} :
    Fits ('*' :: '.' :: suffix) host ↔ Text.toAsciiLowercase host = Text.toAsciiLowercase suffix ∨
      '.' :: Text.toAsciiLowercase suffix <:+ Text.toAsciiLowercase host :=
  Parts.splitOn_suffix_iff

theorem fits_exact {pattern host : List Char} (plain : Text.stripPrefix "*.".toList pattern = none) :
    Fits pattern host ↔ Text.toAsciiLowercase pattern = Text.toAsciiLowercase host := by
  unfold Fits
  split
  · cases plain
  · rfl

/-- The code compares what stands in front of the first colon. -/
theorem hostMatches_cut (pattern actual : String) :
    hostMatches (some pattern) (some actual) = true ↔
      Fits pattern.toList (actual.toList.takeWhile (· ≠ ':')) := by
  simp only [hostMatches, Addresses.splitNext_eq]
  cases stripped : Text.stripPrefix "*.".toList pattern.toList with
  | some suffix =>
    rw [Uris.stripPrefix_some stripped]
    simp only [Bool.or_eq_true, Text.eqIgnoreAsciiCase, decide_eq_true_eq, List.isSuffixOf_iff_suffix]
    exact fits_wildcard.symm
  | none =>
    rw [fits_exact stripped]
    simp only [Text.eqIgnoreAsciiCase, decide_eq_true_eq]
    exact eq_comm

/-- A port does not reach what stands in front of the first colon. -/
theorem header_cut (host : Host) (port : Option (List Char)) :
    (host.header port).toList.takeWhile (· ≠ ':') = host.text.takeWhile (· ≠ ':') := by
  rw [Host.header, String.toList_ofList]
  cases port with
  | none => simp
  | some port =>
    by_cases held : ':' ∈ host.text
    · obtain ⟨before, after, same, absent⟩ := List.eq_append_cons_of_mem held
      rw [same, List.append_assoc, List.cons_append, (Uris.takeWhile_ne absent _).1, (Uris.takeWhile_ne absent _).1]
    · exact (Uris.takeWhile_ne held port).1.trans (Uris.takeWhile_absent held).symm

/-! ## Addresses in brackets -/

/-- A host with a colon in it is an address in brackets. -/
theorem bracketed {host : Host} (colon : ':' ∈ host.text) :
    ∃ inner, host.text = '[' :: (inner ++ [']']) ∧ ']' ∉ inner ∧ ':' ∈ inner := by
  have legal : Uris.isHost host.text = true := by
    refine host.legal.resolve_left ?_
    intro empty
    rw [empty] at colon
    cases colon
  rcases Bool.or_eq_true _ _ ▸ legal with literal | name
  · obtain ⟨inner, parts, chars⟩ := Uris.literal_inner literal
    refine ⟨inner, parts, fun member => absurd (chars _ member) (by decide), ?_⟩
    rw [parts] at colon
    simpa using colon
  · exact absurd (Uris.regName_chars name _ colon) (by decide)

theorem toLower_bracket {c : Char} (lower : c.toLower = ']') : c = ']' := by
  unfold Char.toLower at lower
  split at lower
  · rename_i upper
    -- The lower case of a letter is a letter.
    have value : c.val + 32 = 93 := congrArg Char.val lower
    grind
  · exact lower

/-- What fits a host that ends with a bracket asks for the bracket. -/
theorem fits_bracket {pattern host other : List Char} (fits : Fits pattern host) (closed : host.getLast? = some ']')
    (also : Fits pattern other) : ']' ∈ other := by
  have lowered : (Text.toAsciiLowercase host).getLast? = some ']' := by
    rw [Text.toAsciiLowercase, List.getLast?_map, closed]
    rfl
  suffices asked : ']' ∈ Text.toAsciiLowercase other by
    obtain ⟨c, member, lower⟩ := List.mem_map.mp asked
    rwa [← toLower_bracket lower]
  cases stripped : Text.stripPrefix "*.".toList pattern with
  | none =>
    rw [fits_exact stripped] at fits also
    rw [← also, fits]
    exact List.mem_of_getLast? lowered
  | some suffix =>
    rw [Uris.stripPrefix_some stripped] at fits also
    have asked : ']' ∈ '.' :: Text.toAsciiLowercase suffix := by
      rcases fits_wildcard.mp fits with same | ⟨rest, same⟩
      · rw [same] at lowered
        exact List.mem_cons_of_mem _ (List.mem_of_getLast? lowered)
      · rw [← same, List.getLast?_append_cons] at lowered
        exact List.mem_of_getLast? lowered
    have inside : ']' ∈ Text.toAsciiLowercase suffix := by simpa using asked
    rcases fits_wildcard.mp also with same | behind
    · rw [same]
      exact inside
    · exact behind.subset asked

/-- A pattern that fits a host with a colon does not fit the piece in front of the colon as well. -/
theorem fits_apart {host : Host} (colon : ':' ∈ host.text) {pattern : List Char} (fits : Fits pattern host.text) :
    ¬Fits pattern (host.text.takeWhile (· ≠ ':')) := by
  intro cut
  obtain ⟨inner, parts, unclosed, inside⟩ := bracketed colon
  obtain ⟨before, after, rfl, absent⟩ := List.eq_append_cons_of_mem inside
  have closed : host.text.getLast? = some ']' := by
    rw [parts, ← List.cons_append, List.getLast?_append_cons]
    rfl
  have absent : ':' ∉ '[' :: before := by simpa using absent
  have front : host.text.takeWhile (· ≠ ':') = '[' :: before := by
    rw [parts, List.append_assoc, List.cons_append, ← List.cons_append]
    exact (Uris.takeWhile_ne absent _).1
  have bracket := fits_bracket fits closed cut
  rw [front] at bracket
  have bracket : ']' ∈ before := by simpa using bracket
  exact unclosed (List.mem_append_left _ bracket)

theorem fits_itself {host : Host} (colon : ':' ∈ host.text) : Fits host.text host.text := by
  obtain ⟨inner, parts, -⟩ := bracketed colon
  rw [parts]
  rfl

/-- The host is compared as the pattern asks, for one pattern and one port. -/
def Compared (host : Host) (pattern : String) (port : Option (List Char)) : Prop :=
  hostMatches (some pattern) (some (host.header port)) = true ↔ Fits pattern.toList host.text

/-- A pattern and a host are compared as they should be exactly when the host is written without a
    colon, or the pattern fits neither the host nor the piece of it in front of its first colon. -/
theorem compared_iff {host : Host} {pattern : String} {port : Option (List Char)} :
    Compared host pattern port ↔ ':' ∉ host.text ∨
      ¬Fits pattern.toList host.text ∧ ¬Fits pattern.toList (host.text.takeWhile (· ≠ ':')) := by
  rw [Compared, hostMatches_cut, header_cut]
  by_cases colon : ':' ∈ host.text
  · have apart : Fits pattern.toList host.text → ¬Fits pattern.toList (host.text.takeWhile (· ≠ ':')) :=
      fits_apart colon
    constructor
    · intro same
      have unfit : ¬Fits pattern.toList host.text := fun fits => apart fits (same.mpr fits)
      exact .inr ⟨unfit, fun cut => unfit (same.mp cut)⟩
    · rintro (absent | ⟨unfit, uncut⟩)
      · exact absurd colon absent
      · exact ⟨fun cut => absurd cut uncut, fun fits => absurd fits unfit⟩
  · rw [Uris.takeWhile_absent colon]
    exact ⟨fun _ => .inl colon, fun _ => Iff.rfl⟩

/-- A host is compared, for every pattern and port, exactly when it is written without a colon:
    addresses in brackets that hold one are not. A route without a host matches every request, and
    one with a host no request that has none. -/
theorem hosts_compared (host : Host) :
    (∀ (pattern : String) (port : Option (List Char)), Compared host pattern port ↔ ':' ∉ host.text ∨
      ¬Fits pattern.toList host.text ∧ ¬Fits pattern.toList (host.text.takeWhile (· ≠ ':'))) ∧
    ((∀ pattern port, Compared host pattern port) ↔ ':' ∉ host.text) ∧
    (∀ actual, hostMatches none actual = true) ∧ ∀ pattern, hostMatches (some pattern) none = false := by
  refine ⟨fun pattern port => compared_iff, ?_, Routing.hostMatches_any, fun _ => rfl⟩
  constructor
  · intro compared colon
    have own := compared_iff.mp (compared (String.ofList host.text) none)
    rw [String.toList_ofList] at own
    rcases own with absent | ⟨unfit, -⟩
    · exact absent colon
    · exact unfit (fits_itself colon)
  · intro absent pattern port
    exact compared_iff.mpr (.inl absent)

/-- The host of `http://[::1]:8080/`. -/
def loopback : Host := ⟨"[::1]".toList, .inr (by decide +kernel)⟩

/-- A route for `[::1]` does not match, since the host that it is compared with is `[`. -/
theorem loopback_unmatched :
    loopback.header (some "8080".toList) = "[::1]:8080" ∧ Fits "[::1]".toList loopback.text ∧
      hostMatches (some "[::1]") (some "[::1]:8080") = false ∧ ¬Compared loopback "[::1]" (some "8080".toList) := by
  have unmatched : hostMatches (some "[::1]") (some "[::1]:8080") = false := by decide +kernel
  have header : loopback.header (some "8080".toList) = "[::1]:8080" := by decide +kernel
  have fits : Fits "[::1]".toList loopback.text := rfl
  refine ⟨header, fits, unmatched, ?_⟩
  intro compared
  have matched := compared.mpr fits
  rw [header, unmatched] at matched
  cases matched

/-! ## Paths -/

/-- The segments of a path. -/
def segments (path : List Char) : List (List Char) := path.splitOn '/'

/-- A pattern without the slashes at its end. -/
def trimmed (pattern : String) : List Char := pattern.toList.rdropWhile (· = '/')

/-- The first byte of a character is that of the slash only for the slash. -/
theorem utf8_first (c : Char) : ∃ first behind, String.utf8EncodeChar c = first :: behind ∧ (first = 47 ↔ c = '/') := by
  by_cases ascii : c.toNat < 128
  · refine ⟨UInt8.ofNat c.toNat, [], Http.utf8_ascii ascii, ?_⟩
    rw [← UInt8.toNat_inj, UInt8.toNat_ofNat_of_lt' (by simp [UInt8.size]; omega)]
    constructor
    · exact fun slash => Char.toNat_inj.mp slash
    · rintro rfl
      rfl
  · have other : c ≠ '/' := by
      rintro rfl
      exact ascii (by decide)
    have lead : ∀ n, 128 ≤ n → n < 256 → UInt8.ofNat n ≠ 47 := by
      intro n low high same
      have value := congrArg UInt8.toNat same
      rw [UInt8.toNat_ofNat_of_lt' high] at value
      change n = 47 at value
      omega
    have long : ¬c.val.toNat ≤ 127 := fun short => ascii (Nat.lt_succ_of_le short)
    simp only [String.utf8EncodeChar, if_neg long]
    split
    · exact ⟨_, _, rfl, fun same => absurd same (lead _ (by omega) (by omega)), fun same => absurd same other⟩
    · split
      · exact ⟨_, _, rfl, fun same => absurd same (lead _ (by omega) (by omega)), fun same => absurd same other⟩
      · exact ⟨_, _, rfl, fun same => absurd same (lead _ (by omega) (by omega)), fun same => absurd same other⟩

theorem trimmed_eq_nil {pattern : String} : trimmed pattern = [] ↔ ∀ c ∈ pattern.toList, c = '/' := by
  rw [trimmed, List.rdropWhile_eq_nil_iff]
  simp

/-- A pattern that is not all slashes matches the paths whose segments its own begin. The test of
    the byte behind the pattern finds the end of the path or the slash in front of a segment. -/
theorem pathMatches_iff {pattern path : String} (named : ∃ c ∈ pattern.toList, c ≠ '/') :
    pathMatches (some pattern) path = true ↔ segments (trimmed pattern) <+: segments path.toList := by
  have filled : trimmed pattern ≠ [] := by
    rw [ne_eq, trimmed_eq_nil]
    push Not
    exact named
  rw [segments, segments, Parts.splitOn_prefix_iff]
  unfold pathMatches
  simp only
  rw [← trimmed, if_neg filled]
  generalize trimmed pattern = start
  by_cases starts : start <+: path.toList
  · obtain ⟨rest, parts⟩ := starts
    rw [← parts, if_neg (by simp), Text.asBytes, Text.asBytes, List.flatMap_append,
      List.getElem?_append_right (Nat.le_refl _), Nat.sub_self]
    cases rest with
    | nil => simp
    | cons c rest =>
      obtain ⟨first, behind, encoded, slash⟩ := utf8_first c
      rw [List.flatMap_cons, encoded]
      simp [slash, eq_comm]
  · have unmatched : start.isPrefixOf path.toList = false := by
      rw [← Bool.not_eq_true, List.isPrefixOf_iff_prefix]
      exact starts
    rw [if_pos (by rw [unmatched]; rfl)]
    constructor
    · intro never
      cases never
    · rintro (same | longer)
      · rw [same] at starts
        exact absurd (List.prefix_refl _) starts
      · exact absurd ((List.prefix_append start ['/']).trans longer) starts

/-! ## Routes -/

/-- The route asks for nothing that the request does not have. -/
def Serves (host : Option String) (path : String) (route : RouteConfig) : Prop :=
  hostMatches route.host host = true ∧ pathMatches route.path path = true

theorem serves_iff {host : Option String} {path : String} {route : RouteConfig} :
    Routing.routeMatches host path route = true ↔ Serves host path route :=
  Iff.of_eq (Bool.and_eq_true _ _)

theorem selectRoute_none_iff {routes : List RouteConfig} {host : Option String} {path : String} :
    selectRoute routes host path = none ↔ ∀ route ∈ routes, ¬Serves host path route := by
  simp only [selectRoute, List.find?_eq_none, serves_iff]

/-- A route is selected when it is the first one that serves the request. -/
theorem selectRoute_some_iff {routes : List RouteConfig} {host : Option String} {path : String} {route : RouteConfig} :
    selectRoute routes host path = some route ↔ ∃ before after, routes = before ++ route :: after ∧
      Serves host path route ∧ ∀ earlier ∈ before, ¬Serves host path earlier := by
  rw [selectRoute, List.find?_eq_some_iff_append, serves_iff]
  constructor
  · rintro ⟨serves, before, after, split, first⟩
    refine ⟨before, after, split, serves, ?_⟩
    intro earlier member
    rw [← serves_iff, Bool.not_eq_true]
    simpa using first earlier member
  · rintro ⟨before, after, split, serves, first⟩
    refine ⟨serves, before, after, split, ?_⟩
    intro earlier member
    have unmatched := first earlier member
    rw [← serves_iff, Bool.not_eq_true] at unmatched
    rw [unmatched]
    rfl

theorem selectRoute_append (front back : List RouteConfig) (host : Option String) (path : String) :
    selectRoute (front ++ back) host path = (selectRoute front host path).or (selectRoute back host path) :=
  List.find?_append

/-- A route that does not serve the request can stand anywhere. -/
theorem selectRoute_insert {route : RouteConfig} {host : Option String} {path : String}
    (idle : ¬Serves host path route) (before after : List RouteConfig) :
    selectRoute (before ++ route :: after) host path = selectRoute (before ++ after) host path := by
  have skipped : selectRoute (route :: after) host path = selectRoute after host path := by
    rw [← serves_iff] at idle
    exact List.find?_cons_of_neg idle
  rw [selectRoute_append, selectRoute_append, skipped]

/-- What stands behind the selected route can change. -/
theorem selectRoute_behind {route : RouteConfig} {host : Option String} {path : String}
    {before after : List RouteConfig} (selected : selectRoute (before ++ route :: after) host path = some route)
    (after' : List RouteConfig) : selectRoute (before ++ route :: after') host path = some route := by
  have serves : Routing.routeMatches host path route = true := List.find?_some selected
  have here : ∀ rest, selectRoute (route :: rest) host path = some route := fun rest => List.find?_cons_of_pos serves
  rw [selectRoute_append, here] at selected ⊢
  exact selected

/-- Paths match by whole segments, and the first route that serves a request is selected: routes
    that do not serve it do not matter, nor does any route behind the selected one. -/
theorem first_on_segments (host : Option String) (path : String) :
    (∀ pattern : String, (∃ c ∈ pattern.toList, c ≠ '/') →
      (pathMatches (some pattern) path = true ↔ segments (trimmed pattern) <+: segments path.toList)) ∧
    (∀ routes route, selectRoute routes host path = some route ↔ ∃ before after, routes = before ++ route :: after ∧
      Serves host path route ∧ ∀ earlier ∈ before, ¬Serves host path earlier) ∧
    (∀ routes, selectRoute routes host path = none ↔ ∀ route ∈ routes, ¬Serves host path route) ∧
    (∀ before route after, ¬Serves host path route →
      selectRoute (before ++ route :: after) host path = selectRoute (before ++ after) host path) ∧
    ∀ before route after after', selectRoute (before ++ route :: after) host path = some route →
      selectRoute (before ++ route :: after') host path = some route := by
  refine ⟨fun pattern named => pathMatches_iff named, fun routes route => selectRoute_some_iff,
    fun routes => selectRoute_none_iff, ?_, ?_⟩
  · intro before route after idle
    exact selectRoute_insert idle before after
  · intro before route after after' selected
    exact selectRoute_behind selected after'

def apiElsewhere : RouteConfig :=
  { Samples.route "other" "a:1" with host := some "*.example.org", path := some "/api/" }

/-- Two routes for `/api/`, the first of them on another host, and a catch-all. -/
def apiRoutes : List RouteConfig :=
  [apiElsewhere, { Samples.route "api" "b:1" with path := some "/api/" }, Samples.route "rest" "c:1"]

/-- `/api//v1` goes to the second route, and still does without the first or the last one. -/
theorem api_first :
    segments (trimmed "/api/") <+: segments "/api//v1".toList ∧
      selectRoute apiRoutes none "/api//v1" = apiRoutes[1]? ∧
      selectRoute apiRoutes.tail none "/api//v1" = apiRoutes[1]? ∧
      selectRoute (apiRoutes.take 2) none "/api//v1" = apiRoutes[1]? := by
  obtain ⟨segmented, -, -, insert, behind⟩ := first_on_segments none "/api//v1"
  have idle : ¬Serves none "/api//v1" apiElsewhere := by
    rintro ⟨never, -⟩
    cases never
  have selected : selectRoute apiRoutes none "/api//v1" = apiRoutes[1]? := by decide +kernel
  have kept := insert [] apiElsewhere apiRoutes.tail idle
  have letter : ∃ c ∈ "/api/".toList, c ≠ '/' := ⟨'a', by decide +kernel, by decide⟩
  refine ⟨(segmented "/api/" letter).mp (by decide +kernel), selected, kept.symm.trans selected, ?_⟩
  exact behind (apiRoutes.take 1) _ [Samples.route "rest" "c:1"] [] selected

end Matching
end Torana
