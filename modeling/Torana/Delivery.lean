import Torana.Server
import Torana.Samples

/-!
The forms in which a request for one authority and path is delivered to `handle`:
HTTP/1.1 with an origin-form or an absolute-form target, which keeps its `Host`
line, and HTTP/2, which has its authority in the URI and no `Host` field. `handle`
selects the route by the `Host` field alone.
-/
namespace Torana
open Http
open Config (RouteConfig)

namespace Delivery
open Server Routing

/-- The text of an authority, which a field value can hold. -/
structure Authority where
  text : String
  visible : isVisibleText text = true

/-- The `Host` line of an origin-form request for the authority. -/
def Authority.value (authority : Authority) : HeaderValue :=
  (HeaderValue.fromStr authority.text).get (by
    obtain ⟨v, parsed, _⟩ := fromStr_visible authority.visible
    simp [parsed])

theorem toStr_authority (authority : Authority) : authority.value.toStr = some authority.text := by
  obtain ⟨v, parsed, reads⟩ := fromStr_visible authority.visible
  simp [Authority.value, parsed, reads]

section
variable (method : Method) (authority : Authority) (pathAndQuery : String) (fields : HeaderMap)

/-- HTTP/1.1 with an origin-form target and `Host: authority`. -/
def originForm : Parts :=
  ⟨method, ⟨none, none, some pathAndQuery⟩, .http11, fields.insert .host authority.value⟩

/-- HTTP/1.1 with an absolute-form target for the authority and the `Host` line that
    the client sent with it, if it sent one. -/
def absoluteForm (hostLine : Option HeaderValue) : Parts :=
  ⟨method, ⟨some "http", some authority.text, some pathAndQuery⟩, .http11,
    hostLine.elim (fields.remove .host) (fields.insert .host)⟩

/-- HTTP/2 with `:authority: authority`. -/
def http2Form : Parts :=
  ⟨method, ⟨some "https", some authority.text, some pathAndQuery⟩, .http2, fields.remove .host⟩

end

/-- The path that every form asks for. -/
def pathOf (pathAndQuery : String) : String := Uri.path ⟨none, none, some pathAndQuery⟩

section
variable (config : Config) (method : Method) (authority : Authority) (pathAndQuery : String) (fields : HeaderMap)

theorem chooseRoute_origin :
    chooseRoute config (originForm method authority pathAndQuery fields) =
      selectRoute config.route (some authority.text) (pathOf pathAndQuery) := by
  have host : hostHeader (originForm method authority pathAndQuery fields) = some authority.text := by
    simp [hostHeader, originForm, Multimap.get, toStr_authority]
  rw [chooseRoute, host]
  rfl

theorem chooseRoute_absolute (hostLine : Option HeaderValue) :
    chooseRoute config (absoluteForm method authority pathAndQuery fields hostLine) =
      selectRoute config.route (hostLine.bind HeaderValue.toStr) (pathOf pathAndQuery) := by
  have host : hostHeader (absoluteForm method authority pathAndQuery fields hostLine) =
      hostLine.bind HeaderValue.toStr := by
    cases hostLine <;> simp [hostHeader, absoluteForm, Multimap.get]
  rw [chooseRoute, host]
  rfl

theorem chooseRoute_http2 :
    chooseRoute config (http2Form method authority pathAndQuery fields) =
      selectRoute config.route none (pathOf pathAndQuery) := by
  have host : hostHeader (http2Form method authority pathAndQuery fields) = none := by
    simp [hostHeader, http2Form, Multimap.get]
  rw [chooseRoute, host]
  rfl

/-- The three forms select one route, or none of them any, exactly when every route
    that constrains the host and matches stands behind one that does not and matches,
    for the authority and for the host that the absolute form was sent with. -/
theorem same_route_iff (hostLine : Option HeaderValue) :
    (chooseRoute config (absoluteForm method authority pathAndQuery fields hostLine) =
        chooseRoute config (originForm method authority pathAndQuery fields) ∧
      chooseRoute config (http2Form method authority pathAndQuery fields) =
        chooseRoute config (originForm method authority pathAndQuery fields)) ↔
    Shielded config.route (some authority.text) (pathOf pathAndQuery) ∧
      Shielded config.route (hostLine.bind HeaderValue.toStr) (pathOf pathAndQuery) := by
  rw [chooseRoute_origin, chooseRoute_absolute, chooseRoute_http2, ← selectRoute_hostless, ← selectRoute_hostless]
  constructor
  · rintro ⟨absolute, http2⟩
    exact ⟨http2.symm, absolute.trans http2.symm⟩
  · rintro ⟨origin, absolute⟩
    exact ⟨absolute.trans origin.symm, origin.symm⟩

end

/-! ## A host that only HTTP/1.1 reaches -/

def appAuthority : Authority := ⟨"app.example.com", by decide⟩

/-- A route for one host, without a catch-all behind it. -/
def hostRoute : RouteConfig := { Samples.route "app" "http://10.0.0.1:80" with host := some "app.example.com" }

/-- Over HTTP/1.1 the route is selected and over HTTP/2 none is. -/
theorem http2_misses_host :
    chooseRoute (Samples.config [hostRoute]) (originForm .get appAuthority "/" Multimap.empty) = some hostRoute ∧
      chooseRoute (Samples.config [hostRoute]) (absoluteForm .get appAuthority "/" Multimap.empty
        (some appAuthority.value)) = some hostRoute ∧
      chooseRoute (Samples.config [hostRoute]) (http2Form .get appAuthority "/" Multimap.empty) = none := by
  decide +kernel

end Delivery
end Torana
