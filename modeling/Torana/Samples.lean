import Torana.System

/-!
Small concrete inputs for the other modules: one listener, routes with one
upstream, crates that behave as the real ones do on these inputs, and an outside
in which upstreams answer.
-/
namespace Torana.Samples
open Http
open Config (RouteConfig ListenerConfig Build)
open Plugins (Plugin Wasmtime)

/-! ## Configs -/

def listener : ListenerConfig := ⟨"0.0.0.0:8080", "http", none, none, none, none⟩

/-- A route that matches every request, without any option. -/
def route (name addr : String) : RouteConfig where
  name := name
  host := none
  path := none
  upstream := [⟨addr, none⟩]
  mirror := none
  timeoutTotal := none
  headers := ⟨none, none⟩
  healthCheck := none
  retries := none
  plugin := none

/-- A route with a plugin. -/
def guardedRoute : RouteConfig := { route "api" "http://10.0.0.1:80" with plugin := some "filter.wasm" }

def config (routes : List RouteConfig) : Config := ⟨[listener], routes⟩

def build : Build := ⟨true, true, 64⟩

/-! ## Crates and the outside -/

/-- Absolute URIs with the scheme `http`. -/
def parseUri (text : String) : Except String Uri :=
  match Text.stripPrefix "http://".toList text.toList with
  | none => .error "invalid format"
  | some rest =>
    let authority := Text.splitNext '/' rest
    .ok ⟨some "http", some (String.ofList authority), some (String.ofList (rest.drop authority.length))⟩

/-- A runtime whose modules allow every request, except for the empty one, which denies. -/
def wasm : Wasmtime where
  Instance := List UInt8
  newEngine := .ok ()
  newModule _ := .ok ()
  hasExport _ _ := true
  setFuel _ := .ok ()
  instantiate bytes _ := .ok bytes
  hasMemory _ := true
  typedAlloc _ := .ok ()
  typedOnRequest _ := .ok ()
  callAlloc inst _ := .ok (0, inst)
  writeMemory inst _ _ := .ok inst
  callOnRequest inst _ _ _ _ := .ok (if inst = [] then 403 else 0)

/-- Crates whose TOML parser knows one document. -/
def crates (document : String) (parsed : Config) : Crates where
  parseUri := parseUri
  parseToml content := if content = document then .ok parsed else .error "TOML parse error"
  wasm := wasm

/-- Crates of a proxy that is never reloaded. -/
def unreloaded : Crates := crates "" (config [])

/-- Upstreams answer 200, files cannot be read and probes fail. -/
def outside : Outside where
  nanos := 0
  outcome := .responded ⟨200, Multimap.empty, []⟩
  reply := none
  text := .error "No such file or directory (os error 2)"
  file _ := .error "No such file or directory (os error 2)"

/-- The stores of a config with these plugins, before anything happened. -/
def store (config : Config) (plugins : Table String Plugin) : Store where
  config := config
  guards := []
  lbCache := Upstream.buildLbMap 0 config
  counters _ := 0
  nextCounter := config.route.length
  pluginCache := plugins
  flags := Table.empty
  flagValues _ := true
  nextFlag := 0
  handles := []
  tasks := []

/-! ## Requests -/

def conn : Server.Conn := ⟨⟨.v4 192 0 2 7, 50000⟩, .http, none⟩

/-- `GET / HTTP/1.1` with these header fields. -/
def get (headers : HeaderMap) : Request Incoming :=
  ⟨⟨.get, ⟨none, none, some "/"⟩, .http11, headers⟩, ⟨[], some 0⟩⟩

/-- The fields of one header. -/
def field (name : HeaderName) (value : HeaderValue) : HeaderMap := Multimap.empty.insert name value

/-- What a request is answered while the stores stay as they are. -/
def answers (crates : Crates) (s : Store) (a : Act) : Option a.Res :=
  (perform crates outside (.request 0) a s).map Prod.fst

end Torana.Samples
