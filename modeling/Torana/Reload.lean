import Torana.Health

/-!
Building the shared state: the plugins of a config (`plugin.rs`), `ProxyEngine::new`
with the start of the probers (`server.rs`), and the reload on SIGHUP (`reload.rs`).

Reload waits for signals for ever; its program is any number of rounds of it.
-/
namespace Torana
open Config (RouteConfig Build)
open Plugins (Plugin Wasmtime)
open Upstream (LoadBalancer buildLbMap)

namespace Reload

/-! ## Plugins of a config -/

def loadPlugin (wasm : Wasmtime) (path : String) : Program (Except String Plugin) := do
  let file ← call (.readFile path)
  return Plugins.load wasm path file

/-- `build_plugin_cache` from the plugins that are compiled already: each path once,
    up to the first error. -/
def buildPluginCacheFrom (wasm : Wasmtime) :
    List RouteConfig → Table String Plugin → Program (Except String (Table String Plugin))
  | [], cache => return .ok cache
  | route :: rest, cache =>
    match route.plugin with
    | none => buildPluginCacheFrom wasm rest cache
    | some path =>
      if cache.containsKey path then buildPluginCacheFrom wasm rest cache
      else do
        match ← loadPlugin wasm path with
        | .error e => return .error (s!"route '{route.name}': loading plugin '{path}'" ++ ": " ++ e)
        | .ok plugin => buildPluginCacheFrom wasm rest (cache.insert path plugin)

def buildPluginCache (wasm : Wasmtime) (config : Config) : Program (Except String (Table String Plugin)) :=
  buildPluginCacheFrom wasm config.route Table.empty

section
variable (build : Build) (crates : Crates)

/-- The plugins of a config where the build has plugins. -/
def compilePlugins (config : Config) : Program (Except String (Table String Plugin)) :=
  if build.plugins then buildPluginCache crates.wasm config else return .ok Table.empty

def writePlugins (plugins : Table String Plugin) : Program Unit :=
  if build.plugins then call (.writePluginCache plugins) else return ()

/-- `build_lb_map`, with fresh counters. -/
def newLbMap (config : Config) : Program (Table String LoadBalancer) := do
  let base ← call (.newCounters config.route.length)
  return buildLbMap base config

/-! ## Reload -/

def loadConfig (configPath : String) : Program (Except String Config) := do
  return Config.loaded crates.parseToml configPath (← call (.readToString configPath))

def abortAll : List Nat → Program Unit
  | [] => return ()
  | handle :: rest => do
    call (.abort handle)
    abortAll rest

/-- Swap everything, one store after the other. -/
def swapStores (config : Config) (lbs : Table String LoadBalancer) (plugins : Table String Plugin) :
    Program Unit := do
  call (.writeLbCache lbs)
  writePlugins build plugins
  call (.writeConfig config)

/-- What a config that passed every check replaces: the stores, then the probers. -/
def install (config : Config) (plugins : Table String Plugin) : Program Unit := do
  let lbs ← newLbMap config
  let handles ← Health.spawnAllProbers config
  swapStores build config lbs plugins
  let previous ← call (.replaceHandles handles)
  abortAll previous

/-- One SIGHUP: the config that was installed, or why the current one is kept. -/
def reloadOnce (configPath : String) : Program (Except String Config) := do
  call .recvSighup
  match ← loadConfig crates configPath with
  | .error e => return .error e
  | .ok config =>
    match config.validate build crates.parseUri with
    | .error e => return .error e
    | .ok () =>
      -- A broken plugin aborts the reload before any running state is touched.
      match ← compilePlugins build crates config with
      | .error e => return .error e
      | .ok plugins => do
        install build config plugins
        return .ok config

def watchConfigSignal (configPath : String) : (rounds : Nat) → Program Unit
  | 0 => return ()
  | rounds + 1 => do
    let _ ← reloadOnce build crates configPath
    watchConfigSignal configPath rounds

/-! ## Start -/

/-- `ProxyEngine::new`: plugins that fail to load are logged and left out, all of them. -/
def newEngine (config : Config) : Program Unit := do
  let plugins ← compilePlugins build crates config
  let lbs ← newLbMap config
  swapStores build config lbs (match plugins with
    | .ok cache => cache
    | .error _ => Table.empty)

def spawnHealthProbers : Program (List Nat) := do
  let config ← call .readConfig
  let handles ← Health.spawnAllProbers config
  call .dropConfig
  return handles

/-- What `Server::run` does with the engine before the reload task and the listeners start. -/
def start (config : Config) : Program Unit := do
  newEngine build crates config
  let handles ← spawnHealthProbers
  let _ ← call (.replaceHandles handles)

end

end Reload
end Torana
