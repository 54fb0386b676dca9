import Torana.Config

/-!
Request filters (`plugin.rs`): loading a module, asking it for a verdict, and
compiling every plugin that a config names.

The WASM runtime is a parameter. A compiled module is known by the bytes that it
was compiled from, and an instance by whatever the runtime keeps for it.
-/
namespace Torana.Plugins
open Proxy (bind_ok)

def fuelPerCall : Nat := 5000000

inductive Verdict where
  | allow
  | deny (status : Nat)
  deriving DecidableEq

/-- What the code calls of the WASM runtime; an error is its text. -/
structure Wasmtime where
  Instance : Type
  newEngine : Except String Unit
  newModule : List UInt8 → Except String Unit
  hasExport : List UInt8 → String → Bool
  setFuel : Nat → Except String Unit
  instantiate : List UInt8 → (fuel : Nat) → Except String Instance
  hasMemory : Instance → Bool
  typedAlloc : Instance → Except String Unit
  typedOnRequest : Instance → Except String Unit
  callAlloc : Instance → Int32 → Except String (Int32 × Instance)
  writeMemory : Instance → (ptr : Int32) → List UInt8 → Except String Instance
  callOnRequest : Instance → (methodPtr methodLen pathPtr pathLen : Int32) → Except String Int32

/-- A compiled module. -/
structure Plugin where
  bytes : List UInt8
  deriving DecidableEq

/-- `anyhow`'s context in front of an error. -/
def withContext {α : Type} (what : String) : Except String α → Except String α
  | .ok value => .ok value
  | .error e => .error (what ++ ": " ++ e)

def ensure (holds : Bool) (message : String) : Except String Unit :=
  if holds then .ok () else .error message

/-- `Plugin::load` on what reading the file gave. -/
def load (wasm : Wasmtime) (path : String) (file : Except String (List UInt8)) : Except String Plugin := do
  withContext "initializing wasmtime engine" wasm.newEngine
  let bytes ← withContext s!"reading plugin '{path}'" file
  withContext s!"compiling plugin '{path}' (must be a valid WASM module)" (wasm.newModule bytes)
  ensure (wasm.hasExport bytes "on_request") "plugin is missing the required export `on_request`"
  ensure (wasm.hasExport bytes "alloc") "plugin is missing the required export `alloc`"
  ensure (wasm.hasExport bytes "memory") "plugin is missing the exported `memory`"
  return ⟨bytes⟩

def writeBytes (wasm : Wasmtime) (inst : wasm.Instance) (bytes : List UInt8) :
    Except String (Int32 × wasm.Instance) := do
  let (ptr, inst) ← withContext "plugin alloc() call failed" (wasm.callAlloc inst (.ofNat bytes.length))
  let inst ← withContext "writing into plugin memory" (wasm.writeMemory inst ptr bytes)
  return (ptr, inst)

/-- 0 allows; a code in 400..600 denies with that status; any other with 403. -/
def verdictOf (code : Int32) : Verdict :=
  if code = 0 then .allow
  else if 400 ≤ code && code < 600 then .deny code.toInt.toNat
  else .deny 403

def tryEvaluate (wasm : Wasmtime) (plugin : Plugin) (method path : String) : Except String Verdict := do
  withContext "setting fuel budget" (wasm.setFuel fuelPerCall)
  let inst ← withContext "instantiating plugin" (wasm.instantiate plugin.bytes fuelPerCall)
  ensure (wasm.hasMemory inst) "plugin has no memory export"
  withContext "plugin `alloc` has the wrong signature (expected (i32) -> i32)" (wasm.typedAlloc inst)
  withContext "plugin `on_request` has the wrong signature" (wasm.typedOnRequest inst)
  let method := Text.asBytes method.toList
  let path := Text.asBytes path.toList
  let (methodPtr, inst) ← writeBytes wasm inst method
  let (pathPtr, inst) ← writeBytes wasm inst path
  let code ← withContext "plugin `on_request` trapped (possibly out of fuel)"
    (wasm.callOnRequest inst methodPtr (.ofNat method.length) pathPtr (.ofNat path.length))
  return verdictOf code

/-- A failure of the plugin denies with 500. -/
def evaluate (wasm : Wasmtime) (plugin : Plugin) (method path : String) : Verdict :=
  match tryEvaluate wasm plugin method path with
  | .ok verdict => verdict
  | .error _ => .deny 500

/-- A loaded plugin is what the file held. -/
theorem load_bytes {wasm : Wasmtime} {path : String} {file : Except String (List UInt8)} {plugin : Plugin}
    (loaded : load wasm path file = .ok plugin) : file = .ok plugin.bytes := by
  simp only [load, bind_ok] at loaded
  obtain ⟨_, _, bytes, read, _, _, _, _, _, _, _, _, made⟩ := loaded
  cases made
  cases file with
  | ok held => exact read
  | error e => cases read

/-! ## The plugins of a config -/

/-- The plugin files that a config names, route by route. -/
def pluginPaths (config : Config) : List String := config.route.filterMap (·.plugin)

theorem mem_pluginPaths {config : Config} {path : String} :
    path ∈ pluginPaths config ↔ ∃ route ∈ config.route, route.plugin = some path := by
  simp [pluginPaths]

end Torana.Plugins
