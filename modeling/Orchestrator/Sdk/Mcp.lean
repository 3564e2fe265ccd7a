import Orchestrator.Lib.System
import Orchestrator.Sdk.Value

/-!
# `Orchestrator.Sdk.Mcp`: managed MCP servers (`sdk-python/orchestrator/mcp_integration.py`)

`ManagedMCPRegistry` with the server objects it hands out. A server object is its place in
`objects`, so a caller may keep one over any number of other operations, and the cache `servers`
holds places. `process` is not modelled: nothing sets it. A handler is a function of its arguments;
one that calls the registry itself does so after `connect`, as the next operations of a run.

`ManagedMCPRegistry.callers` has the runs of any callers. `ManagedMCPRegistry.wrapped` has those of
callers that only use the wrappers of `mcp_skill` and `ToolRegistry` around a registry, and never
hold a server object. The difference between the two systems is the whole point of the lifecycle: a
server object that somebody kept can be connected again after `cleanup` has dropped it from the
cache.

`connect` and `disconnect` set a flag and do nothing else, as in the source, where the process of
the server is still to be started.
-/

set_option autoImplicit false

namespace Orchestrator.Sdk

open Orchestrator.Lib

/-- The exceptions of the operations. A caller cannot tell from them in which state the registry is
left, which the results about it have to say. -/
inductive McpError
  | valueError (msg : String)
  | notImplementedError (msg : String)
  /-- A handler raises. -/
  | handler (e : PyError)
deriving DecidableEq

/-- A handler: from the name of a tool and its arguments to the result. -/
abbrev Handler := String → Json → Except PyError Json

/-- A server object: the tools it knows, the handler that runs them, and whether it is connected. -/
structure MCPServer where
  name : String
  /-- The keys of `tools`. -/
  tools : List String
  handler : Option Handler
  connected : Bool

namespace MCPServer

/-- `connect`. It sets the flag, whatever it was before. -/
def connect (s : MCPServer) : MCPServer := { s with connected := true }

/-- `disconnect`, which takes the flag back. -/
def disconnect (s : MCPServer) : MCPServer := { s with connected := false }

/-- `call_tool` of a server object; `none` when there is no such object. The call connects the
server if it is not connected, also when the registry has let go of it. -/
def callTool (s : MCPServer) (toolName : String) (args : Json) :
    Except McpError Json × MCPServer :=
  let s := if s.connected then s else s.connect
  if toolName ∉ s.tools then
    (.error (.valueError ("Unknown tool: " ++ toolName ++ " on " ++ s.name)), s)
  else
    match s.handler with
    | some handler => ((handler toolName args).mapError .handler, s)
    | none => (.error (.notImplementedError ("MCP server " ++ s.name ++ " not connected")), s)

end MCPServer

/-- What `register` stores: the description of a server from which one is spawned when it is first
asked for. -/
structure ServerSpec where
  tools : List String
  command : Option (List String)
  handler : Option Handler

/-- The registry, with every object it has handed out. Only `servers` and `specs` are attributes of
the class. -/
structure ManagedMCPRegistry where
  /-- The cache, with the places of the server objects. -/
  servers : Dict String Nat
  specs : Dict String ServerSpec
  /-- Every server object that was ever spawned, in order. -/
  objects : List MCPServer

namespace ManagedMCPRegistry

/-- A new registry. -/
def new : ManagedMCPRegistry := { servers := .empty, specs := .empty, objects := [] }

variable (r : ManagedMCPRegistry)

/-- `register`: it stores the spec of a server under its name, and starts nothing. -/
def register (name : String) (spec : ServerSpec) : ManagedMCPRegistry :=
  { r with specs := r.specs.set name spec }

/-- `get_or_spawn`: the server in the cache, or a new one that is connected and cached. -/
def getOrSpawn (serverName : String) : Except McpError Nat × ManagedMCPRegistry :=
  match r.servers.get? serverName with
  | some server => (.ok server, r)
  | none =>
    match r.specs.get? serverName with
    | none =>
      (.error (.valueError ("Unknown MCP server: " ++ serverName ++ ". Register it first.")), r)
    | some spec =>
      let server : MCPServer :=
        { name := serverName, tools := spec.tools, handler := spec.handler, connected := false }
      (.ok r.objects.length,
        { r with
          servers := r.servers.set serverName r.objects.length
          objects := r.objects ++ [server.connect] })

/-- `call_tool` of a server object; `none` when there is no such object. -/
def callTool (server : Nat) (toolName : String) (args : Json) :
    Option (Except McpError Json × ManagedMCPRegistry) :=
  (r.objects[server]?).map fun s =>
    let (result, s) := s.callTool toolName args
    (result, { r with objects := r.objects.set server s })

/-- `cleanup`: the loop over the cache, and `clear`. It meets no object that has left the cache. -/
def cleanup : ManagedMCPRegistry :=
  { r with
    servers := .empty
    objects := r.servers.entries.foldl (fun objects e => objects.modify e.2 MCPServer.disconnect)
      r.objects }

/-- A tool call as the wrappers of `mcp_skill` and `register_mcp_tool` make it on a registry. -/
def callWrapped (serverName toolName : String) (args : Json) :
    Option (Except McpError Json × ManagedMCPRegistry) :=
  match r.getOrSpawn serverName with
  | (.error e, r) => some (.error e, r)
  | (.ok server, r) => r.callTool server toolName args

end ManagedMCPRegistry

/-- An operation of a caller. A server object that was handed out can be used at any later time, and
this is what makes `cleanup` incomplete. -/
inductive McpAction
  | register (name : String) (spec : ServerSpec)
  | getOrSpawn (serverName : String)
  /-- On any server object obtained earlier. -/
  | callTool (server : Nat) (toolName : String) (args : Json)
  | cleanup

/-- The runs of the callers of one registry. Every operation is one step, since nothing in them is
awaited. -/
def ManagedMCPRegistry.callers : System ManagedMCPRegistry McpAction where
  init := .new
  step? r
    | .register name spec => some (r.register name spec)
    | .getOrSpawn serverName => some (r.getOrSpawn serverName).2
    | .callTool server toolName args => (r.callTool server toolName args).map (·.2)
    | .cleanup => some r.cleanup

/-- An operation of a caller that uses the wrappers. Such a caller never holds a server object
between two operations. -/
inductive WrappedAction
  | register (name : String) (spec : ServerSpec)
  | call (serverName toolName : String) (args : Json)
  /-- `run_sync_with_mcp` ends with it. -/
  | cleanup

/-- The runs of the callers that use the wrappers. They are runs of the registry as well, each
wrapped call standing for the operations that it makes. -/
def ManagedMCPRegistry.wrapped : System ManagedMCPRegistry WrappedAction where
  init := .new
  step? r
    | .register name spec => some (r.register name spec)
    | .call serverName toolName args => (r.callWrapped serverName toolName args).map (·.2)
    | .cleanup => some r.cleanup

end Orchestrator.Sdk
