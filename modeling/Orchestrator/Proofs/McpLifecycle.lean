import Orchestrator.Lib.Loops
import Orchestrator.Sdk.Mcp

/-!
# `Orchestrator.Proofs.McpLifecycle`: the lifecycle of managed MCP servers

`cleanup` disconnects the cached servers and empties the cache, but a caller may keep a server
object over it, and a tool call connects the object by itself. It is then connected and not in the
cache: the next `get_or_spawn` of its name spawns a second one, and no `cleanup` disconnects the
first.

`mcp_lifecycle` says that this is the only way to lose a server: the lifecycle is right exactly in
the runs in which tools are called on cached servers only. A server is cached from the call of
`get_or_spawn` that hands it out to the next `cleanup` (`getOrSpawn_cached`, `step_keeps_cached`),
so the wrappers, which ask for the server right before the call, stay within these runs
(`wrapped_by`).

The invariant is that every connected server is in the cache (`AllCached`). It is exact step by step
(`allCached_step`), and a server that was lost stays lost, because no operation puts an object into
the cache that has left it. Beside it goes `Named`, by which a cached server has the name it is
cached under, so that no two cached servers have one name.
-/

set_option autoImplicit false

namespace Orchestrator.Proofs

open Orchestrator.Lib Orchestrator.Sdk Orchestrator.Sdk.ManagedMCPRegistry

/-- A server object is in the cache. -/
def InCache (r : ManagedMCPRegistry) (i : Nat) : Prop := ∃ name, r.servers.get? name = some i

/-- The lifecycle of the server objects that the registry ever spawned. A connected server is the
cached one of its name, and nothing stays connected over a `cleanup`. -/
structure Lifecycle (r : ManagedMCPRegistry) : Prop where
  /-- At most one connected server has a name. -/
  one : ∀ (i j : Nat) (s t : MCPServer), r.objects[i]? = some s → r.objects[j]? = some t →
    s.connected = true → t.connected = true → s.name = t.name → i = j
  /-- A connected server is in the cache. -/
  cached : ∀ (i : Nat) (s : MCPServer), r.objects[i]? = some s → s.connected = true → InCache r i
  /-- Right after `cleanup` no server is connected. -/
  cleaned : ∀ s ∈ r.cleanup.objects, s.connected = false

/-- The condition on an operation: a tool is called on a server in the cache. -/
def callsCached (r : ManagedMCPRegistry) : McpAction → Bool
  | .callTool i _ _ => r.servers.entries.any (fun e => e.2 = i)
  | _ => true

/-- For a tool call the condition is that the server is in the cache. Other operations meet it
always. -/
theorem callsCached_callTool {r : ManagedMCPRegistry} {i : Nat} {tool : String} {args : Json} :
    callsCached r (.callTool i tool args) = true ↔ InCache r i := by
  show r.servers.entries.any (fun e => e.2 = i) = true ↔ _
  rw [List.any_eq_true]
  constructor
  · rintro ⟨e, he, hi⟩
    exact ⟨e.1, (r.servers.mem_entries e.1 i).mp (of_decide_eq_true hi ▸ he)⟩
  · rintro ⟨name, h⟩
    exact ⟨(name, i), (r.servers.mem_entries name i).mpr h, decide_eq_true rfl⟩

/-! ### The operations -/

section Operations

variable {r r' : ManagedMCPRegistry}

/-- Whatever comes of it, a tool call leaves the server connected. -/
theorem callTool_connects (s : MCPServer) (tool : String) (args : Json) :
    (s.callTool tool args).2 = s.connect := by
  have hconnect : (if s.connected then s else s.connect) = s.connect := by
    by_cases h : s.connected = true
    · rw [if_pos h]
      cases s
      cases h
      rfl
    · rw [if_neg h]
  unfold MCPServer.callTool
  simp only [hconnect]
  split
  · rfl
  · split <;> rfl

/-- What a tool call does to the registry. -/
theorem callTool_some {i : Nat} {tool : String} {args : Json}
    {out : Except McpError Json × ManagedMCPRegistry} (h : r.callTool i tool args = some out) :
    ∃ s, r.objects[i]? = some s ∧ out.2 = { r with objects := r.objects.set i s.connect } := by
  obtain ⟨s, hs, heq⟩ := Option.map_eq_some_iff.mp h
  refine ⟨s, hs, ?_⟩
  rw [← callTool_connects s tool args]
  exact (congrArg Prod.snd heq).symm

/-- What `get_or_spawn` does: it refuses an unknown name, hands out the cached server, or spawns and
caches one. -/
inductive Spawn (r : ManagedMCPRegistry) (name : String) :
    Except McpError Nat × ManagedMCPRegistry → Prop
  | unknown (e : McpError) : Spawn r name (.error e, r)
  | hit (i : Nat) (hi : r.servers.get? name = some i) : Spawn r name (.ok i, r)
  | spawned (s : MCPServer) (hname : s.name = name) (hnone : r.servers.get? name = none) :
      Spawn r name (.ok r.objects.length,
        { r with servers := r.servers.set name r.objects.length, objects := r.objects ++ [s] })

/-- The three cases of `get_or_spawn`. -/
theorem getOrSpawn_spawn (r : ManagedMCPRegistry) (name : String) :
    Spawn r name (r.getOrSpawn name) := by
  unfold getOrSpawn
  cases hget : r.servers.get? name with
  | some i => exact .hit i hget
  | none =>
      cases r.specs.get? name with
      | none => exact .unknown _
      | some spec => exact .spawned _ rfl hget

/-- `cleanup` disconnects the servers in the cache and leaves the others alone. -/
theorem cleanup_objects (r : ManagedMCPRegistry) (i : Nat) :
    (InCache r i → r.cleanup.objects[i]? = (r.objects[i]?).map MCPServer.disconnect) ∧
    (¬ InCache r i → r.cleanup.objects[i]? = r.objects[i]?) := by
  have hmem : i ∈ r.servers.entries.map Prod.snd ↔ InCache r i := by
    constructor
    · intro h
      obtain ⟨e, he, rfl⟩ := List.mem_map.mp h
      exact ⟨e.1, (r.servers.mem_entries e.1 e.2).mp he⟩
    · rintro ⟨name, h⟩
      exact List.mem_map.mpr ⟨(name, i), (r.servers.mem_entries name i).mpr h, rfl⟩
  have hloop : r.cleanup.objects[i]? = if i ∈ r.servers.entries.map Prod.snd then
      (r.objects[i]?).map MCPServer.disconnect else r.objects[i]? :=
    @getElem?_foldl_modify _ _ Prod.snd MCPServer.disconnect (fun _ => rfl) _ _ i
  rw [hloop]
  exact ⟨fun h => if_pos (hmem.mpr h), fun h => if_neg (mt hmem.mp h)⟩

/-- A server that `get_or_spawn` hands out is in the cache. -/
theorem getOrSpawn_cached {name : String} {i : Nat} (h : r.getOrSpawn name = (.ok i, r')) :
    InCache r' i := by
  have hspawn := getOrSpawn_spawn r name
  rw [h] at hspawn
  cases hspawn with
  | hit i hi => exact ⟨name, hi⟩
  | spawned s _ _ => exact ⟨name, Dict.get?_set_self _ _ _⟩

/-- It stays there until the next `cleanup`: no other operation takes an entry out of the cache or
replaces one. -/
theorem step_keeps_cached {a : McpAction} {i : Nat} (h : callers.step? r a = some r')
    (ha : a ≠ .cleanup) (hi : InCache r i) : InCache r' i := by
  obtain ⟨name, hname⟩ := hi
  cases a with
  | register _ _ =>
      cases h
      exact ⟨name, hname⟩
  | getOrSpawn server =>
      have hspawn := getOrSpawn_spawn r server
      rw [← Option.some.inj h]
      generalize r.getOrSpawn server = out at hspawn
      cases hspawn with
      | unknown _ => exact ⟨name, hname⟩
      | hit _ _ => exact ⟨name, hname⟩
      | spawned s _ hnone =>
          -- A server is spawned only where the cache has no entry, so no cached object is pushed
          -- out.
          have hne : name ≠ server := by
            rintro rfl
            rw [hnone] at hname
            cases hname
          exact ⟨name, (Dict.get?_set_ne _ _ hne).trans hname⟩
  | callTool j tool args =>
      obtain ⟨out, hout, rfl⟩ := Option.map_eq_some_iff.mp h
      obtain ⟨s, -, heq⟩ := callTool_some hout
      rw [heq]
      exact ⟨name, hname⟩
  | cleanup => exact absurd rfl ha

end Operations

/-! ### Steps -/

/-- A cached server has the name it is cached under. -/
def Named (r : ManagedMCPRegistry) : Prop :=
  ∀ (name : String) (i : Nat), r.servers.get? name = some i →
    ∃ s : MCPServer, r.objects[i]? = some s ∧ s.name = name

/-- Every connected server is in the cache. -/
def AllCached (r : ManagedMCPRegistry) : Prop :=
  ∀ (i : Nat) (s : MCPServer), r.objects[i]? = some s → s.connected = true → InCache r i

section Steps

variable {r r' : ManagedMCPRegistry}

/-- The places behind a new server are as before. -/
theorem spawned_objects (xs : List MCPServer) (s : MCPServer) {i : Nat} (hi : i ≠ xs.length) :
    (xs ++ [s])[i]? = xs[i]? := by
  by_cases hlt : i < xs.length
  · exact List.getElem?_append_left hlt
  · rw [List.getElem?_eq_none (by simp; omega), List.getElem?_eq_none (by omega)]

/-- Every operation keeps the names: the entry of the cache for a name leads to an object of this
name. -/
theorem Named.step (h : Named r) {a : McpAction} (hstep : callers.step? r a = some r') :
    Named r' := by
  cases a with
  | register _ _ =>
      cases hstep
      exact h
  | getOrSpawn name =>
      have hspawn := getOrSpawn_spawn r name
      rw [← Option.some.inj hstep]
      generalize r.getOrSpawn name = out at hspawn
      cases hspawn with
      | unknown _ => exact h
      | hit _ _ => exact h
      | spawned s hname _ =>
          intro key i hi
          change (r.servers.set name r.objects.length).get? key = some i at hi
          rw [Dict.get?_set] at hi
          -- The new entry leads to the object that was just appended, every other one to an old
          -- object.
          by_cases hkey : key = name
          · rw [if_pos hkey] at hi
            cases hi
            exact ⟨s, by simp, hname.trans hkey.symm⟩
          · rw [if_neg hkey] at hi
            obtain ⟨t, ht, htname⟩ := h key i hi
            have hlt := (List.getElem?_eq_some_iff.mp ht).1
            exact ⟨t, (spawned_objects r.objects s (by omega)).trans ht, htname⟩
  | callTool i tool args =>
      obtain ⟨out, hout, rfl⟩ := Option.map_eq_some_iff.mp hstep
      obtain ⟨s, hs, heq⟩ := callTool_some hout
      rw [heq]
      intro key j hj
      obtain ⟨t, ht, hname⟩ := h key j hj
      -- A call changes the connection of its object and keeps the name.
      by_cases hij : i = j
      · subst hij
        rw [hs] at ht
        cases ht
        exact ⟨_, List.getElem?_set_self (List.getElem?_eq_some_iff.mp hs).1, hname⟩
      · exact ⟨t, (List.getElem?_set_ne hij).trans ht, hname⟩
  | cleanup =>
      cases hstep
      intro key i hi
      cases hi

/-- The names are right in every state that callers can reach. -/
theorem reachable_named (hr : callers.Reachable r) : Named r :=
  hr.holds (fun _ _ hi => by cases hi) fun _ _ _ _ h hstep => h.step hstep

/-- A server that is cached is cached under its own name. -/
theorem Named.get? (h : Named r) {i : Nat} {s : MCPServer} (hs : r.objects[i]? = some s)
    (hi : InCache r i) : r.servers.get? s.name = some i := by
  obtain ⟨name, hname⟩ := hi
  obtain ⟨t, ht, htname⟩ := h name i hname
  rw [hs] at ht
  cases ht
  rw [htname]
  exact hname

/-- `cleanup` disconnects all servers exactly when it finds the connected ones in the cache. -/
theorem cleanup_iff : AllCached r ↔ ∀ s ∈ r.cleanup.objects, s.connected = false := by
  constructor
  · intro h s hs
    obtain ⟨i, hi⟩ := List.mem_iff_getElem?.mp hs
    -- The cleanup disconnects the cached objects and touches no other, so the others must not be
    -- connected before.
    by_cases hcached : InCache r i
    · rw [(cleanup_objects r i).1 hcached] at hi
      obtain ⟨t, -, rfl⟩ := Option.map_eq_some_iff.mp hi
      rfl
    · rw [(cleanup_objects r i).2 hcached] at hi
      by_contra hne
      exact hcached (h i s hi (eq_true_of_ne_false hne))
  · intro h i s hi hs
    by_contra hcached
    have hkept := (cleanup_objects r i).2 hcached
    have hfalse := h s (List.mem_of_getElem? (hkept.trans hi))
    rw [hs] at hfalse
    cases hfalse

/-- Where the names are right, the cache decides about the lifecycle. -/
theorem lifecycle_iff (hnamed : Named r) : Lifecycle r ↔ AllCached r := by
  constructor
  · exact fun h => h.cached
  · intro h
    refine ⟨fun i j s t hi hj hs ht heq => ?_, h, cleanup_iff.mp h⟩
    have hsi := hnamed.get? hi (h i s hi hs)
    have htj := hnamed.get? hj (h j t hj ht)
    rw [heq, htj] at hsi
    exact (Option.some.inj hsi).symm

/-- A new server is cached, and no other one gets into the cache. So asking for a server neither
makes a leak nor mends one. -/
theorem allCached_getOrSpawn (name : String) :
    AllCached (r.getOrSpawn name).2 ↔ AllCached r := by
  have hspawn := getOrSpawn_spawn r name
  generalize r.getOrSpawn name = out at hspawn
  cases hspawn with
  | unknown _ => exact Iff.rfl
  | hit _ _ => exact Iff.rfl
  | spawned s _ hnone =>
      constructor
      · intro h i t hi ht
        have hlt := (List.getElem?_eq_some_iff.mp hi).1
        obtain ⟨key, hkey⟩ := h i t
          ((spawned_objects r.objects s (show i ≠ r.objects.length by omega)).trans hi) ht
        change (r.servers.set name r.objects.length).get? key = some i at hkey
        rw [Dict.get?_set] at hkey
        -- An old object cannot be cached under the new entry.
        by_cases heq : key = name
        · rw [if_pos heq] at hkey
          have := Option.some.inj hkey
          omega
        · rw [if_neg heq] at hkey
          exact ⟨key, hkey⟩
      · intro h i t hi ht
        -- The object appended last is the one that the new entry leads to.
        by_cases hlast : i = r.objects.length
        · subst hlast
          exact ⟨name, Dict.get?_set_self _ _ _⟩
        · change (r.objects ++ [s])[i]? = some t at hi
          rw [spawned_objects r.objects s hlast] at hi
          obtain ⟨key, hkey⟩ := h i t hi ht
          have hne : key ≠ name := by
            rintro rfl
            rw [hnone] at hkey
            cases hkey
          exact ⟨key, (Dict.get?_set_ne _ _ hne).trans hkey⟩

/-- A tool call keeps the cache, and connects its server. -/
theorem allCached_connect {i : Nat} {s : MCPServer} (hs : r.objects[i]? = some s) :
    AllCached { r with objects := r.objects.set i s.connect } ↔ AllCached r ∧ InCache r i := by
  have hlt := (List.getElem?_eq_some_iff.mp hs).1
  constructor
  · intro h
    have hi : InCache r i := h i s.connect (List.getElem?_set_self hlt) rfl
    refine ⟨fun j t hj ht => ?_, hi⟩
    by_cases hij : i = j
    · exact hij ▸ hi
    · exact h j t ((List.getElem?_set_ne hij).trans hj) ht
  · rintro ⟨h, hi⟩ j t hj ht
    by_cases hij : i = j
    · exact hij ▸ hi
    · change (r.objects.set i s.connect)[j]? = some t at hj
      rw [List.getElem?_set_ne hij] at hj
      exact h j t hj ht

/-- An operation leaves every connected server in the cache exactly when that was so before and it
calls no tool on another server. -/
theorem allCached_step {a : McpAction} (hstep : callers.step? r a = some r') :
    AllCached r' ↔ AllCached r ∧ callsCached r a = true := by
  cases a with
  | register _ _ =>
      cases hstep
      exact (and_iff_left rfl).symm
  | getOrSpawn name =>
      cases hstep
      exact (allCached_getOrSpawn name).trans (and_iff_left rfl).symm
  | callTool i tool args =>
      obtain ⟨out, hout, rfl⟩ := Option.map_eq_some_iff.mp hstep
      obtain ⟨s, hs, heq⟩ := callTool_some hout
      rw [heq, allCached_connect hs, callsCached_callTool]
  | cleanup =>
      cases hstep
      refine Iff.trans ?_ (and_iff_left rfl).symm
      rw [@cleanup_iff r]
      -- Nothing is cached any more, so nothing may be connected.
      constructor
      · intro h s hs
        obtain ⟨i, hi⟩ := List.mem_iff_getElem?.mp hs
        by_contra hne
        obtain ⟨key, hkey⟩ := h i s hi (eq_true_of_ne_false hne)
        cases hkey
      · intro h i s hi hs
        rw [h s (List.mem_of_getElem? hi)] at hs
        cases hs

/-- The lifecycle, step by step. -/
theorem lifecycle_step {a : McpAction} (hr : callers.Reachable r)
    (hstep : callers.step? r a = some r') :
    Lifecycle r' ↔ Lifecycle r ∧ callsCached r a = true := by
  have hnamed := reachable_named hr
  rw [lifecycle_iff (hnamed.step hstep), lifecycle_iff hnamed, allCached_step hstep]

/-- A new registry has no servers. -/
theorem lifecycle_new : Lifecycle .new :=
  (lifecycle_iff (reachable_named .init)).mpr fun _ _ hi _ => by cases hi

end Steps

/-! ### Runs -/

/-- The lifecycle is right in the state that a run leads to exactly when the run calls tools on
cached servers only. One call on another server is never made good again: it connects an object that
no `cleanup` will ever see. A step on cached servers keeps the lifecycle (`lifecycle_step`), so the
condition on the run can be read off its end. -/
theorem mcp_lifecycle (as : List McpAction) (r : ManagedMCPRegistry)
    (hrun : callers.run? as = some r) :
    Lifecycle r ↔ callers.Meets (fun r a => callsCached r a = true) .new as := by
  have hexact := System.meets_iff (Q := Lifecycle) (fun _ _ _ hr hstep => lifecycle_step hr hstep)
    System.Reachable.init hrun
  rw [hexact]
  exact and_iff_right lifecycle_new

/-- A caller that asks for its server again after each `cleanup`. It gets a new object, so the old
one stays disconnected. -/
def freshServer : List McpAction :=
  [.register "filesystem" { tools := ["read_file"], command := none, handler := none },
    .getOrSpawn "filesystem", .callTool 0 "read_file" (.obj []), .cleanup,
    .getOrSpawn "filesystem", .callTool 1 "read_file" (.obj [])]

/-- Its second server is connected, the first is not. -/
theorem mcp_lifecycle_fresh : ∃ r, callers.run? freshServer = some r ∧
    r.objects.map (·.connected) = [false, true] ∧ Lifecycle r := by
  have hrun : ((callers.guard callsCached).run? freshServer).any
      (fun r => r.objects.map (·.connected) = [false, true]) = true := by
    rfl
  obtain ⟨r, hr, h⟩ := (Option.any_eq_true _ _).mp hrun
  obtain ⟨hr, hmeets⟩ := System.meets_of_guard hr
  exact ⟨r, hr, of_decide_eq_true h, (mcp_lifecycle freshServer r hr).mpr hmeets⟩

/-- A server that is kept over a `cleanup` and used again. The call connects it, and the registry
does not know of it any more. -/
def keptServer : List McpAction :=
  [.register "filesystem" { tools := ["read_file"], command := none, handler := none },
    .getOrSpawn "filesystem", .cleanup, .callTool 0 "read_file" (.obj []),
    .getOrSpawn "filesystem"]

/-- Two servers of one name are connected, and `cleanup` disconnects one of them. The other one is
out of reach for the registry. -/
theorem kept_server_leaks : ∃ r, callers.Reachable r ∧
    r.objects.map (fun s => (s.name, s.connected)) = [("filesystem", true), ("filesystem", true)] ∧
    r.cleanup.objects.map (·.connected) = [true, false] ∧ ¬ Lifecycle r := by
  have hrun : (callers.run? keptServer).any (fun r =>
      r.objects.map (fun s => (s.name, s.connected))
          = [("filesystem", true), ("filesystem", true)] ∧
        r.cleanup.objects.map (·.connected) = [true, false]) = true := by
    rfl
  obtain ⟨r, hr, h⟩ := System.exists_of_run hrun
  obtain ⟨htwo, hclean⟩ := of_decide_eq_true h
  refine ⟨r, hr, htwo, hclean, fun hlife => ?_⟩
  have hfalse : ∀ b ∈ r.cleanup.objects.map (·.connected), b = false := by
    intro b hb
    obtain ⟨s, hs, rfl⟩ := List.mem_map.mp hb
    exact hlife.cleaned s hs
  have := hfalse true (by rw [hclean]; simp)
  cases this

/-! ### The wrappers -/

/-- Callers that use the wrappers make the operations of a run that meets the condition. -/
theorem wrapped_by {r : ManagedMCPRegistry} (hr : wrapped.Reachable r) :
    callers.ReachableBy (fun r a => callsCached r a = true) r := by
  induction hr with
  | init => exact .init
  | @step r r' a _ hstep ih =>
      cases a with
      | register name spec =>
          exact ih.step (a := .register name spec) rfl hstep
      | cleanup => exact ih.step (a := .cleanup) rfl hstep
      | call name tool args =>
          obtain ⟨out, hout, rfl⟩ := Option.map_eq_some_iff.mp hstep
          have hspawn : callers.ReachableBy (fun r a => callsCached r a = true)
              (r.getOrSpawn name).2 := ih.step (a := .getOrSpawn name) rfl rfl
          unfold callWrapped at hout
          cases hget : r.getOrSpawn name with
          | mk res r₁ =>
              rw [hget] at hout hspawn
              cases res with
              | error e =>
                  cases hout
                  exact hspawn
              | ok i =>
                  -- The server was handed out just now.
                  exact hspawn.step (a := .callTool i tool args)
                    (callsCached_callTool.mpr (getOrSpawn_cached hget))
                    (Option.map_eq_some_iff.mpr ⟨out, hout, rfl⟩)

/-- So their servers have the right lifecycle, without a condition. -/
theorem wrapped_lifecycle {r : ManagedMCPRegistry} (hr : wrapped.Reachable r) : Lifecycle r :=
  (wrapped_by hr).holds lifecycle_new fun _ _ _ hs h ha hstep =>
  (lifecycle_step hs hstep).mpr ⟨h, ha⟩

/-- A wrapper always finds the server it has asked for, so a caller of the wrappers never comes to
an object that is not there. -/
theorem callWrapped_answers {r : ManagedMCPRegistry} (hr : wrapped.Reachable r)
    (name tool : String) (args : Json) : (r.callWrapped name tool args).isSome = true := by
  unfold callWrapped
  cases hget : r.getOrSpawn name with
  | mk res r₁ =>
      cases res with
      | error e => rfl
      | ok i =>
          have hstep : callers.step? r (.getOrSpawn name) = some r₁ := by
            show some (r.getOrSpawn name).2 = some r₁
            rw [hget]
          have hspawn := (wrapped_by hr).reachable.step hstep
          -- The object that was just handed out is in the cache, so the call finds it.
          obtain ⟨key, hkey⟩ := getOrSpawn_cached hget
          obtain ⟨s, hs, -⟩ := reachable_named hspawn key i hkey
          unfold ManagedMCPRegistry.callTool
          rw [Option.isSome_map, hs]
          rfl

end Orchestrator.Proofs
