import AtlasManager.Lib.Graph
import AtlasManager.Service.RegisteredService

/-!
# AtlasManager.Service.DependencyGraph

The dependency graph of the registered services: its construction with the
check for cycles, transitive closures and the two topological orders.

* `RegisteredServiceDependencyGraph` carries that its services are distinct,
  that dependencies are registered and that there is no cycle;
* `detectCycles_iff` -- the check accepts exactly the acyclic graphs;
* `topologicalDependenciesFirst_pairwise`, `topologicalDependentsFirst_pairwise`
  -- the orders respect transitive dependencies between any two listed services;
* `createDependencyGraph_spec` -- which definitions are accepted, and what the
  closures and orders of an accepted graph are in terms of them.
-/

namespace AtlasManager.Service

open AtlasManager.Lib Relation

/-! ## Nodes -/

structure DependencyEntry where
  serviceId : String
  dependencies : List String

structure GraphNode where
  serviceId : String
  directDependencies : List String
  directDependents : List String
  deriving DecidableEq, Repr

inductive DependencyValidationCode where
  | invalidDependenciesType
  | invalidDependencyId
  | duplicateDependency
  | selfDependency
  | unknownDependency
  | circularDependency
  | exceedsLimit
  deriving DecidableEq, Repr

def DependencyValidationCode.text : DependencyValidationCode → String
  | invalidDependenciesType => "invalid_dependencies_type"
  | invalidDependencyId => "invalid_dependency_id"
  | duplicateDependency => "duplicate_dependency"
  | selfDependency => "self_dependency"
  | unknownDependency => "unknown_dependency"
  | circularDependency => "circular_dependency"
  | exceedsLimit => "exceeds_limit"

structure DependencyValidationError where
  code : DependencyValidationCode
  message : String := "Dependency validation failed: " ++ code.text
  deriving DecidableEq, Repr

def nodeIds (nodes : List GraphNode) : List String := nodes.map (·.serviceId)

def findNode (nodes : List GraphNode) (id : String) : Option GraphNode :=
  nodes.find? (·.serviceId = id)

/-- The direct dependencies of a service, none when it is not in the graph. -/
def dependenciesIn (nodes : List GraphNode) (id : String) : List String :=
  match findNode nodes id with
  | some node => node.directDependencies
  | none => []

def dependentsIn (nodes : List GraphNode) (id : String) : List String :=
  match findNode nodes id with
  | some node => node.directDependents
  | none => []

theorem mem_dependenciesIn {nodes : List GraphNode} {id d : String}
    (h : d ∈ dependenciesIn nodes id) :
    ∃ node ∈ nodes, node.serviceId = id ∧ d ∈ node.directDependencies := by
  unfold dependenciesIn findNode at h
  cases hfind : nodes.find? (·.serviceId = id) with
  | none => simp [hfind] at h
  | some node =>
      rw [hfind] at h
      exact ⟨node, List.mem_of_find?_eq_some hfind, by simpa using List.find?_some hfind, h⟩

theorem mem_dependentsIn {nodes : List GraphNode} {id d : String}
    (h : d ∈ dependentsIn nodes id) :
    ∃ node ∈ nodes, node.serviceId = id ∧ d ∈ node.directDependents := by
  unfold dependentsIn findNode at h
  cases hfind : nodes.find? (·.serviceId = id) with
  | none => simp [hfind] at h
  | some node =>
      rw [hfind] at h
      exact ⟨node, List.mem_of_find?_eq_some hfind, by simpa using List.find?_some hfind, h⟩

/-- With distinct ids a node is found under its own id. -/
theorem findNode_eq_some {nodes : List GraphNode} (hnodup : (nodeIds nodes).Nodup)
    {node : GraphNode} (h : node ∈ nodes) : findNode nodes node.serviceId = some node := by
  induction nodes with
  | nil => simp at h
  | cons n ns ih =>
      obtain ⟨hn, hns⟩ := List.nodup_cons.mp hnodup
      rcases List.mem_cons.mp h with rfl | h
      · simp [findNode]
      · have hne : n.serviceId ≠ node.serviceId := by
          intro heq
          exact hn (List.mem_map.mpr ⟨node, h, heq.symm⟩)
        rw [findNode, List.find?_cons_of_neg (by simpa using hne)]
        exact ih hns h

/-! ## The check for cycles -/

/-- `queue.shift()` until the queue is empty; the number of visited services. -/
def detectCyclesLoop (dependents : String → List String) : Nat → Kahn String → Nat → Nat
  | 0, _, visited => visited
  | fuel + 1, k, visited =>
    match k.queue with
    | [] => visited
    | id :: queue =>
      detectCyclesLoop dependents fuel (Kahn.visit sortTexts dependents ⟨k.degree, queue⟩ id)
        (visited + 1)

/-- The number of dependencies each service has. -/
def indegree (nodes : List GraphNode) (id : String) : Int := (dependenciesIn nodes id).length

/-- The number of services that can be visited dependencies first. -/
def visitedCount (nodes : List GraphNode) : Nat :=
  let ids := nodeIds nodes
  let dependents := Kahn.adjacency (dependenciesIn nodes) ids
  let queue := sortTexts (ids.filter fun id => indegree nodes id = 0)
  detectCyclesLoop dependents ids.length ⟨indegree nodes, queue⟩ 0

def detectCycles (nodes : List GraphNode) : Except DependencyValidationError Unit :=
  if visitedCount nodes ≠ nodes.length then .error { code := .circularDependency } else .ok ()

/-- **Cycle check, run lemma**: from any state of the traversal the loop counts
the services it can still visit. -/
theorem detectCyclesLoop_spec {next : String → List String} {verts : List String}
    (hverts : verts.Nodup) (hnext : ∀ p ∈ verts, ∀ n ∈ next p, n ∈ verts) (fuel : Nat)
    (k : Kahn String) (done waiting : List String)
    (h : Kahn.Inv next verts done k.queue waiting k.degree)
    (hfuel : k.queue.length + waiting.length ≤ fuel) :
    ∃ done' waiting' degree', Kahn.Inv next verts done' [] waiting' degree' ∧
      detectCyclesLoop next fuel k done.length = done'.length := by
  induction fuel generalizing k done waiting with
  | zero =>
      have hqueue : k.queue = [] := List.length_eq_zero_iff.mp (by omega)
      exact ⟨done, waiting, k.degree, hqueue ▸ h, rfl⟩
  | succ fuel ih =>
      obtain ⟨degree, queue⟩ := k
      cases queue with
      | nil => exact ⟨done, waiting, degree, h, rfl⟩
      | cons id queue =>
          obtain ⟨new, waiting', hqueue, hinv⟩ :=
            h.visit hverts hnext sortTexts_perm (List.Perm.refl _) queue
          have hlen := h.perm.length_eq
          have hlen' := hinv.perm.length_eq
          have hlenQueue := hqueue.length_eq
          simp only [List.length_append, List.length_cons, List.length_nil] at *
          obtain ⟨done', waiting'', degree', hinv', hcount⟩ :=
            ih _ (done ++ [id]) waiting' (hinv.congr_pending hqueue.symm) (by
              rw [hlenQueue]
              omega)
          refine ⟨done', waiting'', degree', hinv', ?_⟩
          rw [← hcount, List.length_append]
          rfl

/-- **Cycle check**: it accepts exactly the graphs without a cycle. -/
theorem detectCycles_iff {nodes : List GraphNode} (hnodup : (nodeIds nodes).Nodup)
    (hknown : ∀ n ∈ nodes, ∀ d ∈ n.directDependencies, d ∈ nodeIds nodes) :
    detectCycles nodes = .ok () ↔ Acyclic (dependenciesIn nodes) := by
  set ids := nodeIds nodes with hids
  set adj := Kahn.adjacency (dependenciesIn nodes) ids with hadj
  have hdeps : ∀ id, ∀ d ∈ dependenciesIn nodes id, d ∈ ids := by
    intro id d hd
    obtain ⟨node, hnode, -, hd'⟩ := mem_dependenciesIn hd
    exact hknown node hnode d hd'
  have hsource : ∀ id, ∀ d ∈ dependenciesIn nodes id, id ∈ ids := by
    intro id d hd
    obtain ⟨node, hnode, rfl, -⟩ := mem_dependenciesIn hd
    exact List.mem_map_of_mem hnode
  have hadjEdge : ∀ p n, n ∈ adj p ↔ p ∈ dependenciesIn nodes n := by
    intro p n
    rw [hadj, Kahn.mem_adjacency]
    exact ⟨And.right, fun h => ⟨hsource n p h, h⟩⟩
  have hswap : Acyclic adj ↔ Acyclic (dependenciesIn nodes) := by
    have hedge : Edge adj = Function.swap (Edge (dependenciesIn nodes)) := by
      funext p n
      exact propext (hadjEdge p n)
    simp only [Acyclic, hedge, transGen_swap]
  have hindegree : indegree nodes = Kahn.degrees (dependenciesIn nodes) ids := by
    funext n
    by_cases hn : n ∈ ids
    · simp only [indegree, Kahn.degrees, hn, if_true]
      rw [List.filter_eq_self.mpr (by simpa using hdeps n)]
    · have hnone : dependenciesIn nodes n = [] := by
        rw [List.eq_nil_iff_forall_not_mem]
        exact fun d hd => hn (hsource n d hd)
      simp [indegree, Kahn.degrees, hn, hnone]
  have hinit := Kahn.inv_init hnodup (sortTexts_perm
    (ids.filter fun id => Kahn.degrees (dependenciesIn nodes) ids id = 0))
  rw [← hindegree] at hinit
  have hadjIds : ∀ p, ∀ n ∈ adj p, p ∈ ids ∧ n ∈ ids := by
    intro p n hn
    have hp := (hadjEdge p n).mp hn
    exact ⟨hdeps n p hp, hsource n p hp⟩
  have hlenInit := hinit.perm.length_eq
  obtain ⟨done, waiting, degree, hinv, hcount⟩ := detectCyclesLoop_spec hnodup
    (fun p _ n hn => (hadjIds p n hn).2) ids.length
    ⟨indegree nodes, sortTexts (ids.filter fun id => indegree nodes id = 0)⟩ [] _ hinit (by
      simp only [List.nil_append, List.length_append] at hlenInit ⊢
      omega)
  have hvisited : visitedCount nodes = done.length := hcount
  have hlen : nodes.length = done.length + waiting.length := by
    have := hinv.perm.length_eq
    simpa [hids, nodeIds] using this
  unfold detectCycles
  rw [hvisited, hlen, ← hswap]
  constructor
  · intro hok
    have hwaiting : waiting = [] := by
      split at hok
      · simp at hok
      · exact List.length_eq_zero_iff.mp (by omega)
    subst hwaiting
    exact hinv.acyclic hnodup hadjIds
  · intro hacyclic
    rw [hinv.waiting_eq_nil hacyclic]
    simp

/-! ## The graph -/

/-- The dependency graph of the registered services. -/
structure RegisteredServiceDependencyGraph where
  nodes : List GraphNode
  nodup : (nodeIds nodes).Nodup
  known : ∀ n ∈ nodes, ∀ d ∈ n.directDependencies, d ∈ nodeIds nodes
  dependents : ∀ id d, d ∈ dependentsIn nodes id ↔ id ∈ dependenciesIn nodes d
  acyclic : Acyclic (dependenciesIn nodes)

namespace RegisteredServiceDependencyGraph

variable (graph : RegisteredServiceDependencyGraph)

def directDependenciesOf (id : String) : List String := dependenciesIn graph.nodes id
def directDependentsOf (id : String) : List String := dependentsIn graph.nodes id
def hasService (id : String) : Bool := (findNode graph.nodes id).isSome
def serviceIds : List String := sortTexts (nodeIds graph.nodes)

/-- `a` depends on `b`, directly or through other services. -/
def DependsOn (a b : String) : Prop := TransGen (Edge graph.directDependenciesOf) a b

end RegisteredServiceDependencyGraph

/-- The services that list `id` among their dependencies, once for each time. -/
def directDependentsFrom (entries : List DependencyEntry) (id : String) : List String :=
  entries.flatMap fun entry => (entry.dependencies.filter (· = id)).map fun _ => entry.serviceId

def graphNode (entries : List DependencyEntry) (entry : DependencyEntry) : GraphNode where
  serviceId := entry.serviceId
  directDependencies := entry.dependencies
  directDependents := sortTexts (directDependentsFrom entries entry.serviceId)

def graphNodes (entries : List DependencyEntry) : List GraphNode :=
  entries.map (graphNode entries)

/-- The first id that was already given to an earlier entry. -/
def firstDuplicate (seen : List String) : List DependencyEntry → Option String
  | [] => none
  | entry :: entries =>
    if entry.serviceId ∈ seen then some entry.serviceId
    else firstDuplicate (entry.serviceId :: seen) entries

theorem firstDuplicate_eq_none {seen : List String} {entries : List DependencyEntry} :
    firstDuplicate seen entries = none ↔
      (entries.map (·.serviceId)).Nodup ∧ ∀ e ∈ entries, e.serviceId ∉ seen := by
  induction entries generalizing seen with
  | nil => simp [firstDuplicate]
  | cons e es ih =>
      simp only [firstDuplicate]
      split
      · rename_i hmem
        simp [hmem]
      · rename_i hmem
        rw [ih]
        simp only [List.map_cons, List.nodup_cons, List.mem_cons, List.mem_map]
        grind

@[simp] theorem nodeIds_graphNodes (entries : List DependencyEntry) :
    nodeIds (graphNodes entries) = entries.map (·.serviceId) := by
  simp [nodeIds, graphNodes, graphNode, Function.comp_def]

theorem findNode_graphNodes {entries : List DependencyEntry}
    (hnodup : (entries.map (·.serviceId)).Nodup) {e : DependencyEntry} (he : e ∈ entries) :
    findNode (graphNodes entries) e.serviceId = some (graphNode entries e) := by
  have hnode : graphNode entries e ∈ graphNodes entries := List.mem_map_of_mem he
  exact findNode_eq_some (by simpa using hnodup) hnode

theorem mem_dependenciesIn_graphNodes {entries : List DependencyEntry}
    (hnodup : (entries.map (·.serviceId)).Nodup) {id d : String} :
    d ∈ dependenciesIn (graphNodes entries) id ↔
      ∃ e ∈ entries, e.serviceId = id ∧ d ∈ e.dependencies := by
  constructor
  · intro h
    obtain ⟨node, hnode, rfl, hd⟩ := mem_dependenciesIn h
    obtain ⟨e, he, rfl⟩ := List.mem_map.mp hnode
    exact ⟨e, he, rfl, hd⟩
  · rintro ⟨e, he, rfl, hd⟩
    rw [dependenciesIn, findNode_graphNodes hnodup he]
    exact hd

theorem mem_dependentsIn_graphNodes {entries : List DependencyEntry}
    (hnodup : (entries.map (·.serviceId)).Nodup)
    (hknown : ∀ e ∈ entries, ∀ d ∈ e.dependencies, d ∈ entries.map (·.serviceId)) {id d : String} :
    d ∈ dependentsIn (graphNodes entries) id ↔
      id ∈ dependenciesIn (graphNodes entries) d := by
  have hfrom : ∀ id, d ∈ directDependentsFrom entries id ↔
      ∃ e ∈ entries, e.serviceId = d ∧ id ∈ e.dependencies := by
    intro id
    simp only [directDependentsFrom, List.mem_flatMap, List.mem_map, List.mem_filter,
      decide_eq_true_eq]
    grind
  rw [mem_dependenciesIn_graphNodes hnodup]
  constructor
  · intro h
    obtain ⟨node, hnode, rfl, hd⟩ := mem_dependentsIn h
    obtain ⟨e, he, rfl⟩ := List.mem_map.mp hnode
    exact (hfrom _).mp (mem_sortTexts.mp hd)
  · intro h
    obtain ⟨e, he, hd, hid⟩ := h
    obtain ⟨target, htarget, rfl⟩ := List.mem_map.mp (hknown e he id hid)
    rw [dependentsIn, findNode_graphNodes hnodup htarget]
    exact mem_sortTexts.mpr ((hfrom _).mpr ⟨e, he, hd, hid⟩)

/-- Build the graph of some services and their dependencies. -/
def createDependencyGraph (entries : List DependencyEntry) :
    Except DependencyValidationError RegisteredServiceDependencyGraph :=
  match hdup : firstDuplicate [] entries with
  | some id =>
    .error { code := .duplicateDependency, message := "Duplicate service ID: " ++ id }
  | none =>
    if hunknown : ∃ e ∈ entries, ∃ d ∈ e.dependencies, d ∉ entries.map (·.serviceId) then
      .error { code := .unknownDependency }
    else
      match hcycles : detectCycles (graphNodes entries) with
      | .error e => .error e
      | .ok () =>
        have hnodup : (entries.map (·.serviceId)).Nodup := (firstDuplicate_eq_none.mp hdup).1
        have hknown : ∀ e ∈ entries, ∀ d ∈ e.dependencies, d ∈ entries.map (·.serviceId) := by
          push Not at hunknown
          exact hunknown
        have hknownNodes : ∀ n ∈ graphNodes entries, ∀ d ∈ n.directDependencies,
            d ∈ nodeIds (graphNodes entries) := by
          intro n hn d hd
          obtain ⟨e, he, rfl⟩ := List.mem_map.mp hn
          rw [nodeIds_graphNodes]
          exact hknown e he d hd
        have hnodupNodes : (nodeIds (graphNodes entries)).Nodup := by simpa using hnodup
        .ok {
          nodes := graphNodes entries
          nodup := hnodupNodes
          known := hknownNodes
          dependents := fun _ _ => mem_dependentsIn_graphNodes hnodup hknown
          acyclic := (detectCycles_iff hnodupNodes hknownNodes).mp hcycles }

theorem createDependencyGraph_eq_ok (entries : List DependencyEntry)
    (hdup : firstDuplicate [] entries = none)
    (hknown : ∀ e ∈ entries, ∀ d ∈ e.dependencies, d ∈ entries.map (·.serviceId))
    (hcycles : detectCycles (graphNodes entries) = .ok ()) :
    ∃ graph, createDependencyGraph entries = .ok graph ∧ graph.nodes = graphNodes entries := by
  have hnone : ¬ ∃ e ∈ entries, ∃ d ∈ e.dependencies, d ∉ entries.map (·.serviceId) := by
    push Not
    exact hknown
  unfold createDependencyGraph
  split
  · simp_all
  · rw [dif_neg hnone]
    split
    · simp_all
    · exact ⟨_, rfl, rfl⟩

/-- An accepted graph has passed the three checks. -/
theorem createDependencyGraph_ok {entries : List DependencyEntry}
    {graph : RegisteredServiceDependencyGraph} (h : createDependencyGraph entries = .ok graph) :
    firstDuplicate [] entries = none ∧
      (∀ e ∈ entries, ∀ d ∈ e.dependencies, d ∈ entries.map (·.serviceId)) ∧
      detectCycles (graphNodes entries) = .ok () ∧ graph.nodes = graphNodes entries := by
  unfold createDependencyGraph at h
  split at h
  · simp at h
  · rename_i hdup
    split at h
    · simp at h
    · rename_i hunknown
      push Not at hunknown
      split at h
      · simp at h
      · rename_i hcycles
        cases h
        exact ⟨hdup, hunknown, hcycles, rfl⟩

/-! ## Transitive closures -/

inductive Direction where
  | dependencies
  | dependents
  deriving DecidableEq, Repr

def neighborsIn (nodes : List GraphNode) : Direction → String → List String
  | .dependencies => dependenciesIn nodes
  | .dependents => dependentsIn nodes

/-- The services reachable from `startId`, sorted; a walk visits each node once,
so one round for each node and one for the start are enough. -/
def computeClosure (nodes : List GraphNode) (startId : String) (direction : Direction) :
    List String :=
  sortTexts (Search.run (neighborsIn nodes direction) startId (nodes.length + 1)
    ⟨[], [startId]⟩).found

namespace RegisteredServiceDependencyGraph

variable (graph : RegisteredServiceDependencyGraph)

def transitiveDependenciesOf (id : String) : List String :=
  computeClosure graph.nodes id .dependencies

def transitiveDependentsOf (id : String) : List String :=
  computeClosure graph.nodes id .dependents

theorem directDependenciesOf_mem {id d : String} (h : d ∈ graph.directDependenciesOf id) :
    id ∈ nodeIds graph.nodes ∧ d ∈ nodeIds graph.nodes := by
  obtain ⟨node, hnode, rfl, hd⟩ := mem_dependenciesIn h
  exact ⟨List.mem_map_of_mem hnode, graph.known node hnode d hd⟩

theorem mem_directDependentsOf {id d : String} :
    d ∈ graph.directDependentsOf id ↔ id ∈ graph.directDependenciesOf d :=
  graph.dependents id d

theorem neighborsIn_mem (direction : Direction) (p : String) :
    ∀ n ∈ neighborsIn graph.nodes direction p, n ∈ nodeIds graph.nodes := by
  intro n hn
  cases direction with
  | dependencies => exact (graph.directDependenciesOf_mem hn).2
  | dependents => exact (graph.directDependenciesOf_mem ((graph.dependents p n).mp hn)).1

theorem edge_dependents : Edge (neighborsIn graph.nodes .dependents) =
    Function.swap (Edge graph.directDependenciesOf) := by
  funext p n
  exact propext (graph.dependents p n)

theorem acyclic_dependents : Acyclic graph.directDependentsOf := by
  intro a ha
  have hswap : Edge graph.directDependentsOf = Function.swap (Edge graph.directDependenciesOf) :=
    graph.edge_dependents
  rw [hswap] at ha
  exact graph.acyclic a (transGen_swap.mp ha)

theorem not_dependsOn_self (id : String) : ¬ graph.DependsOn id id := graph.acyclic id

/-- **Closure**: it lists the services reachable from the start. -/
theorem mem_computeClosure (direction : Direction) (id n : String) :
    n ∈ computeClosure graph.nodes id direction ↔
      TransGen (Edge (neighborsIn graph.nodes direction)) id n := by
  have hstack := Search.run_stack_eq_nil id (graph.neighborsIn_mem direction)
    (graph.nodes.length + 1) ⟨[], [id]⟩ (by simp [nodeIds, Nat.add_comm])
  have hfound := (Search.inv_init.run (graph.nodes.length + 1)).mem_found hstack n
  rw [computeClosure, mem_sortTexts, hfound]
  refine ⟨And.left, fun h => ⟨h, ?_⟩⟩
  rintro rfl
  cases direction with
  | dependencies => exact graph.acyclic n h
  | dependents =>
      rw [edge_dependents, transGen_swap] at h
      exact graph.acyclic n h

theorem mem_transitiveDependenciesOf (id n : String) :
    n ∈ graph.transitiveDependenciesOf id ↔ graph.DependsOn id n :=
  graph.mem_computeClosure .dependencies id n

theorem mem_transitiveDependentsOf (id n : String) :
    n ∈ graph.transitiveDependentsOf id ↔ graph.DependsOn n id := by
  rw [transitiveDependentsOf, mem_computeClosure, edge_dependents, transGen_swap]
  rfl

end RegisteredServiceDependencyGraph

/-! ## Topological orders -/

/-- The services of a sort: the given ones and what they reach. -/
def sortClosure (nodes : List GraphNode) (ids : List String) (direction : Direction) :
    List String :=
  distinct (ids.flatMap (fun id => computeClosure nodes id direction) ++ ids)

/-- Batches of services that wait for nobody, each batch sorted. -/
def topologicalLoop (adjacency : String → List String) : Nat → Kahn String → List String →
    List String
  | 0, _, result => result
  | fuel + 1, k, result =>
    match k.queue with
    | [] => result
    | _ :: _ =>
      let batch := sortTexts k.queue
      topologicalLoop adjacency fuel (batch.foldl (Kahn.visit id adjacency) ⟨k.degree, []⟩)
        (result ++ batch)

/-- The forward order has dependencies first, the other one dependents first. -/
def topologicalSort (nodes : List GraphNode) (ids : List String) (direction : Direction) :
    List String :=
  let closure := sortClosure nodes ids direction
  let adjacency := Kahn.adjacency (dependenciesIn nodes) closure
  let inDegree := Kahn.degrees (dependenciesIn nodes) closure
  let queue := sortTexts (closure.filter fun id => inDegree id = 0)
  let result := topologicalLoop adjacency closure.length ⟨inDegree, queue⟩ []
  match direction with
  | .dependencies => result
  | .dependents => result.reverse

/-- **Topological order, run lemma**: from any state of the traversal of an
acyclic graph the loop visits every node after its predecessors. -/
theorem topologicalLoop_spec {next : String → List String} {verts : List String}
    (hverts : verts.Nodup) (hnext : ∀ p ∈ verts, ∀ n ∈ next p, n ∈ verts)
    (hacyclic : Acyclic next) (fuel : Nat) (k : Kahn String) (done waiting : List String)
    (h : Kahn.Inv next verts done k.queue waiting k.degree)
    (hfuel : k.queue.length + waiting.length ≤ fuel) :
    (topologicalLoop next fuel k done).Perm verts ∧
      PredClosed (fun p n => p ∈ verts ∧ n ∈ next p) (topologicalLoop next fuel k done) := by
  induction fuel generalizing k done waiting with
  | zero =>
      have hperm := h.perm
      rw [List.length_eq_zero_iff.mp (show k.queue.length = 0 by omega),
        List.length_eq_zero_iff.mp (show waiting.length = 0 by omega)] at hperm
      exact ⟨by simpa [topologicalLoop] using hperm.symm, h.order⟩
  | succ fuel ih =>
      obtain ⟨degree, queue⟩ := k
      cases queue with
      | nil =>
          have hperm := h.perm
          rw [h.waiting_eq_nil hacyclic] at hperm
          exact ⟨by simpa [topologicalLoop] using hperm.symm, h.order⟩
      | cons first queue =>
          have hbatch : (first :: queue).Perm (sortTexts (first :: queue) ++ []) := by
            simpa using (sortTexts_perm (first :: queue)).symm
          obtain ⟨waiting', hinv⟩ := Kahn.Inv.foldl_visit id hverts hnext
            (fun l => List.Perm.refl l) (sortTexts (first :: queue)) ⟨degree, []⟩
            (h.congr_pending hbatch)
          have hlen := h.perm.length_eq
          have hlen' := hinv.perm.length_eq
          have hlenBatch := (sortTexts_perm (first :: queue)).length_eq
          simp only [List.length_append, List.length_cons] at *
          exact ih _ (done ++ sortTexts (first :: queue)) waiting' hinv (by simp only; omega)

namespace RegisteredServiceDependencyGraph

variable (graph : RegisteredServiceDependencyGraph)

def topologicalDependenciesFirst (ids : List String) : List String :=
  topologicalSort graph.nodes ids .dependencies

def topologicalDependentsFirst (ids : List String) : List String :=
  topologicalSort graph.nodes ids .dependents

theorem mem_sortClosure {ids : List String} {direction : Direction} {n : String} :
    n ∈ sortClosure graph.nodes ids direction ↔ n ∈ ids ∨
      ∃ id ∈ ids, TransGen (Edge (neighborsIn graph.nodes direction)) id n := by
  simp only [sortClosure, mem_distinct, List.mem_append, List.mem_flatMap, mem_computeClosure,
    or_comm]

/-- The closure of a sort is closed under the neighbours of its direction. -/
theorem sortClosure_closed {ids : List String} {direction : Direction} {a b : String}
    (ha : a ∈ sortClosure graph.nodes ids direction)
    (hb : b ∈ neighborsIn graph.nodes direction a) :
    b ∈ sortClosure graph.nodes ids direction := by
  rw [mem_sortClosure] at ha ⊢
  rcases ha with ha | ⟨id, hid, hreach⟩
  · exact Or.inr ⟨a, ha, .single hb⟩
  · exact Or.inr ⟨id, hid, .tail hreach hb⟩

/-- The edges a sort works with: dependencies inside its closure. -/
def sortEdge (closure : List String) (p n : String) : Prop :=
  p ∈ closure ∧ n ∈ closure ∧ p ∈ graph.directDependenciesOf n

/-- What the loop of a sort computes. -/
theorem topologicalSort_loop (ids : List String) (direction : Direction) :
    ∃ result, topologicalSort graph.nodes ids direction =
        (match direction with
          | .dependencies => result
          | .dependents => result.reverse) ∧
      result.Perm (sortClosure graph.nodes ids direction) ∧
      PredClosed (graph.sortEdge (sortClosure graph.nodes ids direction)) result := by
  set closure := sortClosure graph.nodes ids direction with hclosure
  have hnodup : closure.Nodup := nodup_distinct _
  have hadj : ∀ p n, n ∈ Kahn.adjacency (dependenciesIn graph.nodes) closure p ↔
      n ∈ closure ∧ p ∈ graph.directDependenciesOf n := fun p n => Kahn.mem_adjacency
  have hacyclic : Acyclic (Kahn.adjacency (dependenciesIn graph.nodes) closure) := by
    intro a hcycle
    refine graph.acyclic a ?_
    rw [← transGen_swap]
    exact TransGen.mono (fun p n hn => ((hadj p n).mp hn).2) _ _ hcycle
  have hinit := Kahn.inv_init hnodup (sortTexts_perm
    (closure.filter fun id => Kahn.degrees (dependenciesIn graph.nodes) closure id = 0))
  have hlen := hinit.perm.length_eq
  obtain ⟨hperm, horder⟩ := topologicalLoop_spec hnodup
    (fun p _ n hn => ((hadj p n).mp hn).1) hacyclic closure.length
    ⟨Kahn.degrees (dependenciesIn graph.nodes) closure, sortTexts
      (closure.filter fun id => Kahn.degrees (dependenciesIn graph.nodes) closure id = 0)⟩ [] _
    hinit (by simp only [List.nil_append, List.length_append] at hlen ⊢; omega)
  refine ⟨_, by cases direction <;> rfl, hperm, ?_⟩
  intro l₁ a l₂ heq p hp
  exact horder l₁ a l₂ heq p ⟨hp.1, (hadj p a).mpr hp.2⟩

/-- A topological sort lists its closure, each service once. -/
theorem topologicalSort_perm (ids : List String) (direction : Direction) :
    (topologicalSort graph.nodes ids direction).Perm
      (sortClosure graph.nodes ids direction) := by
  obtain ⟨result, heq, hperm, -⟩ := graph.topologicalSort_loop ids direction
  rw [heq]
  cases direction with
  | dependencies => exact hperm
  | dependents => exact (List.reverse_perm result).trans hperm

theorem topologicalSort_nodup (ids : List String) (direction : Direction) :
    (topologicalSort graph.nodes ids direction).Nodup :=
  (graph.topologicalSort_perm ids direction).nodup_iff.mpr (nodup_distinct _)

theorem subset_topologicalSort (ids : List String) (direction : Direction) :
    ∀ id ∈ ids, id ∈ topologicalSort graph.nodes ids direction := by
  intro id hid
  rw [(graph.topologicalSort_perm ids direction).mem_iff, mem_sortClosure]
  exact Or.inl hid

/-- **Dependencies first**: no service stands before one it depends on, also
through services that were not asked for. -/
theorem topologicalDependenciesFirst_pairwise (ids : List String) :
    (graph.topologicalDependenciesFirst ids).Pairwise fun a b => ¬ graph.DependsOn a b := by
  obtain ⟨result, heq, hperm, horder⟩ := graph.topologicalSort_loop ids .dependencies
  have hnodup : result.Nodup := hperm.nodup_iff.mpr (nodup_distinct _)
  rw [topologicalDependenciesFirst, heq]
  refine (horder.pairwise hnodup).imp_of_mem ?_
  intro a b ha _ hnot hdep
  refine hnot ?_
  -- the walk from `a` down to `b` stays inside the closure
  have hwalk : ∀ c, graph.DependsOn a c →
      c ∈ sortClosure graph.nodes ids .dependencies ∧
        TransGen (graph.sortEdge (sortClosure graph.nodes ids .dependencies)) c a := by
    intro c hc
    have ha' := hperm.mem_iff.mp ha
    induction hc with
    | single hedge =>
        have hmem := graph.sortClosure_closed ha' hedge
        exact ⟨hmem, .single ⟨hmem, ha', hedge⟩⟩
    | tail _ hedge ih =>
        have hmem := graph.sortClosure_closed ih.1 hedge
        exact ⟨hmem, .head ⟨hmem, ih.1, hedge⟩ ih.2⟩
  exact (hwalk b hdep).2

/-- **Dependents first**: no service stands before one that depends on it. -/
theorem topologicalDependentsFirst_pairwise (ids : List String) :
    (graph.topologicalDependentsFirst ids).Pairwise fun a b => ¬ graph.DependsOn b a := by
  obtain ⟨result, heq, hperm, horder⟩ := graph.topologicalSort_loop ids .dependents
  have hnodup : result.Nodup := hperm.nodup_iff.mpr (nodup_distinct _)
  rw [topologicalDependentsFirst, heq, List.pairwise_reverse]
  refine (horder.pairwise hnodup).imp_of_mem ?_
  intro a b _ hb hnot hdep
  refine hnot ?_
  -- the walk from `a` down to `b` stays inside the closure, seen from `b`
  have hwalk : ∀ c, graph.DependsOn c b →
      c ∈ sortClosure graph.nodes ids .dependents ∧
        TransGen (graph.sortEdge (sortClosure graph.nodes ids .dependents)) b c := by
    intro c hc
    have hb' := hperm.mem_iff.mp hb
    induction hc using TransGen.head_induction_on with
    | single hedge =>
        have hmem := graph.sortClosure_closed hb' (graph.mem_directDependentsOf.mpr hedge)
        exact ⟨hmem, .single ⟨hb', hmem, hedge⟩⟩
    | head hedge _ ih =>
        have hmem := graph.sortClosure_closed ih.1 (graph.mem_directDependentsOf.mpr hedge)
        exact ⟨hmem, .tail ih.2 ⟨ih.1, hmem, hedge⟩⟩
  exact (hwalk a hdep).2

/-- The dependencies of a service stand before it. -/
theorem dependencies_mem_before {ids l₁ l₂ : List String} {a d : String}
    (hsplit : graph.topologicalDependenciesFirst ids = l₁ ++ a :: l₂)
    (hdep : graph.DependsOn a d) : d ∈ l₁ := by
  have hpair := graph.topologicalDependenciesFirst_pairwise ids
  have hperm := graph.topologicalSort_perm ids .dependencies
  have hmem : d ∈ graph.topologicalDependenciesFirst ids := by
    have ha : a ∈ graph.topologicalDependenciesFirst ids := by simp [hsplit]
    rw [topologicalDependenciesFirst, hperm.mem_iff, mem_sortClosure] at ha ⊢
    rcases ha with ha | ⟨id, hid, hreach⟩
    · exact Or.inr ⟨a, ha, hdep⟩
    · exact Or.inr ⟨id, hid, hreach.trans hdep⟩
  rw [hsplit] at hpair hmem
  refine mem_before_of_pairwise hpair hmem ?_ (fun hnot => hnot hdep)
  rintro rfl
  exact graph.not_dependsOn_self d hdep

/-- The dependents of a service stand before it in the other order. -/
theorem dependents_mem_before {ids l₁ l₂ : List String} {a d : String}
    (hsplit : graph.topologicalDependentsFirst ids = l₁ ++ a :: l₂)
    (hdep : graph.DependsOn d a) : d ∈ l₁ := by
  have hpair := graph.topologicalDependentsFirst_pairwise ids
  have hperm := graph.topologicalSort_perm ids .dependents
  have hreach : TransGen (Edge (neighborsIn graph.nodes .dependents)) a d := by
    rw [edge_dependents, transGen_swap]
    exact hdep
  have hmem : d ∈ graph.topologicalDependentsFirst ids := by
    have ha : a ∈ graph.topologicalDependentsFirst ids := by simp [hsplit]
    rw [topologicalDependentsFirst, hperm.mem_iff, mem_sortClosure] at ha ⊢
    rcases ha with ha | ⟨id, hid, hbefore⟩
    · exact Or.inr ⟨a, ha, hreach⟩
    · exact Or.inr ⟨id, hid, hbefore.trans hreach⟩
  rw [hsplit] at hpair hmem
  refine mem_before_of_pairwise hpair hmem ?_ (fun hnot => hnot hdep)
  rintro rfl
  exact graph.not_dependsOn_self d hdep

end RegisteredServiceDependencyGraph

/-! ## Definitions and their graph -/

/-- A definition of `a` lists `b` among its dependencies. -/
def Declares (entries : List DependencyEntry) (a b : String) : Prop :=
  ∃ e ∈ entries, e.serviceId = a ∧ b ∈ e.dependencies

/-- The ids are distinct, the dependencies are ids, and no service depends on itself. -/
structure WellFormedDefinitions (entries : List DependencyEntry) : Prop where
  nodup : (entries.map (·.serviceId)).Nodup
  known : ∀ e ∈ entries, ∀ d ∈ e.dependencies, d ∈ entries.map (·.serviceId)
  acyclic : ∀ a, ¬ TransGen (Declares entries) a a

/-- A closure lists the services that `related` reaches, each once. -/
structure IsClosure (related : String → String → Prop) (id : String) (closure : List String) :
    Prop where
  nodup : closure.Nodup
  mem_iff : ∀ n, n ∈ closure ↔ TransGen related id n ∧ n ≠ id

/-- An order of `ids` lists them and what they reach, each service once and after
all that it reaches. -/
structure IsOrder (related : String → String → Prop) (ids order : List String) : Prop where
  nodup : order.Nodup
  mem_iff : ∀ n, n ∈ order ↔ n ∈ ids ∨ ∃ id ∈ ids, TransGen related id n
  sorted : ∀ l₁ a l₂, order = l₁ ++ a :: l₂ → ∀ b, TransGen related a b → b ∈ l₁

section Definitions

variable {entries : List DependencyEntry} {graph : RegisteredServiceDependencyGraph}

theorem edge_dependenciesIn (hnodup : (entries.map (·.serviceId)).Nodup) :
    Edge (dependenciesIn (graphNodes entries)) = Declares entries := by
  funext a b
  exact propext (mem_dependenciesIn_graphNodes hnodup)

theorem isOk_createDependencyGraph_iff :
    (∃ graph, createDependencyGraph entries = .ok graph) ↔ WellFormedDefinitions entries := by
  have hchecks : ∀ (hdup : firstDuplicate [] entries = none)
      (hknown : ∀ e ∈ entries, ∀ d ∈ e.dependencies, d ∈ entries.map (·.serviceId)),
      detectCycles (graphNodes entries) = .ok () ↔ ∀ a, ¬ TransGen (Declares entries) a a := by
    intro hdup hknown
    have hnodup := (firstDuplicate_eq_none.mp hdup).1
    rw [detectCycles_iff (by simpa using hnodup), Acyclic, edge_dependenciesIn hnodup]
    intro n hn d hd
    obtain ⟨e, he, rfl⟩ := List.mem_map.mp hn
    rw [nodeIds_graphNodes]
    exact hknown e he d hd
  constructor
  · rintro ⟨graph, h⟩
    obtain ⟨hdup, hknown, hcycles, -⟩ := createDependencyGraph_ok h
    exact ⟨(firstDuplicate_eq_none.mp hdup).1, hknown, (hchecks hdup hknown).mp hcycles⟩
  · intro h
    have hdup : firstDuplicate [] entries = none :=
      firstDuplicate_eq_none.mpr ⟨h.nodup, by simp⟩
    obtain ⟨graph, hok, -⟩ :=
      createDependencyGraph_eq_ok entries hdup h.known ((hchecks hdup h.known).mpr h.acyclic)
    exact ⟨graph, hok⟩

/-- In an accepted graph services depend on each other as they are declared to. -/
theorem edge_directDependenciesOf (h : createDependencyGraph entries = .ok graph) :
    Edge graph.directDependenciesOf = Declares entries := by
  obtain ⟨hdup, -, -, hnodes⟩ := createDependencyGraph_ok h
  rw [← edge_dependenciesIn (firstDuplicate_eq_none.mp hdup).1, ← hnodes]
  rfl

theorem dependsOn_iff (h : createDependencyGraph entries = .ok graph) {a b : String} :
    graph.DependsOn a b ↔ TransGen (Declares entries) a b := by
  rw [RegisteredServiceDependencyGraph.DependsOn, edge_directDependenciesOf h]

theorem nodup_computeClosure {nodes : List GraphNode} {id : String} {direction : Direction} :
    (computeClosure nodes id direction).Nodup := by
  refine (sortTexts_perm _).nodup_iff.mpr ?_
  exact (Search.inv_init.run (nodes.length + 1)).nodup

theorem neighborsIn_dependents (h : createDependencyGraph entries = .ok graph) :
    Edge (neighborsIn graph.nodes .dependents) = Function.swap (Declares entries) := by
  rw [graph.edge_dependents, edge_directDependenciesOf h]

end Definitions

/-- **Graph of definitions**: it is built exactly when the ids are distinct, the
dependencies are ids and nothing depends on itself; its closures and its two
orders are then those of the declared dependencies.  A definition lists its
dependencies once and not itself, but only because it was validated before. -/
theorem createDependencyGraph_spec (entries : List DependencyEntry) :
    ((∃ graph, createDependencyGraph entries = .ok graph) ↔ WellFormedDefinitions entries) ∧
    (∀ graph, createDependencyGraph entries = .ok graph →
      (∀ id, IsClosure (Declares entries) id (graph.transitiveDependenciesOf id)) ∧
      (∀ id, IsClosure (Function.swap (Declares entries)) id (graph.transitiveDependentsOf id)) ∧
      (∀ ids, IsOrder (Declares entries) ids (graph.topologicalDependenciesFirst ids)) ∧
      (∀ ids, IsOrder (Function.swap (Declares entries)) ids
        (graph.topologicalDependentsFirst ids))) ∧
    ∀ deps ownId texts, validateDependencies deps ownId = .ok texts →
      texts.Nodup ∧ ownId ∉ texts := by
  refine ⟨isOk_createDependencyGraph_iff, ?_, fun _ _ _ => validateDependencies_ok⟩
  intro graph h
  have hne : ∀ {a b}, graph.DependsOn a b → a ≠ b := by
    rintro a b hdep rfl
    exact graph.not_dependsOn_self a hdep
  refine ⟨fun id => ⟨nodup_computeClosure, fun n => ?_⟩,
    fun id => ⟨nodup_computeClosure, fun n => ?_⟩,
    fun ids => ⟨graph.topologicalSort_nodup ids _, fun n => ?_, ?_⟩,
    fun ids => ⟨graph.topologicalSort_nodup ids _, fun n => ?_, ?_⟩⟩
  · rw [graph.mem_transitiveDependenciesOf, ← dependsOn_iff h]
    exact ⟨fun hdep => ⟨hdep, (hne hdep).symm⟩, And.left⟩
  · rw [graph.mem_transitiveDependentsOf, transGen_swap, ← dependsOn_iff h]
    exact ⟨fun hdep => ⟨hdep, hne hdep⟩, And.left⟩
  · rw [RegisteredServiceDependencyGraph.topologicalDependenciesFirst,
      (graph.topologicalSort_perm ids _).mem_iff, graph.mem_sortClosure]
    simp only [← edge_directDependenciesOf h]
    rfl
  · intro l₁ a l₂ hsplit b hb
    exact graph.dependencies_mem_before hsplit ((dependsOn_iff h).mpr hb)
  · rw [RegisteredServiceDependencyGraph.topologicalDependentsFirst,
      (graph.topologicalSort_perm ids _).mem_iff, graph.mem_sortClosure,
      neighborsIn_dependents h]
  · intro l₁ a l₂ hsplit b hb
    exact graph.dependents_mem_before hsplit ((dependsOn_iff h).mpr (transGen_swap.mp hb))

/-- A dependency that is listed twice does not keep a graph from being built. -/
theorem createDependencyGraph_accepts_duplicate :
    ¬ ∀ entries : List DependencyEntry, (∃ graph, createDependencyGraph entries = .ok graph) ↔
      WellFormedDefinitions entries ∧ ∀ e ∈ entries, e.serviceId ∉ e.dependencies ∧ e.dependencies.Nodup := by
  intro hclaim
  obtain ⟨graph, hok, -⟩ := createDependencyGraph_eq_ok [
    { serviceId := "db", dependencies := [] },
    { serviceId := "api", dependencies := ["db", "db"] }] (by decide) (by decide) (by decide)
  have hlisted := ((hclaim _).mp ⟨graph, hok⟩).2
    { serviceId := "api", dependencies := ["db", "db"] } (by simp)
  revert hlisted
  decide

end AtlasManager.Service
