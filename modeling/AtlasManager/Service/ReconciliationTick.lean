import AtlasManager.Lib.Calendar
import AtlasManager.Lib.Prog
import AtlasManager.Service.DependencyGraph
import AtlasManager.Service.RegisteredService

/-!
# AtlasManager.Service.ReconciliationTick

One tick of the availability reconciliation: the occurrences of all services in
an interval are collected, put in order and executed one after the other.

* `orderCollectedOccurrences_perm` -- the order loses and repeats nothing;
* `orderCollectedOccurrences_pairwise` -- it goes by the texts of the instants,
  stops before starts, and along the dependencies among the stops and among the starts;
* `reconciliationOrder_iff` -- when it goes by the instants themselves;
* `tickOverPorts_spec` -- every run of a tick collects what is generated for the
  services and executes all of it in that order.
-/

namespace AtlasManager.Service

open AtlasManager.Lib

/-! ## Occurrences -/

inductive ReconciliationOperation where
  | start
  | stop
  deriving DecidableEq, Repr

structure ReconciliationOccurrence where
  serviceId : String
  operation : ReconciliationOperation
  scheduledFor : Timestamp
  deriving DecidableEq

/-- An occurrence and the listed service it was generated for. -/
structure CollectedOccurrence where
  occurrence : ReconciliationOccurrence
  serviceId : String
  deriving DecidableEq

/-! ## The order of a tick -/

/-- The members of a group in the order of the given services.  Each member is
tagged with its position in the collection, so that `includes` compares objects. -/
def orderByServices (ids : List String) (group : List (CollectedOccurrence × Nat)) :
    List (CollectedOccurrence × Nat) :=
  ids.foldl (fun ordered id =>
    group.foldl (fun ordered c =>
      if c.1.serviceId = id ∧ c ∉ ordered then ordered ++ [c] else ordered) ordered) []

/-- The members of one operation, sorted by their services when there are any. -/
def orderPart (sort : List String → List String) (part : List (CollectedOccurrence × Nat)) :
    List (CollectedOccurrence × Nat) :=
  if part.length > 0 then orderByServices (sort (part.map (·.1.serviceId))) part else []

/-- The members of one instant: stops, dependents first, and then starts,
dependencies first. -/
def orderGroup (graph : RegisteredServiceDependencyGraph)
    (group : List (CollectedOccurrence × Nat)) : List (CollectedOccurrence × Nat) :=
  let stops := group.filter (·.1.occurrence.operation = .stop)
  let starts := group.filter (·.1.occurrence.operation = .start)
  orderPart graph.topologicalDependentsFirst stops ++
    orderPart graph.topologicalDependenciesFirst starts

/-- The instants of a collection, as texts. -/
def groupKeys (collected : List (CollectedOccurrence × Nat)) : List String :=
  sortTexts (distinct (collected.map fun c => c.1.occurrence.scheduledFor.text))

def groupOf (collected : List (CollectedOccurrence × Nat)) (key : String) :
    List (CollectedOccurrence × Nat) :=
  collected.filter (·.1.occurrence.scheduledFor.text = key)

def orderCollectedOccurrences (collected : List CollectedOccurrence)
    (graph : RegisteredServiceDependencyGraph) : List CollectedOccurrence :=
  let tagged := collected.zipIdx
  ((groupKeys tagged).flatMap fun key => orderGroup graph (groupOf tagged key)).map (·.1)

/-! ### Nothing is lost or repeated -/

section Order

variable {graph : RegisteredServiceDependencyGraph}

/-- The inner loop adds the members of one service that are not there yet. -/
theorem foldl_service (id : String) (group ordered : List (CollectedOccurrence × Nat))
    (hnodup : group.Nodup) (hfresh : ∀ c ∈ group, c.1.serviceId = id → c ∉ ordered) :
    group.foldl (fun ordered c =>
      if c.1.serviceId = id ∧ c ∉ ordered then ordered ++ [c] else ordered) ordered =
    ordered ++ group.filter (·.1.serviceId = id) := by
  induction group generalizing ordered with
  | nil => simp
  | cons c group ih =>
      obtain ⟨hc, hgroup⟩ := List.nodup_cons.mp hnodup
      rw [List.foldl_cons]
      by_cases hid : c.1.serviceId = id
      · rw [if_pos ⟨hid, hfresh c List.mem_cons_self hid⟩, ih _ hgroup]
        · simp [hid]
        · intro d hd hdid hmem
          rcases List.mem_append.mp hmem with h | h
          · exact hfresh d (List.mem_cons_of_mem _ hd) hdid h
          · exact hc (List.mem_singleton.mp h ▸ hd)
      · rw [if_neg (fun h => hid h.1), ih _ hgroup
          fun d hd => hfresh d (List.mem_cons_of_mem _ hd)]
        simp [hid]

/-- With each service named once, the group is listed service by service. -/
theorem orderByServices_eq (ids : List String) (hids : ids.Nodup)
    (group : List (CollectedOccurrence × Nat)) (hgroup : group.Nodup) :
    orderByServices ids group = ids.flatMap fun id => group.filter (·.1.serviceId = id) := by
  have hloop : ∀ (ids : List String) (ordered : List (CollectedOccurrence × Nat)), ids.Nodup →
      (∀ c ∈ ordered, c.1.serviceId ∉ ids) →
      ids.foldl (fun ordered id => group.foldl (fun ordered c =>
        if c.1.serviceId = id ∧ c ∉ ordered then ordered ++ [c] else ordered) ordered) ordered =
      ordered ++ ids.flatMap fun id => group.filter (·.1.serviceId = id) := by
    intro ids
    induction ids with
    | nil => simp
    | cons id ids ih =>
        intro ordered hnodup hfresh
        obtain ⟨hid, hids⟩ := List.nodup_cons.mp hnodup
        rw [List.foldl_cons, foldl_service id group ordered hgroup, ih _ hids]
        · simp
        · intro c hc
          rcases List.mem_append.mp hc with h | h
          · exact fun hmem => hfresh c h (List.mem_cons_of_mem _ hmem)
          · have hcid : c.1.serviceId = id := by simpa using (List.mem_filter.mp h).2
            rwa [hcid]
        · intro c _ hcid hmem
          exact hfresh c hmem (hcid ▸ List.mem_cons_self)
  exact (hloop ids [] hids (by simp)).trans (by simp)

/-- A list split by a key is a permutation of itself, when every key is listed once. -/
theorem flatMap_filter_perm {α κ : Type*} [DecidableEq κ] (key : α → κ) (keys : List κ)
    (hkeys : keys.Nodup) (l : List α) (hall : ∀ a ∈ l, key a ∈ keys) :
    (keys.flatMap fun k => l.filter (key · = k)).Perm l := by
  induction l with
  | nil => simp
  | cons a l ih =>
      have hrest := ih fun b hb => hall b (List.mem_cons_of_mem _ hb)
      refine List.Perm.trans ?_ (hrest.cons a)
      obtain ⟨k₁, k₂, rfl⟩ := List.append_of_mem (hall a List.mem_cons_self)
      have hdisjoint : key a ∉ k₁ ∧ key a ∉ k₂ := by
        simp only [List.nodup_append, List.nodup_cons] at hkeys
        exact ⟨fun h => hkeys.2.2 _ h _ List.mem_cons_self rfl, hkeys.2.1.1⟩
      have hother : ∀ ks : List κ, key a ∉ ks →
          (ks.flatMap fun k => (a :: l).filter (key · = k)) =
            ks.flatMap fun k => l.filter (key · = k) := by
        intro ks hks
        refine List.flatMap_congr fun k hk => ?_
        have hne : key a ≠ k := by
          rintro rfl
          exact hks hk
        simp [hne]
      simp only [List.flatMap_append, List.flatMap_cons]
      rw [hother _ hdisjoint.1, hother _ hdisjoint.2, List.filter_cons_of_pos (by simp)]
      exact List.perm_middle

theorem zipIdx_nodup (collected : List CollectedOccurrence) : collected.zipIdx.Nodup := by
  refine List.Nodup.of_map Prod.snd ?_
  rw [List.zipIdx_map_snd]
  exact List.nodup_range' 

/-- The members of one operation, in any order of services that names them all. -/
theorem orderByServices_perm {ids : List String} (hids : ids.Nodup)
    {group : List (CollectedOccurrence × Nat)} (hgroup : group.Nodup)
    (hall : ∀ c ∈ group, c.1.serviceId ∈ ids) : (orderByServices ids group).Perm group := by
  rw [orderByServices_eq ids hids group hgroup]
  exact flatMap_filter_perm (fun c => c.1.serviceId) ids hids group hall

/-- What a sort has to do to order a part. -/
structure NamesAll (sort : List String → List String) : Prop where
  nodup : ∀ ids, (sort ids).Nodup
  subset : ∀ ids, ∀ id ∈ ids, id ∈ sort ids

variable (graph) in
theorem namesAll_dependents : NamesAll graph.topologicalDependentsFirst where
  nodup ids := graph.topologicalSort_nodup ids .dependents
  subset ids := graph.subset_topologicalSort ids .dependents

variable (graph) in
theorem namesAll_dependencies : NamesAll graph.topologicalDependenciesFirst where
  nodup ids := graph.topologicalSort_nodup ids .dependencies
  subset ids := graph.subset_topologicalSort ids .dependencies

variable {sort : List String → List String}

theorem orderPart_perm (hsort : NamesAll sort) {part : List (CollectedOccurrence × Nat)}
    (hpart : part.Nodup) : (orderPart sort part).Perm part := by
  unfold orderPart
  split
  · refine orderByServices_perm (hsort.nodup _) hpart fun c hc => ?_
    exact hsort.subset _ _ (List.mem_map_of_mem hc)
  · rename_i hempty
    rw [List.length_eq_zero_iff.mp (show part.length = 0 by omega)]

theorem orderGroup_perm {group : List (CollectedOccurrence × Nat)} (hgroup : group.Nodup) :
    (orderGroup graph group).Perm group := by
  have hstops := orderPart_perm (namesAll_dependents graph)
    (hgroup.filter fun c => decide (c.1.occurrence.operation = .stop))
  have hstarts := orderPart_perm (namesAll_dependencies graph)
    (hgroup.filter fun c => decide (c.1.occurrence.operation = .start))
  refine (hstops.append hstarts).trans ?_
  have hother : group.filter (fun c => decide (c.1.occurrence.operation = .start)) =
      group.filter fun c => !decide (c.1.occurrence.operation = .stop) := by
    refine List.filter_congr fun c _ => ?_
    cases c.1.occurrence.operation <;> rfl
  rw [hother]
  exact List.filter_append_perm _ _

variable (graph) in
/-- **Nothing lost, nothing repeated.** -/
theorem orderCollectedOccurrences_perm (collected : List CollectedOccurrence) :
    (orderCollectedOccurrences collected graph).Perm collected := by
  have htagged := zipIdx_nodup collected
  have hkeys : (groupKeys collected.zipIdx).Nodup :=
    (sortTexts_perm _).nodup_iff.mpr (nodup_distinct _)
  have hgroups : ((groupKeys collected.zipIdx).flatMap fun key =>
      orderGroup graph (groupOf collected.zipIdx key)).Perm collected.zipIdx := by
    refine (List.Perm.flatMap_left _ fun key _ => orderGroup_perm (htagged.filter _)).trans ?_
    refine flatMap_filter_perm
      (fun c : CollectedOccurrence × Nat => c.1.occurrence.scheduledFor.text) _ hkeys _ ?_
    intro c hc
    rw [groupKeys, mem_sortTexts, mem_distinct]
    exact List.mem_map_of_mem hc
  have hmap := hgroups.map Prod.fst
  rwa [List.zipIdx_map_fst] at hmap

/-- May `a` be executed before `b`?  Earlier instants come first, at one instant
stops come before starts, no stop before that of a service depending on it and
no start before that of a service it depends on. -/
def MayPrecede (graph : RegisteredServiceDependencyGraph) (a b : CollectedOccurrence) : Prop :=
  a.occurrence.scheduledFor.text ≤ b.occurrence.scheduledFor.text ∧
  (a.occurrence.scheduledFor = b.occurrence.scheduledFor →
    match a.occurrence.operation, b.occurrence.operation with
    | .stop, .start => True
    | .stop, .stop => ¬ graph.DependsOn b.serviceId a.serviceId
    | .start, .start => ¬ graph.DependsOn a.serviceId b.serviceId
    | .start, .stop => False)

theorem pairwise_flatMap_services {r : String → String → Prop} (hself : ∀ id, r id id)
    {ids : List String} (hids : ids.Pairwise r) (group : List (CollectedOccurrence × Nat)) :
    (ids.flatMap fun id => group.filter (·.1.serviceId = id)).Pairwise
      fun a b => r a.1.serviceId b.1.serviceId := by
  rw [List.pairwise_flatMap]
  constructor
  · intro id _
    refine List.pairwise_of_forall_mem_list fun a ha b hb => ?_
    have ha' : a.1.serviceId = id := by simpa using (List.mem_filter.mp ha).2
    have hb' : b.1.serviceId = id := by simpa using (List.mem_filter.mp hb).2
    rw [ha', hb']
    exact hself id
  · refine hids.imp fun {id id'} hr a ha b hb => ?_
    have ha' : a.1.serviceId = id := by simpa using (List.mem_filter.mp ha).2
    have hb' : b.1.serviceId = id' := by simpa using (List.mem_filter.mp hb).2
    rwa [ha', hb']

/-- A part is ordered like the services its sort names. -/
theorem orderPart_pairwise (hsort : NamesAll sort) {r : String → String → Prop}
    (hself : ∀ id, r id id) (hr : ∀ ids, (sort ids).Pairwise r)
    {part : List (CollectedOccurrence × Nat)} (hpart : part.Nodup) :
    (orderPart sort part).Pairwise fun a b => r a.1.serviceId b.1.serviceId := by
  unfold orderPart
  split
  · rw [orderByServices_eq _ (hsort.nodup _) _ hpart]
    exact pairwise_flatMap_services hself (hr _) part
  · exact List.Pairwise.nil

theorem orderGroup_pairwise {group : List (CollectedOccurrence × Nat)} (hgroup : group.Nodup)
    {key : String} (hkey : ∀ c ∈ group, c.1.occurrence.scheduledFor.text = key) :
    (orderGroup graph group).Pairwise fun a b => MayPrecede graph a.1 b.1 := by
  have hstops := hgroup.filter fun c => decide (c.1.occurrence.operation = .stop)
  have hstarts := hgroup.filter fun c => decide (c.1.occurrence.operation = .start)
  have hmemStops : ∀ c ∈ orderPart graph.topologicalDependentsFirst
      (group.filter fun c => decide (c.1.occurrence.operation = .stop)),
      c ∈ group ∧ c.1.occurrence.operation = .stop := by
    intro c hc
    simpa using (orderPart_perm (namesAll_dependents graph) hstops).mem_iff.mp hc
  have hmemStarts : ∀ c ∈ orderPart graph.topologicalDependenciesFirst
      (group.filter fun c => decide (c.1.occurrence.operation = .start)),
      c ∈ group ∧ c.1.occurrence.operation = .start := by
    intro c hc
    simpa using (orderPart_perm (namesAll_dependencies graph) hstarts).mem_iff.mp hc
  have htext : ∀ a ∈ group, ∀ b ∈ group,
      a.1.occurrence.scheduledFor.text ≤ b.1.occurrence.scheduledFor.text := by
    intro a ha b hb
    rw [hkey a ha, hkey b hb]
  rw [orderGroup, List.pairwise_append]
  refine ⟨?_, ?_, ?_⟩
  · refine (orderPart_pairwise (namesAll_dependents graph) (fun id => graph.not_dependsOn_self id)
      graph.topologicalDependentsFirst_pairwise hstops).imp_of_mem ?_
    intro a b ha hb hnot
    obtain ⟨hag, hao⟩ := hmemStops a ha
    obtain ⟨hbg, hbo⟩ := hmemStops b hb
    refine ⟨htext a hag b hbg, fun _ => ?_⟩
    rw [hao, hbo]
    exact hnot
  · refine (orderPart_pairwise (namesAll_dependencies graph) (fun id => graph.not_dependsOn_self id)
      graph.topologicalDependenciesFirst_pairwise hstarts).imp_of_mem ?_
    intro a b ha hb hnot
    obtain ⟨hag, hao⟩ := hmemStarts a ha
    obtain ⟨hbg, hbo⟩ := hmemStarts b hb
    refine ⟨htext a hag b hbg, fun _ => ?_⟩
    rw [hao, hbo]
    exact hnot
  · intro a ha b hb
    obtain ⟨hag, hao⟩ := hmemStops a ha
    obtain ⟨hbg, hbo⟩ := hmemStarts b hb
    refine ⟨htext a hag b hbg, fun _ => ?_⟩
    rw [hao, hbo]
    trivial

variable (graph) in
/-- **Execution order**: whatever stands earlier may be executed earlier. -/
theorem orderCollectedOccurrences_pairwise (collected : List CollectedOccurrence) :
    (orderCollectedOccurrences collected graph).Pairwise (MayPrecede graph) := by
  have htagged := zipIdx_nodup collected
  have hgroup : ∀ key, ∀ c ∈ groupOf collected.zipIdx key,
      c.1.occurrence.scheduledFor.text = key := by
    intro key c hc
    simpa using (List.mem_filter.mp hc).2
  rw [orderCollectedOccurrences, List.pairwise_map, List.pairwise_flatMap]
  constructor
  · exact fun key _ => orderGroup_pairwise (htagged.filter _) (hgroup key)
  · have hnodup : (groupKeys collected.zipIdx).Nodup :=
      (sortTexts_perm _).nodup_iff.mpr (nodup_distinct _)
    refine ((sortTexts_sorted _).and hnodup).imp ?_
    rintro key key' ⟨hle, hne⟩ a ha b hb
    have hka := hgroup key a ((orderGroup_perm (htagged.filter _)).mem_iff.mp ha)
    have hkb := hgroup key' b ((orderGroup_perm (htagged.filter _)).mem_iff.mp hb)
    refine ⟨by rw [hka, hkb]; exact hle, fun heq => absurd ?_ hne⟩
    rw [← hka, ← hkb, heq]

/-! ### By text and by instant -/

/-- The order a tick owes to a collection: each occurrence once, by instant, and at one
instant stops before starts, dependents stopped and dependencies started first. -/
structure ReconciliationOrder (graph : RegisteredServiceDependencyGraph)
    (collected ordered : List CollectedOccurrence) : Prop where
  perm : ordered.Perm collected
  byInstant : ordered.Pairwise fun a b =>
    a.occurrence.scheduledFor.ms ≤ b.occurrence.scheduledFor.ms
  stopsFirst : ordered.Pairwise fun a b =>
    a.occurrence.scheduledFor = b.occurrence.scheduledFor →
      ¬ (a.occurrence.operation = .start ∧ b.occurrence.operation = .stop)
  stops : ordered.Pairwise fun a b =>
    a.occurrence.scheduledFor = b.occurrence.scheduledFor → a.occurrence.operation = .stop →
      b.occurrence.operation = .stop → ¬ graph.DependsOn b.serviceId a.serviceId
  starts : ordered.Pairwise fun a b =>
    a.occurrence.scheduledFor = b.occurrence.scheduledFor → a.occurrence.operation = .start →
      b.occurrence.operation = .start → ¬ graph.DependsOn a.serviceId b.serviceId

/-- Do the texts of the instants sort like the instants?  All of them are in the
year 10000 or later or none is, and those before the year 0 are of one year. -/
def YearsInOrder (collected : List CollectedOccurrence) : Prop :=
  ∀ a ∈ collected, ∀ b ∈ collected,
    (9999 < yearOf b.occurrence.scheduledFor.ms → 9999 < yearOf a.occurrence.scheduledFor.ms) ∧
    (yearOf a.occurrence.scheduledFor.ms < 0 → yearOf b.occurrence.scheduledFor.ms < 0 →
      yearOf a.occurrence.scheduledFor.ms = yearOf b.occurrence.scheduledFor.ms)

/-- Is the earlier of two instants the one with the smaller text? -/
def TextsAgree (a b : CollectedOccurrence) : Prop :=
  (a.occurrence.scheduledFor.ms < b.occurrence.scheduledFor.ms →
    a.occurrence.scheduledFor.text < b.occurrence.scheduledFor.text) ∧
  (b.occurrence.scheduledFor.ms < a.occurrence.scheduledFor.ms →
    b.occurrence.scheduledFor.text < a.occurrence.scheduledFor.text)

instance : Std.Symm TextsAgree := ⟨fun _ _ h => ⟨h.2, h.1⟩⟩

theorem textsAgree_of_le {a b : CollectedOccurrence}
    (htext : a.occurrence.scheduledFor.text ≤ b.occurrence.scheduledFor.text)
    (hms : a.occurrence.scheduledFor.ms ≤ b.occurrence.scheduledFor.ms) : TextsAgree a b := by
  refine ⟨fun hlt => ?_, fun hlt => absurd hms (by omega)⟩
  refine lt_of_le_of_ne htext fun heq => ?_
  rw [Timestamp.text_inj heq] at hlt
  exact lt_irrefl _ hlt

theorem yearsInOrder_iff {collected : List CollectedOccurrence} :
    YearsInOrder collected ↔ ∀ a ∈ collected, ∀ b ∈ collected, TextsAgree a b := by
  constructor
  · intro hyears a ha b hb
    have hab := hyears a ha b hb
    have hba := hyears b hb a ha
    constructor
    · intro hlt
      have hmono := yearOf_mono hlt.le
      rw [Timestamp.text_lt_iff_of_lt hlt]
      exact ⟨hab.1, fun hneg => hab.2 (by omega) hneg⟩
    · intro hlt
      have hmono := yearOf_mono hlt.le
      rw [Timestamp.text_lt_iff_of_lt hlt]
      exact ⟨hba.1, fun hneg => hba.2 (by omega) hneg⟩
  · intro hagree a ha b hb
    obtain ⟨hab, hba⟩ := hagree a ha b hb
    rcases lt_trichotomy a.occurrence.scheduledFor.ms b.occurrence.scheduledFor.ms with h | h | h
    · obtain ⟨hten, hneg⟩ := (Timestamp.text_lt_iff_of_lt h).mp (hab h)
      exact ⟨hten, fun _ hb => hneg hb⟩
    · rw [h]
      exact ⟨id, fun _ _ => rfl⟩
    · obtain ⟨-, hneg⟩ := (Timestamp.text_lt_iff_of_lt h).mp (hba h)
      have hmono := yearOf_mono h.le
      exact ⟨fun hten => by omega, fun ha _ => (hneg ha).symm⟩

/-- **The order by texts** is the order owed exactly when the years allow it. -/
theorem reconciliationOrder_iff (collected : List CollectedOccurrence)
    (graph : RegisteredServiceDependencyGraph) :
    ReconciliationOrder graph collected (orderCollectedOccurrences collected graph) ↔
      YearsInOrder collected := by
  have hperm := orderCollectedOccurrences_perm graph collected
  have hpair := orderCollectedOccurrences_pairwise graph collected
  rw [yearsInOrder_iff]
  constructor
  · intro horder a ha b hb
    -- the list goes by text and by instant, so the two agree on any two of its members
    have hagree : (orderCollectedOccurrences collected graph).Pairwise TextsAgree :=
      hpair.imp₂ (fun _ _ hprecede hms => textsAgree_of_le hprecede.1 hms) horder.byInstant
    exact List.Pairwise.forall_of_forall (fun _ _ => textsAgree_of_le le_rfl le_rfl) hagree
      (hperm.mem_iff.mpr ha) (hperm.mem_iff.mpr hb)
  · intro hagree
    refine ⟨hperm, hpair.imp_of_mem ?_, hpair.imp ?_, hpair.imp ?_, hpair.imp ?_⟩
    · rintro a b ha hb ⟨htext, -⟩
      by_contra hlt
      have hba := (hagree a (hperm.mem_iff.mp ha) b (hperm.mem_iff.mp hb)).2 (by omega)
      exact absurd htext (not_le_of_gt hba)
    · rintro a b ⟨-, hop⟩ hsame ⟨ha, hb⟩
      simpa [ha, hb] using hop hsame
    · rintro a b ⟨-, hop⟩ hsame ha hb
      simpa [ha, hb] using hop hsame
    · rintro a b ⟨-, hop⟩ hsame ha hb
      simpa [ha, hb] using hop hsame

end Order

/-! ## The tick -/

inductive OccurrenceExecutionResult where
  | none
  | duplicate
  | executed
  deriving DecidableEq, Repr

inductive TickOccurrenceResult (ε : Type) where
  | completed (occurrence : ReconciliationOccurrence) (result : OccurrenceExecutionResult)
  | failed (occurrence : ReconciliationOccurrence) (error : ε)

inductive TickServiceResult (ε : Type) where
  | completed (serviceId : String) (occurrenceResults : List (TickOccurrenceResult ε))
  | failed (serviceId : String) (error : ε)

section Tick

variable {C : Type} {R : C → Type} {ε : Type}

/-- The occurrences of the services, and the failures of those without. -/
def generateAll (generate : String → Prog C R ε (List ReconciliationOccurrence)) :
    List RegisteredService → Prog C R ε (List CollectedOccurrence × List (TickServiceResult ε))
  | [] => pure ([], [])
  | service :: services => do
    let generated ← (generate service.id).attempt
    let (collected, failures) ← generateAll generate services
    match generated with
    | .ok occurrences =>
      return (occurrences.map (fun occurrence => { occurrence, serviceId := service.id }) ++
        collected, failures)
    | .error error => return (collected, .failed service.id error :: failures)

def occurrenceResult (occurrence : ReconciliationOccurrence) :
    Except ε OccurrenceExecutionResult → TickOccurrenceResult ε
  | .ok result => .completed occurrence result
  | .error error => .failed occurrence error

/-- Execute every occurrence; a failure does not keep the next one from running. -/
def executeAll (execute : ReconciliationOccurrence → Prog C R ε OccurrenceExecutionResult) :
    List CollectedOccurrence → Prog C R ε (List (String × TickOccurrenceResult ε))
  | [] => pure []
  | collected :: rest => do
    let outcome ← (execute collected.occurrence).attempt
    let results ← executeAll execute rest
    return (collected.serviceId, occurrenceResult collected.occurrence outcome) :: results

/-- The results of the services in their order, after the failures. -/
def tickReport (services : List RegisteredService) (failures : List (TickServiceResult ε))
    (failedIds : List String) (results : List (String × TickOccurrenceResult ε)) :
    List (TickServiceResult ε) :=
  failures ++ services.filterMap fun service =>
    let own := results.filter (·.1 = service.id)
    if own.length > 0 then some (.completed service.id (own.map (·.2)))
    else if service.id ∈ failedIds then Option.none
    else some (.completed service.id [])

def TickServiceResult.serviceId : TickServiceResult ε → String
  | completed serviceId _ => serviceId
  | failed serviceId _ => serviceId

/-- `RunServiceAvailabilityReconciliationTick.execute`. -/
def runTick (listRegisteredServices : Prog C R ε (List RegisteredService))
    (getGraph : Prog C R ε RegisteredServiceDependencyGraph)
    (generate : String → Date → Date → Prog C R ε (List ReconciliationOccurrence))
    (execute : ReconciliationOccurrence → Prog C R ε OccurrenceExecutionResult)
    (fromExclusive toInclusive : Date) : Prog C R ε (List (TickServiceResult ε)) := do
  let services ← listRegisteredServices
  let graph ← getGraph
  let (collected, failures) ←
    generateAll (fun id => generate id fromExclusive toInclusive) services
  let results ← executeAll execute (orderCollectedOccurrences collected graph)
  return tickReport services failures (failures.map (·.serviceId)) results

/-! ### What a tick keeps -/

section Keeps

variable {W : Type} {H : Prog.Handler C R ε W} {J I : W → Prop} {P : ReconciliationOccurrence → Prop}
  {w : W}

theorem generateAll_keeps {generate : String → Prog C R ε (List ReconciliationOccurrence)}
    (hgenerate : ∀ id w, I w → Prog.Spec H J (generate id)
      (fun o w' => I w' ∧ ∀ occurrences, o = .ok occurrences → ∀ x ∈ occurrences, P x) w)
    (services : List RegisteredService) (hw : I w) :
    Prog.Spec H J (generateAll generate services)
      (fun o w' => I w' ∧ ∀ r, o = .ok r → ∀ c ∈ r.1, P c.occurrence) w := by
  induction services generalizing w with
  | nil => exact ⟨hw, by rintro _ ⟨rfl⟩ c hc; cases hc⟩
  | cons service services ih =>
      rw [generateAll, Prog.spec_bind, Prog.spec_attempt]
      refine (hgenerate service.id w hw).mono (fun _ h => h) ?_
      rintro generated w₁ ⟨hw₁, hgenerated⟩
      dsimp only
      rw [Prog.spec_bind]
      refine (ih hw₁).mono (fun _ h => h) ?_
      rintro (e | ⟨collected, failures⟩) w₂ ⟨hw₂, hcollected⟩
      · exact ⟨hw₂, fun _ h => by cases h⟩
      have hrest := hcollected _ rfl
      cases generated with
      | error e => exact ⟨hw₂, by rintro _ ⟨rfl⟩; exact hrest⟩
      | ok occurrences =>
          refine ⟨hw₂, ?_⟩
          rintro _ ⟨rfl⟩ c hc
          rcases List.mem_append.mp hc with hc | hc
          · obtain ⟨x, hx, rfl⟩ := List.mem_map.mp hc
            exact hgenerated occurrences rfl x hx
          · exact hrest c hc

theorem executeAll_keeps {execute : ReconciliationOccurrence → Prog C R ε OccurrenceExecutionResult}
    (hexecute : ∀ x w, P x → I w → Prog.Spec H J (execute x) (fun _ => I) w)
    (collected : List CollectedOccurrence) (hP : ∀ c ∈ collected, P c.occurrence) (hw : I w) :
    Prog.Spec H J (executeAll execute collected) (fun _ => I) w := by
  induction collected generalizing w with
  | nil => exact hw
  | cons c collected ih =>
      rw [executeAll, Prog.spec_bind, Prog.spec_attempt]
      refine (hexecute _ w (hP c List.mem_cons_self) hw).mono (fun _ h => h) ?_
      intro outcome w₁ hw₁
      dsimp only
      rw [Prog.spec_bind]
      refine (ih (fun d hd => hP d (List.mem_cons_of_mem _ hd)) hw₁).mono (fun _ h => h) ?_
      rintro (e | results) w₂ hw₂
      · exact hw₂
      · exact hw₂

/-- What the collaborators keep, the execution for the occurrences that are
generated only, a tick keeps. -/
theorem runTick_keeps {listRegisteredServices : Prog C R ε (List RegisteredService)}
    {getGraph : Prog C R ε RegisteredServiceDependencyGraph}
    {generate : String → Date → Date → Prog C R ε (List ReconciliationOccurrence)}
    {execute : ReconciliationOccurrence → Prog C R ε OccurrenceExecutionResult}
    {fromExclusive toInclusive : Date}
    (hlist : ∀ w, I w → Prog.Spec H J listRegisteredServices (fun _ => I) w)
    (hgraph : ∀ w, I w → Prog.Spec H J getGraph (fun _ => I) w)
    (hgenerate : ∀ id w, I w → Prog.Spec H J (generate id fromExclusive toInclusive)
      (fun o w' => I w' ∧ ∀ occurrences, o = .ok occurrences → ∀ x ∈ occurrences, P x) w)
    (hexecute : ∀ x w, P x → I w → Prog.Spec H J (execute x) (fun _ => I) w) (hw : I w) :
    Prog.Spec H J (runTick listRegisteredServices getGraph generate execute fromExclusive
      toInclusive) (fun _ => I) w := by
  rw [runTick, Prog.spec_bind]
  refine (hlist w hw).mono (fun _ h => h) ?_
  rintro (e | services) w₁ hw₁
  · exact hw₁
  dsimp only
  rw [Prog.spec_bind]
  refine (hgraph w₁ hw₁).mono (fun _ h => h) ?_
  rintro (e | graph) w₂ hw₂
  · exact hw₂
  dsimp only
  rw [Prog.spec_bind]
  refine (generateAll_keeps hgenerate services hw₂).mono (fun _ h => h) ?_
  rintro (e | ⟨collected, failures⟩) w₃ ⟨hw₃, hcollected⟩
  · exact hw₃
  dsimp only
  rw [Prog.spec_bind]
  refine (executeAll_keeps hexecute _ (fun c hc => hcollected _ rfl c ?_) hw₃).mono
    (fun _ h => h) ?_
  · exact (orderCollectedOccurrences_perm graph collected).mem_iff.mp hc
  · rintro (e | results) w₄ hw₄
    · exact hw₄
    · exact hw₄

end Keeps

section Interpret

variable {C' : Type} {R' : C' → Type} (f : (c : C) → Prog C' R' ε (R c))

theorem interpret_generateAll (generate : String → Prog C R ε (List ReconciliationOccurrence))
    (services : List RegisteredService) :
    (generateAll generate services).interpret f =
      generateAll (fun id => (generate id).interpret f) services := by
  induction services with
  | nil => rfl
  | cons service services ih =>
      simp only [generateAll, Prog.interpret_bind, Prog.interpret_attempt, ih]
      congr 1
      funext generated
      congr 1
      funext r
      cases generated <;> rfl

theorem interpret_executeAll
    (execute : ReconciliationOccurrence → Prog C R ε OccurrenceExecutionResult)
    (collected : List CollectedOccurrence) :
    (executeAll execute collected).interpret f =
      executeAll (fun occurrence => (execute occurrence).interpret f) collected := by
  induction collected with
  | nil => rfl
  | cons c collected ih =>
      simp only [executeAll, Prog.interpret_bind, Prog.interpret_attempt, ih]
      rfl

/-- A tick whose collaborators are programs. -/
theorem interpret_runTick (listRegisteredServices : Prog C R ε (List RegisteredService))
    (getGraph : Prog C R ε RegisteredServiceDependencyGraph)
    (generate : String → Date → Date → Prog C R ε (List ReconciliationOccurrence))
    (execute : ReconciliationOccurrence → Prog C R ε OccurrenceExecutionResult)
    (fromExclusive toInclusive : Date) :
    (runTick listRegisteredServices getGraph generate execute fromExclusive toInclusive).interpret f =
      runTick (listRegisteredServices.interpret f) (getGraph.interpret f)
        (fun id a b => (generate id a b).interpret f)
        (fun occurrence => (execute occurrence).interpret f) fromExclusive toInclusive := by
  simp only [runTick, Prog.interpret_bind, interpret_generateAll, interpret_executeAll]
  rfl

end Interpret

end Tick

/-! ### The order in which a tick executes -/

/-- The collaborators of a tick. -/
inductive TickCall where
  | listRegisteredServices
  | getGraph
  | generate (serviceId : String) (fromExclusive toInclusive : Date)
  | execute (occurrence : ReconciliationOccurrence)

abbrev TickCall.Answer : TickCall → Type
  | listRegisteredServices => List RegisteredService
  | getGraph => RegisteredServiceDependencyGraph
  | generate _ _ _ => List ReconciliationOccurrence
  | execute _ => OccurrenceExecutionResult

abbrev TickLog (ε : Type) := Prog.Log TickCall TickCall.Answer ε

/-- A tick whose collaborators are ports. -/
def tickOverPorts (ε : Type) (fromExclusive toInclusive : Date) :
    Prog TickCall TickCall.Answer ε (List (TickServiceResult ε)) :=
  runTick (Prog.perform TickCall.listRegisteredServices) (Prog.perform TickCall.getGraph)
    (fun id a b => Prog.perform (TickCall.generate id a b))
    (fun occurrence => Prog.perform (TickCall.execute occurrence)) fromExclusive toInclusive

/-- The services a run listed. -/
def servicesIn {ε : Type} (log : TickLog ε) : List (List RegisteredService) :=
  log.filterMap fun
    | ⟨.listRegisteredServices, .ok services⟩ => some services
    | _ => none

/-- The graphs a run was given. -/
def graphsIn {ε : Type} (log : TickLog ε) : List RegisteredServiceDependencyGraph :=
  log.filterMap fun
    | ⟨.getGraph, .ok graph⟩ => some graph
    | _ => none

/-- What a run asked the generation for, in order. -/
def askedIn {ε : Type} (log : TickLog ε) : List (String × Date × Date) :=
  log.reverse.filterMap fun
    | ⟨.generate serviceId fromExclusive toInclusive, _⟩ =>
      some (serviceId, fromExclusive, toInclusive)
    | _ => none

/-- What the generation of a run delivered, with the services it was asked for. -/
def collectedIn {ε : Type} (log : TickLog ε) : List CollectedOccurrence :=
  log.reverse.flatMap fun
    | ⟨.generate serviceId _ _, .ok occurrences⟩ =>
      occurrences.map fun occurrence => { occurrence, serviceId }
    | _ => []

/-- What a run executed, in order. -/
def executedIn {ε : Type} (log : TickLog ε) : List ReconciliationOccurrence :=
  log.reverse.filterMap fun
    | ⟨.execute occurrence, _⟩ => some occurrence
    | _ => none

/-- What a tick has done when it ends.  One that reports has asked for the occurrences of
every service and executed all that was delivered, in the order of its graph; one that
throws has executed nothing. -/
def TickDone {ε : Type} (fromExclusive toInclusive : Date) (log : TickLog ε) :
    Except ε (List (TickServiceResult ε)) → Prop
  | .ok _ => ∃ services graph, servicesIn log = [services] ∧ graphsIn log = [graph] ∧
      askedIn log = services.map (fun service => (service.id, fromExclusive, toInclusive)) ∧
      executedIn log = (orderCollectedOccurrences (collectedIn log) graph).map (·.occurrence)
  | .error _ => executedIn log = []

section TickRuns

variable {ε : Type} {A : (c : TickCall) → Except ε c.Answer → Prop}

theorem askedIn_cons (c : TickCall) (r : Except ε c.Answer) (log : TickLog ε) :
    askedIn (⟨c, r⟩ :: log) = askedIn log ++ askedIn [⟨c, r⟩] := by
  simp [askedIn, List.filterMap_append]

theorem collectedIn_cons (c : TickCall) (r : Except ε c.Answer) (log : TickLog ε) :
    collectedIn (⟨c, r⟩ :: log) = collectedIn log ++ collectedIn [⟨c, r⟩] := by
  simp [collectedIn]

theorem executedIn_cons (c : TickCall) (r : Except ε c.Answer) (log : TickLog ε) :
    executedIn (⟨c, r⟩ :: log) = executedIn log ++ executedIn [⟨c, r⟩] := by
  simp [executedIn, List.filterMap_append]

/-- What the loops of a tick leave alone: the services and the graph it was given. -/
def SameInputs (log log' : TickLog ε) : Prop :=
  servicesIn log' = servicesIn log ∧ graphsIn log' = graphsIn log

theorem sameInputs_generate {serviceId : String} {fromExclusive toInclusive : Date}
    {r : Except ε (List ReconciliationOccurrence)} {log log' : TickLog ε}
    (h : SameInputs (⟨.generate serviceId fromExclusive toInclusive, r⟩ :: log) log') :
    SameInputs log log' := by
  simpa [SameInputs, servicesIn, graphsIn] using h

theorem sameInputs_execute {occurrence : ReconciliationOccurrence}
    {r : Except ε OccurrenceExecutionResult} {log log' : TickLog ε}
    (h : SameInputs (⟨.execute occurrence, r⟩ :: log) log') : SameInputs log log' := by
  simpa [SameInputs, servicesIn, graphsIn] using h

/-- **Generation, run lemma**: every service is asked for, what is delivered is
collected and nothing is executed. -/
theorem generateAll_spec (fromExclusive toInclusive : Date)
    (services : List RegisteredService) (log : TickLog ε) :
    Prog.Spec (Prog.logged A) (fun _ => True)
      (generateAll (fun id => Prog.perform (TickCall.generate id fromExclusive toInclusive))
        services)
      (fun o log' => ∃ collected failures, o = .ok (collected, failures) ∧
        askedIn log' = askedIn log ++
          services.map (fun service => (service.id, fromExclusive, toInclusive)) ∧
        collectedIn log' = collectedIn log ++ collected ∧ executedIn log' = executedIn log ∧
        SameInputs log log') log := by
  induction services generalizing log with
  | nil => exact ⟨[], [], rfl, by simp, by simp, rfl, rfl, rfl⟩
  | cons service services ih =>
      simp only [generateAll, Prog.spec_bind, Prog.spec_attempt, Prog.spec_perform,
        Prog.logged_iff]
      rintro r log' ⟨-, rfl⟩
      refine ⟨trivial, (ih _).mono (fun _ h => h) ?_⟩
      rintro o log'' ⟨collected, failures, rfl, hasked, hcollected, hexecuted, hsame⟩
      have hasked' : askedIn log'' = askedIn log ++
          (service :: services).map (fun service => (service.id, fromExclusive, toInclusive)) := by
        rw [hasked, askedIn_cons]
        simp [askedIn]
      rw [collectedIn_cons] at hcollected
      rw [executedIn_cons] at hexecuted
      cases r with
      | error e =>
          exact ⟨collected, .failed service.id e :: failures, rfl, hasked',
            by simpa [collectedIn] using hcollected, by simpa [executedIn] using hexecuted,
            sameInputs_generate hsame⟩
      | ok occurrences =>
          exact ⟨_, failures, rfl, hasked', by simpa [collectedIn] using hcollected,
            by simpa [executedIn] using hexecuted, sameInputs_generate hsame⟩

/-- **Execution, run lemma**: every occurrence is executed, in the given order. -/
theorem executeAll_spec (collected : List CollectedOccurrence) (log : TickLog ε) :
    Prog.Spec (Prog.logged A) (fun _ => True)
      (executeAll (fun occurrence => Prog.perform (TickCall.execute occurrence)) collected)
      (fun o log' => (∃ results, o = .ok results) ∧ askedIn log' = askedIn log ∧
        collectedIn log' = collectedIn log ∧
        executedIn log' = executedIn log ++ collected.map (·.occurrence) ∧
        SameInputs log log') log := by
  induction collected generalizing log with
  | nil => exact ⟨⟨[], rfl⟩, rfl, rfl, by simp, rfl, rfl⟩
  | cons c collected ih =>
      simp only [executeAll, Prog.spec_bind, Prog.spec_attempt, Prog.spec_perform,
        Prog.logged_iff]
      rintro r log' ⟨-, rfl⟩
      refine ⟨trivial, (ih _).mono (fun _ h => h) ?_⟩
      rintro o log'' ⟨⟨results, rfl⟩, hasked, hcollected, hexecuted, hsame⟩
      refine ⟨⟨_, rfl⟩, by simpa [askedIn] using hasked, by simpa [collectedIn] using hcollected,
        ?_, sameInputs_execute hsame⟩
      rw [hexecuted, executedIn_cons]
      simp [executedIn]

/-- **A tick, run lemma**: whatever its collaborators answer, it does what it owes. -/
theorem tickOverPorts_spec (fromExclusive toInclusive : Date) :
    Prog.Spec (Prog.logged A) (fun _ => True) (tickOverPorts ε fromExclusive toInclusive)
      (fun o log => TickDone fromExclusive toInclusive log o) [] := by
  simp only [tickOverPorts, runTick, Prog.spec_bind, Prog.spec_perform, Prog.logged_iff]
  rintro services log₁ ⟨-, rfl⟩
  refine ⟨trivial, ?_⟩
  cases services with
  | error e => simp [TickDone, executedIn]
  | ok services =>
      rintro graph log₂ ⟨-, rfl⟩
      refine ⟨trivial, ?_⟩
      cases graph with
      | error e => simp [TickDone, executedIn]
      | ok graph =>
          refine (generateAll_spec fromExclusive toInclusive services _).mono (fun _ h => h) ?_
          rintro o log₃ ⟨collected, failures, rfl, hasked, hcollected, hexecuted, hsame⟩
          refine (executeAll_spec _ log₃).mono (fun _ h => h) ?_
          rintro o log₄ ⟨⟨results, rfl⟩, hasked', hcollected', hexecuted', hsame'⟩
          simp only [Prog.spec_pure]
          have hall : collectedIn log₄ = collected := by
            rw [hcollected', hcollected]
            simp [collectedIn]
          refine ⟨services, graph, ?_, ?_, ?_, ?_⟩
          · rw [hsame'.1, hsame.1]
            simp [servicesIn]
          · rw [hsame'.2, hsame.2]
            simp [graphsIn]
          · rw [hasked', hasked]
            simp [askedIn]
          · rw [hall, hexecuted', hexecuted]
            simp [executedIn]

end TickRuns

/-- **Reconciliation order**: for every collection and every graph, a tick's order is a
permutation by instant, stops before starts and along the transitive dependencies
inside one instant, exactly when the texts of the instants sort like the instants;
and every run of a tick executes in this order all that was delivered to it. -/
theorem reconciliation_order (collected : List CollectedOccurrence)
    (graph : RegisteredServiceDependencyGraph) :
    (ReconciliationOrder graph collected (orderCollectedOccurrences collected graph) ↔
      YearsInOrder collected) ∧
    ∀ (ε : Type) (fromExclusive toInclusive : Date)
      (o : Except ε (List (TickServiceResult ε))) (log : TickLog ε),
      Prog.Exec (Prog.logged fun _ _ => True) (tickOverPorts ε fromExclusive toInclusive) [] o
        log → TickDone fromExclusive toInclusive log o :=
  ⟨reconciliationOrder_iff collected graph, fun _ fromExclusive toInclusive _ _ hrun =>
    (tickOverPorts_spec fromExclusive toInclusive).exec hrun⟩

/-! ### Ticks over a service and the database it depends on -/

def webAndDatabase : List RegisteredService :=
  [{ id := "web", supportedOperations := [.readStatus, .start, .stop],
     dependencies := ["database"], availabilityPolicy := .manual },
   { id := "database", supportedOperations := [.readStatus, .start, .stop],
     dependencies := [], availabilityPolicy := .manual }]

def webOnDatabase : RegisteredServiceDependencyGraph :=
  (createDependencyGraph (webAndDatabase.map fun s => ⟨s.id, s.dependencies⟩)).toOption.get
    (by decide +kernel)

/-- Every collaborator answers; the generation delivers what it is given here. -/
def answerTick (deliver : String → List ReconciliationOccurrence) :
    (c : TickCall) → Except String c.Answer
  | .listRegisteredServices => .ok webAndDatabase
  | .getGraph => .ok webOnDatabase
  | .generate serviceId _ _ => .ok (deliver serviceId)
  | .execute _ => .ok .executed

/-- The tick over the last minute of the year 9999 and the minute after it. -/
def yearEndTick (deliver : String → List ReconciliationOccurrence) :
    Except String (List (TickServiceResult String)) × TickLog String :=
  Prog.run (fun log c => (answerTick deliver c, ⟨c, answerTick deliver c⟩ :: log))
    (tickOverPorts String (some ⟨253402300680000, by decide⟩)
      (some ⟨253402300800000, by decide⟩)) []

theorem exec_yearEndTick (deliver : String → List ReconciliationOccurrence) :
    Prog.Exec (Prog.logged fun _ _ => True) (tickOverPorts String
      (some ⟨253402300680000, by decide⟩) (some ⟨253402300800000, by decide⟩)) []
      (yearEndTick deliver).1 (yearEndTick deliver).2 :=
  Prog.exec_run (fun _ _ => ⟨trivial, rfl⟩) _ _

theorem lastMinute_inRange : -8640000000000000 ≤ (253402300740000 : Int) ∧
    (253402300740000 : Int) ≤ 8640000000000000 := by decide

/-- At 23:59 of the last day of the year 9999. -/
def beforeMidnight (serviceId : String) (operation : ReconciliationOperation) :
    ReconciliationOccurrence := ⟨serviceId, operation, ⟨253402300740000, lastMinute_inRange⟩⟩

/-- At midnight, in the year 10000. -/
def atMidnight (serviceId : String) (operation : ReconciliationOperation) :
    ReconciliationOccurrence := ⟨serviceId, operation, ⟨253402300800000, by decide⟩⟩

/-- Both services start at 23:59, the database first; and the tick has done what it owes. -/
theorem reconciliation_order_webAndDatabase :
    executedIn (yearEndTick fun id => [beforeMidnight id .start]).2 =
      [beforeMidnight "database" .start, beforeMidnight "web" .start] ∧
    ReconciliationOrder webOnDatabase
      (collectedIn (yearEndTick fun id => [beforeMidnight id .start]).2)
      (orderCollectedOccurrences (collectedIn (yearEndTick fun id => [beforeMidnight id .start]).2)
        webOnDatabase) ∧
    TickDone (some ⟨253402300680000, by decide⟩) (some ⟨253402300800000, by decide⟩)
      (yearEndTick fun id => [beforeMidnight id .start]).2
      (yearEndTick fun id => [beforeMidnight id .start]).1 := by
  refine ⟨by decide +kernel, (reconciliation_order _ webOnDatabase).1.mpr ?_,
    (reconciliation_order [] webOnDatabase).2 _ _ _ _ _ (exec_yearEndTick _)⟩
  unfold YearsInOrder
  decide +kernel

/-- A window that closes with the year 9999 is closed before it is opened, as
`+010000-01-01T00:00:00.000Z` sorts before `9999-12-31T23:59:00.000Z`. -/
theorem executes_midnight_first :
    executedIn (yearEndTick fun id => [beforeMidnight id .start, atMidnight id .stop]).2 =
      [atMidnight "web" .stop, atMidnight "database" .stop,
        beforeMidnight "database" .start, beforeMidnight "web" .start] ∧
    ¬ ∃ ordered, ordered.map (·.occurrence) =
        executedIn (yearEndTick fun id => [beforeMidnight id .start, atMidnight id .stop]).2 ∧
      ReconciliationOrder webOnDatabase (collectedIn
        (yearEndTick fun id => [beforeMidnight id .start, atMidnight id .stop]).2) ordered := by
  have hexecuted : executedIn
      (yearEndTick fun id => [beforeMidnight id .start, atMidnight id .stop]).2 =
      [atMidnight "web" .stop, atMidnight "database" .stop,
        beforeMidnight "database" .start, beforeMidnight "web" .start] := by decide +kernel
  refine ⟨hexecuted, ?_⟩
  rintro ⟨ordered, hmap, horder⟩
  have hby : (ordered.map (·.occurrence)).Pairwise fun a b =>
      a.scheduledFor.ms ≤ b.scheduledFor.ms := List.pairwise_map.mpr horder.byInstant
  rw [hmap, hexecuted] at hby
  revert hby
  decide

end AtlasManager.Service
