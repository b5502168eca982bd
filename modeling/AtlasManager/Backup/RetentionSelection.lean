import AtlasManager.Backup.RetentionRuns

/-!
# AtlasManager.Backup.RetentionSelection

Which artifacts a retention run selects.

* `toSelect` -- the artifacts that the count and the age of a policy give up together;
* `deletion_eq_toSelect_iff` -- when the code selects those.
-/

namespace AtlasManager.Backup.Retention

open AtlasManager.Lib InMemoryBackupRunStore

section Selection

variable (runtime : Runtime) (target : BackupTarget) (history : InMemoryBackupRunStore)
  (artifacts : List ManagedBackupArtifact)

/-- Is an artifact older, at `now`, than so many days? -/
def olderThan (days : Nat) (now : Int) (artifact : ManagedBackupArtifact) : Bool :=
  (runtime.dateOf artifact.completedAt).any fun completedAt => days * 86400000 < now - completedAt

/-- The artifacts that are not of the newest successful backups and, if an age is configured,
are older than that. -/
def toSelect (now : Int) : List ManagedBackupArtifact :=
  (prunable runtime target history artifacts).filter fun artifact =>
    target.retention.maxSuccessfulAgeDays.all fun days => olderThan runtime days now artifact

/-- The runs that the loop over the pages may find. -/
def Collects (runs : List BackupRun) : Prop :=
  ∃ pages log log', Prog.Exec (Prog.logged (retentionAnswers target history artifacts))
    (collectRuns target.id pages (.finite 0) []) log (.ok runs) log'

variable {runtime target history artifacts}

theorem perm_of_collects (h : WellKept runtime history) {runs : List BackupRun}
    (hruns : Collects target history artifacts runs) : runs.Perm (successes history target.id) := by
  obtain ⟨pages, log, log', hexec⟩ := hruns
  exact ((collectRuns_spec h pages (perm_nil_filter h) log).exec hexec).2 runs rfl

/-- When the ports work, some runs are found. -/
theorem exists_collects (h : WellKept runtime history) (artifacts : List ManagedBackupArtifact) :
    ∃ runs, Collects target history artifacts runs := by
  obtain ⟨runs, log', hrun, -, -⟩ := @collectRuns_working runtime target history artifacts h
    ((successes history target.id).length + 1) (Nat.lt_succ_self _) []
  have hexec := @exec_working target history artifacts _
    (collectRuns target.id ((successes history target.id).length + 1) (.finite 0) []) []
  rw [hrun] at hexec
  exact ⟨runs, _, [], log', hexec⟩

/-- The count and the age give up all that the count does exactly when no age is configured
or all of these are older. -/
theorem toSelect_eq_prunable_iff {now : Int} :
    prunable runtime target history artifacts = toSelect runtime target history artifacts now ↔
      ∀ days ∈ target.retention.maxSuccessfulAgeDays,
        ∀ artifact ∈ prunable runtime target history artifacts,
          olderThan runtime days now artifact = true := by
  rw [eq_comm, toSelect, List.filter_eq_self]
  simp only [Option.all_eq_true]
  exact ⟨fun hall days hdays artifact hmem => hall artifact hmem days hdays,
    fun hall artifact hmem days hdays => hall days hdays artifact hmem⟩

end Selection

/-- **When the code selects the artifacts that the count and the age give up together**:
exactly when no age is configured, or all artifacts outside the newest successful backups
are older than that. -/
theorem deletion_eq_toSelect_iff (runtime : Runtime) (target : BackupTarget)
    (entries : List RunEntry) (history : InMemoryBackupRunStore)
    (artifacts : List ManagedBackupArtifact) (now : Int)
    (hrecorded : RunStore.recordAll entries .empty = .ok history)
    (hvalid : ∀ entry ∈ entries,
      validateRun (fun text => (runtime.dateOf text).isSome) entry.run entry.kind = true)
    (hknown : ∀ artifact ∈ artifacts, ∃ run ∈ successes history target.id,
      run.runId = artifact.runId) :
    (∀ runs, Collects target history artifacts runs →
      deletion runtime target.retention now (runtime.sortRuns.sort (compareRuns runtime) runs)
        artifacts = toSelect runtime target history artifacts now) ↔
      ∀ days ∈ target.retention.maxSuccessfulAgeDays,
        ∀ artifact ∈ prunable runtime target history artifacts,
          olderThan runtime days now artifact = true := by
  have hkept := wellKept_of_recorded hrecorded hvalid
  rw [← toSelect_eq_prunable_iff]
  constructor
  · intro hall
    obtain ⟨runs, hruns⟩ := @exists_collects runtime target history hkept artifacts
    rw [← hall runs hruns, deletion_eq hkept (perm_of_collects hkept hruns) hknown now]
  · intro heq runs hruns
    rw [deletion_eq hkept (perm_of_collects hkept hruns) hknown now, heq]

/-! ## An age that has no influence -/

section AgedDocs

theorem agedDocs_count : 1 ≤ 1 ∧ 1 ≤ 100 := by decide

/-- The documents, with an age of thirty days. -/
def agedDocs : BackupTarget :=
  { docs with retention := ⟨1, some 30, agedDocs_count, by decide⟩ }

/-- One day after the backups all three older ones are selected, as without an age. -/
theorem deletion_eq_toSelect_iff_docs :
    (∀ runs, Collects docs fourBackups (fourArtifacts "2026-01-01T11:00:00.000Z") runs →
      deletion hoursRuntime docs.retention 1767355200000
        (hoursRuntime.sortRuns.sort (compareRuns hoursRuntime) runs)
        (fourArtifacts "2026-01-01T11:00:00.000Z") =
        toSelect hoursRuntime docs fourBackups (fourArtifacts "2026-01-01T11:00:00.000Z")
          1767355200000) ∧
    (toSelect hoursRuntime docs fourBackups (fourArtifacts "2026-01-01T11:00:00.000Z")
      1767355200000).length = 3 :=
  ⟨(deletion_eq_toSelect_iff hoursRuntime docs fourEntries fourBackups _ _ (by decide +kernel)
    (by decide +kernel) (by decide +kernel)).mpr (by decide +kernel), by decide +kernel⟩

/-- With an age of thirty days they are selected one day after the backups. -/
theorem deletion_ne_toSelect_agedDocs :
    toSelect hoursRuntime agedDocs fourBackups (fourArtifacts "2026-01-01T11:00:00.000Z")
      1767355200000 = [] ∧
    ∃ runs, Collects agedDocs fourBackups (fourArtifacts "2026-01-01T11:00:00.000Z") runs ∧
      (deletion hoursRuntime agedDocs.retention 1767355200000
        (hoursRuntime.sortRuns.sort (compareRuns hoursRuntime) runs)
        (fourArtifacts "2026-01-01T11:00:00.000Z")).length = 3 := by
  have hkept : WellKept hoursRuntime fourBackups :=
    @wellKept_of_recorded _ fourEntries _ (by decide +kernel) (by decide +kernel)
  obtain ⟨runs, hruns⟩ := @exists_collects hoursRuntime agedDocs fourBackups hkept
    (fourArtifacts "2026-01-01T11:00:00.000Z")
  refine ⟨by decide +kernel, runs, hruns, ?_⟩
  rw [deletion_eq hkept (perm_of_collects hkept hruns) (by decide +kernel) _]
  decide +kernel

end AgedDocs

end AtlasManager.Backup.Retention
