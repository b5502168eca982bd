import AtlasManager.Backup.Retention
import AtlasManager.Backup.RunLogOrder

/-!
# AtlasManager.Backup.RetentionRuns

What a retention run removes.

* `WellKept` -- the histories that the stores of backup runs can hold;
* `collectRuns_spec`, `collectRuns_ok` -- the loop over the pages finds every
  successful run of the target, once;
* `Prunes` -- what is asked of a retention run;
* `retention_prunes_iff` -- when every run does it.
-/

namespace AtlasManager.Backup.Retention

open AtlasManager.Lib InMemoryBackupRunStore

/-! ## Histories -/

/-- A history in which every run has its own id and number, and a date when it has ended. -/
structure WellKept (runtime : Runtime) (history : InMemoryBackupRunStore) : Prop where
  sequence : ∀ run ∈ history.runs, run.sequence = .finite run.number ∧ 1 ≤ run.number
  numbers : (history.runs.map (·.number)).Nodup
  ids : (history.runs.map (·.runId)).Nodup
  dated : ∀ run ∈ history.runs, (dateOfRun runtime run).isSome
  artifacts : ∀ run ∈ history.runs, run.status = .succeeded → run.artifact.isSome

theorem finite_of_safeInteger? {sequence : JsNumber} {number : Int}
    (h : sequence.safeInteger? = some number) : sequence = .finite number := by
  cases sequence with
  | finite q =>
      simp only [JsNumber.safeInteger?] at h
      by_cases hq : q.den = 1 ∧ q.num.natAbs ≤ 2 ^ 53 - 1
      · rw [if_pos hq] at h
        obtain rfl := Option.some.inj h
        rw [Rat.coe_int_num_of_den_eq_one hq.1]
      · rw [if_neg hq] at h
        cases h
  | _ => cases h

/-- What the check of a record says about one that has ended. -/
theorem validateRun_terminal {dateParses : String → Bool} {run : BackupRun}
    (h : validateRun dateParses run .terminal = true) :
    (∃ number, run.sequence.safeInteger? = some number ∧ 1 ≤ number) ∧
      (∃ text ∈ run.completedAt, dateParses text = true) ∧
      (run.status = .succeeded → run.artifact.isSome) := by
  simp only [validateRun, Bool.and_eq_true] at h
  obtain ⟨⟨⟨⟨⟨⟨hsequence, -⟩, -⟩, -⟩, -⟩, -⟩, ⟨-, hcompleted⟩, hresult⟩ := h
  refine ⟨?_, ?_, fun hsucceeded => ?_⟩
  · cases hnumber : run.sequence.safeInteger? with
    | none => simp [hnumber] at hsequence
    | some number => exact ⟨number, rfl, by simpa [hnumber] using hsequence⟩
  · rw [Option.any_eq_true] at hcompleted
    exact hcompleted
  · rw [if_pos hsucceeded] at hresult
    cases hartifact : run.artifact with
    | none => simp [hartifact] at hresult
    | some artifact => rfl

/-- Different backups end under different numbers. -/
theorem ends_numbers_nodup {entries : List RunEntry} (h : RunStore.InOrder entries) :
    ((RunStore.endsOf entries).map (·.number)).Nodup := by
  have hstarts : ((RunStore.startsOf entries).map (·.number)).Nodup := by
    have hnumbers : (RunStore.startsOf entries).map (·.number) =
        (List.range (RunStore.startsOf entries).length).map fun i : Nat => (i + 1 : Int) := by
      have hmap := congrArg (List.map fun number => number.getD 0) h.numbered
      rw [List.map_map, List.map_map] at hmap
      exact hmap
    rw [hnumbers]
    exact List.nodup_range.map fun i j hij => by simpa using hij
  -- an ended backup has the number of the started one with its id
  have hfrom : ∀ run ∈ RunStore.endsOf entries, ∃ started ∈ RunStore.startsOf entries,
      started.runId = run.runId ∧ started.number = run.number := by
    intro run hrun
    obtain ⟨entry, hentry, rfl⟩ := List.mem_map.mp hrun
    obtain ⟨hmem, hkind⟩ := List.mem_filter.mp hentry
    obtain ⟨before, after, hsplit⟩ := List.append_of_mem hmem
    obtain ⟨kind, run⟩ := entry
    obtain rfl : kind = .terminal := of_decide_eq_true hkind
    obtain ⟨started, hstarted, hid, hsequence⟩ := h.startedBefore before run after hsplit
    refine ⟨started, ?_, hid, by rw [BackupRun.number, BackupRun.number, hsequence]⟩
    rw [hsplit, RunStore.startsOf, List.filter_append, List.map_append]
    exact List.mem_append_left _ hstarted
  refine List.Nodup.map_on (fun a ha b hb hab => ?_) (List.Nodup.of_map _ h.endsOnce)
  obtain ⟨s, hs, hsa, hna⟩ := hfrom a ha
  obtain ⟨t, ht, htb, hnb⟩ := hfrom b hb
  have hst : s = t := List.inj_on_of_nodup_map hstarts hs ht (by rw [hna, hnb, hab])
  refine List.inj_on_of_nodup_map h.endsOnce ha hb ?_
  rw [← hsa, ← htb, hst]

/-- Records that pass their check make a history that is kept well. -/
theorem wellKept_of_recorded {runtime : Runtime} {entries : List RunEntry}
    {history : InMemoryBackupRunStore}
    (hrecorded : RunStore.recordAll entries .empty = .ok history)
    (hvalid : ∀ entry ∈ entries,
      validateRun (fun text => (runtime.dateOf text).isSome) entry.run entry.kind = true) :
    WellKept runtime history := by
  have htracks : RunStore.Tracks entries history := RunStore.Tracks.empty.recordAll hrecorded
  have hends : ∀ run ∈ history.runs,
      validateRun (fun text => (runtime.dateOf text).isSome) run .terminal = true := by
    intro run hrun
    rw [htracks.runs] at hrun
    obtain ⟨entry, hentry, rfl⟩ := List.mem_map.mp hrun
    obtain ⟨hmem, hkind⟩ := List.mem_filter.mp hentry
    have hentryValid := hvalid entry hmem
    rw [of_decide_eq_true hkind] at hentryValid
    exact hentryValid
  refine ⟨fun run hrun => ?_, ?_, ?_, fun run hrun => ?_, fun run hrun => ?_⟩
  · obtain ⟨⟨number, hnumber, hpositive⟩, -⟩ := validateRun_terminal (hends run hrun)
    have hrunNumber : run.number = number := by rw [BackupRun.number, hnumber, Option.getD_some]
    rw [hrunNumber]
    exact ⟨finite_of_safeInteger? hnumber, hpositive⟩
  · rw [htracks.runs]
    exact ends_numbers_nodup htracks.inOrder
  · rw [htracks.runs]
    exact htracks.inOrder.endsOnce
  · obtain ⟨-, ⟨text, htext, hparses⟩, -⟩ := validateRun_terminal (hends run hrun)
    rw [dateOfRun, htext]
    exact hparses
  · exact (validateRun_terminal (hends run hrun)).2.2

/-! ## Pages -/

/-- Is a run a successful backup of the target, with an artifact? -/
def isSuccess (targetId : String) (run : BackupRun) : Bool :=
  run.targetId = targetId && run.status = .succeeded && run.artifact.isSome

/-- The successful runs of a target. -/
def successes (history : InMemoryBackupRunStore) (targetId : String) : List BackupRun :=
  history.runs.filter (isSuccess targetId)

section Pages

variable {runtime : Runtime} {history : InMemoryBackupRunStore} {targetId : String}

theorem mem_successes {run : BackupRun} :
    run ∈ successes history targetId ↔ run ∈ history.runs ∧ isSuccess targetId run = true :=
  List.mem_filter

/-- The runs whose numbers come after a number. -/
def later (history : InMemoryBackupRunStore) (targetId : String) (after : Int) : List BackupRun :=
  (successes history targetId).filter fun run => after < run.number

theorem nodup_successes (h : WellKept runtime history) :
    ((successes history targetId).map (·.number)).Nodup :=
  (List.filter_sublist.map _).nodup h.numbers

/-- A sorted list of runs whose numbers differ. -/
theorem pairwise_sortRuns {runs : List BackupRun} (h : (runs.map (·.number)).Nodup) :
    (sortRuns runs).Pairwise fun a b => a.number < b.number := by
  have hle : (sortRuns runs).Pairwise fun a b => a.number ≤ b.number := by
    have hsorted : (sortRuns runs).Pairwise fun a b => decide (a.number ≤ b.number) = true := by
      refine List.pairwise_mergeSort (fun a b c hab hbc => ?_) (fun a b => ?_) runs
      · simp only [decide_eq_true_eq] at *
        omega
      · simp only [Bool.or_eq_true, decide_eq_true_eq]
        omega
    exact hsorted.imp fun hab => of_decide_eq_true hab
  have hne : (sortRuns runs).Pairwise fun a b => a.number ≠ b.number := by
    have hperm : ((sortRuns runs).map (·.number)).Nodup :=
      ((List.mergeSort_perm runs _).map _).nodup_iff.mpr h
    exact List.pairwise_map.mp hperm
  exact (hle.and hne).imp fun hab => lt_of_le_of_ne hab.1 hab.2

/-- A page is the beginning of the later runs in the order of their numbers. -/
theorem query_page (h : WellKept runtime history) (after : Int) :
    history.query (pageQuery targetId (.finite after)) =
      .ok ((sortRuns (later history targetId after)).take 100) := by
  have hselected : ((history.runs ++ history.started.map (·.interrupted)).filter fun run =>
      (JsNumber.finite after).lt run.sequence && decide (run.targetId = targetId) &&
        decide (run.status = .succeeded)) = later history targetId after := by
    rw [List.filter_append, List.filter_map]
    have hstarted : history.started.filter ((fun run => (JsNumber.finite after).lt run.sequence &&
        decide (run.targetId = targetId) && decide (run.status = .succeeded)) ∘
          BackupRun.interrupted) = [] := by
      rw [List.filter_eq_nil_iff]
      intro run _
      simp [BackupRun.interrupted]
    rw [hstarted, List.map_nil, List.append_nil, later, successes, List.filter_filter]
    refine List.filter_congr fun run hrun => ?_
    obtain ⟨hsequence, -⟩ := h.sequence run hrun
    have hartifact := h.artifacts run hrun
    rw [hsequence]
    by_cases hstatus : run.status = .succeeded
    · simp [isSuccess, JsNumber.lt, hstatus, hartifact hstatus]
    · simp [isSuccess, hstatus]
  unfold InMemoryBackupRunStore.query pageQuery
  simp only [Option.getD_some, Option.all_some, Option.all_none, Bool.and_true]
  rw [hselected]
  rfl

theorem perm_later (h : WellKept runtime history) (after : Int) :
    (sortRuns (later history targetId after)).Perm (later history targetId after) ∧
      (sortRuns (later history targetId after)).Pairwise fun a b => a.number < b.number :=
  ⟨List.mergeSort_perm _ _,
    pairwise_sortRuns ((List.filter_sublist.map _).nodup (nodup_successes h))⟩

/-- The runs up to a number, and those up to a later one. -/
theorem perm_filter_le {runs : List BackupRun} {after last : Int} (h : after ≤ last) :
    (runs.filter (fun run => run.number ≤ after) ++
      (runs.filter fun run => after < run.number).filter fun run => run.number ≤ last).Perm
      (runs.filter fun run => run.number ≤ last) := by
  have hsplit := List.filter_append_perm (fun run : BackupRun => decide (run.number ≤ after))
    (runs.filter fun run => run.number ≤ last)
  rw [List.filter_filter, List.filter_filter] at hsplit
  rw [List.filter_filter]
  have hfirst : (runs.filter fun run => decide (run.number ≤ after) && decide (run.number ≤ last)) =
      runs.filter fun run => run.number ≤ after :=
    List.filter_congr fun run _ => by
      by_cases hrun : run.number ≤ after
      · simp [hrun, hrun.trans h]
      · simp [hrun]
  have hsecond : (runs.filter fun run => (!decide (run.number ≤ after)) && decide (run.number ≤ last)) =
      runs.filter fun run => decide (run.number ≤ last) && decide (after < run.number) :=
    List.filter_congr fun run _ => by
      by_cases hrun : run.number ≤ after
      · simp [hrun, not_lt.mpr hrun]
      · simp [hrun, not_le.mp hrun]
  rw [hfirst, hsecond] at hsplit
  exact hsplit

/-- A full page ends with a run up to whose number it holds all later runs. -/
theorem full_page (h : WellKept runtime history) {after : Int}
    (hfull : ¬ ((sortRuns (later history targetId after)).take 100).length < 100) :
    ∃ last, ((sortRuns (later history targetId after)).take 100).getLast? = some last ∧
      last ∈ history.runs ∧ after < last.number ∧
      ((sortRuns (later history targetId after)).take 100).Perm
        ((later history targetId after).filter fun run => run.number ≤ last.number) ∧
      (later history targetId last.number).length < (later history targetId after).length := by
  obtain ⟨hperm, hsorted⟩ := @perm_later runtime history targetId h after
  generalize sortRuns (later history targetId after) = sorted at hfull hperm hsorted ⊢
  have hne : sorted.take 100 ≠ [] := by
    intro hnil
    simp [hnil] at hfull
  obtain ⟨page, last, hpage⟩ := (List.eq_nil_or_concat (sorted.take 100)).resolve_left hne
  rw [List.concat_eq_append] at hpage
  have hsplit : (page ++ [last]) ++ sorted.drop 100 = sorted := by
    rw [← hpage, List.take_append_drop]
  rw [← hsplit, List.pairwise_append] at hsorted
  obtain ⟨hpageSorted, -, hafter⟩ := hsorted
  have hlast : last ∈ later history targetId after :=
    hperm.mem_iff.mp (by rw [← hsplit]; simp)
  obtain ⟨hsuccess, hnumber⟩ := List.mem_filter.mp hlast
  -- up to the last run of the page there are the runs of the page
  have hle : ∀ run ∈ page ++ [last], run.number ≤ last.number := by
    intro run hrun
    rcases List.mem_append.mp hrun with hrun | hrun
    · exact ((List.pairwise_append.mp hpageSorted).2.2 run hrun last List.mem_cons_self).le
    · rw [List.mem_singleton.mp hrun]
  have hlt : ∀ run ∈ sorted.drop 100, last.number < run.number := fun run hrun =>
    hafter last (by simp) run hrun
  have hfilter : sorted.filter (fun run => run.number ≤ last.number) = page ++ [last] := by
    rw [← hsplit, List.filter_append, List.filter_eq_self.mpr fun run hrun =>
        decide_eq_true (hle run hrun), List.filter_eq_nil_iff.mpr fun run hrun => ?_,
      List.append_nil]
    simpa using hlt run hrun
  refine ⟨last, by rw [hpage]; simp, (mem_successes.mp hsuccess).1, of_decide_eq_true hnumber, ?_, ?_⟩
  · rw [hpage, ← hfilter]
    exact hperm.filter _
  · have hsub : later history targetId last.number =
        (later history targetId after).filter fun run => last.number < run.number := by
      rw [later, later, List.filter_filter]
      refine List.filter_congr fun run _ => ?_
      have hafterLast := of_decide_eq_true hnumber
      by_cases hrun : last.number < run.number
      · simp [hrun, hafterLast.trans hrun]
      · simp [hrun]
    rw [hsub]
    refine List.length_filter_lt_length_iff_exists.mpr ⟨last, hlast, ?_⟩
    simp

/-- A page that is not full holds all later runs. -/
theorem last_page (h : WellKept runtime history) {after : Int}
    (hshort : ((sortRuns (later history targetId after)).take 100).length < 100) :
    ((sortRuns (later history targetId after)).take 100).Perm (later history targetId after) := by
  obtain ⟨hperm, -⟩ := @perm_later runtime history targetId h after
  rw [List.length_take] at hshort
  rw [List.take_of_length_le (by omega)]
  exact hperm

/-- The runs up to the number of a page, with the page. -/
theorem perm_append_page {after last : Int} (hle : after ≤ last) {runs page : List BackupRun}
    (hruns : runs.Perm ((successes history targetId).filter fun run => run.number ≤ after))
    (hpage : page.Perm ((later history targetId after).filter fun run => run.number ≤ last)) :
    (runs ++ page.filter (·.artifact.isSome)).Perm
      ((successes history targetId).filter fun run => run.number ≤ last) := by
  have hartifact : page.filter (·.artifact.isSome) = page := by
    refine List.filter_eq_self.mpr fun run hrun => ?_
    have hsuccess := (List.mem_filter.mp (List.mem_filter.mp (hpage.mem_iff.mp hrun)).1).1
    simp only [mem_successes, isSuccess, Bool.and_eq_true] at hsuccess
    exact hsuccess.2.2
  rw [hartifact]
  exact (hruns.append hpage).trans (perm_filter_le hle)

/-- All successful runs, when none is later. -/
theorem perm_append_last {after : Int} {runs page : List BackupRun}
    (hruns : runs.Perm ((successes history targetId).filter fun run => run.number ≤ after))
    (hpage : page.Perm (later history targetId after)) :
    (runs ++ page.filter (·.artifact.isSome)).Perm (successes history targetId) := by
  have hartifact : page.filter (·.artifact.isSome) = page := by
    refine List.filter_eq_self.mpr fun run hrun => ?_
    have hsuccess := (List.mem_filter.mp (hpage.mem_iff.mp hrun)).1
    simp only [mem_successes, isSuccess, Bool.and_eq_true] at hsuccess
    exact hsuccess.2.2
  have hlater : later history targetId after =
      (successes history targetId).filter fun run => !decide (run.number ≤ after) :=
    List.filter_congr fun run _ => by
      by_cases hrun : run.number ≤ after
      · simp [hrun, not_lt.mpr hrun]
      · simp [hrun, not_le.mp hrun]
  rw [hartifact]
  rw [hlater] at hpage
  exact (hruns.append hpage).trans (List.filter_append_perm _ _)

end Pages

/-! ## Collecting the runs -/

theorem removals_cons {call : RetentionCall} {answer : Except String call.Answer} {log : RetentionLog}
    (h : ∀ targetId runId, call ≠ .removeManaged targetId runId) :
    removals (⟨call, answer⟩ :: log) = removals log := by
  have hnone : removal? ⟨call, answer⟩ = none := by
    cases call with
    | removeManaged targetId runId => exact absurd rfl (h targetId runId)
    | _ => rfl
  rw [removals, List.filterMap_cons_none hnone, removals]

section Collect

variable {runtime : Runtime} {history : InMemoryBackupRunStore} {target : BackupTarget}
  {artifacts : List ManagedBackupArtifact} {targetId : String}

theorem notAfter_finite {after last : Int} (h : after < last) :
    notAfter (.finite last) (.finite after) = false := by
  simp [notAfter, JsNumber.lt, h.le, h.ne']

/-- **The loop over the pages finds the successful runs**, if it does not fail. -/
theorem collectRuns_spec (h : WellKept runtime history) (pages : Nat) {after : Int}
    {runs : List BackupRun}
    (hruns : runs.Perm ((successes history targetId).filter fun run => run.number ≤ after))
    (log : RetentionLog) :
    Prog.Spec (Prog.logged (retentionAnswers target history artifacts)) (fun _ => True)
      (collectRuns targetId pages (.finite after) runs)
      (fun o log' => removals log' = removals log ∧
        ∀ collected, o = .ok collected → collected.Perm (successes history targetId)) log := by
  induction pages generalizing after runs log with
  | zero => exact ⟨rfl, fun _ hok => (by cases hok)⟩
  | succ pages ih =>
      rw [collectRuns, Prog.spec_bind, ask, Prog.spec_perform]
      rintro answer log' ⟨hanswer, rfl⟩
      refine ⟨trivial, ?_⟩
      have hquiet : removals (⟨.query (pageQuery targetId (.finite after)), answer⟩ :: log) =
          removals log := removals_cons fun _ _ => by simp
      rcases hanswer with rfl | ⟨error, rfl⟩
      · rw [query_page h]
        dsimp only
        by_cases hshort : ((sortRuns (later history targetId after)).take 100).length < 100
        · rw [if_pos hshort, Prog.spec_pure]
          refine ⟨by rw [← query_page h]; exact hquiet, fun collected hok => ?_⟩
          obtain rfl := Except.ok.inj hok
          exact perm_append_last hruns (last_page h hshort)
        · rw [if_neg hshort]
          obtain ⟨last, hlast, hmem, hafter, hpage, -⟩ := full_page h hshort
          rw [hlast]
          dsimp only
          rw [(h.sequence last hmem).1, notAfter_finite hafter, if_neg Bool.false_ne_true]
          refine (ih (perm_append_page hafter.le hruns hpage) _).mono (fun _ h => h) ?_
          intro o log' ho
          exact ⟨by rw [ho.1, ← query_page h]; exact hquiet, ho.2⟩
      · exact ⟨hquiet, fun _ hok => (by cases hok)⟩

/-- With enough pages the loop does not fail, when the store does not. -/
theorem collectRuns_ok {answers : (call : RetentionCall) → Except String call.Answer → Prop}
    (h : WellKept runtime history)
    (hanswers : ∀ input answer, answers (.query input) answer → answer = history.query input)
    {pages : Nat} {after : Int} {runs : List BackupRun}
    (hpages : (later history targetId after).length < pages) (log : RetentionLog) :
    Prog.Spec (Prog.logged answers) (fun _ => True)
      (collectRuns targetId pages (.finite after) runs) (fun o _ => ∃ collected, o = .ok collected)
      log := by
  induction pages generalizing after runs log with
  | zero => omega
  | succ pages ih =>
      rw [collectRuns, Prog.spec_bind, ask, Prog.spec_perform]
      rintro answer log' ⟨hanswer, rfl⟩
      refine ⟨trivial, ?_⟩
      obtain rfl := hanswers _ _ hanswer
      rw [query_page h]
      dsimp only
      by_cases hshort : ((sortRuns (later history targetId after)).take 100).length < 100
      · rw [if_pos hshort]
        exact ⟨_, rfl⟩
      · rw [if_neg hshort]
        obtain ⟨last, hlast, hmem, hafter, -, hfewer⟩ := full_page h hshort
        rw [hlast]
        dsimp only
        rw [(h.sequence last hmem).1, notAfter_finite hafter, if_neg Bool.false_ne_true]
        exact ih (by omega) _

end Collect

/-! ## Orders -/

theorem compareDates_ne_gt {a b : Int} {otherwise : Ordering} :
    compareDates (some a) (some b) otherwise ≠ .gt ↔ a < b ∨ a = b ∧ otherwise ≠ .gt := by
  rw [compareDates]
  by_cases hab : a = b
  · simp [hab]
  · rw [if_neg hab, ne_eq, compare_gt_iff_gt]
    omega

theorem compareDates_swap (a b : Int) (otherwise : Ordering) :
    compareDates (some b) (some a) otherwise.swap = (compareDates (some a) (some b) otherwise).swap := by
  rw [compareDates, compareDates]
  by_cases hab : a = b
  · rw [if_pos hab, if_pos hab.symm]
  · rw [if_neg hab, if_neg (Ne.symm hab), Std.OrientedOrd.eq_swap]

/-- Dated elements are compared consistently, when ties are. -/
theorem consistentOn_compareDates {α : Type} {date : α → Option Int} {tie : α → α → Ordering}
    {l : List α} (hdated : ∀ a ∈ l, (date a).isSome) (htie : ConsistentOn tie l) :
    ConsistentOn (fun a b => compareDates (date a) (date b) (tie a b)) l where
  swap a ha b hb := by
    obtain ⟨x, hx⟩ := Option.isSome_iff_exists.mp (hdated a ha)
    obtain ⟨y, hy⟩ := Option.isSome_iff_exists.mp (hdated b hb)
    rw [hx, hy, htie.swap a ha b hb, compareDates_swap]
  trans a ha b hb c hc hab hbc := by
    obtain ⟨x, hx⟩ := Option.isSome_iff_exists.mp (hdated a ha)
    obtain ⟨y, hy⟩ := Option.isSome_iff_exists.mp (hdated b hb)
    obtain ⟨z, hz⟩ := Option.isSome_iff_exists.mp (hdated c hc)
    rw [hx, hy, compareDates_ne_gt] at hab
    rw [hy, hz, compareDates_ne_gt] at hbc
    rw [hx, hz, compareDates_ne_gt]
    rcases hab with hab | ⟨rfl, hab⟩
    · rcases hbc with hbc | ⟨rfl, -⟩
      · exact .inl (hab.trans hbc)
      · exact .inl hab
    · rcases hbc with hbc | ⟨rfl, hbc⟩
      · exact .inl hbc
      · exact .inr ⟨rfl, htie.trans a ha b hb c hc hab hbc⟩

/-! ## Newer runs -/

section Newer

variable (runtime : Runtime)

/-- Has a run ended later than another one, or at the same time under a greater number? -/
def isNewer (other run : BackupRun) : Bool :=
  match dateOfRun runtime other, dateOfRun runtime run with
  | some date, some date' => date' < date || (date = date' && run.number < other.number)
  | _, _ => false

/-- Is a successful run one of the newest ones, which the retention keeps? -/
def isProtected (target : BackupTarget) (history : InMemoryBackupRunStore) (run : BackupRun) : Bool :=
  ((successes history target.id).filter (isNewer runtime · run)).length <
    target.retention.keepLastSuccessful

/-- The artifacts of the other successful runs. -/
def prunable (target : BackupTarget) (history : InMemoryBackupRunStore)
    (artifacts : List ManagedBackupArtifact) : List ManagedBackupArtifact :=
  artifacts.filter fun artifact => (successes history target.id).any fun run =>
    run.runId = artifact.runId && !isProtected runtime target history run

variable {runtime} {history : InMemoryBackupRunStore} {target : BackupTarget}

/-- The runs in their order: each one is newer than those after it. -/
theorem pairwise_sort_runs (h : WellKept runtime history) {runs : List BackupRun}
    (hruns : runs.Perm (successes history target.id)) :
    (runtime.sortRuns.sort (compareRuns runtime) runs).Pairwise fun a b =>
      isNewer runtime a b = true ∧ isNewer runtime b a = false := by
  have hmem : ∀ run ∈ runs, run ∈ history.runs := fun run hrun =>
    (mem_successes.mp (hruns.mem_iff.mp hrun)).1
  have hconsistent : ConsistentOn (compareRuns runtime) runs :=
    (consistentOn_compareDates (fun run hrun => h.dated run (hmem run hrun))
      (consistentOn_of_key (·.number) fun _ _ _ _ => rfl)).flip
  have hsorted := runtime.sortRuns.sorted _ _ hconsistent
  have hperm := runtime.sortRuns.perm (compareRuns runtime) runs
  have hnumbers : (runtime.sortRuns.sort (compareRuns runtime) runs).Pairwise fun a b =>
      a.number ≠ b.number := by
    have hnodup : ((runtime.sortRuns.sort (compareRuns runtime) runs).map (·.number)).Nodup :=
      ((hperm.trans hruns).map _).nodup_iff.mpr (nodup_successes h)
    exact List.pairwise_map.mp hnodup
  refine (hsorted.and hnumbers).imp_of_mem fun {a b} ha hb hab => ?_
  obtain ⟨x, hx⟩ := Option.isSome_iff_exists.mp (h.dated a (hmem a (hperm.mem_iff.mp ha)))
  obtain ⟨y, hy⟩ := Option.isSome_iff_exists.mp (h.dated b (hmem b (hperm.mem_iff.mp hb)))
  obtain ⟨hle, hne⟩ := hab
  rw [compareRuns, hx, hy, compareDates_ne_gt, ne_eq, compare_gt_iff_gt] at hle
  simp only [isNewer, hx, hy, Bool.or_eq_true, Bool.or_eq_false_iff, Bool.and_eq_true,
    Bool.and_eq_false_iff, decide_eq_true_eq, decide_eq_false_iff_not]
  omega

/-- The runs that are kept are the first ones in the order. -/
theorem mem_take_iff (h : WellKept runtime history) {runs : List BackupRun}
    (hruns : runs.Perm (successes history target.id)) {run : BackupRun}
    (hrun : run ∈ successes history target.id) :
    run ∈ (runtime.sortRuns.sort (compareRuns runtime) runs).take
        target.retention.keepLastSuccessful ↔ isProtected runtime target history run = true := by
  have hsorted := pairwise_sort_runs h hruns
  have hperm := (runtime.sortRuns.perm (compareRuns runtime) runs).trans hruns
  generalize runtime.sortRuns.sort (compareRuns runtime) runs = sorted at hsorted hperm ⊢
  obtain ⟨before, after, rfl⟩ := List.append_of_mem (hperm.mem_iff.mpr hrun)
  have hnodup : (before ++ run :: after).Nodup :=
    hperm.nodup_iff.mpr (List.Nodup.of_map _ (nodup_successes h))
  rw [List.pairwise_append] at hsorted
  obtain ⟨-, hafter, hbefore⟩ := hsorted
  have hself : isNewer runtime run run = false := by
    obtain ⟨x, hx⟩ := Option.isSome_iff_exists.mp (h.dated run (mem_successes.mp hrun).1)
    simp [isNewer, hx]
  -- exactly the runs before it are newer
  have hnewer : (before ++ run :: after).filter (isNewer runtime · run) = before := by
    rw [List.filter_append, List.filter_eq_self.mpr fun other hother =>
        (hbefore other hother run List.mem_cons_self).1, List.filter_eq_nil_iff.mpr fun other hother => ?_,
      List.append_nil]
    rcases List.mem_cons.mp hother with rfl | hother
    · simp [hself]
    · simp [((List.pairwise_cons.mp hafter).1 other hother).2]
  have hcount : ((successes history target.id).filter (isNewer runtime · run)).length =
      before.length := by
    rw [← (hperm.filter _).length_eq, hnewer]
  rw [isProtected, hcount, decide_eq_true_eq, List.take_append]
  have hnotBefore : run ∉ before := fun hmem =>
    (List.nodup_append.mp hnodup).2.2 run hmem run List.mem_cons_self rfl
  by_cases hlt : before.length < target.retention.keepLastSuccessful
  · obtain ⟨rest, hrest⟩ : ∃ rest, target.retention.keepLastSuccessful - before.length = rest + 1 :=
      ⟨target.retention.keepLastSuccessful - before.length - 1, by omega⟩
    rw [hrest, List.take_succ_cons]
    simp [hlt]
  · rw [show target.retention.keepLastSuccessful - before.length = 0 by omega, List.take_zero,
      List.append_nil]
    simp only [hlt, iff_false]
    exact fun hmem => hnotBefore (List.mem_of_mem_take hmem)

end Newer

/-! ## What is asked of a run -/

section Runs

variable (runtime : Runtime) (target : BackupTarget) (history : InMemoryBackupRunStore)
  (artifacts : List ManagedBackupArtifact)

/-- What a run that has asked for these removals is to have done. -/
structure Prunes (outcome : Except String BackupRetentionResult) (removed : List (String × Bool)) :
    Prop where
  keeps : ∀ removal ∈ removed, ∀ run ∈ successes history target.id, run.runId = removal.1 →
    isProtected runtime target history run = false
  managed : ∀ removal ∈ removed, removal.1 ∈ artifacts.map (·.runId) ∧
    ∃ run ∈ successes history target.id, run.runId = removal.1
  nothing : ∀ result, outcome = .ok result → result.result = .busy ∨ result.result = .blocked →
    ∀ removal ∈ removed, removal.2 = false
  oldestFirst : ∃ attempted ⊆ artifacts, removed.map (·.1) = attempted.map (·.runId) ∧
    attempted.Pairwise fun a b => ∃ x y, runtime.dateOf a.completedAt = some x ∧
      runtime.dateOf b.completedAt = some y ∧ x ≤ y
  reports : ∀ result, outcome = .ok result → result.deletedCount = (removed.filter (·.2)).length
  stops : ∀ before runId after, removed = before ++ (runId, false) :: after → after = [] ∧
    ∃ result, outcome = .ok result ∧ result.result = if before = [] then .blocked else .partially

/-- Either an artifact is not known, so that nothing is removed, or at most one is to be
removed, or all that are have dates. -/
def PrunableInOrder : Prop :=
  (∃ artifact ∈ artifacts, ∀ run ∈ successes history target.id, run.runId ≠ artifact.runId) ∨
    (prunable runtime target history artifacts).length ≤ 1 ∨
    ∀ artifact ∈ prunable runtime target history artifacts,
      (runtime.dateOf artifact.completedAt).isSome

variable {runtime target history artifacts}

theorem prunes_nothing {outcome : Except String BackupRetentionResult}
    (h : ∀ result, outcome = .ok result → result.deletedCount = 0) :
    Prunes runtime target history artifacts outcome [] where
  keeps _ hmem := by cases hmem
  managed _ hmem := by cases hmem
  nothing _ _ _ _ hmem := by cases hmem
  oldestFirst := ⟨[], List.nil_subset _, rfl, .nil⟩
  reports result hresult := by simp [h result hresult]
  stops before runId after hsplit := by simp at hsplit

theorem removals_removeManaged {targetId runId : String} {answer : Except String Unit}
    {log : RetentionLog} :
    removals (⟨.removeManaged targetId runId, answer⟩ :: log) =
      removals log ++ [(runId, answer.isOk)] := by
  rw [removals, List.filterMap_cons_some (by rfl), List.reverse_cons, removals]

/-- How the loop over the artifacts ends: after all of them, or at the first that fails. -/
theorem removeAll_spec {answers : (call : RetentionCall) → Except String call.Answer → Prop}
    (targetId : String) (processedCount : Nat) (rest : List ManagedBackupArtifact) (deletedCount : Nat)
    (log : RetentionLog) :
    Prog.Spec (Prog.logged answers) (fun _ => True) (removeAll targetId processedCount rest deletedCount)
      (fun o log' =>
        (removals log' = removals log ++ rest.map (fun artifact => (artifact.runId, true)) ∧
          o = .ok ⟨targetId, processedCount, deletedCount + rest.length, .completed⟩) ∨
        ∃ before last after, rest = before ++ last :: after ∧
          removals log' = removals log ++ before.map (fun artifact => (artifact.runId, true)) ++
            [(last.runId, false)] ∧
          o = .ok ⟨targetId, processedCount, deletedCount + before.length,
            if deletedCount + before.length = 0 then .blocked else .partially⟩) log := by
  induction rest generalizing deletedCount log with
  | nil => exact .inl ⟨by simp, rfl⟩
  | cons artifact rest ih =>
      rw [removeAll, Prog.spec_bind, Prog.spec_attempt, ask, Prog.spec_perform]
      rintro answer log' ⟨-, rfl⟩
      refine ⟨trivial, ?_⟩
      cases answer with
      | error error =>
          exact .inr ⟨[], artifact, rest, rfl, by rw [removals_removeManaged]; simp; rfl, rfl⟩
      | ok answer =>
          refine (ih (deletedCount + 1) _).mono (fun _ h => h) fun o log'' ho => ?_
          rw [removals_removeManaged] at ho
          rcases ho with ⟨hlog, ho⟩ | ⟨before, last, after, rfl, hlog, ho⟩
          · refine .inl ⟨by rw [hlog]; simp; rfl, ?_⟩
            rw [ho, List.length_cons]
            congr 2
            omega
          · refine .inr ⟨artifact :: before, last, after, rfl, by rw [hlog]; simp; rfl, ?_⟩
            rw [ho, List.length_cons, show deletedCount + 1 + before.length =
              deletedCount + (before.length + 1) by omega]

/-- A successful run is known by its id. -/
theorem eq_of_runId (h : WellKept runtime history) {a b : BackupRun}
    (ha : a ∈ successes history target.id) (hb : b ∈ successes history target.id)
    (hid : a.runId = b.runId) : a = b :=
  List.inj_on_of_nodup_map h.ids (mem_successes.mp ha).1 (mem_successes.mp hb).1 hid

/-- When every artifact is known, those of the runs that are not kept are removed. -/
theorem deletion_eq (h : WellKept runtime history) {runs : List BackupRun}
    (hruns : runs.Perm (successes history target.id))
    (hknown : ∀ artifact ∈ artifacts, ∃ run ∈ successes history target.id,
      run.runId = artifact.runId) (now : Int) :
    deletion runtime target.retention now (runtime.sortRuns.sort (compareRuns runtime) runs)
      artifacts = prunable runtime target history artifacts := by
  have hperm := (runtime.sortRuns.perm (compareRuns runtime) runs).trans hruns
  refine List.filter_congr fun artifact hartifact => ?_
  obtain ⟨run, hrun, hid⟩ := hknown artifact hartifact
  have htake := mem_take_iff h hruns hrun
  generalize runtime.sortRuns.sort (compareRuns runtime) runs = sorted at hperm htake ⊢
  have hkept : artifact.runId ∈ (sorted.take target.retention.keepLastSuccessful).map (·.runId) ↔
      isProtected runtime target history run = true := by
    rw [← htake, List.mem_map]
    constructor
    · rintro ⟨other, hother, hsame⟩
      rwa [← eq_of_runId h (hperm.mem_iff.mp (List.mem_of_mem_take hother)) hrun (hsame.trans hid.symm)]
    · exact fun hmem => ⟨run, hmem, hid⟩
  have hany : ((successes history target.id).any fun other =>
      decide (other.runId = artifact.runId) && !isProtected runtime target history other) =
      !isProtected runtime target history run := by
    rw [Bool.eq_iff_iff, List.any_eq_true]
    constructor
    · rintro ⟨other, hother, hsame⟩
      obtain ⟨hsame, hnot⟩ := (Bool.and_eq_true _ _).mp hsame
      rwa [eq_of_runId h hother hrun ((of_decide_eq_true hsame).trans hid.symm)] at hnot
    · exact fun hnot => ⟨run, hrun, by simp [hid, hnot]⟩
  have hfound : (sorted.any fun other => decide (other.runId = artifact.runId)) = true :=
    List.any_eq_true.mpr ⟨run, hperm.mem_iff.mpr hrun, decide_eq_true hid⟩
  rw [hany, hfound, Bool.or_true]
  by_cases hprotected : isProtected runtime target history run = true
  · rw [if_pos (hkept.mpr hprotected), hprotected]
    rfl
  · rw [if_neg fun hmem => hprotected (hkept.mp hmem), eq_false_of_ne_true hprotected]
    rfl

/-- What is removed in order, when the artifacts to remove have dates. -/
theorem pairwise_sort_artifacts {l : List ManagedBackupArtifact}
    (h : l.length ≤ 1 ∨ ∀ artifact ∈ l, (runtime.dateOf artifact.completedAt).isSome) :
    (runtime.sortArtifacts.sort (compareArtifacts runtime) l).Pairwise fun a b => ∃ x y,
      runtime.dateOf a.completedAt = some x ∧ runtime.dateOf b.completedAt = some y ∧ x ≤ y := by
  have hperm := runtime.sortArtifacts.perm (compareArtifacts runtime) l
  rcases h with hlength | hdated
  · rw [← hperm.length_eq] at hlength
    cases hsorted : runtime.sortArtifacts.sort (compareArtifacts runtime) l with
    | nil => exact .nil
    | cons a rest =>
        rw [hsorted, List.length_cons] at hlength
        obtain rfl := List.length_eq_zero_iff.mp (show rest.length = 0 by omega)
        exact List.pairwise_singleton _ _
  · have htie : ConsistentOn (fun a b => runtime.localeCompare a.runId b.runId) l :=
      ⟨fun a ha b hb => (runtime.consistent (l.map (·.runId))).swap _ (List.mem_map_of_mem ha) _
          (List.mem_map_of_mem hb),
        fun a ha b hb c hc => (runtime.consistent (l.map (·.runId))).trans _ (List.mem_map_of_mem ha) _
          (List.mem_map_of_mem hb) _ (List.mem_map_of_mem hc)⟩
    have hsorted := runtime.sortArtifacts.sorted _ _ (consistentOn_compareDates hdated htie)
    refine hsorted.imp_of_mem fun {a b} ha hb hab => ?_
    obtain ⟨x, hx⟩ := Option.isSome_iff_exists.mp (hdated a (hperm.mem_iff.mp ha))
    obtain ⟨y, hy⟩ := Option.isSome_iff_exists.mp (hdated b (hperm.mem_iff.mp hb))
    rw [hx, hy, compareDates_ne_gt] at hab
    refine ⟨x, y, hx, hy, ?_⟩
    rcases hab with hab | ⟨rfl, -⟩
    · exact hab.le
    · exact le_refl _

theorem mem_prunable {artifact : ManagedBackupArtifact}
    (h : artifact ∈ prunable runtime target history artifacts) :
    artifact ∈ artifacts ∧ ∃ run ∈ successes history target.id, run.runId = artifact.runId ∧
      isProtected runtime target history run = false := by
  obtain ⟨hmem, hany⟩ := List.mem_filter.mp h
  obtain ⟨run, hrun, hboth⟩ := List.any_eq_true.mp hany
  simp only [Bool.and_eq_true, decide_eq_true_eq, Bool.not_eq_true'] at hboth
  exact ⟨hmem, run, hrun, hboth.1, hboth.2⟩

/-- A run that has attempted removals in order, all of artifacts that are not kept. -/
theorem prunes_of_attempted (h : WellKept runtime history)
    {attempted : List ManagedBackupArtifact} {removed : List (String × Bool)}
    {outcome : Except String BackupRetentionResult}
    (hattempted : ∀ artifact ∈ attempted, artifact ∈ prunable runtime target history artifacts)
    (hremoved : removed.map (·.1) = attempted.map (·.runId))
    (hordered : attempted.Pairwise fun a b => ∃ x y, runtime.dateOf a.completedAt = some x ∧
      runtime.dateOf b.completedAt = some y ∧ x ≤ y)
    (hnothing : ∀ result, outcome = .ok result → result.result = .busy ∨ result.result = .blocked →
      ∀ removal ∈ removed, removal.2 = false)
    (hreports : ∀ result, outcome = .ok result →
      result.deletedCount = (removed.filter (·.2)).length)
    (hstops : ∀ before runId after, removed = before ++ (runId, false) :: after → after = [] ∧
      ∃ result, outcome = .ok result ∧
        result.result = if before = [] then .blocked else .partially) :
    Prunes runtime target history artifacts outcome removed where
  keeps removal hremoval run hrun hid := by
    obtain ⟨artifact, hmem, hsame⟩ := List.mem_map.mp (hremoved ▸ List.mem_map_of_mem hremoval)
    obtain ⟨-, other, hother, hotherId, hnot⟩ := mem_prunable (hattempted artifact hmem)
    rwa [eq_of_runId h hrun hother (hid.trans (hsame.symm.trans hotherId.symm))]
  managed removal hremoval := by
    obtain ⟨artifact, hmem, hsame⟩ := List.mem_map.mp (hremoved ▸ List.mem_map_of_mem hremoval)
    obtain ⟨hartifact, run, hrun, hid, -⟩ := mem_prunable (hattempted artifact hmem)
    exact ⟨hsame ▸ List.mem_map_of_mem hartifact, run, hrun, hid.trans hsame⟩
  nothing := hnothing
  oldestFirst := ⟨attempted, fun artifact hmem => (mem_prunable (hattempted artifact hmem)).1,
    hremoved, hordered⟩
  reports := hreports
  stops := hstops

end Runs

/-! ## Whole runs -/

section Whole

variable {runtime : Runtime} {target : BackupTarget} {history : InMemoryBackupRunStore}
  {artifacts : List ManagedBackupArtifact}

/-- No run has a number up to zero. -/
theorem perm_nil_filter (h : WellKept runtime history) :
    ([] : List BackupRun).Perm ((successes history target.id).filter fun run => run.number ≤ 0) := by
  rw [List.filter_eq_nil_iff.mpr]
  intro run hrun
  have := (h.sequence run (mem_successes.mp hrun).1).2
  simp only [decide_eq_true_eq]
  omega

/-- A list is unknown when it has an artifact of no successful run. -/
theorem unknown_iff {runs : List BackupRun} (hruns : runs.Perm (successes history target.id)) :
    (artifacts.any fun artifact => runs.all (·.runId ≠ artifact.runId)) = true ↔
      ∃ artifact ∈ artifacts, ∀ run ∈ successes history target.id, run.runId ≠ artifact.runId := by
  simp only [List.any_eq_true, List.all_eq_true, decide_eq_true_eq, hruns.mem_iff]

/-- What the loop over the artifacts to remove does is what is asked of a run. -/
theorem prunes_removeAll {answers : (call : RetentionCall) → Except String call.Answer → Prop}
    (h : WellKept runtime history) (processedCount : Nat)
    (hdated : (prunable runtime target history artifacts).length ≤ 1 ∨
      ∀ artifact ∈ prunable runtime target history artifacts,
        (runtime.dateOf artifact.completedAt).isSome)
    {log : RetentionLog} (hlog : removals log = []) :
    Prog.Spec (Prog.logged answers) (fun _ => True)
      (removeAll target.id processedCount (runtime.sortArtifacts.sort (compareArtifacts runtime)
        (prunable runtime target history artifacts)) 0)
      (fun o log' => Prunes runtime target history artifacts o (removals log')) log := by
  have hordered := pairwise_sort_artifacts hdated
  have hmem : ∀ artifact ∈ runtime.sortArtifacts.sort (compareArtifacts runtime)
      (prunable runtime target history artifacts),
      artifact ∈ prunable runtime target history artifacts := fun artifact hartifact =>
    (runtime.sortArtifacts.mem_sort).mp hartifact
  generalize runtime.sortArtifacts.sort (compareArtifacts runtime)
    (prunable runtime target history artifacts) = sorted at hordered hmem ⊢
  refine (removeAll_spec target.id processedCount sorted 0 log).mono (fun _ h => h) ?_
  intro o log' ho
  simp only [hlog, List.nil_append] at ho
  rcases ho with ⟨hremoved, rfl⟩ | ⟨before, last, after, rfl, hremoved, rfl⟩
  · -- nothing has failed
    rw [hremoved]
    have hall : ∀ removal ∈ sorted.map fun artifact => (artifact.runId, true), removal.2 = true := by
      intro removal hremoval
      obtain ⟨artifact, -, rfl⟩ := List.mem_map.mp hremoval
      rfl
    refine prunes_of_attempted h hmem (by rw [List.map_map]; rfl) hordered ?_ ?_ ?_
    · intro result hresult hbusy
      obtain rfl := Except.ok.inj hresult
      simp at hbusy
    · intro result hresult
      obtain rfl := Except.ok.inj hresult
      rw [List.filter_eq_self.mpr hall, List.length_map]
      exact Nat.zero_add _
    · intro before runId after hsplit
      have := hall (runId, false) (by rw [hsplit]; simp)
      cases this
  · -- the removal of `last` has failed
    rw [hremoved]
    have hfirst : (before ++ [last]).Sublist (before ++ last :: after) := by simp
    have hbefore : ∀ removal ∈ before.map fun artifact => (artifact.runId, true),
        removal.2 = true := by
      intro removal hremoval
      obtain ⟨artifact, -, rfl⟩ := List.mem_map.mp hremoval
      rfl
    have hattempted : ∀ artifact ∈ before ++ [last],
        artifact ∈ prunable runtime target history artifacts := fun artifact hartifact =>
      hmem artifact (hfirst.subset hartifact)
    refine prunes_of_attempted h hattempted ?_ (hordered.sublist hfirst) ?_ ?_ ?_
    · simp [List.map_map, Function.comp_def]
    · intro result hresult hbusy removal hremoval
      obtain rfl := Except.ok.inj hresult
      by_cases hnone : before = []
      · subst hnone
        simp only [List.map_nil, List.nil_append, List.mem_singleton] at hremoval
        rw [hremoval]
      · simp [hnone] at hbusy
    · intro result hresult
      obtain rfl := Except.ok.inj hresult
      simp [List.filter_eq_self.mpr hbefore]
    · intro first runId rest hsplit
      rw [List.append_eq_append_iff] at hsplit
      rcases hsplit with ⟨more, rfl, hmore⟩ | ⟨more, hmore, hrest⟩
      · cases more with
        | nil =>
            simp only [List.nil_append, List.cons.injEq, Prod.mk.injEq, and_true] at hmore
            refine ⟨hmore.2.symm, _, rfl, ?_⟩
            simp
        | cons removal more =>
            simp at hmore
      · cases more with
        | nil =>
            simp only [List.nil_append, List.cons.injEq, Prod.mk.injEq, and_true] at hrest
            rw [List.append_nil] at hmore
            refine ⟨hrest.2, _, rfl, ?_⟩
            rw [← hmore]
            simp
        | cons removal more =>
            have hrunId : removal = (runId, false) := by
              simp only [List.cons_append, List.cons.injEq] at hrest
              exact hrest.1.symm
            have := hbefore removal (by rw [hmore]; simp)
            rw [hrunId] at this
            cases this

theorem applyRetention_spec (h : WellKept runtime history)
    (hprunable : PrunableInOrder runtime target history artifacts) (pages : Nat)
    {log : RetentionLog} (hlog : removals log = []) :
    Prog.Spec (Prog.logged (retentionAnswers target history artifacts)) (fun _ => True)
      (applyRetention runtime pages target target.id)
      (fun o log' => Prunes runtime target history artifacts o (removals log')) log := by
  rw [applyRetention, Prog.spec_bind]
  refine (collectRuns_spec h pages (perm_nil_filter h) log).mono (fun _ h => h) ?_
  intro collected log₁ hcollected
  rw [hlog] at hcollected
  cases collected with
  | error error =>
      dsimp only
      rw [hcollected.1]
      exact prunes_nothing fun result hresult => (by cases hresult)
  | ok runs =>
      obtain ⟨hlog₁, hruns⟩ := hcollected
      have hruns := hruns runs rfl
      dsimp only
      rw [Prog.spec_bind, ask, Prog.spec_perform]
      rintro answer log₂ ⟨hanswer, rfl⟩
      refine ⟨trivial, ?_⟩
      have hlog₂ : removals (⟨.listManaged target.id, answer⟩ :: log₁) = [] := by
        rw [removals_cons fun _ _ => by simp, hlog₁]
      rcases hanswer with rfl | ⟨error, rfl⟩
      · dsimp only
        have hunknown := @unknown_iff target history artifacts _
          ((runtime.sortRuns.perm (compareRuns runtime) runs).trans hruns)
        by_cases hany : ∃ artifact ∈ artifacts, ∀ run ∈ successes history target.id,
            run.runId ≠ artifact.runId
        · rw [if_pos (hunknown.mpr hany), Prog.spec_pure, hlog₂]
          refine prunes_nothing fun result hresult => ?_
          obtain rfl := Except.ok.inj hresult
          rfl
        · rw [if_neg fun hmem => hany (hunknown.mp hmem), Prog.spec_bind, ask, Prog.spec_perform]
          rintro instant log₃ ⟨⟨now, rfl⟩, rfl⟩
          refine ⟨trivial, ?_⟩
          dsimp only
          have hknown : ∀ artifact ∈ artifacts, ∃ run ∈ successes history target.id,
              run.runId = artifact.runId := by
            intro artifact hartifact
            by_contra hnot
            exact hany ⟨artifact, hartifact, fun run hrun hid => hnot ⟨run, hrun, hid⟩⟩
          rw [deletion_eq h hruns hknown now]
          refine prunes_removeAll h _ (hprunable.resolve_left hany) ?_
          rw [removals_cons fun _ _ => by simp, hlog₂]
      · dsimp only
        rw [hlog₂]
        exact prunes_nothing fun result hresult => (by cases hresult)

/-- What every run does, when the artifacts to remove have dates. -/
theorem execute_spec (h : WellKept runtime history)
    (hprunable : PrunableInOrder runtime target history artifacts) (pages : Nat) :
    Prog.Spec (Prog.logged (retentionAnswers target history artifacts)) (fun _ => True)
      (execute runtime pages target.id)
      (fun o log => Prunes runtime target history artifacts o (removals log)) [] := by
  rw [execute, Prog.spec_bind, ask, Prog.spec_perform]
  rintro answer log₁ ⟨rfl, rfl⟩
  refine ⟨trivial, ?_⟩
  rw [if_pos rfl]
  dsimp only
  rw [Prog.spec_bind, ask, Prog.spec_perform]
  rintro answer log₂ ⟨⟨acquired, rfl⟩, rfl⟩
  refine ⟨trivial, ?_⟩
  dsimp only
  by_cases hacquired : acquired = true
  · rw [if_pos hacquired, Prog.spec_bind, Prog.spec_attempt]
    refine (applyRetention_spec h hprunable pages ?_).mono (fun _ h => h) ?_
    · rfl
    · intro o log₃ ho
      dsimp only
      rw [Prog.spec_bind, ask, Prog.spec_perform]
      rintro answer log₄ ⟨rfl, rfl⟩
      refine ⟨trivial, ?_⟩
      dsimp only
      rw [Prog.spec_ofExcept, removals_cons fun _ _ => by simp]
      exact ho
  · rw [if_neg hacquired, Prog.spec_pure]
    refine prunes_nothing fun result hresult => ?_
    obtain rfl := Except.ok.inj hresult
    rfl

/-! ## A run in which everything works -/

/-- The answers of ports that work. -/
def workingAnswer (target : BackupTarget) (history : InMemoryBackupRunStore)
    (artifacts : List ManagedBackupArtifact) :
    (call : RetentionCall) → Except String call.Answer
  | .findById targetId => .ok (if targetId = target.id then some target else none)
  | .tryAcquire => .ok true
  | .query input => history.query input
  | .listManaged _ => .ok artifacts
  | .now => .ok 0
  | .removeManaged _ _ => .ok ()
  | .release => .ok ()

/-- Ports that work, recorded. -/
def working (target : BackupTarget) (history : InMemoryBackupRunStore)
    (artifacts : List ManagedBackupArtifact) (log : RetentionLog) (call : RetentionCall) :
    Except String call.Answer × RetentionLog :=
  (workingAnswer target history artifacts call,
    ⟨call, workingAnswer target history artifacts call⟩ :: log)

theorem retentionAnswers_working (call : RetentionCall) :
    retentionAnswers target history artifacts call (workingAnswer target history artifacts call) := by
  cases call with
  | findById targetId => rfl
  | tryAcquire => exact ⟨true, rfl⟩
  | query input => exact .inl rfl
  | listManaged targetId => exact .inl rfl
  | now => exact ⟨0, rfl⟩
  | removeManaged targetId runId => trivial
  | release => rfl

theorem exec_working {α : Type} (p : RetentionProg α) (log : RetentionLog) :
    Prog.Exec (Prog.logged (retentionAnswers target history artifacts)) p log
      (Prog.run (working target history artifacts) p log).1
      (Prog.run (working target history artifacts) p log).2 :=
  Prog.exec_run (fun _ call => ⟨retentionAnswers_working call, rfl⟩) p log

/-- All pages are read. -/
theorem collectRuns_working (h : WellKept runtime history) {pages : Nat}
    (hpages : (successes history target.id).length < pages) (log : RetentionLog) :
    ∃ runs log', Prog.run (working target history artifacts)
        (collectRuns target.id pages (.finite 0) []) log = (.ok runs, log') ∧
      runs.Perm (successes history target.id) ∧ removals log' = removals log := by
  have hlater : (later history target.id 0).length < pages :=
    lt_of_le_of_lt (List.length_filter_le _ _) hpages
  have hspec := (@collectRuns_spec runtime history target artifacts target.id h pages 0 []
    (perm_nil_filter h) log).exec (exec_working _ log)
  have hexec : Prog.Exec (Prog.logged fun call answer =>
      answer = workingAnswer target history artifacts call) (collectRuns target.id pages (.finite 0) [])
      log _ (Prog.run (working target history artifacts) _ log).2 :=
    Prog.exec_run (fun _ _ => ⟨rfl, rfl⟩) _ log
  obtain ⟨runs, hruns⟩ := (collectRuns_ok h (fun input answer hanswer => hanswer) hlater log).exec hexec
  exact ⟨runs, _, Prod.ext hruns rfl, hspec.2 runs hruns, hspec.1⟩

/-- All artifacts are removed. -/
theorem removeAll_working (processedCount : Nat) (rest : List ManagedBackupArtifact)
    (deletedCount : Nat) (log : RetentionLog) :
    removals (Prog.run (working target history artifacts)
      (removeAll target.id processedCount rest deletedCount) log).2 =
      removals log ++ rest.map fun artifact => (artifact.runId, true) := by
  induction rest generalizing deletedCount log with
  | nil => simp [removeAll]
  | cons artifact rest ih =>
      rw [removeAll, Prog.run_bind, Prog.run_attempt, ask, Prog.run_perform]
      dsimp only [working, workingAnswer]
      rw [ih, removals_removeManaged]
      simp
      rfl

/-- When every artifact is known, all those of older backups are removed. -/
theorem applyRetention_working (h : WellKept runtime history)
    (hknown : ∀ artifact ∈ artifacts, ∃ run ∈ successes history target.id,
      run.runId = artifact.runId)
    {pages : Nat} (hpages : (successes history target.id).length < pages) (log : RetentionLog) :
    removals (Prog.run (working target history artifacts)
      (applyRetention runtime pages target target.id) log).2 =
      removals log ++ (runtime.sortArtifacts.sort (compareArtifacts runtime)
        (prunable runtime target history artifacts)).map fun artifact => (artifact.runId, true) := by
  obtain ⟨runs, log', hrun, hruns, hlog⟩ := @collectRuns_working runtime target history artifacts h _ hpages log
  have hknown' : ¬ (artifacts.any fun artifact =>
      (runtime.sortRuns.sort (compareRuns runtime) runs).all (·.runId ≠ artifact.runId)) = true := by
    rw [unknown_iff ((runtime.sortRuns.perm (compareRuns runtime) runs).trans hruns)]
    rintro ⟨artifact, hartifact, hnot⟩
    obtain ⟨run, hmem, hid⟩ := hknown artifact hartifact
    exact hnot run hmem hid
  rw [applyRetention, Prog.run_bind, hrun]
  dsimp only
  rw [Prog.run_bind, ask, Prog.run_perform]
  dsimp only [working, workingAnswer]
  rw [if_neg hknown', Prog.run_bind, ask, Prog.run_perform]
  dsimp only [working, workingAnswer]
  rw [deletion_eq h hruns hknown 0]
  have hremove := @removeAll_working target history artifacts
    artifacts.length (runtime.sortArtifacts.sort (compareArtifacts runtime)
      (prunable runtime target history artifacts)) 0
    (⟨.now, .ok 0⟩ :: ⟨.listManaged target.id, .ok artifacts⟩ :: log')
  rw [removals_cons fun _ _ => by simp, removals_cons fun _ _ => by simp, hlog] at hremove
  -- the ids that `removeAll` is given are those of the target
  exact hremove

theorem execute_working (h : WellKept runtime history)
    (hknown : ∀ artifact ∈ artifacts, ∃ run ∈ successes history target.id,
      run.runId = artifact.runId) :
    ∃ pages outcome log,
      Prog.Exec (Prog.logged (retentionAnswers target history artifacts))
        (execute runtime pages target.id) [] outcome log ∧
      removals log = (runtime.sortArtifacts.sort (compareArtifacts runtime)
        (prunable runtime target history artifacts)).map fun artifact => (artifact.runId, true) := by
  refine ⟨_, _, _,
    exec_working (execute runtime ((successes history target.id).length + 1) target.id) [], ?_⟩
  have hfind : workingAnswer target history artifacts (.findById target.id) = .ok (some target) := by
    simp [workingAnswer]
  have hremoved := applyRetention_working h hknown (Nat.lt_succ_self _)
    [⟨.tryAcquire, .ok true⟩, ⟨.findById target.id, .ok (some target)⟩]
  rw [execute, Prog.run_bind, ask, Prog.run_perform]
  dsimp only [working]
  rw [hfind]
  dsimp only
  rw [Prog.run_bind, ask, Prog.run_perform]
  dsimp only [working, workingAnswer]
  rw [if_pos rfl, Prog.run_bind, Prog.run_attempt]
  dsimp only
  rw [Prog.run_bind, ask, Prog.run_perform]
  dsimp only [working, workingAnswer]
  rw [Prog.run_ofExcept, removals_cons fun _ _ => by simp]
  exact hremoved

/-! ## The condition -/

/-- Lists of artifacts with the same ids are the same, when ids are not used twice. -/
theorem eq_of_map_runId {l l' : List ManagedBackupArtifact}
    (h : ∀ a ∈ l, ∀ b ∈ l', a.runId = b.runId → a = b)
    (hids : l.map (fun artifact => artifact.runId) = l'.map (·.runId)) : l = l' := by
  induction l generalizing l' with
  | nil => exact (List.map_eq_nil_iff.mp hids.symm).symm
  | cons a l ih =>
      cases l' with
      | nil => simp at hids
      | cons b l' =>
          rw [List.map_cons, List.map_cons, List.cons.injEq] at hids
          rw [h a List.mem_cons_self b List.mem_cons_self hids.1, ih (fun c hc d hd =>
            h c (List.mem_cons_of_mem _ hc) d (List.mem_cons_of_mem _ hd)) hids.2]

/-- Of two artifacts in order both have dates. -/
theorem dated_of_pairwise {l : List ManagedBackupArtifact}
    (h : l.Pairwise fun a b => ∃ x y, runtime.dateOf a.completedAt = some x ∧
      runtime.dateOf b.completedAt = some y ∧ x ≤ y) (hlength : 2 ≤ l.length) :
    ∀ artifact ∈ l, (runtime.dateOf artifact.completedAt).isSome := by
  cases l with
  | nil => simp at hlength
  | cons a rest =>
      cases rest with
      | nil => simp at hlength
      | cons b rest =>
          obtain ⟨hfirst, -⟩ := List.pairwise_cons.mp h
          intro artifact hartifact
          rw [List.mem_cons] at hartifact
          by_cases ha : artifact = a
          · obtain ⟨x, -, hx, -⟩ := hfirst b List.mem_cons_self
            rw [ha, hx]
            rfl
          · obtain ⟨-, y, -, hy, -⟩ := hfirst artifact (hartifact.resolve_left ha)
            rw [hy]
            rfl

theorem recorded_prunes_iff (h : WellKept runtime history)
    (hlisted : (artifacts.map (·.runId)).Nodup) :
    (∀ pages outcome log,
      Prog.Exec (Prog.logged (retentionAnswers target history artifacts))
        (execute runtime pages target.id) [] outcome log →
      Prunes runtime target history artifacts outcome (removals log)) ↔
      PrunableInOrder runtime target history artifacts := by
  constructor
  · intro hall
    by_cases hknown : ∀ artifact ∈ artifacts, ∃ run ∈ successes history target.id,
        run.runId = artifact.runId
    · obtain ⟨pages, outcome, log, hexec, hlog⟩ := @execute_working runtime _ _ _ h hknown
      obtain ⟨attempted, hsub, hids, hordered⟩ := (hall pages outcome log hexec).oldestFirst
      have hperm := runtime.sortArtifacts.perm (compareArtifacts runtime)
        (prunable runtime target history artifacts)
      -- what was attempted are the artifacts to remove, in their order
      have hattempted : attempted = runtime.sortArtifacts.sort (compareArtifacts runtime)
          (prunable runtime target history artifacts) := by
        rw [hlog, List.map_map] at hids
        refine (eq_of_map_runId (fun a ha b hb => ?_) hids).symm
        have hlistedA := (List.mem_filter.mp (hperm.mem_iff.mp ha)).1
        exact List.inj_on_of_nodup_map hlisted hlistedA (hsub hb)
      rw [hattempted] at hordered
      by_cases hfew : (prunable runtime target history artifacts).length ≤ 1
      · exact .inr (.inl hfew)
      · refine .inr (.inr fun artifact hartifact => ?_)
        rw [← hperm.mem_iff] at hartifact
        rw [← hperm.length_eq] at hfew
        exact dated_of_pairwise hordered (by omega) artifact hartifact
    · simp only [not_forall, not_exists, not_and] at hknown
      obtain ⟨artifact, hartifact, hnot⟩ := hknown
      exact .inl ⟨artifact, hartifact, hnot⟩
  · intro hprunable pages outcome log hexec
    exact (execute_spec h hprunable pages).exec hexec

/-- **When a retention run does what is asked of it**: every run does, whatever fails, exactly
when the artifacts to remove have dates. -/
theorem retention_prunes_iff (runtime : Runtime) (target : BackupTarget) (entries : List RunEntry)
    (history : InMemoryBackupRunStore) (artifacts : List ManagedBackupArtifact)
    (hrecorded : RunStore.recordAll entries .empty = .ok history)
    (hvalid : ∀ entry ∈ entries,
      validateRun (fun text => (runtime.dateOf text).isSome) entry.run entry.kind = true)
    (hlisted : (artifacts.map (·.runId)).Nodup) :
    (∀ pages outcome log,
      Prog.Exec (Prog.logged (retentionAnswers target history artifacts))
        (execute runtime pages target.id) [] outcome log →
      Prunes runtime target history artifacts outcome (removals log)) ↔
      PrunableInOrder runtime target history artifacts :=
  recorded_prunes_iff (wellKept_of_recorded hrecorded hvalid) hlisted

end Whole

/-! ## A manifest without a date -/

section Undated

/-- The hours of the first of January 2026. -/
def hourOf (text : String) : Option Int :=
  if text = "2026-01-01T09:00:00.000Z" then some 1767258000000
  else if text = "2026-01-01T10:00:00.000Z" then some 1767261600000
  else if text = "2026-01-01T11:00:00.000Z" then some 1767265200000
  else if text = "2026-01-01T12:00:00.000Z" then some 1767268800000
  else none

def hoursRuntime : Runtime where
  dateOf := hourOf
  localeCompare := compare
  sortRuns := .insertion _
  sortArtifacts := .insertion _
  consistent _ := consistentOn_of_key id fun _ _ _ _ => rfl

/-- The start and the end of a successful backup of the documents. -/
def backedUp (sequence : Nat) (runId : String) (hour : String) : List RunEntry :=
  let started : BackupRun :=
    { sequence := .finite sequence
      runId
      targetId := "docs"
      trigger := .manual
      scheduledFor := none
      requestedAt := hour
      startedAt := hour
      completedAt := none
      status := .started
      artifact := none
      failureCode := none }
  let artifact : BackupArtifactSummary :=
    { fileCount := .finite 1
      totalBytes := .finite 1
      manifestSha256 := "0000000000000000000000000000000000000000000000000000000000000000"
      completedAt := hour }
  [⟨.started, started⟩,
    ⟨.terminal, { started with completedAt := some hour, status := .succeeded, artifact := some artifact }⟩]

/-- Four backups, the one with the id that ends with `d` the newest. -/
def fourEntries : List RunEntry :=
  backedUp 1 "00000000-0000-4000-8000-00000000000c" "2026-01-01T09:00:00.000Z" ++
    backedUp 2 "00000000-0000-4000-8000-00000000000a" "2026-01-01T10:00:00.000Z" ++
    backedUp 3 "00000000-0000-4000-8000-00000000000b" "2026-01-01T11:00:00.000Z" ++
    backedUp 4 "00000000-0000-4000-8000-00000000000d" "2026-01-01T12:00:00.000Z"

def fourBackups : InMemoryBackupRunStore :=
  ⟨(fourEntries.filter (·.kind = .terminal)).map (·.run), []⟩

/-- Their artifacts, where the manifest of the one that ends with `b` has this date. -/
def fourArtifacts (date : String) : List ManagedBackupArtifact :=
  [⟨"docs", "00000000-0000-4000-8000-00000000000a", "2026-01-01T10:00:00.000Z", ""⟩,
    ⟨"docs", "00000000-0000-4000-8000-00000000000b", date, ""⟩,
    ⟨"docs", "00000000-0000-4000-8000-00000000000c", "2026-01-01T09:00:00.000Z", ""⟩,
    ⟨"docs", "00000000-0000-4000-8000-00000000000d", "2026-01-01T12:00:00.000Z", ""⟩]

/-- With dates in all manifests the older three are removed in their order. -/
theorem retention_prunes_iff_hours :
    ((∀ pages outcome log,
      Prog.Exec (Prog.logged (retentionAnswers docs fourBackups
          (fourArtifacts "2026-01-01T11:00:00.000Z")))
        (execute hoursRuntime pages docs.id) [] outcome log →
      Prunes hoursRuntime docs fourBackups (fourArtifacts "2026-01-01T11:00:00.000Z") outcome
        (removals log)) ↔
      PrunableInOrder hoursRuntime docs fourBackups (fourArtifacts "2026-01-01T11:00:00.000Z")) ∧
    PrunableInOrder hoursRuntime docs fourBackups (fourArtifacts "2026-01-01T11:00:00.000Z") :=
  ⟨retention_prunes_iff hoursRuntime docs fourEntries fourBackups _ (by decide +kernel)
    (by decide +kernel) (by decide +kernel), .inr (.inr (by decide +kernel))⟩

/-- Without a date in one manifest the backup of ten o'clock is removed before the one of nine. -/
theorem not_prunes_undated :
    ∃ pages outcome log,
      Prog.Exec (Prog.logged (retentionAnswers docs fourBackups (fourArtifacts "yesterday")))
        (execute hoursRuntime pages "docs") [] outcome log ∧
      removals log = [("00000000-0000-4000-8000-00000000000a", true),
        ("00000000-0000-4000-8000-00000000000b", true),
        ("00000000-0000-4000-8000-00000000000c", true)] ∧
      ¬ Prunes hoursRuntime docs fourBackups (fourArtifacts "yesterday") outcome (removals log) := by
  have hkept : WellKept hoursRuntime fourBackups :=
    @wellKept_of_recorded _ fourEntries _ (by decide +kernel) (by decide +kernel)
  obtain ⟨pages, outcome, log, hexec, hlog⟩ := @execute_working _ docs _
    (fourArtifacts "yesterday") hkept (by decide +kernel)
  have hremoved : removals log = [("00000000-0000-4000-8000-00000000000a", true),
      ("00000000-0000-4000-8000-00000000000b", true),
      ("00000000-0000-4000-8000-00000000000c", true)] := by
    rw [hlog]
    decide +kernel
  refine ⟨pages, outcome, log, hexec, hremoved, fun hprunes => ?_⟩
  rw [hremoved] at hprunes
  obtain ⟨attempted, hsub, hids, hordered⟩ := hprunes.oldestFirst
  have hlength : attempted.length = 3 := by
    rw [← List.length_map, ← hids]
    rfl
  -- the artifact without a date has been removed with the others
  obtain ⟨artifact, hmem, hid⟩ := List.mem_map.mp
    (show "00000000-0000-4000-8000-00000000000b" ∈ attempted.map (·.runId) by
      rw [← hids]
      decide)
  have hundated : ∀ artifact ∈ fourArtifacts "yesterday",
      artifact.runId = "00000000-0000-4000-8000-00000000000b" →
      (hoursRuntime.dateOf artifact.completedAt).isSome = false := by
    decide +kernel
  have hdated := dated_of_pairwise hordered (by omega) artifact hmem
  rw [hundated artifact (hsub hmem) hid] at hdated
  cases hdated

end Undated

end AtlasManager.Backup.Retention
