import AtlasManager.EventHistory.HistoryExports
import AtlasManager.Lib.Pruning

/-!
# AtlasManager.EventHistory.ExportPruning

What `pruneExports` removes.

* `exportCandidates_eq` -- the filter of the source is `removedAnywhere`;
* `Lists.without` -- after exports were removed the others are listed as before;
* `prunesExports_iff` -- **a run removes the oldest exports** within the bounds of the policy exactly
  where no export to be removed stands before an older one to be kept;
* `Lists.inTurn` -- so it is for exports of years of four digits.
-/

namespace AtlasManager.EventHistory

open AtlasManager.Lib AtlasManager.Lib.Rfc8259 AtlasManager.Backup

variable {sha256 : Text → String} {limits : HistoryLimits}

/-! ## The candidates -/

/-- Is an export past its age limit? -/
def isOldExport (cutoff : Int) (metadata : EventHistoryExportMetadata) : Bool :=
  metadata.createdAt.ms < cutoff

theorem exportCandidates_eq (policy : EventHistoryRetentionPolicy) (cutoff : Int)
    (metadatas : List EventHistoryExportMetadata) :
    exportCandidates policy cutoff metadatas =
      removedAnywhere policy.minExports policy.maxExports (isOldExport cutoff) metadatas := by
  rw [exportCandidates, ← map_filter_zipIdx metadatas 0 metadatas.length (Nat.zero_add _).symm]
  refine congrArg _ (List.filter_congr fun place _ => ?_)
  obtain ⟨item, index⟩ := place
  dsimp only
  rw [isRemovable, isOldExport]
  by_cases hle : metadatas.length - index ≤ policy.minExports
  · rw [if_pos hle, decide_eq_false (Nat.not_lt.mpr hle), Bool.false_and]
  · rw [if_neg hle, decide_eq_true (Nat.lt_of_not_le hle), Bool.true_and]

/-! ## The listing without them -/

/-- What the collation tells apart. -/
theorem collationKey_injective {a b : String} (h : collationKey a = collationKey b) : a = b := by
  have hunit : Function.Injective fun c : Char =>
      if c = '-' then 0 else if c = ':' then 1 else if c = '.' then 2 else if c = '+' then 3
      else 4 + c.toNat := by
    intro c d hcd
    dsimp only at hcd
    have hnat : c.toNat = d.toNat → c = d := Char.toNat_inj.mp
    grind
  exact String.toList_inj.mp (List.map_injective_iff.mpr hunit h)

section Without

variable {root : Root} {exports : List EventHistoryExportMetadata}

def Root.withoutExports (root : Root) (ids : List String) : Root :=
  { root with
    exportContents := root.exportContents.without ids
    exportManifests := root.exportManifests.without ids }

/-- The exports that are listed are those of the directory. -/
theorem Lists.ids (h : Lists sha256 root exports) :
    (exports.map EventHistoryExportMetadata.exportId).Perm root.exportManifests.names := by
  obtain ⟨metadatas, hmetadatas, rfl⟩ := h.reads
  have hown := List.forall₂_map_right_iff.mpr (hmetadatas.imp fun _ _ hread => hread.ownId.symm)
  rw [List.forall₂_eq_eq_eq] at hown
  have hids : (metadatas.map EventHistoryExportMetadata.exportId).Perm root.exportManifests.names := by
    rw [← hown]
    exact perm_sortBy _
  exact ((perm_sortBy metadatas).map _).trans hids

theorem Lists.nodup (h : Lists sha256 root exports) :
    (exports.map EventHistoryExportMetadata.exportId).Nodup :=
  h.ids.nodup_iff.mpr root.exportManifests.nodup

theorem forall₂_filter {α β : Type} {R S : α → β → Prop} {p : α → Bool} {q : β → Bool} {a : List α}
    {b : List β} (h : List.Forall₂ R a b) (hsame : ∀ x y, R x y → p x = q y)
    (hkeeps : ∀ x y, R x y → p x = true → S x y) : List.Forall₂ S (a.filter p) (b.filter q) := by
  induction h with
  | nil => exact .nil
  | @cons x y a b hxy _ ih =>
      rw [List.filter_cons, List.filter_cons, ← hsame x y hxy]
      by_cases hp : p x = true
      · rw [if_pos hp, if_pos hp]
        exact .cons (hkeeps x y hxy hp) ih
      · rw [if_neg hp, if_neg hp]
        exact ih

/-- An export that stays is read as before. -/
theorem ReadsExport.without {ids : List String} {exportId : String}
    {metadata : EventHistoryExportMetadata} (h : ReadsExport sha256 root exportId metadata)
    (hstays : exportId ∉ ids) : ReadsExport sha256 (root.withoutExports ids) exportId metadata where
  manifest := by
    obtain ⟨text, htext, hread⟩ := h.manifest
    refine ⟨text, ?_, hread⟩
    rw [Root.withoutExports, Lib.Directory.get?_without, if_neg hstays, htext]
  ownId := h.ownId
  content := by
    obtain ⟨content, hcontent, hverified⟩ := h.content
    refine ⟨content, ?_, hverified⟩
    rw [Root.withoutExports, Lib.Directory.get?_without, if_neg hstays, hcontent]

theorem exportsPaired_without (h : root.exportsPaired = true) (ids : List String) :
    (root.withoutExports ids).exportsPaired = true := by
  rw [exportsPaired_iff] at h ⊢
  intro exportId hid
  rw [Root.withoutExports, Lib.Directory.names_without, Lib.Directory.names_without,
    ← List.filter_append, List.mem_filter] at hid
  obtain ⟨hhex, hcontent, hmanifest⟩ := h exportId hid.1
  rw [Root.withoutExports, Lib.Directory.names_without, Lib.Directory.names_without, List.mem_filter,
    List.mem_filter]
  exact ⟨hhex, ⟨hcontent, hid.2⟩, hmanifest, hid.2⟩

/-- **The others are listed** in their order, after exports were removed. -/
theorem Lists.without (h : Lists sha256 root exports) (ids : List String) :
    Lists sha256 (root.withoutExports ids) (exports.filter fun metadata => metadata.exportId ∉ ids) where
  fault := h.fault
  paired := exportsPaired_without h.paired ids
  reads := by
    have hnodup := h.nodup
    obtain ⟨metadatas, hmetadatas, rfl⟩ := h.reads
    refine ⟨metadatas.filter fun metadata => metadata.exportId ∉ ids, ?_, ?_⟩
    · rw [Root.withoutExports, Lib.Directory.names_without,
        sortBy_filter fun a _ b _ hab => collationKey_injective hab]
      refine forall₂_filter hmetadatas (fun exportId metadata hread => ?_) fun _ _ hread hstays =>
        hread.without (by simpa using hstays)
      rw [hread.ownId]
    · refine (sortBy_filter (fun a ha b hb hab => ?_) _).symm
      -- the key has the id, which no two exports share
      have hid : a.exportId = b.exportId := collationKey_injective (congrArg Prod.snd hab)
      have hperm : (sortBy EventHistoryExportMetadata.key metadatas).Perm metadatas := perm_sortBy _
      exact List.inj_on_of_nodup_map hnodup (hperm.mem_iff.mpr ha) (hperm.mem_iff.mpr hb) hid

end Without

/-! ## A run -/

section Run

variable {disk : Option Root} {exports : List EventHistoryExportMetadata}
  {policy : EventHistoryRetentionPolicy} {now : Timestamp}

theorem readPolicy_withoutExports (ids : List String) :
    readPolicy limits (disk.map fun root => root.withoutExports ids) = readPolicy limits disk := by
  cases disk <;> rfl

theorem listExports_without (h : listExports sha256 disk = .ok exports) (ids : List String) :
    listExports sha256 (disk.map fun root => root.withoutExports ids) =
      .ok (exports.filter fun metadata => metadata.exportId ∉ ids) := by
  cases disk with
  | none =>
      rw [listExports, Except.ok.injEq] at h
      rw [← h]
      rfl
  | some root => exact listExports_eq_ok.mpr ((listExports_eq_ok.mp h).without ids)

theorem nodup_of_listExports (h : listExports sha256 disk = .ok exports) :
    (exports.map EventHistoryExportMetadata.exportId).Nodup := by
  cases disk with
  | none =>
      rw [listExports, Except.ok.injEq] at h
      rw [← h]
      exact List.nodup_nil
  | some root => exact (listExports_eq_ok.mp h).nodup

theorem withoutExports_nil (root : Root) : root.withoutExports [] = root := by
  rw [Root.withoutExports, Lib.Directory.without_nil, Lib.Directory.without_nil]

theorem pruneExports_eq (hpolicy : readPolicy limits disk = .ok policy)
    (hlist : listExports sha256 disk = .ok exports) {removed : List EventHistoryExportMetadata}
    (hremoved : removedAnywhere policy.minExports policy.maxExports
      (isOldExport (ageCutoff now policy.maxExportAgeDays)) exports = removed) :
    pruneExports sha256 limits now disk =
      (.ok ⟨if removed.length = 0 then .unchanged else .pruned, removed.length⟩,
        disk.map fun root =>
          root.withoutExports (removed.map EventHistoryExportMetadata.exportId)) := by
  simp only [pruneExports, hpolicy, hlist, exportCandidates_eq, hremoved]
  rfl

/-- What a run of `pruneExports` does that keeps to its policy. -/
structure ExportsPruned (sha256 : Text → String) (limits : HistoryLimits)
    (history : ConsistentHistory sha256 limits) (policy : EventHistoryRetentionPolicy) (now : Timestamp)
    (removed kept : List EventHistoryExportMetadata) (disk : Option Root) : Prop where
  run : pruneExports sha256 limits now history.disk =
    (.ok ⟨if removed.length = 0 then .unchanged else .pruned, removed.length⟩, disk)
  lists : listExports sha256 disk = .ok kept
  bounds : WithinBounds policy.minExports policy.maxExports
    (isOldExport (ageCutoff now policy.maxExportAgeDays)) history.exports removed kept
  oldest : ∀ item ∈ removed, ∀ other ∈ kept, item.createdAt.ms ≤ other.createdAt.ms
  sameHistory : SameHistory disk history.disk
  again : pruneExports sha256 limits now disk = (.ok ⟨.unchanged, 0⟩, disk)

/-- No export that is to be removed is listed before an older one that is to be kept. -/
def ExportsInTurn (policy : EventHistoryRetentionPolicy) (now : Timestamp)
    (exports : List EventHistoryExportMetadata) : Prop :=
  InTurn policy.minExports policy.maxExports (isOldExport (ageCutoff now policy.maxExportAgeDays))
    (fun metadata => metadata.createdAt.ms) exports

/-- **A run removes the oldest exports**, within the bounds of the policy, exactly where they are
listed in turn. -/
theorem prunesExports_iff (history : ConsistentHistory sha256 limits)
    (hpolicy : readPolicy limits history.disk = .ok policy) :
    (∃ removed kept disk, ExportsPruned sha256 limits history policy now removed kept disk) ↔
      ExportsInTurn policy now history.exports := by
  let old := isOldExport (ageCutoff now policy.maxExportAgeDays)
  let removed := removedAnywhere policy.minExports policy.maxExports old history.exports
  let kept := keptAnywhere policy.minExports policy.maxExports old history.exports
  let ids := removed.map EventHistoryExportMetadata.exportId
  have hbounds : WithinBounds policy.minExports policy.maxExports old history.exports removed kept :=
    withinBounds_anywhere policy.exports_le history.exports
  have hrun : pruneExports sha256 limits now history.disk =
      (.ok ⟨if removed.length = 0 then .unchanged else .pruned, removed.length⟩,
        history.disk.map fun root => root.withoutExports ids) :=
    pruneExports_eq hpolicy history.lists rfl
  have hlists := listExports_without history.lists ids
  rw [filter_removed_keys hbounds.perm hbounds.sublist (nodup_of_listExports history.lists)] at hlists
  have hturn : (∀ item ∈ removed, ∀ other ∈ kept, item.createdAt.ms ≤ other.createdAt.ms) ↔
      ExportsInTurn policy now history.exports := oldestRemoved_iff fun _ => rfl
  constructor
  · intro h
    obtain ⟨removed', kept', disk, h⟩ := h
    have hdisk : _ = disk := congrArg Prod.snd (hrun.symm.trans h.run)
    have hkept : kept' = kept := by
      have hlists' := h.lists
      rw [← hdisk, hlists, Except.ok.injEq] at hlists'
      exact hlists'.symm
    have hperm := h.bounds.perm.trans hbounds.perm.symm
    rw [hkept, List.perm_append_right_iff] at hperm
    have holdest := h.oldest
    rw [hkept] at holdest
    exact hturn.mp fun item hitem => holdest item (hperm.mem_iff.mpr hitem)
  · intro h
    refine ⟨removed, kept, history.disk.map fun root => root.withoutExports ids, ?_⟩
    exact {
      run := hrun
      lists := hlists
      bounds := hbounds
      oldest := hturn.mpr h
      sameHistory := by
        have hsame : SameHistory (pruneExports sha256 limits now history.disk).2 history.disk :=
          sameHistory_pruneExports _
        rwa [hrun] at hsame
      again := by
        have hpolicy' := (readPolicy_withoutExports ids).trans hpolicy
        rw [pruneExports_eq hpolicy' hlists (removedAnywhere_again history.exports)]
        refine congrArg _ ?_
        rw [List.map_nil, Option.map_map]
        refine congrFun (congrArg _ (funext fun root => ?_)) _
        exact withoutExports_nil _ }

end Run

/-! ## Years of four digits -/

/-- Characters that stand at one place of timestamps: the same mark, or digits. -/
def Alike (c d : Char) : Prop := c = d ∨ Json.isDigit c = true ∧ Json.isDigit d = true

theorem alike_pad (w m n : Nat) : List.Forall₂ Alike (pad w m) (pad w n) := by
  refine List.forall₂_iff_get.mpr ⟨by rw [length_pad, length_pad], fun i hm hn => .inr ⟨?_, ?_⟩⟩
  · exact Json.isDigit_of_mem_pad (List.getElem_mem hm)
  · exact Json.isDigit_of_mem_pad (List.getElem_mem hn)

theorem alike_isoText {a b : Timestamp} (ha : 0 ≤ yearOf a.ms ∧ yearOf a.ms ≤ 9999)
    (hb : 0 ≤ yearOf b.ms ∧ yearOf b.ms ≤ 9999) :
    List.Forall₂ Alike (isoText (civil a.ms)) (isoText (civil b.ms)) := by
  have hyear : ∀ {y : Int}, 0 ≤ y ∧ y ≤ 9999 → yearText y = pad 4 y.toNat := by
    intro y hy
    rw [yearText, if_neg (by omega), if_pos hy.2]
  have hsame : ∀ c, Alike c c := fun c => .inl rfl
  rw [isoText, isoText, restText, restText, show (civil a.ms).year = yearOf a.ms from rfl,
    show (civil b.ms).year = yearOf b.ms from rfl, hyear ha, hyear hb]
  exact List.rel_append (alike_pad 4 _ _) (.cons (hsame '-') (List.rel_append (alike_pad 2 _ _)
    (.cons (hsame '-') (List.rel_append (alike_pad 2 _ _) (.cons (hsame 'T') (List.rel_append
      (alike_pad 2 _ _) (.cons (hsame ':') (List.rel_append (alike_pad 2 _ _) (.cons (hsame ':')
        (List.rel_append (alike_pad 2 _ _) (.cons (hsame '.') (List.rel_append (alike_pad 3 _ _)
          (.cons (hsame 'Z') .nil)))))))))))))

/-- Between texts with the same marks the collation orders as the code units do. -/
theorem map_collation_lt {f : Char → Nat} (hdigit : ∀ c, Json.isDigit c = true → f c = 4 + c.toNat)
    {a b : List Char} (h : List.Forall₂ Alike a b) (hlt : a < b) : a.map f < b.map f := by
  induction h with
  | nil => exact absurd hlt (List.lt_irrefl _)
  | @cons c d a b hcd _ ih =>
      rw [List.map_cons, List.map_cons, List.cons_lt_cons_iff]
      rw [List.cons_lt_cons_iff] at hlt
      cases hlt with
      | inr hsame =>
          rw [hsame.1]
          exact .inr ⟨rfl, ih hsame.2⟩
      | inl hless =>
          have hboth : Json.isDigit c = true ∧ Json.isDigit d = true :=
            hcd.resolve_left fun heq => absurd (heq ▸ hless) (lt_irrefl d)
          rw [hdigit c hboth.1, hdigit d hboth.2]
          have hnat : c.toNat < d.toNat := hless
          exact .inl (by omega)

theorem collationKey_lt {a b : Timestamp} (ha : 0 ≤ yearOf a.ms ∧ yearOf a.ms ≤ 9999)
    (hb : 0 ≤ yearOf b.ms ∧ yearOf b.ms ≤ 9999) (h : a.ms < b.ms) :
    collationKey a.text < collationKey b.text := by
  have htext := Timestamp.text_lt_iff_isoText.mp ((Timestamp.text_lt_iff_of_fourDigit ha hb).mpr h)
  rw [collationKey, collationKey, Timestamp.text, Timestamp.text, String.toList_ofList,
    String.toList_ofList]
  refine map_collation_lt (fun c hc => ?_) (alike_isoText ha hb) htext
  have hne : ∀ mark, Json.isDigit mark = false → c ≠ mark := by
    intro mark hmark heq
    rw [heq, hmark] at hc
    cases hc
  rw [if_neg (hne _ (by decide)), if_neg (hne _ (by decide)), if_neg (hne _ (by decide)),
    if_neg (hne _ (by decide))]

/-- **Exports of years of four digits** are listed in turn. -/
theorem Lists.inTurn {root : Root} {exports : List EventHistoryExportMetadata}
    (h : Lists sha256 root exports) (policy : EventHistoryRetentionPolicy) (now : Timestamp)
    (hyears : ∀ metadata ∈ exports, 0 ≤ yearOf metadata.createdAt.ms ∧
      yearOf metadata.createdAt.ms ≤ 9999) : ExportsInTurn policy now exports := by
  obtain ⟨metadatas, -, rfl⟩ := h.reads
  have hsorted : (sortBy EventHistoryExportMetadata.key metadatas).Pairwise fun a b => a.key ≤ b.key :=
    pairwise_sortBy metadatas
  have hturn : (sortBy EventHistoryExportMetadata.key metadatas).Pairwise fun a b =>
      ¬ b.createdAt.ms < a.createdAt.ms := by
    refine List.Pairwise.imp_of_mem ?_ hsorted
    intro a b ha hb hle hlt
    have hfirst := collationKey_lt (hyears b hb) (hyears a ha) hlt
    have hkey : b.key < a.key := by
      rw [Prod.Lex.lt_iff]
      exact .inl hfirst
    exact absurd hle (not_le.mpr hkey)
  rw [← map_fst_counted (sortBy EventHistoryExportMetadata.key metadatas), List.pairwise_map] at hturn
  exact hturn.imp fun hab hlt => absurd hlt hab

end AtlasManager.EventHistory
