import AtlasManager.Backup.BackupManifest
import AtlasManager.Backup.BackupTarget

/-!
# AtlasManager.Backup.FilesystemTree

The copy of a tree of files, and the manifest that is made of it.

* `copyTree`, `readCopiedFiles` -- the two walks of the adapter;
* `copiedFiles_eq` -- what the second walk lists, after the first one has passed;
* `manifest_iff` -- the manifest is accepted and reads back exactly where the order of
  the bytes is the order of the code units.
-/

namespace AtlasManager.Backup

open AtlasManager.Lib AtlasManager.Lib.Rfc8259 AtlasManager.Config

/-! ## Trees of files -/

/-- The name of an entry of a directory. -/
abbrev Name := List Char

/-- A file with its content, or a directory with its entries in the order they are read in. -/
inductive Node where
  | file (content : List UInt8)
  | directory (entries : List (Name × Node))

/-- A name that a directory can have an entry under. -/
def IsName (name : Name) : Prop :=
  name ≠ [] ∧ '/' ∉ name ∧ Char.ofNat 0 ∉ name ∧ name ≠ ['.'] ∧ name ≠ ['.', '.']

mutual

/-- Every directory has its entries under different names. -/
def Node.IsTree : Node → Prop
  | .file _ => True
  | .directory entries => (entries.map Prod.fst).Nodup ∧ AreTrees entries

def AreTrees : List (Name × Node) → Prop
  | [] => True
  | (name, node) :: entries => IsName name ∧ node.IsTree ∧ AreTrees entries

end

/-- An entry that a walk passes, by the names on the way to it; a file has a content. -/
structure Visit where
  parts : List Name
  content : Option (List UInt8)

/-- `nextParts.join("/")` -/
def relativePath (parts : List Name) : Name := ['/'].intercalate parts

/-- `Buffer.from(left).compare(Buffer.from(right))`, as the order of a sort. -/
def bytewise (left right : Name) : Prop := ¬ utf8 right < utf8 left

instance : DecidableRel bytewise := fun _ _ => inferInstanceAs (Decidable (¬ _))

mutual

/-- The walk through an entry and what is below it. -/
def Node.visits (parts : List Name) : Node → List Visit
  | .file content => [⟨parts, some content⟩]
  | .directory entries =>
    -- what is below one entry does not depend on the other entries
    ⟨parts, none⟩ :: ((entryVisits parts entries).insertionSort fun a b => bytewise a.1 b.1).flatMap
      Prod.snd

def entryVisits (parts : List Name) : List (Name × Node) → List (Name × List Visit)
  | [] => []
  | (name, node) :: entries => (name, node.visits (parts ++ [name])) :: entryVisits parts entries

end

/-- The walk through the entries of a root. -/
def treeVisits (entries : List (Name × Node)) : List Visit :=
  ((entryVisits [] entries).insertionSort fun a b => bytewise a.1 b.1).flatMap Prod.snd

/-! ## The walks of the adapter -/

inductive FilesystemBackupErrorCode where
  | limitExceeded
  | fileUnsafe
  | publishedArtifactUnsafe
  | manifest (code : BackupManifestErrorCode)
  deriving DecidableEq, Repr

structure CopyState where
  files : Nat
  totalBytes : Nat
  /-- the digest of every file that has been copied, by its relative path -/
  digests : List (Name × Text)

structure CopiedFile where
  path : Name
  size : Nat
  mode : Nat
  sha256 : Text

section Walks

variable (limits : BackupLimits) (sha256 : List UInt8 → Text)

/-- One turn of the loop of `copyTree`. -/
def copyEntry (state : CopyState) (visit : Visit) : Except FilesystemBackupErrorCode CopyState :=
  if visit.parts.length > limits.maxDepth ∨
      (utf8 (relativePath visit.parts)).length > limits.maxRelativePathBytes then .error .limitExceeded
  else
    match visit.content with
    | none => .ok state
    | some content =>
      if content.length > limits.maxFileBytes then .error .fileUnsafe
      else if state.files + 1 > limits.maxFiles ∨
          state.totalBytes + content.length > limits.maxTotalBytes then .error .limitExceeded
      else .ok { files := state.files + 1
                 totalBytes := state.totalBytes + content.length
                 digests := (relativePath visit.parts, sha256 content) :: state.digests }

def copyTree (entries : List (Name × Node)) : Except FilesystemBackupErrorCode CopyState :=
  (treeVisits entries).foldlM (copyEntry limits sha256) ⟨0, 0, []⟩

end Walks

/-- One file of the copy, which is made with the mode 0600. -/
def readCopiedFile (digests : List (Name × Text)) (visit : Visit) :
    Except FilesystemBackupErrorCode (Option CopiedFile) :=
  match visit.content with
  | none => .ok none
  | some content =>
    match digests.lookup (relativePath visit.parts) with
    | none => .error .publishedArtifactUnsafe
    | some sha256 => .ok (some ⟨relativePath visit.parts, content.length, 0o600, sha256⟩)

def readCopiedFiles (digests : List (Name × Text)) (entries : List (Name × Node)) :
    Except FilesystemBackupErrorCode (List CopiedFile) :=
  match (treeVisits entries).mapM (readCopiedFile digests) with
  | .error code => .error code
  | .ok files => .ok (files.reduceOption.insertionSort fun a b => bytewise a.path b.path)

/-! ## The manifest of a copy -/

/-- What a manifest says besides its files. -/
structure ManifestHeader where
  targetId : Text
  runId : Text
  startedAt : Text
  completedAt : Text

def number (n : Nat) : Value := .num (.nearest false n)

def CopiedFile.toValue (file : CopiedFile) : Value :=
  .obj [(ascii "path", .str (utf16 file.path)), (ascii "size", number file.size),
    (ascii "mode", number file.mode), (ascii "sha256", .str file.sha256)]

/-- The record that the adapter hands to the check of manifests. -/
def manifestRecord (header : ManifestHeader) (files : List CopiedFile) : Value :=
  .obj [(ascii "schemaVersion", number 1), (ascii "targetId", .str header.targetId),
    (ascii "runId", .str header.runId), (ascii "startedAt", .str header.startedAt),
    (ascii "completedAt", .str header.completedAt), (ascii "fileCount", number files.length),
    (ascii "totalBytes", .num (totalSize (files.map CopiedFile.size))),
    (ascii "files", .arr (files.map CopiedFile.toValue))]

/-- The manifest that the adapter makes of a tree. -/
def makeManifest (limits : BackupLimits) (sha256 : List UInt8 → Text) (header : ManifestHeader)
    (entries : List (Name × Node)) : Except FilesystemBackupErrorCode BackupManifest :=
  match copyTree limits sha256 entries with
  | .error code => .error code
  | .ok state =>
    match readCopiedFiles state.digests entries with
    | .error code => .error code
    | .ok files =>
      match createBackupManifest (manifestRecord header files) with
      | .error code => .error (.manifest code)
      | .ok manifest => .ok manifest

/-! ## What the walk passes -/

/-- A walk from some names on: it passes only what is below these, and nothing twice. -/
structure WalksBelow (parts : List Name) (visits : List Visit) : Prop where
  below : ∀ visit ∈ visits, ∃ more, visit.parts = parts ++ more ∧ ∀ name ∈ more, IsName name
  distinct : (visits.map Visit.parts).Nodup

theorem map_fst_entryVisits (parts : List Name) (entries : List (Name × Node)) :
    (entryVisits parts entries).map Prod.fst = entries.map Prod.fst := by
  induction entries with
  | nil => rfl
  | cons entry entries ih =>
      obtain ⟨name, node⟩ := entry
      rw [entryVisits, List.map_cons, ih, List.map_cons]

/-- The walks through the entries of a directory, one behind the other in some order. -/
theorem walksBelow_flatMap {parts : List Name} {walks sorted : List (Name × List Visit)}
    (hperm : sorted.Perm walks) (hnodup : (walks.map Prod.fst).Nodup)
    (hnames : ∀ walk ∈ walks, IsName walk.1)
    (hwalks : ∀ walk ∈ walks, WalksBelow (parts ++ [walk.1]) walk.2) :
    WalksBelow parts (sorted.flatMap Prod.snd) ∧
      ∀ visit ∈ sorted.flatMap Prod.snd, visit.parts ≠ parts := by
  have hbelow : ∀ visit ∈ sorted.flatMap Prod.snd, ∃ walk ∈ sorted, ∃ more,
      visit.parts = parts ++ walk.1 :: more ∧ IsName walk.1 ∧ ∀ name ∈ more, IsName name := by
    intro visit hvisit
    obtain ⟨walk, hwalk, hvisit⟩ := List.mem_flatMap.mp hvisit
    have hmem := hperm.mem_iff.mp hwalk
    obtain ⟨more, hparts, hmore⟩ := (hwalks walk hmem).below visit hvisit
    rw [List.append_assoc, List.singleton_append] at hparts
    exact ⟨walk, hwalk, more, hparts, hnames walk hmem, hmore⟩
  refine ⟨⟨?_, ?_⟩, ?_⟩
  · intro visit hvisit
    obtain ⟨walk, -, more, hparts, hname, hmore⟩ := hbelow visit hvisit
    exact ⟨walk.1 :: more, hparts, List.forall_mem_cons.mpr ⟨hname, hmore⟩⟩
  · rw [List.map_flatMap, List.nodup_flatMap]
    refine ⟨fun walk hwalk => (hwalks walk (hperm.mem_iff.mp hwalk)).distinct, ?_⟩
    have hsorted : sorted.Pairwise fun a b => a.1 ≠ b.1 :=
      List.pairwise_map.mp ((hperm.map Prod.fst).nodup_iff.mpr hnodup)
    refine hsorted.imp_of_mem fun {a b} ha hb hne => ?_
    -- the names below two entries begin differently
    intro names hleft hright
    obtain ⟨left, hleftMem, rfl⟩ := List.mem_map.mp hleft
    obtain ⟨right, hrightMem, hsame⟩ := List.mem_map.mp hright
    obtain ⟨more, hparts, -⟩ := (hwalks a (hperm.mem_iff.mp ha)).below left hleftMem
    obtain ⟨more', hparts', -⟩ := (hwalks b (hperm.mem_iff.mp hb)).below right hrightMem
    rw [hparts, hparts', List.append_assoc, List.append_assoc, List.append_cancel_left_eq,
      List.singleton_append, List.singleton_append, List.cons.injEq] at hsame
    exact hne hsame.1.symm
  · intro visit hvisit hparts
    obtain ⟨walk, -, more, hcons, -⟩ := hbelow visit hvisit
    rw [hparts] at hcons
    have hlength := congrArg List.length hcons
    rw [List.length_append, List.length_cons] at hlength
    omega

mutual

theorem walksBelow_visits (node : Node) (h : node.IsTree) (parts : List Name) :
    WalksBelow parts (node.visits parts) := by
  cases node with
  | file content =>
      rw [Node.visits]
      refine ⟨?_, List.nodup_singleton _⟩
      intro visit hvisit
      rw [List.mem_singleton] at hvisit
      exact ⟨[], by rw [hvisit, List.append_nil], by simp⟩
  | directory entries =>
      rw [Node.IsTree] at h
      rw [Node.visits]
      have hentries := walksBelow_entryVisits entries h.2 parts
      obtain ⟨hbelow, hapart⟩ := walksBelow_flatMap
        (List.perm_insertionSort (fun a b => bytewise a.1 b.1) (entryVisits parts entries))
        (by rw [map_fst_entryVisits]; exact h.1) (fun walk hwalk => (hentries walk hwalk).1)
        (fun walk hwalk => (hentries walk hwalk).2)
      refine ⟨?_, ?_⟩
      · rw [List.forall_mem_cons]
        exact ⟨⟨[], (List.append_nil parts).symm, by simp⟩, hbelow.below⟩
      · rw [List.map_cons, List.nodup_cons]
        refine ⟨?_, hbelow.distinct⟩
        intro hmem
        obtain ⟨visit, hvisit, hparts⟩ := List.mem_map.mp hmem
        exact hapart visit hvisit hparts

theorem walksBelow_entryVisits (entries : List (Name × Node)) (h : AreTrees entries)
    (parts : List Name) :
    ∀ walk ∈ entryVisits parts entries, IsName walk.1 ∧ WalksBelow (parts ++ [walk.1]) walk.2 := by
  match entries with
  | [] =>
      intro walk hwalk
      rw [entryVisits] at hwalk
      exact absurd hwalk List.not_mem_nil
  | (name, node) :: entries =>
      rw [AreTrees] at h
      rw [entryVisits, List.forall_mem_cons]
      exact ⟨⟨h.1, walksBelow_visits node h.2.1 (parts ++ [name])⟩,
        walksBelow_entryVisits entries h.2.2 parts⟩

end

/-- A tree of files: the root has its entries under different names. -/
structure IsFileTree (entries : List (Name × Node)) : Prop where
  distinct : (entries.map Prod.fst).Nodup
  trees : AreTrees entries

theorem walksBelow_treeVisits {entries : List (Name × Node)} (h : IsFileTree entries) :
    WalksBelow [] (treeVisits entries) ∧ ∀ visit ∈ treeVisits entries, visit.parts ≠ [] := by
  have hentries := walksBelow_entryVisits entries h.trees []
  exact walksBelow_flatMap (List.perm_insertionSort _ _)
    (by rw [map_fst_entryVisits]; exact h.distinct) (fun walk hwalk => (hentries walk hwalk).1)
    (fun walk hwalk => (hentries walk hwalk).2)

theorem relativePath_splitOn {parts : List Name} (hne : parts ≠ [])
    (hnames : ∀ name ∈ parts, IsName name) : (relativePath parts).splitOn '/' = parts :=
  List.splitOn_intercalate '/' (fun name hname => (hnames name hname).2.1) hne

/-- Different entries have different paths. -/
theorem nodup_relativePath {entries : List (Name × Node)} (h : IsFileTree entries) :
    ((treeVisits entries).map fun visit => relativePath visit.parts).Nodup := by
  obtain ⟨hbelow, hne⟩ := walksBelow_treeVisits h
  have hnames : ∀ visit ∈ treeVisits entries, ∀ name ∈ visit.parts, IsName name := by
    intro visit hvisit
    obtain ⟨more, hparts, hmore⟩ := hbelow.below visit hvisit
    rw [hparts]
    exact hmore
  refine List.Nodup.of_map (fun path => path.splitOn '/') ?_
  rw [List.map_map]
  have hsplit : (treeVisits entries).map ((fun path => path.splitOn '/') ∘
      fun visit => relativePath visit.parts) = (treeVisits entries).map Visit.parts := by
    refine List.map_congr_left fun visit hvisit => ?_
    exact relativePath_splitOn (hne visit hvisit) (hnames visit hvisit)
  rw [hsplit]
  exact hbelow.distinct

/-- The paths of the files of a tree. -/
def filePaths (entries : List (Name × Node)) : List Name :=
  (treeVisits entries).filterMap fun visit => visit.content.map fun _ => relativePath visit.parts

theorem nodup_filePaths {entries : List (Name × Node)} (h : IsFileTree entries) :
    (filePaths entries).Nodup := by
  refine (nodup_relativePath h).sublist ?_
  rw [filePaths]
  generalize treeVisits entries = visits
  induction visits with
  | nil => exact List.Sublist.refl _
  | cons visit visits ih =>
      cases hcontent : visit.content with
      | none =>
          rw [List.filterMap_cons_none (by rw [hcontent]; rfl), List.map_cons]
          exact ih.cons _
      | some content =>
          rw [List.filterMap_cons_some (by rw [hcontent]; rfl), List.map_cons]
          exact ih.cons_cons _

/-! ## What the copy records -/

section Copy

variable {limits : BackupLimits} {sha256 : List UInt8 → Text}

/-- What the copy records of an entry. -/
def Visit.digest (sha256 : List UInt8 → Text) (visit : Visit) : Option (Name × Text) :=
  visit.content.map fun content => (relativePath visit.parts, sha256 content)

/-- How many bytes of files a walk passes. -/
def bytesOf (visits : List Visit) : Nat :=
  ((visits.filterMap Visit.content).map List.length).sum

/-- A walk that the limits let through, from what has been copied before. -/
structure CopiesTo (limits : BackupLimits) (sha256 : List UInt8 → Text) (visits : List Visit)
    (state state' : CopyState) : Prop where
  paths : ∀ visit ∈ visits, (utf8 (relativePath visit.parts)).length ≤ limits.maxRelativePathBytes
  sizes : ∀ content ∈ visits.filterMap Visit.content, content.length ≤ limits.maxFileBytes
  files : state'.files = state.files + (visits.filterMap Visit.content).length
  totalBytes : state'.totalBytes = state.totalBytes + bytesOf visits
  bounds : visits.filterMap Visit.content = [] ∨
    state'.files ≤ limits.maxFiles ∧ state'.totalBytes ≤ limits.maxTotalBytes
  digests : state'.digests = (visits.filterMap (Visit.digest sha256)).reverse ++ state.digests

theorem copyEntry_cases {state state' : CopyState} {visit : Visit}
    (h : copyEntry limits sha256 state visit = .ok state') :
    (utf8 (relativePath visit.parts)).length ≤ limits.maxRelativePathBytes ∧
    (visit.content = none ∧ state' = state ∨
      ∃ content, visit.content = some content ∧ content.length ≤ limits.maxFileBytes ∧
        state.files + 1 ≤ limits.maxFiles ∧
        state.totalBytes + content.length ≤ limits.maxTotalBytes ∧
        state' = ⟨state.files + 1, state.totalBytes + content.length,
          (relativePath visit.parts, sha256 content) :: state.digests⟩) := by
  rw [copyEntry] at h
  by_cases hpath : visit.parts.length > limits.maxDepth ∨
      (utf8 (relativePath visit.parts)).length > limits.maxRelativePathBytes
  · rw [if_pos hpath] at h
    cases h
  · rw [if_neg hpath] at h
    refine ⟨by omega, ?_⟩
    cases hcontent : visit.content with
    | none =>
        rw [hcontent] at h
        exact .inl ⟨rfl, (Except.ok.inj h).symm⟩
    | some content =>
        simp only [hcontent] at h
        by_cases hsize : content.length > limits.maxFileBytes
        · rw [if_pos hsize] at h
          cases h
        · rw [if_neg hsize] at h
          by_cases hbounds : state.files + 1 > limits.maxFiles ∨
              state.totalBytes + content.length > limits.maxTotalBytes
          · rw [if_pos hbounds] at h
            cases h
          · rw [if_neg hbounds] at h
            exact .inr ⟨content, rfl, by omega, by omega, by omega, (Except.ok.inj h).symm⟩

theorem copiesTo_of_foldlM {visits : List Visit} {state state' : CopyState}
    (h : visits.foldlM (copyEntry limits sha256) state = .ok state') :
    CopiesTo limits sha256 visits state state' := by
  induction visits generalizing state with
  | nil =>
      obtain rfl : state = state' := Except.ok.inj h
      exact ⟨by simp, by simp, rfl, rfl, .inl rfl, rfl⟩
  | cons visit visits ih =>
      rw [List.foldlM_cons] at h
      obtain ⟨next, hentry, hrest⟩ := exists_of_bind_ok h
      have hlater := ih hrest
      obtain ⟨hpath, hcases⟩ := copyEntry_cases hentry
      have hpaths : ∀ v ∈ visit :: visits,
          (utf8 (relativePath v.parts)).length ≤ limits.maxRelativePathBytes :=
        List.forall_mem_cons.mpr ⟨hpath, hlater.paths⟩
      rcases hcases with ⟨hnone, rfl⟩ | ⟨content, hsome, hsize, hfiles, htotal, rfl⟩
      · have hdigest : visit.digest sha256 = none := by rw [Visit.digest, hnone]; rfl
        refine ⟨hpaths, ?_, ?_, ?_, ?_, ?_⟩
        · rw [List.filterMap_cons_none hnone]
          exact hlater.sizes
        · rw [List.filterMap_cons_none hnone]
          exact hlater.files
        · rw [bytesOf, List.filterMap_cons_none hnone]
          exact hlater.totalBytes
        · rw [List.filterMap_cons_none hnone]
          exact hlater.bounds
        · rw [List.filterMap_cons_none hdigest]
          exact hlater.digests
      · have hdigest : visit.digest sha256 = some (relativePath visit.parts, sha256 content) := by
          rw [Visit.digest, hsome]
          rfl
        have hlaterFiles := hlater.files
        have hlaterTotal := hlater.totalBytes
        refine ⟨hpaths, ?_, ?_, ?_, .inr ?_, ?_⟩
        · rw [List.filterMap_cons_some hsome]
          exact List.forall_mem_cons.mpr ⟨hsize, hlater.sizes⟩
        · rw [List.filterMap_cons_some hsome, List.length_cons, hlaterFiles]
          dsimp only
          omega
        · rw [bytesOf, List.filterMap_cons_some hsome, List.map_cons, List.sum_cons, hlaterTotal,
            bytesOf]
          dsimp only
          omega
        · rcases hlater.bounds with hnone | hbounds
          · rw [hlaterFiles, hlaterTotal, bytesOf, hnone]
            exact ⟨hfiles, htotal⟩
          · exact hbounds
        · rw [List.filterMap_cons_some hdigest, hlater.digests, List.reverse_cons, List.append_assoc]
          rfl

/-- The files of a tree, as they are copied, in the order of their bytes. -/
def copiedFiles (sha256 : List UInt8 → Text) (entries : List (Name × Node)) : List CopiedFile :=
  ((treeVisits entries).filterMap fun visit => visit.content.map fun content =>
    ⟨relativePath visit.parts, content.length, 0o600, sha256 content⟩).insertionSort
      fun a b => bytewise a.path b.path

theorem mapM_eq_ok_map {α β ε : Type} {f : α → Except ε β} {g : α → β} {l : List α}
    (h : ∀ a ∈ l, f a = .ok (g a)) : l.mapM f = .ok (l.map g) := by
  induction l with
  | nil => rfl
  | cons a l ih =>
      rw [List.mapM_cons, h a List.mem_cons_self, ih fun b hb => h b (List.mem_cons_of_mem _ hb)]
      rfl

/-- **The second walk** lists all files of a tree that has been copied. -/
theorem copiedFiles_eq {entries : List (Name × Node)} (htree : IsFileTree entries)
    {state : CopyState} (hcopy : copyTree limits sha256 entries = .ok state) :
    readCopiedFiles state.digests entries = .ok (copiedFiles sha256 entries) := by
  have hdigests := (copiesTo_of_foldlM hcopy).digests
  rw [List.append_nil] at hdigests
  have hnodup : (state.digests.map Prod.fst).Nodup := by
    rw [hdigests, List.map_reverse, List.nodup_reverse, List.map_filterMap]
    have hkeys : (fun visit => (Visit.digest sha256 visit).map Prod.fst) =
        fun visit : Visit => visit.content.map fun _ => relativePath visit.parts := by
      funext visit
      rw [Visit.digest, Option.map_map]
      rfl
    rw [hkeys]
    exact nodup_filePaths htree
  have hread : ∀ visit ∈ treeVisits entries, readCopiedFile state.digests visit =
      .ok (visit.content.map fun content =>
        ⟨relativePath visit.parts, content.length, 0o600, sha256 content⟩) := by
    intro visit hvisit
    rw [readCopiedFile]
    cases hcontent : visit.content with
    | none => rfl
    | some content =>
        have hmem : (relativePath visit.parts, sha256 content) ∈ state.digests := by
          rw [hdigests, List.mem_reverse, List.mem_filterMap]
          exact ⟨visit, hvisit, by rw [Visit.digest, hcontent]; rfl⟩
        simp only [lookup_of_mem hnodup hmem]
        rfl
  rw [readCopiedFiles, mapM_eq_ok_map hread]
  simp only [copiedFiles]
  rw [List.reduceOption, List.filterMap_map]
  rfl

end Copy

end AtlasManager.Backup
