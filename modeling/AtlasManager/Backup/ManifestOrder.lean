import AtlasManager.Backup.FilesystemTree
import AtlasManager.Lib.Sha256

/-!
# AtlasManager.Backup.ManifestOrder

When the manifest of a copied tree passes its check, and reads back from its text.

* `isSafePath_iff` -- the paths of a copy are safe, but for reverse solidi;
* `areSorted_iff` -- paths in the order of their bytes are in the order of their code units,
  where the orders of these do not differ;
* `manifest_iff` -- the exact condition on the tree.
-/

namespace AtlasManager.Backup

open AtlasManager.Lib AtlasManager.Lib.Rfc8259 AtlasManager.Config

/-! ## Code units of paths -/

theorem utf16Char_ascii {c : Char} (h : c.toNat < 0x80) : utf16Char c = [unit c] := by
  rw [utf16Char, if_pos (by omega), unit]

/-- A code unit of an ASCII character stands only for it. -/
theorem unit_mem_utf16 {a : Char} (ha : a.toNat < 0x80) (text : List Char) :
    unit a ∈ utf16 text ↔ a ∈ text := by
  rw [utf16, List.mem_flatMap]
  constructor
  · rintro ⟨c, hc, hmem⟩
    have hlast := toNat_lt c
    have hvalue : ∀ n, n < 65536 → unit a = UInt16.ofNat n → a.toNat = n := by
      intro n hn heq
      have hnat := congrArg UInt16.toNat heq
      rw [unit, UInt16.toNat_ofNat', UInt16.toNat_ofNat'] at hnat
      omega
    have hsame : a.toNat = c.toNat := by
      rw [utf16Char] at hmem
      split_ifs at hmem with hsmall
      · exact hvalue _ (by omega) (List.mem_singleton.mp hmem)
      · rcases List.mem_cons.mp hmem with heq | hmem
        · have hbad := hvalue _ (by omega) heq
          omega
        · have hbad := hvalue _ (by omega) (List.mem_singleton.mp hmem)
          omega
    rw [Char.toNat_inj.mp hsame]
    exact hc
  · intro hmem
    exact ⟨a, hmem, by rw [utf16Char_ascii ha]; exact List.mem_singleton_self _⟩

theorem utf16_eq_nil {text : List Char} : utf16 text = [] ↔ text = [] := by
  constructor
  · exact fun h => utf16_injective h
  · rintro rfl
    rfl

theorem utf16_relativePath (parts : List Name) :
    utf16 (relativePath parts) = [unit '/'].intercalate (parts.map utf16) := by
  have hslash : utf16Char '/' = [unit '/'] := utf16Char_ascii (by decide)
  induction parts with
  | nil => rfl
  | cons name parts ih =>
      cases parts with
      | nil => simp [relativePath]
      | cons next parts =>
          rw [relativePath, List.intercalate_cons_cons, List.map_cons, List.map_cons,
            List.intercalate_cons_cons]
          rw [relativePath, List.map_cons] at ih
          rw [← ih, utf16, List.flatMap_append, List.flatMap_append, List.flatMap_singleton, hslash]
          rfl

theorem mem_relativePath {a : Char} {parts : List Name} (h : a ∈ relativePath parts) :
    a = '/' ∨ ∃ name ∈ parts, a ∈ name := by
  induction parts with
  | nil => exact absurd h List.not_mem_nil
  | cons name parts ih =>
      cases parts with
      | nil => exact .inr ⟨name, List.mem_cons_self, by simpa [relativePath] using h⟩
      | cons next parts =>
          rw [relativePath, List.intercalate_cons_cons, List.mem_append, List.mem_append] at h
          rcases h with (hmem | hmem) | hmem
          · exact .inr ⟨name, List.mem_cons_self, hmem⟩
          · exact .inl (List.mem_singleton.mp hmem)
          · rcases ih hmem with hslash | ⟨other, hother, hmem⟩
            · exact .inl hslash
            · exact .inr ⟨other, List.mem_cons_of_mem _ hother, hmem⟩

theorem relativePath_cons (first : Name) (rest : List Name) :
    ∃ tail, relativePath (first :: rest) = first ++ tail := by
  cases rest with
  | nil => exact ⟨[], by rw [relativePath, List.intercalate_singleton, List.append_nil]⟩
  | cons next rest =>
      exact ⟨_, by rw [relativePath, List.intercalate_cons_cons, List.append_assoc]⟩

/-- **Safe paths**: of the checks of a path, a path of a tree can only fail the one for a
reverse solidus. -/
theorem isSafePath_iff {parts : List Name} (hne : parts ≠ []) (hnames : ∀ name ∈ parts, IsName name)
    (hlength : (utf8 (relativePath parts)).length ≤ 4096) :
    isSafePath (utf16 (relativePath parts)) = true ↔ '\\' ∉ relativePath parts := by
  have hsplit : (utf16 (relativePath parts)).splitOn (unit '/') = parts.map utf16 := by
    rw [utf16_relativePath]
    refine List.splitOn_intercalate _ ?_ (by simpa using hne)
    intro part hpart
    obtain ⟨name, hname, rfl⟩ := List.mem_map.mp hpart
    rw [unit_mem_utf16 (by decide)]
    exact (hnames name hname).2.1
  obtain ⟨first, rest, rfl⟩ := List.exists_cons_of_ne_nil hne
  have hfirst := hnames first List.mem_cons_self
  have hpath : ∃ c cs, relativePath (first :: rest) = c :: cs ∧ c ≠ '/' := by
    obtain ⟨c, cs, hcs⟩ := List.exists_cons_of_ne_nil hfirst.1
    have hslash : c ≠ '/' := by
      rintro rfl
      exact hfirst.2.1 (by rw [hcs]; exact List.mem_cons_self)
    obtain ⟨tail, htail⟩ := relativePath_cons first rest
    exact ⟨c, cs ++ tail, by rw [htail, hcs, List.cons_append], hslash⟩
  obtain ⟨c, cs, hcons, hslash⟩ := hpath
  have hnonempty : utf16 (relativePath (first :: rest)) ≠ [] := by
    rw [ne_eq, utf16_eq_nil, hcons]
    simp
  have hunits : (utf16 (relativePath (first :: rest))).length ≤ 4096 :=
    (length_utf16_le _).trans hlength
  have hhead : (utf16 (relativePath (first :: rest))).head? ≠ some (unit '/') := by
    rw [hcons, utf16, List.flatMap_cons]
    intro hhead
    have hmem : unit '/' ∈ utf16 [c] := by
      obtain ⟨x, xs, hx⟩ := List.exists_cons_of_ne_nil (utf16Char_ne_nil c)
      rw [hx, List.cons_append, List.head?_cons, Option.some_inj] at hhead
      rw [utf16, List.flatMap_singleton, hx, ← hhead]
      exact List.mem_cons_self
    rw [unit_mem_utf16 (by decide), List.mem_singleton] at hmem
    exact hslash hmem.symm
  have hnul : Char.ofNat 0 ∉ relativePath (first :: rest) := by
    intro hmem
    rcases mem_relativePath hmem with hslash | ⟨name, hname, hmem⟩
    · exact absurd hslash (by decide)
    · exact (hnames name hname).2.2.1 hmem
  have hparts : ((first :: rest).map utf16).all (fun part =>
      part ≠ [] && part ≠ [unit '.'] && part ≠ [unit '.', unit '.']) = true := by
    rw [List.all_eq_true]
    intro part hpart
    obtain ⟨name, hname, rfl⟩ := List.mem_map.mp hpart
    obtain ⟨hempty, -, -, hdot, hdots⟩ := hnames name hname
    have hone : utf16 ['.'] = [unit '.'] := by rw [utf16, List.flatMap_singleton,
      utf16Char_ascii (by decide)]
    have htwo : utf16 ['.', '.'] = [unit '.', unit '.'] := by
      rw [utf16, List.flatMap_cons, List.flatMap_singleton, utf16Char_ascii (by decide)]
      rfl
    simp only [Bool.and_eq_true, decide_eq_true_eq, ne_eq]
    refine ⟨⟨fun h => hempty (utf16_eq_nil.mp h), fun h => hdot (utf16_injective (h.trans hone.symm))⟩,
      fun h => hdots (utf16_injective (h.trans htwo.symm))⟩
  have hzero : (0 : CodeUnit) = unit (Char.ofNat 0) := by decide
  have hcontainsNul : (utf16 (relativePath (first :: rest))).contains 0 = false := by
    rw [List.contains_eq_any_beq, List.any_eq_false]
    intro x hx heq
    rw [beq_iff_eq] at heq
    rw [← heq, hzero, unit_mem_utf16 (by decide)] at hx
    exact hnul hx
  have hcontains : (utf16 (relativePath (first :: rest))).contains (unit '\\') = true ↔
      '\\' ∈ relativePath (first :: rest) := by
    rw [List.contains_iff_mem, unit_mem_utf16 (by decide)]
  rw [isSafePath, hsplit, hparts, hcontainsNul]
  simp only [hnonempty, hunits, hhead, ne_eq, not_false_eq_true, decide_true, Bool.not_false,
    Bool.and_true, Bool.true_and]
  rw [Bool.not_eq_true', ← hcontains, Bool.not_eq_true]

/-! ## The orders of paths -/

theorem areSorted_iff_pairwise {previous : Text} {paths : List Text} :
    areSorted previous paths = true ↔ (previous :: paths).Pairwise (· < ·) := by
  induction paths generalizing previous with
  | nil => simp [areSorted]
  | cons path paths ih =>
      rw [areSorted, Bool.and_eq_true, decide_eq_true_eq, ih]
      constructor
      · rintro ⟨hlt, hrest⟩
        refine List.pairwise_cons.mpr ⟨?_, hrest⟩
        intro other hother
        rcases List.mem_cons.mp hother with rfl | hother
        · exact hlt
        · exact List.lt_trans hlt ((List.pairwise_cons.mp hrest).1 other hother)
      · intro h
        obtain ⟨hfirst, hrest⟩ := List.pairwise_cons.mp h
        exact ⟨hfirst path List.mem_cons_self, hrest⟩

/-- **Order of paths**: what is in the order of the bytes is in the order of the code units,
where no two paths have different orders. -/
theorem areSorted_iff {paths : List Name} (hne : ∀ path ∈ paths, path ≠ [])
    (hsorted : paths.Pairwise (· < ·)) :
    areSorted [] (paths.map utf16) = true ↔
      ∀ path ∈ paths, ∀ other ∈ paths, ¬ OrdersDiffer path other := by
  have hunits : ∀ {path other : Name}, path < other →
      (utf16 path < utf16 other ↔ ¬ OrdersDiffer path other) := by
    intro path other hlt
    obtain ⟨hsame, hdiffer⟩ := utf16_lt_utf16 hlt
    refine ⟨fun hunits horders => ?_, hsame⟩
    exact List.lt_asymm hunits (hdiffer horders)
  rw [areSorted_iff_pairwise, List.pairwise_cons]
  constructor
  · rintro ⟨-, h⟩
    have hforth : paths.Pairwise fun path other => ¬ OrdersDiffer path other :=
      ((List.pairwise_map.mp h).and hsorted).imp fun ⟨hlt, hle⟩ => (hunits hle).mp hlt
    have hback : paths.Pairwise (flip fun path other => ¬ OrdersDiffer path other) :=
      hsorted.imp fun {path other} hle (horders : OrdersDiffer other path) =>
        lt_asymm hle horders.lt
    have hself : ∀ path ∈ paths, ¬ OrdersDiffer path path :=
      fun path _ horders => lt_irrefl _ horders.lt
    intro path hpath other hother
    exact hforth.forall_of_forall_of_flip hself hback hpath hother
  · intro h
    constructor
    · intro other hother
      obtain ⟨path, hpath, rfl⟩ := List.mem_map.mp hother
      obtain ⟨x, xs, hx⟩ := List.exists_cons_of_ne_nil (mt utf16_eq_nil.mp (hne path hpath))
      rw [hx]
      exact List.nil_lt_cons _ _
    · rw [List.pairwise_map]
      exact hsorted.imp_of_mem fun hpath hother hlt => (hunits hlt).mpr (h _ hpath _ hother)

/-! ## The check of the record -/

theorem number_eq {n : Nat} (h : n < 2 ^ 53) : number n = .num (.finite false n) := by
  rw [number, Double.nearest_natCast h]

theorem totalSize_eq {sizes : List Nat} (h : sizes.sum < 2 ^ 53) :
    totalSize sizes = .finite false (sizes.sum : Nat) := by
  have hfold : ∀ (sizes : List Nat) (total : Nat), total + sizes.sum < 2 ^ 53 →
      sizes.foldl addSize (.finite false (total : Rat)) =
        .finite false ((total + sizes.sum : Nat) : Rat) := by
    intro sizes
    induction sizes with
    | nil => intro total _; simp
    | cons size sizes ih =>
        intro total hsum
        rw [List.sum_cons] at hsum
        have hadd : addSize (.finite false (total : Rat)) size =
            .finite false ((total + size : Nat) : Rat) := by
          rw [addSize, ← Nat.cast_add, Double.nearest_natCast (by omega)]
        rw [List.foldl_cons, hadd, ih (total + size) (by omega), List.sum_cons, add_assoc]
  have hzero := hfold sizes 0 (by omega)
  rw [Nat.cast_zero, Nat.zero_add] at hzero
  exact hzero

/-- What a manifest needs of a file besides a safe path. -/
structure CopiedFile.IsChecked (file : CopiedFile) : Prop where
  size : file.size ≤ 2 ^ 53 - 1
  mode : file.mode ≤ 0o777
  digest : isHexDigest file.sha256 = true

def CopiedFile.toTree (file : CopiedFile) : Tree :=
  .obj [(ascii "path", .str (utf16 file.path)), (ascii "size", .num (numeral file.size)),
    (ascii "mode", .num (numeral file.mode)), (ascii "sha256", .str file.sha256)]

/-- What `JSON.stringify` writes for the manifest of some files. -/
def manifestTree (header : ManifestHeader) (files : List CopiedFile) : Tree :=
  .obj [(ascii "schemaVersion", .num (numeral 1)), (ascii "targetId", .str header.targetId),
    (ascii "runId", .str header.runId), (ascii "startedAt", .str header.startedAt),
    (ascii "completedAt", .str header.completedAt),
    (ascii "fileCount", .num (numeral files.length)),
    (ascii "totalBytes", .num (numeral (files.map CopiedFile.size).sum)),
    (ascii "files", .arr (files.map CopiedFile.toTree))]

theorem createManifestFile_toValue {file : CopiedFile} (h : file.IsChecked) :
    createManifestFile file.toValue =
      if hpath : isSafePath (utf16 file.path) = true then
        .ok ⟨utf16 file.path, file.size, file.mode, file.sha256, hpath, h.size, h.mode, h.digest⟩
      else .error .unsafePath := by
  have hsize : file.size < 2 ^ 53 := Nat.lt_of_le_pred (by norm_num) h.size
  have hmode : file.mode < 2 ^ 53 := lt_of_le_of_lt h.mode (by norm_num)
  rw [CopiedFile.toValue, number_eq hsize, number_eq hmode]
  by_cases hpath : isSafePath (utf16 file.path) = true
  · rw [dif_pos hpath]
    exact createManifestFile_eq_ok rfl rfl (natural?_natCast _) (natural?_natCast _) rfl
  · rw [dif_neg hpath]
    exact dif_neg hpath

/-- All files of a record are taken, if their paths are safe. -/
theorem mapM_createManifestFile {files : List CopiedFile} (h : ∀ file ∈ files, file.IsChecked) :
    ((∃ file ∈ files, isSafePath (utf16 file.path) = false) ∧
      (files.map CopiedFile.toValue).mapM createManifestFile = .error .unsafePath) ∨
    (∀ file ∈ files, isSafePath (utf16 file.path) = true) ∧
      ∃ taken, (files.map CopiedFile.toValue).mapM createManifestFile = .ok taken ∧
        taken.map BackupManifestFile.path = files.map (fun file => utf16 file.path) ∧
        taken.map BackupManifestFile.size = files.map CopiedFile.size ∧
        taken.map BackupManifestFile.toTree = files.map CopiedFile.toTree := by
  induction files with
  | nil => exact .inr ⟨by simp, [], rfl, rfl, rfl, rfl⟩
  | cons file files ih =>
      obtain ⟨hfile, hfiles⟩ := List.forall_mem_cons.mp h
      rw [List.map_cons, List.mapM_cons, createManifestFile_toValue hfile]
      by_cases hpath : isSafePath (utf16 file.path) = true
      · rw [dif_pos hpath]
        rcases ih hfiles with ⟨⟨other, hother, hbadPath⟩, herror⟩ | ⟨hsafe, taken, hok, hpaths, hsizes, htrees⟩
        · rw [herror]
          exact .inl ⟨⟨other, List.mem_cons_of_mem _ hother, hbadPath⟩, rfl⟩
        · rw [hok]
          refine .inr ⟨List.forall_mem_cons.mpr ⟨hpath, hsafe⟩, _, rfl, ?_, ?_, ?_⟩
          · rw [List.map_cons, hpaths, List.map_cons]
          · rw [List.map_cons, hsizes, List.map_cons]
          · rw [List.map_cons, htrees, List.map_cons]
            rfl
      · rw [dif_neg hpath]
        exact .inl ⟨⟨file, List.mem_cons_self, by simpa using hpath⟩, rfl⟩

theorem manifestShape_record {header : ManifestHeader} {files : List CopiedFile}
    (hcount : files.length < 2 ^ 53) (htotal : (files.map CopiedFile.size).sum < 2 ^ 53) :
    manifestShape (manifestRecord header files) = some ⟨header.targetId, header.runId,
      header.startedAt, header.completedAt, (files.map CopiedFile.size).sum,
      files.map CopiedFile.toValue⟩ := by
  rw [manifestRecord, number_eq hcount, number_eq (show 1 < 2 ^ 53 by norm_num),
    totalSize_eq htotal]
  change (do
    guard (natural? (some (.num (.finite false ((1 : Nat) : Rat)))) = some 1)
    let fileCount ← natural? (some (.num (.finite false files.length)))
    let totalBytes ← natural? (some (.num (.finite false (files.map CopiedFile.size).sum)))
    guard (fileCount = (files.map CopiedFile.toValue).length)
    return (⟨header.targetId, header.runId, header.startedAt, header.completedAt, totalBytes,
      files.map CopiedFile.toValue⟩ : ManifestShape)) = _
  rw [natural?_natCast, natural?_natCast, natural?_natCast]
  simp

/-- **The check of the record** of copied files: their paths have to be safe and in order. -/
theorem createBackupManifest_record {header : ManifestHeader} {files : List CopiedFile}
    (hchecked : ∀ file ∈ files, file.IsChecked) (hcount : files.length < 2 ^ 53)
    (htotal : (files.map CopiedFile.size).sum < 2 ^ 53) :
    (∃ manifest, createBackupManifest (manifestRecord header files) = .ok manifest ∧
      manifest.toTree = manifestTree header files ∧ manifest.fileCount < 2 ^ 53 ∧
      manifest.totalBytes < 2 ^ 53) ∧
      (∀ file ∈ files, isSafePath (utf16 file.path) = true) ∧
      areSorted [] (files.map fun file => utf16 file.path) = true ∨
    (∃ code, createBackupManifest (manifestRecord header files) = .error code) ∧
      ((∃ file ∈ files, isSafePath (utf16 file.path) = false) ∨
        areSorted [] (files.map fun file => utf16 file.path) = false) := by
  rw [createBackupManifest, manifestShape_record hcount htotal]
  dsimp only
  rcases mapM_createManifestFile hchecked with ⟨hbadPath, herror⟩ | ⟨hsafe, taken, hok, hpaths, hsizes, htrees⟩
  · right
    rw [herror]
    exact ⟨⟨_, rfl⟩, .inl hbadPath⟩
  · rw [hok]
    dsimp only
    have hsum : totalSize (taken.map BackupManifestFile.size) =
        .finite false ((files.map CopiedFile.size).sum : Nat) := by
      rw [hsizes, totalSize_eq htotal]
    have hlength : taken.length = files.length := by
      have hlength := congrArg List.length hpaths
      rwa [List.length_map, List.length_map] at hlength
    by_cases hsorted : areSorted [] (taken.map BackupManifestFile.path) = true
    · left
      rw [dif_pos hsorted, dif_pos hsum]
      refine ⟨⟨_, rfl, ?_, ?_, htotal⟩, hsafe, hpaths ▸ hsorted⟩
      · rw [BackupManifest.toTree, manifestTree, BackupManifest.fileCount]
        dsimp only
        rw [htrees, hlength]
      · rw [BackupManifest.fileCount]
        dsimp only
        rw [hlength]
        exact hcount
    · right
      rw [dif_neg hsorted]
      rw [hpaths] at hsorted
      exact ⟨⟨_, rfl⟩, .inr (by simpa using hsorted)⟩

/-! ## The manifest of a tree -/

/-- The limits that a target can have. -/
structure AreLimits (limits : BackupLimits) : Prop where
  maxFiles : limits.maxFiles ≤ 100000
  maxTotalBytes : limits.maxTotalBytes ≤ 100 * 1024 * 1024 * 1024
  maxFileBytes : limits.maxFileBytes ≤ 1024 * 1024 * 1024
  maxRelativePathBytes : limits.maxRelativePathBytes ≤ 4096

/-- A manifest that is read from its own text as it is. -/
def ReadsBack (manifest : BackupManifest) : Prop :=
  ∃ text value, serializeBackupManifest manifest = .ok text ∧ parseStrictJson text = .ok value ∧
    createBackupManifest value = .ok manifest

section Tree

variable {limits : BackupLimits} {sha256 : List UInt8 → Text} {header : ManifestHeader}
  {entries : List (Name × Node)} {state : CopyState}

theorem bytewise_iff {a b : Name} : bytewise a b ↔ a ≤ b := by
  rw [bytewise, utf8_lt_utf8, not_lt]

theorem map_path_copiedFiles : (copiedFiles sha256 entries).map CopiedFile.path =
    (filePaths entries).insertionSort (· ≤ ·) := by
  rw [copiedFiles, List.map_insertionSort (r := fun a b => bytewise a.path b.path)
    (s := (· ≤ ·)) CopiedFile.path _ (fun _ _ _ _ => bytewise_iff), List.map_filterMap, filePaths]
  simp only [Option.map_map]
  rfl

/-- The paths of the copied files are in the order of their bytes, and all different. -/
theorem pairwise_copiedFiles (htree : IsFileTree entries) :
    ((copiedFiles sha256 entries).map CopiedFile.path).Pairwise (· < ·) := by
  rw [map_path_copiedFiles]
  have hsorted := List.pairwise_insertionSort (· ≤ ·) (filePaths entries)
  have hnodup : ((filePaths entries).insertionSort (· ≤ ·)).Nodup :=
    (List.perm_insertionSort _ _).nodup_iff.mpr (nodup_filePaths htree)
  exact (hsorted.and hnodup).imp fun ⟨hle, hne⟩ => lt_of_le_of_ne hle hne

theorem mem_copiedFiles {file : CopiedFile} : file ∈ copiedFiles sha256 entries ↔
    ∃ visit ∈ treeVisits entries, ∃ content, visit.content = some content ∧
      file = ⟨relativePath visit.parts, content.length, 0o600, sha256 content⟩ := by
  rw [copiedFiles, List.mem_insertionSort, List.mem_filterMap]
  refine exists_congr fun visit => and_congr_right fun _ => ?_
  rw [Option.map_eq_some_iff]
  exact exists_congr fun content => and_congr_right fun _ => eq_comm

/-- What the limits say of the copied files. -/
theorem copiedFiles_checked (hlimits : AreLimits limits)
    (hsha256 : ∀ content, isHexDigest (sha256 content) = true)
    (hcopy : copyTree limits sha256 entries = .ok state) :
    (∀ file ∈ copiedFiles sha256 entries, file.IsChecked) ∧
      (copiedFiles sha256 entries).length < 2 ^ 53 ∧
      ((copiedFiles sha256 entries).map CopiedFile.size).sum < 2 ^ 53 := by
  have hcopies := copiesTo_of_foldlM hcopy
  have hlength : (copiedFiles sha256 entries).length =
      ((treeVisits entries).filterMap Visit.content).length := by
    rw [copiedFiles, List.length_insertionSort, ← List.length_map (f := CopiedFile.size),
      ← List.length_map (f := List.length), List.map_filterMap, List.map_filterMap]
    simp only [Option.map_map]
    rfl
  have hsum : ((copiedFiles sha256 entries).map CopiedFile.size).sum =
      bytesOf (treeVisits entries) := by
    rw [copiedFiles, ((List.perm_insertionSort _ _).map CopiedFile.size).sum_eq, bytesOf,
      List.map_filterMap, List.map_filterMap]
    simp only [Option.map_map]
    rfl
  refine ⟨?_, ?_, ?_⟩
  · intro file hfile
    obtain ⟨visit, hvisit, content, hcontent, rfl⟩ := mem_copiedFiles.mp hfile
    have hsize := hcopies.sizes content (List.mem_filterMap.mpr ⟨visit, hvisit, hcontent⟩)
    have hmax := hlimits.maxFileBytes
    exact ⟨by dsimp only; omega, by dsimp only; norm_num, hsha256 content⟩
  · rw [hlength]
    have hfiles := hcopies.files
    have hmax := hlimits.maxFiles
    rcases hcopies.bounds with hnone | ⟨hbound, -⟩
    · rw [hnone]
      norm_num
    · dsimp only at hfiles
      omega
  · rw [hsum]
    have htotal := hcopies.totalBytes
    have hmax := hlimits.maxTotalBytes
    rcases hcopies.bounds with hnone | ⟨-, hbound⟩
    · rw [bytesOf, hnone]
      norm_num
    · dsimp only at htotal
      omega

/-- The paths that a manifest can have: none has a reverse solidus, and no two have different
orders. -/
structure PathsAgree (entries : List (Name × Node)) : Prop where
  plain : ∀ path ∈ filePaths entries, '\\' ∉ path
  ordered : ∀ path ∈ filePaths entries, ∀ other ∈ filePaths entries, ¬ OrdersDiffer path other

/-- The paths of the copied files pass the check of a manifest exactly where they agree. -/
theorem paths_checked_iff (htree : IsFileTree entries) (hlimits : AreLimits limits)
    (hcopy : copyTree limits sha256 entries = .ok state) :
    ((∀ file ∈ copiedFiles sha256 entries, isSafePath (utf16 file.path) = true) ∧
      areSorted [] ((copiedFiles sha256 entries).map fun file => utf16 file.path) = true) ↔
      PathsAgree entries := by
  obtain ⟨hbelow, hne⟩ := walksBelow_treeVisits htree
  have hpaths := (copiesTo_of_foldlM hcopy).paths
  have hmax := hlimits.maxRelativePathBytes
  have hsafe : ∀ visit ∈ treeVisits entries,
      (isSafePath (utf16 (relativePath visit.parts)) = true ↔ '\\' ∉ relativePath visit.parts) := by
    intro visit hvisit
    obtain ⟨more, hparts, hnames⟩ := hbelow.below visit hvisit
    rw [List.nil_append] at hparts
    exact isSafePath_iff (hne visit hvisit) (by rw [hparts]; exact hnames)
      ((hpaths visit hvisit).trans hmax)
  have hmem : ∀ path, path ∈ (copiedFiles sha256 entries).map CopiedFile.path ↔
      path ∈ filePaths entries := by
    intro path
    rw [map_path_copiedFiles, List.mem_insertionSort]
  have hnonempty : ∀ path ∈ (copiedFiles sha256 entries).map CopiedFile.path, path ≠ [] := by
    intro path hpath
    obtain ⟨file, hfile, rfl⟩ := List.mem_map.mp hpath
    obtain ⟨visit, hvisit, content, -, rfl⟩ := mem_copiedFiles.mp hfile
    obtain ⟨more, hparts, hnames⟩ := hbelow.below visit hvisit
    obtain ⟨first, rest, hcons⟩ := List.exists_cons_of_ne_nil (hne visit hvisit)
    obtain ⟨tail, htail⟩ := relativePath_cons first rest
    have hfirst : IsName first := hnames first (by rw [← List.nil_append more, ← hparts, hcons];
                                                   exact List.mem_cons_self)
    dsimp only
    rw [hcons, htail]
    exact fun hnil => hfirst.1 (List.append_eq_nil_iff.mp hnil).1
  have hsorted := areSorted_iff hnonempty (pairwise_copiedFiles htree)
  rw [List.map_map] at hsorted
  constructor
  · rintro ⟨hall, hordered⟩
    refine ⟨?_, ?_⟩
    · intro path hpath
      obtain ⟨file, hfile, rfl⟩ := List.mem_map.mp ((hmem path).mpr hpath)
      have hsafeFile := hall file hfile
      obtain ⟨visit, hvisit, content, -, rfl⟩ := mem_copiedFiles.mp hfile
      exact (hsafe visit hvisit).mp hsafeFile
    · intro path hpath other hother
      exact hsorted.mp hordered path ((hmem path).mpr hpath) other ((hmem other).mpr hother)
  · rintro ⟨hplain, hordered⟩
    refine ⟨?_, ?_⟩
    · intro file hfile
      have hpath := hplain file.path ((hmem _).mp (List.mem_map_of_mem hfile))
      obtain ⟨visit, hvisit, content, -, rfl⟩ := mem_copiedFiles.mp hfile
      exact (hsafe visit hvisit).mpr hpath
    · exact hsorted.mpr fun path hpath other hother =>
        hordered path ((hmem path).mp hpath) other ((hmem other).mp hother)

/-- The manifest of a copied tree: it is made where the paths agree, and otherwise refused. -/
theorem makeManifest_cases (htree : IsFileTree entries) (hlimits : AreLimits limits)
    (hsha256 : ∀ content, isHexDigest (sha256 content) = true)
    (hcopy : copyTree limits sha256 entries = .ok state) :
    PathsAgree entries ∧ (∃ manifest, makeManifest limits sha256 header entries = .ok manifest ∧
      manifest.toTree = manifestTree header (copiedFiles sha256 entries) ∧
      manifest.fileCount < 2 ^ 53 ∧ manifest.totalBytes < 2 ^ 53) ∨
    ¬ PathsAgree entries ∧ ∃ code, makeManifest limits sha256 header entries = .error code := by
  obtain ⟨hchecked, hcount, htotal⟩ := copiedFiles_checked hlimits hsha256 hcopy
  have hagree := paths_checked_iff htree hlimits hcopy
  rw [makeManifest, hcopy]
  dsimp only
  rw [copiedFiles_eq htree hcopy]
  dsimp only
  rcases @createBackupManifest_record header _ hchecked hcount htotal with
    ⟨⟨manifest, hok, htree, hsafe⟩, hpaths⟩ | ⟨⟨code, herror⟩, hbad⟩
  · left
    rw [hok]
    exact ⟨hagree.mp hpaths, manifest, rfl, htree, hsafe⟩
  · right
    rw [herror]
    refine ⟨fun h => ?_, _, rfl⟩
    obtain ⟨hall, hsorted⟩ := hagree.mpr h
    rcases hbad with ⟨file, hfile, hbadPath⟩ | hunsorted
    · rw [hall file hfile] at hbadPath
      cases hbadPath
    · rw [hsorted] at hunsorted
      cases hunsorted

/-- **Manifests of trees**: the files of a copied tree make a manifest that reads back from its
text exactly where the paths agree and the text is not too large. -/
theorem manifest_iff (htree : IsFileTree entries) (hlimits : AreLimits limits)
    (hsha256 : ∀ content, isHexDigest (sha256 content) = true)
    (hcopy : copyTree limits sha256 entries = .ok state) :
    ((∃ manifest, makeManifest limits sha256 header entries = .ok manifest) ∧
      ∀ manifest, makeManifest limits sha256 header entries = .ok manifest → ReadsBack manifest) ↔
    PathsAgree entries ∧
      byteLength (manifestTree header (copiedFiles sha256 entries)).write ≤ maximumManifestBytes := by
  rcases @makeManifest_cases limits sha256 header entries state htree hlimits hsha256 hcopy with
    ⟨hagree, manifest, hok, htext, hcount, htotal⟩ | ⟨hdisagree, code, herror⟩
  · rw [hok]
    constructor
    · rintro ⟨-, hreads⟩
      obtain ⟨text, value, hserialize, -⟩ := hreads manifest rfl
      rw [serializeBackupManifest, htext] at hserialize
      refine ⟨hagree, ?_⟩
      by_contra hlarge
      rw [if_pos (not_le.mp hlarge)] at hserialize
      cases hserialize
    · rintro ⟨-, hsmall⟩
      refine ⟨⟨manifest, rfl⟩, fun other hother => ?_⟩
      obtain rfl := Except.ok.inj hother
      obtain ⟨value, hparse, hcreate⟩ := createBackupManifest_write hcount htotal
      refine ⟨_, value, ?_, hparse, hcreate⟩
      rw [serializeBackupManifest, htext, if_neg (not_lt.mpr hsmall)]
  · rw [herror]
    constructor
    · rintro ⟨⟨manifest, h⟩, -⟩
      cases h
    · rintro ⟨hagree, -⟩
      exact absurd hagree hdisagree

end Tree

/-! ### Two trees -/

def greatestLimits : BackupLimits := ⟨100000, 100 * 1024 * 1024 * 1024, 1024 * 1024 * 1024, 64, 4096⟩

theorem areLimits_greatestLimits : AreLimits greatestLimits :=
  ⟨le_refl _, le_refl _, le_refl _, le_refl _⟩

/-- The digests of the files, as they are written. -/
def contentDigest (content : List UInt8) : Text := (Sha256.hexDigest content).map unit

theorem isHexDigest_contentDigest (content : List UInt8) : isHexDigest (contentDigest content) = true := by
  rw [isHexDigest, contentDigest, List.length_map, Sha256.length_hexDigest, Bool.and_eq_true,
    List.all_map, List.all_eq_true]
  refine ⟨by decide, fun c hc => ?_⟩
  obtain ⟨n, hn, rfl⟩ := Sha256.digit_of_mem_hexDigest hc
  have hall : ∀ n < 16, (isDigit (unit (Nat.digitChar n)) ||
      (unit 'a' ≤ unit (Nat.digitChar n) && unit (Nat.digitChar n) ≤ unit 'f')) = true := by decide
  exact hall n hn

def emptyHeader : ManifestHeader := ⟨[], [], [], []⟩

/-- A directory with two files, and a file behind it. -/
def plainTree : List (Name × Node) :=
  [(['d'], .directory [(['a'], .file [7]), (['b'], .file [])]), (['e'], .file [1, 2])]

theorem isFileTree_plainTree : IsFileTree plainTree := by
  refine ⟨by decide, ?_⟩
  simp only [plainTree, AreTrees, Node.IsTree, IsName]
  decide

/-- Two files with names in different orders. -/
def clashingTree : List (Name × Node) :=
  [([Char.ofNat 0xE000], .file []), ([Char.ofNat 0x10000], .file [])]

theorem isFileTree_clashingTree : IsFileTree clashingTree := by
  refine ⟨by decide, ?_⟩
  simp only [clashingTree, AreTrees, Node.IsTree, IsName]
  decide

/-- The manifest of three files is made and reads back. -/
theorem manifest_iff_plainTree :
    (∃ manifest, makeManifest greatestLimits contentDigest emptyHeader plainTree = .ok manifest) ∧
      ∀ manifest, makeManifest greatestLimits contentDigest emptyHeader plainTree = .ok manifest →
        ReadsBack manifest := by
  have hcopy : copyTree greatestLimits contentDigest plainTree =
      .ok ⟨3, 3, [(['e'], contentDigest [1, 2]), (['d', '/', 'b'], contentDigest []),
        (['d', '/', 'a'], contentDigest [7])]⟩ := rfl
  have hpaths : filePaths plainTree = [['d', '/', 'a'], ['d', '/', 'b'], ['e']] := rfl
  refine (manifest_iff isFileTree_plainTree areLimits_greatestLimits isHexDigest_contentDigest
    hcopy).mpr ⟨⟨?_, ?_⟩, by decide +kernel⟩
  · rw [hpaths]
    decide
  · rw [hpaths]
    simp [OrdersDiffer]

/-- **Refused**: two files that are copied, whose manifest is not accepted. -/
theorem manifest_refused : IsFileTree clashingTree ∧
    (∀ path ∈ filePaths clashingTree, '\\' ∉ path) ∧
    (∃ state, copyTree greatestLimits contentDigest clashingTree = .ok state) ∧
    ¬ ∃ manifest, makeManifest greatestLimits contentDigest emptyHeader clashingTree = .ok manifest := by
  have hcopy : copyTree greatestLimits contentDigest clashingTree =
      .ok ⟨2, 0, [([Char.ofNat 0x10000], contentDigest []), ([Char.ofNat 0xE000], contentDigest [])]⟩ := rfl
  have hpaths : filePaths clashingTree = [[Char.ofNat 0xE000], [Char.ofNat 0x10000]] := rfl
  refine ⟨isFileTree_clashingTree, by rw [hpaths]; decide, ⟨_, hcopy⟩, ?_⟩
  rcases @makeManifest_cases _ _ emptyHeader _ _ isFileTree_clashingTree areLimits_greatestLimits
    isHexDigest_contentDigest hcopy with ⟨hagree, -⟩ | ⟨-, code, herror⟩
  · have hsame := hagree.ordered [Char.ofNat 0xE000] (by rw [hpaths]; simp) [Char.ofNat 0x10000]
      (by rw [hpaths]; simp)
    refine absurd ?_ hsame
    rw [OrdersDiffer, if_neg (by decide)]
    decide
  · rw [herror]
    simp

end AtlasManager.Backup
