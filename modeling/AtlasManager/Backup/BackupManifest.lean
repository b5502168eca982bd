import AtlasManager.Config.StrictJson
import AtlasManager.Lib.Stringify
import AtlasManager.Lib.Utf

/-!
# AtlasManager.Backup.BackupManifest

The manifest of a backup: what is checked of one, and the text it is kept in.

* `createBackupManifest` -- the check of a manifest, which orders the paths by
  their code units;
* `createBackupManifest_write` -- a manifest of safe numbers reads back from its text.
-/

namespace AtlasManager.Backup

open AtlasManager.Lib AtlasManager.Lib.Rfc8259 AtlasManager.Config

/-! ## Manifests -/

/-- The code units of an ASCII text. -/
def ascii (text : String) : Text := text.toList.map unit

inductive BackupManifestErrorCode where
  | invalidShape
  | unsortedPaths
  | totalMismatch
  | tooLarge
  | invalidFile
  | unsafePath
  deriving DecidableEq, Repr

/-- A relative path without empty, `.` and `..` parts, reverse solidi and NULs. -/
def isSafePath (path : Text) : Bool :=
  path ≠ [] && path.length ≤ 4096 && path.head? ≠ some (unit '/') && !path.contains (unit '\\') &&
  !path.contains 0 &&
  (path.splitOn (unit '/')).all fun part => part ≠ [] && part ≠ [unit '.'] && part ≠ [unit '.', unit '.']

/-- `/^[0-9a-f]{64}$/u` -/
def isHexDigest (digest : Text) : Bool :=
  digest.length = 64 && digest.all fun c => isDigit c || (unit 'a' ≤ c && c ≤ unit 'f')

structure BackupManifestFile where
  path : Text
  size : Nat
  mode : Nat
  sha256 : Text
  safePath : isSafePath path = true
  safeSize : size ≤ 2 ^ 53 - 1
  safeMode : mode ≤ 0o777
  digest : isHexDigest sha256 = true

/-- `total += file.size` -/
def addSize : Double → Nat → Double
  | .finite _ total, size => .nearest false (total + size)
  | .infinite negative, _ => .infinite negative

def totalSize (sizes : List Nat) : Double := sizes.foldl addSize (.finite false 0)

/-- Does every path come behind the one before? -/
def areSorted : Text → List Text → Bool
  | _, [] => true
  | previous, path :: paths => previous < path && areSorted path paths

structure BackupManifest where
  targetId : Text
  runId : Text
  startedAt : Text
  completedAt : Text
  totalBytes : Nat
  files : List BackupManifestFile
  sorted : areSorted [] (files.map BackupManifestFile.path) = true
  total : totalSize (files.map BackupManifestFile.size) = .finite false totalBytes

def BackupManifest.fileCount (manifest : BackupManifest) : Nat := manifest.files.length

/-! ## The check of a manifest -/

/-- `Number.isInteger(value)` and `value >= 0`. -/
def natural? : Option Value → Option Nat
  | some (.num (.finite negative magnitude)) =>
    if magnitude.den = 1 ∧ (negative = false ∨ magnitude = 0) then some magnitude.num.toNat else none
  | _ => none

def text? : Option Value → Option Text
  | some (.str s) => some s
  | _ => none

def items? : Option Value → Option (List Value)
  | some (.arr items) => some items
  | _ => none

def createManifestFile (input : Value) : Except BackupManifestErrorCode BackupManifestFile :=
  match input with
  | .obj members =>
    if members.length ≠ 4 then .error .invalidFile
    else
      match text? (members.lookup (ascii "path")) with
      | none => .error .unsafePath
      | some path =>
        if hpath : isSafePath path = true then
          match natural? (members.lookup (ascii "size")), natural? (members.lookup (ascii "mode")),
              text? (members.lookup (ascii "sha256")) with
          | some size, some mode, some sha256 =>
            if h : size ≤ 2 ^ 53 - 1 ∧ mode ≤ 0o777 ∧ isHexDigest sha256 = true then
              .ok ⟨path, size, mode, sha256, hpath, h.1, h.2.1, h.2.2⟩
            else .error .invalidFile
          | _, _, _ => .error .invalidFile
        else .error .unsafePath
  | _ => .error .invalidFile

/-- What has been read of a manifest before its files are. -/
structure ManifestShape where
  targetId : Text
  runId : Text
  startedAt : Text
  completedAt : Text
  totalBytes : Nat
  items : List Value

def manifestShape (input : Value) : Option ManifestShape :=
  match input with
  | .obj members => do
    guard (members.length = 8)
    guard (natural? (members.lookup (ascii "schemaVersion")) = some 1)
    let targetId ← text? (members.lookup (ascii "targetId"))
    let runId ← text? (members.lookup (ascii "runId"))
    let startedAt ← text? (members.lookup (ascii "startedAt"))
    let completedAt ← text? (members.lookup (ascii "completedAt"))
    let fileCount ← natural? (members.lookup (ascii "fileCount"))
    let totalBytes ← natural? (members.lookup (ascii "totalBytes"))
    let items ← items? (members.lookup (ascii "files"))
    guard (fileCount = items.length)
    return ⟨targetId, runId, startedAt, completedAt, totalBytes, items⟩
  | _ => none

def createBackupManifest (input : Value) : Except BackupManifestErrorCode BackupManifest :=
  match manifestShape input with
  | none => .error .invalidShape
  | some shape =>
    match shape.items.mapM createManifestFile with
    | .error code => .error code
    | .ok files =>
      if hsorted : areSorted [] (files.map BackupManifestFile.path) = true then
        if htotal : totalSize (files.map BackupManifestFile.size) = .finite false shape.totalBytes then
          .ok { targetId := shape.targetId
                runId := shape.runId
                startedAt := shape.startedAt
                completedAt := shape.completedAt
                totalBytes := shape.totalBytes
                files := files
                sorted := hsorted
                total := htotal }
        else .error .totalMismatch
      else .error .unsortedPaths

/-! ## The text of a manifest -/

/-- `Buffer.byteLength(value, "utf8")` -/
def byteLength : Text → Nat
  | [] => 0
  | [c] => if c < 0x80 then 1 else if c < 0x800 then 2 else 3
  | c :: d :: rest =>
    if c < 0x80 then 1 + byteLength (d :: rest)
    else if c < 0x800 then 2 + byteLength (d :: rest)
    else if isLeadingSurrogate c && isTrailingSurrogate d then 4 + byteLength rest
    else 3 + byteLength (d :: rest)

def BackupManifestFile.toTree (file : BackupManifestFile) : Tree :=
  .obj [(ascii "path", .str file.path), (ascii "size", .num (numeral file.size)),
    (ascii "mode", .num (numeral file.mode)), (ascii "sha256", .str file.sha256)]

/-- What is written for a manifest; its numbers are safe integers. -/
def BackupManifest.toTree (manifest : BackupManifest) : Tree :=
  .obj [(ascii "schemaVersion", .num (numeral 1)), (ascii "targetId", .str manifest.targetId),
    (ascii "runId", .str manifest.runId), (ascii "startedAt", .str manifest.startedAt),
    (ascii "completedAt", .str manifest.completedAt),
    (ascii "fileCount", .num (numeral manifest.fileCount)),
    (ascii "totalBytes", .num (numeral manifest.totalBytes)),
    (ascii "files", .arr (manifest.files.map BackupManifestFile.toTree))]

def maximumManifestBytes : Nat := 16 * 1024 * 1024

/-- The text, whose encoding is what is kept. -/
def serializeBackupManifest (manifest : BackupManifest) : Except BackupManifestErrorCode Text :=
  if maximumManifestBytes < byteLength manifest.toTree.write then .error .tooLarge
  else .ok (manifest.toTree.write ++ [0x0A])

/-! ## Reading it back -/

theorem natural?_natCast (n : Nat) : natural? (some (.num (.finite false n))) = some n := by
  simp [natural?]

theorem values_eq_map (items : List Tree) : values items = items.map Tree.value := by
  induction items with
  | nil => rfl
  | cons item items ih => rw [values, ih, List.map_cons]

/-- A record with the fields of a file is read as the file. -/
theorem createManifestFile_eq_ok {file : BackupManifestFile} {members : List (Text × Value)}
    (hcount : members.length = 4) (hpath : text? (members.lookup (ascii "path")) = some file.path)
    (hsize : natural? (members.lookup (ascii "size")) = some file.size)
    (hmode : natural? (members.lookup (ascii "mode")) = some file.mode)
    (hsha256 : text? (members.lookup (ascii "sha256")) = some file.sha256) :
    createManifestFile (.obj members) = .ok file := by
  have hchecked : file.size ≤ 2 ^ 53 - 1 ∧ file.mode ≤ 0o777 ∧ isHexDigest file.sha256 = true :=
    ⟨file.safeSize, file.safeMode, file.digest⟩
  rw [createManifestFile, if_neg (not_not_intro hcount)]
  simp only [hpath, file.safePath, dite_true, hsize, hmode, hsha256]
  exact dif_pos hchecked

theorem createManifestFile_value (file : BackupManifestFile) :
    createManifestFile file.toTree.value = .ok file := by
  have hsize : file.size < 2 ^ 53 := Nat.lt_of_le_pred (by norm_num) file.safeSize
  have hmode : file.mode < 2 ^ 53 := lt_of_le_of_lt file.safeMode (by norm_num)
  have hnames : [ascii "path", ascii "size", ascii "mode", ascii "sha256"].Nodup := by decide
  rw [BackupManifestFile.toTree, Tree.value, memberValues_eq]
  · simp only [List.nil_append, List.map_cons, List.map_nil, Tree.value, toNumber_numeral hsize,
      toNumber_numeral hmode]
    exact createManifestFile_eq_ok rfl rfl (natural?_natCast _) (natural?_natCast _) rfl
  · exact hnames
  · simp

theorem manifestShape_value {manifest : BackupManifest} (hcount : manifest.fileCount < 2 ^ 53)
    (htotal : manifest.totalBytes < 2 ^ 53) :
    manifestShape manifest.toTree.value = some ⟨manifest.targetId, manifest.runId,
      manifest.startedAt, manifest.completedAt, manifest.totalBytes,
      manifest.files.map fun file => file.toTree.value⟩ := by
  have hnames : [ascii "schemaVersion", ascii "targetId", ascii "runId", ascii "startedAt",
      ascii "completedAt", ascii "fileCount", ascii "totalBytes", ascii "files"].Nodup := by
    decide
  rw [BackupManifest.toTree, Tree.value, memberValues_eq]
  · simp only [List.nil_append, List.map_cons, List.map_nil, Tree.value, toNumber_numeral hcount,
      toNumber_numeral htotal, toNumber_numeral (show 1 < 2 ^ 53 by norm_num), values_eq_map,
      List.map_map]
    change (do
      guard (natural? (some (.num (.finite false ((1 : Nat) : Rat)))) = some 1)
      let fileCount ← natural? (some (.num (.finite false manifest.fileCount)))
      let totalBytes ← natural? (some (.num (.finite false manifest.totalBytes)))
      guard (fileCount = (manifest.files.map (Tree.value ∘ BackupManifestFile.toTree)).length)
      return (⟨manifest.targetId, manifest.runId, manifest.startedAt, manifest.completedAt,
        totalBytes, manifest.files.map (Tree.value ∘ BackupManifestFile.toTree)⟩ : ManifestShape)) = _
    rw [natural?_natCast, natural?_natCast, natural?_natCast]
    simp [BackupManifest.fileCount]
  · exact hnames
  · simp

/-- A manifest passes its own check. -/
theorem createBackupManifest_value {manifest : BackupManifest}
    (hcount : manifest.fileCount < 2 ^ 53) (htotal : manifest.totalBytes < 2 ^ 53) :
    createBackupManifest manifest.toTree.value = .ok manifest := by
  have hfiles : (manifest.files.map fun file => file.toTree.value).mapM createManifestFile =
      .ok manifest.files := by
    induction manifest.files with
    | nil => rfl
    | cons file files ih =>
        rw [List.map_cons, List.mapM_cons, createManifestFile_value, ih]
        rfl
  rw [createBackupManifest, manifestShape_value hcount htotal]
  simp only [hfiles, manifest.sorted, manifest.total, dite_true]

/-! ### Its text -/

theorem itemLiteralsValid_of_forall {items : List Tree} (h : ∀ item ∈ items, item.LiteralsValid) :
    ItemLiteralsValid items := by
  induction items with
  | nil => exact trivial
  | cons item items ih =>
      exact ⟨h item List.mem_cons_self, ih fun m hm => h m (List.mem_cons_of_mem _ hm)⟩

theorem itemNamesDistinct_of_forall {items : List Tree} (h : ∀ item ∈ items, item.NamesDistinct) :
    ItemNamesDistinct items := by
  induction items with
  | nil => exact trivial
  | cons item items ih =>
      exact ⟨h item List.mem_cons_self, ih fun m hm => h m (List.mem_cons_of_mem _ hm)⟩

theorem itemNumbersFinite_of_forall {items : List Tree} (h : ∀ item ∈ items, item.NumbersFinite) :
    ItemNumbersFinite items := by
  induction items with
  | nil => exact trivial
  | cons item items ih =>
      exact ⟨h item List.mem_cons_self, ih fun m hm => h m (List.mem_cons_of_mem _ hm)⟩

theorem numeral_isFinite {n : Nat} (h : n < 2 ^ 53) : (toNumber (numeral n)).isFinite = true := by
  rw [toNumber_numeral h]
  rfl

theorem BackupManifestFile.toTree_wellFormed (file : BackupManifestFile) :
    file.toTree.LiteralsValid ∧ file.toTree.NamesDistinct ∧ file.toTree.NumbersFinite := by
  have hsize := numeral_isFinite (Nat.lt_of_le_pred (by norm_num) file.safeSize : file.size < 2 ^ 53)
  have hmode := numeral_isFinite (lt_of_le_of_lt file.safeMode (by norm_num) : file.mode < 2 ^ 53)
  have hnames : [ascii "path", ascii "size", ascii "mode", ascii "sha256"].Nodup := by decide
  exact ⟨⟨trivial, isNumber_numeral _, isNumber_numeral _, trivial, trivial⟩,
    ⟨hnames, trivial, trivial, trivial, trivial, trivial⟩,
    ⟨trivial, hsize, hmode, trivial, trivial⟩⟩

theorem BackupManifest.toTree_wellFormed {manifest : BackupManifest}
    (hcount : manifest.fileCount < 2 ^ 53) (htotal : manifest.totalBytes < 2 ^ 53) :
    manifest.toTree.LiteralsValid ∧ manifest.toTree.NamesDistinct ∧
      manifest.toTree.NumbersFinite := by
  have hone := numeral_isFinite (show 1 < 2 ^ 53 by norm_num)
  have hnames : [ascii "schemaVersion", ascii "targetId", ascii "runId", ascii "startedAt",
      ascii "completedAt", ascii "fileCount", ascii "totalBytes", ascii "files"].Nodup := by
    decide
  have hfiles : ∀ item ∈ manifest.files.map BackupManifestFile.toTree,
      item.LiteralsValid ∧ item.NamesDistinct ∧ item.NumbersFinite := by
    intro item hitem
    obtain ⟨file, -, rfl⟩ := List.mem_map.mp hitem
    exact file.toTree_wellFormed
  refine ⟨⟨isNumber_numeral _, trivial, trivial, trivial, trivial, isNumber_numeral _,
      isNumber_numeral _, ?_, trivial⟩,
    ⟨hnames, trivial, trivial, trivial, trivial, trivial, trivial, trivial, ?_, trivial⟩,
    ⟨hone, trivial, trivial, trivial, trivial, numeral_isFinite hcount, numeral_isFinite htotal,
      ?_, trivial⟩⟩
  · exact itemLiteralsValid_of_forall fun item hitem => (hfiles item hitem).1
  · exact itemNamesDistinct_of_forall fun item hitem => (hfiles item hitem).2.1
  · exact itemNumbersFinite_of_forall fun item hitem => (hfiles item hitem).2.2

/-- **Round trip** of a manifest through its text. -/
theorem createBackupManifest_write {manifest : BackupManifest}
    (hcount : manifest.fileCount < 2 ^ 53) (htotal : manifest.totalBytes < 2 ^ 53) :
    ∃ value, parseStrictJson (manifest.toTree.write ++ [0x0A]) = .ok value ∧
      createBackupManifest value = .ok manifest := by
  obtain ⟨hliterals, hadmitted⟩ := manifest.toTree_wellFormed hcount htotal
  refine ⟨manifest.toTree.value, ?_, createBackupManifest_value hcount htotal⟩
  exact parse_eq_ok.mpr ⟨manifest.toTree, isJsonText_write hliterals (.cons (by decide) .nil),
    fun _ => hadmitted, rfl⟩

end AtlasManager.Backup
