import AtlasManager.Lib.GoText
import AtlasManager.Lib.Js

/-!
# AtlasManager.PowerHelper.GroupFile

The decimal numbers the power helper's tools read from texts, and the group file
in which the installer looks up the group of its set-uid program.

* `parseCanonicalUint_eq_ok` -- the reader of group ids takes any numeral, and
  returns what it denotes modulo 2^64;
* `parseSourceDateEpoch_eq_ok` -- the reader of bundle times takes the numerals
  up to 2^63 - 1, and returns what they denote;
* `validateGroup_eq_ok` -- which group files are accepted, with which group;
* `exact_iff` -- when the readers and the group file's check do as they should.
-/

namespace AtlasManager.PowerHelper.GroupFile

open AtlasManager.Lib.GoText
open AtlasManager.Lib (exists_of_mem_forall₂)

/-! ## The two readers -/

/-- The loop of `parseCanonicalUint`; the sum is a `uint64`. -/
def uintDigits (parsed : UInt64) : Text → Except String UInt64
  | [] => .ok parsed
  | character :: rest =>
    if character < 48 || character > 57 then .error "invalid integer"
    else uintDigits (parsed * 10 + (character - 48).toUInt64) rest

def parseCanonicalUint (value : Text) : Except String UInt64 :=
  if value = [] || (value.length > 1 && value.head? = some 48) then .error "invalid integer"
  else uintDigits 0 value

/-- `^uint64(0) >> 1`. -/
def maxEpoch : UInt64 := (0xFFFFFFFFFFFFFFFF : UInt64) >>> 1

/-- The loop of `ParseSourceDateEpoch`, which looks ahead before it adds a digit. -/
def epochDigits (result : UInt64) : Text → Except String UInt64
  | [] => .ok result
  | character :: rest =>
    if character < 48 || character > 57 then .error "invalid source date epoch"
    else if result > (maxEpoch - (character - 48).toUInt64) / 10 then
      .error "invalid source date epoch"
    else epochDigits (result * 10 + (character - 48).toUInt64) rest

def parseSourceDateEpoch (value : Text) : Except String UInt64 :=
  if value = [] || (value.length > 1 && value.head? = some 48) then
    .error "invalid source date epoch"
  else epochDigits 0 value

theorem not_isDigit (b : UInt8) : (decide (b < 48) || decide (b > 57)) = !isDigit b := by
  simp only [isDigit, Bool.not_and, ← decide_not, UInt8.not_le]

theorem not_isLead (value : Text) :
    (decide (value = []) || (decide (value.length > 1) && decide (value.head? = some 48))) =
      !isLead value := by
  rw [isLead, Bool.not_not]

theorem toNat_digit (b : UInt8) : ((b - 48).toUInt64).toNat = (b - 48).toNat :=
  UInt8.toNat_toUInt64 _

theorem digit_le {b : UInt8} (h : isDigit b = true) : (b - 48).toNat ≤ 9 := by
  revert b
  decide +kernel

/-- Without a look ahead the loop computes modulo 2^64. -/
theorem uintDigits_eq_ok {text : Text} {parsed r : UInt64} : uintDigits parsed text = .ok r ↔
    text.all isDigit = true ∧ r.toNat = digitsFrom parsed.toNat text % 2 ^ 64 := by
  induction text generalizing parsed with
  | nil =>
      have hsmall := parsed.toNat_lt
      simp only [uintDigits, Except.ok.injEq, List.all_nil, true_and, digitsFrom, List.foldl_nil,
        Nat.mod_eq_of_lt hsmall, ← UInt64.toNat_inj]
      exact eq_comm
  | cons b rest ih =>
      rw [uintDigits, not_isDigit, List.all_cons]
      cases hb : isDigit b with
      | false => simp
      | true =>
          have hvalue : (parsed * 10 + (b - 48).toUInt64).toNat =
              (parsed.toNat * 10 + (b - 48).toNat) % 2 ^ 64 := by
            rw [UInt64.toNat_add, UInt64.toNat_mul, toNat_digit, Nat.mod_add_mod]
            rfl
          rw [if_neg (by decide), ih, hvalue, Bool.true_and, digitsFrom_cons, digitsFrom_mod]

theorem toNat_maxEpoch : maxEpoch.toNat = 2 ^ 63 - 1 := by decide

/-- What the look ahead finds out: whether the next number would be too large. -/
theorem guard_iff {result : UInt64} {b : UInt8} (hb : isDigit b = true) :
    result > (maxEpoch - (b - 48).toUInt64) / 10 ↔
      2 ^ 63 ≤ result.toNat * 10 + (b - 48).toNat := by
  have hdigit := digit_le hb
  have hle : (b - 48).toUInt64 ≤ maxEpoch := by
    rw [UInt64.le_iff_toNat_le, toNat_digit, toNat_maxEpoch]
    omega
  have hten : (10 : UInt64).toNat = 10 := rfl
  rw [gt_iff_lt, UInt64.lt_iff_toNat_lt, UInt64.toNat_div, UInt64.toNat_sub_of_le _ _ hle,
    toNat_digit, toNat_maxEpoch, hten]
  omega

/-- The look ahead keeps the number below 2^63, and lets every smaller one pass. -/
theorem epochDigits_eq_ok {text : Text} {result r : UInt64} (hresult : result.toNat < 2 ^ 63) :
    epochDigits result text = .ok r ↔ text.all isDigit = true ∧
      r.toNat = digitsFrom result.toNat text ∧ digitsFrom result.toNat text < 2 ^ 63 := by
  induction text generalizing result with
  | nil =>
      simp only [epochDigits, Except.ok.injEq, List.all_nil, true_and, digitsFrom, List.foldl_nil,
        ← UInt64.toNat_inj]
      constructor
      · intro h
        exact ⟨h.symm, hresult⟩
      · intro h
        exact h.1.symm
  | cons b rest ih =>
      rw [epochDigits, not_isDigit, List.all_cons]
      cases hb : isDigit b with
      | false => simp
      | true =>
          rw [if_neg (by decide), Bool.true_and, digitsFrom_cons]
          by_cases hover : result > (maxEpoch - (b - 48).toUInt64) / 10
          · have hlarge := (guard_iff hb).mp hover
            have hgrows := le_digitsFrom (result.toNat * 10 + (b - 48).toNat) rest
            rw [if_pos hover]
            constructor
            · intro h
              cases h
            · intro h
              omega
          · have hsmall := mt (guard_iff hb).mpr hover
            have hvalue : (result * 10 + (b - 48).toUInt64).toNat =
                result.toNat * 10 + (b - 48).toNat := by
              have hten : (10 : UInt64).toNat = 10 := rfl
              rw [UInt64.toNat_add, UInt64.toNat_mul, toNat_digit, hten]
              omega
            rw [if_neg hover, ih (by omega), hvalue]

/-- **Group ids**: whatever numeral is read, the number returned is the one it denotes
modulo 2^64. -/
theorem parseCanonicalUint_eq_ok {value : Text} {r : UInt64} :
    parseCanonicalUint value = .ok r ↔ ∃ n, value = decimal n ∧ r.toNat = n % 2 ^ 64 := by
  rw [parseCanonicalUint, not_isLead]
  cases hlead : isLead value with
  | false =>
      simp only [Bool.not_false, if_true]
      constructor
      · intro h
        cases h
      · intro h
        obtain ⟨n, hvalue, -⟩ := h
        rw [(eq_decimal_iff.mp hvalue).1] at hlead
        cases hlead
  | true =>
      rw [if_neg (by decide), uintDigits_eq_ok]
      have hzero : (0 : UInt64).toNat = 0 := rfl
      rw [hzero]
      constructor
      · rintro ⟨hall, hvalue⟩
        exact ⟨digitsFrom 0 value, eq_decimal_iff.mpr ⟨hlead, hall, rfl⟩, hvalue⟩
      · intro h
        obtain ⟨n, hvalue, hr⟩ := h
        obtain ⟨-, hall, hn⟩ := eq_decimal_iff.mp hvalue
        exact ⟨hall, by rw [hr, hn]⟩

/-- **Bundle times**: exactly the numerals of the numbers below 2^63 are read, as what
they denote. -/
theorem parseSourceDateEpoch_eq_ok {value : Text} {r : UInt64} :
    parseSourceDateEpoch value = .ok r ↔ value = decimal r.toNat ∧ r.toNat < 2 ^ 63 := by
  rw [parseSourceDateEpoch, not_isLead, eq_decimal_iff]
  cases hlead : isLead value with
  | false => simp
  | true =>
      rw [if_neg (by decide), epochDigits_eq_ok (by decide)]
      have hzero : (0 : UInt64).toNat = 0 := rfl
      rw [hzero]
      constructor
      · rintro ⟨hall, hvalue, hlt⟩
        exact ⟨⟨rfl, hall, hvalue.symm⟩, by omega⟩
      · rintro ⟨⟨hlead, hall, hvalue⟩, hlt⟩
        exact ⟨hall, hvalue.symm, by omega⟩

/-! ## The group file -/

/-- `bundle.InstallGroup`. -/
def installGroup : Text := bytes "atlas-manager-power"

def maxGroupFileBytes : Nat := 65536

def maxGroupLineBytes : Nat := 1024

/-- `:`. -/
def colon : UInt8 := 58

/-- `,`. -/
def comma : UInt8 := 44

/-- `ErrGroupUnavailable` and `ErrGroupNotEmpty`. -/
inductive GroupError where
  | groupUnavailable
  | groupNotEmpty
  deriving DecidableEq, Repr

structure Group where
  gid : UInt32
  deriving DecidableEq, Repr

/-- What the loop over the lines has gathered: the names `seen`, and the `result`
once it is `found`. -/
structure Scan where
  seen : List Text
  result : Option Group

/-- `x`, `!` or `*`. -/
def isPassword (password : Text) : Bool := password = [120] || password = [33] || password = [42]

/-- A member list of another group: where it has several members, each is a word. -/
def admitsMembers (members : Text) : Bool :=
  !members.contains comma ||
    (split comma members).all fun member =>
      !(member = [] || member.contains 32 || member.contains 9)

/-- The loop's body behind the line's four fields. -/
def validateFields (scan : Scan) (name password gidText members : Text) :
    Except GroupError Scan :=
  if name = [] then .error .groupUnavailable
  else if name ∈ scan.seen then .error .groupUnavailable
  else if !isPassword password then .error .groupUnavailable
  else match parseCanonicalUint gidText with
    | .error _ => .error .groupUnavailable
    | .ok gid =>
      if gid > 0xFFFFFFFF then .error .groupUnavailable
      else if name = installGroup then
        if scan.result.isSome then .error .groupUnavailable
        else if gid = 0 then .error .groupUnavailable
        else if members ≠ [] then .error .groupNotEmpty
        else .ok { seen := name :: scan.seen, result := some ⟨gid.toUInt32⟩ }
      else if !admitsMembers members then .error .groupUnavailable
      else .ok { scan with seen := name :: scan.seen }

/-- The loop's body. -/
def validateLine (scan : Scan) (line : Text) : Except GroupError Scan :=
  if line = [] then .ok scan
  else if line.length > maxGroupLineBytes || line.contains carriageReturn || line.contains 0 then
    .error .groupUnavailable
  else match split colon line with
    | [name, password, gidText, members] => validateFields scan name password gidText members
    | _ => .error .groupUnavailable

/-- The loop over the lines. -/
def validateLines (scan : Scan) : List Text → Except GroupError Scan
  | [] => .ok scan
  | line :: rest =>
    match validateLine scan line with
    | .error e => .error e
    | .ok next => validateLines next rest

/-- `validateGroup`.  `groupFile` is what the group file holds; `none` where it is no
regular file or cannot be opened or read. -/
def validateGroup (groupFile : Option Text) (_requireEmpty : Bool) : Except GroupError Group :=
  match groupFile.map (·.take (maxGroupFileBytes + 1)) with
  | none => .error .groupUnavailable
  | some data =>
    if data.length > maxGroupFileBytes || data.contains 0 then .error .groupUnavailable
    else match validateLines ⟨[], none⟩ (split newline data) with
      | .error e => .error e
      | .ok scan => scan.result.elim (.error .groupUnavailable) .ok

/-! ## Accepted files -/

/-- The line of a group `name` whose gid text is the numeral of `n`, as the check
admits it. -/
structure IsEntry (name : Text) (n : Nat) (line : Text) : Prop where
  length : line.length ≤ maxGroupLineBytes
  carriageReturn : carriageReturn ∉ line
  nul : 0 ∉ line
  fields : ∃ password members, split colon line = [name, password, decimal n, members] ∧
    isPassword password = true ∧
    if name = installGroup then members = [] else admitsMembers members = true
  nonempty : name ≠ []
  /-- What 64 bits keep of the number fits the type of a group id. -/
  gid : n % 2 ^ 64 < 2 ^ 32
  installGid : name = installGroup → n % 2 ^ 64 ≠ 0

/-- A file of such lines, no two for the same group and one for the group of the
installation, whose gid text is the numeral of `n`. -/
structure WellFormed (data : Text) (n : Nat) : Prop where
  length : data.length ≤ maxGroupFileBytes
  nul : 0 ∉ data
  entries : ∃ entries : List (Text × Nat),
    List.Forall₂ (fun entry line => IsEntry entry.1 entry.2 line) entries
      ((split newline data).filter (· ≠ [])) ∧
    (entries.map Prod.fst).Nodup ∧ (installGroup, n) ∈ entries

/-- The scan with one more group. -/
def Scan.add (scan : Scan) (name : Text) (n : Nat) : Scan where
  seen := name :: scan.seen
  result := if name = installGroup then some ⟨(UInt64.ofNat n).toUInt32⟩ else scan.result

theorem parseCanonicalUint_decimal (n : Nat) :
    parseCanonicalUint (decimal n) = .ok (UInt64.ofNat n) :=
  parseCanonicalUint_eq_ok.mpr ⟨n, rfl, UInt64.toNat_ofNat'⟩

/-- What four fields are accepted, and what they add. -/
theorem validateFields_eq_ok {scan next : Scan} {name password gidText members : Text} :
    validateFields scan name password gidText members = .ok next ↔
      name ≠ [] ∧ name ∉ scan.seen ∧ isPassword password = true ∧ ∃ n, gidText = decimal n ∧
        n % 2 ^ 64 < 2 ^ 32 ∧ (name = installGroup → scan.result = none ∧ n % 2 ^ 64 ≠ 0) ∧
        (if name = installGroup then members = [] else admitsMembers members = true) ∧
        next = scan.add name n := by
  unfold validateFields
  by_cases hname : name = []
  · simp [hname]
  by_cases hseen : name ∈ scan.seen
  · simp [hname, hseen]
  by_cases hpassword : isPassword password = true
  · simp only [hname, hseen, hpassword, if_false, Bool.not_true, Bool.false_eq_true, ne_eq,
      not_false_eq_true, true_and]
    cases hgid : parseCanonicalUint gidText with
    | error e =>
        constructor
        · intro h
          cases h
        · rintro ⟨n, hn, -⟩
          rw [hn, parseCanonicalUint_decimal] at hgid
          cases hgid
    | ok gid =>
        obtain ⟨n, hn, hvalue⟩ := parseCanonicalUint_eq_ok.mp hgid
        have hunique : ∀ m, gidText = decimal m ↔ m = n := by
          intro m
          rw [hn]
          exact ⟨fun h => (decimal_injective h).symm, fun h => by rw [h]⟩
        have hword : UInt64.ofNat n = gid := by
          rw [← UInt64.toNat_inj, hvalue]
          exact UInt64.toNat_ofNat'
        have hlarge : gid > 0xFFFFFFFF ↔ ¬n % 2 ^ 64 < 2 ^ 32 := by
          rw [gt_iff_lt, UInt64.lt_iff_toNat_lt, hvalue]
          show 2 ^ 32 - 1 < n % 2 ^ 64 ↔ _
          omega
        have hzero : gid = 0 ↔ n % 2 ^ 64 = 0 := by
          rw [← UInt64.toNat_inj, hvalue]
          rfl
        simp only [hunique, exists_eq_left, hlarge, hzero, Scan.add, hword]
        by_cases hsmall : n % 2 ^ 64 < 2 ^ 32
        · by_cases hinstall : name = installGroup
          · cases hresult : scan.result <;> grind
          · grind
        · grind
  · simp [hname, hseen, hpassword]

/-- What line is accepted, and what it adds. -/
theorem validateLine_eq_ok {scan next : Scan} {line : Text} (hline : line ≠ []) :
    validateLine scan line = .ok next ↔ ∃ name n, IsEntry name n line ∧ name ∉ scan.seen ∧
      (name = installGroup → scan.result = none) ∧ next = scan.add name n := by
  rw [validateLine, if_neg hline]
  by_cases hbad : (decide (line.length > maxGroupLineBytes) || line.contains carriageReturn ||
      line.contains 0) = true
  · rw [if_pos hbad]
    constructor
    · intro h
      cases h
    · rintro ⟨name, n, hentry, -⟩
      have h₁ := hentry.length
      have h₂ := hentry.carriageReturn
      have h₃ := hentry.nul
      simp only [Bool.or_eq_true, decide_eq_true_eq, List.contains_iff_mem] at hbad
      grind
  · rw [if_neg hbad]
    simp only [Bool.or_eq_true, decide_eq_true_eq, List.contains_iff_mem, not_or,
      Nat.not_lt] at hbad
    constructor
    · intro h
      split at h
      · rename_i name password gidText members hfields
        obtain ⟨hname, hseen, hpassword, n, hn, hsmall, hinstall, hmembers, hnext⟩ :=
          validateFields_eq_ok.mp h
        exact ⟨name, n, ⟨hbad.1.1, hbad.1.2, hbad.2, ⟨password, members, by rw [hfields, hn],
          hpassword, hmembers⟩, hname, hsmall, fun h => (hinstall h).2⟩, hseen,
          fun h => (hinstall h).1, hnext⟩
      · cases h
    · rintro ⟨name, n, hentry, hseen, hresult, hnext⟩
      obtain ⟨password, members, hfields, hpassword, hmembers⟩ := hentry.fields
      rw [hfields]
      exact validateFields_eq_ok.mpr ⟨hentry.nonempty, hseen, hpassword, n, rfl, hentry.gid,
        fun h => ⟨hresult h, hentry.installGid h⟩, hmembers, hnext⟩

/-! ## The whole file -/

/-- The scan after the lines of `entries`, the last of them first. -/
structure Scanned (entries : List (Text × Nat)) (scan : Scan) : Prop where
  seen : scan.seen = entries.map Prod.fst
  result : ∀ group, scan.result = some group ↔
    ∃ n, (installGroup, n) ∈ entries ∧ group.gid.toNat = n % 2 ^ 64

theorem Scanned.result_none {entries : List (Text × Nat)} {scan : Scan}
    (h : Scanned entries scan) (hname : installGroup ∉ entries.map Prod.fst) :
    scan.result = none := by
  cases hresult : scan.result with
  | none => rfl
  | some group =>
      obtain ⟨n, hmem, -⟩ := (h.result group).mp hresult
      exact absurd (List.mem_map_of_mem hmem) hname

theorem Scanned.add {entries : List (Text × Nat)} {scan : Scan} {name : Text} {n : Nat}
    (h : Scanned entries scan) (hname : name ∉ entries.map Prod.fst)
    (hsmall : n % 2 ^ 64 < 2 ^ 32) : Scanned ((name, n) :: entries) (scan.add name n) where
  seen := by rw [Scan.add, h.seen, List.map_cons]
  result := by
    intro group
    by_cases hinstall : name = installGroup
    · have hword : (UInt64.ofNat n).toUInt32.toNat = n % 2 ^ 64 := by
        rw [UInt64.toNat_toUInt32, UInt64.toNat_ofNat']
        exact Nat.mod_eq_of_lt hsmall
      have hother : ∀ m, (installGroup, m) ∉ entries := by
        intro m hm
        rw [hinstall] at hname
        exact hname (List.mem_map_of_mem hm)
      simp only [Scan.add, hinstall, if_true, Option.some.injEq, List.mem_cons, Prod.mk.injEq,
        true_and, hother, or_false, exists_eq_left]
      cases group with
      | mk gid => rw [Group.mk.injEq, ← UInt32.toNat_inj, hword, eq_comm]
    · have hother : ∀ m, (installGroup, m) ≠ (name, n) := by
        intro m hm
        exact hinstall (Prod.mk.inj hm).1.symm
      simp only [Scan.add, if_neg hinstall, h.result, List.mem_cons, hother, false_or]

/-- **The loop over the lines**: they are entries of groups with different names. -/
theorem validateLines_of_ok {entries : List (Text × Nat)} {scan last : Scan} {lines : List Text}
    (hscan : Scanned entries scan) (hnodup : (entries.map Prod.fst).Nodup)
    (h : validateLines scan lines = .ok last) : ∃ added : List (Text × Nat),
      List.Forall₂ (fun entry line => IsEntry entry.1 entry.2 line) added
        (lines.filter (· ≠ [])) ∧
      ((added.reverse ++ entries).map Prod.fst).Nodup ∧
      Scanned (added.reverse ++ entries) last := by
  induction lines generalizing entries scan with
  | nil =>
      cases h
      exact ⟨[], .nil, hnodup, hscan⟩
  | cons line rest ih =>
      by_cases hline : line = []
      · rw [validateLines, hline] at h
        rw [List.filter_cons_of_neg (by simp [hline])]
        exact ih hscan hnodup h
      · rw [List.filter_cons_of_pos (by simp [hline])]
        unfold validateLines at h
        cases hnext : validateLine scan line with
        | error e =>
            rw [hnext] at h
            cases h
        | ok next =>
            rw [hnext] at h
            obtain ⟨name, n, hentry, hseen, -, hadd⟩ := (validateLine_eq_ok hline).mp hnext
            rw [hscan.seen] at hseen
            have hscan' : Scanned ((name, n) :: entries) next := by
              rw [hadd]
              exact hscan.add hseen hentry.gid
            obtain ⟨added, hadded, hdistinct, hlast⟩ :=
              ih hscan' (List.nodup_cons.mpr ⟨hseen, hnodup⟩) h
            refine ⟨(name, n) :: added, .cons hentry hadded, ?_, ?_⟩
            · simpa using hdistinct
            · simpa using hlast

/-- ... and such lines are all accepted. -/
theorem validateLines_accepts {entries added : List (Text × Nat)} {scan : Scan}
    {lines : List Text} (hscan : Scanned entries scan)
    (hadded : List.Forall₂ (fun entry line => IsEntry entry.1 entry.2 line) added
      (lines.filter (· ≠ [])))
    (hnodup : ((added.reverse ++ entries).map Prod.fst).Nodup) :
    ∃ last, validateLines scan lines = .ok last ∧ Scanned (added.reverse ++ entries) last := by
  induction lines generalizing entries added scan with
  | nil =>
      cases hadded
      exact ⟨scan, rfl, hscan⟩
  | cons line rest ih =>
      by_cases hline : line = []
      · rw [List.filter_cons_of_neg (by simp [hline])] at hadded
        rw [validateLines, hline]
        exact ih hscan hadded hnodup
      · rw [List.filter_cons_of_pos (by simp [hline])] at hadded
        cases hadded with
        | @cons entry _ added _ hentry hrest =>
            have hperm : (((entry :: added).reverse ++ entries).map Prod.fst).Perm
                ((added.reverse ++ entry :: entries).map Prod.fst) := by
              simp
            have hnodup' := hperm.nodup_iff.mp hnodup
            have hname : entry.1 ∉ entries.map Prod.fst := by
              rw [List.map_append, List.map_cons] at hnodup'
              exact (List.nodup_cons.mp (List.Nodup.of_append_right hnodup')).1
            have hnext : validateLine scan line = .ok (scan.add entry.1 entry.2) := by
              refine (validateLine_eq_ok hline).mpr ⟨entry.1, entry.2, hentry, ?_, ?_, rfl⟩
              · rw [hscan.seen]
                exact hname
              · intro hinstall
                exact hscan.result_none (hinstall ▸ hname)
            obtain ⟨last, hlast, hscanned⟩ :=
              ih (hscan.add hname hentry.gid) hrest hnodup'
            refine ⟨last, ?_, by simpa using hscanned⟩
            rw [validateLines, hnext]
            exact hlast

/-- **Accepted group files**: these are the well-formed ones, and the group returned has
the number of the gid text modulo 2^64. -/
theorem validateGroup_eq_ok {groupFile : Option Text} {requireEmpty : Bool} {group : Group} :
    validateGroup groupFile requireEmpty = .ok group ↔
      ∃ data n, groupFile = some data ∧ WellFormed data n ∧ group.gid.toNat = n % 2 ^ 64 := by
  have hempty : Scanned [] ⟨[], none⟩ := ⟨rfl, by simp⟩
  cases groupFile with
  | none => simp [validateGroup]
  | some data =>
      simp only [validateGroup, Option.map_some, Option.some.injEq]
      by_cases hlength : data.length ≤ maxGroupFileBytes
      · rw [List.take_of_length_le (by omega)]
        by_cases hnul : (0 : UInt8) ∈ data
        · rw [if_pos (by simp [hnul])]
          constructor
          · intro h
            cases h
          · rintro ⟨data, n, rfl, hformed, -⟩
            exact absurd hnul hformed.nul
        · rw [if_neg (by simp [hnul, hlength])]
          constructor
          · intro h
            split at h
            · cases h
            · rename_i last hlines
              obtain ⟨entries, hentries, hnodup, hlast⟩ :=
                validateLines_of_ok hempty List.nodup_nil hlines
              rw [List.append_nil] at hnodup hlast
              cases hresult : last.result with
              | none =>
                  rw [hresult] at h
                  cases h
              | some found =>
                  rw [hresult] at h
                  cases h
                  obtain ⟨n, hmem, hgid⟩ := (hlast.result group).mp hresult
                  refine ⟨data, n, rfl, ⟨hlength, hnul, entries, hentries, ?_, ?_⟩, hgid⟩
                  · rw [List.map_reverse] at hnodup
                    exact List.nodup_reverse.mp hnodup
                  · exact List.mem_reverse.mp hmem
          · rintro ⟨data', n, rfl, hformed, hgid⟩
            obtain ⟨entries, hentries, hnodup, hmem⟩ := hformed.entries
            obtain ⟨last, hlines, hlast⟩ := validateLines_accepts hempty hentries (by
              rw [List.append_nil, List.map_reverse]
              exact List.nodup_reverse.mpr hnodup)
            rw [List.append_nil] at hlast
            have hresult : last.result = some group :=
              (hlast.result group).mpr ⟨n, List.mem_reverse.mpr hmem, hgid⟩
            rw [hlines]
            simp only [hresult, Option.elim_some]
      · rw [if_pos (by simp [List.length_take]; omega)]
        constructor
        · intro h
          cases h
        · rintro ⟨data, n, rfl, hformed, -⟩
          exact absurd hformed.length hlength

/-! ## Exact numbers -/

/-- The gid text on a line of the group of the installation is the numeral of `n`. -/
def InstallGid (data : Text) (n : Nat) : Prop :=
  ∃ line ∈ split newline data, ∃ password members,
    split colon line = [installGroup, password, decimal n, members]

/-- A well-formed file has one line for the group. -/
theorem WellFormed.installGid_iff {data : Text} {n m : Nat} (h : WellFormed data n) :
    InstallGid data m ↔ m = n := by
  obtain ⟨entries, hentries, hnodup, hmem⟩ := h.entries
  constructor
  · rintro ⟨line, hline, password, members, hfields⟩
    have hne : line ≠ [] := by
      intro hempty
      rw [hempty] at hfields
      have hone : (split colon []).length = 4 := congrArg List.length hfields
      exact absurd hone (by decide)
    obtain ⟨entry, hentry, his⟩ := exists_of_mem_forall₂ hentries
      (List.mem_filter.mpr ⟨hline, by simpa using hne⟩)
    obtain ⟨password', members', hfields', -⟩ := his.fields
    have hsame := hfields.symm.trans hfields'
    simp only [List.cons.injEq] at hsame
    have heq : entry = (installGroup, n) :=
      List.inj_on_of_nodup_map hnodup hentry hmem hsame.1.symm
    rw [decimal_injective hsame.2.2.1, heq]
  · intro heq
    obtain ⟨line, hline, his⟩ := exists_of_mem_forall₂ hentries.flip hmem
    obtain ⟨password, members, hfields, -⟩ := his.fields
    rw [heq]
    exact ⟨line, (List.mem_filter.mp hline).1, password, members, hfields⟩

/-- The numerals of the numbers below `bound`, and no other texts, are read, each as the
number it denotes. -/
structure ReadsExactly (parse : Text → Except String UInt64) (bound : Nat) (value : Text) :
    Prop where
  reads : ∀ n < bound, value = decimal n → parse value = .ok (UInt64.ofNat n)
  denotes : ∀ r, parse value = .ok r → value = decimal r.toNat ∧ r.toNat < bound

/-- What the readers and the group file's check are for: the numbers are those the texts
denote, and the gid text in an accepted file denotes the gid returned. -/
structure Exact (value : Text) (groupFile : Option Text) (requireEmpty : Bool) : Prop where
  parseCanonicalUint : ReadsExactly parseCanonicalUint (2 ^ 64) value
  parseSourceDateEpoch : ReadsExactly parseSourceDateEpoch (2 ^ 63) value
  validateGroup : ∀ group, validateGroup groupFile requireEmpty = .ok group →
    ∃ data ∈ groupFile, ∀ n, InstallGid data n ↔ n = group.gid.toNat

theorem readsExactly_parseSourceDateEpoch (value : Text) :
    ReadsExactly parseSourceDateEpoch (2 ^ 63) value where
  reads := by
    intro n hn hvalue
    have hword : (UInt64.ofNat n).toNat = n := by
      rw [UInt64.toNat_ofNat']
      exact Nat.mod_eq_of_lt (by omega)
    exact parseSourceDateEpoch_eq_ok.mpr ⟨by rw [hword, hvalue], by rw [hword]; exact hn⟩
  denotes _ hr := parseSourceDateEpoch_eq_ok.mp hr

/-- The reader of group ids is right about a text unless it is a numeral that does not
fit 64 bits. -/
theorem readsExactly_parseCanonicalUint {value : Text} :
    ReadsExactly parseCanonicalUint (2 ^ 64) value ↔ ∀ n, value = decimal n → n < 2 ^ 64 := by
  constructor
  · intro h n hn
    have hread := parseCanonicalUint_decimal n
    rw [← hn] at hread
    obtain ⟨hvalue, hlt⟩ := h.denotes _ hread
    rw [hn] at hvalue
    rw [decimal_injective hvalue]
    exact hlt
  · intro h
    refine ⟨?_, ?_⟩
    · intro n _ hvalue
      rw [hvalue]
      exact parseCanonicalUint_decimal n
    · intro r hr
      obtain ⟨n, hn, hvalue⟩ := parseCanonicalUint_eq_ok.mp hr
      rw [Nat.mod_eq_of_lt (h n hn)] at hvalue
      exact ⟨by rw [hvalue, hn], r.toNat_lt⟩

/-- **Exact numbers**: everything is right about a text and a group file unless the text
is the numeral of a number from 2^64 on, or the file is well-formed with such a numeral
as the gid of the group of the installation. -/
theorem exact_iff (value : Text) (groupFile : Option Text) (requireEmpty : Bool) :
    Exact value groupFile requireEmpty ↔
      (∀ n, value = decimal n → n < 2 ^ 64) ∧
      ∀ data ∈ groupFile, ∀ n, WellFormed data n → n < 2 ^ 64 := by
  constructor
  · intro h
    refine ⟨readsExactly_parseCanonicalUint.mp h.parseCanonicalUint, ?_⟩
    intro data hdata n hformed
    have hsmall : n % 2 ^ 64 < 2 ^ 32 := by
      obtain ⟨entries, hentries, -, hmem⟩ := hformed.entries
      obtain ⟨line, -, his⟩ := exists_of_mem_forall₂ hentries.flip hmem
      exact his.gid
    -- The group that is returned has the remainder as its number.
    have hgid : (UInt32.ofNat (n % 2 ^ 64)).toNat = n % 2 ^ 64 := by
      rw [UInt32.toNat_ofNat']
      exact Nat.mod_eq_of_lt hsmall
    obtain ⟨data', hdata', hdenotes⟩ := h.validateGroup ⟨UInt32.ofNat (n % 2 ^ 64)⟩
      (validateGroup_eq_ok.mpr ⟨data, n, hdata, hformed, hgid⟩)
    have hsame : data' = data := Option.mem_unique hdata' hdata
    rw [hsame] at hdenotes
    have hn := (hdenotes n).mp (hformed.installGid_iff.mpr rfl)
    rw [hn, hgid]
    omega
  · rintro ⟨hvalue, hfile⟩
    refine ⟨readsExactly_parseCanonicalUint.mpr hvalue, readsExactly_parseSourceDateEpoch value, ?_⟩
    intro group hgroup
    obtain ⟨data, n, hdata, hformed, hgid⟩ := validateGroup_eq_ok.mp hgroup
    refine ⟨data, hdata, fun m => ?_⟩
    rw [hformed.installGid_iff, hgid, Nat.mod_eq_of_lt (hfile data hdata n hformed)]

/-- The numeral of 2^64 + 1 is read as 1, and a group file with it is accepted as one in
which the group of the installation is group 1. -/
theorem not_exact_of_overflow :
    (¬∀ value, ReadsExactly parseCanonicalUint (2 ^ 64) value) ∧
    ¬∀ groupFile requireEmpty group, validateGroup groupFile requireEmpty = .ok group →
      ∃ data ∈ groupFile, ∀ n, InstallGid data n ↔ n = group.gid.toNat := by
  constructor
  · intro h
    have hread : parseCanonicalUint (bytes "18446744073709551617") = .ok 1 := by
      decide +kernel
    exact absurd ((h _).denotes 1 hread).1 (by decide +kernel)
  · intro h
    have hgroup : validateGroup
        (some (bytes "root:x:0:\natlas-manager-power:x:18446744073709551617:\n")) true =
          .ok ⟨1⟩ := by
      decide +kernel
    have hno : ∀ line ∈ split newline
        (bytes "root:x:0:\natlas-manager-power:x:18446744073709551617:\n"),
        (split colon line)[2]? ≠ some (decimal 1) := by
      decide +kernel
    obtain ⟨data, hdata, hdenotes⟩ := h _ _ _ hgroup
    cases hdata
    obtain ⟨line, hline, password, members, hfields⟩ := (hdenotes 1).mpr rfl
    refine hno line hline ?_
    rw [hfields]
    rfl

end AtlasManager.PowerHelper.GroupFile
