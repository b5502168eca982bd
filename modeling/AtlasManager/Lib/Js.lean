import AtlasManager.Lib.Calendar

/-!
# AtlasManager.Lib.Js

The values and the small collections of JavaScript that programs check at run
time: a value of unknown type, an insertion-ordered set, a sorted array of texts.
-/

namespace AtlasManager.Lib

/-! ## Values of unknown type -/

/-- A JavaScript value.  `obj` is a plain record, its own fields in order;
`other` is everything that no check of a program accepts as a record, an array
or a primitive (functions, symbols, class instances, `NaN`). -/
inductive JsValue where
  | undefined
  | null
  | bool (b : Bool)
  | num (q : Rat)
  | str (s : String)
  | arr (items : List JsValue)
  | obj (fields : List (String × JsValue))
  | other
  deriving Inhabited

namespace JsValue

/-- The fields of a plain record. -/
def asRecord : JsValue → Option (List (String × JsValue))
  | .obj fields => some fields
  | _ => none

end JsValue

mutual

/-- Are two values the same? -/
def JsValue.same : JsValue → JsValue → Bool
  | .undefined, .undefined => true
  | .null, .null => true
  | .bool a, .bool b => a = b
  | .num a, .num b => a = b
  | .str a, .str b => a = b
  | .arr as, .arr bs => sameItems as bs
  | .obj as, .obj bs => sameFields as bs
  | .other, .other => true
  | _, _ => false

def sameItems : List JsValue → List JsValue → Bool
  | [], [] => true
  | a :: as, b :: bs => a.same b && sameItems as bs
  | _, _ => false

def sameFields : List (String × JsValue) → List (String × JsValue) → Bool
  | [], [] => true
  | (m, a) :: as, (n, b) :: bs => m = n && a.same b && sameFields as bs
  | _, _ => false

end

mutual

theorem JsValue.same_iff (a b : JsValue) : a.same b = true ↔ a = b := by
  cases a <;> cases b <;> simp [JsValue.same, sameItems_iff, sameFields_iff]

theorem sameItems_iff (as bs : List JsValue) : sameItems as bs = true ↔ as = bs := by
  cases as <;> cases bs <;> simp [sameItems, JsValue.same_iff, sameItems_iff]

theorem sameFields_iff (as bs : List (String × JsValue)) : sameFields as bs = true ↔ as = bs := by
  cases as with
  | nil => cases bs <;> simp [sameFields]
  | cons a as =>
      cases bs with
      | nil => simp [sameFields]
      | cons b bs =>
          obtain ⟨m, a⟩ := a
          obtain ⟨n, b⟩ := b
          simp [sameFields, JsValue.same_iff a, sameFields_iff as, and_assoc]

end

instance : DecidableEq JsValue := fun a b => decidable_of_iff _ (JsValue.same_iff a b)

/-- The value of a field, `undefined` when the record has no such field. -/
def field (fields : List (String × JsValue)) (name : String) : JsValue :=
  (fields.lookup name).getD .undefined

/-- `Object.hasOwn`. -/
def hasOwn (fields : List (String × JsValue)) (name : String) : Bool :=
  (fields.lookup name).isSome

/-- Does a record have fields besides the allowed ones? -/
def hasFieldOutside (allowed : List String) (fields : List (String × JsValue)) : Bool :=
  fields.any fun f => f.1 ∉ allowed

/-- The only entry of a name is found. -/
theorem lookup_of_mem {κ α : Type} [BEq κ] [LawfulBEq κ] {l : List (κ × α)}
    (hnodup : (l.map Prod.fst).Nodup) {key : κ} {value : α} (h : (key, value) ∈ l) :
    l.lookup key = some value := by
  induction l with
  | nil => exact absurd h List.not_mem_nil
  | cons entry l ih =>
      obtain ⟨key', value'⟩ := entry
      rw [List.map_cons, List.nodup_cons] at hnodup
      rcases List.mem_cons.mp h with heq | hmem
      · rw [Prod.mk.injEq] at heq
        rw [heq.1, heq.2, List.lookup_cons_self]
      · have hne : (key == key') = false := by
          rw [beq_eq_false_iff_ne]
          intro heq
          exact hnodup.1 (List.mem_map.mpr ⟨(key, value), hmem, heq⟩)
        rw [List.lookup_cons, hne]
        exact ih hnodup.2 hmem

theorem mem_iff_lookup {κ α : Type} [BEq κ] [LawfulBEq κ] {l : List (κ × α)}
    (hnodup : (l.map Prod.fst).Nodup) (entry : κ × α) : entry ∈ l ↔ l.lookup entry.1 = some entry.2 := by
  constructor
  · exact fun hmem => lookup_of_mem hnodup hmem
  · intro hlookup
    obtain ⟨before, after, heq, -⟩ := List.lookup_eq_some_iff.mp hlookup
    rw [heq]
    simp

theorem lookup_eq_of_perm {κ α : Type} [BEq κ] [LawfulBEq κ] {a b : List (κ × α)}
    (hnodup : (a.map Prod.fst).Nodup) (h : a.Perm b) (key : κ) : a.lookup key = b.lookup key := by
  refine Option.ext fun value => ?_
  have hb : (b.map Prod.fst).Nodup := (h.map Prod.fst).nodup_iff.mp hnodup
  rw [← mem_iff_lookup hnodup (key, value), ← mem_iff_lookup hb (key, value), h.mem_iff]

/-- Lists with the same lookups hold the same entries. -/
theorem perm_of_lookup {κ α : Type} [BEq κ] [LawfulBEq κ] {a b : List (κ × α)}
    (ha : (a.map Prod.fst).Nodup) (hb : (b.map Prod.fst).Nodup)
    (h : ∀ key, a.lookup key = b.lookup key) : a.Perm b := by
  rw [List.perm_ext_iff_of_nodup ha.of_map hb.of_map]
  intro entry
  rw [mem_iff_lookup ha, mem_iff_lookup hb, h]

/-- A record that has as many fields as there are names, and all of these, has no others. -/
theorem perm_of_exactFields {names : List String} (hnames : names.Nodup)
    {fields : List (String × JsValue)} (hlength : fields.length = names.length)
    (hown : names.all (hasOwn fields) = true) :
    fields.Perm (names.map fun name => (name, field fields name)) := by
  have hsubset : names ⊆ fields.map Prod.fst := by
    intro name hname
    obtain ⟨value, hvalue⟩ := Option.isSome_iff_exists.mp (List.all_eq_true.mp hown name hname)
    obtain ⟨before, after, hfields, -⟩ := List.lookup_eq_some_iff.mp hvalue
    rw [hfields]
    simp
  have hperm : names.Perm (fields.map Prod.fst) :=
    (hnames.subperm hsubset).perm_of_length_le (by rw [List.length_map, hlength])
  have hfields : (fields.map Prod.fst).map (fun name => (name, field fields name)) = fields := by
    rw [List.map_map]
    refine (List.map_congr_left fun f hf => ?_).trans (List.map_id fields)
    have hlookup := lookup_of_mem (hperm.nodup_iff.mp hnames) hf
    simp [field, hlookup]
  have hmapped := hperm.map fun name => (name, field fields name)
  rw [hfields] at hmapped
  exact hmapped.symm

/-- The property of a value; `none` where reading it throws. -/
def JsValue.member? (name : String) : JsValue → Option JsValue
  | .undefined | .null => none
  | .obj fields => some (field fields name)
  | _ => some .undefined

/-- The member of an enumeration that a value names. -/
def oneOf {α : Type*} (all : List α) (text : α → String) : JsValue → Option α
  | .str s => all.find? fun a => text a = s
  | _ => none

/-- `[text, …].includes(String(value))` for words: `String` also turns an array of
one word into the word. -/
def JsValue.coercesTo (text : String) : JsValue → Bool
  | .str s => s = text
  | .arr [value] => value.coercesTo text
  | _ => false

/-- Does a value count as true in a condition? -/
def JsValue.isTruthy : JsValue → Bool
  | .undefined | .null => false
  | .bool b => b
  | .num q => q ≠ 0
  | .str s => s ≠ ""
  | _ => true

/-- `Number.isInteger`, with the integer. -/
def JsValue.integer? : JsValue → Option Int
  | .num q => if q.den = 1 then some q.num else none
  | _ => none

/-- The texts of an array, when all its members are texts. -/
def textItems (items : List JsValue) : Option (List String) :=
  items.mapM fun
    | .str text => some text
    | _ => none

/-- The instant of a canonical timestamp. -/
def JsValue.timestamp? : JsValue → Option Timestamp
  | .str s => Timestamp.ofText? s
  | _ => none

@[simp] theorem JsValue.timestamp?_text (t : Timestamp) :
    (JsValue.str t.text).timestamp? = some t := Timestamp.ofText?_text t

/-! ## Texts -/

/-- The white space and line terminators of JavaScript. -/
def isSpace (c : Char) : Bool :=
  (9 ≤ c.toNat && c.toNat ≤ 13) || c.toNat = 0x20 || c.toNat = 0xA0 || c.toNat = 0x1680 ||
    (0x2000 ≤ c.toNat && c.toNat ≤ 0x200A) || c.toNat = 0x2028 || c.toNat = 0x2029 ||
    c.toNat = 0x202F || c.toNat = 0x205F || c.toNat = 0x3000 || c.toNat = 0xFEFF

/-- `String.prototype.trim`. -/
def trim (text : String) : String :=
  String.ofList ((text.toList.dropWhile isSpace).reverse.dropWhile isSpace).reverse

/-- `isAbsolute` of `node:path` on POSIX. -/
def isAbsolute (path : String) : Bool := path.toList.head? = some '/'

/-! ## Sets and sorted arrays -/

section Distinct

variable {α : Type*} [DecidableEq α]

/-- `Set.add`: a new element goes to the end. -/
def addNew (set : List α) (x : α) : List α := if x ∈ set then set else set ++ [x]

/-- The elements of `new Set(items)`, in the order in which they are met. -/
def distinct (items : List α) : List α := items.foldl addNew []

theorem mem_addNew {set : List α} {x y : α} : y ∈ addNew set x ↔ y ∈ set ∨ y = x := by
  unfold addNew
  split
  · exact ⟨Or.inl, fun h => h.elim id (by rintro rfl; assumption)⟩
  · simp

theorem nodup_addNew {set : List α} (h : set.Nodup) (x : α) : (addNew set x).Nodup := by
  unfold addNew
  split
  · exact h
  · rename_i hx
    rw [List.nodup_append]
    refine ⟨h, by simp, ?_⟩
    rintro a ha b hb rfl
    exact hx (by simpa using (List.mem_singleton.mp hb) ▸ ha)

theorem foldl_addNew (items set : List α) (h : set.Nodup) :
    (items.foldl addNew set).Nodup ∧ ∀ y, y ∈ items.foldl addNew set ↔ y ∈ set ∨ y ∈ items := by
  induction items generalizing set with
  | nil => exact ⟨h, by simp⟩
  | cons x xs ih =>
      obtain ⟨hnodup, hmem⟩ := ih (addNew set x) (nodup_addNew h x)
      refine ⟨hnodup, fun y => ?_⟩
      rw [List.foldl_cons, hmem, mem_addNew, List.mem_cons, or_assoc]

theorem nodup_distinct (items : List α) : (distinct items).Nodup :=
  (foldl_addNew items [] List.nodup_nil).1

@[simp] theorem mem_distinct {items : List α} {y : α} : y ∈ distinct items ↔ y ∈ items := by
  simp [distinct, (foldl_addNew items [] List.nodup_nil).2]

theorem length_distinct {items : List α} (h : items.Nodup) :
    (distinct items).length = items.length :=
  ((List.perm_ext_iff_of_nodup (nodup_distinct items) h).mpr fun _ => mem_distinct).length_eq

/-- A set of as many elements as there are items: no item occurs twice. -/
theorem nodup_of_length_distinct {items : List α}
    (h : (distinct items).length = items.length) : items.Nodup := by
  have hdedup : items.dedup.Perm (distinct items) :=
    (List.perm_ext_iff_of_nodup (List.nodup_dedup items) (nodup_distinct items)).mpr fun x => by
      rw [List.mem_dedup, mem_distinct]
  rw [← List.dedup_eq_self]
  exact (List.dedup_sublist items).eq_of_length (hdedup.length_eq.trans h)

end Distinct

/-- `Array.prototype.sort` on texts.  The texts it is used on are ASCII, where
the order by code points is JavaScript's order by code units. -/
def sortTexts (texts : List String) : List String := texts.insertionSort (· ≤ ·)

theorem sortTexts_perm (texts : List String) : (sortTexts texts).Perm texts :=
  List.perm_insertionSort _ _

@[simp] theorem mem_sortTexts {texts : List String} {x : String} :
    x ∈ sortTexts texts ↔ x ∈ texts := List.mem_insertionSort _

theorem sortTexts_sorted (texts : List String) : (sortTexts texts).Pairwise (· ≤ ·) :=
  List.pairwise_insertionSort _ _

/-! ## Arrays -/

/-- A search by a key finds the only element that has it. -/
theorem find?_key {α κ : Type} [DecidableEq κ] {key : α → κ} {l : List α}
    (hinj : ∀ a ∈ l, ∀ b ∈ l, key a = key b → a = b) {a : α} (ha : a ∈ l) :
    (l.find? fun b => key b = key a) = some a := by
  cases hfind : l.find? fun b => key b = key a with
  | none => exact absurd (List.find?_eq_none.mp hfind a ha) (by simp)
  | some b =>
      have hb : key b = key a := by simpa using List.find?_some hfind
      rw [hinj b (List.mem_of_find?_eq_some hfind) a ha hb]

/-- A word reads back as what it stands for, when no two words are the same. -/
theorem oneOf_text {α : Type} {all : List α} {text : α → String}
    (hinj : ∀ a b, text a = text b → a = b) {a : α} (ha : a ∈ all) :
    oneOf all text (.str (text a)) = some a :=
  find?_key (fun a _ b _ => hinj a b) ha

/-- A word that is read is the text of what it stands for. -/
theorem text_of_oneOf {α : Type} {all : List α} {text : α → String} {value : JsValue} {a : α}
    (h : oneOf all text value = some a) : value = .str (text a) := by
  cases value with
  | str s =>
      have hfound := List.find?_some h
      rw [of_decide_eq_true hfound]
  | _ => cases h

/-- The parts of a computation that did not throw. -/
theorem exists_of_bind_ok {α β ε : Type} {x : Except ε α} {f : α → Except ε β} {b : β}
    (h : (x >>= f) = .ok b) : ∃ a, x = .ok a ∧ f a = .ok b := by
  cases x with
  | error e => cases h
  | ok a => exact ⟨a, rfl, h⟩

theorem exists_of_mem_forall₂ {α β : Type} {R : α → β → Prop} {items : List α}
    {results : List β} (h : List.Forall₂ R items results) {result : β} (hmem : result ∈ results) :
    ∃ item ∈ items, R item result := by
  induction h with
  | nil => cases hmem
  | cons hone _ ih =>
      rcases List.mem_cons.mp hmem with rfl | hmem
      · exact ⟨_, List.mem_cons_self, hone⟩
      · obtain ⟨item, hitem, hr⟩ := ih hmem
        exact ⟨item, List.mem_cons_of_mem _ hitem, hr⟩

/-- An array whose members all pass a check. -/
theorem forall₂_of_mapM {α β ε : Type} {f : α → Except ε β} {items : List α} {results : List β}
    (h : items.mapM f = .ok results) :
    List.Forall₂ (fun item result => f item = .ok result) items results := by
  induction items generalizing results with
  | nil =>
      obtain rfl : [] = results := by simpa [pure, Except.pure] using h
      exact .nil
  | cons item items ih =>
      rw [List.mapM_cons] at h
      cases hone : f item with
      | error e => simp [hone, bind, Except.bind] at h
      | ok result =>
          cases hrest : items.mapM f with
          | error e => simp [hone, hrest, bind, Except.bind] at h
          | ok rest =>
              obtain rfl : result :: rest = results := by
                simpa [hone, hrest, bind, Except.bind, pure, Except.pure] using h
              exact .cons hone (ih hrest)

theorem mapM_cons_some {α β : Type} {f : α → Option β} {a : α} {as : List α} {bs : List β}
    (h : (a :: as).mapM f = some bs) :
    ∃ b rest, f a = some b ∧ as.mapM f = some rest ∧ bs = b :: rest := by
  simp only [List.mapM_cons, Option.bind_eq_bind, Option.bind_eq_some_iff] at h
  obtain ⟨b, hb, rest, hrest, h⟩ := h
  exact ⟨b, rest, hb, hrest, (Option.some.inj h).symm⟩

theorem length_of_mapM {α β : Type} {f : α → Option β} {as : List α} {bs : List β}
    (h : as.mapM f = some bs) : as.length = bs.length := by
  induction as generalizing bs with
  | nil =>
      obtain rfl := Option.some.inj h
      rfl
  | cons a as ih =>
      obtain ⟨b, rest, -, hrest, rfl⟩ := mapM_cons_some h
      rw [List.length_cons, List.length_cons, ih hrest]

theorem exists_mapM_ok {α β ε : Type} {f : α → Except ε β} {items : List α}
    (h : ∀ item ∈ items, ∃ result, f item = .ok result) :
    ∃ results, items.mapM f = .ok results := by
  induction items with
  | nil => exact ⟨[], rfl⟩
  | cons item items ih =>
      obtain ⟨result, hresult⟩ := h item List.mem_cons_self
      obtain ⟨results, hresults⟩ := ih fun i hi => h i (List.mem_cons_of_mem _ hi)
      exact ⟨result :: results, by rw [List.mapM_cons, hresult, hresults]; rfl⟩

end AtlasManager.Lib
