import AtlasManager.Lib.Js

/-!
# AtlasManager.Lib.Directory

Directories of files, and texts of lines.

* `get?_without`, `get?_write` -- what is in a directory after files were removed or written;
* `sortBy` -- lists sorted by a key, which is one list whatever the order they come in;
* `lines_append`, `lines_unlines` -- the lines of a text behind ended lines, and of lines that were
  put together.
-/

namespace AtlasManager.Lib

/-! ## Directories -/

/-- The files of a directory.  No two have one name. -/
structure Directory (κ α : Type) where
  entries : List (κ × α)
  nodup : (entries.map Prod.fst).Nodup

namespace Directory

variable {κ α : Type} [DecidableEq κ]

def empty (κ α : Type) : Directory κ α := ⟨[], List.nodup_nil⟩

def names (directory : Directory κ α) : List κ := directory.entries.map Prod.fst

def get? (directory : Directory κ α) (name : κ) : Option α := directory.entries.lookup name

/-- The directory after the files of these names were removed. -/
def without (directory : Directory κ α) (gone : List κ) : Directory κ α where
  entries := directory.entries.filter fun entry => entry.1 ∉ gone
  nodup := directory.nodup.sublist (List.filter_sublist.map Prod.fst)

/-- The directory after a file was written. -/
def write (directory : Directory κ α) (name : κ) (content : α) : Directory κ α where
  entries := (name, content) :: (directory.without [name]).entries
  nodup := by
    rw [List.map_cons, List.nodup_cons]
    refine ⟨?_, (directory.without [name]).nodup⟩
    simp [without]

variable {directory : Directory κ α}

theorem get?_eq_some {name : κ} {content : α} :
    directory.get? name = some content ↔ (name, content) ∈ directory.entries :=
  (mem_iff_lookup directory.nodup (name, content)).symm

theorem mem_names {name : κ} : name ∈ directory.names ↔ ∃ content, directory.get? name = some content := by
  simp [names, get?_eq_some]

theorem get?_without (directory : Directory κ α) (gone : List κ) (name : κ) :
    (directory.without gone).get? name = if name ∈ gone then none else directory.get? name := by
  refine Option.ext fun content => ?_
  rw [get?_eq_some, without, List.mem_filter]
  by_cases hgone : name ∈ gone
  · simp [hgone]
  · simp [hgone, get?_eq_some]

theorem names_without (directory : Directory κ α) (gone : List κ) :
    (directory.without gone).names = directory.names.filter (· ∉ gone) := by
  rw [names, names, without, List.filter_map]
  rfl

theorem without_nil (directory : Directory κ α) : directory.without [] = directory := by
  have hall : (directory.entries.filter fun entry => entry.1 ∉ []) = directory.entries := by simp
  cases directory
  rw [without]
  congr

theorem get?_write (directory : Directory κ α) (name : κ) (content : α) (other : κ) :
    (directory.write name content).get? other =
      if other = name then some content else directory.get? other := by
  by_cases hother : other = name
  · rw [if_pos hother, get?_eq_some, hother]
    exact List.mem_cons_self
  · have hwithout := get?_without directory [name] other
    rw [if_neg (by simpa using hother)] at hwithout
    have hne : (other == name) = false := by simpa using hother
    rw [if_neg hother, ← hwithout, get?, write, List.lookup_cons, hne]
    rfl

theorem names_write_of_not_mem {name : κ} (content : α) (h : name ∉ directory.names) :
    (directory.write name content).names = name :: directory.names := by
  have hall : directory.names.filter (· ∉ [name]) = directory.names := by
    rw [List.filter_eq_self]
    intro other hother
    have hne : other ≠ name := fun heq => h (heq ▸ hother)
    simpa using hne
  have hwithout := names_without directory [name]
  rw [hall] at hwithout
  rw [← hwithout]
  rfl

theorem mem_names_write {name other : κ} {content : α} :
    other ∈ (directory.write name content).names ↔ other = name ∨ other ∈ directory.names := by
  simp only [mem_names, get?_write]
  by_cases hother : other = name
  · simp [hother]
  · simp [hother]

end Directory

/-! ## Sorted lists -/

/-- A list sorted by a key. -/
def sortBy {α κ : Type} [LinearOrder κ] (key : α → κ) (items : List α) : List α :=
  items.insertionSort fun a b => key a ≤ key b

section SortBy

variable {α κ : Type} [LinearOrder κ] {key : α → κ}

theorem perm_sortBy (items : List α) : (sortBy key items).Perm items :=
  List.perm_insertionSort _ items

theorem pairwise_sortBy (items : List α) :
    (sortBy key items).Pairwise fun a b => key a ≤ key b := by
  have htotal : Std.Total fun a b : α => key a ≤ key b := ⟨fun a b => le_total (key a) (key b)⟩
  have htrans : IsTrans α fun a b => key a ≤ key b := ⟨fun _ _ _ hab hbc => le_trans hab hbc⟩
  exact List.pairwise_insertionSort _ items

/-- Lists of the same items in order are one, where no two items have one key. -/
theorem eq_of_pairwise_key {a b : List α} (hperm : a.Perm b)
    (hinj : ∀ x ∈ a, ∀ y ∈ a, key x = key y → x = y) (ha : a.Pairwise fun x y => key x ≤ key y)
    (hb : b.Pairwise fun x y => key x ≤ key y) : a = b :=
  hperm.eq_of_pairwise (fun x y hx hy hxy hyx =>
    hinj x hx y (hperm.symm.subset hy) (le_antisymm hxy hyx)) ha hb

/-- Sorting what is left of a sorted list gives what is left of it. -/
theorem sortBy_filter {items : List α} (hinj : ∀ x ∈ items, ∀ y ∈ items, key x = key y → x = y)
    (p : α → Bool) : sortBy key (items.filter p) = (sortBy key items).filter p := by
  have hperm : (sortBy key (items.filter p)).Perm ((sortBy key items).filter p) :=
    (perm_sortBy _).trans ((perm_sortBy items).symm.filter p)
  refine eq_of_pairwise_key hperm ?_ (pairwise_sortBy _) ((pairwise_sortBy items).filter p)
  intro x hx y hy hkey
  have hsub : ∀ z ∈ sortBy key (items.filter p), z ∈ items := fun z hz =>
    (List.mem_filter.mp ((perm_sortBy _).subset hz)).1
  exact hinj x (hsub x hx) y (hsub y hy) hkey

/-- An item that stands behind all others is put behind them. -/
theorem sortBy_cons_of_lt {items : List α} {item : α} (h : ∀ other ∈ items, key other < key item) :
    sortBy key (item :: items) = sortBy key items ++ [item] := by
  have hall : ∀ other ∈ sortBy key items, ¬ key item ≤ key other := fun other hother =>
    not_le_of_gt (h other ((perm_sortBy items).mem_iff.mp hother))
  have htake : (sortBy key items).takeWhile (fun b => decide ¬key item ≤ key b) = sortBy key items :=
    List.takeWhile_eq_self_iff.mpr fun other hother => by simpa using hall other hother
  have hdrop : (sortBy key items).dropWhile (fun b => decide ¬key item ≤ key b) = [] :=
    List.dropWhile_eq_nil_iff.mpr fun other hother => by simpa using hall other hother
  have hinsert := List.orderedInsert_eq_take_drop (fun a b => key a ≤ key b) item (sortBy key items)
  rw [sortBy, List.insertionSort_cons]
  exact hinsert.trans (by rw [htake, hdrop])

end SortBy

/-! ## Lines -/

/-- The lines of a text, without the empty ones. -/
def lines {α : Type} [DecidableEq α] (separator : α) (text : List α) : List (List α) :=
  (text.splitOn separator).filter (· ≠ [])

/-- Is the last line of a text ended, if there is one? -/
def IsEnded {α : Type} (separator : α) (text : List α) : Prop :=
  text = [] ∨ text.getLast? = some separator

instance {α : Type} [DecidableEq α] (separator : α) (text : List α) :
    Decidable (IsEnded separator text) :=
  inferInstanceAs (Decidable (_ ∨ _))

theorem lines_append {α : Type} [DecidableEq α] {separator : α} {text : List α}
    (h : IsEnded separator text) (rest : List α) :
    lines separator (text ++ rest) = lines separator text ++ lines separator rest := by
  cases h with
  | inl hempty =>
      rw [hempty]
      rfl
  | inr hlast =>
      obtain ⟨front, hfront⟩ := List.getLast?_eq_some_iff.mp hlast
      have hback : (separator :: rest : List α) = [separator] ++ rest := rfl
      rw [hfront, List.append_assoc, ← hback, lines, lines, lines, List.splitOn_append_cons_self,
        List.splitOn_append_cons_self, List.filter_append, List.filter_append]
      simp

/-- A line that is ended is one line. -/
theorem lines_singleton {α : Type} [DecidableEq α] {separator : α} {line : List α}
    (hne : line ≠ []) (h : separator ∉ line) : lines separator (line ++ [separator]) = [line] := by
  rw [lines, List.splitOn_append_cons_self, List.splitOn_eq_singleton h]
  simp [hne]

/-- A text whose last line is not ended has this line at its end. -/
theorem exists_openLine {α : Type} {separator : α} {text : List α} (h : ¬ IsEnded separator text) :
    ∃ front line, text = front ++ line ∧ IsEnded separator front ∧ line ≠ [] ∧ separator ∉ line := by
  induction text with
  | nil => exact absurd (.inl rfl) h
  | cons c rest ih =>
      have hc : ¬ IsEnded separator rest ∨ rest = [] ∧ c ≠ separator := by
        by_cases hrest : rest = []
        · refine .inr ⟨hrest, fun hsame => h (.inr ?_)⟩
          rw [hrest, hsame, List.getLast?_singleton]
        · refine .inl fun hended => h (.inr ?_)
          rw [List.getLast?_cons_of_ne_nil hrest]
          exact hended.resolve_left hrest
      cases hc with
      | inr hlast =>
          exact ⟨[], [c], by rw [hlast.1, List.nil_append], .inl rfl, by simp, by simpa using hlast.2.symm⟩
      | inl hopen =>
          obtain ⟨front, line, hrest, hended, hne, hline⟩ := ih hopen
          by_cases hwithin : front = [] ∧ c ≠ separator
          · refine ⟨[], c :: line, by rw [hrest, hwithin.1]; rfl, .inl rfl, by simp, ?_⟩
            rw [List.mem_cons, not_or]
            exact ⟨hwithin.2.symm, hline⟩
          · refine ⟨c :: front, line, by rw [hrest, List.cons_append], .inr ?_, hne, hline⟩
            cases hended with
            | inl hempty =>
                rw [not_and, not_not] at hwithin
                rw [hempty, hwithin hempty, List.getLast?_singleton]
            | inr hlast => rw [List.getLast?_cons, hlast, Option.getD_some]

theorem lines_openLine {α : Type} [DecidableEq α] {separator : α} {line : List α} (hne : line ≠ [])
    (h : separator ∉ line) : lines separator line = [line] := by
  rw [lines, List.splitOn_eq_singleton h]
  simp [hne]

/-- Lines, each of them ended. -/
def unlines {α : Type} (separator : α) (texts : List (List α)) : List α :=
  texts.flatMap fun text => text ++ [separator]

/-- **Lines that were put together** are what is read of the text. -/
theorem lines_unlines {α : Type} [DecidableEq α] {separator : α} {texts : List (List α)}
    (h : ∀ text ∈ texts, text ≠ [] ∧ separator ∉ text) :
    lines separator (unlines separator texts) = texts := by
  induction texts with
  | nil => rfl
  | cons text rest ih =>
      rw [List.forall_mem_cons] at h
      have hended : IsEnded separator (text ++ [separator]) := .inr List.getLast?_concat
      rw [unlines, List.flatMap_cons, lines_append hended, lines_singleton h.1.1 h.1.2]
      exact congrArg _ (ih h.2)

end AtlasManager.Lib
