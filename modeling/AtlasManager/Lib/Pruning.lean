import Mathlib.Data.List.Nodup
import Mathlib.Tactic.Common

/-!
# AtlasManager.Lib.Pruning

What is removed from a list by bounds on the number of items and a test of their age.

* `removedFront` -- a loop from the front, which ends at the first item that stays;
* `removedAnywhere` -- a filter, for which an item counts what stands behind it;
* `withinBounds_front`, `withinBounds_anywhere` -- both keep to the bounds;
* `removedFront_again`, `removedAnywhere_again` -- a second run removes nothing;
* `oldestRemoved_iff` -- when the filter removes the oldest items only.
-/

namespace AtlasManager.Lib

variable {α : Type}

/-- Is an item to be removed, of which `count` are left from this one on? -/
def isRemovable (least most count : Nat) (old : Bool) : Bool := least < count && (most < count || old)

theorem isRemovable_mono {least most count count' : Nat} {old old' : Bool} (hcount : count ≤ count')
    (hold : old = true → old' = true) (h : isRemovable least most count old = true) :
    isRemovable least most count' old' = true := by
  simp only [isRemovable, Bool.and_eq_true, decide_eq_true_eq, Bool.or_eq_true] at h ⊢
  grind

/-- What a run over a list removes and keeps: at least `least` items are kept, or all, at most `most`,
and an item is removed where more than `most` are left at its turn, or where it is old. -/
structure WithinBounds (least most : Nat) (old : α → Bool) (items removed kept : List α) : Prop where
  perm : (removed ++ kept).Perm items
  sublist : kept.Sublist items
  atLeast : min least items.length ≤ kept.length
  atMost : kept.length ≤ most
  atTurn : ∀ i item, removed[i]? = some item → most < items.length - i ∨ old item = true

/-- What is left without the keys that were removed is what is kept, where no two items have one key. -/
theorem filter_removed_keys {κ : Type} [DecidableEq κ] {key : α → κ} {items removed kept : List α}
    (hperm : (removed ++ kept).Perm items) (hsublist : kept.Sublist items)
    (hnodup : (items.map key).Nodup) : (items.filter fun item => key item ∉ removed.map key) = kept := by
  have hkeys : (removed.map key ++ kept.map key).Nodup := by
    rw [← List.map_append]
    exact (hperm.map key).nodup_iff.mpr hnodup
  have hgone : (removed.filter fun item => key item ∉ removed.map key) = [] := by
    rw [List.filter_eq_nil_iff]
    intro item hitem
    simpa using ⟨item, hitem, rfl⟩
  have hstays : (kept.filter fun item => key item ∉ removed.map key) = kept := by
    rw [List.filter_eq_self]
    intro item hitem
    have hapart := List.disjoint_right.mp (List.disjoint_of_nodup_append hkeys)
      (List.mem_map_of_mem (f := key) hitem)
    simpa using hapart
  have hleft := hperm.filter fun item => key item ∉ removed.map key
  rw [List.filter_append, hgone, hstays, List.nil_append] at hleft
  have hpart := hsublist.filter fun item => key item ∉ removed.map key
  rw [hstays] at hpart
  exact (hpart.eq_of_length hleft.length_eq).symm

/-! ## A loop from the front -/

section Front

variable (least most : Nat) (old : α → Bool)

def removedFront : List α → List α
  | [] => []
  | item :: rest =>
    if isRemovable least most (rest.length + 1) (old item) then item :: removedFront rest else []

def keptBehind : List α → List α
  | [] => []
  | item :: rest =>
    if isRemovable least most (rest.length + 1) (old item) then keptBehind rest else item :: rest

variable {least most old}

theorem removedFront_append (items : List α) :
    removedFront least most old items ++ keptBehind least most old items = items := by
  induction items with
  | nil => rfl
  | cons item rest ih =>
      rw [removedFront, keptBehind]
      by_cases h : isRemovable least most (rest.length + 1) (old item) = true
      · rw [if_pos h, if_pos h, List.cons_append, ih]
      · rw [if_neg h, if_neg h, List.nil_append]

theorem removedFront_again (items : List α) :
    removedFront least most old (keptBehind least most old items) = [] := by
  induction items with
  | nil => rfl
  | cons item rest ih =>
      rw [keptBehind]
      by_cases h : isRemovable least most (rest.length + 1) (old item) = true
      · rw [if_pos h, ih]
      · rw [if_neg h, removedFront, if_neg h]

/-- Nothing is removed exactly where the first item stays. -/
theorem removedFront_eq_nil_iff {items : List α} : removedFront least most old items = [] ↔
    ∀ item ∈ items.head?, isRemovable least most items.length (old item) ≠ true := by
  cases items with
  | nil => simp [removedFront]
  | cons item rest =>
      rw [removedFront, List.head?_cons, List.length_cons]
      by_cases h : isRemovable least most (rest.length + 1) (old item) = true
      · simp [h]
      · simp [h]

theorem min_le_keptBehind (items : List α) :
    min least items.length ≤ (keptBehind least most old items).length := by
  induction items with
  | nil => simp
  | cons item rest ih =>
      rw [keptBehind]
      by_cases h : isRemovable least most (rest.length + 1) (old item) = true
      · rw [if_pos h]
        simp only [isRemovable, Bool.and_eq_true, decide_eq_true_eq] at h
        rw [List.length_cons]
        omega
      · rw [if_neg h]
        exact Nat.min_le_right _ _

theorem keptBehind_le_max (hle : least ≤ most) (items : List α) :
    (keptBehind least most old items).length ≤ most := by
  induction items with
  | nil => simp [keptBehind]
  | cons item rest ih =>
      rw [keptBehind]
      by_cases h : isRemovable least most (rest.length + 1) (old item) = true
      · rw [if_pos h]
        exact ih
      · rw [if_neg h, List.length_cons]
        simp only [isRemovable, Bool.and_eq_true, decide_eq_true_eq, Bool.or_eq_true] at h
        grind

theorem removedFront_atTurn (items : List α) {i : Nat} {item : α}
    (h : (removedFront least most old items)[i]? = some item) :
    most < items.length - i ∨ old item = true := by
  induction items generalizing i with
  | nil => simp [removedFront] at h
  | cons first rest ih =>
      rw [removedFront] at h
      by_cases hfirst : isRemovable least most (rest.length + 1) (old first) = true
      · rw [if_pos hfirst] at h
        cases i with
        | zero =>
            rw [List.getElem?_cons_zero, Option.some.injEq] at h
            simp only [isRemovable, Bool.and_eq_true, decide_eq_true_eq, Bool.or_eq_true] at hfirst
            rw [← h, List.length_cons]
            exact hfirst.2
        | succ i =>
            rw [List.getElem?_cons_succ] at h
            have hrest := ih h
            rw [List.length_cons]
            grind
      · rw [if_neg hfirst] at h
        simp at h

/-- **The loop keeps to the bounds.** -/
theorem withinBounds_front (hle : least ≤ most) (items : List α) :
    WithinBounds least most old items (removedFront least most old items) (keptBehind least most old items) where
  perm := List.Perm.of_eq (removedFront_append items)
  sublist := by
    have hsuffix := List.sublist_append_right (removedFront least most old items)
      (keptBehind least most old items)
    rwa [removedFront_append] at hsuffix
  atLeast := min_le_keptBehind items
  atMost := keptBehind_le_max hle items
  atTurn := fun _ _ h => removedFront_atTurn items h

end Front

/-! ## A filter -/

/-- The items, each with the number of those from it on. -/
def counted : List α → List (α × Nat)
  | [] => []
  | item :: rest => (item, rest.length + 1) :: counted rest

theorem map_fst_counted (items : List α) : (counted items).map Prod.fst = items := by
  induction items with
  | nil => rfl
  | cons item rest ih => rw [counted, List.map_cons, ih]

section Anywhere

variable (least most : Nat) (old : α → Bool)

def removedAnywhere : List α → List α
  | [] => []
  | item :: rest =>
    if isRemovable least most (rest.length + 1) (old item) then item :: removedAnywhere rest
    else removedAnywhere rest

def keptAnywhere : List α → List α
  | [] => []
  | item :: rest =>
    if isRemovable least most (rest.length + 1) (old item) then keptAnywhere rest
    else item :: keptAnywhere rest

/-- No item that is to be removed stands before an older one that is to be kept. -/
def InTurn (time : α → Int) (items : List α) : Prop :=
  (counted items).Pairwise fun a b => time b.1 < time a.1 →
    isRemovable least most a.2 (old a.1) = true → isRemovable least most b.2 (old b.1) = true

variable {least most old}

theorem mem_removedAnywhere {items : List α} {item : α} :
    item ∈ removedAnywhere least most old items ↔
      ∃ count, (item, count) ∈ counted items ∧ isRemovable least most count (old item) = true := by
  induction items with
  | nil => simp [removedAnywhere, counted]
  | cons first rest ih =>
      rw [removedAnywhere, counted]
      by_cases h : isRemovable least most (rest.length + 1) (old first) = true
      · rw [if_pos h, List.mem_cons, ih]
        grind
      · rw [if_neg h, ih]
        grind

theorem mem_keptAnywhere {items : List α} {item : α} :
    item ∈ keptAnywhere least most old items ↔
      ∃ count, (item, count) ∈ counted items ∧ isRemovable least most count (old item) = false := by
  induction items with
  | nil => simp [keptAnywhere, counted]
  | cons first rest ih =>
      rw [keptAnywhere, counted]
      by_cases h : isRemovable least most (rest.length + 1) (old first) = true
      · rw [if_pos h, ih]
        grind
      · rw [if_neg h, List.mem_cons, ih]
        grind

/-- The filter over the items with their places in the whole list. -/
theorem map_filter_zipIdx (items : List α) (k total : Nat) (htotal : total = k + items.length) :
    ((items.zipIdx k).filter fun place =>
      isRemovable least most (total - place.2) (old place.1)).map Prod.fst =
        removedAnywhere least most old items := by
  induction items generalizing k with
  | nil => simp [removedAnywhere]
  | cons item rest ih =>
      rw [List.length_cons] at htotal
      have hrest := ih (k + 1) (by omega)
      have hcount : total - k = rest.length + 1 := by omega
      rw [List.zipIdx_cons, removedAnywhere]
      by_cases h : isRemovable least most (rest.length + 1) (old item) = true
      · rw [List.filter_cons_of_pos (by rw [hcount]; exact h), List.map_cons, hrest, if_pos h]
      · rw [List.filter_cons_of_neg (by rw [hcount]; exact h), hrest, if_neg h]

theorem removedAnywhere_perm (items : List α) :
    (removedAnywhere least most old items ++ keptAnywhere least most old items).Perm items := by
  induction items with
  | nil => exact .nil
  | cons item rest ih =>
      rw [removedAnywhere, keptAnywhere]
      by_cases h : isRemovable least most (rest.length + 1) (old item) = true
      · rw [if_pos h, if_pos h, List.cons_append]
        exact ih.cons item
      · rw [if_neg h, if_neg h]
        exact List.perm_middle.trans (ih.cons item)

theorem keptAnywhere_sublist (items : List α) : (keptAnywhere least most old items).Sublist items := by
  induction items with
  | nil => exact .slnil
  | cons item rest ih =>
      rw [keptAnywhere]
      by_cases h : isRemovable least most (rest.length + 1) (old item) = true
      · rw [if_pos h]
        exact ih.cons item
      · rw [if_neg h]
        exact ih.cons_cons item

theorem min_le_keptAnywhere (items : List α) :
    min least items.length ≤ (keptAnywhere least most old items).length := by
  induction items with
  | nil => simp
  | cons item rest ih =>
      rw [keptAnywhere]
      by_cases h : isRemovable least most (rest.length + 1) (old item) = true
      · rw [if_pos h]
        simp only [isRemovable, Bool.and_eq_true, decide_eq_true_eq] at h
        rw [List.length_cons]
        omega
      · rw [if_neg h, List.length_cons, List.length_cons]
        omega

theorem keptAnywhere_le_max (hle : least ≤ most) (items : List α) :
    (keptAnywhere least most old items).length ≤ most := by
  induction items with
  | nil => simp [keptAnywhere]
  | cons item rest ih =>
      rw [keptAnywhere]
      by_cases h : isRemovable least most (rest.length + 1) (old item) = true
      · rw [if_pos h]
        exact ih
      · rw [if_neg h, List.length_cons]
        have hkept : (keptAnywhere least most old rest).length ≤ rest.length :=
          (keptAnywhere_sublist rest).length_le
        simp only [isRemovable, Bool.and_eq_true, decide_eq_true_eq, Bool.or_eq_true] at h
        grind

theorem removedAnywhere_atTurn (items : List α) {i : Nat} {item : α}
    (h : (removedAnywhere least most old items)[i]? = some item) :
    most < items.length - i ∨ old item = true := by
  induction items generalizing i with
  | nil => simp [removedAnywhere] at h
  | cons first rest ih =>
      rw [removedAnywhere] at h
      rw [List.length_cons]
      by_cases hfirst : isRemovable least most (rest.length + 1) (old first) = true
      · rw [if_pos hfirst] at h
        cases i with
        | zero =>
            rw [List.getElem?_cons_zero, Option.some.injEq] at h
            simp only [isRemovable, Bool.and_eq_true, decide_eq_true_eq, Bool.or_eq_true] at hfirst
            rw [← h]
            exact hfirst.2
        | succ i =>
            rw [List.getElem?_cons_succ] at h
            have hrest := ih h
            grind
      · rw [if_neg hfirst] at h
        have hrest := ih h
        grind

/-- **The filter keeps to the bounds.** -/
theorem withinBounds_anywhere (hle : least ≤ most) (items : List α) :
    WithinBounds least most old items (removedAnywhere least most old items)
      (keptAnywhere least most old items) where
  perm := removedAnywhere_perm items
  sublist := keptAnywhere_sublist items
  atLeast := min_le_keptAnywhere items
  atMost := keptAnywhere_le_max hle items
  atTurn := fun _ _ h => removedAnywhere_atTurn items h

theorem removedAnywhere_again (items : List α) :
    removedAnywhere least most old (keptAnywhere least most old items) = [] := by
  induction items with
  | nil => rfl
  | cons item rest ih =>
      rw [keptAnywhere]
      by_cases h : isRemovable least most (rest.length + 1) (old item) = true
      · rw [if_pos h, ih]
      · rw [if_neg h, removedAnywhere, ih, if_neg]
        -- fewer items are left than before
        have hkept : (keptAnywhere least most old rest).length ≤ rest.length :=
          (keptAnywhere_sublist rest).length_le
        intro hagain
        exact h (isRemovable_mono (by omega) id hagain)

theorem counted_pairwise (items : List α) : (counted items).Pairwise fun a b => b.2 < a.2 := by
  have hle : ∀ items : List α, ∀ a ∈ counted items, a.2 ≤ items.length := by
    intro items
    induction items with
    | nil => simp [counted]
    | cons item rest ih =>
        intro a ha
        rw [counted, List.mem_cons] at ha
        rw [List.length_cons]
        grind
  induction items with
  | nil => exact .nil
  | cons item rest ih =>
      rw [counted]
      refine List.pairwise_cons.mpr ⟨fun b hb => ?_, ih⟩
      have hb := hle rest b hb
      dsimp only
      omega

/-- **The filter removes the oldest items only** where no item to be removed stands before an older
one to be kept. -/
theorem oldestRemoved_iff {time : α → Int} {cutoff : Int} {items : List α}
    (hold : ∀ item, old item = decide (time item < cutoff)) :
    (∀ item ∈ removedAnywhere least most old items, ∀ other ∈ keptAnywhere least most old items,
      time item ≤ time other) ↔ InTurn least most old time items := by
  constructor
  · intro h
    refine List.Pairwise.imp_of_mem (fun {a b} ha hb _ htime hremovable => ?_) (counted_pairwise items)
    by_contra hkept
    have hle := h a.1 (mem_removedAnywhere.mpr ⟨a.2, ha, hremovable⟩) b.1
      (mem_keptAnywhere.mpr ⟨b.2, hb, by simpa using hkept⟩)
    omega
  · intro h item hitem other hother
    obtain ⟨count, hcount, hremovable⟩ := mem_removedAnywhere.mp hitem
    obtain ⟨count', hcount', hkept⟩ := mem_keptAnywhere.mp hother
    let Apart := fun a b : α × Nat => isRemovable least most a.2 (old a.1) = true →
      isRemovable least most b.2 (old b.1) = false → time a.1 ≤ time b.1
    have hboth : ∀ ⦃a⦄, a ∈ counted items → ∀ ⦃b⦄, b ∈ counted items → Apart a b := by
      refine List.Pairwise.forall_of_forall_of_flip (fun a _ => ?_) (h.imp fun {a b} hab => ?_)
        ((counted_pairwise items).imp fun {a b} hab => ?_)
      · intro _ _
        exact Int.le_refl _
      · intro hremovable hkept
        by_contra hlt
        rw [hab (by omega) hremovable] at hkept
        simp at hkept
      · -- here the older item stands behind, where fewer are left
        intro hremovable hkept
        by_contra hlt
        have hagain : isRemovable least most a.2 (old a.1) = true := by
          refine isRemovable_mono (Nat.le_of_lt hab) (fun hb => ?_) hremovable
          rw [hold, decide_eq_true_eq] at hb ⊢
          omega
        rw [hagain] at hkept
        simp at hkept
    exact hboth hcount hcount' hremovable hkept

end Anywhere

end AtlasManager.Lib
