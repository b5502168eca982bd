import Mathlib

/-!
# AtlasManager.Lib.ArraySort

Sorting a list by a comparison, as `Array.prototype.sort` does.

What a sort does is specified only for a *consistent* comparison: it reorders the
elements, and sorts them when the comparison is consistent on them.

* `ConsistentOn` -- a comparison that is consistent on the elements of a list;
* `ArraySort` -- a sort, with what is specified of it;
* `ArraySort.insertion` -- insertion sort is one.
-/

namespace AtlasManager.Lib

variable {α : Type}

/-- The comparison is a total preorder on the elements of the list. -/
structure ConsistentOn (cmp : α → α → Ordering) (l : List α) : Prop where
  swap : ∀ a ∈ l, ∀ b ∈ l, cmp b a = (cmp a b).swap
  trans : ∀ a ∈ l, ∀ b ∈ l, ∀ c ∈ l, cmp a b ≠ .gt → cmp b c ≠ .gt → cmp a c ≠ .gt

theorem ConsistentOn.flip {cmp : α → α → Ordering} {l : List α} (h : ConsistentOn cmp l) :
    ConsistentOn (fun a b => cmp b a) l where
  swap a ha b hb := h.swap b hb a ha
  trans a ha b hb c hc hab hbc := h.trans c hc b hb a ha hbc hab

theorem ConsistentOn.subset {cmp : α → α → Ordering} {l l' : List α} (h : ConsistentOn cmp l)
    (hsub : l' ⊆ l) : ConsistentOn cmp l' where
  swap a ha b hb := h.swap a (hsub ha) b (hsub hb)
  trans a ha b hb c hc := h.trans a (hsub ha) b (hsub hb) c (hsub hc)

/-- A sort, with what is specified of it. -/
structure ArraySort (α : Type) where
  sort : (α → α → Ordering) → List α → List α
  perm : ∀ cmp l, (sort cmp l).Perm l
  sorted : ∀ cmp l, ConsistentOn cmp l → (sort cmp l).Pairwise fun a b => cmp a b ≠ .gt

@[simp] theorem ArraySort.mem_sort (sort : ArraySort α) {cmp : α → α → Ordering} {l : List α} {a : α} :
    a ∈ sort.sort cmp l ↔ a ∈ l :=
  (sort.perm cmp l).mem_iff

/-! ## Comparisons by a key -/

/-- A comparison by the keys of the elements. -/
theorem consistentOn_of_key {κ : Type} [LinearOrder κ] {cmp : α → α → Ordering} {l : List α}
    (key : α → κ) (h : ∀ a ∈ l, ∀ b ∈ l, cmp a b = compare (key a) (key b)) : ConsistentOn cmp l where
  swap a ha b hb := by rw [h b hb a ha, h a ha b hb, Std.OrientedOrd.eq_swap]
  trans a ha b hb c hc hab hbc := by
    rw [h a ha b hb, ne_eq, compare_gt_iff_gt, not_lt] at hab
    rw [h b hb c hc, ne_eq, compare_gt_iff_gt, not_lt] at hbc
    rw [h a ha c hc, ne_eq, compare_gt_iff_gt, not_lt]
    exact hab.trans hbc

/-! ## Insertion sort -/

section Insertion

variable {cmp : α → α → Ordering}

/-- Where the comparison is consistent, an element is inserted at its place. -/
theorem pairwise_orderedInsert {a : α} {l : List α} (h : ConsistentOn cmp (a :: l))
    (hl : l.Pairwise fun a b => cmp a b ≠ .gt) :
    (l.orderedInsert (fun a b => cmp a b ≠ .gt) a).Pairwise fun a b => cmp a b ≠ .gt := by
  induction l with
  | nil => exact List.pairwise_singleton _ _
  | cons b l ih =>
      obtain ⟨hfirst, hrest⟩ := List.pairwise_cons.mp hl
      have ha : a ∈ a :: b :: l := List.mem_cons_self
      have hb : b ∈ a :: b :: l := List.mem_cons_of_mem _ List.mem_cons_self
      rw [List.orderedInsert]
      by_cases hab : cmp a b ≠ .gt
      · rw [if_pos hab]
        refine List.pairwise_cons.mpr ⟨fun c hc => ?_, hl⟩
        rcases List.mem_cons.mp hc with rfl | hc
        · exact hab
        · exact h.trans a ha b hb c (List.mem_cons_of_mem _ (List.mem_cons_of_mem _ hc)) hab (hfirst c hc)
      · rw [if_neg hab]
        have hsub : a :: l ⊆ a :: b :: l := by
          intro c hc
          rcases List.mem_cons.mp hc with rfl | hc
          · exact ha
          · exact List.mem_cons_of_mem _ (List.mem_cons_of_mem _ hc)
        refine List.pairwise_cons.mpr ⟨fun c hc => ?_, ih (h.subset hsub) hrest⟩
        rcases List.mem_cons.mp ((List.perm_orderedInsert _ a l).mem_iff.mp hc) with rfl | hc
        · -- the element was not before `b`, so it is after it
          rw [h.swap c ha b hb, not_not.mp hab]
          decide
        · exact hfirst c hc

theorem pairwise_insertionSort {l : List α} (h : ConsistentOn cmp l) :
    (l.insertionSort fun a b => cmp a b ≠ .gt).Pairwise fun a b => cmp a b ≠ .gt := by
  induction l with
  | nil => exact .nil
  | cons a l ih =>
      have hsub : a :: l.insertionSort (fun a b => cmp a b ≠ .gt) ⊆ a :: l := by
        intro x hx
        rcases List.mem_cons.mp hx with rfl | hx
        · exact List.mem_cons_self
        · exact List.mem_cons_of_mem _ ((List.perm_insertionSort _ l).mem_iff.mp hx)
      exact pairwise_orderedInsert (h.subset hsub) (ih (h.subset fun _ => List.mem_cons_of_mem _))

end Insertion

/-- Insertion sort. -/
def ArraySort.insertion (α : Type) : ArraySort α where
  sort cmp l := l.insertionSort fun a b => cmp a b ≠ .gt
  perm _ l := List.perm_insertionSort _ l
  sorted _ _ h := pairwise_insertionSort h

end AtlasManager.Lib
