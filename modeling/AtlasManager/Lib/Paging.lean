import Mathlib.Data.List.Basic

/-!
# AtlasManager.Lib.Paging

Pages of a list in the order of a key, each from behind the last item of the one before it.

* `pastCursor` -- the items that match and stand behind a cursor;
* `eq_pastCursor_of_append` -- behind the last one of some of them stand all others;
* `pastCursor_page` -- **a page and the pages behind it** are all that match, also where items were
  appended in between.
-/

namespace AtlasManager.Lib

variable {α : Type} (key : α → Nat) (matching : α → Bool)

/-- The items that match and whose key is larger than a cursor. -/
def pastCursor (after : Nat) (items : List α) : List α :=
  items.filter fun item => matching item && decide (after < key item)

variable {key matching}

theorem pastCursor_append (after : Nat) (front back : List α) :
    pastCursor key matching after (front ++ back) =
      pastCursor key matching after front ++ pastCursor key matching after back := List.filter_append ..

theorem mem_pastCursor {after : Nat} {items : List α} {item : α} :
    item ∈ pastCursor key matching after items ↔ item ∈ items ∧ matching item = true ∧ after < key item := by
  rw [pastCursor, List.mem_filter, Bool.and_eq_true, decide_eq_true_eq]

theorem pastCursor_pastCursor {after later : Nat} (hle : after ≤ later) (items : List α) :
    pastCursor key matching later (pastCursor key matching after items) = pastCursor key matching later items := by
  rw [pastCursor, pastCursor, pastCursor, List.filter_filter]
  refine List.filter_congr fun item _ => ?_
  by_cases hlater : later < key item
  · have hafter : after < key item := by omega
    simp [hlater, hafter]
  · simp [hlater]

/-- Items whose keys all are larger than a cursor stand behind it. -/
theorem pastCursor_congr {after later : Nat} {items : List α}
    (h : ∀ item ∈ items, after < key item ∧ later < key item) :
    pastCursor key matching after items = pastCursor key matching later items := by
  refine List.filter_congr fun item hitem => ?_
  obtain ⟨hafter, hlater⟩ := h item hitem
  rw [decide_eq_true hafter, decide_eq_true hlater]

theorem pastCursor_eq_nil {after : Nat} {items : List α} (h : ∀ item ∈ items, key item ≤ after) :
    pastCursor key matching after items = [] := by
  rw [pastCursor, List.filter_eq_nil_iff]
  intro item hitem
  have hle := h item hitem
  simp
  omega

/-- Behind the last one of the first items that match stand all others. -/
theorem eq_pastCursor_of_append {items front back : List α} {after : Nat} {item : α}
    (hsorted : items.Pairwise fun a b => key a < key b)
    (h : pastCursor key matching after items = front ++ back) (hlast : front.getLast? = some item) :
    back = pastCursor key matching (key item) items := by
  have hpairs : (front ++ back).Pairwise fun a b => key a < key b := by
    rw [← h]
    exact hsorted.filter _
  obtain ⟨hfront, -, hacross⟩ := List.pairwise_append.mp hpairs
  have hmem : item ∈ front := List.mem_of_getLast? hlast
  have hafter : after < key item := by
    have hin : item ∈ pastCursor key matching after items := by
      rw [h]
      exact List.mem_append_left _ hmem
    exact (mem_pastCursor.mp hin).2.2
  rw [← pastCursor_pastCursor (Nat.le_of_lt hafter) items, h, pastCursor_append, pastCursor_eq_nil, List.nil_append]
  · rw [pastCursor, eq_comm, List.filter_eq_self]
    intro other hother
    have hin : other ∈ pastCursor key matching after items := by
      rw [h]
      exact List.mem_append_right _ hother
    have hlt : key item < key other := hacross item hmem other hother
    simp [(mem_pastCursor.mp hin).2.1, hlt]
  · -- the last item has the largest key of those in front
    intro other hother
    obtain ⟨init, rfl⟩ := List.getLast?_eq_some_iff.mp hlast
    rw [List.mem_append, List.mem_singleton] at hother
    cases hother with
    | inl hinit => exact Nat.le_of_lt ((List.pairwise_append.mp hfront).2.2 other hinit item (.head _))
    | inr hsame => exact Nat.le_of_eq (congrArg key hsame)

/-- **A page and what stands behind it** are all that match, also with items that were appended after
the page was made. -/
theorem pastCursor_page {items more : List α} {after limit : Nat} {item : α}
    (hsorted : (items ++ more).Pairwise fun a b => key a < key b)
    (hlast : ((pastCursor key matching after items).take limit).getLast? = some item) :
    pastCursor key matching after (items ++ more) =
      (pastCursor key matching after items).take limit ++ pastCursor key matching (key item) (items ++ more) := by
  have hsplit : pastCursor key matching after (items ++ more) =
      (pastCursor key matching after items).take limit ++
        ((pastCursor key matching after items).drop limit ++ pastCursor key matching after more) := by
    rw [pastCursor_append, ← List.append_assoc, List.take_append_drop]
  rw [← eq_pastCursor_of_append hsorted hsplit hlast, hsplit]

end AtlasManager.Lib
