import AtlasManager.Lib.Calendar

/-!
# AtlasManager.Lib.Grid

The points a loop visits that starts at an instant and goes on minute by minute,
and the first of them with a property.

* `mem_minutesBelow` -- which points are visited;
* `find?_minutesBelow` -- the point found is the first with the property;
* `find?_minutesBelow_isLeast` -- when the point found is the first instant of
  all with a property that changes at minutes only.
-/

namespace AtlasManager.Lib

/-- The points `first`, `first` + 1 min, … below `last`. -/
def minutesBelow (first last : Int) : List Int :=
  (List.range ((last - first + 59999) / 60000).toNat).map fun (k : Nat) => first + 60000 * k

/-- The points up to and including `last`. -/
def minutesUpTo (first last : Int) : List Int := minutesBelow first (last + 1)

theorem mem_minutesBelow {first last x : Int} :
    x ∈ minutesBelow first last ↔ first ≤ x ∧ x < last ∧ (x - first) % 60000 = 0 := by
  simp only [minutesBelow, List.mem_map, List.mem_range]
  constructor
  · rintro ⟨k, hk, rfl⟩
    omega
  · rintro ⟨hle, hlt, hmod⟩
    exact ⟨((x - first) / 60000).toNat, by omega, by omega⟩

theorem mem_minutesUpTo {first last x : Int} :
    x ∈ minutesUpTo first last ↔ first ≤ x ∧ x ≤ last ∧ (x - first) % 60000 = 0 := by
  rw [minutesUpTo, mem_minutesBelow]
  omega

theorem pairwise_minutesBelow (first last : Int) : (minutesBelow first last).Pairwise (· < ·) := by
  rw [minutesBelow, List.pairwise_map]
  refine List.pairwise_lt_range.imp fun h => ?_
  omega

theorem pairwise_minutesUpTo (first last : Int) : (minutesUpTo first last).Pairwise (· < ·) :=
  pairwise_minutesBelow _ _

theorem minutesUpTo_self (x : Int) : minutesUpTo x x = [x] := by
  simp [minutesUpTo, minutesBelow]

/-- A loop that stops at `mid` and goes on at the next point visits what one loop does. -/
theorem minutesUpTo_append {first mid next last : Int} (hgrid : (next - first) % 60000 = 0)
    (hfirst : first ≤ next) (hmid : mid < next) (hnext : next ≤ mid + 60000) (hlast : mid ≤ last) :
    minutesUpTo first mid ++ minutesUpTo next last = minutesUpTo first last := by
  have hpairwise : (minutesUpTo first mid ++ minutesUpTo next last).Pairwise (· < ·) := by
    rw [List.pairwise_append]
    refine ⟨pairwise_minutesUpTo _ _, pairwise_minutesUpTo _ _, fun a ha b hb => ?_⟩
    rw [mem_minutesUpTo] at ha hb
    omega
  refine hpairwise.eq_of_mem_iff (pairwise_minutesUpTo _ _) fun x => ?_
  simp only [List.mem_append, mem_minutesUpTo]
  omega

/-- The points before and after one that is visited. -/
theorem minutesUpTo_split {first last x : Int} (hx : x ∈ minutesUpTo first last) :
    minutesUpTo first last = minutesUpTo first (x - 1) ++ x :: minutesUpTo (x + 60000) last := by
  rw [mem_minutesUpTo] at hx
  have hpairwise : (minutesUpTo first (x - 1) ++ x :: minutesUpTo (x + 60000) last).Pairwise
      (· < ·) := by
    rw [List.pairwise_append, List.pairwise_cons]
    refine ⟨pairwise_minutesUpTo _ _, ⟨fun b hb => ?_, pairwise_minutesUpTo _ _⟩, ?_⟩
    · rw [mem_minutesUpTo] at hb
      omega
    · intro a ha b hb
      rw [List.mem_cons, mem_minutesUpTo] at hb
      rw [mem_minutesUpTo] at ha
      omega
  refine (pairwise_minutesUpTo _ _).eq_of_mem_iff hpairwise fun y => ?_
  simp only [List.mem_append, List.mem_cons, mem_minutesUpTo]
  omega

/-- Each point comes a minute after the one before it. -/
theorem isChain_minutesBelow (first last : Int) :
    ((first - 60000) :: minutesBelow first last).IsChain fun a b => a = b - 60000 := by
  unfold minutesBelow
  generalize ((last - first + 59999) / 60000).toNat = n
  induction n generalizing first with
  | zero => simp
  | succ n ih =>
      rw [List.range_succ_eq_map, List.map_cons, List.map_map]
      refine List.isChain_cons_cons.mpr ⟨by simp, ?_⟩
      have hrest := ih (first + 60000)
      have hmap : (List.range n).map ((fun k : Nat => first + 60000 * (k : Int)) ∘ Nat.succ) =
          (List.range n).map fun k : Nat => first + 60000 + 60000 * (k : Int) := by
        refine List.map_congr_left fun k _ => ?_
        simp only [Function.comp_apply]
        push_cast
        omega
      rw [hmap]
      simpa using hrest

/-- In an increasing list the element found is the least with the property. -/
theorem find?_eq_some_of_pairwise {l : List Int} (hl : l.Pairwise (· < ·)) {p : Int → Bool}
    {x : Int} : l.find? p = some x ↔ x ∈ l ∧ p x ∧ ∀ y ∈ l, p y → x ≤ y := by
  induction l with
  | nil => simp
  | cons a l ih =>
      obtain ⟨ha, hl⟩ := List.pairwise_cons.mp hl
      rw [List.find?_cons]
      cases hpa : p a with
      | true =>
          simp only [Option.some.injEq, List.mem_cons]
          constructor
          · rintro rfl
            refine ⟨Or.inl rfl, hpa, ?_⟩
            rintro y (rfl | hy) -
            · exact le_refl _
            · exact (ha y hy).le
          · rintro ⟨hx | hx, -, hleast⟩
            · exact hx.symm
            · have := hleast a (Or.inl rfl) hpa
              have := ha x hx
              omega
      | false =>
          simp only [ih hl, List.mem_cons]
          constructor
          · rintro ⟨hx, hpx, hleast⟩
            refine ⟨Or.inr hx, hpx, ?_⟩
            rintro y (rfl | hy) hpy
            · simp [hpa] at hpy
            · exact hleast y hy hpy
          · rintro ⟨rfl | hx, hpx, hleast⟩
            · simp [hpa] at hpx
            · exact ⟨hx, hpx, fun y hy => hleast y (Or.inr hy)⟩

/-- What a search from `first` to below `last` finds. -/
theorem find?_minutesBelow {first last : Int} {p : Int → Bool} {x : Int} :
    (minutesBelow first last).find? p = some x ↔
      x ∈ minutesBelow first last ∧ p x ∧ ∀ y ∈ minutesBelow first last, p y → x ≤ y :=
  find?_eq_some_of_pairwise (pairwise_minutesBelow first last)

theorem find?_minutesUpTo {first last : Int} {p : Int → Bool} {x : Int} :
    (minutesUpTo first last).find? p = some x ↔
      x ∈ minutesUpTo first last ∧ p x ∧ ∀ y ∈ minutesUpTo first last, p y → x ≤ y :=
  find?_eq_some_of_pairwise (pairwise_minutesUpTo first last)

/-! ## Properties that change at minutes only -/

/-- `x` and `y` lie in one minute of a clock that is `offset` ahead. -/
def SameMinute (offset x y : Int) : Prop := (x + offset) / 60000 = (y + offset) / 60000

/-- The instants of a half-open interval with a property. -/
def holdsIn (p : Int → Bool) (first last : Int) : Set Int :=
  {x | first ≤ x ∧ x < last ∧ p x}

/-- The start of a point's minute has what the point has. -/
theorem minuteStart_eq {offset : Int} {p : Int → Bool}
    (hp : ∀ x y, SameMinute offset x y → p x = p y) (t : Int) :
    p (t - (t + offset) % 60000) = p t := by
  refine hp _ _ ?_
  unfold SameMinute
  omega

/-- A search that starts in the middle of a minute misses the start of every
later one, so it is right exactly when it starts at a minute, its first point
has the property, or no point has it. -/
theorem find?_minutesBelow_isLeast {offset : Int} {p : Int → Bool} (first last : Int)
    (hp : ∀ x y, SameMinute offset x y → p x = p y) :
    (match (minutesBelow first last).find? p with
      | some x => IsLeast (holdsIn p first last) x
      | none => holdsIn p first last = ∅) ↔
    (first + offset) % 60000 = 0 ∨ p first = true ∨ holdsIn p first last = ∅ := by
  have hstart := minuteStart_eq hp
  -- the start of a point's minute is visited when the search starts at a minute
  have hvisited : ∀ t, (first + offset) % 60000 = 0 → first ≤ t → t < last →
      t - (t + offset) % 60000 ∈ minutesBelow first last := by
    intro t haligned hle hlt
    rw [mem_minutesBelow]
    omega
  cases hfind : (minutesBelow first last).find? p with
  | none =>
      have hnone : ∀ y ∈ minutesBelow first last, p y = false := by
        simpa using List.find?_eq_none.mp hfind
      simp only
      constructor
      · exact fun h => Or.inr (Or.inr h)
      · intro h
        refine Set.eq_empty_iff_forall_notMem.mpr ?_
        rintro t ⟨hle, hlt, hpt⟩
        rcases h with h | h | h
        · have := hnone _ (hvisited t h hle hlt)
          rw [hstart, hpt] at this
          contradiction
        · have := hnone first (mem_minutesBelow.mpr (by omega))
          rw [h] at this
          contradiction
        · exact Set.eq_empty_iff_forall_notMem.mp h t ⟨hle, hlt, hpt⟩
  | some x =>
      obtain ⟨hx, hpx, hleast⟩ := find?_minutesBelow.mp hfind
      obtain ⟨hle, hlt, hmod⟩ := mem_minutesBelow.mp hx
      simp only
      constructor
      · rintro ⟨-, hlower⟩
        by_contra hnot
        push Not at hnot
        obtain ⟨hunaligned, hpfirst, -⟩ := hnot
        have hne : x ≠ first := by
          rintro rfl
          exact hpfirst hpx
        have hearlier := hlower (show x - (x + offset) % 60000 ∈ holdsIn p first last from
          ⟨by omega, by omega, by rw [hstart]; exact hpx⟩)
        omega
      · intro h
        refine ⟨⟨hle, hlt, hpx⟩, ?_⟩
        rintro t ⟨htle, htlt, hpt⟩
        rcases h with h | h | h
        · have := hleast _ (hvisited t h htle htlt) (by rw [hstart]; exact hpt)
          omega
        · have := hleast first (mem_minutesBelow.mpr (by omega)) h
          omega
        · have hmem : t ∈ holdsIn p first last := ⟨htle, htlt, hpt⟩
          rw [h] at hmem
          exact hmem.elim

end AtlasManager.Lib
