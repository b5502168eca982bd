import AtlasManager.Lib.Protocol

/-!
# AtlasManager.Dashboard.RefreshCoordinator

The sections of the dashboard load and settle independently.

* `step` -- a full refresh, the retry of one section, a load that settles;
* `SectionView.step` -- what a section makes of its own part of a step;
* `newest_loads_decide` -- runs in which the newest loads of the sections render.
-/

namespace AtlasManager.Dashboard.RefreshCoordinator

open AtlasManager.Lib

/-! ## Sections -/

inductive AdministrativeFailureOutcome where
  | unauthorized
  | forbidden
  | busy
  | unavailable
  | invalidResponse
  | networkError
  deriving DecidableEq, Repr

inductive SectionState where
  | loading
  | ready
  | empty (message : String)
  | failed (outcome : AdministrativeFailureOutcome)
  | stale (outcome : AdministrativeFailureOutcome)
  deriving DecidableEq, Repr

/-- How the call of a result's `render` ends. -/
inductive Render where
  | returns
  | throws
  deriving DecidableEq, Repr

inductive SectionLoadResult where
  | ready (render : Render)
  | empty (message : String) (render : Render)
  | failed (outcome : AdministrativeFailureOutcome)
  deriving DecidableEq, Repr

inductive Settlement where
  | resolved (result : SectionLoadResult)
  | rejected
  deriving DecidableEq, Repr

/-- A section loader is not expected to reject; that is a failed read. -/
def Settlement.result : Settlement → SectionLoadResult
  | resolved result => result
  | rejected => .failed .networkError

def SectionLoadResult.renderThrows : SectionLoadResult → Bool
  | ready render => render = .throws
  | empty _ render => render = .throws
  | failed _ => false

/-! ## The coordinator -/

/-- One call of `load`, for the section at this place of the list. -/
structure Load where
  index : Nat
  generation : Nat
  deriving DecidableEq, Repr

/-- What the coordinator does with a load. -/
inductive Event where
  | started (load : Load)
  | rendered (load : Load)
  | reported (load : Load)
  deriving DecidableEq, Repr

structure State where
  generations : String → Nat
  rendered : String → Bool
  /-- The status region of each section. -/
  status : Nat → SectionState
  /-- The loads that have not settled. -/
  loads : List Load
  /-- The newest event comes first. -/
  log : List Event

/-- The regions show that they are loading from the start. -/
def start : State :=
  ⟨fun _ => 0, fun _ => false, fun _ => .loading, [], []⟩

/-- `#apply`: the status to report, unless the render throws. -/
def apply (load : Load) (capability : String) (result : SectionLoadResult) (s : State) :
    Option SectionState × State :=
  let renders (render : Render) (status : SectionState) : Option SectionState × State :=
    let called := { s with log := .rendered load :: s.log }
    match render with
    | .throws => (none, called)
    | .returns => (some status, { called with rendered := Function.update s.rendered capability true })
  match result with
  | .failed outcome =>
    (some (if s.rendered capability then .stale outcome else .failed outcome), s)
  | .ready render => renders render .ready
  | .empty message render => renders render (.empty message)

/-- The part of `#run` after the load has settled. -/
def settled (load : Load) (capability : String) (settlement : Settlement) (s : State) : State :=
  if s.generations capability ≠ load.generation then s
  else
    match apply load capability settlement.result s with
    | (none, s) => s
    | (some status, s) =>
      { s with status := Function.update s.status load.index status, log := .reported load :: s.log }

/-- `#run` up to the `await`.  A loader that throws at once has settled there. -/
def begin (index : Nat) (capability : String) (throwsAtOnce : Bool) (s : State) : State :=
  let generation := s.generations capability + 1
  let load : Load := ⟨index, generation⟩
  let s := { s with
    generations := Function.update s.generations capability generation
    status := Function.update s.status index .loading
    log := .started load :: s.log }
  if throwsAtOnce then settled load capability .rejected s else { s with loads := load :: s.loads }

/-- The sections from this place on. -/
def refresh (throwsAtOnce : Nat → Bool) : Nat → List String → State → State
  | _, [], s => s
  | index, capability :: sections, s =>
    refresh throwsAtOnce (index + 1) sections (begin index capability (throwsAtOnce index) s)

def refreshCapability (sections : List String) (capability : String) (throwsAtOnce : Bool)
    (s : State) : State :=
  match sections.findIdx? (· = capability) with
  | none => s
  | some index => begin index capability throwsAtOnce s

/-- The load is no longer in flight. -/
def State.landed (s : State) (load : Load) : State :=
  { s with loads := s.loads.erase load }

inductive Label where
  | refresh (throwsAtOnce : Nat → Bool)
  | refreshCapability (capability : String) (throwsAtOnce : Bool)
  | settle (load : Load) (settlement : Settlement)

/-- The sections are given by their capabilities. -/
def step (sections : List String) (s : State) : Label → Option State
  | .refresh throwsAtOnce => some (refresh throwsAtOnce 0 sections s)
  | .refreshCapability capability throwsAtOnce =>
    some (refreshCapability sections capability throwsAtOnce s)
  | .settle load settlement =>
    match sections[load.index]? with
    | none => none
    | some capability =>
      if load ∈ s.loads then
        some (settled load capability settlement (s.landed load))
      else none

/-! ## One section on its own -/

/-- What the coordinator keeps of one section. -/
structure SectionView where
  generation : Nat
  rendered : Bool
  status : SectionState

def State.view (s : State) (index : Nat) (capability : String) : SectionView :=
  ⟨s.generations capability, s.rendered capability, s.status index⟩

/-- The part of a step that is about one section. -/
inductive Own where
  | begins (throwsAtOnce : Bool)
  | settles (generation : Nat) (settlement : Settlement)

def Label.own (index : Nat) (capability : String) : Label → Option Own
  | refresh throwsAtOnce => some (.begins (throwsAtOnce index))
  | refreshCapability other throwsAtOnce =>
    if other = capability then some (.begins throwsAtOnce) else none
  | settle load settlement =>
    if load.index = index then some (.settles load.generation settlement) else none

/-- What a section shows for the result of its newest load. -/
def SectionView.shows (v : SectionView) : SectionLoadResult → SectionView
  | .failed outcome => { v with status := if v.rendered then .stale outcome else .failed outcome }
  | .ready .returns => { v with rendered := true, status := .ready }
  | .empty message .returns => { v with rendered := true, status := .empty message }
  | .ready .throws => v
  | .empty _ .throws => v

def SectionView.step (v : SectionView) : Own → SectionView
  | .begins throwsAtOnce =>
    let begun : SectionView := ⟨v.generation + 1, v.rendered, .loading⟩
    if throwsAtOnce then begun.shows (.failed .networkError) else begun
  | .settles generation settlement =>
    if v.generation = generation then v.shows settlement.result else v

/-! ## The property -/

/-- Nothing of a load happens after a newer load of its section was started. -/
def InOrder : Event → Event → Prop
  | .started later, .started earlier =>
    later.index = earlier.index → earlier.generation < later.generation
  | .rendered later, .started earlier =>
    later.index = earlier.index → earlier.generation ≤ later.generation
  | .reported later, .started earlier =>
    later.index = earlier.index → earlier.generation ≤ later.generation
  | _, _ => True

/-- What the coordinator is for. -/
structure Coordinates (sections : List String) (s : State) : Prop where
  newest : s.log.Pairwise InOrder
  /-- A section is what its own loads have made of it. -/
  independent : ∀ label s', step sections s label = some s' →
    ∀ (index : Nat) (capability : String), sections[index]? = some capability →
      s'.view index capability =
        (label.own index capability).elim (s.view index capability) (s.view index capability).step
  /-- A section whose loads have settled is not loading. -/
  settles : ∀ (index : Nat) (generation : Nat), .started ⟨index, generation⟩ ∈ s.log →
    (∀ load ∈ s.loads, load.index ≠ index) → s.status index ≠ .loading

/-- The newest load of a section does not settle with a result whose render throws. -/
def NewestRenders (sections : List String) (s : State) : Label → Prop
  | .settle load settlement => ∀ capability, sections[load.index]? = some capability →
      s.generations capability = load.generation → settlement.result.renderThrows = false
  | _ => True

/-! ## One load -/

section Settled

variable {load : Load} {capability : String} {settlement : Settlement} {s : State}

/-- A load that is not the newest changes nothing. -/
theorem settled_of_ne (h : s.generations capability ≠ load.generation) :
    settled load capability settlement s = s := by
  rw [settled, if_pos h]

theorem settled_of_eq (h : s.generations capability = load.generation) :
    settled load capability settlement s = match apply load capability settlement.result s with
      | (none, s) => s
      | (some status, s) =>
        { s with
          status := Function.update s.status load.index status, log := .reported load :: s.log } := by
  rw [settled, if_neg (not_not.mpr h)]

@[simp] theorem generations_settled :
    (settled load capability settlement s).generations = s.generations := by
  by_cases h : s.generations capability = load.generation
  · rw [settled_of_eq h]
    cases settlement.result with
    | failed outcome => rfl
    | ready render => cases render <;> rfl
    | empty message render => cases render <;> rfl
  · rw [settled_of_ne h]

@[simp] theorem loads_settled : (settled load capability settlement s).loads = s.loads := by
  by_cases h : s.generations capability = load.generation
  · rw [settled_of_eq h]
    cases settlement.result with
    | failed outcome => rfl
    | ready render => cases render <;> rfl
    | empty message render => cases render <;> rfl
  · rw [settled_of_ne h]

/-- What a load that settles adds to the log. -/
theorem log_settled : (settled load capability settlement s).log = s.log ∨
    s.generations capability = load.generation ∧
      ((settled load capability settlement s).log = .rendered load :: s.log ∨
        (settled load capability settlement s).log = .reported load :: s.log ∨
        (settled load capability settlement s).log = .reported load :: .rendered load :: s.log) := by
  by_cases h : s.generations capability = load.generation
  · refine .inr ⟨h, ?_⟩
    rw [settled_of_eq h]
    cases settlement.result with
    | failed outcome => exact .inr (.inl rfl)
    | ready render =>
        cases render with
        | returns => exact .inr (.inr rfl)
        | throws => exact .inl rfl
    | empty message render =>
        cases render with
        | returns => exact .inr (.inr rfl)
        | throws => exact .inl rfl
  · rw [settled_of_ne h]
    exact .inl rfl

variable (load) in
theorem view_settled : (settled load capability settlement s).view load.index capability =
    (s.view load.index capability).step (.settles load.generation settlement) := by
  by_cases h : s.generations capability = load.generation
  · rw [settled_of_eq h, SectionView.step]
    simp only [State.view, h, if_true]
    cases settlement.result with
    | failed outcome => simp [apply, SectionView.shows, h]
    | ready render => cases render <;> simp [apply, SectionView.shows, h]
    | empty message render => cases render <;> simp [apply, SectionView.shows, h]
  · rw [settled_of_ne h, SectionView.step]
    simp [State.view, h]

/-- The other sections stay as they are. -/
theorem view_settled_of_ne {index : Nat} {other : String} (hindex : index ≠ load.index)
    (hother : other ≠ capability) :
    (settled load capability settlement s).view index other = s.view index other := by
  by_cases h : s.generations capability = load.generation
  · rw [settled_of_eq h]
    cases settlement.result with
    | failed outcome => simp [apply, State.view, hindex]
    | ready render => cases render <;> simp [apply, State.view, hindex, hother]
    | empty message render => cases render <;> simp [apply, State.view, hindex, hother]
  · rw [settled_of_ne h]

/-- The newest load that settles takes its section out of loading, when it renders. -/
theorem status_settled_ne_loading (h : s.generations capability = load.generation)
    (hrenders : settlement.result.renderThrows = false) :
    (settled load capability settlement s).status load.index ≠ .loading := by
  rw [settled_of_eq h]
  cases hresult : settlement.result with
  | failed outcome =>
      simp only [apply, Function.update_self]
      split <;> simp
  | ready render =>
      rw [hresult] at hrenders
      cases render with
      | returns => simp [apply]
      | throws => simp [SectionLoadResult.renderThrows] at hrenders
  | empty message render =>
      rw [hresult] at hrenders
      cases render with
      | returns => simp [apply]
      | throws => simp [SectionLoadResult.renderThrows] at hrenders

theorem status_settled_of_ne {index : Nat} (hindex : index ≠ load.index) :
    (settled load capability settlement s).status index = s.status index := by
  by_cases h : s.generations capability = load.generation
  · rw [settled_of_eq h]
    cases settlement.result with
    | failed outcome => simp [apply, hindex]
    | ready render => cases render <;> simp [apply, hindex]
    | empty message render => cases render <;> simp [apply, hindex]
  · rw [settled_of_ne h]

end Settled

section Begin

variable {index : Nat} {capability : String} {throwsAtOnce : Bool} {s : State}

theorem view_begin : (begin index capability throwsAtOnce s).view index capability =
    (s.view index capability).step (.begins throwsAtOnce) := by
  cases throwsAtOnce with
  | false => simp [begin, State.view, SectionView.step]
  | true =>
      rw [begin, if_pos rfl, view_settled ⟨index, s.generations capability + 1⟩]
      simp [State.view, SectionView.step, Settlement.result]

theorem view_begin_of_ne {place : Nat} {other : String} (hindex : place ≠ index)
    (hother : other ≠ capability) :
    (begin index capability throwsAtOnce s).view place other = s.view place other := by
  cases throwsAtOnce with
  | false => simp [begin, State.view, hindex, hother]
  | true =>
      rw [begin, if_pos rfl, view_settled_of_ne (by exact hindex) hother]
      simp [State.view, hindex, hother]

end Begin

/-! ## Sections are independent -/

/-- Sections in front of the list, and with other capabilities, stay as they are. -/
theorem view_refresh_of_not_mem {throwsAtOnce : Nat → Bool} {place index : Nat} {other : String}
    {sections : List String} (hindex : place < index) (hother : other ∉ sections) (s : State) :
    (refresh throwsAtOnce index sections s).view place other = s.view place other := by
  induction sections generalizing index s with
  | nil => rfl
  | cons capability sections ih =>
      rw [List.mem_cons, not_or] at hother
      obtain ⟨hne, hrest⟩ := hother
      rw [refresh, ih (by omega) hrest, view_begin_of_ne (by omega) hne]

theorem view_refresh (throwsAtOnce : Nat → Bool) {sections : List String}
    (hdistinct : sections.Nodup) {place : Nat} {capability : String}
    (h : sections[place]? = some capability) (index : Nat) (s : State) :
    (refresh throwsAtOnce index sections s).view (index + place) capability =
      (s.view (index + place) capability).step (.begins (throwsAtOnce (index + place))) := by
  induction sections generalizing index place s with
  | nil => simp at h
  | cons first sections ih =>
      obtain ⟨hfirst, hrest⟩ := List.nodup_cons.mp hdistinct
      rw [refresh]
      cases place with
      | zero =>
          obtain rfl : first = capability := by simpa using h
          rw [Nat.add_zero, view_refresh_of_not_mem (by omega) hfirst]
          exact view_begin
      | succ place =>
          rw [List.getElem?_cons_succ] at h
          have hne : capability ≠ first := by
            rintro rfl
            exact hfirst (List.mem_of_getElem? h)
          have hplace : index + (place + 1) = index + 1 + place := by omega
          rw [hplace, ih hrest h (index + 1), view_begin_of_ne (by omega) hne]

/-- In a list of distinct capabilities each has one place. -/
theorem index_eq {sections : List String} (hdistinct : sections.Nodup) {index place : Nat}
    {capability : String} (hindex : sections[index]? = some capability)
    (hplace : sections[place]? = some capability) : index = place := by
  have hlt : index < sections.length := by
    obtain ⟨hlt, -⟩ := List.getElem?_eq_some_iff.mp hindex
    exact hlt
  exact (List.getElem?_inj hlt hdistinct).mp (hindex.trans hplace.symm)

theorem getElem?_of_findIdx? {sections : List String} {capability : String} {index : Nat}
    (h : sections.findIdx? (· = capability) = some index) : sections[index]? = some capability := by
  obtain ⟨hlt, heq, -⟩ := List.findIdx?_eq_some_iff_getElem.mp h
  rw [List.getElem?_eq_getElem hlt]
  simpa using heq

/-- What a step makes of a section depends on the section and on its own part of the step. -/
theorem view_step {sections : List String} (hdistinct : sections.Nodup) {s s' : State}
    {label : Label} (hstep : step sections s label = some s') {index : Nat} {capability : String}
    (hsection : sections[index]? = some capability) :
    s'.view index capability =
      (label.own index capability).elim (s.view index capability)
        (s.view index capability).step := by
  cases label with
  | refresh throwsAtOnce =>
      obtain rfl := Option.some.inj hstep
      have hview := view_refresh throwsAtOnce hdistinct hsection 0 s
      rw [Nat.zero_add] at hview
      exact hview
  | refreshCapability other throwsAtOnce =>
      obtain rfl := Option.some.inj hstep
      rw [refreshCapability, Label.own]
      by_cases hother : other = capability
      · subst hother
        cases hfind : sections.findIdx? (· = other) with
        | none =>
            have hnone := List.findIdx?_eq_none_iff.mp hfind other (List.mem_of_getElem? hsection)
            simp at hnone
        | some place =>
            obtain rfl := index_eq hdistinct hsection (getElem?_of_findIdx? hfind)
            rw [if_pos rfl]
            exact view_begin
      · rw [if_neg hother]
        cases hfind : sections.findIdx? (· = other) with
        | none => rfl
        | some place =>
            have hplace := getElem?_of_findIdx? hfind
            refine view_begin_of_ne ?_ (Ne.symm hother)
            rintro rfl
            rw [hsection, Option.some.injEq] at hplace
            exact hother hplace.symm
  | settle load settlement =>
      rw [step] at hstep
      cases hload : sections[load.index]? with
      | none => simp [hload] at hstep
      | some loaded =>
          rw [hload] at hstep
          dsimp only at hstep
          rw [Option.ite_none_right_eq_some, Option.some.injEq] at hstep
          obtain ⟨-, rfl⟩ := hstep
          rw [Label.own]
          by_cases hindex : load.index = index
          · subst hindex
            rw [hload, Option.some.injEq] at hsection
            subst hsection
            rw [if_pos rfl, view_settled]
            rfl
          · rw [if_neg hindex, view_settled_of_ne (Ne.symm hindex)]
            · rfl
            · rintro rfl
              exact hindex (index_eq hdistinct hload hsection)

/-! ## Loads in order -/

/-- The loads in the log have at most the generation of their section, and a section that is
loading waits for the load that it has started last. -/
structure Invariant (sections : List String) (s : State) : Prop where
  inOrder : s.log.Pairwise InOrder
  known : ∀ load, .started load ∈ s.log → ∃ capability,
    sections[load.index]? = some capability ∧ load.generation ≤ s.generations capability
  waits : ∀ load capability, .started load ∈ s.log → sections[load.index]? = some capability →
    s.status load.index = .loading → ⟨load.index, s.generations capability⟩ ∈ s.loads

theorem invariant_start (sections : List String) : Invariant sections start :=
  ⟨.nil, by simp [start], by simp [start]⟩

/-- What follows the loads of a section that are known. -/
theorem Invariant.follows {sections : List String} {s : State} (h : Invariant sections s)
    {index : Nat} {capability : String} (hsection : sections[index]? = some capability)
    {load : Load} (hstarted : .started load ∈ s.log) (hindex : index = load.index) :
    load.generation ≤ s.generations capability := by
  obtain ⟨other, hother, hle⟩ := h.known load hstarted
  rw [← hindex, hsection, Option.some.injEq] at hother
  exact hother ▸ hle

/-- A load that settles, unless it is the newest one and its render throws. -/
theorem Invariant.settled {sections : List String} {s : State} {load : Load} {capability : String}
    {settlement : Settlement} (h : Invariant sections s)
    (hsection : sections[load.index]? = some capability)
    (hrenders : s.generations capability = load.generation →
      settlement.result.renderThrows = false) :
    Invariant sections
      (settled load capability settlement (s.landed load)) := by
  have hnewest (hcurrent : s.generations capability = load.generation) :
      ∀ event ∈ s.log, InOrder (.rendered load) event ∧ InOrder (.reported load) event := by
    intro event hevent
    cases event with
    | started earlier =>
        have hle : load.index = earlier.index → earlier.generation ≤ load.generation :=
          fun hindex => hcurrent ▸ h.follows hsection hevent hindex
        exact ⟨hle, hle⟩
    | rendered _ => exact ⟨trivial, trivial⟩
    | reported _ => exact ⟨trivial, trivial⟩
  have hlog := @log_settled load capability settlement (s.landed load)
  have hstarted : ∀ earlier, .started earlier ∈ (RefreshCoordinator.settled load capability
      settlement (s.landed load)).log → .started earlier ∈ s.log := by
    intro earlier hmem
    rcases hlog with hlog | ⟨-, hlog | hlog | hlog⟩
    all_goals
      rw [hlog] at hmem
      simpa [State.landed] using hmem
  refine ⟨?_, ?_, ?_⟩
  · rcases hlog with hlog | ⟨hcurrent, hlog | hlog | hlog⟩
    · rw [hlog]
      exact h.inOrder
    · rw [hlog]
      exact .cons (fun event hevent => (hnewest hcurrent event hevent).1) h.inOrder
    · rw [hlog]
      exact .cons (fun event hevent => (hnewest hcurrent event hevent).2) h.inOrder
    · rw [hlog]
      refine .cons ?_ (.cons (fun event hevent => (hnewest hcurrent event hevent).1) h.inOrder)
      intro event hevent
      rcases List.mem_cons.mp hevent with rfl | hevent
      · trivial
      · exact (hnewest hcurrent event hevent).2
  · intro earlier hmem
    rw [generations_settled]
    exact h.known earlier (hstarted earlier hmem)
  · intro earlier other hmem hother hloading
    rw [generations_settled, loads_settled]
    have hwaits := h.waits earlier other (hstarted earlier hmem) hother
    by_cases hindex : earlier.index = load.index
    · rw [hindex, hsection, Option.some.injEq] at hother
      subst hother
      by_cases hcurrent : s.generations capability = load.generation
      · rw [hindex] at hloading
        exact absurd hloading (status_settled_ne_loading hcurrent (hrenders hcurrent))
      · rw [settled_of_ne (s := s.landed load) hcurrent] at hloading
        refine (List.mem_erase_of_ne ?_).mpr (hwaits hloading)
        intro heq
        have hgeneration := congrArg Load.generation heq
        exact hcurrent hgeneration
    · rw [status_settled_of_ne hindex] at hloading
      refine (List.mem_erase_of_ne ?_).mpr (hwaits hloading)
      intro heq
      have hsame := congrArg Load.index heq
      exact hindex hsame

theorem Invariant.begin_false {sections : List String} (hdistinct : sections.Nodup) {s : State}
    {index : Nat} {capability : String} (h : Invariant sections s)
    (hsection : sections[index]? = some capability) :
    Invariant sections (begin index capability false s) := by
  have hlog : (begin index capability false s).log =
      .started ⟨index, s.generations capability + 1⟩ :: s.log := rfl
  refine ⟨?_, ?_, ?_⟩
  · rw [hlog]
    refine .cons ?_ h.inOrder
    intro event hevent
    cases event with
    | started earlier =>
        intro hindex
        exact Nat.lt_succ_of_le (h.follows hsection hevent hindex)
    | rendered _ => trivial
    | reported _ => trivial
  · intro load hmem
    rw [hlog] at hmem
    rcases List.mem_cons.mp hmem with heq | hmem
    · obtain rfl := Event.started.inj heq
      exact ⟨capability, hsection, by simp [begin]⟩
    · obtain ⟨other, hother, hle⟩ := h.known load hmem
      refine ⟨other, hother, ?_⟩
      by_cases hsame : other = capability
      · subst hsame
        simpa [begin] using Nat.le_succ_of_le hle
      · simpa [begin, hsame] using hle
  · intro load other hmem hother hloading
    by_cases hindex : load.index = index
    · rw [hindex, hsection, Option.some.injEq] at hother
      subst hother
      simp [begin, hindex]
    · have hsame : other ≠ capability := by
        rintro rfl
        exact hindex (index_eq hdistinct hother hsection)
      rw [hlog] at hmem
      rcases List.mem_cons.mp hmem with heq | hmem
      · obtain rfl := Event.started.inj heq
        exact absurd rfl hindex
      · have hstatus : s.status load.index = .loading := by
          simpa [begin, hindex] using hloading
        have hpending := h.waits load other hmem hother hstatus
        simpa [begin, hsame, hindex] using hpending

theorem Invariant.begin {sections : List String} (hdistinct : sections.Nodup) {s : State}
    {index : Nat} {capability : String} (h : Invariant sections s)
    (hsection : sections[index]? = some capability) (throwsAtOnce : Bool) :
    Invariant sections (begin index capability throwsAtOnce s) := by
  have hstarted := h.begin_false hdistinct hsection
  cases throwsAtOnce with
  | false => exact hstarted
  | true =>
      -- it has settled as a failed read
      have hsettled := @Invariant.settled _ _ ⟨index, s.generations capability + 1⟩ _ .rejected
        hstarted hsection fun _ => rfl
      simpa [RefreshCoordinator.begin, State.landed] using hsettled

theorem Invariant.refresh {all : List String} (hdistinct : all.Nodup) {throwsAtOnce : Nat → Bool}
    {sections : List String} {index : Nat} {s : State}
    (hsections : ∀ place : Nat, sections[place]? = all[index + place]?)
    (h : Invariant all s) : Invariant all (refresh throwsAtOnce index sections s) := by
  induction sections generalizing index s with
  | nil => exact h
  | cons capability sections ih =>
      refine ih (fun place => ?_) (h.begin hdistinct (hsections 0).symm _)
      have hplace := hsections (place + 1)
      have hindex : index + (place + 1) = index + 1 + place := by omega
      rwa [List.getElem?_cons_succ, hindex] at hplace

theorem Invariant.step {sections : List String} (hdistinct : sections.Nodup) {s s' : State}
    {label : Label} (h : Invariant sections s) (hrenders : NewestRenders sections s label)
    (hstep : step sections s label = some s') : Invariant sections s' := by
  cases label with
  | refresh throwsAtOnce =>
      obtain rfl := Option.some.inj hstep
      exact h.refresh hdistinct fun place => by rw [Nat.zero_add]
  | refreshCapability capability throwsAtOnce =>
      obtain rfl := Option.some.inj hstep
      rw [refreshCapability]
      cases hfind : sections.findIdx? (· = capability) with
      | none => exact h
      | some index => exact h.begin hdistinct (getElem?_of_findIdx? hfind) throwsAtOnce
  | settle load settlement =>
      rw [RefreshCoordinator.step] at hstep
      cases hload : sections[load.index]? with
      | none => simp [hload] at hstep
      | some capability =>
          rw [hload] at hstep
          dsimp only at hstep
          rw [Option.ite_none_right_eq_some, Option.some.injEq] at hstep
          obtain ⟨-, rfl⟩ := hstep
          exact h.settled hload (hrenders capability hload)

/-! ## Runs -/

theorem Invariant.coordinates {sections : List String} (hdistinct : sections.Nodup) {s : State}
    (h : Invariant sections s) : Coordinates sections s where
  newest := h.inOrder
  independent _ _ hstep _ _ hsection := view_step hdistinct hstep hsection
  settles index generation hstarted hsettled hloading := by
    obtain ⟨capability, hsection, -⟩ := h.known ⟨index, generation⟩ hstarted
    exact hsettled _ (h.waits ⟨index, generation⟩ capability hstarted hsection hloading) rfl

/-- **Newest loads decide**: in every run over sections with distinct capabilities in which the
newest loads settle with results that render, nothing is rendered or reported of an older load
after a newer one was started, the sections do not affect each other, and a section whose loads
have settled is not loading. -/
theorem newest_loads_decide (sections : List String) (hdistinct : sections.Nodup) (s : State)
    (h : Protocol.Reaches (step sections) (NewestRenders sections) start s) :
    Coordinates sections s := by
  have hinvariant : Invariant sections s :=
    h.invariant (invariant_start sections) fun hinv hrenders hstep =>
      hinv.step hdistinct hrenders hstep
  exact hinvariant.coordinates hdistinct

/-- Two refreshes overlap, one section rejects, the newest load of the other settles first. -/
def overlapping : List Label :=
  [.refresh fun _ => false, .refreshCapability "Services" false,
    .settle ⟨1, 2⟩ (.resolved (.ready .returns)), .settle ⟨0, 1⟩ .rejected,
    .settle ⟨1, 1⟩ (.resolved (.empty "No registered services." .returns))]

theorem overlapping_taken :
    (Protocol.run (step ["Overview", "Services"]) start overlapping).isSome = true := by
  decide +kernel

def overlappingEnd : State :=
  (Protocol.run (step ["Overview", "Services"]) start overlapping).get overlapping_taken

theorem newest_loads_decide_overlapping :
    overlappingEnd.log = [.reported ⟨0, 1⟩, .reported ⟨1, 2⟩, .rendered ⟨1, 2⟩, .started ⟨1, 2⟩,
        .started ⟨1, 1⟩, .started ⟨0, 1⟩] ∧
      Coordinates ["Overview", "Services"] overlappingEnd := by
  refine ⟨by decide +kernel, newest_loads_decide _ (by decide) _ ?_⟩
  refine Protocol.reaches_of_run .start (Option.some_get overlapping_taken).symm ?_
  exact ⟨trivial, fun _ _ => ⟨trivial, fun _ _ => ⟨fun _ _ _ => rfl, fun _ _ => ⟨fun _ _ _ => rfl,
    fun _ _ => ⟨fun _ _ _ => rfl, fun _ _ => trivial⟩⟩⟩⟩⟩

/-- The only load of a section throws while it renders. -/
def throwing : List Label :=
  [.refresh fun _ => false, .settle ⟨0, 1⟩ (.resolved (.ready .throws))]

theorem throwing_taken : (Protocol.run (step ["Services"]) start throwing).isSome = true := by
  decide +kernel

/-- A section whose newest load throws while it renders stays on its loading placeholder. -/
theorem newest_load_throws : ¬ ∀ (sections : List String) (s : State), sections.Nodup →
    Protocol.Reachable (step sections) start s → Coordinates sections s := by
  intro h
  have hcoordinates := h ["Services"] _ (by decide) (Protocol.reachable_get throwing_taken)
  have hloading :
      ((Protocol.run (step ["Services"]) start throwing).get throwing_taken).status 0 = .loading := by
    decide +kernel
  have hloads : ((Protocol.run (step ["Services"]) start throwing).get throwing_taken).loads = [] := by
    decide +kernel
  refine hcoordinates.settles 0 1 (by decide +kernel) ?_ hloading
  rw [hloads]
  simp

end AtlasManager.Dashboard.RefreshCoordinator
