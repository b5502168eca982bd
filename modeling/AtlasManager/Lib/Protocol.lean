import Mathlib

/-!
# AtlasManager.Lib.Protocol

Labelled transition systems whose labels decide what happens: which party
moves and how what is left open turns out.  A run is a list of labels.

* `Reaches` -- the states of the runs whose steps are all allowed;
* `Reaches.invariant` -- what every allowed step keeps holds of them all;
* `reaches_of_run` -- a run that can be evaluated reaches its end.
-/

namespace AtlasManager.Lib.Protocol

variable {S L : Type}

/-- The state after a list of labels, if each of them can be taken. -/
def run (step : S → L → Option S) : S → List L → Option S
  | s, [] => some s
  | s, l :: rest => (step s l).bind fun s' => run step s' rest

@[simp] theorem run_nil (step : S → L → Option S) (s : S) : run step s [] = some s := rfl

theorem run_cons (step : S → L → Option S) (s : S) (l : L) (rest : List L) :
    run step s (l :: rest) = (step s l).bind fun s' => run step s' rest := rfl

/-- `allowed s l` says that the label `l` may be taken in `s`. -/
inductive Reaches (step : S → L → Option S) (allowed : S → L → Prop) (start : S) : S → Prop where
  | start : Reaches step allowed start start
  | step {s s' : S} {l : L} : Reaches step allowed start s → allowed s l → step s l = some s' →
      Reaches step allowed start s'

/-- Runs without a restriction. -/
abbrev Reachable (step : S → L → Option S) (start : S) : S → Prop :=
  Reaches step (fun _ _ => True) start

section Rules

variable {step : S → L → Option S} {allowed : S → L → Prop} {start s : S}

/-- **The invariant rule.** -/
theorem Reaches.invariant {Inv : S → Prop} (hstart : Inv start)
    (hstep : ∀ {s l s'}, Inv s → allowed s l → step s l = some s' → Inv s')
    (h : Reaches step allowed start s) : Inv s := by
  induction h with
  | start => exact hstart
  | step _ hallowed hnext ih => exact hstep ih hallowed hnext

/-- The labels of a run are all allowed where they are taken. -/
def Allowed (step : S → L → Option S) (allowed : S → L → Prop) : S → List L → Prop
  | _, [] => True
  | s, l :: rest => allowed s l ∧ ∀ s', step s l = some s' → Allowed step allowed s' rest

/-- A run whose end can be computed. -/
theorem reaches_of_run {labels : List L} {s' : S} (h : Reaches step allowed start s)
    (hrun : run step s labels = some s') (hallowed : Allowed step allowed s labels) :
    Reaches step allowed start s' := by
  induction labels generalizing s with
  | nil =>
      rw [run_nil, Option.some.injEq] at hrun
      exact hrun ▸ h
  | cons l rest ih =>
      rw [run_cons, Option.bind_eq_some_iff] at hrun
      obtain ⟨next, hnext, hrest⟩ := hrun
      exact ih (.step h hallowed.1 hnext) hrest (hallowed.2 next hnext)

/-- Without restrictions there is nothing to allow. -/
theorem allowed_true (s : S) (labels : List L) :
    Allowed step (fun _ _ => True) s labels := by
  induction labels generalizing s with
  | nil => trivial
  | cons l rest ih => exact ⟨trivial, fun s' _ => ih s'⟩

/-- The end of a run that can be taken. -/
theorem reachable_get {labels : List L} (h : (run step start labels).isSome) :
    Reachable step start ((run step start labels).get h) :=
  reaches_of_run .start (Option.some_get h).symm (allowed_true start labels)

/-- Restrictions that agree wherever an invariant holds allow the same runs. -/
theorem allowed_congr {Inv : S → Prop} {allowed' : S → L → Prop}
    (hagree : ∀ {s} l, Inv s → (allowed s l ↔ allowed' s l))
    (hstep : ∀ {s l s'}, Inv s → step s l = some s' → Inv s') {s : S} (h : Inv s) (labels : List L) :
    Allowed step allowed s labels ↔ Allowed step allowed' s labels := by
  induction labels generalizing s with
  | nil => exact Iff.rfl
  | cons l rest ih =>
      rw [Allowed, Allowed, hagree l h]
      exact and_congr_right fun _ => forall_congr' fun s' => forall_congr' fun hnext =>
        ih (hstep h hnext)

end Rules

end AtlasManager.Lib.Protocol
