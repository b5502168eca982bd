import AtlasManager.Deployment.ServiceLifecycle

/-!
# AtlasManager.Deployment.ActivationOutcomes

What the host may do during an activation, and what the report of an
activation then says about it.  A command of `systemctl` may fail or succeed,
with its effect or without it; the query of the unit may fail; every write and
every removal may fail, and the health check too.

* `readShow_shown` -- a query that is answered shows the unit as it is;
* `fail_spec` -- what the roll back leaves;
* `activation_truthful_iff` -- the report is true exactly when no `enable`
  fails with its effect and the journal of a roll back can be removed.
-/

namespace AtlasManager.Deployment.ServiceLifecycle

open AtlasManager.Lib GoText

/-! ## The unit and its properties -/

/-- The properties that `show` is asked for. -/
inductive Property where
  | loadState | activeState | subState | unitFileState | mainPID | execMainStatus
  deriving DecidableEq

def Property.all : List Property :=
  [.loadState, .activeState, .subState, .unitFileState, .mainPID, .execMainStatus]

theorem mem_all (p : Property) : p ∈ Property.all := by
  cases p <;> decide

def Property.name : Property → Text
  | .loadState => bytes "LoadState"
  | .activeState => bytes "ActiveState"
  | .subState => bytes "SubState"
  | .unitFileState => bytes "UnitFileState"
  | .mainPID => bytes "MainPID"
  | .execMainStatus => bytes "ExecMainStatus"

theorem name_injective : Function.Injective Property.name := by
  have h : ∀ p ∈ Property.all, ∀ q ∈ Property.all, p.name = q.name → p = q := by decide +kernel
  exact fun p q => h p (mem_all p) q (mem_all q)

theorem plain_name (p : Property) : newline ∉ p.name ∧ equals ∉ p.name := by
  have h : ∀ p ∈ Property.all, newline ∉ p.name ∧ equals ∉ p.name := by decide +kernel
  exact h p (mem_all p)

/-- The value of a property stands on one line. -/
structure Value where
  text : Text
  oneLine : newline ∉ text

abbrev UnitState := Property → Value

def UnitState.isActive (unit : UnitState) : Bool := (unit .activeState).text = bytes "active"

def UnitState.isEnabled (unit : UnitState) : Bool := (unit .unitFileState).text = bytes "enabled"

/-- The answer of `show`, in whatever order it prints the properties. -/
def UnitState.shown (unit : UnitState) (order : List Property) : Text :=
  unlines (order.map fun p => p.name ++ equals :: (unit p).text)

/-- What one property says about the unit. -/
def setProperty (state : SystemdState) (p : Property) (value : Text) : SystemdState :=
  match p with
  | .loadState => { state with loaded := value = bytes "loaded" }
  | .activeState => { state with active := value = bytes "active" }
  | .subState => { state with subState := value }
  | .unitFileState => { state with enabled := value = bytes "enabled" }
  | .mainPID => { state with pid := match atoiPositive value with | .ok pid => pid | .error _ => 0 }
  | .execMainStatus => state

theorem readProperty_line (state : SystemdState) (p : Property) (value : Text) :
    readProperty state (p.name ++ equals :: value) = setProperty state p value := by
  rw [readProperty, cut_append (plain_name p).2]
  change (if p.name = Property.loadState.name then _
    else if p.name = Property.activeState.name then _
    else if p.name = Property.subState.name then _
    else if p.name = Property.unitFileState.name then _
    else if p.name = Property.mainPID.name then _ else _) = _
  simp only [name_injective.eq_iff]
  cases p <;> rfl

/-- The unit as the reader of the answer knows it. -/
def UnitState.read (unit : UnitState) : SystemdState :=
  Property.all.foldl (fun state p => setProperty state p (unit p).text) {}

@[simp] theorem read_active (unit : UnitState) : unit.read.active = unit.isActive := rfl

@[simp] theorem read_enabled (unit : UnitState) : unit.read.enabled = unit.isEnabled := rfl

/-- **An answered query shows the unit as it is.** -/
theorem readShow_shown {unit : UnitState} {order : List Property}
    (horder : order.Perm Property.all) : readShow (unit.shown order) = unit.read := by
  have hlines : ∀ line ∈ order.map (fun p => p.name ++ equals :: (unit p).text),
      newline ∉ line := by
    intro line hline
    obtain ⟨p, -, rfl⟩ := List.mem_map.mp hline
    simp only [List.mem_append, List.mem_cons, not_or]
    exact ⟨(plain_name p).1, by decide, (unit p).oneLine⟩
  have hend : ∀ state : SystemdState, readProperty state [] = state := fun _ => rfl
  rw [readShow, UnitState.shown, split_lines hlines, List.foldl_append, List.foldl_map]
  simp only [readProperty_line, List.foldl_cons, List.foldl_nil, hend]
  -- each property sets a field of its own
  refine horder.foldl_eq' ?_ _
  intro p _ q _ state
  cases p <;> cases q <;> rfl

/-! ## The host -/

/-- How far the writing of a file has come. -/
inductive Stage where
  | opened | filled | synced | closed
  deriving DecidableEq

structure File where
  document : Option Document
  stage : Stage
  deriving DecidableEq

/-- What has happened in a run so far. -/
structure Chronicle where
  /-- The unit at the last query that was answered. -/
  observed : Option UnitState := none
  healthPassed : Bool := false
  journalWritten : Bool := false
  stateWritten : Bool := false
  /-- `enable` has failed and has left the unit enabled. -/
  stranded : Bool := false
  /-- The journal could not be removed, and no state file had been written. -/
  journalKept : Bool := false

structure World where
  unit : UnitState
  files : FileName → Option File
  chronicle : Chronicle

namespace World

def put (w : World) (file : FileName) (content : Option File) : World :=
  { w with files := Function.update w.files file content }

/-- The unit is shown. -/
def observe (w : World) : World :=
  { w with chronicle := { w.chronicle with observed := some w.unit } }

/-- A command has been run and the unit is as it has left it. -/
def after (w : World) (c : Systemctl) (failure : Bool) (unit : UnitState) : World :=
  { w with
    unit := unit
    chronicle := { w.chronicle with
      stranded := w.chronicle.stranded || (c = .enable && failure && unit.isEnabled) } }

/-- A file is closed; it is written if its content had reached the disk. -/
def closeFile (w : World) (file : FileName) : World :=
  match w.files file with
  | some ⟨document, .synced⟩ =>
    { w.put file (some ⟨document, .closed⟩) with
      chronicle := { w.chronicle with
        journalWritten := w.chronicle.journalWritten || file = .journal } }
  | _ => w

/-- A file could not be removed. -/
def keep (w : World) (file : FileName) : World :=
  { w with chronicle := { w.chronicle with
      journalKept := w.chronicle.journalKept ||
        (file = .journal && w.chronicle.journalWritten && !w.chronicle.stateWritten) } }

end World

/-- The properties that a command may change. -/
def Touches : Systemctl → Property → Prop
  | .show, _ => False
  | .daemonReload, p => p = .loadState
  | .enable, p | .disable, p => p = .loadState ∨ p = .unitFileState
  | .start, p | .stop, p =>
    p = .loadState ∨ p = .activeState ∨ p = .subState ∨ p = .mainPID ∨ p = .execMainStatus

/-- What the host may do on a call.  A file whose writing or removal fails is
as it was; a command may leave the properties it touches in any state. -/
def step (w : World) : (call : Call) → Except String (Answer call) → World → Prop
  | .systemctl .show, .ok result, w' =>
    if result.exitCode ≠ 0 then w' = w
    else ∃ order, order.Perm Property.all ∧ result.stdout = w.unit.shown order ∧ w' = w.observe
  | .systemctl .show, .error _, w' => w' = w
  | .systemctl c, r, w' =>
    ∃ unit : UnitState, (∀ p, ¬ Touches c p → unit p = w.unit p) ∧ w' = w.after c (failed r) unit
  | .health _, .ok _, w' => w' = { w with chronicle := { w.chronicle with healthPassed := true } }
  | .readJournal, .ok content, w' => (content = none ↔ w.files .journal = none) ∧ w' = w
  | .openNew file, .ok _, w' => w.files file = none ∧ w' = w.put file (some ⟨none, .opened⟩)
  | .write file document, .ok _, w' => w' = w.put file (some ⟨some document, .filled⟩)
  | .sync file, .ok _, w' =>
    w' = w.put file ((w.files file).map fun content => { content with stage := .synced })
  | .close file, .ok _, w' => w' = w.closeFile file
  | .remove file, .ok _, w' => w' = w.put file none
  | .remove file, .error _, w' => w' = w.keep file
  | .rename source target, .ok _, w' =>
    w' = { (w.put target (w.files source)).put source none with
      chronicle := { w.chronicle with
        stateWritten := w.chronicle.stateWritten || target = .stateFile } }
  | _, _, w' => w' = w

/-! ## What a call leaves -/

namespace World

variable {w : World} {file : FileName}

@[simp] theorem put_put (x y : Option File) : (w.put file x).put file y = w.put file y := by
  simp [put]

theorem put_files_self : w.put file (w.files file) = w := by
  simp [put]

@[simp] theorem put_files_eq (x : Option File) : (w.put file x).files file = x := by
  simp [put]

@[simp] theorem put_files_ne {g : FileName} (h : g ≠ file) (x : Option File) :
    (w.put file x).files g = w.files g := by
  simp [put, h]

@[simp] theorem put_unit (x : Option File) : (w.put file x).unit = w.unit := rfl

@[simp] theorem put_chronicle (x : Option File) : (w.put file x).chronicle = w.chronicle := rfl

@[simp] theorem observe_unit : w.observe.unit = w.unit := rfl

@[simp] theorem observe_files : w.observe.files = w.files := rfl

@[simp] theorem observe_chronicle :
    w.observe.chronicle = { w.chronicle with observed := some w.unit } := rfl

@[simp] theorem after_unit {c : Systemctl} {failure : Bool} {unit : UnitState} :
    (w.after c failure unit).unit = unit := rfl

@[simp] theorem after_files {c : Systemctl} {failure : Bool} {unit : UnitState} :
    (w.after c failure unit).files = w.files := rfl

theorem after_chronicle {c : Systemctl} {failure : Bool} {unit : UnitState} (h : c ≠ .enable) :
    (w.after c failure unit).chronicle = w.chronicle := by
  simp [after, h]

theorem keep_of_ne (h : file ≠ .journal) : w.keep file = w := by
  simp [keep, h]

theorem keep_of_unwritten (h : w.chronicle.journalWritten = false) : w.keep file = w := by
  have hkept : (decide (file = .journal) && w.chronicle.journalWritten
      && !w.chronicle.stateWritten) = false := by simp [h]
  rw [keep, hkept, Bool.or_false]

/-- A file has been written and closed. -/
def wrote (w : World) (file : FileName) (document : Document) : World :=
  { w.put file (some ⟨some document, .closed⟩) with
    chronicle := { w.chronicle with
      journalWritten := w.chronicle.journalWritten || file = .journal } }

theorem wrote_of_ne (document : Document) (h : file ≠ .journal) :
    w.wrote file document = w.put file (some ⟨some document, .closed⟩) := by
  rw [wrote, decide_eq_false h, Bool.or_false]
  rfl

theorem closeFile_synced (document : Document) :
    (w.put file (some ⟨some document, .synced⟩)).closeFile file = w.wrote file document := by
  simp [closeFile, wrote, put]

theorem closeFile_unsynced {x : File} (h : x.stage ≠ .synced) :
    (w.put file (some x)).closeFile file = w.put file (some x) := by
  obtain ⟨document, stage⟩ := x
  cases stage
  all_goals first | exact absurd rfl h | simp [closeFile]

end World

/-! ## Specifications -/

/-- Every run of a program from `w` ends with `Q`. -/
abbrev Ends {α : Type} (p : Program α) (Q : Except String α → World → Prop) (w : World) : Prop :=
  Prog.Spec step (fun _ => True) p Q w

section Specs

variable {w : World}

theorem ask_spec {call : Call} {Q : Except String (Answer call) → World → Prop}
    (h : ∀ r w', step w call r w' → Q r w') : Ends (ask call) Q w := by
  rw [Ends, ask, Prog.spec_perform]
  exact fun r w' hr => ⟨trivial, h r w' hr⟩

/-- A call that does nothing but answer. -/
theorem ask_unchanged {call : Call} {Q : Except String (Answer call) → World → Prop}
    (hcall : ∀ r w', step w call r w' → w' = w) (h : ∀ r, Q r w) : Ends (ask call) Q w := by
  refine ask_spec fun r w' hr => ?_
  rw [hcall r w' hr]
  exact h r

theorem command_spec {c : Systemctl} (hc : c ≠ .show) {Q : Except String Unit → World → Prop}
    (herr : ∀ e (unit : UnitState), (∀ p, ¬ Touches c p → unit p = w.unit p) →
      Q (.error e) (w.after c true unit))
    (hok : ∀ unit : UnitState, (∀ p, ¬ Touches c p → unit p = w.unit p) →
      Q (.ok ()) (w.after c false unit)) : Ends (command c) Q w := by
  simp only [Ends, command, Prog.spec_bind, Prog.spec_attempt]
  refine ask_spec fun r w' hr => ?_
  have hstep : ∃ unit : UnitState,
      (∀ p, ¬ Touches c p → unit p = w.unit p) ∧ w' = w.after c (failed r) unit := by
    cases c <;> first | exact absurd rfl hc | exact hr
  obtain ⟨unit, htouch, rfl⟩ := hstep
  cases hfailed : failed r with
  | true => exact herr _ unit htouch
  | false => exact hok unit htouch

theorem systemdState_spec {Q : Except String SystemdState → World → Prop}
    (hok : Q (.ok w.unit.read) w.observe) (herr : ∀ e, Q (.error e) w) :
    Ends systemdState Q w := by
  simp only [Ends, systemdState, Prog.spec_bind, Prog.spec_attempt]
  refine ask_spec fun r w' hr => ?_
  cases r with
  | error e =>
      obtain rfl : w' = w := hr
      exact herr _
  | ok result =>
      dsimp only [step] at hr ⊢
      by_cases hexit : result.exitCode ≠ 0
      · rw [if_pos hexit] at hr ⊢
        rw [hr]
        exact herr _
      · rw [if_neg hexit] at hr ⊢
        obtain ⟨order, horder, hstdout, rfl⟩ := hr
        rw [hstdout, readShow_shown horder]
        exact hok

theorem absent_spec {marker : Marker} {Q : Except String Unit → World → Prop} (h : ∀ r, Q r w) :
    Ends (absent marker) Q w := by
  simp only [Ends, absent, Prog.spec_bind, Prog.spec_attempt]
  refine ask_unchanged (fun r w' hr => by cases r <;> exact hr) fun r => ?_
  cases r with
  | error _ => exact h _
  | ok found => cases found <;> exact h _

/-- An accepted unit is neither active nor enabled. -/
theorem validateReady_spec {Q : Except String Unit → World → Prop}
    (hok : w.unit.isActive = false → w.unit.isEnabled = false → Q (.ok ()) w.observe)
    (herr : ∀ e, Q (.error e) w) (herr' : ∀ e, Q (.error e) w.observe) :
    Ends validateReady Q w := by
  simp only [Ends, validateReady, Prog.spec_bind, Prog.spec_attempt]
  refine ask_unchanged (fun r w' hr => by cases r <;> exact hr) fun r => ?_
  cases r with
  | error e => exact herr e
  | ok _ =>
  refine absent_spec fun r => ?_
  cases r with
  | error e => exact herr e
  | ok _ =>
  refine absent_spec fun r => ?_
  cases r with
  | error e => exact herr e
  | ok _ =>
  refine systemdState_spec ?_ fun e => herr _
  dsimp only
  by_cases hstate : (w.unit.read.enabled || w.unit.read.active) = true
  · rw [if_pos hstate]
    exact herr' _
  · rw [if_neg hstate]
    simp only [read_enabled, read_active, Bool.or_eq_true, not_or, Bool.not_eq_true] at hstate
    exact hok hstate.2 hstate.1

/-- Removing the file that was begun. -/
theorem remove_begun_spec {file : FileName} {Q : Except String Unit → World → Prop}
    (hnew : file = .journal → w.chronicle.journalWritten = false)
    (herr : ∀ e x, Q (.error e) (w.put file x)) (e : String) (x : Option File) :
    Ends (do
      let _ ← (ask (.remove file)).attempt
      .throw e) Q (w.put file x) := by
  simp only [Ends, Prog.spec_bind, Prog.spec_attempt]
  refine ask_spec fun r w' hr => ?_
  cases r with
  | ok _ =>
      obtain rfl : w' = (w.put file x).put file none := hr
      rw [World.put_put]
      exact herr e none
  | error _ =>
      obtain rfl : w' = (w.put file x).keep file := hr
      by_cases hjournal : file = .journal
      · have hunwritten : (w.put file x).chronicle.journalWritten = false := hnew hjournal
        rw [World.keep_of_unwritten hunwritten]
        exact herr e x
      · rw [World.keep_of_ne hjournal]
        exact herr e x

/-- Closing the file does not make it written when it is not on the disk. -/
theorem close_begun_spec {file : FileName} {Q : Except String Unit → World → Prop}
    (hnew : file = .journal → w.chronicle.journalWritten = false)
    (herr : ∀ e x, Q (.error e) (w.put file x)) (e : String) {x : File} (hx : x.stage ≠ .synced) :
    Ends (do
      let closed ← (ask (.close file)).attempt
      match (.error e : Except String Unit), closed with
      | .ok _, .ok _ => return ()
      | .error e, _ | .ok _, .error e =>
        let _ ← (ask (.remove file)).attempt
        .throw e) Q (w.put file (some x)) := by
  rw [Ends, Prog.spec_bind, Prog.spec_attempt]
  refine ask_spec fun r w' hr => ?_
  cases r with
  | ok _ =>
      obtain rfl : w' = (w.put file (some x)).closeFile file := hr
      rw [World.closeFile_unsynced hx]
      exact remove_begun_spec hnew herr e (some x)
  | error _ =>
      obtain rfl : w' = w.put file (some x) := hr
      exact remove_begun_spec hnew herr e (some x)

/-- A write that fails leaves the file in some state and nothing else. -/
theorem writeNew_spec {file : FileName} {document : Document}
    {Q : Except String Unit → World → Prop}
    (hnew : file = .journal → w.chronicle.journalWritten = false)
    (hok : Q (.ok ()) (w.wrote file document)) (herr : ∀ e x, Q (.error e) (w.put file x)) :
    Ends (writeNew file document) Q w := by
  simp only [Ends, writeNew]
  rw [Prog.spec_bind]
  refine ask_spec fun r w₁ h₁ => ?_
  cases r with
  | error e =>
      obtain rfl : w₁ = w := h₁
      have hsame := herr e (w₁.files file)
      rwa [World.put_files_self] at hsame
  | ok _ =>
  obtain ⟨-, rfl⟩ : _ ∧ w₁ = w.put file (some ⟨none, .opened⟩) := h₁
  dsimp only
  rw [Prog.spec_bind, Prog.spec_attempt, Prog.spec_bind]
  refine ask_spec fun r w₂ h₂ => ?_
  cases r with
  | error e =>
      obtain rfl : w₂ = w.put file (some ⟨none, .opened⟩) := h₂
      exact close_begun_spec hnew herr e (by decide)
  | ok _ =>
  obtain rfl : w₂ = (w.put file (some ⟨none, .opened⟩)).put file (some ⟨some document, .filled⟩) := h₂
  rw [World.put_put]
  refine ask_spec fun r w₃ h₃ => ?_
  cases r with
  | error e =>
      obtain rfl : w₃ = w.put file (some ⟨some document, .filled⟩) := h₃
      exact close_begun_spec hnew herr e (by dsimp only; decide)
  | ok _ =>
  have hsynced : w₃ = w.put file (some ⟨some document, .synced⟩) := by
    rw [show w₃ = _ from h₃]
    simp
  rw [hsynced]
  dsimp only
  rw [Prog.spec_bind, Prog.spec_attempt]
  refine ask_spec fun r w₄ h₄ => ?_
  cases r with
  | error e =>
      obtain rfl : w₄ = w.put file (some ⟨some document, .synced⟩) := h₄
      exact remove_begun_spec hnew herr e _
  | ok _ =>
      obtain rfl : w₄ = (w.put file (some ⟨some document, .synced⟩)).closeFile file := h₄
      rw [World.closeFile_synced]
      exact hok

theorem writeJournal_spec {journal : Journal} {Q : Except String Unit → World → Prop}
    (hnew : w.chronicle.journalWritten = false)
    (hok : Q (.ok ()) (w.wrote .journal (.journal journal)))
    (herr : ∀ e x, Q (.error e) (w.put .journal x)) : Ends (writeJournal journal) Q w := by
  simp only [Ends, writeJournal, Prog.spec_bind]
  refine ask_unchanged (fun r w' hr => by cases r <;> exact hr) fun r => ?_
  cases r with
  | error e =>
      have hsame := herr e (w.files .journal)
      rwa [World.put_files_self] at hsame
  | ok _ => exact writeNew_spec (fun _ => hnew) hok herr

end Specs

/-! ## The state file -/

/-- The candidate has become the state file. -/
def World.activated (w : World) (state : State) : World :=
  { (w.put .stateFile (some ⟨some (.state state), .closed⟩)).put .candidate none with
    chronicle := { w.chronicle with stateWritten := true } }

section Writing

variable {digest : Text → String} {w : World}

/-- The state file is there in full or as it was. -/
theorem writeState_spec {Q : Except String Unit → World → Prop}
    (hok : ∀ state, state.status = "active_mock" → Q (.ok ()) (w.activated state))
    (herr : ∀ e x, Q (.error e) (w.put .candidate x)) : Ends (writeState digest) Q w := by
  have hself : ∀ e, Q (.error e) w := by
    intro e
    have hsame := herr e (w.files .candidate)
    rwa [World.put_files_self] at hsame
  simp only [Ends, writeState, Prog.spec_bind, Prog.spec_attempt]
  -- five calls that only read
  refine ask_unchanged (fun r w' hr => by cases r <;> exact hr) fun r => ?_
  cases r with
  | error e => exact hself e
  | ok _ =>
  refine ask_unchanged (fun r w' hr => by cases r <;> exact hr) fun r => ?_
  cases r with
  | error e => exact hself e
  | ok value =>
  refine ask_unchanged (fun r w' hr => by cases r <;> exact hr) fun r => ?_
  cases r with
  | error e => exact hself e
  | ok configData =>
  refine ask_unchanged (fun r w' hr => by cases r <;> exact hr) fun r => ?_
  cases r with
  | error e => exact hself e
  | ok unitData =>
  refine ask_unchanged (fun r w' hr => by cases r <;> exact hr) fun r => ?_
  cases r with
  | error e => exact hself e
  | ok _ =>
  refine writeNew_spec (by simp) ?_ fun e x => herr e x
  dsimp only
  refine ask_spec fun r w' hr => ?_
  cases r with
  | ok _ =>
      have hw' : w' = w.activated ⟨1, "active_mock", value.version, value.sourceCommit,
          digest configData, digest unitData⟩ := by
        rw [show w' = _ from hr]
        simp [World.activated, World.wrote, World.put, Function.update_comm]
      rw [hw']
      exact hok _ rfl
  | error e =>
      have hw' : w' = w.put .candidate (some ⟨some (.state ⟨1, "active_mock", value.version,
          value.sourceCommit, digest configData, digest unitData⟩), .closed⟩) := by
        rw [show w' = _ from hr]
        exact World.wrote_of_ne _ (by decide)
      subst hw'
      dsimp only
      rw [Prog.spec_bind, Prog.spec_attempt]
      refine ask_spec fun r w'' hr' => ?_
      cases r with
      | ok _ =>
          rw [show w'' = _ from hr', World.put_put]
          exact herr e none
      | error _ =>
          rw [show w'' = _ from hr', World.keep_of_ne (by decide)]
          exact herr e _

end Writing

/-! ## The roll back -/

/-- The transaction is open: its journal is written, no state file is. -/
structure Ongoing (w : World) : Prop where
  journal : w.files .journal ≠ none
  written : w.chronicle.journalWritten = true
  noState : w.chronicle.stateWritten = false
  notKept : w.chronicle.journalKept = false

/-- Commands and queries leave the files and all but the observed unit. -/
structure World.Same (w w' : World) : Prop where
  files : w'.files = w.files
  journalWritten : w'.chronicle.journalWritten = w.chronicle.journalWritten
  stateWritten : w'.chronicle.stateWritten = w.chronicle.stateWritten
  stranded : w'.chronicle.stranded = w.chronicle.stranded
  journalKept : w'.chronicle.journalKept = w.chronicle.journalKept

namespace World.Same

variable {w w' w'' : World}

theorem refl (w : World) : w.Same w := ⟨rfl, rfl, rfl, rfl, rfl⟩

theorem trans (h : w.Same w') (h' : w'.Same w'') : w.Same w'' where
  files := h'.files.trans h.files
  journalWritten := h'.journalWritten.trans h.journalWritten
  stateWritten := h'.stateWritten.trans h.stateWritten
  stranded := h'.stranded.trans h.stranded
  journalKept := h'.journalKept.trans h.journalKept

theorem observe (w : World) : w.Same w.observe := ⟨rfl, rfl, rfl, rfl, rfl⟩

theorem after {c : Systemctl} (hc : c ≠ .enable) (failure : Bool) (unit : UnitState) :
    w.Same (w.after c failure unit) := by
  have h : (w.after c failure unit).chronicle = w.chronicle := World.after_chronicle hc
  exact ⟨rfl, by rw [h], by rw [h], by rw [h], by rw [h]⟩

theorem ongoing (h : w.Same w') (hw : Ongoing w) : Ongoing w' where
  journal := by rw [h.files]; exact hw.journal
  written := h.journalWritten.trans hw.written
  noState := h.stateWritten.trans hw.noState
  notKept := h.journalKept.trans hw.notKept

end World.Same

theorem isActive_of_same {unit unit' : UnitState} (h : unit' .activeState = unit .activeState) :
    unit'.isActive = unit.isActive := by
  rw [UnitState.isActive, h, UnitState.isActive]

theorem isEnabled_of_same {unit unit' : UnitState}
    (h : unit' .unitFileState = unit .unitFileState) : unit'.isEnabled = unit.isEnabled := by
  rw [UnitState.isEnabled, h, UnitState.isEnabled]

section Rollback

variable {w : World}

theorem undo_spec {c : Systemctl} (hc : c = .stop ∨ c = .disable) {remains : SystemdState → Bool}
    {Q : Except String Unit → World → Prop}
    (hok : ∀ w', w.Same w' → (∀ p, ¬ Touches c p → w'.unit p = w.unit p) →
      remains w'.unit.read = false → Q (.ok ()) w')
    (herr : ∀ e w', w.Same w' → Q (.error e) w') : Ends (undo c remains) Q w := by
  have hshow : c ≠ .show := by rcases hc with rfl | rfl <;> decide
  have henable : c ≠ .enable := by rcases hc with rfl | rfl <;> decide
  simp only [Ends, undo, Prog.spec_bind, Prog.spec_attempt]
  refine command_spec hshow (fun e unit _ => herr e _ (.after henable _ _)) fun unit htouch => ?_
  dsimp only
  refine systemdState_spec ?_ fun e => herr _ _ (.after henable _ _)
  have hsame : w.Same (w.after c false unit).observe :=
    (World.Same.after henable _ _).trans (.observe _)
  cases hlook : remains unit.read with
  | true =>
      simp only [World.after_unit, hlook, if_true]
      exact herr _ _ hsame
  | false =>
      simp only [World.after_unit, hlook]
      exact hok _ hsame htouch hlook

/-- A roll back that is complete has undone what it was asked to undo. -/
theorem rollback_spec {started enabled : Bool} {Q : Except String Unit → World → Prop}
    (hok : ∀ w', w.Same w' → w'.unit.isActive = (!started && w.unit.isActive) →
      w'.unit.isEnabled = (!enabled && w.unit.isEnabled) → Q (.ok ()) w')
    (herr : ∀ e w', w.Same w' → (started || enabled) = true → Q (.error e) w') :
    Ends (rollback started enabled) Q w := by
  have hdisable : ∀ w₁, w.Same w₁ →
      w₁.unit.isActive = (!started && w.unit.isActive) →
      w₁.unit.isEnabled = w.unit.isEnabled → Ends (if enabled then undo .disable (·.enabled) else pure ()) Q w₁ := by
    intro w₁ hsame hactive henabled
    cases enabled with
    | false => exact hok w₁ hsame hactive henabled
    | true =>
        refine undo_spec (Or.inr rfl) (fun w₂ hsame₂ htouch hlook => ?_)
          fun e w₂ hsame₂ => herr e w₂ (hsame.trans hsame₂) (by simp)
        have hunit : w₂.unit.isActive = w₁.unit.isActive :=
          isActive_of_same (htouch .activeState (by simp [Touches]))
        exact hok w₂ (hsame.trans hsame₂) (hunit.trans hactive) hlook
  cases started with
  | false => exact hdisable w (.refl w) rfl rfl
  | true =>
      rw [Ends, rollback, if_pos rfl, Prog.spec_bind]
      refine undo_spec (Or.inl rfl) (fun w₁ hsame htouch hlook => ?_)
        fun e w₁ hsame => herr e w₁ hsame rfl
      exact hdisable w₁ hsame hlook
        (isEnabled_of_same (htouch .unitFileState (by simp [Touches])))

end Rollback

/-! ## What a report says -/

/-- What the report of an activation promises about the host. -/
structure Truthful (report : Report) (w : World) : Prop where
  /-- The unit was last seen enabled and active, and everything else is done. -/
  verified : report.result = "active_mock_verified" →
    (∃ unit, w.chronicle.observed = some unit ∧ unit.isEnabled = true ∧ unit.isActive = true) ∧
    w.chronicle.healthPassed = true ∧ w.chronicle.stateWritten = true ∧
    (∃ state, w.files .stateFile = some ⟨some (.state state), .closed⟩ ∧
      state.status = "active_mock") ∧ w.files .journal = none
  rolledBack : report.result = "activation_failed_rolled_back" →
    w.unit.isActive = false ∧ w.unit.isEnabled = false ∧ w.chronicle.stateWritten = false ∧
    w.files .journal = none
  otherwise : report.result ≠ "active_mock_verified" →
    report.result ≠ "activation_failed_rolled_back" → w.chronicle.journalWritten = true →
    w.files .journal ≠ none

/-- No `enable` has failed and left the unit enabled, and no journal without a
state file could not be removed. -/
def Sound (w : World) : Prop :=
  w.chronicle.stranded = false ∧ w.chronicle.journalKept = false

instance (w : World) : Decidable (Sound w) := inferInstanceAs (Decidable (_ ∧ _))

/-- The report is true exactly when the run was sound. -/
def Judged : Except String Report → World → Prop
  | .ok report, w => Truthful report w ↔ Sound w
  | .error _, _ => False

/-- Other outcomes keep the journal. -/
theorem truthful_of_journal {report : Report} {w : World}
    (hverified : report.result ≠ "active_mock_verified")
    (hrolledBack : report.result ≠ "activation_failed_rolled_back")
    (hjournal : w.chronicle.journalWritten = true → w.files .journal ≠ none) :
    Truthful report w where
  verified h := absurd h hverified
  rolledBack h := absurd h hrolledBack
  otherwise _ _ := hjournal

section Activation

variable {w : World}

theorem judged_blocked {reason : String} (hsound : Sound w)
    (hjournal : w.chronicle.journalWritten = true → w.files .journal ≠ none) :
    Judged (.ok (blocked .activateMock reason)) w := by
  have htrue : Truthful (blocked .activateMock reason) w :=
    truthful_of_journal (by simp [blocked]) (by simp [blocked]) hjournal
  exact ⟨fun _ => hsound, fun _ => htrue⟩

/-- **What the roll back leaves.**  A unit that `enable` was not to have
enabled stays enabled. -/
theorem fail_spec {started enabled : Bool} {reason : String} (h : Ongoing w)
    (hactive : started = true ∨ w.unit.isActive = false)
    (henabled : enabled = true ∨ w.unit.isEnabled = w.chronicle.stranded)
    (hstranded : (started || enabled) = true → w.chronicle.stranded = false) :
    Ends (fail started enabled reason) Judged w := by
  simp only [Ends, fail, Prog.spec_bind, Prog.spec_attempt]
  refine rollback_spec (fun w₁ hsame hactive₁ henabled₁ => ?_) fun e w₁ hsame hasked => ?_
  · have hopen := hsame.ongoing h
    have hnotActive : w₁.unit.isActive = false := by
      rw [hactive₁]
      rcases hactive with hstarted | hoff
      · rw [hstarted]
        rfl
      · rw [hoff, Bool.and_false]
    have hleft : w₁.unit.isEnabled = w₁.chronicle.stranded := by
      rw [hsame.stranded, henabled₁]
      rcases henabled with hasked | heq
      · rw [hasked, hstranded (by simp [hasked])]
        rfl
      · rw [heq]
        by_cases hasked : enabled = true
        · rw [hstranded (by simp [hasked]), Bool.and_false]
        · rw [Bool.not_eq_true] at hasked
          rw [hasked]
          rfl
    dsimp only
    rw [Prog.spec_bind, Prog.spec_attempt]
    refine ask_spec fun r w₂ hr => ?_
    cases r with
    | ok _ =>
        obtain rfl : w₂ = w₁.put .journal none := hr
        constructor
        · intro htrue
          have henabled₂ : w₁.unit.isEnabled = false := (htrue.rolledBack rfl).2.1
          exact ⟨hleft.symm.trans henabled₂, hopen.notKept⟩
        · intro hsound
          have henabled₂ : w₁.unit.isEnabled = false := hleft.trans hsound.1
          exact {
            verified := fun hresult => absurd hresult (by simp [failure])
            rolledBack := fun _ =>
              ⟨hnotActive, henabled₂, hopen.noState, World.put_files_eq none⟩
            otherwise := fun _ hresult => absurd rfl hresult }
    | error _ =>
        obtain rfl : w₂ = w₁.keep .journal := hr
        have hkept : (w₁.keep .journal).chronicle.journalKept = true := by
          simp [World.keep, hopen.written, hopen.noState]
        constructor
        · intro htrue
          exact absurd (htrue.rolledBack rfl).2.2.2 hopen.journal
        · intro hsound
          rw [hsound.2] at hkept
          exact absurd hkept (by decide)
  · have hopen := hsame.ongoing h
    have hsound : Sound w₁ := ⟨hsame.stranded.trans (hstranded hasked), hopen.notKept⟩
    have htrue : Truthful (failure .activateMock "activation_failed_recovery_required" reason) w₁ :=
      truthful_of_journal (by simp [failure]) (by simp [failure]) fun _ => hopen.journal
    exact ⟨fun _ => hsound, fun _ => htrue⟩

variable {digest : Text → String}

/-- From the state file on only the journal is to be removed. -/
theorem conclude_spec {state : State} {unit : UnitState} (h : Ongoing w)
    (hstranded : w.chronicle.stranded = false) (hobserved : w.chronicle.observed = some unit)
    (henabled : unit.isEnabled = true) (hactive : unit.isActive = true)
    (hhealth : w.chronicle.healthPassed = true) (hstatus : state.status = "active_mock") :
    Ends (do
      let .ok _ ← (ask (.remove .journal)).attempt
        | return blocked .activateMock "activation_journal_remove_failed"
      return success .activateMock "active_mock_verified") Judged (w.activated state) := by
  rw [Ends, Prog.spec_bind, Prog.spec_attempt]
  refine ask_spec fun r w' hr => ?_
  have hsound : Sound (w.activated state) := ⟨hstranded, h.notKept⟩
  cases r with
  | ok _ =>
      obtain rfl : w' = (w.activated state).put .journal none := hr
      have htrue : Truthful (success .activateMock "active_mock_verified")
          ((w.activated state).put .journal none) := {
        verified := fun _ =>
          ⟨⟨unit, hobserved, henabled, hactive⟩, hhealth, rfl,
            ⟨state, by simp [World.activated, World.put], hstatus⟩, World.put_files_eq none⟩
        rolledBack := fun hresult => absurd hresult (by simp [success])
        otherwise := fun hresult => absurd rfl hresult }
      exact ⟨fun _ => hsound, fun _ => htrue⟩
  | error _ =>
      have hkept : (w.activated state).keep .journal = w.activated state := by
        have hnot : (decide (FileName.journal = .journal) &&
            (w.activated state).chronicle.journalWritten &&
            !(w.activated state).chronicle.stateWritten) = false := by
          simp [World.activated]
        rw [World.keep, hnot, Bool.or_false]
      obtain rfl : w' = (w.activated state).keep .journal := hr
      rw [hkept]
      refine judged_blocked hsound fun _ => ?_
      have hsame : (w.activated state).files .journal = w.files .journal := by
        simp [World.activated, World.put]
      rw [hsame]
      exact h.journal

/-- From here on a failure stops and disables the unit. -/
theorem fail_started_spec {reason : String} (h : Ongoing w) (hstranded : w.chronicle.stranded = false) :
    Ends (fail true true reason) Judged w :=
  fail_spec h (Or.inl rfl) (Or.inl rfl) fun _ => hstranded

/-- An enabled unit is started, or stopped and disabled. -/
theorem startUnit_spec (h : Ongoing w) (henabled : w.unit.isEnabled = true)
    (hstranded : w.chronicle.stranded = false) : Ends (startUnit digest) Judged w := by
  rw [Ends, startUnit, Prog.spec_bind, Prog.spec_attempt]
  refine command_spec (by decide) (fun e unit _ => ?_) fun unit htouch => ?_
  · have hsame := @World.Same.after w .start (by decide) true unit
    exact fail_started_spec (hsame.ongoing h) (hsame.stranded.trans hstranded)
  have hsame := @World.Same.after w .start (by decide) false unit
  have hopen := hsame.ongoing h
  have hclear := hsame.stranded.trans hstranded
  have hstill : unit.isEnabled = true := by
    rw [isEnabled_of_same (htouch .unitFileState (by simp [Touches])), henabled]
  dsimp only
  rw [Prog.spec_bind, Prog.spec_attempt]
  refine systemdState_spec ?_ fun e => fail_started_spec hopen hclear
  have hseen := (World.Same.observe (w.after .start false unit)).ongoing hopen
  dsimp only
  by_cases hrunning : (!unit.read.active || decide (unit.read.pid ≤ 0)) = true
  · rw [World.after_unit, if_pos hrunning]
    exact fail_started_spec hseen hclear
  · rw [World.after_unit, if_neg hrunning, Prog.spec_bind, Prog.spec_attempt]
    simp only [read_active, Bool.or_eq_true, Bool.not_eq_true', not_or, Bool.not_eq_false]
      at hrunning
    refine ask_spec fun r w₁ hr => ?_
    cases r with
    | error e =>
        obtain rfl : w₁ = (w.after .start false unit).observe := hr
        exact fail_started_spec hseen hclear
    | ok _ =>
        have hhealthy : Ongoing w₁ ∧ w₁.chronicle.stranded = false ∧
            w₁.chronicle.observed = some unit ∧ w₁.chronicle.healthPassed = true := by
          rw [show w₁ = _ from hr]
          exact ⟨⟨hseen.journal, hseen.written, hseen.noState, hseen.notKept⟩, hclear, rfl, rfl⟩
        obtain ⟨hopen₁, hclear₁, hobserved, hhealth⟩ := hhealthy
        dsimp only
        rw [Prog.spec_bind, Prog.spec_attempt]
        refine writeState_spec (fun state hstatus => ?_) fun e x => ?_
        · exact conclude_spec hopen₁ hclear₁ hobserved hstill hrunning.1 hhealth hstatus
        · refine fail_started_spec ?_ hclear₁
          have hjournal : (w₁.put .candidate x).files .journal = w₁.files .journal := by simp
          exact ⟨hjournal ▸ hopen₁.journal, hopen₁.written, hopen₁.noState, hopen₁.notKept⟩

/-- **The activation, once its journal is written.** -/
theorem activateUnit_spec (h : Ongoing w) (hactive : w.unit.isActive = false)
    (henabled : w.unit.isEnabled = false) (hstranded : w.chronicle.stranded = false) :
    Ends (activateUnit digest) Judged w := by
  -- `daemon-reload` leaves the unit neither active nor enabled
  have hfail : ∀ {w' reason}, Ongoing w' → w'.unit.isActive = false → w'.unit.isEnabled = false →
      w'.chronicle.stranded = false → Ends (fail false false reason) Judged w' := by
    intro w' reason hopen hoff hnot hclear
    exact fail_spec hopen (Or.inr hoff) (Or.inr (hnot.trans hclear.symm)) (by simp)
  rw [Ends, activateUnit, Prog.spec_bind, Prog.spec_attempt]
  have hreload : ∀ (failure : Bool) (unit : UnitState),
      (∀ p, ¬ Touches .daemonReload p → unit p = w.unit p) →
      Ongoing (w.after .daemonReload failure unit) ∧ unit.isActive = false ∧
      unit.isEnabled = false ∧ (w.after .daemonReload failure unit).chronicle.stranded = false := by
    intro failure unit htouch
    have hsame := @World.Same.after w .daemonReload (by decide) failure unit
    refine ⟨hsame.ongoing h, ?_, ?_, hsame.stranded.trans hstranded⟩
    · rw [isActive_of_same (htouch .activeState (by simp [Touches])), hactive]
    · rw [isEnabled_of_same (htouch .unitFileState (by simp [Touches])), henabled]
  refine command_spec (by decide) (fun e unit₁ htouch₁ => ?_) fun unit₁ htouch₁ => ?_
  · obtain ⟨hopen, hoff, hnot, hclear⟩ := hreload true unit₁ htouch₁
    exact hfail hopen hoff hnot hclear
  obtain ⟨hopen₁, hoff₁, hnot₁, hclear₁⟩ := hreload false unit₁ htouch₁
  dsimp only
  rw [Prog.spec_bind, Prog.spec_attempt]
  refine systemdState_spec ?_ fun e => hfail hopen₁ hoff₁ hnot₁ hclear₁
  generalize hw₂ : (w.after .daemonReload false unit₁).observe = w₂
  have hopen₂ : Ongoing w₂ := hw₂ ▸ (World.Same.observe _).ongoing hopen₁
  have hoff₂ : w₂.unit.isActive = false := hw₂ ▸ hoff₁
  have hnot₂ : w₂.unit.isEnabled = false := hw₂ ▸ hnot₁
  have hclear₂ : w₂.chronicle.stranded = false := hw₂ ▸ hclear₁
  dsimp only
  split
  · exact hfail hopen₂ hoff₂ hnot₂ hclear₂
  rw [Prog.spec_bind, Prog.spec_attempt]
  -- whatever `enable` does, the unit does not become active
  have henable : ∀ (failure : Bool) (unit : UnitState),
      (∀ p, ¬ Touches .enable p → unit p = w₂.unit p) →
      Ongoing (w₂.after .enable failure unit) ∧ unit.isActive = false := by
    intro failure unit htouch
    refine ⟨⟨hopen₂.journal, hopen₂.written, hopen₂.noState, hopen₂.notKept⟩, ?_⟩
    rw [isActive_of_same (htouch .activeState (by simp [Touches])), hoff₂]
  refine command_spec (by decide) (fun e unit₂ htouch₂ => ?_) fun unit₂ htouch₂ => ?_
  · obtain ⟨hopen, hoff⟩ := henable true unit₂ htouch₂
    refine fail_spec hopen (Or.inr hoff) (Or.inr ?_) (by simp)
    simp [World.after, hclear₂]
  obtain ⟨hopen₃, hoff₃⟩ := henable false unit₂ htouch₂
  have hclear₃ : (w₂.after .enable false unit₂).chronicle.stranded = false := by
    simp [World.after, hclear₂]
  have hfail' : ∀ {w' reason}, Ongoing w' → w'.unit.isActive = false →
      w'.chronicle.stranded = false → Ends (fail false true reason) Judged w' :=
    fun hopen hoff hclear => fail_spec hopen (Or.inr hoff) (Or.inl rfl) fun _ => hclear
  dsimp only
  rw [Prog.spec_bind, Prog.spec_attempt]
  refine systemdState_spec ?_ fun e => hfail' hopen₃ hoff₃ hclear₃
  have hopen₄ := (World.Same.observe _).ongoing hopen₃
  dsimp only
  cases hunit : unit₂.isEnabled with
  | false =>
      rw [World.after_unit, read_enabled, hunit]
      exact hfail' hopen₄ hoff₃ hclear₃
  | true =>
      rw [World.after_unit, read_enabled, hunit]
      exact startUnit_spec hopen₄ hunit hclear₃

/-- The unit is looked at before the journal is written, and the journal before anything else. -/
theorem activate_spec (hfresh : w.chronicle = {}) : Ends (activate digest) Judged w := by
  have hsound : ∀ {w'}, w'.chronicle.stranded = false → w'.chronicle.journalKept = false →
      w'.chronicle.journalWritten = false → ∀ reason,
      Judged (.ok (blocked .activateMock reason)) w' := by
    intro w' hstranded hkept hunwritten reason
    refine judged_blocked ⟨hstranded, hkept⟩ fun hwritten => ?_
    rw [hunwritten] at hwritten
    exact absurd hwritten (by decide)
  simp only [Ends, activate]
  rw [Prog.spec_bind, Prog.spec_attempt]
  refine validateReady_spec (fun hactive henabled => ?_) (fun e => ?_) fun e => ?_
  · have hclear : w.observe.chronicle = { observed := some w.unit } := by
      rw [World.observe_chronicle, hfresh]
    dsimp only
    rw [Prog.spec_bind, Prog.spec_attempt]
    refine writeJournal_spec (by rw [hclear]) ?_ fun e x => ?_
    · refine activateUnit_spec ⟨?_, ?_, ?_, ?_⟩ hactive henabled ?_
      · simp [World.wrote]
      · simp [World.wrote]
      · rw [World.wrote, hclear]
      · rw [World.wrote, hclear]
      · rw [World.wrote, hclear]
    · refine hsound ?_ ?_ ?_ _ <;> rw [World.put_chronicle, hclear]
  · refine hsound ?_ ?_ ?_ _ <;> rw [hfresh]
  · refine hsound ?_ ?_ ?_ _ <;> rw [World.observe_chronicle, hfresh]

/-- A run that is blocked at the start is truthful. -/
theorem blocked_fresh (hfresh : w.chronicle = {}) (reason : String) :
    Judged (.ok (blocked .activateMock reason)) w := by
  refine judged_blocked ?_ fun hwritten => ?_
  · rw [Sound, hfresh]
    exact ⟨rfl, rfl⟩
  · rw [hfresh] at hwritten
    exact absurd hwritten (by decide)

/-- The part of the run that needs the lock. -/
theorem lockedActivation_spec (hfresh : w.chronicle = {}) :
    Ends (do
      match ← (ask .acquireLock).attempt with
      | .error e => return blocked .activateMock (code e)
      | .ok _ =>
        let report ← activate digest
        let _ ← (ask .releaseLock).attempt
        return report) Judged w := by
  rw [Ends, Prog.spec_bind, Prog.spec_attempt]
  refine ask_unchanged (fun r w' hr => by cases r <;> exact hr) fun r => ?_
  cases r with
  | error e => exact blocked_fresh hfresh _
  | ok _ =>
      dsimp only
      rw [Prog.spec_bind]
      refine (activate_spec hfresh).mono (fun _ h => h) fun o w' ho => ?_
      cases o with
      | error e => exact ho
      | ok report =>
          dsimp only
          rw [Prog.spec_bind, Prog.spec_attempt]
          exact ask_unchanged (fun r w'' hr => by cases r <;> exact hr) fun r => ho

theorem runActivateMock_spec {host : Host} {confirmation : String} (hfresh : w.chronicle = {}) :
    Ends (runActivateMock digest host confirmation) Judged w := by
  have hblocked := @blocked_fresh w hfresh
  rw [Ends, runActivateMock]
  split
  · exact hblocked _
  split
  · exact hblocked _
  split
  · exact hblocked _
  rw [readJournal, Prog.spec_bind, Prog.spec_bind, Prog.spec_attempt]
  refine ask_unchanged (fun r w' hr => ?_) fun r => ?_
  · cases r with
    | error _ => exact hr
    | ok _ => exact hr.2
  cases r with
  | error _ => exact hblocked _
  | ok journal =>
      cases journal with
      | none => exact lockedActivation_spec hfresh
      | some _ => exact hblocked _

end Activation

/-! ## The report of an activation -/

/-- The host before an activation. -/
def World.start (unit : UnitState) (files : FileName → Option File) : World := ⟨unit, files, {}⟩

/-- **Every activation ends with a report, and the report is true exactly when
no `enable` failed with its effect and the journal of a roll back was removed.** -/
theorem activation_truthful_iff (digest : Text → String) (host : Host) (confirmation : String)
    (unit : UnitState) (files : FileName → Option File) (o : Except String Report) (w' : World)
    (h : Prog.Exec step (runActivateMock digest host confirmation) (.start unit files) o w') :
    ∃ report, o = .ok report ∧ (Truthful report w' ↔ Sound w') := by
  have hjudged : Judged o w' := (runActivateMock_spec rfl).exec h
  cases o with
  | ok report => exact ⟨report, rfl, hjudged⟩
  | error e => exact hjudged.elim

/-! ## Two activations -/

def value (text : String) (h : newline ∉ bytes text) : Value := ⟨bytes text, h⟩

/-- A loaded unit that has not been enabled. -/
def idleUnit : UnitState
  | .loadState => value "loaded" (by decide +kernel)
  | .activeState => value "inactive" (by decide +kernel)
  | .subState => value "dead" (by decide +kernel)
  | .unitFileState => value "disabled" (by decide +kernel)
  | .mainPID => value "0" (by decide +kernel)
  | .execMainStatus => value "0" (by decide +kernel)

/-- What a command is for. -/
def effect (unit : UnitState) : Systemctl → UnitState
  | .show | .daemonReload => unit
  | .enable => Function.update unit .unitFileState (value "enabled" (by decide +kernel))
  | .disable => Function.update unit .unitFileState (idleUnit .unitFileState)
  | .start =>
    Function.update (Function.update (Function.update unit
      .activeState (value "active" (by decide +kernel)))
      .subState (value "running" (by decide +kernel)))
      .mainPID (value "4711" (by decide +kernel))
  | .stop =>
    Function.update (Function.update (Function.update unit
      .activeState (idleUnit .activeState))
      .subState (idleUnit .subState))
      .mainPID (idleUnit .mainPID)

/-- A host on which everything works, except that `enable` may exit with 1
after it has had its effect. -/
def answer (enableFails : Bool) (w : World) : (call : Call) → Except String (Answer call) × World
  | .systemctl .show => (.ok ⟨w.unit.shown Property.all, 0⟩, w.observe)
  | .systemctl .enable =>
    (.ok ⟨[], if enableFails then 1 else 0⟩, w.after .enable enableFails (effect w.unit .enable))
  | .systemctl c => (.ok ⟨[], 0⟩, w.after c false (effect w.unit c))
  | .health _ => (.ok (), { w with chronicle := { w.chronicle with healthPassed := true } })
  | .readJournal => (.ok ((w.files .journal).map fun _ => []), w)
  | .lstat _ => (.ok false, w)
  | .manifest => (.ok ⟨"1.0.0", "0000000000000000000000000000000000000000"⟩, w)
  | .configuration => (.ok [], w)
  | .unitFile => (.ok [], w)
  | .openNew file =>
    if w.files file = none then (.ok (), w.put file (some ⟨none, .opened⟩))
    else (.error "file exists", w)
  | .write file document => (.ok (), w.put file (some ⟨some document, .filled⟩))
  | .sync file =>
    (.ok (), w.put file ((w.files file).map fun content => { content with stage := .synced }))
  | .close file => (.ok (), w.closeFile file)
  | .remove file => (.ok (), w.put file none)
  | .rename source target =>
    (.ok (), { (w.put target (w.files source)).put source none with
      chronicle := { w.chronicle with
        stateWritten := w.chronicle.stateWritten || target = .stateFile } })
  | .acquireLock | .releaseLock | .validateStatic | .identity | .mkdirAll => (.ok (), w)

theorem step_answer (enableFails : Bool) (w : World) (call : Call) :
    step w call (answer enableFails w call).1 (answer enableFails w call).2 := by
  cases call with
  | systemctl c =>
      by_cases hshow : c = .show
      · rw [hshow]
        exact ⟨Property.all, .refl _, rfl, rfl⟩
      have heffect : ∀ p, ¬ Touches c p → effect w.unit c p = w.unit p := by
        intro p hp
        cases c <;> cases p <;> first | rfl | exact absurd (by simp [Touches]) hp
      cases c
      all_goals first
        | exact absurd rfl hshow
        | exact ⟨_, heffect, rfl⟩
        | exact ⟨_, heffect, by cases enableFails <;> rfl⟩
  | openNew file =>
      simp only [answer]
      split
      · next hnone => exact ⟨hnone, rfl⟩
      · rfl
  | readJournal =>
      refine ⟨?_, rfl⟩
      cases w.files .journal <;> simp
  | _ => rfl

def host : Host := ⟨0, "linux", "amd64"⟩

def activation (enableFails : Bool) : Except String Report × World :=
  Prog.run (answer enableFails) (runActivateMock (fun _ => "") host ActivationConfirmation)
    (.start idleUnit fun _ => none)

theorem exec_activation (enableFails : Bool) :
    Prog.Exec step (runActivateMock (fun _ => "") host ActivationConfirmation)
      (.start idleUnit fun _ => none) (activation enableFails).1 (activation enableFails).2 :=
  Prog.exec_run (step_answer enableFails) _ _

theorem activation_truthful_iff_works :
    (activation false).1 = .ok (success .activateMock "active_mock_verified") ∧
    Sound (activation false).2 ∧
    ∃ report, (activation false).1 = .ok report ∧
      (Truthful report (activation false).2 ↔ Sound (activation false).2) :=
  ⟨by decide +kernel, by decide +kernel,
    activation_truthful_iff _ _ _ _ _ _ _ (exec_activation false)⟩

/-- An `enable` that fails after its effect leaves the unit enabled, and the
report says that the activation was rolled back. -/
theorem not_truthful_enable : ¬ ∀ (digest : Text → String) (host : Host) (confirmation : String)
    (unit : UnitState) (files : FileName → Option File) (report : Report) (w' : World),
    Prog.Exec step (runActivateMock digest host confirmation) (.start unit files) (.ok report) w' →
    Truthful report w' := by
  intro h
  have hreport : (activation true).1 = .ok
        (failure .activateMock "activation_failed_rolled_back" "service_enable_failed") ∧
      (activation true).2.unit.isEnabled = true := by decide +kernel
  have hrun := exec_activation true
  rw [hreport.1] at hrun
  have hdisabled := ((h _ _ _ _ _ _ _ hrun).rolledBack rfl).2.1
  rw [hreport.2] at hdisabled
  exact absurd hdisabled (by decide)

end AtlasManager.Deployment.ServiceLifecycle
