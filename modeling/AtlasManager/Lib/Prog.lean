import Mathlib

/-!
# AtlasManager.Lib.Prog

Programs that talk to the outside world through ports, and a logic for what
holds of their runs.

A program is a tree: it returns, throws, or calls a port and goes on with the
answer, a value or a thrown error.  A *handler* says which answers the world
may give and what the call does to it; nothing else is assumed about ports.

* `Exec` -- the complete runs; `Reach` -- the worlds after any number of calls
  of a run, that is wherever a run may stop when the process dies;
* `Spec` -- an assertion about every run: `J` after every call, `Q` at the end.
  `Spec.exec` and `Spec.reach` say that it holds of runs;
* `Only` -- an assertion about every call of a program;
* `interpret` -- ports that are programs over other ports; `spec_interpret_of_only`
  and `Spec.component` lift assertions through it;
* `Log` -- the world in which every call is recorded with its answer;
  `exec_logged_unique` -- a run is known by its log.
-/

namespace AtlasManager.Lib

/-- A program over the ports `C`, whose answers have the types `R`. -/
inductive Prog (C : Type) (R : C → Type) (ε : Type) (α : Type) where
  | pure (a : α)
  | throw (e : ε)
  | call (c : C) (k : Except ε (R c) → Prog C R ε α)

namespace Prog

variable {C : Type} {R : C → Type} {ε α β W : Type}

/-! ## Building programs -/

protected def bind : Prog C R ε α → (α → Prog C R ε β) → Prog C R ε β
  | pure a, f => f a
  | throw e, _ => throw e
  | call c k, f => call c fun r => (k r).bind f

instance : Monad (Prog C R ε) where
  pure := Prog.pure
  bind := Prog.bind

/-- Call a port and go on with its value; a thrown error passes through. -/
def perform (c : C) : Prog C R ε (R c) :=
  call c fun
    | .ok a => pure a
    | .error e => throw e

/-- Run a program and go on with how it ended, as the block of a `try` does. -/
def attempt : Prog C R ε α → Prog C R ε (Except ε α)
  | pure a => pure (.ok a)
  | throw e => pure (.error e)
  | call c k => call c fun r => (k r).attempt

/-- A computation without calls. -/
def ofExcept : Except ε α → Prog C R ε α
  | .ok a => pure a
  | .error e => throw e

/-! ## Runs -/

/-- `H w c r w'`: in the world `w` the call `c` may be answered with `r`, which
leaves the world `w'`. -/
abbrev Handler (C : Type) (R : C → Type) (ε W : Type) :=
  W → (c : C) → Except ε (R c) → W → Prop

/-- A complete run, how it ended and the world it leaves. -/
inductive Exec (H : Handler C R ε W) : Prog C R ε α → W → Except ε α → W → Prop where
  | pure {a w} : Exec H (.pure a) w (.ok a) w
  | throw {e w} : Exec H (.throw e) w (.error e) w
  | call {c k r o w w' w''} : H w c r w' → Exec H (k r) w' o w'' → Exec H (.call c k) w o w''

/-- A world a run passes through: the one before the first call, or the one
after some call. -/
inductive Reach (H : Handler C R ε W) : Prog C R ε α → W → W → Prop where
  | start {p w} : Reach H p w w
  | call {c k r w w' w''} : H w c r w' → Reach H (k r) w' w'' → Reach H (.call c k) w w''

theorem exec_perform {H : Handler C R ε W} {c : C} {w w' : W} {r : Except ε (R c)}
    (h : Exec H (perform c) w r w') : H w c r w' := by
  cases h with
  | @call _ _ answer _ _ _ _ hcall hrest =>
      cases answer with
      | ok a => cases hrest; exact hcall
      | error e => cases hrest; exact hcall

/-- Runs over one world are runs over another, when the calls are. -/
theorem Exec.map {W' : Type} {H : Handler C R ε W} {H' : Handler C R ε W'} {f : W → W'}
    (hf : ∀ w c r w', H w c r w' → H' (f w) c r (f w')) {p : Prog C R ε α} {w w' : W}
    {o : Except ε α} (h : Exec H p w o w') : Exec H' p (f w) o (f w') := by
  induction h with
  | pure => exact .pure
  | throw => exact .throw
  | call hcall _ ih => exact .call (hf _ _ _ _ hcall) ih

theorem Exec.reach {H : Handler C R ε W} {p : Prog C R ε α} {w w' : W} {o : Except ε α}
    (h : Exec H p w o w') : Reach H p w w' := by
  induction h with
  | pure => exact .start
  | throw => exact .start
  | call hcall _ ih => exact .call hcall ih

/-- The run in which the world answers by a function. -/
def run (answer : W → (c : C) → Except ε (R c) × W) : Prog C R ε α → W → Except ε α × W
  | .pure a, w => (.ok a, w)
  | .throw e, w => (.error e, w)
  | .call c k, w => run answer (k (answer w c).1) (answer w c).2

section Run

variable (answer : W → (c : C) → Except ε (R c) × W)

@[simp] theorem run_pure (a : α) (w : W) :
    run answer (Pure.pure a : Prog C R ε α) w = (.ok a, w) := rfl

@[simp] theorem run_throw (e : ε) (w : W) :
    run answer (.throw e : Prog C R ε α) w = (.error e, w) := rfl

@[simp] theorem run_perform (c : C) (w : W) : run answer (perform c) w = answer w c := by
  rw [perform, run]
  rcases h : answer w c with ⟨r, w'⟩
  cases r <;> rfl

@[simp] theorem run_bind (p : Prog C R ε α) (f : α → Prog C R ε β) (w : W) :
    run answer (p >>= f) w =
      match run answer p w with
      | (.ok a, w') => run answer (f a) w'
      | (.error e, w') => (.error e, w') := by
  change run answer (p.bind f) w = _
  induction p generalizing w with
  | pure a => rfl
  | throw e => rfl
  | call c k ih => exact ih _ _

@[simp] theorem run_attempt (p : Prog C R ε α) (w : W) :
    run answer p.attempt w = (.ok (run answer p w).1, (run answer p w).2) := by
  induction p generalizing w with
  | pure a => rfl
  | throw e => rfl
  | call c k ih => exact ih _ _

@[simp] theorem run_ofExcept (o : Except ε α) (w : W) : run answer (ofExcept o) w = (o, w) := by
  cases o <;> rfl

end Run

theorem exec_run {H : Handler C R ε W} {answer : W → (c : C) → Except ε (R c) × W}
    (hanswer : ∀ w c, H w c (answer w c).1 (answer w c).2) (p : Prog C R ε α) (w : W) :
    Exec H p w (run answer p w).1 (run answer p w).2 := by
  induction p generalizing w with
  | pure a => exact .pure
  | throw e => exact .throw
  | call c k ih => exact .call (hanswer w c) (ih _ _)

/-- Where the run in which the world answers by a function is after so many calls. -/
def stopAfter (answer : W → (c : C) → Except ε (R c) × W) : Nat → Prog C R ε α → W → W
  | 0, _, w => w
  | n + 1, .call c k, w => stopAfter answer n (k (answer w c).1) (answer w c).2
  | _ + 1, _, w => w

theorem reach_stopAfter {H : Handler C R ε W} {answer : W → (c : C) → Except ε (R c) × W}
    (hanswer : ∀ w c, H w c (answer w c).1 (answer w c).2) (n : Nat) (p : Prog C R ε α) (w : W) :
    Reach H p w (stopAfter answer n p w) := by
  induction n generalizing p w with
  | zero => exact .start
  | succ n ih =>
      cases p with
      | pure a => exact .start
      | throw e => exact .start
      | call c k => exact .call (hanswer w c) (ih _ _)

/-! ## Assertions about every run -/

/-- Every run keeps `J` after each call and ends with `Q`. -/
def Spec (H : Handler C R ε W) (J : W → Prop) :
    Prog C R ε α → (Except ε α → W → Prop) → W → Prop
  | .pure a, Q, w => Q (.ok a) w
  | .throw e, Q, w => Q (.error e) w
  | .call c k, Q, w => ∀ r w', H w c r w' → J w' ∧ Spec H J (k r) Q w'

section Rules

variable {H : Handler C R ε W} {J : W → Prop} {w : W}

@[simp] theorem spec_pure {a : α} {Q : Except ε α → W → Prop} :
    Spec H J (Pure.pure a) Q w ↔ Q (.ok a) w := Iff.rfl

@[simp] theorem spec_pure' {a : α} {Q : Except ε α → W → Prop} :
    Spec H J (.pure a) Q w ↔ Q (.ok a) w := Iff.rfl

@[simp] theorem spec_throw {e : ε} {Q : Except ε α → W → Prop} :
    Spec H J (.throw e) Q w ↔ Q (.error e) w := Iff.rfl

theorem spec_call {c : C} {k : Except ε (R c) → Prog C R ε α} {Q : Except ε α → W → Prop} :
    Spec H J (.call c k) Q w ↔ ∀ r w', H w c r w' → J w' ∧ Spec H J (k r) Q w' := Iff.rfl

@[simp] theorem spec_perform {c : C} {Q : Except ε (R c) → W → Prop} :
    Spec H J (perform c) Q w ↔ ∀ r w', H w c r w' → J w' ∧ Q r w' := by
  rw [perform, spec_call]
  constructor
  · intro h r w' hr
    have := h r w' hr
    cases r <;> exact this
  · intro h r w' hr
    have := h r w' hr
    cases r <;> exact this

@[simp] theorem spec_bind {p : Prog C R ε α} {f : α → Prog C R ε β}
    {Q : Except ε β → W → Prop} :
    Spec H J (p >>= f) Q w ↔ Spec H J p (fun
      | .ok a, w' => Spec H J (f a) Q w'
      | .error e, w' => Q (.error e) w') w := by
  change Spec H J (p.bind f) Q w ↔ _
  induction p generalizing w with
  | pure a => rfl
  | throw e => rfl
  | call c k ih => simp only [Prog.bind, spec_call, ih]

@[simp] theorem spec_attempt {p : Prog C R ε α} {Q : Except ε (Except ε α) → W → Prop} :
    Spec H J (attempt p) Q w ↔ Spec H J p (fun o w' => Q (.ok o) w') w := by
  induction p generalizing w with
  | pure a => rfl
  | throw e => rfl
  | call c k ih => simp only [attempt, spec_call, ih]

@[simp] theorem spec_ofExcept {o : Except ε α} {Q : Except ε α → W → Prop} :
    Spec H J (ofExcept o) Q w ↔ Q o w := by
  cases o <;> rfl

/-- The rule of consequence. -/
theorem Spec.mono {J' : W → Prop} {p : Prog C R ε α} {Q Q' : Except ε α → W → Prop}
    (h : Spec H J p Q w) (hJ : ∀ w, J w → J' w) (hQ : ∀ o w, Q o w → Q' o w) :
    Spec H J' p Q' w := by
  induction p generalizing w with
  | pure a => exact hQ _ _ h
  | throw e => exact hQ _ _ h
  | call c k ih => exact fun r w' hr => ⟨hJ _ (h r w' hr).1, ih r (h r w' hr).2⟩

theorem Spec.trivial (p : Prog C R ε α) : Spec H (fun _ => True) p (fun _ _ => True) w := by
  induction p generalizing w with
  | pure a => exact True.intro
  | throw e => exact True.intro
  | call c k ih => exact fun r w' _ => ⟨True.intro, ih r⟩

/-- Two assertions about the same runs. -/
theorem Spec.and {J' : W → Prop} {p : Prog C R ε α} {Q Q' : Except ε α → W → Prop}
    (h : Spec H J p Q w) (h' : Spec H J' p Q' w) :
    Spec H (fun w => J w ∧ J' w) p (fun o w => Q o w ∧ Q' o w) w := by
  induction p generalizing w with
  | pure a => exact ⟨h, h'⟩
  | throw e => exact ⟨h, h'⟩
  | call c k ih =>
      intro r w' hr
      exact ⟨⟨(h r w' hr).1, (h' r w' hr).1⟩, ih r (h r w' hr).2 (h' r w' hr).2⟩

/-- The end of a run may use that it was run. -/
theorem Spec.end_of_exec {p : Prog C R ε α} {Q : Except ε α → W → Prop} (h : Spec H J p Q w) :
    Spec H J p (fun o w' => Q o w' ∧ Exec H p w o w') w := by
  induction p generalizing w with
  | pure a => exact ⟨h, .pure⟩
  | throw e => exact ⟨h, .throw⟩
  | call c k ih =>
      intro r w' hr
      have hrest := ih r (h r w' hr).2
      exact ⟨(h r w' hr).1, hrest.mono (fun _ h => h) fun o w'' ho => ⟨ho.1, .call hr ho.2⟩⟩

/-- A specification holds at the end of every complete run. -/
theorem Spec.exec {p : Prog C R ε α} {Q : Except ε α → W → Prop} {o : Except ε α} {w' : W}
    (h : Spec H J p Q w) (hexec : Exec H p w o w') : Q o w' := by
  induction hexec with
  | pure => exact h
  | throw => exact h
  | call hcall _ ih => exact ih (h _ _ hcall).2

/-- A specification holds wherever a run may stop. -/
theorem Spec.reach {p : Prog C R ε α} {Q : Except ε α → W → Prop} {w' : W}
    (h : Spec H J p Q w) (hw : J w) (hreach : Reach H p w w') : J w' := by
  induction hreach with
  | start => exact hw
  | call hcall _ ih => exact ih (h _ _ hcall).2 (h _ _ hcall).1

/-- Invariants of single calls hold throughout a run. -/
theorem spec_of_invariant (hJ : ∀ w c r w', J w → H w c r w' → J w') (p : Prog C R ε α)
    (hw : J w) : Spec H J p (fun _ w' => J w') w := by
  induction p generalizing w with
  | pure a => exact hw
  | throw e => exact hw
  | call c k ih => exact fun r w' hr => ⟨hJ w c r w' hw hr, ih r (hJ w c r w' hw hr)⟩

end Rules

/-! ## The calls of a program -/

/-- Every call that the program makes, in any run, satisfies `P`. -/
def Only (P : C → Prop) : Prog C R ε α → Prop
  | .pure _ => True
  | .throw _ => True
  | .call c k => P c ∧ ∀ r, Only P (k r)

section Only

variable {P : C → Prop}

@[simp] theorem only_pure {a : α} : Only P (Pure.pure a : Prog C R ε α) := trivial

@[simp] theorem only_pure' {a : α} : Only P (.pure a : Prog C R ε α) := trivial

@[simp] theorem only_throw {e : ε} : Only P (.throw e : Prog C R ε α) := trivial

@[simp] theorem only_perform {c : C} : Only P (perform c : Prog C R ε (R c)) ↔ P c := by
  constructor
  · exact fun h => h.1
  · intro h
    refine ⟨h, fun r => ?_⟩
    cases r <;> trivial

theorem Only.bind {p : Prog C R ε α} {f : α → Prog C R ε β} (hp : Only P p)
    (hf : ∀ a, Only P (f a)) : Only P (p >>= f) := by
  change Only P (p.bind f)
  induction p with
  | pure a => exact hf a
  | throw e => trivial
  | call c k ih => exact ⟨hp.1, fun r => ih r (hp.2 r)⟩

theorem Only.mono {P' : C → Prop} {p : Prog C R ε α} (hp : Only P p)
    (h : ∀ c, P c → P' c) : Only P' p := by
  induction p with
  | pure a => trivial
  | throw e => trivial
  | call c k ih => exact ⟨h c hp.1, fun r => ih r (hp.2 r)⟩

@[simp] theorem only_attempt {p : Prog C R ε α} : Only P p.attempt ↔ Only P p := by
  induction p with
  | pure a => exact Iff.rfl
  | throw e => exact Iff.rfl
  | call c k ih => exact and_congr_right fun _ => forall_congr' ih

@[simp] theorem only_ofExcept {o : Except ε α} : Only P (ofExcept o : Prog C R ε α) := by
  cases o <;> trivial

/-- What the calls of a program keep holds throughout its runs. -/
theorem spec_of_only {H : Handler C R ε W} {J : W → Prop} {p : Prog C R ε α} {w : W}
    (hp : Only P p) (hJ : ∀ w c r w', P c → J w → H w c r w' → J w') (hw : J w) :
    Spec H J p (fun _ w' => J w') w := by
  induction p generalizing w with
  | pure a => exact hw
  | throw e => exact hw
  | call c k ih =>
      intro r w' hr
      have hw' := hJ w c r w' hp.1 hw hr
      exact ⟨hw', ih r (hp.2 r) hw'⟩

/-- A first part whose calls keep `I`, and then the rest. -/
theorem Spec.bind_of_only {H : Handler C R ε W} {I J : W → Prop} {p : Prog C R ε α}
    {f : α → Prog C R ε β} {Q : Except ε β → W → Prop} {w : W} (hp : Only P p)
    (hI : ∀ w c r w', P c → I w → H w c r w' → I w') (hJ : ∀ w, I w → J w) (hw : I w)
    (hok : ∀ a w', I w' → Spec H J (f a) Q w') (herr : ∀ e w', I w' → Q (.error e) w') :
    Spec H J (p >>= f) Q w := by
  rw [spec_bind]
  refine (spec_of_only hp hI hw).mono hJ fun o w' hw' => ?_
  cases o with
  | ok a => exact hok a w' hw'
  | error e => exact herr e w' hw'

end Only

/-! ## Ports that are programs -/

section Interpret

variable {C' : Type} {R' : C' → Type}

/-- The program in which every call is made by a program over other ports. -/
def interpret (f : (c : C) → Prog C' R' ε (R c)) : Prog C R ε α → Prog C' R' ε α
  | .pure a => .pure a
  | .throw e => .throw e
  | .call c k => (f c).attempt >>= fun r => (k r).interpret f

section Laws

variable {f : (c : C) → Prog C' R' ε (R c)}

@[simp] theorem interpret_pure (a : α) :
    interpret f (Pure.pure a : Prog C R ε α) = Pure.pure a := rfl

@[simp] theorem interpret_pure' (a : α) :
    interpret f (.pure a : Prog C R ε α) = .pure a := rfl

@[simp] theorem interpret_throw (e : ε) : interpret f (.throw e : Prog C R ε α) = .throw e := rfl

@[simp] theorem interpret_ofExcept (o : Except ε α) :
    interpret f (ofExcept o : Prog C R ε α) = ofExcept o := by
  cases o <;> rfl

private theorem bind_assoc' {γ : Type} (p : Prog C R ε α) (g : α → Prog C R ε β)
    (h : β → Prog C R ε γ) : (p >>= g) >>= h = p >>= fun a => g a >>= h := by
  change (p.bind g).bind h = p.bind fun a => (g a).bind h
  induction p with
  | pure a => rfl
  | throw e => rfl
  | call c k ih => exact congrArg (Prog.call c) (funext ih)

@[simp] theorem interpret_bind (p : Prog C R ε α) (g : α → Prog C R ε β) :
    interpret f (p >>= g) = interpret f p >>= fun a => interpret f (g a) := by
  change interpret f (p.bind g) = _
  induction p with
  | pure a => rfl
  | throw e => rfl
  | call c k ih =>
      simp only [Prog.bind, interpret, bind_assoc']
      exact congrArg _ (funext ih)

/-- A program that has been tried does not throw. -/
private theorem attempt_attempt_bind (p : Prog C R ε α) (g : Except ε α → Prog C R ε β) :
    (p.attempt >>= g).attempt = p.attempt >>= fun r => (g r).attempt := by
  change (p.attempt.bind g).attempt = p.attempt.bind _
  induction p with
  | pure a => rfl
  | throw e => rfl
  | call c k ih => exact congrArg (Prog.call c) (funext ih)

@[simp] theorem interpret_attempt (p : Prog C R ε α) :
    interpret f p.attempt = (interpret f p).attempt := by
  induction p with
  | pure a => rfl
  | throw e => rfl
  | call c k ih =>
      simp only [attempt, interpret, attempt_attempt_bind]
      exact congrArg _ (funext ih)

@[simp] theorem interpret_perform (c : C) : interpret f (perform c) = f c := by
  have hthen : ∀ p : Prog C' R' ε (R c), (p.attempt >>= fun r => interpret f
      (match r with
        | .ok a => (.pure a : Prog C R ε (R c))
        | .error e => .throw e)) = p := by
    intro p
    change p.attempt.bind _ = p
    induction p with
    | pure a => rfl
    | throw e => rfl
    | call c k ih => exact congrArg (Prog.call c) (funext ih)
  exact hthen (f c)

end Laws

theorem Only.interpret {P : C → Prop} {P' : C' → Prop} {f : (c : C) → Prog C' R' ε (R c)}
    {p : Prog C R ε α} (hp : Only P p) (hf : ∀ c, P c → Only P' (f c)) :
    Only P' (p.interpret f) := by
  induction p with
  | pure a => trivial
  | throw e => trivial
  | call c k ih => exact Only.bind (only_attempt.mpr (hf c hp.1)) fun r => ih r (hp.2 r)

/-- What the programs for the calls keep holds throughout the runs. -/
theorem spec_interpret_of_only {H : Handler C' R' ε W} {f : (c : C) → Prog C' R' ε (R c)}
    {P : C → Prop} {J : W → Prop} {p : Prog C R ε α} {w : W} (hp : Only P p)
    (hf : ∀ c w, P c → J w → Spec H J (f c) (fun _ => J) w) (hw : J w) :
    Spec H J (p.interpret f) (fun _ => J) w := by
  induction p generalizing w with
  | pure a => exact hw
  | throw e => exact hw
  | call c k ih =>
      rw [Prog.interpret, spec_bind, spec_attempt]
      exact (hf c w hp.1 hw).mono (fun _ h => h) fun r w' hw' => ih r (hp.2 r) hw'

end Interpret

/-- A component of a world. -/
structure Component (W' W : Type) where
  get : W' → W
  put : W' → W → W'
  get_put : ∀ w' w, get (put w' w) = w
  put_get : ∀ w', put w' (get w') = w'
  put_put : ∀ w' v w, put (put w' v) w = put w' w

section Component

variable {C' : Type} {R' : C' → Type} {W' : Type}

/-- What holds of a program over a small world holds in a large one whose calls
act on a component like the calls in the small world. -/
theorem Spec.component {H : Handler C R ε W} {H' : Handler C' R' ε W'}
    {f : (c : C) → Prog C' R' ε (R c)} (part : Component W' W)
    (hf : ∀ c w' (J' : W' → Prop) (Q' : Except ε (R c) → W' → Prop),
      (∀ r w, H (part.get w') c r w → J' (part.put w' w) ∧ Q' r (part.put w' w)) →
      Spec H' J' (f c) Q' w')
    {J : W → Prop} {p : Prog C R ε α} {Q : Except ε α → W → Prop} {w' : W'}
    (h : Spec H J p Q (part.get w')) :
    Spec H' (fun u => ∃ w, u = part.put w' w ∧ J w) (p.interpret f)
      (fun o u => ∃ w, u = part.put w' w ∧ Q o w) w' := by
  suffices hstrong : ∀ v, Spec H J p Q v →
      Spec H' (fun u => ∃ w, u = part.put w' w ∧ J w) (p.interpret f)
        (fun o u => ∃ w, u = part.put w' w ∧ Q o w) (part.put w' v) by
    have := hstrong (part.get w') h
    rwa [part.put_get] at this
  clear h
  induction p with
  | pure a => exact fun v h => ⟨v, rfl, h⟩
  | throw e => exact fun v h => ⟨v, rfl, h⟩
  | call c k ih =>
      intro v h
      rw [Prog.interpret, spec_bind, spec_attempt]
      refine hf c (part.put w' v) _ _ fun r w hr => ?_
      rw [part.get_put] at hr
      rw [part.put_put]
      exact ⟨⟨w, rfl, (h r w hr).1⟩, ih r w (h r w hr).2⟩

end Component

/-! ## The log of a run -/

/-- A call and its answer. -/
structure Event (C : Type) (R : C → Type) (ε : Type) where
  call : C
  answer : Except ε (R call)

/-- What a run has done so far, the latest call first. -/
abbrev Log (C : Type) (R : C → Type) (ε : Type) := List (Event C R ε)

/-- The world that records every call; `A` says which answers are possible. -/
def logged (A : (c : C) → Except ε (R c) → Prop) : Handler C R ε (Log C R ε) :=
  fun log c r log' => A c r ∧ log' = ⟨c, r⟩ :: log

@[simp] theorem logged_iff {A : (c : C) → Except ε (R c) → Prop} {log log' : Log C R ε} {c : C}
    {r : Except ε (R c)} : logged A log c r log' ↔ A c r ∧ log' = ⟨c, r⟩ :: log := Iff.rfl

/-- A run only adds to the log. -/
theorem Exec.suffix {A : (c : C) → Except ε (R c) → Prop} {p : Prog C R ε α} {log log' : Log C R ε}
    {o : Except ε α} (h : Exec (logged A) p log o log') : log <:+ log' := by
  induction h with
  | pure => exact List.suffix_refl _
  | throw => exact List.suffix_refl _
  | call hcall _ ih =>
      obtain ⟨-, rfl⟩ := hcall
      exact (List.suffix_cons _ _).trans ih

/-- Runs that begin alike and go along the same log are the same. -/
theorem exec_logged_unique {A : (c : C) → Except ε (R c) → Prop} {p : Prog C R ε α}
    {log log₁ log₂ whole : Log C R ε} {o₁ o₂ : Except ε α} (h₁ : Exec (logged A) p log o₁ log₁)
    (h₂ : Exec (logged A) p log o₂ log₂) (hwhole₁ : log₁ <:+ whole) (hwhole₂ : log₂ <:+ whole) :
    o₁ = o₂ ∧ log₁ = log₂ := by
  induction p generalizing log with
  | pure a => cases h₁; cases h₂; exact ⟨rfl, rfl⟩
  | throw e => cases h₁; cases h₂; exact ⟨rfl, rfl⟩
  | call c k ih =>
      cases h₁ with
      | @call _ _ r₁ _ _ _ _ hcall₁ hrest₁ =>
          cases h₂ with
          | @call _ _ r₂ _ _ _ _ hcall₂ hrest₂ =>
              obtain ⟨-, rfl⟩ := hcall₁
              obtain ⟨-, rfl⟩ := hcall₂
              -- at the same place of the log there is the same answer
              have hsame : (⟨c, r₁⟩ :: log : Log C R ε) = ⟨c, r₂⟩ :: log :=
                (List.suffix_of_suffix_length_le (hrest₁.suffix.trans hwhole₁)
                  (hrest₂.suffix.trans hwhole₂) (by simp)).eq_of_length (by simp)
              obtain rfl : r₁ = r₂ := by
                injection hsame with hevent
                injection hevent
              exact ih r₁ hrest₁ hrest₂

/-- The world in which the calls act and are recorded. -/
def recorded {W : Type} (H : Handler C R ε W) : Handler C R ε (W × Log C R ε) :=
  fun w c r w' => H w.1 c r w'.1 ∧ w'.2 = ⟨c, r⟩ :: w.2

/-- Every run can be recorded. -/
theorem Exec.recorded {W : Type} {H : Handler C R ε W} {p : Prog C R ε α} {w w' : W}
    {o : Except ε α} (h : Exec H p w o w') (log : Log C R ε) :
    ∃ log', Exec (recorded H) p (w, log) o (w', log') := by
  induction h generalizing log with
  | pure => exact ⟨log, .pure⟩
  | throw => exact ⟨log, .throw⟩
  | @call c k r _ _ _ _ hcall _ ih =>
      obtain ⟨log', hrest⟩ := ih (⟨c, r⟩ :: log)
      exact ⟨log', .call ⟨hcall, rfl⟩ hrest⟩

end Prog

end AtlasManager.Lib
