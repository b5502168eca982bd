import Mathlib

/-!
# AtlasManager.Lib.Stateful

Programs over a state that may stop with an error and keep what they have done by then.

* `check` -- a step that only reads;
* `Keeps` -- what holds of the state stays true, however the program ends.
-/

namespace AtlasManager.Lib

abbrev Stateful (S ε α : Type) := ExceptT ε (StateM S) α

namespace Stateful

variable {S ε α β : Type}

/-- The end of a run, and the state it leaves. -/
def exec (p : Stateful S ε α) (s : S) : Except ε α × S := p s

/-- A step that reads the state and leaves it as it is. -/
def check (c : S → Except ε α) : Stateful S ε α := fun s => (c s, s)

@[simp] theorem exec_pure (a : α) (s : S) : (pure a : Stateful S ε α).exec s = (.ok a, s) := rfl

@[simp] theorem exec_throw (e : ε) (s : S) :
    (throw e : Stateful S ε α).exec s = (.error e, s) := rfl

@[simp] theorem exec_check (c : S → Except ε α) (s : S) : (check c).exec s = (c s, s) := rfl

theorem exec_bind (p : Stateful S ε α) (f : α → Stateful S ε β) (s : S) :
    (p >>= f).exec s = match p.exec s with
      | (.ok a, s') => (f a).exec s'
      | (.error e, s') => (.error e, s') := by
  change (p >>= f) s = match p s with
    | (.ok a, s') => f a s'
    | (.error e, s') => (.error e, s')
  rcases hp : p s with ⟨end_ | end_, s'⟩
  all_goals
    simp only [bind, ExceptT.bind, ExceptT.mk, StateT.bind, hp]
    rfl

theorem exec_bind_ok {p : Stateful S ε α} {f : α → Stateful S ε β} {s s' : S} {a : α}
    (h : p.exec s = (.ok a, s')) : (p >>= f).exec s = (f a).exec s' := by
  rw [exec_bind, h]

theorem exec_bind_error {p : Stateful S ε α} {f : α → Stateful S ε β} {s s' : S} {e : ε}
    (h : p.exec s = (.error e, s')) : (p >>= f).exec s = (.error e, s') := by
  rw [exec_bind, h]

/-- A check in front decides whether there is a rest. -/
theorem exec_check_bind (c : S → Except ε α) (f : α → Stateful S ε β) (s : S) :
    (check c >>= f).exec s = match c s with
      | .ok a => (f a).exec s
      | .error e => (.error e, s) := by
  rw [exec_bind, exec_check]
  cases c s <;> rfl

/-- A step that goes on with its error. -/
def recover (p : Stateful S ε α) (handler : ε → Stateful S ε α) : Stateful S ε α := fun s =>
  match p.exec s with
  | (.ok a, s') => (.ok a, s')
  | (.error e, s') => (handler e).exec s'

/-- A step whose error does not matter. -/
def ignore (p : Stateful S ε Unit) : Stateful S ε Unit := p.recover fun _ => pure ()

/-! ## What holds throughout -/

/-- What holds in front of the program holds after it. -/
def Keeps (J : S → Prop) (p : Stateful S ε α) : Prop := ∀ s, J s → J (p.exec s).2

theorem keeps_pure {J : S → Prop} (a : α) : Keeps J (pure a : Stateful S ε α) := fun _ h => h

theorem keeps_throw {J : S → Prop} (e : ε) : Keeps J (throw e : Stateful S ε α) := fun _ h => h

theorem keeps_check {J : S → Prop} (c : S → Except ε α) : Keeps J (check c) := fun _ h => h

/-- What holds after a first part holds after the whole, when the rest keeps it. -/
theorem after_bind {J : S → Prop} {p : Stateful S ε α} {f : α → Stateful S ε β} {s : S}
    (hp : J (p.exec s).2) (hf : ∀ a, Keeps J (f a)) : J ((p >>= f).exec s).2 := by
  rw [exec_bind]
  rcases hexec : p.exec s with ⟨e | a, s'⟩
  · rw [hexec] at hp
    exact hp
  · rw [hexec] at hp
    exact hf a s' hp

theorem Keeps.bind {J : S → Prop} {p : Stateful S ε α} {f : α → Stateful S ε β}
    (hp : Keeps J p) (hf : ∀ a, Keeps J (f a)) : Keeps J (p >>= f) :=
  fun s hs => after_bind (hp s hs) hf

theorem after_recover {J : S → Prop} {p : Stateful S ε α} {handler : ε → Stateful S ε α} {s : S}
    (hp : J (p.exec s).2) (hhandler : ∀ e, Keeps J (handler e)) :
    J ((p.recover handler).exec s).2 := by
  rw [exec, Stateful.recover]
  rcases hexec : p.exec s with ⟨e | a, s'⟩
  · rw [hexec] at hp
    exact hhandler e s' hp
  · rw [hexec] at hp
    exact hp

theorem Keeps.recover {J : S → Prop} {p : Stateful S ε α} {handler : ε → Stateful S ε α}
    (hp : Keeps J p) (hhandler : ∀ e, Keeps J (handler e)) : Keeps J (p.recover handler) :=
  fun s hs => after_recover (hp s hs) hhandler

theorem Keeps.ignore {J : S → Prop} {p : Stateful S ε Unit} (hp : Keeps J p) :
    Keeps J p.ignore :=
  hp.recover fun _ => keeps_pure ()

end Stateful

end AtlasManager.Lib
