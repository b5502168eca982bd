import AtlasManager.Lib.Protocol

/-!
# AtlasManager.PowerHelper.InstallLock

The lock of the power helper's installer: a file that is opened, created if
need be, checked and locked with `flock`, and that `uninstall` removes before it
gives the lock back.  Any number of processes run `install` and `uninstall`;
between two of their system calls any others may run, and a process may end
anywhere.

* `Inv` -- what holds while the lock file is handled with care (`Careful`);
* `installLock_exclusive` -- then at most one process is inside;
* `not_exclusive_uninstall` -- an `uninstall` and an `install` inside together.
-/

namespace AtlasManager.PowerHelper.InstallLock

open AtlasManager.Lib

inductive Action where
  | install | uninstall
  deriving DecidableEq

/-- Where a process stands; `inode` is the lock file it has opened. -/
inductive Place where
  | idle
  /-- `acquireInstallLock`, before `open`. -/
  | opening (action : Action)
  | checking (action : Action) (inode : Nat)
  | locking (action : Action) (inode : Nat)
  /-- The lock is acquired. -/
  | working (action : Action) (inode : Nat)
  /-- `uninstall` has removed the lock file and is about to remove its directory. -/
  | unlinked (inode : Nat)
  /-- Before the `LOCK_UN` of the release; `removed` after an `uninstall` that came so far. -/
  | releasing (inode : Nat) (removed : Bool)
  | closing (inode : Nat)
  deriving DecidableEq

structure State where
  /-- The state directory is there. -/
  directory : Bool := false
  /-- The inode at the path of the lock file. -/
  lockFile : Option Nat := none
  created : Nat := 0
  /-- Who holds the exclusive lock of an inode. -/
  holder : Nat → Option Nat := fun _ => none
  place : Nat → Place := fun _ => .idle

/-- What a process does next, where that is open. -/
inductive Move where
  | begin (action : Action)
  /-- The next system call. -/
  | go
  /-- A call, or the work under the lock, fails. -/
  | fail
  /-- The process ends. -/
  | exit
  deriving DecidableEq

structure Label where
  process : Nat
  move : Move
  deriving DecidableEq

namespace State

def goTo (s : State) (p : Nat) (place : Place) : State :=
  { s with place := Function.update s.place p place }

/-- `LOCK_UN`. -/
def unlock (s : State) (p inode : Nat) : State :=
  if s.holder inode = some p then { s with holder := Function.update s.holder inode none } else s

/-- `open` with `O_CREAT`. -/
def openLockFile (s : State) (p : Nat) (action : Action) : State :=
  match s.lockFile with
  | some inode => s.goTo p (.checking action inode)
  | none =>
    if s.directory then
      { s.goTo p (.checking action s.created) with
        lockFile := some s.created
        created := s.created + 1 }
    else s.goTo p .idle

/-- The link count of an inode that has been opened. -/
def nlink (s : State) (inode : Nat) : Nat := if s.lockFile = some inode then 1 else 0

/-- The kernel drops the lock of a process that ends. -/
def exit (s : State) (p : Nat) : State :=
  { s.goTo p .idle with
    holder := fun inode => if s.holder inode = some p then none else s.holder inode }

end State

/-- One system call. -/
def step (s : State) (l : Label) : Option State :=
  match l.move, s.place l.process with
  | .exit, _ => some (s.exit l.process)
  -- `install` makes the state directory first
  | .begin .install, .idle => some { s.goTo l.process (.opening .install) with directory := true }
  | .begin .uninstall, .idle => some (s.goTo l.process (.opening .uninstall))
  | .go, .opening action => some (s.openLockFile l.process action)
  | .go, .checking action inode =>
    some (s.goTo l.process (if s.nlink inode = 1 then .locking action inode else .closing inode))
  | .go, .locking action inode =>
    match s.holder inode with
    | some _ => some (s.goTo l.process (.closing inode))
    | none =>
      some { s.goTo l.process (.working action inode) with
        holder := Function.update s.holder inode (some l.process) }
  | .go, .working .install inode => some (s.goTo l.process (.releasing inode false))
  | .go, .working .uninstall inode =>
    match s.lockFile with
    | some _ => some { s.goTo l.process (.unlinked inode) with lockFile := none }
    | none => some (s.goTo l.process (.releasing inode false))
  | .go, .unlinked inode =>
    -- a directory that is not empty stays
    some { s.goTo l.process (.releasing inode true) with
      directory := s.directory && s.lockFile.isSome }
  | .go, .releasing inode _ => some ((s.goTo l.process (.closing inode)).unlock l.process inode)
  | .go, .closing _ => some (s.goTo l.process .idle)
  | .fail, .opening _ => some (s.goTo l.process .idle)
  | .fail, .checking _ inode => some (s.goTo l.process (.closing inode))
  | .fail, .locking _ inode => some (s.goTo l.process (.closing inode))
  | .fail, .working _ inode => some (s.goTo l.process (.releasing inode false))
  | .fail, .unlinked inode => some (s.goTo l.process (.releasing inode true))
  | _, _ => none

/-- Between a successful `acquireInstallLock` and the `LOCK_UN` of its release. -/
def Place.inside : Place → Bool
  | .working _ _ | .unlinked _ | .releasing _ _ => true
  | _ => false

/-- Between the removal of the lock file and the release. -/
def Place.afterRemoval : Place → Bool
  | .unlinked _ | .releasing _ true => true
  | _ => false

/-! ## Careful steps -/

/-- The lock file is not removed while another process has checked it and not
locked it yet, and nothing is locked while another process has removed the
lock file and not given its lock back. -/
def Careful (s : State) (l : Label) : Prop :=
  match l.move, s.place l.process with
  | .go, .working .uninstall _ =>
    ∀ q action inode, q ≠ l.process → s.place q ≠ .locking action inode
  | .go, .locking _ _ => ∀ q, (s.place q).afterRemoval = false
  | _, _ => True

/-- Who works holds the lock of the file at the path; who has checked the file
has that file; who has removed it is alone. -/
structure Inv (lockFile : Option Nat) (holder : Nat → Option Nat) (place : Nat → Place) : Prop where
  working : ∀ p inode, ((∃ action, place p = .working action inode) ∨
    place p = .releasing inode false) → lockFile = some inode ∧ holder inode = some p
  locking : ∀ p action inode, place p = .locking action inode → lockFile = some inode
  alone : ∀ p q, (place p).afterRemoval = true → (place q).inside = true → p = q

section Steps

variable {lockFile : Option Nat} {holder : Nat → Option Nat} {place : Nat → Place} {p : Nat}

/-- At most one process is inside. -/
theorem Inv.exclusive (h : Inv lockFile holder place) {q : Nat} (hp : (place p).inside = true)
    (hq : (place q).inside = true) : p = q := by
  by_cases hpr : (place p).afterRemoval = true
  · exact h.alone p q hpr hq
  by_cases hqr : (place q).afterRemoval = true
  · exact (h.alone q p hqr hp).symm
  -- neither has removed the file, so both hold the lock of the same one
  have hholds : ∀ r, (place r).inside = true → ¬ (place r).afterRemoval = true →
      ∃ inode, lockFile = some inode ∧ holder inode = some r := by
    intro r hr hnot
    cases hplace : place r with
    | working action inode => exact ⟨inode, h.working r inode (.inl ⟨action, hplace⟩)⟩
    | releasing inode removed =>
        cases removed with
        | false => exact ⟨inode, h.working r inode (.inr hplace)⟩
        | true => rw [hplace] at hnot; exact absurd rfl hnot
    | unlinked inode => rw [hplace] at hnot; exact absurd rfl hnot
    | _ => rw [hplace] at hr; exact absurd hr (by simp [Place.inside])
  obtain ⟨i, hi, hpi⟩ := hholds p hp hpr
  obtain ⟨j, hj, hqj⟩ := hholds q hq hqr
  rw [hi, Option.some.injEq] at hj
  rw [← hj, hpi, Option.some.injEq] at hqj
  exact hqj

/-- A process goes where it is not inside and not about to lock. -/
theorem Inv.outside (h : Inv lockFile holder place) {there : Place} (hthere : there.inside = false)
    (hlock : ∀ action inode, there ≠ .locking action inode) :
    Inv lockFile holder (Function.update place p there) := by
  have hremoved : there.afterRemoval = false := by
    cases there with
    | releasing _ removed => exact absurd hthere (by simp [Place.inside])
    | unlinked _ => exact absurd hthere (by simp [Place.inside])
    | _ => rfl
  refine ⟨?_, ?_, ?_⟩
  · intro q inode hq
    by_cases hqp : q = p
    · subst hqp
      rw [Function.update_self] at hq
      rcases hq with ⟨action, rfl⟩ | rfl <;> exact absurd hthere (by simp [Place.inside])
    · rw [Function.update_of_ne hqp] at hq
      exact h.working q inode hq
  · intro q action inode hq
    by_cases hqp : q = p
    · subst hqp
      rw [Function.update_self] at hq
      exact absurd hq (hlock action inode)
    · rw [Function.update_of_ne hqp] at hq
      exact h.locking q action inode hq
  · intro q r hq hr
    by_cases hqp : q = p
    · subst hqp
      rw [Function.update_self, hremoved] at hq
      exact absurd hq (by decide)
    by_cases hrp : r = p
    · subst hrp
      rw [Function.update_self, hthere] at hr
      exact absurd hr (by decide)
    rw [Function.update_of_ne hqp] at hq
    rw [Function.update_of_ne hrp] at hr
    exact h.alone q r hq hr

/-- Only locks of others are kept. -/
theorem Inv.holder_congr (h : Inv lockFile holder place) {holder' : Nat → Option Nat}
    (hkept : ∀ q inode, (place q).inside = true → holder inode = some q →
      holder' inode = some q) : Inv lockFile holder' place := by
  refine ⟨fun q inode hq => ?_, h.locking, h.alone⟩
  have hold := h.working q inode hq
  refine ⟨hold.1, hkept q inode ?_ hold.2⟩
  rcases hq with ⟨action, hq⟩ | hq <;> rw [hq] <;> rfl

/-- A new lock file: there was none, so nobody works and nobody has checked it. -/
theorem Inv.created (h : Inv none holder place) {action : Action} {inode : Nat} :
    Inv (some inode) holder (Function.update place p (.checking action inode)) := by
  have hout : Inv none holder (Function.update place p (.checking action inode)) :=
    h.outside rfl (by simp)
  refine ⟨fun q i hq => ?_, fun q a i hq => ?_, hout.alone⟩
  · exact absurd (hout.working q i hq).1 (by simp)
  · exact absurd (hout.locking q a i hq) (by simp)

/-- The file that was checked is the one at the path. -/
theorem Inv.checked (h : Inv lockFile holder place) {action : Action} {inode : Nat}
    (hlinked : lockFile = some inode) :
    Inv lockFile holder (Function.update place p (.locking action inode)) := by
  refine ⟨?_, ?_, ?_⟩
  · intro q i hq
    by_cases hqp : q = p
    · rw [hqp, Function.update_self] at hq
      rcases hq with ⟨a, hq⟩ | hq <;> exact absurd hq (by simp)
    · rw [Function.update_of_ne hqp] at hq
      exact h.working q i hq
  · intro q a i hq
    by_cases hqp : q = p
    · rw [hqp, Function.update_self] at hq
      cases hq
      exact hlinked
    · rw [Function.update_of_ne hqp] at hq
      exact h.locking q a i hq
  · intro q r hq hr
    by_cases hqp : q = p
    · rw [hqp, Function.update_self] at hq
      exact absurd hq (by simp [Place.afterRemoval])
    by_cases hrp : r = p
    · rw [hrp, Function.update_self] at hr
      exact absurd hr (by simp [Place.inside])
    rw [Function.update_of_ne hqp] at hq
    rw [Function.update_of_ne hrp] at hr
    exact h.alone q r hq hr

/-- A lock is given to one process, and nobody is left who has removed the file. -/
theorem Inv.locked (h : Inv lockFile holder place) {action : Action} {inode : Nat}
    (hp : place p = .locking action inode) (hfree : holder inode = none)
    (hcareful : ∀ q, (place q).afterRemoval = false) :
    Inv lockFile (Function.update holder inode (some p))
      (Function.update place p (.working action inode)) := by
  refine ⟨?_, ?_, ?_⟩
  · intro q i hq
    by_cases hqp : q = p
    · rw [hqp, Function.update_self] at hq
      obtain rfl : inode = i := by
        rcases hq with ⟨a, hq⟩ | hq
        · cases hq
          rfl
        · exact absurd hq (by simp)
      rw [hqp]
      exact ⟨h.locking p action inode hp, Function.update_self ..⟩
    · rw [Function.update_of_ne hqp] at hq
      have hold := h.working q i hq
      have hne : i ≠ inode := by
        intro heq
        rw [heq, hfree] at hold
        exact absurd hold.2 (by simp)
      rw [Function.update_of_ne hne]
      exact hold
  · intro q a i hq
    by_cases hqp : q = p
    · rw [hqp, Function.update_self] at hq
      exact absurd hq (by simp)
    · rw [Function.update_of_ne hqp] at hq
      exact h.locking q a i hq
  · intro q r hq _
    by_cases hqp : q = p
    · rw [hqp, Function.update_self] at hq
      exact absurd hq (by simp [Place.afterRemoval])
    · rw [Function.update_of_ne hqp, hcareful q] at hq
      exact absurd hq (by decide)

/-- The work is over, the lock is still held. -/
theorem Inv.worked (h : Inv lockFile holder place) {action : Action} {inode : Nat}
    (hp : place p = .working action inode) :
    Inv lockFile holder (Function.update place p (.releasing inode false)) := by
  refine ⟨?_, ?_, ?_⟩
  · intro q i hq
    by_cases hqp : q = p
    · rw [hqp, Function.update_self] at hq
      obtain rfl : inode = i := by
        rcases hq with ⟨a, hq⟩ | hq
        · exact absurd hq (by simp)
        · cases hq
          rfl
      rw [hqp]
      exact h.working p inode (.inl ⟨action, hp⟩)
    · rw [Function.update_of_ne hqp] at hq
      exact h.working q i hq
  · intro q a i hq
    by_cases hqp : q = p
    · rw [hqp, Function.update_self] at hq
      exact absurd hq (by simp)
    · rw [Function.update_of_ne hqp] at hq
      exact h.locking q a i hq
  · intro q r hq hr
    by_cases hqp : q = p
    · rw [hqp, Function.update_self] at hq
      exact absurd hq (by simp [Place.afterRemoval])
    rw [Function.update_of_ne hqp] at hq
    by_cases hrp : r = p
    · rw [hrp]
      exact h.alone q p hq (by rw [hp]; rfl)
    · rw [Function.update_of_ne hrp] at hr
      exact h.alone q r hq hr

/-- Who removes the lock file is alone and stays so. -/
theorem Inv.removed (h : Inv lockFile holder place) {there : Place}
    {lockFile' : Option Nat} (hp : (place p).inside = true) (hthere : there.afterRemoval = true)
    (hlock : ∀ q action inode, q ≠ p → place q = .locking action inode →
      lockFile' = some inode) :
    Inv lockFile' holder (Function.update place p there) := by
  have halone : ∀ q, q ≠ p → (place q).inside = false := by
    intro q hqp
    by_contra hq
    rw [Bool.not_eq_false] at hq
    exact hqp (h.exclusive hq hp)
  refine ⟨?_, ?_, ?_⟩
  · intro q i hq
    by_cases hqp : q = p
    · rw [hqp, Function.update_self] at hq
      rcases hq with ⟨a, rfl⟩ | rfl <;> exact absurd hthere (by simp [Place.afterRemoval])
    · rw [Function.update_of_ne hqp] at hq
      have hout := halone q hqp
      rcases hq with ⟨a, hq⟩ | hq <;> rw [hq] at hout <;> exact absurd hout (by simp [Place.inside])
  · intro q a i hq
    by_cases hqp : q = p
    · rw [hqp, Function.update_self] at hq
      rw [hq] at hthere
      exact absurd hthere (by simp [Place.afterRemoval])
    · rw [Function.update_of_ne hqp] at hq
      exact hlock q a i hqp hq
  · intro q r hq hr
    have hmine : ∀ x, (Function.update place p there x).inside = true → x = p := by
      intro x hx
      by_contra hxp
      rw [Function.update_of_ne hxp, halone x hxp] at hx
      exact absurd hx (by decide)
    have hinside : (Function.update place p there q).inside = true := by
      cases hplaceq : Function.update place p there q with
      | releasing _ _ => rfl
      | unlinked _ => rfl
      | _ =>
          rw [hplaceq] at hq
          exact absurd hq (by simp [Place.afterRemoval])
    rw [hmine q hinside, hmine r hr]

end Steps

/-! ## Runs -/

/-- The invariant of a state. -/
def State.Inv (s : State) : Prop := InstallLock.Inv s.lockFile s.holder s.place

section Runs

variable {s : State} {p : Nat}

theorem inv_goTo (h : s.Inv) {there : Place} (hthere : there.inside = false)
    (hlock : ∀ action inode, there ≠ .locking action inode) : (s.goTo p there).Inv :=
  h.outside hthere hlock

/-- The locks of the others are kept. -/
theorem inv_unlock (h : s.Inv) {inode : Nat} (hp : (s.place p).inside = false) :
    (s.unlock p inode).Inv := by
  rw [State.unlock]
  by_cases hmine : s.holder inode = some p
  · rw [if_pos hmine]
    refine h.holder_congr fun q i hq hqi => ?_
    have hne : i ≠ inode := by
      intro heq
      rw [heq, hmine, Option.some.injEq] at hqi
      rw [← hqi, hp] at hq
      exact absurd hq (by decide)
    dsimp only
    rw [Function.update_of_ne hne]
    exact hqi
  · rw [if_neg hmine]
    exact h

theorem inv_exit (h : s.Inv) : (s.exit p).Inv := by
  have hgone : InstallLock.Inv s.lockFile s.holder (Function.update s.place p .idle) :=
    h.outside rfl (by simp)
  refine hgone.holder_congr fun q i hq hqi => ?_
  have hne : q ≠ p := by
    intro heq
    rw [heq, Function.update_self] at hq
    exact absurd hq (by decide)
  have hother : s.holder i ≠ some p := by
    intro heq
    rw [hqi, Option.some.injEq] at heq
    exact hne heq
  show (if s.holder i = some p then none else s.holder i) = some q
  rw [if_neg hother]
  exact hqi

theorem inv_openLockFile (h : s.Inv) {action : Action} : (s.openLockFile p action).Inv := by
  rw [State.openLockFile]
  cases hfile : s.lockFile with
  | some inode => exact inv_goTo h rfl (by simp)
  | none =>
      dsimp only
      cases s.directory with
      | false => exact inv_goTo h rfl (by simp)
      | true =>
          have hnone : InstallLock.Inv none s.holder s.place := hfile ▸ h
          exact hnone.created

theorem inv_begin {s' : State} (h : s.Inv) {action : Action}
    (hstep : step s ⟨p, .begin action⟩ = some s') : s'.Inv := by
  cases hp : s.place p with
  | idle =>
      cases action with
      | install =>
          simp only [step, hp, Option.some.injEq] at hstep
          rw [← hstep]
          exact h.outside rfl (by simp)
      | uninstall =>
          simp only [step, hp, Option.some.injEq] at hstep
          rw [← hstep]
          exact inv_goTo h rfl (by simp)
  | _ => cases action <;> simp [step, hp] at hstep

theorem inv_fail {s' : State} (h : s.Inv) (hstep : step s ⟨p, .fail⟩ = some s') : s'.Inv := by
  cases hp : s.place p with
  | opening action =>
      simp only [step, hp, Option.some.injEq] at hstep
      rw [← hstep]
      exact inv_goTo h rfl (by simp)
  | checking action inode =>
      simp only [step, hp, Option.some.injEq] at hstep
      rw [← hstep]
      exact inv_goTo h rfl (by simp)
  | locking action inode =>
      simp only [step, hp, Option.some.injEq] at hstep
      rw [← hstep]
      exact inv_goTo h rfl (by simp)
  | working action inode =>
      simp only [step, hp, Option.some.injEq] at hstep
      rw [← hstep]
      exact h.worked hp
  | unlinked inode =>
      simp only [step, hp, Option.some.injEq] at hstep
      rw [← hstep]
      exact h.removed (by rw [hp]; rfl) rfl fun q a i _ hq => h.locking q a i hq
  | _ => simp [step, hp] at hstep

/-- `flock` gives the lock to a process, or refuses it. -/
theorem inv_flock {s' : State} (h : s.Inv) {action : Action} {inode : Nat}
    (hp : s.place p = .locking action inode) (hcareful : Careful s ⟨p, .go⟩)
    (hstep : step s ⟨p, .go⟩ = some s') : s'.Inv := by
  simp only [step, hp] at hstep
  cases hfree : s.holder inode with
  | some q =>
      simp only [hfree, Option.some.injEq] at hstep
      rw [← hstep]
      exact inv_goTo h rfl (by simp)
  | none =>
      simp only [hfree, Option.some.injEq] at hstep
      rw [← hstep]
      simp only [Careful, hp] at hcareful
      exact h.locked hp hfree hcareful

/-- The work under the lock; an `uninstall` removes the lock file at its end. -/
theorem inv_work {s' : State} (h : s.Inv) {action : Action} {inode : Nat}
    (hp : s.place p = .working action inode) (hcareful : Careful s ⟨p, .go⟩)
    (hstep : step s ⟨p, .go⟩ = some s') : s'.Inv := by
  cases action with
  | install =>
      simp only [step, hp, Option.some.injEq] at hstep
      rw [← hstep]
      exact h.worked hp
  | uninstall =>
      simp only [step, hp] at hstep
      cases hfile : s.lockFile with
      | none =>
          simp only [hfile, Option.some.injEq] at hstep
          rw [← hstep]
          exact h.worked hp
      | some _ =>
          simp only [hfile, Option.some.injEq] at hstep
          rw [← hstep]
          simp only [Careful, hp] at hcareful
          refine h.removed (by rw [hp]; rfl) rfl fun q a i hqp hq => ?_
          exact absurd hq (hcareful q a i hqp)

theorem inv_go {s' : State} (h : s.Inv) (hcareful : Careful s ⟨p, .go⟩)
    (hstep : step s ⟨p, .go⟩ = some s') : s'.Inv := by
  cases hp : s.place p with
  | idle => simp [step, hp] at hstep
  | opening action =>
      simp only [step, hp, Option.some.injEq] at hstep
      rw [← hstep]
      exact inv_openLockFile h
  | checking action inode =>
      simp only [step, hp, Option.some.injEq] at hstep
      rw [← hstep]
      by_cases hlinked : s.lockFile = some inode
      · rw [State.nlink, if_pos hlinked, if_pos rfl]
        exact h.checked hlinked
      · rw [State.nlink, if_neg hlinked, if_neg (by decide)]
        exact inv_goTo h rfl (by simp)
  | locking action inode => exact inv_flock h hp hcareful hstep
  | working action inode => exact inv_work h hp hcareful hstep
  | unlinked inode =>
      simp only [step, hp, Option.some.injEq] at hstep
      rw [← hstep]
      exact h.removed (by rw [hp]; rfl) rfl fun q a i _ hq => h.locking q a i hq
  | releasing inode removed =>
      simp only [step, hp, Option.some.injEq] at hstep
      rw [← hstep]
      refine inv_unlock (inv_goTo h rfl (by simp)) ?_
      simp [State.goTo, Place.inside]
  | closing inode =>
      simp only [step, hp, Option.some.injEq] at hstep
      rw [← hstep]
      exact inv_goTo h rfl (by simp)

/-- **A step**, handled with care, keeps the invariant. -/
theorem inv_step {s' : State} {l : Label} (h : s.Inv) (hcareful : Careful s l)
    (hstep : step s l = some s') : s'.Inv := by
  obtain ⟨p, move⟩ := l
  cases move with
  | exit =>
      obtain rfl : s.exit p = s' := by simpa [step] using hstep
      exact inv_exit h
  | begin action => exact inv_begin h hstep
  | fail => exact inv_fail h hstep
  | go => exact inv_go h hcareful hstep

end Runs

theorem inv_start (directory : Bool) : State.Inv { directory := directory } where
  working _ _ h := by rcases h with ⟨_, h⟩ | h <;> exact absurd h (by simp)
  locking _ _ _ h := absurd h (by simp)
  alone _ _ h := absurd h (by simp [Place.afterRemoval])

/-- **As long as the lock file is handled with care, at most one process is
between a successful `acquireInstallLock` and its release.** -/
theorem installLock_exclusive (directory : Bool) (s : State)
    (h : Protocol.Reaches step Careful { directory := directory } s) (p q : Nat)
    (hp : (s.place p).inside = true) (hq : (s.place q).inside = true) : p = q := by
  have hinv : s.Inv := h.invariant (inv_start directory) inv_step
  exact hinv.exclusive hp hq

/-! ## An uninstall and an install -/

/-- Process 0 installs, and process 1, which is to uninstall, is refused the lock. -/
def refused : List Label :=
  [⟨0, .begin .install⟩, ⟨0, .go⟩, ⟨0, .go⟩, ⟨0, .go⟩,
    ⟨1, .begin .uninstall⟩, ⟨1, .go⟩, ⟨1, .go⟩, ⟨1, .go⟩]

/-- Process 0 gives the lock back, and process 1 uninstalls. -/
def inTurn : List Label :=
  refused ++ [⟨0, .go⟩, ⟨0, .go⟩, ⟨0, .go⟩, ⟨1, .go⟩,
    ⟨1, .begin .uninstall⟩, ⟨1, .go⟩, ⟨1, .go⟩, ⟨1, .go⟩, ⟨1, .go⟩]

/-- A step moves one process only. -/
theorem step_place_of_ne {s s' : State} {l : Label} (h : step s l = some s') {q : Nat}
    (hq : q ≠ l.process) : s'.place q = s.place q := by
  have hgoTo : ∀ there, (s.goTo l.process there).place q = s.place q := fun there =>
    Function.update_of_ne hq ..
  unfold step at h
  split at h
  · cases h
    exact hgoTo _
  · cases h
    exact hgoTo _
  · cases h
    exact hgoTo _
  · cases h
    unfold State.openLockFile
    split
    · exact hgoTo _
    · split
      · exact hgoTo _
      · exact hgoTo _
  · cases h
    exact hgoTo _
  · split at h <;> cases h <;> exact hgoTo _
  · cases h
    exact hgoTo _
  · split at h <;> cases h <;> exact hgoTo _
  · cases h
    exact hgoTo _
  · cases h
    unfold State.unlock
    split <;> exact hgoTo _
  all_goals cases h
  all_goals exact hgoTo _

/-- Are the steps of two processes careful with regard to each other? -/
def carefulOfTwo (s : State) : List Label → Bool
  | [] => true
  | l :: rest =>
    (match l.move, s.place l.process with
      | .go, .working .uninstall _ => [0, 1].all fun q => q = l.process ||
          match s.place q with
          | .locking _ _ => false
          | _ => true
      | .go, .locking _ _ => [0, 1].all fun q => !(s.place q).afterRemoval
      | _, _ => true) && l.process ∈ [0, 1] &&
      match step s l with
      | some s' => carefulOfTwo s' rest
      | none => true

/-- Where all others are idle, that is all there is to care for. -/
theorem allowed_of_two {s : State} {labels : List Label} (hidle : ∀ q ∉ [0, 1], s.place q = .idle)
    (h : carefulOfTwo s labels = true) : Protocol.Allowed step Careful s labels := by
  induction labels generalizing s with
  | nil => trivial
  | cons l rest ih =>
      simp only [carefulOfTwo, Bool.and_eq_true, decide_eq_true_eq] at h
      obtain ⟨⟨hcareful, hprocess⟩, hrest⟩ := h
      refine ⟨?_, fun s' hstep => ih (fun q hq => ?_) ?_⟩
      · unfold Careful
        split at hcareful
        · intro q action inode hne hlocking
          by_cases hq : q ∈ [0, 1]
          · have hall := List.all_eq_true.mp hcareful q hq
            simp [hne, hlocking] at hall
          · rw [hidle q hq] at hlocking
            cases hlocking
        · intro q
          by_cases hq : q ∈ [0, 1]
          · simpa using List.all_eq_true.mp hcareful q hq
          · rw [hidle q hq]
            rfl
        · trivial
      · have hne : q ≠ l.process := by
          rintro rfl
          exact hq hprocess
        rw [step_place_of_ne hstep hne, hidle q hq]
      · rwa [hstep] at hrest

/-- While process 0 works, process 1 is turned away; later process 1 is inside, and alone. -/
theorem installLock_exclusive_inTurn :
    (∃ s, Protocol.run step {} refused = some s ∧ s.place 0 = .working .install 0 ∧
      s.place 1 = .closing 0 ∧ ∀ q, (s.place q).inside = true → 0 = q) ∧
    ∃ s, Protocol.run step {} inTurn = some s ∧ s.place 1 = .unlinked 0 ∧
      ∀ q, (s.place q).inside = true → 1 = q := by
  have hreaches : ∀ labels s, Protocol.run step {} labels = some s →
      carefulOfTwo {} labels = true → Protocol.Reaches step Careful {} s := fun _ _ hrun hcareful =>
    Protocol.reaches_of_run .start hrun (allowed_of_two (fun _ _ => rfl) hcareful)
  constructor
  · refine ⟨_, rfl, rfl, rfl, fun q hq => installLock_exclusive false _ ?_ 0 q rfl hq⟩
    exact hreaches refused _ rfl (by decide)
  · refine ⟨_, rfl, rfl, fun q hq => installLock_exclusive false _ ?_ 1 q rfl hq⟩
    exact hreaches inTurn _ rfl (by decide)

/-- Process 0 uninstalls; when it has removed the lock file, process 1 installs
with a new one. -/
def overlapping : List Label :=
  [⟨0, .begin .install⟩, ⟨0, .go⟩, ⟨0, .go⟩, ⟨0, .go⟩, ⟨0, .go⟩, ⟨0, .go⟩, ⟨0, .go⟩,
    ⟨0, .begin .uninstall⟩, ⟨0, .go⟩, ⟨0, .go⟩, ⟨0, .go⟩, ⟨0, .go⟩,
    ⟨1, .begin .install⟩, ⟨1, .go⟩, ⟨1, .go⟩, ⟨1, .go⟩]

theorem not_exclusive_uninstall : ¬ ∀ s, Protocol.Reachable step {} s →
    ∀ p q, (s.place p).inside = true → (s.place q).inside = true → p = q := by
  intro h
  have hrun : (Protocol.run step {} overlapping).isSome := by decide
  have hboth : ∀ hrun, (((Protocol.run step {} overlapping).get hrun).place 0).inside = true ∧
      (((Protocol.run step {} overlapping).get hrun).place 1).inside = true := by decide
  have hsame := h _ (Protocol.reachable_get hrun) 0 1 (hboth hrun).1 (hboth hrun).2
  exact absurd hsame (by decide)

end AtlasManager.PowerHelper.InstallLock
