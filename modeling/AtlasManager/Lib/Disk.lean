import AtlasManager.Lib.Prog

/-!
# AtlasManager.Lib.Disk

Files with owners and modes at a few places, and the system calls that look at
them and change them, one at a time.

* `effect` -- what a call does when it succeeds;
* `mayFail` -- the world in which every call can fail; one that writes can
  leave anything in its file;
* `works` -- the world in which calls fail only when they have to;
* `effect_frame` -- a call leaves the other places as they are.
-/

namespace AtlasManager.Lib.Disk

/-! ## Nodes -/

inductive Kind where
  | directory
  | file (content : ByteArray)
  /-- Links, devices and the like. -/
  | other
  deriving DecidableEq

/-- What stands at a place; the mode has the permissions and the bits above them. -/
structure Node where
  kind : Kind
  mode : Nat
  uid : Nat
  gid : Nat
  links : Nat
  deriving DecidableEq

namespace Node

def content? (node : Node) : Option ByteArray :=
  match node.kind with
  | .file content => some content
  | _ => none

def isRegular (node : Node) : Bool := node.content?.isSome

def isDirectory (node : Node) : Bool := node.kind = .directory

/-- The permission bits of the mode. -/
def perm (node : Node) : Nat := node.mode % 0o1000

end Node

/-! ## Calls -/

section Calls

variable {P : Type}

/-- What stands at the places. -/
abbrev Files (P : Type) := P → Option Node

/-- Where the places lie: the directory of a place, and what can lie in a directory. -/
structure Layout (P : Type) where
  parent : P → Option P
  children : P → List P

/-- Who makes the calls, and what is left of the mode of something new. -/
structure Process where
  uid : Nat
  gid : Nat
  masked : Nat → Nat

inductive Call (P : Type) where
  /-- `none` is the answer that nothing stands there. -/
  | lstat (p : P)
  | read (p : P)
  | mkdir (p : P) (mode : Nat)
  /-- `O_CREAT` with `O_EXCL`. -/
  | create (p : P) (mode : Nat)
  /-- `O_CREAT`; the answer is what was opened. -/
  | openOrCreate (p : P) (mode : Nat)
  /-- To a file that has just been created. -/
  | write (p : P) (data : ByteArray)
  | sync (p : P)
  | chown (p : P) (uid gid : Nat)
  | chmod (p : P) (mode : Nat)
  | rename (p q : P)
  | remove (p : P)

@[reducible] def Answer : Call P → Type
  | .lstat _ => Option Node
  | .read _ => ByteArray
  | .openOrCreate _ _ => Node
  | _ => Unit

variable [DecidableEq P]

def put (d : Files P) (p : P) (node : Option Node) : Files P := Function.update d p node

@[simp] theorem put_same (d : Files P) (p : P) (node : Option Node) : put d p node p = node := by
  simp [put]

@[simp] theorem put_of_ne {p q : P} (h : q ≠ p) (d : Files P) (node : Option Node) :
    put d p node q = d q := by
  simp [put, h]

/-- Does the directory of a place exist? -/
def hasParent (layout : Layout P) (d : Files P) (p : P) : Bool :=
  (layout.parent p).all fun q => (d q).any Node.isDirectory

/-- What a call that succeeds answers and leaves; `none` when it has to fail. -/
def effect (layout : Layout P) (process : Process) (d : Files P) :
    (c : Call P) → Option (Answer c × Files P)
  | .lstat p => some (d p, d)
  | .read p => (d p).bind fun node => node.content?.map fun content => (content, d)
  | .mkdir p mode =>
    if (d p).isNone && hasParent layout d p then
      some ((), put d p (some ⟨.directory, process.masked mode, process.uid, process.gid, 2⟩))
    else none
  | .create p mode =>
    if (d p).isNone && hasParent layout d p then
      some ((), put d p (some ⟨.file .empty, process.masked mode, process.uid, process.gid, 1⟩))
    else none
  | .openOrCreate p mode =>
    match d p with
    | some node => if node.isRegular then some (node, d) else none
    | none =>
      let node : Node := ⟨.file .empty, process.masked mode, process.uid, process.gid, 1⟩
      if hasParent layout d p then some (node, put d p (some node)) else none
  | .write p data =>
    (d p).bind fun node =>
      if node.isRegular then some ((), put d p (some { node with kind := .file data })) else none
  | .sync p => if (d p).isSome then some ((), d) else none
  | .chown p uid gid =>
    (d p).map fun node => ((), put d p (some { node with uid := uid, gid := gid }))
  | .chmod p mode => (d p).map fun node => ((), put d p (some { node with mode := mode }))
  | .rename p q => (d p).map fun node => ((), put (put d p none) q (some node))
  | .remove p =>
    (d p).bind fun node =>
      if node.isDirectory && (layout.children p).any fun q => (d q).isSome then none
      else some ((), put d p none)

/-- The places that a call can change. -/
def Call.touches : Call P → List P
  | .mkdir p _ | .create p _ | .openOrCreate p _ | .write p _ | .chown p _ _ | .chmod p _
  | .remove p => [p]
  | .rename p q => [p, q]
  | _ => []

/-- **Frame**: a call leaves the other places as they are. -/
theorem effect_frame {layout : Layout P} {process : Process} {d d' : Files P} {c : Call P}
    {a : Answer c} (h : effect layout process d c = some (a, d')) {p : P} (hp : p ∉ c.touches) :
    d' p = d p := by
  cases c with
  | lstat q =>
      simp only [effect, Option.some.injEq, Prod.mk.injEq] at h
      rw [h.2]
  | read q =>
      simp only [effect, Option.bind_eq_some_iff, Option.map_eq_some_iff, Prod.mk.injEq] at h
      obtain ⟨_, _, _, _, _, rfl⟩ := h
      rfl
  | mkdir q mode =>
      simp only [effect, Option.ite_none_right_eq_some, Option.some.injEq, Prod.mk.injEq] at h
      rw [← h.2.2, put_of_ne (by simpa [Call.touches] using hp)]
  | create q mode =>
      simp only [effect, Option.ite_none_right_eq_some, Option.some.injEq, Prod.mk.injEq] at h
      rw [← h.2.2, put_of_ne (by simpa [Call.touches] using hp)]
  | openOrCreate q mode =>
      simp only [effect] at h
      split at h
      · simp only [Option.ite_none_right_eq_some, Option.some.injEq, Prod.mk.injEq] at h
        rw [h.2.2]
      · simp only [Option.ite_none_right_eq_some, Option.some.injEq, Prod.mk.injEq] at h
        rw [← h.2.2, put_of_ne (by simpa [Call.touches] using hp)]
  | write q data =>
      simp only [effect, Option.bind_eq_some_iff, Option.ite_none_right_eq_some, Option.some.injEq,
        Prod.mk.injEq] at h
      obtain ⟨_, _, _, _, rfl⟩ := h
      rw [put_of_ne (by simpa [Call.touches] using hp)]
  | sync q =>
      simp only [effect, Option.ite_none_right_eq_some, Option.some.injEq, Prod.mk.injEq] at h
      rw [h.2.2]
  | chown q uid gid =>
      simp only [effect, Option.map_eq_some_iff, Prod.mk.injEq] at h
      obtain ⟨_, _, _, rfl⟩ := h
      rw [put_of_ne (by simpa [Call.touches] using hp)]
  | chmod q mode =>
      simp only [effect, Option.map_eq_some_iff, Prod.mk.injEq] at h
      obtain ⟨_, _, _, rfl⟩ := h
      rw [put_of_ne (by simpa [Call.touches] using hp)]
  | rename q q' =>
      simp only [effect, Option.map_eq_some_iff, Prod.mk.injEq] at h
      obtain ⟨_, _, _, rfl⟩ := h
      have hne : p ≠ q ∧ p ≠ q' := by simpa [Call.touches] using hp
      rw [put_of_ne hne.2, put_of_ne hne.1]
  | remove q =>
      simp only [effect, Option.bind_eq_some_iff, Option.ite_none_left_eq_some, Option.some.injEq,
        Prod.mk.injEq] at h
      obtain ⟨_, _, _, _, rfl⟩ := h
      rw [put_of_ne (by simpa [Call.touches] using hp)]

/-! ## Worlds -/

variable {ε : Type} (e : ε) (layout : Layout P) (process : Process)

/-- Every call may fail.  One that fails changes nothing, but for a file that was
being written. -/
def mayFail : Prog.Handler (Call P) Answer ε (Files P) := fun d c r d' =>
  (∃ a, effect layout process d c = some (a, d') ∧ r = .ok a) ∨
    (r = .error e ∧ (d' = d ∨ ∃ p data node content, c = .write p data ∧ d p = some node ∧
      node.isRegular = true ∧ d' = put d p (some { node with kind := .file content })))

/-- Calls fail only when they have to. -/
def works (d : Files P) (c : Call P) : Except ε (Answer c) × Files P :=
  match effect layout process d c with
  | some (a, d') => (.ok a, d')
  | none => (.error e, d)

theorem mayFail_works (d : Files P) (c : Call P) :
    mayFail e layout process d c (works e layout process d c).1 (works e layout process d c).2 := by
  unfold works
  cases h : effect layout process d c with
  | none => exact .inr ⟨rfl, .inl rfl⟩
  | some answered => exact .inl ⟨answered.1, h, rfl⟩

theorem mayFail_frame {d d' : Files P} {c : Call P} {r : Except ε (Answer c)}
    (h : mayFail e layout process d c r d') {p : P} (hp : p ∉ c.touches) : d' p = d p := by
  rcases h with ⟨a, heffect, _⟩ | ⟨_, rfl | ⟨q, data, node, content, rfl, _, _, rfl⟩⟩
  · exact effect_frame heffect hp
  · rfl
  · rw [put_of_ne]
    simpa [Call.touches] using hp

end Calls

end AtlasManager.Lib.Disk
