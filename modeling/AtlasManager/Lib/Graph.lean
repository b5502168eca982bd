import Mathlib

/-!
# AtlasManager.Lib.Graph

Orders of the nodes of a finite directed graph.  A graph is its successor
function `next : α → List α`; a successor may be listed more than once.

* `Search` -- the nodes reachable from a start, by a work stack;
* `Kahn` -- nodes whose predecessors are all visited, visited one at a time.
  `Kahn.Inv` is the loop invariant; what it gives at the end is
  `Kahn.Inv.complete` (an acyclic graph is visited whole),
  `Kahn.Inv.acyclic` (a graph visited whole is acyclic) and
  `PredClosed.pairwise` (no node is visited before one it is reachable from).
-/

namespace AtlasManager.Lib

open Relation

variable {α : Type*}

/-- `b` is a successor of `a`. -/
def Edge (next : α → List α) (a b : α) : Prop := b ∈ next a

/-- No node is reachable from itself. -/
def Acyclic (next : α → List α) : Prop := ∀ a, ¬ TransGen (Edge next) a a

/-- A finite set of nodes without a cycle has a node that no other leads to. -/
theorem exists_minimal {r : α → α → Prop} (hacyclic : ∀ a, ¬ TransGen r a a) {l : List α}
    (hne : l ≠ []) : ∃ m ∈ l, ∀ p ∈ l, ¬ r p m := by
  let s : {n // n ∈ l} → {n // n ∈ l} → Prop := fun a b => TransGen r a b
  have : IsTrans _ s := ⟨fun _ _ _ hab hbc => hab.trans hbc⟩
  have : Std.Irrefl s := ⟨fun a ha => hacyclic a ha⟩
  have : Finite {n // n ∈ l} := List.finite_toSet l
  obtain ⟨a, ha⟩ := List.exists_mem_of_ne_nil l hne
  obtain ⟨m, -, hmin⟩ := (Finite.wellFounded_of_trans_of_irrefl s).has_min Set.univ
    ⟨⟨a, ha⟩, trivial⟩
  exact ⟨m.1, m.2, fun p hp hedge => hmin ⟨p, hp⟩ trivial (.single hedge)⟩

/-! ## Orders that list predecessors first -/

/-- Every element of the list comes after all its predecessors. -/
def PredClosed (r : α → α → Prop) (l : List α) : Prop :=
  ∀ l₁ a l₂, l = l₁ ++ a :: l₂ → ∀ p, r p a → p ∈ l₁

theorem PredClosed.nil {r : α → α → Prop} : PredClosed r [] := by
  intro l₁ a l₂ h
  simp at h

theorem PredClosed.concat {r : α → α → Prop} {l : List α} {a : α} (h : PredClosed r l)
    (ha : ∀ p, r p a → p ∈ l) : PredClosed r (l ++ [a]) := by
  intro l₁ b l₂ heq p hp
  rcases List.eq_nil_or_concat l₂ with rfl | ⟨l₂', c, rfl⟩
  · obtain ⟨rfl, hab⟩ := List.append_inj' heq rfl
    obtain rfl : a = b := by simpa using hab
    exact ha p hp
  · have heq' : l ++ [a] = (l₁ ++ b :: l₂') ++ [c] := by simp [heq]
    obtain ⟨hl, -⟩ := List.append_inj' heq' rfl
    exact h l₁ b l₂' hl p hp

/-- What an element is reachable from comes before it. -/
theorem PredClosed.transGen_mem {r : α → α → Prop} {l₁ l₂ : List α} {a p : α}
    (h : PredClosed r (l₁ ++ a :: l₂)) (hp : TransGen r p a) : p ∈ l₁ := by
  induction hp using TransGen.head_induction_on with
  | single hp => exact h l₁ a l₂ rfl _ hp
  | head hp _ ih =>
      obtain ⟨l₃, l₄, rfl⟩ := List.append_of_mem ih
      have hmem := h l₃ _ (l₄ ++ a :: l₂) (by simp) _ hp
      exact List.mem_append_left _ hmem

/-- No element comes before one it is reachable from. -/
theorem PredClosed.pairwise {r : α → α → Prop} {l : List α} (h : PredClosed r l)
    (hnodup : l.Nodup) : l.Pairwise fun a b => ¬ TransGen r b a := by
  rw [List.pairwise_iff_getElem]
  intro i j hi hj hij hba
  have hsplit : l = l.take i ++ l[i] :: l.drop (i + 1) := by
    rw [List.getElem_cons_drop, List.take_append_drop]
  rw [hsplit] at h
  obtain ⟨k, hk, hkj⟩ := List.mem_take_iff_getElem.mp (h.transGen_mem hba)
  have hkj' : k = j := hnodup.getElem_inj_iff.mp hkj
  omega

/-- A list that has every node once, each after its predecessors, leaves no
room for a cycle. -/
theorem PredClosed.irrefl {r : α → α → Prop} {l : List α} (h : PredClosed r l)
    (hnodup : l.Nodup) {a : α} (ha : a ∈ l) : ¬ TransGen r a a := by
  obtain ⟨l₁, l₂, rfl⟩ := List.append_of_mem ha
  intro hcycle
  have hmem := h.transGen_mem hcycle
  simp only [List.nodup_append, List.nodup_cons] at hnodup
  exact hnodup.2.2 a hmem a List.mem_cons_self rfl

theorem pairwise_of_split {r : α → α → Prop} {l : List α}
    (h : ∀ l₁ a l₂, l = l₁ ++ a :: l₂ → ∀ b ∈ l₂, r a b) : l.Pairwise r := by
  induction l with
  | nil => exact List.Pairwise.nil
  | cons x xs ih =>
      rw [List.pairwise_cons]
      refine ⟨h [] x xs rfl, ih fun l₁ a l₂ heq => h (x :: l₁) a l₂ ?_⟩
      rw [heq, List.cons_append]

/-- What must not come after an element of a list comes before it. -/
theorem mem_before_of_pairwise {r : α → α → Prop} {l₁ l₂ : List α} {a b : α}
    (h : (l₁ ++ a :: l₂).Pairwise r) (hb : b ∈ l₁ ++ a :: l₂) (hne : b ≠ a) (hnot : ¬ r a b) :
    b ∈ l₁ := by
  rw [List.pairwise_append, List.pairwise_cons] at h
  rcases List.mem_append.mp hb with hb | hb
  · exact hb
  · have hafter := (List.mem_cons.mp hb).resolve_left hne
    exact absurd (h.2.1.1 b hafter) hnot

/-! ## Reachable nodes -/

/-- The nodes found so far, and those among them (or the start) whose
successors have not been looked at; the top of the stack comes first. -/
structure Search (α : Type*) where
  found : List α
  stack : List α

namespace Search

variable [DecidableEq α]

/-- A successor other than the start is added when it is new. -/
def push (start : α) (s : Search α) (n : α) : Search α :=
  if n ∉ s.found ∧ n ≠ start then ⟨s.found ++ [n], n :: s.stack⟩ else s

def step (next : α → List α) (start : α) (s : Search α) : Search α :=
  match s.stack with
  | [] => s
  | current :: rest => (next current).foldl (push start) ⟨s.found, rest⟩

def run (next : α → List α) (start : α) : Nat → Search α → Search α
  | 0, s => s
  | fuel + 1, s => run next start fuel (step next start s)

/-- What every state of the search satisfies. -/
structure Inv (next : α → List α) (start : α) (s : Search α) : Prop where
  nodup : s.found.Nodup
  sound : ∀ n ∈ s.found, TransGen (Edge next) start n ∧ n ≠ start
  known : ∀ n ∈ s.stack, n = start ∨ n ∈ s.found
  closed : ∀ p, p = start ∨ p ∈ s.found → p ∉ s.stack → ∀ n ∈ next p, n = start ∨ n ∈ s.found

variable {next : α → List α} {start : α}

omit [DecidableEq α] in
theorem inv_init : Inv next start ⟨[], [start]⟩ := by
  constructor <;> simp

/-- What adding the successors `ns` does to a state. -/
theorem foldl_push (start : α) (ns : List α) (s : Search α) :
    ∃ new, (ns.foldl (push start) s).found = s.found ++ new ∧
      (ns.foldl (push start) s).stack = new.reverse ++ s.stack ∧ new.Nodup ∧
      ∀ n, n ∈ new ↔ n ∈ ns ∧ n ∉ s.found ∧ n ≠ start := by
  induction ns generalizing s with
  | nil => exact ⟨[], by simp⟩
  | cons m ms ih =>
      by_cases hm : m ∉ s.found ∧ m ≠ start
      · obtain ⟨new, hfound, hstack, hnodup, hmem⟩ := ih ⟨s.found ++ [m], m :: s.stack⟩
        refine ⟨m :: new, ?_, ?_, ?_, ?_⟩
        · simp [push, hm, hfound]
        · simp [push, hm, hstack]
        · refine List.nodup_cons.mpr ⟨fun h => ?_, hnodup⟩
          simp [hmem] at h
        · intro n
          simp only [List.mem_cons, hmem, List.mem_append]
          grind
      · obtain ⟨new, hfound, hstack, hnodup, hmem⟩ := ih s
        refine ⟨new, by simp [push, hm, hfound], by simp [push, hm, hstack], hnodup, ?_⟩
        intro n
        rw [hmem]
        grind

/-- **Search invariant**: one step keeps it. -/
theorem Inv.step {s : Search α} (h : Inv next start s) : Inv next start (step next start s) := by
  obtain ⟨found, stack⟩ := s
  cases stack with
  | nil => exact h
  | cons current rest =>
      have hcurrent : current = start ∨ current ∈ found := h.known current (by simp)
      have hreach : ∀ n ∈ next current, TransGen (Edge next) start n := by
        intro n hn
        rcases hcurrent with rfl | hfound
        · exact .single hn
        · exact .tail (h.sound current hfound).1 hn
      obtain ⟨new, hfound', hstack', hnodup', hmem'⟩ :=
        foldl_push start (next current) ⟨found, rest⟩
      simp only [Search.step]
      refine ⟨?_, ?_, ?_, ?_⟩
      · rw [hfound', List.nodup_append]
        refine ⟨h.nodup, hnodup', ?_⟩
        rintro a ha b hb rfl
        exact ((hmem' a).mp hb).2.1 ha
      · intro n hn
        rw [hfound', List.mem_append] at hn
        rcases hn with hn | hn
        · exact h.sound n hn
        · obtain ⟨hnext, -, hne⟩ := (hmem' n).mp hn
          exact ⟨hreach n hnext, hne⟩
      · intro n hn
        rw [hstack'] at hn
        rw [hfound']
        have := h.known n
        grind
      · intro p hp hstack n hn
        rw [hfound'] at hp ⊢
        rw [hstack'] at hstack
        by_cases hpc : p = current
        · subst hpc
          by_cases hnew : n ∈ found <;> grind
        · have := h.closed p
          grind

theorem Inv.run {s : Search α} (h : Inv next start s) (fuel : Nat) :
    Inv next start (run next start fuel s) := by
  induction fuel generalizing s with
  | zero => exact h
  | succ fuel ih => exact ih h.step

theorem run_of_stack_nil {s : Search α} (h : s.stack = []) (fuel : Nat) :
    run next start fuel s = s := by
  induction fuel with
  | zero => rfl
  | succ fuel ih => rw [run, show Search.step next start s = s by simp [Search.step, h], ih]

/-- Each step takes one node off the stack and each added node is one node less
to find: with as much fuel as nodes (and the start) the stack runs empty. -/
theorem run_stack_eq_nil (start : α) {univ : List α} (huniv : ∀ p, ∀ n ∈ next p, n ∈ univ) (fuel : Nat)
    (s : Search α) (hfuel : s.stack.length + (univ.filter (· ∉ s.found)).length ≤ fuel) :
    (run next start fuel s).stack = [] := by
  induction fuel generalizing s with
  | zero => exact List.length_eq_zero_iff.mp (by rw [run]; omega)
  | succ fuel ih =>
      obtain ⟨found, stack⟩ := s
      cases stack with
      | nil => rw [run_of_stack_nil rfl]
      | cons current rest =>
          refine ih _ ?_
          obtain ⟨new, hfound', hstack', hnodup', hmem'⟩ :=
            foldl_push start (next current) ⟨found, rest⟩
          simp only [Search.step, hfound', hstack']
          have hsub : new ⊆ (univ.filter (· ∉ found)).filter (· ∈ new) := by
            intro n hn
            obtain ⟨hnext, hnew, -⟩ := (hmem' n).mp hn
            simpa [hn, huniv current n hnext] using hnew
          have hnew := (hnodup'.subperm hsub).length_le
          have hsplit : univ.filter (· ∉ found ++ new) =
              (univ.filter (· ∉ found)).filter (fun n => !decide (n ∈ new)) := by
            rw [List.filter_filter]
            refine List.filter_congr fun n _ => ?_
            simp [Bool.and_comm]
          have hparts := List.length_eq_length_filter_add (l := univ.filter (· ∉ found))
            (· ∈ new)
          rw [hsplit]
          simp only [List.length_cons, List.length_append, List.length_reverse] at *
          omega

omit [DecidableEq α] in
/-- **Reachability**: a search with an empty stack has found the nodes reachable
from the start, the start itself left out. -/
theorem Inv.mem_found {s : Search α} (h : Inv next start s) (hstack : s.stack = []) (n : α) :
    n ∈ s.found ↔ TransGen (Edge next) start n ∧ n ≠ start := by
  refine ⟨h.sound n, fun ⟨hreach, hne⟩ => ?_⟩
  have hclosed : ∀ p, p = start ∨ p ∈ s.found → ∀ n ∈ next p, n = start ∨ n ∈ s.found :=
    fun p hp => h.closed p hp (by simp [hstack])
  have hall : ∀ m, TransGen (Edge next) start m → m = start ∨ m ∈ s.found := by
    intro m hm
    induction hm with
    | single hn => exact hclosed start (Or.inl rfl) _ hn
    | tail _ hn ih => exact hclosed _ ih _ hn
  exact (hall n hreach).resolve_left hne

end Search

/-! ## Visiting nodes after their predecessors -/

/-- How many edges from unvisited nodes a node still has, and the nodes that
became free of them. -/
structure Kahn (α : Type*) where
  degree : α → Int
  queue : List α

namespace Kahn

variable [DecidableEq α]

/-- One edge to `n` is taken away; `arrange` is what is done to the queue after
a node is added. -/
def release (arrange : List α → List α) (k : Kahn α) (n : α) : Kahn α where
  degree := Function.update k.degree n (k.degree n - 1)
  queue := if k.degree n - 1 = 0 then arrange (k.queue ++ [n]) else k.queue

/-- The edges of a visited node are taken away. -/
def visit (arrange : List α → List α) (next : α → List α) (k : Kahn α) (current : α) : Kahn α :=
  (next current).foldl (release arrange) k

variable {arrange : List α → List α}

theorem foldl_release (harrange : ∀ l, (arrange l).Perm l) (ns : List α) (k : Kahn α)
    (hcount : ∀ n, (ns.count n : Int) ≤ k.degree n) :
    (∀ n, (ns.foldl (release arrange) k).degree n = k.degree n - ns.count n) ∧
      ∃ new, (ns.foldl (release arrange) k).queue.Perm (k.queue ++ new) ∧ new.Nodup ∧
        ∀ n, n ∈ new ↔ n ∈ ns ∧ k.degree n = ns.count n := by
  induction ns generalizing k with
  | nil => exact ⟨by simp, [], by simp⟩
  | cons m ms ih =>
      have hdegree : ∀ n, (release arrange k m).degree n =
          k.degree n - if n = m then 1 else 0 := by
        intro n
        by_cases hn : n = m <;> simp [release, hn]
      have hcons : ∀ n, ((m :: ms).count n : Int) = ms.count n + if n = m then 1 else 0 := by
        intro n
        rw [List.count_cons]
        by_cases hn : n = m
        · simp [hn]
        · simp [hn, Ne.symm hn]
      obtain ⟨hdeg, new, hperm, hnodup, hmem⟩ := ih (release arrange k m) (by
        intro n
        have := hcount n
        rw [hcons] at this
        rw [hdegree]
        omega)
      refine ⟨fun n => ?_, ?_⟩
      · rw [List.foldl_cons, hdeg, hdegree, hcons]
        omega
      · by_cases hzero : k.degree m - 1 = 0
        · refine ⟨m :: new, ?_, ?_, ?_⟩
          · rw [List.foldl_cons]
            refine hperm.trans ?_
            simp only [release, hzero, if_true]
            have happend := (harrange (k.queue ++ [m])).append_right new
            simpa using happend
          · refine List.nodup_cons.mpr ⟨fun h => ?_, hnodup⟩
            obtain ⟨hms, -⟩ := (hmem m).mp h
            have hpos := List.count_pos_iff.mpr hms
            have hle := hcount m
            rw [hcons] at hle
            simp at hle
            omega
          · intro n
            rw [List.mem_cons, hmem, hdegree, hcons]
            by_cases hn : n = m
            · subst hn
              have hle := hcount n
              rw [hcons] at hle
              simp at hle ⊢
              omega
            · simp [hn]
        · refine ⟨new, ?_, hnodup, ?_⟩
          · rw [List.foldl_cons]
            simpa [release, hzero] using hperm
          · intro n
            rw [hmem, hdegree, hcons, List.mem_cons]
            by_cases hn : n = m
            · subst hn
              have hpos : 0 < ms.count n ↔ n ∈ ms := List.count_pos_iff
              simp only [true_or, true_and, if_true]
              constructor
              · rintro ⟨-, hd⟩
                omega
              · intro hd
                exact ⟨hpos.mp (by omega), by omega⟩
            · simp [hn]

/-- The edges from the nodes `l` to `n`, counted with multiplicity. -/
def inEdges (next : α → List α) (l : List α) (n : α) : Nat := (l.map fun p => (next p).count n).sum

theorem inEdges_perm {next : α → List α} {l l' : List α} (h : l.Perm l') (n : α) :
    inEdges next l n = inEdges next l' n := (h.map _).sum_eq

theorem inEdges_eq_zero {next : α → List α} {l : List α} {n : α} :
    inEdges next l n = 0 ↔ ∀ p ∈ l, n ∉ next p := by
  induction l with
  | nil => simp [inEdges]
  | cons p l ih => simp only [inEdges] at ih; simp [inEdges, ih, List.count_eq_zero]

/-- The state of a traversal: the visited nodes in order, the free ones still to
visit, and the rest. -/
structure Inv (next : α → List α) (verts done pending waiting : List α) (degree : α → Int) :
    Prop where
  perm : verts.Perm (done ++ (pending ++ waiting))
  degree_eq : ∀ n, degree n = inEdges next (pending ++ waiting) n
  waiting_ne : ∀ n ∈ waiting, degree n ≠ 0
  pending_eq : ∀ n ∈ pending, degree n = 0
  order : PredClosed (fun p n => p ∈ verts ∧ n ∈ next p) done

variable {next : α → List α} {verts done pending rest waiting : List α} {degree : α → Int}

/-- The predecessors of a free node are visited. -/
theorem Inv.mem_done (h : Inv next verts done pending waiting degree) {n : α}
    (hn : degree n = 0) {p : α} (hp : p ∈ verts) (hedge : n ∈ next p) : p ∈ done := by
  have hzero : inEdges next (pending ++ waiting) n = 0 := by
    have := h.degree_eq n
    omega
  have hmem := h.perm.mem_iff.mp hp
  rw [List.mem_append] at hmem
  exact hmem.resolve_right fun hrest => inEdges_eq_zero.mp hzero p hrest hedge

/-- The edges of the node that is visited, and those that are left. -/
theorem inEdges_of_perm_cons {current : α} (hpending : pending.Perm (current :: rest)) (n : α) :
    inEdges next (pending ++ waiting) n =
      (next current).count n + inEdges next (rest ++ waiting) n := by
  rw [inEdges_perm (hpending.append_right waiting) n]
  simp [inEdges]

/-- A successor of a free node waits: no visited node has a predecessor that is not visited, and no
free node has one at all. -/
theorem Inv.mem_waiting (h : Inv next verts done pending waiting degree) (hverts : verts.Nodup)
    (hnext : ∀ p ∈ verts, ∀ n ∈ next p, n ∈ verts) {current : α} (hcurrent : current ∈ pending) {n : α}
    (hn : n ∈ next current) : n ∈ waiting := by
  have hcurrentVerts : current ∈ verts := by
    rw [h.perm.mem_iff]
    simp [hcurrent]
  have hall : (done ++ (pending ++ waiting)).Nodup := h.perm.nodup_iff.mp hverts
  have hv := h.perm.mem_iff.mp (hnext current hcurrentVerts n hn)
  simp only [List.mem_append] at hv
  rcases hv with hv | hv | hv
  · obtain ⟨l₁, l₂, rfl⟩ := List.append_of_mem hv
    have hc := h.order l₁ n l₂ rfl current ⟨hcurrentVerts, hn⟩
    have hapart := List.disjoint_of_nodup_append hall (List.mem_append_left _ hc)
    simp [hcurrent] at hapart
  · have hfree : inEdges next (pending ++ waiting) n = 0 := by
      have hdegree := h.degree_eq n
      have hzero := h.pending_eq n hv
      omega
    exact absurd hn (inEdges_eq_zero.mp hfree current (List.mem_append_left _ hcurrent))
  · exact hv

/-- **What a visit releases**: the waiting nodes without a further edge. -/
theorem Inv.mem_released (h : Inv next verts done pending waiting degree) (hverts : verts.Nodup)
    (hnext : ∀ p ∈ verts, ∀ n ∈ next p, n ∈ verts) {current : α}
    (hpending : pending.Perm (current :: rest)) (n : α) :
    (n ∈ next current ∧ degree n = (next current).count n) ↔
      n ∈ waiting ∧ inEdges next (rest ++ waiting) n = 0 := by
  have hcurrent : current ∈ pending := hpending.mem_iff.mpr List.mem_cons_self
  have hdegree := h.degree_eq n
  rw [inEdges_of_perm_cons hpending] at hdegree
  constructor
  · rintro ⟨hn, hcount⟩
    exact ⟨h.mem_waiting hverts hnext hcurrent hn, by omega⟩
  · rintro ⟨hn, hzero⟩
    have hne := h.waiting_ne n hn
    exact ⟨List.count_pos_iff.mp (by omega), by omega⟩

/-- What is released and what goes on waiting, apart. -/
theorem perm_released {new : List α} (hwaiting : waiting.Nodup) (hnew : new.Nodup)
    (hsub : ∀ n ∈ new, n ∈ waiting) :
    (new ++ waiting.filter (fun n => !decide (n ∈ new))).Perm waiting := by
  have hperm : (waiting.filter (· ∈ new)).Perm new := by
    refine (List.perm_ext_iff_of_nodup (hwaiting.filter _) hnew).mpr fun n => ?_
    have hmem := hsub n
    simp
    tauto
  exact (hperm.symm.append_right _).trans (List.filter_append_perm _ waiting)

/-- **Traversal invariant**: visiting a free node keeps it. -/
theorem Inv.visit (h : Inv next verts done pending waiting degree) (hverts : verts.Nodup)
    (hnext : ∀ p ∈ verts, ∀ n ∈ next p, n ∈ verts) (harrange : ∀ l, (arrange l).Perm l)
    {current : α} (hpending : pending.Perm (current :: rest)) (queue : List α) :
    ∃ new waiting', (visit arrange next ⟨degree, queue⟩ current).queue.Perm (queue ++ new) ∧
      Inv next verts (done ++ [current]) (rest ++ new) waiting'
        (visit arrange next ⟨degree, queue⟩ current).degree := by
  have hdegree := h.degree_eq
  simp only [inEdges_of_perm_cons hpending] at hdegree
  obtain ⟨hdeg, new, hperm, hnodup, hmem⟩ := foldl_release harrange (next current)
    ⟨degree, queue⟩ (by
      intro n
      have hn := hdegree n
      dsimp only
      omega)
  have hnew : ∀ n, n ∈ new ↔ n ∈ waiting ∧ inEdges next (rest ++ waiting) n = 0 := fun n =>
    (hmem n).trans (h.mem_released hverts hnext hpending n)
  have hwaiting : waiting.Nodup := by
    have hall := h.perm.nodup_iff.mp hverts
    simp only [List.nodup_append] at hall
    exact hall.2.1.2.1
  have hparts := perm_released hwaiting hnodup fun n hn => ((hnew n).mp hn).1
  have hleft : ∀ n, (Kahn.visit arrange next ⟨degree, queue⟩ current).degree n =
      inEdges next (rest ++ waiting) n := by
    intro n
    have hn := hdegree n
    rw [Kahn.visit, hdeg]
    dsimp only
    omega
  refine ⟨new, waiting.filter (fun n => !decide (n ∈ new)), hperm, ?_, ?_, ?_, ?_, ?_⟩
  · refine h.perm.trans ?_
    rw [List.append_assoc]
    refine List.Perm.append_left done ?_
    refine (hpending.append_right waiting).trans ?_
    rw [List.append_assoc]
    exact (hparts.symm.append_left rest).cons current
  · intro n
    rw [hleft, List.append_assoc]
    exact_mod_cast inEdges_perm (hparts.symm.append_left rest) n
  · intro n hn
    rw [hleft]
    have hn' := hnew n
    simp at hn
    grind
  · intro n hn
    rw [hleft]
    rw [List.mem_append] at hn
    rcases hn with hn | hn
    · have hfree := h.pending_eq n (hpending.mem_iff.mpr (List.mem_cons_of_mem _ hn))
      have hn := hdegree n
      omega
    · have hzero := ((hnew n).mp hn).2
      omega
  · have hcurrent : current ∈ pending := hpending.mem_iff.mpr List.mem_cons_self
    exact h.order.concat fun p ⟨hp, hedge⟩ =>
      h.mem_done (h.pending_eq current hcurrent) hp hedge

theorem Inv.congr_pending (h : Inv next verts done pending waiting degree)
    (hperm : pending.Perm rest) : Inv next verts done rest waiting degree where
  perm := h.perm.trans ((hperm.append_right waiting).append_left done)
  degree_eq n := by rw [h.degree_eq, inEdges_perm (hperm.append_right waiting)]
  waiting_ne := h.waiting_ne
  pending_eq n hn := h.pending_eq n (hperm.mem_iff.mpr hn)
  order := h.order

/-- Visiting a list of free nodes one after the other. -/
theorem Inv.foldl_visit (arrange : List α → List α) (hverts : verts.Nodup) (hnext : ∀ p ∈ verts, ∀ n ∈ next p, n ∈ verts)
    (harrange : ∀ l, (arrange l).Perm l) (batch : List α) (k : Kahn α)
    (h : Inv next verts done (batch ++ k.queue) waiting k.degree) :
    ∃ waiting', Inv next verts (done ++ batch) (batch.foldl (Kahn.visit arrange next) k).queue
      waiting' (batch.foldl (Kahn.visit arrange next) k).degree := by
  induction batch generalizing k done waiting with
  | nil => exact ⟨waiting, by simpa using h⟩
  | cons current batch ih =>
      obtain ⟨new, waiting', hqueue, hinv⟩ :=
        h.visit hverts hnext harrange (List.Perm.refl _) k.queue
      have hperm : (batch ++ k.queue ++ new).Perm
          (batch ++ (Kahn.visit arrange next k current).queue) := by
        rw [List.append_assoc]
        exact hqueue.symm.append_left batch
      obtain ⟨waiting'', hrest⟩ := ih (Kahn.visit arrange next k current)
        (hinv.congr_pending hperm)
      exact ⟨waiting'', by simpa using hrest⟩

/-- Every node that is not visited and not free has a predecessor that is
neither, so in an acyclic graph there is none when no node is free. -/
theorem Inv.waiting_eq_nil (h : Inv next verts done [] waiting degree) (hacyclic : Acyclic next) :
    waiting = [] := by
  by_contra hne
  obtain ⟨n, hn, hmin⟩ := exists_minimal hacyclic hne
  have hdeg := h.waiting_ne n hn
  rw [h.degree_eq, List.nil_append] at hdeg
  exact hdeg (by exact_mod_cast inEdges_eq_zero.mpr hmin)

/-- A traversal that visited every node shows that there is no cycle. -/
theorem Inv.acyclic (h : Inv next verts done [] [] degree) (hverts : verts.Nodup)
    (hnext : ∀ p, ∀ n ∈ next p, p ∈ verts ∧ n ∈ verts) : Acyclic next := by
  have hperm : verts.Perm done := by simpa using h.perm
  intro a hcycle
  have hsub : TransGen (fun p n => p ∈ verts ∧ n ∈ next p) a a :=
    TransGen.mono (fun p n hn => ⟨(hnext p n hn).1, hn⟩) _ _ hcycle
  obtain ⟨b, hb, -⟩ := TransGen.head'_iff.mp hsub
  exact h.order.irrefl (hperm.nodup_iff.mp hverts) (hperm.mem_iff.mp hb.1) hsub

/-! ### Successor lists built from predecessor lists -/

/-- The nodes that list `n` among their predecessors, once for each time. -/
def adjacency (preds : α → List α) (verts : List α) (n : α) : List α :=
  verts.flatMap fun id => ((preds id).filter (· = n)).map fun _ => id

theorem mem_adjacency {preds : α → List α} {verts : List α} {n id : α} :
    id ∈ adjacency preds verts n ↔ id ∈ verts ∧ n ∈ preds id := by
  simp only [adjacency, List.mem_flatMap, List.mem_map, List.mem_filter, decide_eq_true_eq]
  grind

theorem count_adjacency {preds : α → List α} {verts : List α} (hverts : verts.Nodup) (p n : α) :
    (adjacency preds verts p).count n = if n ∈ verts then (preds n).count p else 0 := by
  induction verts with
  | nil => simp [adjacency]
  | cons v vs ih =>
      obtain ⟨hv, hvs⟩ := List.nodup_cons.mp hverts
      have hone : (((preds v).filter (· = p)).map fun _ => v).count n =
          if n = v then (preds v).count p else 0 := by
        rw [List.map_const', List.count_replicate, ← List.countP_eq_length_filter]
        by_cases hn : n = v
        · simp [hn, List.count_eq_countP, BEq.beq]
        · simp [hn, Ne.symm hn]
      simp only [adjacency, List.flatMap_cons, List.count_append] at ih ⊢
      rw [ih hvs, hone]
      by_cases hn : n = v
      · subst hn; simp [hv]
      · simp [hn]

/-- A list's elements among some nodes, counted node by node. -/
theorem sum_count_eq_length_filter {verts : List α} (hverts : verts.Nodup) (l : List α) :
    (verts.map fun p => l.count p).sum = (l.filter (· ∈ verts)).length := by
  induction verts with
  | nil => simp
  | cons v vs ih =>
      obtain ⟨hv, hvs⟩ := List.nodup_cons.mp hverts
      rw [List.map_cons, List.sum_cons, ih hvs]
      clear ih
      induction l with
      | nil => rfl
      | cons x xs ihl =>
          by_cases hx : x = v
          · subst hx
            simp [hv] at ihl ⊢
            omega
          · by_cases hxs : x ∈ vs <;> simp [hx, hxs] at ihl ⊢ <;> omega

/-- With each predecessor counted once for each time it is listed, the number
of edges into a node is the number of its predecessors among the nodes. -/
theorem inEdges_adjacency {preds : α → List α} {verts : List α} (hverts : verts.Nodup) (n : α) :
    inEdges (adjacency preds verts) verts n =
      if n ∈ verts then ((preds n).filter (· ∈ verts)).length else 0 := by
  simp only [inEdges, count_adjacency hverts]
  by_cases hn : n ∈ verts
  · simp only [hn, if_true]
    exact sum_count_eq_length_filter hverts _
  · simp [hn]

/-- The edges a traversal starts with, and the nodes without a predecessor. -/
def degrees (preds : α → List α) (verts : List α) (n : α) : Int :=
  if n ∈ verts then ((preds n).filter (· ∈ verts)).length else 0

/-- **Traversal invariant**: it holds at the start. -/
theorem inv_init {preds : α → List α} {verts queue : List α} (hverts : verts.Nodup)
    (hqueue : queue.Perm (verts.filter fun n => degrees preds verts n = 0)) :
    Inv (adjacency preds verts) verts [] queue
      (verts.filter fun n => !decide (degrees preds verts n = 0)) (degrees preds verts) where
  perm := ((hqueue.append_right _).trans (List.filter_append_perm _ verts)).symm
  degree_eq n := by
    have hperm := (hqueue.append_right _).trans
      (List.filter_append_perm (fun n => decide (degrees preds verts n = 0)) verts)
    rw [inEdges_perm hperm, inEdges_adjacency hverts, degrees]
    split <;> rfl
  waiting_ne n hn := by simpa using (List.mem_filter.mp hn).2
  pending_eq n hn := by simpa using (List.mem_filter.mp (hqueue.mem_iff.mp hn)).2
  order := PredClosed.nil

end Kahn

/-! ## Chains inside a set of nodes -/

section Chains

variable [DecidableEq α]

/-- Is there a chain of `n` edges from a node that stays inside `verts`? -/
def hasChain (next : α → List α) (verts : List α) : Nat → α → Bool
  | 0, a => decide (a ∈ verts)
  | n + 1, a => decide (a ∈ verts) && (next a).any (hasChain next verts n)

/-- The length of the longest chain from a node inside `verts`. -/
def chainDepth (next : α → List α) (verts : List α) (a : α) : Nat :=
  Nat.findGreatest (fun n => hasChain next verts n a) verts.length

variable {next : α → List α} {verts : List α}

theorem hasChain_succ {n : Nat} {a : α} : hasChain next verts (n + 1) a ↔
    a ∈ verts ∧ ∃ b ∈ next a, hasChain next verts n b := by
  simp [hasChain]

theorem mem_of_hasChain {n : Nat} {a : α} (h : hasChain next verts n a) : a ∈ verts := by
  cases n with
  | zero => simpa [hasChain] using h
  | succ n => exact (hasChain_succ.mp h).1

theorem hasChain_of_succ {n : Nat} {a : α} (h : hasChain next verts (n + 1) a) :
    hasChain next verts n a := by
  induction n generalizing a with
  | zero => simpa [hasChain] using mem_of_hasChain h
  | succ n ih =>
      obtain ⟨ha, b, hb, hchain⟩ := hasChain_succ.mp h
      exact hasChain_succ.mpr ⟨ha, b, hb, ih hchain⟩

theorem hasChain_antitone {m n : Nat} {a : α} (hmn : m ≤ n) (h : hasChain next verts n a) :
    hasChain next verts m a := by
  induction n with
  | zero => rwa [Nat.le_zero.mp hmn]
  | succ n ih =>
      rcases Nat.le_or_eq_of_le_succ hmn with hle | rfl
      · exact ih hle (hasChain_of_succ h)
      · exact h

/-- A node has depth at least `n` when a chain of length `n` leaves it. -/
theorem le_chainDepth_iff {n : Nat} {a : α} (hn : n ≤ verts.length) (ha : a ∈ verts) :
    n ≤ chainDepth next verts a ↔ hasChain next verts n a := by
  constructor
  · intro hle
    refine hasChain_antitone hle (Nat.findGreatest_spec (m := 0)
      (P := fun n => hasChain next verts n a = true) (Nat.zero_le _) ?_)
    simpa [hasChain] using ha
  · exact fun hchain => Nat.le_findGreatest hn hchain

omit [DecidableEq α] in
/-- Along a walk in an acyclic graph no node occurs twice. -/
theorem nodup_of_isChain (hacyclic : Acyclic next) {l : List α}
    (h : l.IsChain (Edge next)) : l.Nodup := by
  have : IsTrans α (TransGen (Edge next)) := ⟨fun _ _ _ hab hbc => hab.trans hbc⟩
  have hpair := List.isChain_iff_pairwise.mp (h.imp fun _ _ hab => TransGen.single hab)
  refine hpair.imp ?_
  rintro a b hab rfl
  exact hacyclic a hab

/-- A chain of `n` edges needs more than `n` nodes. -/
theorem lt_length_of_hasChain (hacyclic : Acyclic next) {n : Nat} {a : α}
    (h : hasChain next verts n a) : n < verts.length := by
  have hwalk : ∀ n a, hasChain next verts n a →
      ∃ l : List α, (a :: l).IsChain (Edge next) ∧ l.length = n ∧ ∀ b ∈ a :: l, b ∈ verts := by
    intro n
    induction n with
    | zero => exact fun a ha => ⟨[], by simp, rfl, by simpa [hasChain] using ha⟩
    | succ n ih =>
        intro a ha
        obtain ⟨hmem, b, hb, hchain⟩ := hasChain_succ.mp ha
        obtain ⟨l, hl, hlen, hall⟩ := ih b hchain
        exact ⟨b :: l, List.IsChain.cons_cons hb hl, by simp [hlen],
          List.forall_mem_cons.mpr ⟨hmem, hall⟩⟩
  obtain ⟨l, hl, hlen, hall⟩ := hwalk n a h
  have hle := ((nodup_of_isChain hacyclic hl).subperm hall).length_le
  rw [List.length_cons, hlen] at hle
  exact hle

/-- An edge makes the longest chain longer. -/
theorem chainDepth_lt_of_edge (hacyclic : Acyclic next) {a b : α} (ha : a ∈ verts)
    (hb : b ∈ verts) (hedge : b ∈ next a) :
    chainDepth next verts b < chainDepth next verts a := by
  have hchain := (le_chainDepth_iff (Nat.findGreatest_le _) hb).mp (le_refl (chainDepth next verts b))
  have hlonger := hasChain_succ.mpr ⟨ha, b, hedge, hchain⟩
  exact (le_chainDepth_iff (lt_length_of_hasChain hacyclic hlonger).le ha).mpr hlonger

/-- Nodes by depth, those of one depth by the given order. -/
def DepthBefore [LT α] (next : α → List α) (verts : List α) (a b : α) : Prop :=
  chainDepth next verts a < chainDepth next verts b ∨
    chainDepth next verts a = chainDepth next verts b ∧ a < b

instance [LT α] [DecidableLT α] (a b : α) : Decidable (DepthBefore next verts a b) :=
  inferInstanceAs (Decidable (_ ∨ _ ∧ _))

theorem DepthBefore.asymm [Preorder α] {a b : α} (h : DepthBefore next verts a b) :
    ¬ DepthBefore next verts b a := by
  intro h'
  rcases h with h | ⟨heq, hlt⟩ <;> rcases h' with h' | ⟨heq', hlt'⟩
  · omega
  · omega
  · omega
  · exact lt_asymm hlt hlt'

end Chains

end AtlasManager.Lib
