import Mathlib.Data.List.Forall2

/-!
# AtlasManager.Lib.HashChain

Entries, each of which names the hash of the one before it.

* `chained_append`, `chainHead_append` -- chains are put together at the hash that the first one ends
  with;
* `chained_commit` -- the last hash of a chain and its length commit to all of its texts, unless two
  different texts have one hash.
-/

namespace AtlasManager.Lib

section HashChain

variable {Entry Hash Text : Type} (previous own : Entry → Hash)

/-- Does every entry name the hash of the one before it, and the first one a given hash? -/
def Chained : Hash → List Entry → Prop
  | _, [] => True
  | start, entry :: rest => previous entry = start ∧ Chained (own entry) rest

/-- The hash of the last entry, or the given one where there is none. -/
def chainHead (start : Hash) (entries : List Entry) : Hash :=
  match entries.getLast? with
  | some entry => own entry
  | none => start

theorem chainHead_nil (start : Hash) : chainHead own start [] = start := rfl

theorem chainHead_cons (start : Hash) (entry : Entry) (rest : List Entry) :
    chainHead own start (entry :: rest) = chainHead own (own entry) rest := by
  rw [chainHead, chainHead, List.getLast?_cons]
  cases rest.getLast? <;> rfl

theorem chainHead_append (start : Hash) (front back : List Entry) :
    chainHead own start (front ++ back) = chainHead own (chainHead own start front) back := by
  induction front generalizing start with
  | nil => rfl
  | cons entry front ih => rw [List.cons_append, chainHead_cons, chainHead_cons, ih]

/-- **Chains are put together** where the first one ends. -/
theorem chained_append {start : Hash} {front back : List Entry} :
    Chained previous own start (front ++ back) ↔
      Chained previous own start front ∧ Chained previous own (chainHead own start front) back := by
  induction front generalizing start with
  | nil => simp [Chained, chainHead_nil]
  | cons entry front ih =>
      rw [List.cons_append, Chained, Chained, ih, chainHead_cons]
      exact and_assoc.symm

variable {previous own}

/-- **The last hash of a chain** commits to its texts: two chains of one length that end with one hash
have the same texts and begin at the same hash, or two different texts of theirs have one hash. -/
theorem chained_commit {hash : Text → Hash} {text : Entry → Text} {start start' : Hash}
    {entries entries' : List Entry} (hentries : ∀ entry ∈ entries, hash (text entry) = own entry)
    (hentries' : ∀ entry ∈ entries', hash (text entry) = own entry)
    (hprevious : ∀ entry ∈ entries, ∀ entry' ∈ entries', text entry = text entry' →
      previous entry = previous entry')
    (hchained : Chained previous own start entries) (hchained' : Chained previous own start' entries')
    (hlength : entries.length = entries'.length)
    (hhead : chainHead own start entries = chainHead own start' entries') :
    (start = start' ∧ List.Forall₂ (fun entry entry' => text entry = text entry') entries entries') ∨
      ∃ entry ∈ entries, ∃ entry' ∈ entries', text entry ≠ text entry' ∧
        hash (text entry) = hash (text entry') := by
  induction entries generalizing start start' entries' with
  | nil =>
      rw [List.length_nil, eq_comm, List.length_eq_zero_iff] at hlength
      rw [hlength, chainHead_nil, chainHead_nil] at hhead
      rw [hlength]
      exact .inl ⟨hhead, .nil⟩
  | cons entry rest ih =>
      cases entries' with
      | nil => simp at hlength
      | cons entry' rest' =>
          rw [chainHead_cons, chainHead_cons] at hhead
          rw [List.forall_mem_cons] at hentries hentries'
          have hrest : ∀ e ∈ rest, ∀ e' ∈ rest', text e = text e' → previous e = previous e' :=
            fun e he e' he' => hprevious e (.tail _ he) e' (.tail _ he')
          have hbehind := ih hentries.2 hentries'.2 hrest hchained.2 hchained'.2
            (by simpa using hlength) hhead
          cases hbehind with
          | inr hcollision =>
              obtain ⟨e, he, e', he', hcollides⟩ := hcollision
              exact .inr ⟨e, .tail _ he, e', .tail _ he', hcollides⟩
          | inl hsame =>
              have hhash : hash (text entry) = hash (text entry') := by
                rw [hentries.1, hentries'.1, hsame.1]
              by_cases htext : text entry = text entry'
              · have hstart := hprevious entry (.head _) entry' (.head _) htext
                rw [hchained.1, hchained'.1] at hstart
                exact .inl ⟨hstart, .cons htext hsame.2⟩
              · exact .inr ⟨entry, .head _, entry', .head _, htext, hhash⟩

end HashChain

end AtlasManager.Lib
