import AtlasManager.Lib.Double

/-!
# AtlasManager.Lib.Rfc8259

The grammar of JSON texts, over the code units of a text, and the value that a
text stands for.

A rule of the grammar relates a text to what follows the part that the rule
derives: `IsValue t v r` says that a value with the tree `v` stands before `r`
in `t`.

* `Tree` -- what is derived: members in their order, names as often as they stand;
* `Value` -- what a tree stands for: the last member of a name counts;
* `IsJsonText` -- the texts of the grammar;
* `isValue_append` -- a value is derived whatever stands behind what it leaves.
-/

namespace AtlasManager.Lib.Rfc8259

/-- A code unit of a text. -/
abbrev CodeUnit := UInt16

abbrev Text := List CodeUnit

/-- The code unit of an ASCII character. -/
def unit (c : Char) : CodeUnit := UInt16.ofNat c.toNat

/-! ## Trees and values -/

inductive Tree where
  | null
  | bool (b : Bool)
  | num (literal : Text)
  | str (s : Text)
  | arr (items : List Tree)
  | obj (members : List (Text × Tree))

inductive Value where
  | null
  | bool (b : Bool)
  | num (number : Double)
  | str (s : Text)
  | arr (items : List Value)
  | obj (members : List (Text × Value))

/-- Set a member: in its place if there is one, else behind the others. -/
def assign (members : List (Text × Value)) (name : Text) (value : Value) : List (Text × Value) :=
  if members.any fun m => m.1 = name then
    members.map fun m => if m.1 = name then (name, value) else m
  else members ++ [(name, value)]

/-! ### Numbers -/

def isDigit (c : CodeUnit) : Bool := unit '0' ≤ c && c ≤ unit '9'

/-- The number that digits write. -/
def decimal (digits : Text) : Nat :=
  digits.foldl (fun n d => 10 * n + (d.toNat - (unit '0').toNat)) 0

/-- The exact magnitude that a literal without its sign writes. -/
def magnitude (literal : Text) : Rat :=
  let whole := literal.takeWhile isDigit
  let behind := literal.dropWhile isDigit
  let fraction := if behind.head? = some (unit '.') then behind.tail.takeWhile isDigit else []
  let behind := behind.dropWhile fun c => c ≠ unit 'e' ∧ c ≠ unit 'E'
  let exponent : Int := decimal (behind.filter isDigit)
  let exponent := if behind.tail.head? = some (unit '-') then -exponent else exponent
  decimal (whole ++ fraction) * 10 ^ (exponent - fraction.length)

/-- The number that a literal stands for. -/
def toNumber (literal : Text) : Double :=
  if literal.head? = some (unit '-') then .nearest true (magnitude literal.tail)
  else .nearest false (magnitude literal)

mutual

/-- The value that a tree stands for. -/
def Tree.value : Tree → Value
  | .null => .null
  | .bool b => .bool b
  | .num literal => .num (toNumber literal)
  | .str s => .str s
  | .arr items => .arr (values items)
  | .obj members => .obj (memberValues [] members)

def values : List Tree → List Value
  | [] => []
  | item :: items => item.value :: values items

/-- The members set one after the other. -/
def memberValues (made : List (Text × Value)) : List (Text × Tree) → List (Text × Value)
  | [] => made
  | (name, item) :: members => memberValues (assign made name item.value) members

end

/-- Members with different names are set one behind the other. -/
theorem memberValues_eq {made : List (Text × Value)} {members : List (Text × Tree)}
    (hnodup : (members.map Prod.fst).Nodup)
    (hapart : ∀ name ∈ members.map Prod.fst, name ∉ made.map Prod.fst) :
    memberValues made members = made ++ members.map fun m => (m.1, m.2.value) := by
  induction members generalizing made with
  | nil => simp [memberValues]
  | cons member members ih =>
      obtain ⟨name, item⟩ := member
      rw [List.map_cons, List.nodup_cons] at hnodup
      have hfresh : made.any (fun m => m.1 = name) = false := by
        rw [List.any_eq_false]
        intro m hm
        have hnot := hapart name (by simp)
        have hne : m.1 ≠ name := by
          rintro rfl
          exact hnot (List.mem_map_of_mem hm)
        simpa using hne
      have hassign : assign made name item.value = made ++ [(name, item.value)] := by
        rw [assign, hfresh]
        rfl
      rw [memberValues, hassign, ih hnodup.2]
      · simp
      · intro other hother hmem
        rw [List.map_append, List.mem_append] at hmem
        rcases hmem with hmem | hmem
        · exact hapart other (List.mem_cons_of_mem _ hother) hmem
        · rw [List.map_singleton, List.mem_singleton] at hmem
          exact hnodup.1 (hmem ▸ hother)

mutual

/-- At every depth, the members of an object have different names. -/
def Tree.NamesDistinct : Tree → Prop
  | .arr items => ItemNamesDistinct items
  | .obj members => (members.map Prod.fst).Nodup ∧ MemberNamesDistinct members
  | _ => True

def ItemNamesDistinct : List Tree → Prop
  | [] => True
  | item :: items => item.NamesDistinct ∧ ItemNamesDistinct items

def MemberNamesDistinct : List (Text × Tree) → Prop
  | [] => True
  | (_, item) :: members => item.NamesDistinct ∧ MemberNamesDistinct members

end

mutual

/-- Every number is finite. -/
def Tree.NumbersFinite : Tree → Prop
  | .num literal => (toNumber literal).isFinite = true
  | .arr items => ItemNumbersFinite items
  | .obj members => MemberNumbersFinite members
  | _ => True

def ItemNumbersFinite : List Tree → Prop
  | [] => True
  | item :: items => item.NumbersFinite ∧ ItemNumbersFinite items

def MemberNumbersFinite : List (Text × Tree) → Prop
  | [] => True
  | (_, item) :: members => item.NumbersFinite ∧ MemberNumbersFinite members

end

/-! ## Whitespace and structural characters -/

def isWhitespace (c : CodeUnit) : Bool := c = 0x20 || c = 0x09 || c = 0x0A || c = 0x0D

/-- `ws` -/
inductive Ws : Text → Text → Prop
  | nil {t : Text} : Ws t t
  | cons {c : CodeUnit} {t r : Text} : isWhitespace c = true → Ws t r → Ws (c :: t) r

/-- `ws c ws`, for one of the six structural characters. -/
def Structural (c : CodeUnit) (t r : Text) : Prop := ∃ u, Ws t (c :: u) ∧ Ws u r

/-! ## Strings -/

/-- The characters that may stand behind a reverse solidus, and what they stand for. -/
def escapes : List (CodeUnit × CodeUnit) :=
  [(0x22, 0x22), (0x5C, 0x5C), (0x2F, 0x2F), (unit 'b', 0x08), (unit 'f', 0x0C), (unit 'n', 0x0A),
    (unit 'r', 0x0D), (unit 't', 0x09)]

def hexDigit? (c : CodeUnit) : Option CodeUnit :=
  if isDigit c then some (c - unit '0')
  else if unit 'a' ≤ c ∧ c ≤ unit 'f' then some (c - unit 'a' + 10)
  else if unit 'A' ≤ c ∧ c ≤ unit 'F' then some (c - unit 'A' + 10)
  else none

/-- `char` -/
inductive IsChar : Text → CodeUnit → Text → Prop
  | unescaped {c : CodeUnit} {r : Text} : 0x20 ≤ c → c ≠ 0x22 → c ≠ 0x5C → IsChar (c :: r) c r
  | escaped {e c : CodeUnit} {r : Text} : (e, c) ∈ escapes → IsChar (0x5C :: e :: r) c r
  | hex {h₁ h₂ h₃ h₄ d₁ d₂ d₃ d₄ : CodeUnit} {r : Text} : hexDigit? h₁ = some d₁ →
      hexDigit? h₂ = some d₂ → hexDigit? h₃ = some d₃ → hexDigit? h₄ = some d₄ →
      IsChar (0x5C :: unit 'u' :: h₁ :: h₂ :: h₃ :: h₄ :: r) (((d₁ * 16 + d₂) * 16 + d₃) * 16 + d₄) r

/-- `*char` -/
inductive IsChars : Text → Text → Text → Prop
  | nil {t : Text} : IsChars t [] t
  | cons {t u r : Text} {c : CodeUnit} {cs : Text} :
      IsChar t c u → IsChars u cs r → IsChars t (c :: cs) r

/-- `string` -/
inductive IsString : Text → Text → Text → Prop
  | quoted {t s r : Text} : IsChars t s (0x22 :: r) → IsString (0x22 :: t) s r

/-! ## Numbers -/

/-- `1*DIGIT` -/
def IsDigits (t : Text) : Prop := t ≠ [] ∧ ∀ c ∈ t, isDigit c = true

/-- `int` -/
inductive IsInt : Text → Prop
  | zero : IsInt [unit '0']
  | nonzero {d : CodeUnit} {ds : Text} : isDigit d = true → d ≠ unit '0' →
      (∀ c ∈ ds, isDigit c = true) → IsInt (d :: ds)

/-- `[ frac ]` -/
inductive IsFrac : Text → Prop
  | absent : IsFrac []
  | present {ds : Text} : IsDigits ds → IsFrac (unit '.' :: ds)

/-- `[ exp ]` -/
inductive IsExp : Text → Prop
  | absent : IsExp []
  | unsigned {e : CodeUnit} {ds : Text} : e = unit 'e' ∨ e = unit 'E' → IsDigits ds → IsExp (e :: ds)
  | signed {e s : CodeUnit} {ds : Text} : e = unit 'e' ∨ e = unit 'E' → s = unit '+' ∨ s = unit '-' →
      IsDigits ds → IsExp (e :: s :: ds)

/-- `number` -/
inductive IsNumber : Text → Prop
  | positive {i f e : Text} : IsInt i → IsFrac f → IsExp e → IsNumber (i ++ (f ++ e))
  | negative {i f e : Text} : IsInt i → IsFrac f → IsExp e → IsNumber (unit '-' :: (i ++ (f ++ e)))

/-! ## Values -/

mutual

/-- `value` -/
inductive IsValue : Text → Tree → Text → Prop
  | null {r : Text} : IsValue (unit 'n' :: unit 'u' :: unit 'l' :: unit 'l' :: r) .null r
  | true {r : Text} : IsValue (unit 't' :: unit 'r' :: unit 'u' :: unit 'e' :: r) (.bool .true) r
  | false {r : Text} :
      IsValue (unit 'f' :: unit 'a' :: unit 'l' :: unit 's' :: unit 'e' :: r) (.bool .false) r
  | number {literal r : Text} : IsNumber literal → IsValue (literal ++ r) (.num literal) r
  | string {t s r : Text} : IsString t s r → IsValue t (.str s) r
  | emptyArray {t u r : Text} : Structural (unit '[') t u → Structural (unit ']') u r →
      IsValue t (.arr []) r
  | array {t u v r : Text} {items : List Tree} : Structural (unit '[') t u → IsItems u items v →
      Structural (unit ']') v r → IsValue t (.arr items) r
  | emptyObject {t u r : Text} : Structural (unit '{') t u → Structural (unit '}') u r →
      IsValue t (.obj []) r
  | object {t u v r : Text} {members : List (Text × Tree)} : Structural (unit '{') t u →
      IsMembers u members v → Structural (unit '}') v r → IsValue t (.obj members) r

/-- `value *( value-separator value )` -/
inductive IsItems : Text → List Tree → Text → Prop
  | one {t r : Text} {item : Tree} : IsValue t item r → IsItems t [item] r
  | more {t u v r : Text} {item : Tree} {items : List Tree} : IsValue t item u →
      Structural (unit ',') u v → IsItems v items r → IsItems t (item :: items) r

/-- `member *( value-separator member )` -/
inductive IsMembers : Text → List (Text × Tree) → Text → Prop
  | one {t u v r : Text} {name : Text} {item : Tree} : IsString t name u →
      Structural (unit ':') u v → IsValue v item r → IsMembers t [(name, item)] r
  | more {t u v w x r : Text} {name : Text} {item : Tree} {members : List (Text × Tree)} :
      IsString t name u → Structural (unit ':') u v → IsValue v item w →
      Structural (unit ',') w x → IsMembers x members r → IsMembers t ((name, item) :: members) r

end

/-- `JSON-text` -/
def IsJsonText (text : Text) (tree : Tree) : Prop :=
  ∃ t r, Ws text t ∧ IsValue t tree r ∧ Ws r []

/-! ## What follows a value -/

section Append

variable {t r : Text} (behind : Text)

theorem ws_append (h : Ws t r) : Ws (t ++ behind) (r ++ behind) := by
  induction h with
  | nil => exact .nil
  | cons hspace _ ih => exact .cons hspace ih

theorem structural_append {c : CodeUnit} (h : Structural c t r) :
    Structural c (t ++ behind) (r ++ behind) := by
  obtain ⟨u, hbefore, hafter⟩ := h
  exact ⟨u ++ behind, ws_append behind hbefore, ws_append behind hafter⟩

theorem isChar_append {c : CodeUnit} (h : IsChar t c r) : IsChar (t ++ behind) c (r ++ behind) := by
  cases h with
  | unescaped hcontrol hquote hsolidus => exact .unescaped hcontrol hquote hsolidus
  | escaped hmem => exact .escaped hmem
  | hex h₁ h₂ h₃ h₄ => exact .hex h₁ h₂ h₃ h₄

theorem isChars_append {s : Text} (h : IsChars t s r) : IsChars (t ++ behind) s (r ++ behind) := by
  induction h with
  | nil => exact .nil
  | cons hchar _ ih => exact .cons (isChar_append behind hchar) ih

theorem isString_append {s : Text} (h : IsString t s r) : IsString (t ++ behind) s (r ++ behind) := by
  cases h with
  | quoted hchars => exact .quoted (isChars_append behind hchars)

end Append

mutual

/-- **A value is derived** whatever stands behind what it leaves. -/
theorem isValue_append {t r : Text} {tree : Tree} (h : IsValue t tree r) (behind : Text) :
    IsValue (t ++ behind) tree (r ++ behind) := by
  cases h with
  | null => exact .null
  | true => exact .true
  | false => exact .false
  | number hnumber =>
      rw [List.append_assoc]
      exact .number hnumber
  | string hstring => exact .string (isString_append behind hstring)
  | emptyArray hopen hclose =>
      exact .emptyArray (structural_append behind hopen) (structural_append behind hclose)
  | array hopen hitems hclose =>
      exact .array (structural_append behind hopen) (isItems_append hitems behind)
        (structural_append behind hclose)
  | emptyObject hopen hclose =>
      exact .emptyObject (structural_append behind hopen) (structural_append behind hclose)
  | object hopen hmembers hclose =>
      exact .object (structural_append behind hopen) (isMembers_append hmembers behind)
        (structural_append behind hclose)

theorem isItems_append {t r : Text} {items : List Tree} (h : IsItems t items r) (behind : Text) :
    IsItems (t ++ behind) items (r ++ behind) := by
  cases h with
  | one hvalue => exact .one (isValue_append hvalue behind)
  | more hvalue hcomma hitems =>
      exact .more (isValue_append hvalue behind) (structural_append behind hcomma)
        (isItems_append hitems behind)

theorem isMembers_append {t r : Text} {members : List (Text × Tree)} (h : IsMembers t members r)
    (behind : Text) : IsMembers (t ++ behind) members (r ++ behind) := by
  cases h with
  | one hname hcolon hvalue =>
      exact .one (isString_append behind hname) (structural_append behind hcolon)
        (isValue_append hvalue behind)
  | more hname hcolon hvalue hcomma hmembers =>
      exact .more (isString_append behind hname) (structural_append behind hcolon)
        (isValue_append hvalue behind) (structural_append behind hcomma)
        (isMembers_append hmembers behind)

end

end AtlasManager.Lib.Rfc8259
