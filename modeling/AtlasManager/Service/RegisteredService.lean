import AtlasManager.Lib.Js
import AtlasManager.Scheduling.Policy

/-!
# AtlasManager.Service.RegisteredService

Registered services as the catalogue lists them, the grammar of their ids and
the check of the dependencies they declare.
-/

namespace AtlasManager.Service

open AtlasManager.Lib

/-- The operations a service may support. -/
inductive SupportedServiceOperation where
  | readStatus
  | readLogs
  | start
  | stop
  | restart
  deriving DecidableEq, Repr

inductive ServiceRuntimeState where
  | running
  | stopped
  | failed
  | unknown
  deriving DecidableEq, Repr

structure RegisteredService where
  id : String
  supportedOperations : List SupportedServiceOperation
  dependencies : List String
  availabilityPolicy : Scheduling.ServiceAvailabilityPolicy
  deriving DecidableEq

private def isIdCharacter (c : Char) : Bool := ('a' ≤ c ∧ c ≤ 'z') ∨ ('0' ≤ c ∧ c ≤ '9')

/-- `SERVICE_ID_PATTERN`: words of lower-case letters and digits joined by hyphens. -/
def isServiceId (id : String) : Bool :=
  (id.toList.splitOn '-').all fun word => word ≠ [] && word.all isIdCharacter

example : ["atlas-db", "m", "-m", "a--b", ""].map isServiceId =
    [true, true, false, false, false] := by decide

/-! ## Declared dependencies -/

inductive RegisteredServiceValidationCode where
  | invalidDependencies
  deriving DecidableEq, Repr

def maxDirectDependenciesPerService : Nat := 16

/-- Every dependency is the id of another service, and is listed once.  An id
has no surrounding blanks, so the check for them is part of the grammar's. -/
def checkDependencies (ownId : String) :
    List String → List String → Except RegisteredServiceValidationCode Unit
  | _, [] => .ok ()
  | seen, dep :: deps =>
    if !isServiceId dep || dep.length > 64 then .error .invalidDependencies
    else if dep = ownId then .error .invalidDependencies
    else if dep ∈ seen then .error .invalidDependencies
    else checkDependencies ownId (dep :: seen) deps

/-- The dependencies of a service definition, none when it declares none. -/
def validateDependencies (deps : JsValue) (ownId : String) :
    Except RegisteredServiceValidationCode (List String) :=
  match deps with
  | .undefined => .ok []
  | .arr items =>
    match textItems items with
    | none => .error .invalidDependencies
    | some texts =>
      if texts.length > maxDirectDependenciesPerService then .error .invalidDependencies
      else do
        checkDependencies ownId [] texts
        return texts
  | _ => .error .invalidDependencies

theorem checkDependencies_ok {ownId : String} {seen deps : List String}
    (h : checkDependencies ownId seen deps = .ok ()) :
    deps.Nodup ∧ ownId ∉ deps ∧ ∀ dep ∈ deps, dep ∉ seen := by
  induction deps generalizing seen with
  | nil => simp
  | cons dep deps ih =>
      simp only [checkDependencies] at h
      split at h
      · simp at h
      · split at h
        · simp at h
        · rename_i hown
          split at h
          · simp at h
          · rename_i hseen
            obtain ⟨hnodup, hnotOwn, hdisjoint⟩ := ih h
            refine ⟨List.nodup_cons.mpr ⟨fun hmem => ?_, hnodup⟩, ?_, ?_⟩
            · exact hdisjoint dep hmem List.mem_cons_self
            · rintro (_ | ⟨_, hmem⟩)
              · exact hown rfl
              · exact hnotOwn hmem
            · rintro d (_ | ⟨_, hmem⟩)
              · exact hseen
              · exact fun hd => hdisjoint d hmem (List.mem_cons_of_mem _ hd)

/-- A definition lists no dependency twice, and not its own id. -/
theorem validateDependencies_ok {deps : JsValue} {ownId : String} {texts : List String}
    (h : validateDependencies deps ownId = .ok texts) : texts.Nodup ∧ ownId ∉ texts := by
  unfold validateDependencies at h
  split at h
  · obtain rfl : [] = texts := by simpa using h
    simp
  · split at h
    · simp at h
    · split at h
      · simp at h
      · rename_i items texts' _ _
        cases hcheck : checkDependencies ownId [] texts' with
        | error e => simp [hcheck, bind, Except.bind] at h
        | ok u =>
            obtain rfl : texts' = texts := by
              simpa [hcheck, bind, Except.bind, pure, Except.pure] using h
            obtain ⟨hnodup, hown, -⟩ := checkDependencies_ok hcheck
            exact ⟨hnodup, hown⟩
  · simp at h

end AtlasManager.Service
