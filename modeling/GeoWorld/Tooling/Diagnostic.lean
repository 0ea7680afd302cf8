import Mathlib
import GeoWorld.WorldModel.Object

/-!
The diagnostics of edited documents. A document is valid when none of them is an error.
-/

namespace GeoWorld.Tooling

open WorldModel

/-- The codes `GWTD003`, `GWTD101` to `GWTD107` and `GWTD201`. -/
inductive DiagnosticCode where
  | schemaVersion
  | duplicateId
  | missingReference
  | cycle
  | unreachable
  | nodeArity
  | nodeType
  | duplicateEdge
  | artifact
  deriving DecidableEq

inductive DiagnosticSeverity where
  | error
  | warning
  deriving DecidableEq

structure DocumentDiagnostic where
  code : DiagnosticCode
  severity : DiagnosticSeverity := .error
  objectId : ByteString
  message : ByteString
  deriving DecidableEq

abbrev DocumentValidation := List DocumentDiagnostic

def utf8 (message : String) : ByteString := message.toUTF8.toList

def addError (code : DiagnosticCode) (objectId message : ByteString) : DocumentValidation :=
  [⟨code, .error, objectId, message⟩]

def addWarning (code : DiagnosticCode) (objectId message : ByteString) : DocumentValidation :=
  [⟨code, .warning, objectId, message⟩]

namespace DocumentValidation

def valid (validation : DocumentValidation) : Bool :=
  validation.all fun diagnostic => diagnostic.severity != .error

/-- A list of nothing but errors. -/
def AllErrors (validation : DocumentValidation) : Prop :=
  ∀ diagnostic ∈ validation, diagnostic.severity = .error

def AllWarnings (validation : DocumentValidation) : Prop :=
  ∀ diagnostic ∈ validation, diagnostic.severity = .warning

def Warned (validation : DocumentValidation) (id : ByteString) : Prop :=
  ∃ diagnostic ∈ validation, diagnostic.severity = .warning ∧
    diagnostic.code = .unreachable ∧ diagnostic.objectId = id

def HasError (validation : DocumentValidation) (code : DiagnosticCode) (id : ByteString) : Prop :=
  ∃ diagnostic ∈ validation, diagnostic.severity = .error ∧
    diagnostic.code = code ∧ diagnostic.objectId = id

variable {first second : DocumentValidation}

theorem valid_append : valid (first ++ second) = true ↔ valid first = true ∧ valid second = true := by
  simp [valid, List.all_append]

theorem AllErrors.valid_iff (errors : AllErrors first) : valid first = true ↔ first = [] := by
  constructor
  · intro none
    refine List.eq_nil_iff_forall_not_mem.mpr fun diagnostic member => ?_
    have no_error := List.all_eq_true.mp none diagnostic member
    rw [errors diagnostic member] at no_error
    cases no_error
  · rintro rfl
    rfl

theorem AllWarnings.valid (warnings : AllWarnings first) : first.valid = true := by
  refine List.all_eq_true.mpr fun diagnostic member => ?_
  rw [warnings diagnostic member]
  rfl

theorem AllErrors.append (left : AllErrors first) (right : AllErrors second) :
    AllErrors (first ++ second) := by
  intro diagnostic member
  rcases List.mem_append.mp member with member | member
  · exact left diagnostic member
  · exact right diagnostic member

@[simp] theorem AllErrors.nil : AllErrors [] := nofun

@[simp] theorem allErrors_addError (code : DiagnosticCode) (objectId message : ByteString) :
    AllErrors (addError code objectId message) := by
  intro diagnostic member
  rw [List.mem_singleton.mp member]

theorem AllErrors.ite {condition : Prop} [Decidable condition] (left : AllErrors first)
    (right : AllErrors second) : AllErrors (if condition then first else second) := by
  split
  · exact left
  · exact right

theorem AllErrors.flatMap {β : Type} {items : List β} {check : β → DocumentValidation}
    (each : ∀ item ∈ items, AllErrors (check item)) : AllErrors (items.flatMap check) := by
  intro diagnostic member
  obtain ⟨item, listed, inside⟩ := List.mem_flatMap.mp member
  exact each item listed diagnostic inside

theorem ite_error_nil {condition : Prop} [Decidable condition] {code : DiagnosticCode}
    {objectId message : ByteString} :
    (if condition then addError code objectId message else []) = [] ↔ ¬ condition := by
  by_cases holds : condition
  · simp [holds, addError]
  · simp [holds]

theorem AllErrors.not_warned (errors : AllErrors first) (id : ByteString) : ¬ Warned first id := by
  rintro ⟨diagnostic, member, warning, -, -⟩
  rw [errors diagnostic member] at warning
  cases warning

theorem warned_append (id : ByteString) :
    Warned (first ++ second) id ↔ Warned first id ∨ Warned second id := by
  simp only [Warned, List.mem_append, or_and_right, exists_or]

section Unreachable

variable {β : Type} (items : List β) (test : β → Prop) [DecidablePred test]
variable (name : β → ByteString) (message : ByteString)

theorem warnings_allWarnings : AllWarnings (items.flatMap fun item =>
    if test item then addWarning .unreachable (name item) message else []) := by
  intro diagnostic member
  obtain ⟨item, -, listed⟩ := List.mem_flatMap.mp member
  split at listed
  · rw [List.mem_singleton.mp listed]
  · cases listed

theorem warned_flatMap (id : ByteString) : Warned (items.flatMap fun item =>
    if test item then addWarning .unreachable (name item) message else []) id ↔
      ∃ item ∈ items, test item ∧ name item = id := by
  constructor
  · rintro ⟨diagnostic, member, -, -, named⟩
    obtain ⟨item, listed, inside⟩ := List.mem_flatMap.mp member
    split at inside
    · rename_i holds
      rw [List.mem_singleton.mp inside] at named
      exact ⟨item, listed, holds, named⟩
    · cases inside
  · rintro ⟨item, listed, holds, rfl⟩
    refine ⟨⟨.unreachable, .warning, name item, message⟩,
      List.mem_flatMap.mpr ⟨item, listed, ?_⟩, rfl, rfl, rfl⟩
    rw [if_pos holds]
    exact List.mem_singleton_self _

end Unreachable

end DocumentValidation

end GeoWorld.Tooling
