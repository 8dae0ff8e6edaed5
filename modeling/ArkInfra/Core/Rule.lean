import ArkInfra.Lib.Binary64

/-!
# Diagnosis rules

`core/src/rules/rule.rs`: a rule names a scene, the conditions under which it
applies, and what to do about it.  A condition is a tree: events, edges, node
metrics and signals at the leaves, `any` and `all` above them.

A rule file is read into a `RuleWire`, whose conditions are either a list (the
new syntax) or a record with one of the keys `all` and `any` (the legacy
syntax); `normalize` turns both into a `Rule`.  Thresholds and confidences are
floating-point numbers `F`.
-/

namespace ArkInfra

inductive ComparisonOp where
  | gt
  | lt
  | eq
  | gte
  | lte
  | ne
  | contains
deriving DecidableEq, Repr

inductive ValueType where
  | numeric
  | string
  | auto
deriving DecidableEq, Repr

/-- A test of one metadata entry. -/
structure MetricCondition where
  key : String
  op : ComparisonOp
  target : String
  valueType : ValueType
deriving DecidableEq, Repr

def defaultValueType : ValueType := .auto

/-- The condition of a rule. -/
inductive Condition (F : Type) where
  | event (eventType : String) (entityIdPattern valuePattern : Option String)
      (valueThreshold : Option F)
  | graph (edgeType : String) (fromPattern toPattern : Option String)
  | metric (nodeType entityIdPattern : Option String) (metrics : List MetricCondition)
  | signal (signal : String) (entityIdPattern : Option String) (op : ComparisonOp)
      (target : String) (valueType : ValueType)
  | any (conditions : List (Condition F))
  | all (conditions : List (Condition F))

structure RootCausePattern where
  primary : String
  secondary : Option (List String)
deriving DecidableEq, Repr

structure SolutionStep where
  step : Nat
  action : String
  command : Option String
  manual : Bool
deriving DecidableEq, Repr

structure Applicability (F : Type) where
  minConfidence : F
  requiredEvents : Option (List String)

/-- `0.8`. -/
def defaultMinConfidence {F : Type} [FloatArith F] : F :=
  FloatArith.div (FloatArith.ofNat 8) (FloatArith.ofNat 10)

structure Rule (F : Type) where
  id : Option String
  name : String
  scene : String
  priority : Nat
  reasonCodes : List String
  conditions : List (Condition F)
  rootCausePattern : RootCausePattern
  solutionSteps : List SolutionStep
  relatedEvidences : List String
  applicability : Applicability F

/-- The conditions of a rule file, in the new or in the legacy syntax. -/
inductive ConditionsWire (F : Type) where
  | new (conditions : List (Condition F))
  | legacy (all any : Option (List (Condition F)))

/-- A rule as it is read from a file. -/
structure RuleWire (F : Type) where
  id : Option String
  name : String
  scene : String
  priority : Nat
  reasonCodes : List String
  conditions : ConditionsWire F
  rootCausePattern : RootCausePattern
  solutionSteps : List SolutionStep
  relatedEvidences : List String
  applicability : Applicability F

inductive LegacySyntaxStatus where
  | none
  | migrated
deriving DecidableEq, Repr

variable {F : Type}

/-- The list of conditions, and whether it was written in the legacy syntax. -/
def ConditionsWire.normalize :
    ConditionsWire F → Except String (List (Condition F) × LegacySyntaxStatus)
  | .new conditions => .ok (conditions, .none)
  | .legacy (some conditions) none => .ok ([.all conditions], .migrated)
  | .legacy none (some conditions) => .ok ([.any conditions], .migrated)
  | .legacy (some _) (some _) => .error "legacy conditions 不能同时包含 all 和 any"
  | .legacy none none => .error "legacy conditions 必须包含 all 或 any"

/-- The rule with the given conditions and the fields of a `RuleWire`. -/
def RuleWire.toRule (wire : RuleWire F) (conditions : List (Condition F)) : Rule F where
  id := wire.id
  name := wire.name
  scene := wire.scene
  priority := wire.priority
  reasonCodes := wire.reasonCodes
  conditions := conditions
  rootCausePattern := wire.rootCausePattern
  solutionSteps := wire.solutionSteps
  relatedEvidences := wire.relatedEvidences
  applicability := wire.applicability

def RuleWire.normalize (wire : RuleWire F) : Except String (Rule F × LegacySyntaxStatus) :=
  match wire.conditions.normalize with
  | .ok (conditions, legacy) => .ok (wire.toRule conditions, legacy)
  | .error e => .error e

theorem toOption_eq_some_iff {ε α : Type} {x : Except ε α} {a : α} :
    x.toOption = some a ↔ x = .ok a := by
  cases x with
  | error e =>
    simp [Except.toOption]
  | ok b =>
    simp [Except.toOption]

theorem RuleWire.normalize_eq_ok_iff {wire : RuleWire F} {rule : Rule F}
    {status : LegacySyntaxStatus} :
    wire.normalize = .ok (rule, status) ↔
      ∃ conditions, wire.conditions.normalize = .ok (conditions, status) ∧
        rule = wire.toRule conditions := by
  unfold RuleWire.normalize
  cases hnormal : wire.conditions.normalize with
  | error e =>
    simp
  | ok result =>
    obtain ⟨conditions, legacy⟩ := result
    constructor
    · rintro ⟨rfl⟩
      exact ⟨conditions, rfl, rfl⟩
    · rintro ⟨conditions', ⟨rfl⟩, rfl⟩
      rfl

end ArkInfra
