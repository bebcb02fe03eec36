namespace FlowFacts

/-- A static type. There is no subtyping, and types are compared by their structure. -/
inductive Ty where
  | int
  | bool
  | string
  /-- The type of the null literal. -/
  | null
  /-- A named reference type. -/
  | named (name : String)
  | nullable (inner : Ty)
  /-- The type could not be determined. -/
  | unknown
  deriving DecidableEq

namespace Ty

/-- Whether a value of the type may be null. -/
def isNullable : Ty → Bool
  | nullable _ | null => true
  | _ => false

/-- The type that admits null as well; wrapping a second time changes nothing. -/
def orNull : Ty → Ty
  | nullable t => nullable t
  | null => null
  | unknown => unknown
  | t => nullable t

/-- What is left of a type once null is ruled out. Nothing is left of `null` itself, so it becomes
`unknown` and not a definite type. -/
def nonNull : Ty → Ty
  | nullable t => t
  | null => unknown
  | t => t

def render : Ty → String
  | int => "int"
  | bool => "boolean"
  | string => "String"
  | null => "null"
  | named name => name
  | nullable t => t.render ++ "?"
  | unknown => "<unknown>"

def label (t : Ty) : String := s!"Type({t.render})"

/-- Whether no `nullable` stands directly around a type that admits null already. -/
def Proper : Ty → Prop
  | nullable t => t.isNullable = false ∧ t.Proper
  | _ => True

@[simp] theorem orNull_orNull (t : Ty) : t.orNull.orNull = t.orNull := by
  cases t <;> rfl

theorem isNullable_orNull (t : Ty) : t.orNull.isNullable = true ∨ t = unknown := by
  cases t <;> simp [orNull, isNullable]

theorem nonNull_eq_self {t : Ty} (h : t.isNullable = false) : t.nonNull = t := by
  cases t <;> simp_all [isNullable, nonNull]

theorem Proper.isNullable_nonNull {t : Ty} (h : t.Proper) : t.nonNull.isNullable = false := by
  cases t <;> simp_all [Proper, nonNull, isNullable]

end Ty
end FlowFacts
