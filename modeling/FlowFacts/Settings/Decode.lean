import FlowFacts.Settings.Basic
import FlowFacts.Toml.Value

namespace FlowFacts

/-- What a setting takes. -/
inductive Wanted where
  | boolean
  | string
  | path
  | record (name : String)
  deriving DecidableEq

def Wanted.describe : Wanted → String
  | boolean => "a boolean"
  | string => "a string"
  | path => "path string"
  | record name => "struct " ++ name

/-- Why values cannot be taken as settings. -/
inductive DecodeError where
  | unknownField (name : String) (expected : List String)
  | wrongType (found : Toml.Value) (wanted : Wanted)

namespace DecodeError

def choices (names : List String) : String :=
  let quoted := names.map fun name => s!"`{name}`"
  if names.length = 2 then " or ".intercalate quoted else "one of " ++ ", ".intercalate quoted

def message : DecodeError → String
  | unknownField name expected => s!"unknown field `{name}`, expected {choices expected}"
  | wrongType found wanted => s!"invalid type: {found.describe}, expected {wanted.describe}"

end DecodeError

/-- A decoded value, or why there is none. -/
abbrev Decoded (α : Type) := Except DecodeError α

def decodeBool : Toml.Value → Decoded Bool
  | .boolean b => .ok b
  | v => .error (.wrongType v .boolean)

/-- A text, wanted as the given kind. -/
def decodeText (wanted : Wanted) : Toml.Value → Decoded String
  | .string text => .ok text
  | v => .error (.wrongType v wanted)

/-- A field of a record: its name, and how a value is put into it. -/
structure Field (σ : Type) where
  name : String
  set : Toml.Value → σ → Decoded σ

namespace Field

variable {σ α : Type}

def of (name : String) (decode : Toml.Value → Decoded α) (put : α → σ → σ) : Field σ :=
  ⟨name, fun v s => (decode v).map (put · s)⟩

def setNamed (fields : List (Field σ)) (s : σ) (member : String × Toml.Value) : Decoded σ :=
  match fields.find? (·.name = member.1) with
  | some field => field.set member.2 s
  | none => .error (.unknownField member.1 (fields.map (·.name)))

/-- The name under which a date or time shows its value, as if it were a table. -/
def momentKey : String := "$__toml_private_datetime"

/-- Decodes a record that starts from the defaults of its fields. A list of values stands for the
fields in their order. -/
def decodeRecord (name : String) (fields : List (Field σ)) (defaults : σ) :
    Toml.Value → Decoded σ
  | .table _ members => members.toList.foldlM (setNamed fields) defaults
  | .array _ items => (fields.zip items).foldlM (fun s (field, v) => field.set v s) defaults
  | .moment => .error (.unknownField momentKey (fields.map (·.name)))
  | v => .error (.wrongType v (.record name))

end Field

namespace FlowOptions

def fields : List (Field FlowOptions) := [
  .of "report_unreachable" decodeBool fun b s => { s with reportUnreachable := b },
  .of "report_possible_null_deref" decodeBool fun b s => { s with reportPossibleNullDeref := b },
  .of "narrow_on_guards" decodeBool fun b s => { s with narrowOnGuards := b }]

/-- The defaults of single fields, for a table that leaves them out. Without such a table the
default record counts instead. -/
def fieldDefaults : FlowOptions where
  reportUnreachable := true
  reportPossibleNullDeref := true
  narrowOnGuards := true

def decode : Toml.Value → Decoded FlowOptions :=
  Field.decodeRecord "FlowConfig" fields fieldDefaults

end FlowOptions

namespace LoggingOptions

def fields : List (Field LoggingOptions) := [
  .of "level" (decodeText .string) fun text s => { s with level := text },
  .of "json" decodeBool fun b s => { s with json := b },
  .of "stderr" decodeBool fun b s => { s with stderr := b },
  .of "file" (decodeText .path) fun text s => { s with file := some text }]

/-- The defaults of single fields, for a table that leaves them out. -/
def fieldDefaults : LoggingOptions where
  level := "info"
  json := false
  stderr := true
  file := none

def decode : Toml.Value → Decoded LoggingOptions :=
  Field.decodeRecord "LoggingConfig" fields fieldDefaults

end LoggingOptions

namespace Settings

def fields : List (Field Settings) := [
  .of "flow" FlowOptions.decode fun flow s => { s with flow },
  .of "logging" LoggingOptions.decode fun logging s => { s with logging }]

/-- The settings that the members of a document's table give. -/
def ofMembers (members : Toml.Members) : Decoded Settings :=
  members.toList.foldlM (Field.setNamed fields) {}

end Settings
end FlowFacts
