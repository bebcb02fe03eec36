import FlowFacts.Settings.Decode
import FlowFacts.Toml.Syntax

namespace FlowFacts

/-- Why settings cannot be loaded. -/
inductive LoadError where
  /-- There is no file of that name. -/
  | missing (file : String)
  /-- The file does not hold text. -/
  | notText (file : String)
  /-- The text is not a document. -/
  | syntaxError
  /-- The document does not hold settings. -/
  | content (error : DecodeError)

/-- The text of an error. What exactly is wrong with the syntax is not said. -/
def LoadError.message? : LoadError → Option String
  | missing file => s!"failed to read config file {file}: No such file or directory (os error 2)"
  | notText file => s!"failed to read config file {file}: stream did not contain valid UTF-8"
  | syntaxError => none
  | content error => s!"failed to parse toml config: {error.message}"

namespace Settings

/-- The settings that a text gives to some reader of documents. -/
def ofTextBy (read : String → Option Toml.Members) (text : String) : Except LoadError Settings :=
  match read text with
  | some members => (ofMembers members).mapError .content
  | none => .error .syntaxError

/-- The settings that a text gives. -/
def ofText (text : String) : Except LoadError Settings := ofTextBy Toml.members? text

/-- The settings that a file gives; without content there is no such file. -/
def ofFile (file : String) (content : Option ByteArray) : Except LoadError Settings :=
  match content with
  | none => .error (.missing file)
  | some bytes =>
    match String.fromUTF8? bytes with
    | some text => ofText text
    | none => .error (.notText file)

end Settings
end FlowFacts
