import FlowFacts.Decimal.Shortest
import FlowFacts.Entries
import FlowFacts.Text.Quoted

namespace FlowFacts.Toml

/-- How a table came to be. -/
inductive Origin where
  /-- It has a header of its own. -/
  | header
  /-- Headers name tables inside it. -/
  | implied
  /-- Dotted keys lead into it. -/
  | dotted
  /-- It is written out as a value. -/
  | inline
  deriving DecidableEq

/-- What a key of a document stands for. -/
inductive Value where
  | string (text : String)
  | integer (n : Int)
  | float (x : Binary64)
  | boolean (b : Bool)
  /-- A date, a time or both. No setting takes one, so it is not kept which. -/
  | moment
  /-- A list of values; an open one is a list of tables that headers add to. -/
  | array (isOpen : Bool) (items : List Value)
  | table (origin : Origin) (members : Entries String Value)

/-- What a table holds, in the order of its keys. -/
abbrev Members := Entries String Value

/-- The kind of a value, with the value itself if it is a simple one. -/
def Value.describe : Value → String
  | string text => "string " ++ quote text
  | integer n => s!"integer `{n}`"
  | float x => s!"floating point `{x.render}`"
  | boolean b => s!"boolean `{b}`"
  | array _ _ => "sequence"
  | moment | table _ _ => "map"

end FlowFacts.Toml
