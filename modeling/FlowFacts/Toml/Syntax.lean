import FlowFacts.Toml.Document
import FlowFacts.Toml.Lexeme

namespace FlowFacts.Toml

namespace Reader

/-- Values may be nested, and dotted keys may have parts, less often than this. -/
def maxDepth : Nat := 80

def isBare (c : Char) : Bool := c.isAlphanum || c = '-' || c = '_'

def simpleKey : Reader String :=
  (String.ofList <$> run1 isBare) <|> quotedString <|> literalString

def key : Reader (List String) := do
  let keys ← separated (spaces *> simpleKey <* spaces) (exactly ".")
  if keys.length < maxDepth then pure keys else failure

def pair (value : Reader Value) : Reader Pair := do
  let keys ← key
  exactly "="
  spaces
  pure ⟨keys, ← value⟩

def scalar : Reader Value :=
  (.string <$> string) <|> (moment *> pure .moment) <|> (.float <$> finiteFloat) <|>
    (.integer <$> integer) <|> (.float <$> specialFloat) <|>
    (exactly "true" *> pure (.boolean true)) <|> (exactly "false" *> pure (.boolean false))

/-- A list of values over several lines; a comma may follow the last one. -/
def array (value : Reader Value) : Reader Value := do
  exactly "["
  let items ← optional do
    let items ← separated (gap *> value <* gap) (exactly ",")
    let _ ← optional (exactly ",")
    pure items
  gap
  exactly "]"
  pure (.array false (items.getD []))

/-- A table on one line; no comma may follow the last pair. -/
def inlineTable (value : Reader Value) : Reader Value := do
  exactly "\x7b"
  let pairs ← optional (separated (pair value <* spaces) (exactly ","))
  spaces
  exactly "\x7d"
  match Members.addPairs (pairs.getD []) .empty with
  | some members => pure (.table .inline members)
  | none => failure

/-- A value in which values are nested at most to the given depth. -/
def value : Nat → Reader Value
  | 0 => scalar
  | depth + 1 => scalar <|> array (value depth) <|> inlineTable (value depth)

def pairLine : Reader Pair := do
  let p ← pair (value (maxDepth - 1))
  lineEnd
  gap
  pure p

def header : Reader Header := do
  let header ←
    (do exactly "[["; let keys ← key; exactly "]]"; pure (.element keys)) <|>
      (do exactly "["; let keys ← key; exactly "]"; pure (.table keys))
  lineEnd
  gap
  pure header

def sectionLines : Reader Section := do
  let header ← header
  let pairs ← many pairLine
  pure ⟨header, pairs⟩

def document : Reader Document := do
  let _ ← optional (exactly "\ufeff")
  gap
  let pairs ← many pairLine
  let sections ← many sectionLines
  pure ⟨pairs, sections⟩

end Reader

/-- The table that a text describes, if it is a document at all. -/
def members? (text : String) : Option Members :=
  (Reader.document.parse? text).bind Document.members

end FlowFacts.Toml
