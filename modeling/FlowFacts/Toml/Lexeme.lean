import FlowFacts.Toml.Reader
import FlowFacts.Toml.Value

namespace FlowFacts.Toml.Reader

def isSpace (c : Char) : Bool := c = ' ' || c = '\t'

/-- Characters that may stand in a comment: all but the control characters, tabs apart. -/
def isText (c : Char) : Bool := c = '\t' || (c ≥ ' ' && c ≠ '\x7f')

def spaces : Reader Unit := do let _ ← run isSpace

def newline : Reader Unit := exactly "\n" <|> exactly "\r\n"

def comment : Reader Unit := do
  exactly "#"
  let _ ← run isText

/-- Blanks, line ends and comments. -/
def gap : Reader Unit := do
  let _ ← many ((do let _ ← run1 isSpace) <|> newline <|> comment)

/-- The rest of a line after what it says. -/
def lineEnd : Reader Unit := do
  spaces
  let _ ← optional comment
  newline <|> atEnd

def isHexDigit (c : Char) : Bool :=
  c.isDigit || ('a' ≤ c && c ≤ 'f') || ('A' ≤ c && c ≤ 'F')

def digitValue (c : Char) : Nat :=
  if c.isDigit then c.toNat - '0'.toNat
  else if 'a' ≤ c then c.toNat - 'a'.toNat + 10
  else c.toNat - 'A'.toNat + 10

def numeral (base : Nat) (digits : List Char) : Nat :=
  digits.foldl (fun n c => base * n + digitValue c) 0

def times {α : Type} (p : Reader α) : Nat → Reader (List α)
  | 0 => pure []
  | n + 1 => do
    let first ← p
    let rest ← times p n
    pure (first :: rest)

def codePoint (digits : Nat) : Reader (List Char) := do
  let n := numeral 16 (← times (char isHexDigit) digits)
  if n.isValidChar then pure [Char.ofNat n] else failure

def escaped : Reader (List Char) := do
  exactly "\\"
  match ← char fun _ => true with
  | 'b' => pure ['\x08']
  | 't' => pure ['\t']
  | 'n' => pure ['\n']
  | 'f' => pure ['\x0c']
  | 'r' => pure ['\r']
  | '"' => pure ['"']
  | '\\' => pure ['\\']
  | 'u' => codePoint 4
  | 'U' => codePoint 8
  | _ => failure

/-- Characters that stand for themselves between double quotes. -/
def isPlain (c : Char) : Bool := isText c && c ≠ '"' && c ≠ '\\'

def isLiteral (c : Char) : Bool := isText c && c ≠ '\''

def quotedString : Reader String := do
  exactly "\""
  let parts ← many (run1 isPlain <|> escaped)
  exactly "\""
  pure (String.ofList parts.flatten)

def literalString : Reader String := do
  exactly "'"
  let text ← run isLiteral
  exactly "'"
  pure (String.ofList text)

/-- A line end that is part of a string. -/
def keptNewline : Reader (List Char) := do
  newline
  pure ['\n']

/-- A line end that a backslash hides, with all blanks and line ends after it. -/
def hiddenNewline : Reader (List Char) := do
  exactly "\\"
  spaces
  newline
  let _ ← many ((do let _ ← run1 isSpace) <|> newline)
  pure []

/-- One or two quotes that the given reader can go on after. -/
def fewQuotes (quote : String) (next : Reader Unit) : Reader (List Char) :=
  (do exactly (quote ++ quote); ahead next; pure (quote ++ quote).toList) <|>
    (do exactly quote; ahead next; pure quote.toList)

/-- A string between triple quotes, made of the given parts. One or two quotes may stand in it, also
right before its end; a line end right after its start is not part of it. -/
def tripleQuoted (quote : String) (part : Reader (List Char)) : Reader String := do
  let triple := quote ++ quote ++ quote
  exactly triple
  let _ ← optional newline
  let other : Reader Unit := do let _ ← part
  let parts ← many (part <|> fewQuotes quote other)
  let last ← optional (fewQuotes quote (exactly triple))
  exactly triple
  pure (String.ofList (parts.flatten ++ last.getD []))

def string : Reader String :=
  tripleQuoted "\"" (run1 isPlain <|> hiddenNewline <|> escaped <|> keptNewline) <|>
    quotedString <|>
    tripleQuoted "'" (run1 isLiteral <|> keptNewline) <|>
    literalString

/-- Digits, with single underscores allowed between them. -/
def digits (p : Char → Bool) : Reader (List Char) := do
  let first ← char p
  let rest ← many (char p <|> (exactly "_" *> char p))
  pure (first :: rest)

def wholeDigits : Reader (List Char) :=
  (exactly "0" *> pure ['0']) <|> digits Char.isDigit

/-- Whether a minus sign stands in front; a plus sign may too. -/
def sign : Reader Bool :=
  (exactly "-" *> pure true) <|> (exactly "+" *> pure false) <|> pure false

def based (mark : String) (base : Nat) (p : Char → Bool) : Reader Int := do
  exactly mark
  pure (numeral base (← digits p))

def decimalInteger : Reader Int := do
  let negative ← sign
  let n : Int := numeral 10 (← wholeDigits)
  pure (if negative then -n else n)

/-- An integer of 64 bits. -/
def integer : Reader Int := do
  let n ← based "0x" 16 isHexDigit <|> based "0o" 8 (fun c => '0' ≤ c && c ≤ '7') <|>
    based "0b" 2 (fun c => c = '0' || c = '1') <|> decimalInteger
  if Int64.minValue.toInt ≤ n && n ≤ Int64.maxValue.toInt then pure n else failure

def exponent : Reader Int := do
  exactly "e" <|> exactly "E"
  let negative ← sign
  let n : Int := numeral 10 (← digits Char.isDigit)
  pure (if negative then -n else n)

def fraction : Reader (List Char × Int) := do
  exactly "."
  let places ← digits Char.isDigit
  let scale ← optional exponent
  pure (places, scale.getD 0)

/-- A float with a fraction or a scale. One that is too large is refused, but one that is too far
below zero is not. -/
def finiteFloat : Reader Binary64 := do
  let negative ← sign
  let whole ← wholeDigits
  let (places, scale) ← fraction <|> (([], ·) <$> exponent)
  let x := Binary64.ofDecimal negative ((whole ++ places).map digitValue) (scale - places.length)
  if x = .infinite false then failure else pure x

def specialFloat : Reader Binary64 := do
  let negative ← sign
  (exactly "inf" *> pure (.infinite negative)) <|> (exactly "nan" *> pure .nan)

def twoDigits (least most : Nat) : Reader Nat := do
  let n := numeral 10 (← times (char Char.isDigit) 2)
  if least ≤ n && n ≤ most then pure n else failure

def daysIn (year month : Nat) : Nat :=
  if month = 2 then
    if year % 4 = 0 && (year % 100 ≠ 0 || year % 400 = 0) then 29 else 28
  else if month = 4 || month = 6 || month = 9 || month = 11 then 30
  else 31

def date : Reader Unit := do
  let year := numeral 10 (← times (char Char.isDigit) 4)
  exactly "-"
  let month ← twoDigits 1 12
  exactly "-"
  let _ ← twoDigits 1 (daysIn year month)

/-- A time of day; a minute may have a leap second. -/
def time : Reader Unit := do
  let _ ← twoDigits 0 23
  exactly ":"
  let _ ← twoDigits 0 59
  exactly ":"
  let _ ← twoDigits 0 60
  let _ ← optional (exactly "." *> run1 Char.isDigit)

def offset : Reader Unit :=
  exactly "Z" <|> exactly "z" <|> do
    exactly "+" <|> exactly "-"
    let _ ← twoDigits 0 23
    exactly ":"
    let _ ← twoDigits 0 59

/-- A date, a time, or a date with a time and perhaps its offset. -/
def moment : Reader Unit :=
  (do
    date
    let _ ← optional do
      exactly "T" <|> exactly "t" <|> exactly " "
      time
      optional offset) <|>
    time

end FlowFacts.Toml.Reader
