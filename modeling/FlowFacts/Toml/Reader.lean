namespace FlowFacts.Toml

/-- Takes what it reads from the front of a text and leaves the rest, or fails and takes nothing. -/
abbrev Reader (α : Type) := StateT (List Char) Option α

namespace Reader

variable {α β : Type}

def char (p : Char → Bool) : Reader Char := fun
  | c :: rest => if p c then some (c, rest) else none
  | [] => none

def exactly (text : String) : Reader Unit := fun cs => (text.toList.isPrefixOf? cs).map ((), ·)

def run (p : Char → Bool) : Reader (List Char) := fun cs =>
  some (cs.takeWhile p, cs.dropWhile p)

def run1 (p : Char → Bool) : Reader (List Char) := do
  let first ← char p
  let rest ← run p
  pure (first :: rest)

/-- Checks what comes next without taking it. -/
def ahead (p : Reader α) : Reader Unit := fun cs => (p cs).map fun _ => ((), cs)

def atEnd : Reader Unit := fun cs => if cs.isEmpty then some ((), cs) else none

/-- Reads again and again, at most the given number of times. -/
def upTo (p : Reader α) : Nat → List Char → List α × List Char
  | 0, cs => ([], cs)
  | n + 1, cs =>
    match p cs with
    | some (a, rest) =>
      let (more, rest) := upTo p n rest
      (a :: more, rest)
    | none => ([], cs)

/-- Reads again and again. A reader that takes something each time stops by itself before it has
read more often than there are characters. -/
def many (p : Reader α) : Reader (List α) := fun cs => some (upTo p cs.length cs)

def separated (p : Reader α) (separator : Reader β) : Reader (List α) := do
  let first ← p
  let rest ← many (separator *> p)
  pure (first :: rest)

/-- The rest is read to its end. -/
def parse? (p : Reader α) (text : String) : Option α :=
  (p text.toList).bind fun (a, rest) => if rest.isEmpty then some a else none

end Reader
end FlowFacts.Toml
