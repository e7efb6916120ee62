import Bailout.Config.Basic
import Bailout.Text.Digits

/-!
# Configuration documents

A configuration is written as a document with one setting on a line, `key = value`, where a value is
a whole number or a switch. Blank lines and comments after `#` may stand anywhere. A key may be
quoted. Numbers may have a sign or be written in base 16, 8 or 2, and single underscores may stand
between digits. A document is refused as a whole if a line does not read, if a key is unknown or
comes twice, or if a value has the wrong kind or is too large. Settings that are not mentioned keep
their defaults.
-/

namespace Bailout.Config

/-- A value of a setting. -/
inductive Value where
  | number (n : Int)
  | switch (b : Bool)
  deriving DecidableEq, Repr

namespace Document

/-- Whether a character is a blank within a line. -/
def isSpace (c : Char) : Bool := c == ' ' || c == '\t'

/-- Whether a character may stand in a comment or a quoted key: a tab, or no control character. -/
def isPrintable (c : Char) : Bool := c == '\t' || (32 ≤ c.toNat && c.toNat ≠ 127)

/-- Whether a character may stand in a key without quotes. -/
def isBare (c : Char) : Bool := c.isAlphanum || c == '_' || c == '-'

/-- The lines of a text. A carriage return belongs to the line feed behind it; the second component
is the current line, backwards. -/
def linesFrom (line : List Char) : List Char → List (List Char)
  | [] => [line.reverse]
  | '\n' :: cs => line.reverse :: linesFrom [] cs
  | '\r' :: '\n' :: cs => line.reverse :: linesFrom [] cs
  | c :: cs => linesFrom (c :: line) cs

/-- Whether nothing but blanks and a comment is left of a line. -/
def endsLine (cs : List Char) : Bool :=
  match cs.dropWhile isSpace with
  | [] => true
  | '#' :: comment => comment.all isPrintable
  | _ => false

/-- A character given by its number in `n` hexadecimal digits, and what follows. -/
def numbered? (n : Nat) (cs : List Char) : Option (Char × List Char) := do
  let digits := cs.take n
  guard (digits.length = n)
  let v ← Text.digits? 16 digits
  if v.isValidChar then some (Char.ofNat v, cs.drop n) else none

/-- The character behind a backslash, and what follows. -/
def escaped? : List Char → Option (Char × List Char)
  | 'b' :: cs => some ('\x08', cs)
  | 't' :: cs => some ('\t', cs)
  | 'n' :: cs => some ('\n', cs)
  | 'f' :: cs => some ('\x0c', cs)
  | 'r' :: cs => some ('\r', cs)
  | '"' :: cs => some ('"', cs)
  | '\\' :: cs => some ('\\', cs)
  | 'u' :: cs => numbered? 4 cs
  | 'U' :: cs => numbered? 8 cs
  | _ => none

/-- The rest of a key between double quotes, and what follows. The first argument bounds the number
of characters. -/
def doubleQuoted? : Nat → List Char → Option (List Char × List Char)
  | 0, _ => none
  | _ + 1, [] => none
  | _ + 1, '"' :: cs => some ([], cs)
  | fuel + 1, '\\' :: cs => do
    let (c, rest) ← escaped? cs
    let (key, rest) ← doubleQuoted? fuel rest
    return (c :: key, rest)
  | fuel + 1, c :: cs => do
    guard (isPrintable c)
    let (key, rest) ← doubleQuoted? fuel cs
    return (c :: key, rest)

/-- The rest of a key between single quotes, and what follows. -/
def singleQuoted? : List Char → Option (List Char × List Char)
  | [] => none
  | '\'' :: cs => some ([], cs)
  | c :: cs => do
    guard (isPrintable c)
    let (key, rest) ← singleQuoted? cs
    return (c :: key, rest)

/-- The key at the start of a line, and what follows. -/
def key? (cs : List Char) : Option (String × List Char) :=
  match cs with
  | '"' :: rest => (doubleQuoted? (rest.length + 1) rest).map fun (k, r) => (String.ofList k, r)
  | '\'' :: rest => (singleQuoted? rest).map fun (k, r) => (String.ofList k, r)
  | _ =>
    let k := cs.takeWhile isBare
    if k.isEmpty then none else some (String.ofList k, cs.dropWhile isBare)

/-- Digits without the underscores, each of which stands between two digits. -/
def joined? : List Char → Option (List Char)
  | [] => none
  | [c] => if c = '_' then none else some [c]
  | c :: '_' :: cs => if c = '_' then none else (joined? cs).map (c :: ·)
  | c :: cs => if c = '_' then none else (joined? cs).map (c :: ·)

/-- A number in a base, with underscores. -/
def based? (base : Nat) (cs : List Char) : Option Nat := (joined? cs).bind (Text.digits? base)

/-- A decimal number without a sign; only zero itself starts with zero. -/
def decimal? (cs : List Char) : Option Nat :=
  match cs with
  | ['0'] => some 0
  | '0' :: _ => none
  | _ => based? 10 cs

def value? (cs : List Char) : Option Value :=
  match cs with
  | ['t', 'r', 'u', 'e'] => some (.switch true)
  | ['f', 'a', 'l', 's', 'e'] => some (.switch false)
  | '0' :: 'x' :: ds => (based? 16 ds).map fun n => .number n
  | '0' :: 'o' :: ds => (based? 8 ds).map fun n => .number n
  | '0' :: 'b' :: ds => (based? 2 ds).map fun n => .number n
  | '+' :: ds => (decimal? ds).map fun n => .number n
  | '-' :: ds => (decimal? ds).map fun n => .number (-n)
  | ds => (decimal? ds).map fun n => .number n

/-- The setting on a line, if the line reads; a line may have none. -/
def line? (cs : List Char) : Option (Option (String × Value)) := do
  if endsLine cs then return none
  let (key, rest) ← key? (cs.dropWhile isSpace)
  let '=' :: rest := rest.dropWhile isSpace | none
  let rest := rest.dropWhile isSpace
  let inValue := fun c => !(isSpace c || c == '#')
  let v ← value? (rest.takeWhile inValue)
  guard (endsLine (rest.dropWhile inValue))
  return some (key, v)

/-- The settings of a document. A mark of byte order at its start is skipped. -/
def settings? (s : String) : Option (List (String × Value)) := do
  let cs := match s.toList with
    | '\ufeff' :: rest => rest
    | cs => cs
  let found ← (linesFrom [] cs).mapM line?
  return found.filterMap id

/-- Put one setting into a configuration. -/
def put? (c : Config) (setting : String × Value) : Option Config :=
  match setting.2 with
  | .number n => do
    let l ← Limit.all.find? (·.key == setting.1)
    guard (0 ≤ n ∧ n.toNat < 1 <<< 32)
    return l.set n.toNat c
  | .switch b => do
    let s ← Switch.all.find? (·.key == setting.1)
    return s.set b c

/-- The configuration that a document describes, before it is validated. -/
def read? (s : String) : Option Config := do
  let found ← settings? s
  guard (found.map Prod.fst).Nodup
  found.foldlM put? {}

end Document

/-- Read a document and validate the configuration in it. -/
def ofDocument (s : String) : Except ConfigError Config :=
  match Document.read? s with
  | some c => c.validate
  | none => .error .malformed

/-- Read the document in a file, which may be missing. -/
def load (file : Option String) : Except ConfigError Config :=
  match file with
  | some s => ofDocument s
  | none => .error .unreadable

end Bailout.Config
