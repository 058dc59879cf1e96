import ScriptAnalysis.Toml.Timestamp

/-!
# Documents of tables and strings

The part of TOML that the tables of a vocabulary need: keys that are bare, quoted or dotted, table
headers, comments, and as values strings of all four kinds, arrays of strings, inline tables of
strings, and timestamps. Numbers, truth values, nested values and arrays of tables have no use
there, and a document with one of them is refused like one with a syntax error.

* `Toml.document`: the statements of a document in order.
-/

namespace ScriptAnalysis

namespace Toml

open Reader

/-- The value of a key. -/
inductive Value where
  /-- A string. -/
  | string (text : Text)
  /-- An array of strings. -/
  | array (items : List Text)
  /-- An inline table of strings. -/
  | table (pairs : List (Text × Text))
  /-- A date or time as it is written back. -/
  | timestamp (text : Text)
  deriving DecidableEq, Repr

/-- One statement of a document. -/
inductive Statement where
  /-- Give a value to a key, which has several parts if it is dotted. -/
  | assign (key : List Text) (value : Value)
  /-- Turn to the table of a key. -/
  | header (key : List Text)
  deriving DecidableEq, Repr

/-- A space or a tab. -/
def isSpace (c : Char) : Bool :=
  c == ' ' || c == '\t'

/-- Whether a character may stand in a comment: no control character but the tab. -/
def isPrintable (c : Char) : Bool :=
  c == '\t' || (0x20 ≤ c.toNat && c.toNat ≠ 0x7F)

/-- Spaces and tabs. -/
def spaces : Reader Unit := do
  let _ ← takeWhile isSpace

/-- A line feed, or a carriage return and a line feed. -/
def newline : Reader Unit := do
  let _ ← optional (char '\r')
  char '\n'

/-- A comment without the line end. -/
def comment : Reader Unit := do
  char '#'
  let _ ← takeWhile isPrintable

/-- The end of a line or of the document. -/
def lineEnd : Reader Unit :=
  newline <|> finish

/-- What may follow a statement on its line. -/
def trailing : Reader Unit := do
  spaces
  let _ ← optional comment
  lineEnd

/-- Spaces, line ends and comments. -/
def gap : Reader Unit := do
  let _ ← many ((do let _ ← takeWhile1 isSpace) <|> newline <|> comment)

/-! ## Strings -/

/-- Whether a character stands for itself in a quoted string. -/
def isPlain (c : Char) : Bool :=
  isPrintable c && c ≠ '"' && c ≠ '\\'

/-- Whether a character may stand in a literal string. -/
def isLiteral (c : Char) : Bool :=
  isPrintable c && c ≠ '\''

/-- The value of a hexadecimal digit. -/
def hexValue? (c : Char) : Option Nat :=
  if '0' ≤ c ∧ c ≤ '9' then some (c.toNat - '0'.toNat)
  else if 'a' ≤ c ∧ c ≤ 'f' then some (c.toNat - 'a'.toNat + 10)
  else if 'A' ≤ c ∧ c ≤ 'F' then some (c.toNat - 'A'.toNat + 10)
  else none

/-- The number written by `count` hexadecimal digits. -/
def hexDigits : (count : Nat) → Reader Nat
  | 0 => return 0
  | count + 1 => do
    let c ← satisfy fun c => (hexValue? c).isSome
    return (hexValue? c).getD 0 * 16 ^ count + (← hexDigits count)

/-- The character of a code point written by `count` hexadecimal digits. -/
def codePoint (count : Nat) : Reader Char := do
  let code ← hexDigits count
  guard code.isValidChar
  return Char.ofNat code

/-- An escaped character. -/
def escape : Reader Char := do
  char '\\'
  match ← satisfy fun _ => true with
  | 'b' => return '\x08'
  | 't' => return '\t'
  | 'n' => return '\n'
  | 'f' => return '\x0c'
  | 'r' => return '\r'
  | '"' => return '"'
  | '\\' => return '\\'
  | 'u' => codePoint 4
  | 'U' => codePoint 8
  | _ => failure

/-- A string between double quotes on one line. -/
def quotedString : Reader Text := do
  char '"'
  let pieces ← many (takeWhile1 isPlain <|> (return [← escape]))
  char '"'
  return pieces.flatten

/-- A string between single quotes on one line. -/
def literalString : Reader Text := do
  char '\''
  let text ← takeWhile isLiteral
  char '\''
  return text

/-- A backslash at the end of a line, with the blanks and line ends after it. -/
def lineSplice : Reader Unit := do
  char '\\'
  spaces
  newline
  let _ ← many ((do let _ ← takeWhile1 isSpace) <|> newline)

/-- One or two copies of `quote` that do not end a string of several lines. -/
def innerQuotes (quote : Char) : Reader Text := do
  let run ← takeWhile1 (· == quote)
  guard (run.length ≤ 2)
  -- At the end of the document the string cannot be closed any more.
  guard ((← get) ≠ [])
  return run

/-- The quotes that end a string of several lines: three, after at most two that belong to it. -/
def closingQuotes (quote : Char) : Reader Text := do
  let run ← takeWhile (· == quote)
  guard (3 ≤ run.length ∧ run.length ≤ 5)
  return run.drop 3

/-- A string of several lines between triple double quotes. -/
def quotedBlock : Reader Text := do
  literal ['"', '"', '"']
  -- A line end right after the opening quotes is not part of the string.
  let _ ← optional newline
  let pieces ← many <|
    takeWhile1 isPlain <|> (do lineSplice; return []) <|> (return [← escape]) <|>
      (do newline; return ['\n']) <|> innerQuotes '"'
  return pieces.flatten ++ (← closingQuotes '"')

/-- A string of several lines between triple single quotes. -/
def literalBlock : Reader Text := do
  literal ['\'', '\'', '\'']
  let _ ← optional newline
  let pieces ← many <|
    takeWhile1 isLiteral <|> (do newline; return ['\n']) <|> innerQuotes '\''
  return pieces.flatten ++ (← closingQuotes '\'')

/-- A string of any kind. -/
def string : Reader Text :=
  -- Two quotes alone are an empty string, so that the longer opening is tried first.
  quotedBlock <|> quotedString <|> literalBlock <|> literalString

/-! ## Keys and values -/

/-- Whether a character may stand in a bare key. -/
def isBare (c : Char) : Bool :=
  c.isAlphanum || c == '-' || c == '_'

/-- A key of one part. -/
def simpleKey : Reader Text :=
  quotedString <|> literalString <|> takeWhile1 isBare

/-- A key of one part with the blanks around it. -/
def spacedKey : Reader Text := do
  spaces
  let part ← simpleKey
  spaces
  return part

/-- A key of one or several parts. -/
def key : Reader (List Text) := do
  let first ← spacedKey
  let others ← many (do char '.'; spacedKey)
  return first :: others

/-- An element of an array with the gaps around it. -/
def element : Reader Text := do
  gap
  let text ← string
  gap
  return text

/-- An array of strings, in which a comma may follow the last one. -/
def array : Reader (List Text) := do
  char '['
  let items ← many (do let text ← element; char ','; return text)
  let last ← optional element
  gap
  char ']'
  return items ++ last.toList

/-- An entry of an inline table. -/
def pair : Reader (Text × Text) := do
  let name ← spacedKey
  char '='
  spaces
  let text ← string
  spaces
  return (name, text)

/-- An inline table of strings. -/
def inlineTable : Reader (List (Text × Text)) := do
  char '\x7b'
  let first ← optional pair
  -- A comma stands between pairs only: none before the first, none after the last.
  let others ← match first with
    | none => pure []
    | some _ => many (do char ','; pair)
  spaces
  char '\x7d'
  return first.toList ++ others

/-- The value of a key. -/
def value : Reader Value :=
  (.string <$> string) <|> (.array <$> array) <|> (.table <$> inlineTable) <|>
    (.timestamp <$> timestamp)

/-! ## Statements -/

/-- A key with its value, and the rest of the line. -/
def assignment : Reader Statement := do
  let name ← key
  char '='
  spaces
  let given ← value
  trailing
  return .assign name given

/-- A table header, and the rest of the line. -/
def header : Reader Statement := do
  char '['
  let name ← key
  char ']'
  trailing
  return .header name

/-- A statement or an empty line. -/
def line : Reader (Option Statement) := do
  spaces
  (do comment; lineEnd; return none) <|> (do newline; return none) <|>
    (some <$> header) <|> (some <$> assignment)

/-- The statements of a whole document, in front of which a byte order mark may stand. -/
def document : Reader (List Statement) := do
  let _ ← optional (char '\uFEFF')
  let lines ← many line
  spaces
  finish
  return lines.filterMap id

/-- The statements of a text, if it is a document. -/
def parse? (text : Text) : Option (List Statement) :=
  (document.run text).map (·.1)

end Toml

end ScriptAnalysis
