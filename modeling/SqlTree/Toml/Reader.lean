import SqlTree.Text.Split
import SqlTree.Toml.Basic

/-!
# Reading TOML

A document is a sequence of lines: keys with values, and headers that say in which table the
following keys stand.
-/

namespace SqlTree.Toml

/-- A reader takes characters from the front of the text; `none` refuses the text. -/
abbrev Reader (α : Type) := List Char → Option (α × List Char)

def isBlank (c : Char) : Bool := c == ' ' || c == '\t'

def skipBlanks (cs : List Char) : List Char := cs.dropWhile isBlank

/-- Characters that may stand in comments and, quotes and escapes apart, in strings. -/
def isPlain (c : Char) : Bool := c == '\t' || (0x20 ≤ c.toNat && c.toNat != 0x7F)

/-- Skips blanks, line ends and comments; `comment` says whether one has begun. -/
def skipGaps (comment : Bool) : List Char → List Char
  | [] => []
  | c :: cs =>
    if comment && isPlain c then skipGaps true cs
    else if isBlank c || c == '\n' then skipGaps false cs
    else if c == '\r' && cs.head? == some '\n' then skipGaps false cs
    else if c == '#' then skipGaps true cs
    else c :: cs

/-- What follows the end of a line. -/
def newline? : List Char → Option (List Char)
  | [] => some []
  | '\n' :: cs => some cs
  | '\r' :: '\n' :: cs => some cs
  | _ => none

def skipComment : List Char → List Char
  | '#' :: cs => cs.dropWhile isPlain
  | cs => cs

/-- What follows a line on which only a comment may still stand. -/
def lineEnd? (cs : List Char) : Option (List Char) := newline? (skipComment (skipBlanks cs))

/-! ## Strings -/

def hexValue? (c : Char) : Option Nat :=
  if c.isDigit then some (c.toNat - '0'.toNat)
  else if 'a' ≤ c ∧ c ≤ 'f' then some (c.toNat - 'a'.toNat + 10)
  else if 'A' ≤ c ∧ c ≤ 'F' then some (c.toNat - 'A'.toNat + 10)
  else none

/-- The character with a number in hexadecimal digits. -/
def charOf? (digits : List Char) : Option Char := do
  let n := (← digits.mapM hexValue?).foldl (fun n d => 16 * n + d) 0
  if n.isValidChar then some (Char.ofNat n) else none

/-- The character for a letter behind a backslash. -/
def escape? : Char → Option Char
  | 'b' => some '\x08'
  | 'f' => some '\x0c'
  | 'n' => some '\n'
  | 'r' => some '\r'
  | 't' => some '\t'
  | '"' => some '"'
  | '\\' => some '\\'
  | _ => none

/-- Where a string of several lines is cut: not at all, behind a backslash before the end of its
line, or behind that end. -/
inductive Cut where
  | no
  | line
  | gap
  deriving DecidableEq, Repr

def cons? (c : Option Char) (r : Option (List Char × List Char)) :
    Option (List Char × List Char) := do
  let (cs, rest) ← r
  return ((← c) :: cs, rest)

/-- The rest of a string in double quotes. -/
def basicRest : List Char → Option (List Char × List Char)
  | '"' :: cs => some ([], cs)
  | '\\' :: 'u' :: a :: b :: c :: d :: cs => cons? (charOf? [a, b, c, d]) (basicRest cs)
  | '\\' :: 'U' :: a :: b :: c :: d :: e :: f :: g :: h :: cs =>
    cons? (charOf? [a, b, c, d, e, f, g, h]) (basicRest cs)
  | '\\' :: c :: cs => cons? (escape? c) (basicRest cs)
  | c :: cs => if isPlain c then cons? (some c) (basicRest cs) else none
  | [] => none

/-- The rest of a string in three double quotes. -/
def basicLines : Cut → List Char → Option (List Char × List Char)
  | .line, '\n' :: cs => basicLines .gap cs
  | .line, '\r' :: '\n' :: cs => basicLines .gap cs
  | .line, c :: cs => if isBlank c then basicLines .line cs else none
  | .gap, '\n' :: cs => basicLines .gap cs
  | .gap, '\r' :: '\n' :: cs => basicLines .gap cs
  | .gap, ' ' :: cs => basicLines .gap cs
  | .gap, '\t' :: cs => basicLines .gap cs
  | _, '"' :: '"' :: '"' :: '"' :: '"' :: cs => some (['"', '"'], cs)
  | _, '"' :: '"' :: '"' :: '"' :: cs => some (['"'], cs)
  | _, '"' :: '"' :: '"' :: cs => some ([], cs)
  | _, '\\' :: 'u' :: a :: b :: c :: d :: cs => cons? (charOf? [a, b, c, d]) (basicLines .no cs)
  | _, '\\' :: 'U' :: a :: b :: c :: d :: e :: f :: g :: h :: cs =>
    cons? (charOf? [a, b, c, d, e, f, g, h]) (basicLines .no cs)
  | _, '\\' :: '\n' :: cs => basicLines .gap cs
  | _, '\\' :: '\r' :: '\n' :: cs => basicLines .gap cs
  | _, '\\' :: c :: cs =>
    if isBlank c then basicLines .line cs else cons? (escape? c) (basicLines .no cs)
  | _, '\r' :: '\n' :: cs => cons? (some '\n') (basicLines .no cs)
  | _, c :: cs =>
    if isPlain c || c == '\n' then cons? (some c) (basicLines .no cs) else none
  | _, [] => none

/-- The rest of a string in single quotes. -/
def literalRest : List Char → Option (List Char × List Char)
  | '\'' :: cs => some ([], cs)
  | c :: cs => if isPlain c then cons? (some c) (literalRest cs) else none
  | [] => none

/-- The rest of a string in three single quotes. -/
def literalLines : List Char → Option (List Char × List Char)
  | '\'' :: '\'' :: '\'' :: '\'' :: '\'' :: cs => some (['\'', '\''], cs)
  | '\'' :: '\'' :: '\'' :: '\'' :: cs => some (['\''], cs)
  | '\'' :: '\'' :: '\'' :: cs => some ([], cs)
  | '\r' :: '\n' :: cs => cons? (some '\n') (literalLines cs)
  | c :: cs => if isPlain c || c == '\n' then cons? (some c) (literalLines cs) else none
  | [] => none

/-- The text of a string of several lines, without a line end right behind its quotes. -/
def skipFirstLine (cs : List Char) : List Char :=
  match cs with
  | '\n' :: rest => rest
  | '\r' :: '\n' :: rest => rest
  | _ => cs

def packed (r : Option (List Char × List Char)) : Option (String × List Char) :=
  r.map fun (cs, rest) => (.ofList cs, rest)

/-- A string on one line. -/
def lineString : Reader String
  | '"' :: cs => packed (basicRest cs)
  | '\'' :: cs => packed (literalRest cs)
  | _ => none

def anyString : Reader String
  | '"' :: '"' :: '"' :: cs => packed (basicLines .no (skipFirstLine cs))
  | '\'' :: '\'' :: '\'' :: cs => packed (literalLines (skipFirstLine cs))
  | cs => lineString cs

/-! ## Numbers and truth values -/

/-- Digits with single underscores between them. -/
def digits? (base : Nat) (cs : List Char) : Option Nat :=
  let parts := Text.splitAll '_' cs
  if parts.any List.isEmpty then none
  else do
    let ds ← parts.flatten.mapM hexValue?
    if ds.all (· < base) then some (ds.foldl (fun n d => base * n + d) 0) else none

/-- Decimal digits that do not begin with a needless zero. -/
def decimal? (cs : List Char) : Option Nat :=
  if cs.head? == some '0' && cs.length != 1 then none else digits? 10 cs

def inRange (n : Int) : Option Int :=
  if Int64.minValue.toInt ≤ n ∧ n ≤ Int64.maxValue.toInt then some n else none

/-- A whole number, in any of four bases. -/
def int? : List Char → Option Int
  | '0' :: 'x' :: cs => do inRange (← digits? 16 cs)
  | '0' :: 'o' :: cs => do inRange (← digits? 8 cs)
  | '0' :: 'b' :: cs => do inRange (← digits? 2 cs)
  | '+' :: cs => do inRange (← decimal? cs)
  | '-' :: cs => do inRange (-(← decimal? cs : Int))
  | cs => do inRange (← decimal? cs)

/-- Characters of numbers and words. -/
def isWordChar (c : Char) : Bool := c.isAlphanum || c == '_' || c == '+' || c == '-' || c == '.'

def word : Reader Toml := fun cs =>
  let token := cs.takeWhile isWordChar
  let rest := cs.dropWhile isWordChar
  if token = "true".toList then some (.bool true, rest)
  else if token = "false".toList then some (.bool false, rest)
  else (int? token).map fun n => (.int n, rest)

/-! ## Keys and values -/

def isKeyChar (c : Char) : Bool := c.isAlphanum || c == '_' || c == '-'

/-- One part of a key. -/
def keyPart : Reader String := fun cs =>
  match cs with
  | '"' :: _ => lineString cs
  | '\'' :: _ => lineString cs
  | _ =>
    let bare := cs.takeWhile isKeyChar
    if bare.isEmpty then none else some (.ofList bare, cs.dropWhile isKeyChar)

/-- A key of at most so many parts with dots between them, and blanks around it. -/
def key : Nat → Reader (List String)
  | 0, _ => none
  | most + 1, cs => do
    let (part, rest) ← keyPart (skipBlanks cs)
    match skipBlanks rest with
    | '.' :: rest => do
      let (parts, rest) ← key most rest
      return (part :: parts, rest)
    | rest => return ([part], rest)

/-- The most parts of a key. -/
def maxParts : Nat := 79

/-- The most arrays and tables inside each other. -/
def maxDepth : Nat := 79

def itemsRest (item : Reader Toml) : Nat → List Char → Option (List Toml × List Char)
  | 0, _ => none
  | fuel + 1, cs =>
    match skipGaps false cs with
    | ']' :: rest => some ([], rest)
    | cs => do
      let (v, rest) ← item cs
      match skipGaps false rest with
      | ',' :: rest => do
        let (vs, rest) ← itemsRest item fuel rest
        return (v :: vs, rest)
      | ']' :: rest => return ([v], rest)
      | _ => none

/-- A key and its value. -/
def keyValue (item : Reader Toml) : Reader (List String × Toml) := fun cs => do
  match ← key maxParts cs with
  | (k, '=' :: rest) => do
    let (v, rest) ← item (skipBlanks rest)
    return ((k, v), rest)
  | _ => none

def membersRest (item : Reader Toml) : Nat → Members → List Char → Option (Members × List Char)
  | 0, _, _ => none
  | fuel + 1, ms, cs => do
    let ((k, v), rest) ← keyValue item cs
    let ms ← put v k ms
    match skipBlanks rest with
    | ',' :: rest => membersRest item fuel ms rest
    | '}' :: rest => return (ms, rest)
    | _ => none

/-- One value; `depth` is how many arrays and tables may still be opened. -/
def value : Nat → Reader Toml
  | depth, cs =>
    match cs with
    | '"' :: _ => (anyString cs).map fun (s, rest) => (.string s, rest)
    | '\'' :: _ => (anyString cs).map fun (s, rest) => (.string s, rest)
    | '[' :: rest =>
      match depth with
      | 0 => none
      | depth + 1 =>
        (itemsRest (value depth) (rest.length + 1) rest).map fun (vs, rest) => (.array vs, rest)
    | '{' :: rest =>
      match depth with
      | 0 => none
      | depth + 1 =>
        match skipBlanks rest with
        | '}' :: rest => some (.table .inline [], rest)
        | rest => (membersRest (value depth) (rest.length + 1) [] rest).map fun (ms, rest) =>
            (.table .inline ms, rest)
    | _ => word cs

/-! ## Documents -/

/-- What was read, and the header under which to go on. -/
structure Document where
  members : Members := []
  header : List String := []

/-- What stands on a line: a header, a key with its value, or nothing. -/
def line (d : Document) (cs : List Char) : Option (Document × List Char) :=
  match skipBlanks cs with
  | '[' :: '[' :: cs => do
    match ← key maxParts cs with
    | (h, ']' :: ']' :: rest) => return (⟨← openItem h d.members, h⟩, rest)
    | _ => none
  | '[' :: cs => do
    match ← key maxParts cs with
    | (h, ']' :: rest) => return (⟨← openTable h d.members, h⟩, rest)
    | _ => none
  | cs =>
    match newline? (skipComment cs) with
    | some _ => some (d, cs)
    | none => do
      let ((k, v), rest) ← keyValue (value maxDepth) cs
      return ({ d with members := ← within (put v k) d.header d.members }, rest)

/-- Reads lines until the text ends. -/
def lines : Nat → Document → List Char → Option Document
  | _, d, [] => some d
  | 0, _, _ => none
  | fuel + 1, d, cs => do
    let (d, rest) ← line d cs
    lines fuel d (← lineEnd? rest)

/-- The table that a whole text stands for. -/
def read? (s : String) : Option Members :=
  let cs := match s.toList with
    | '\uFEFF' :: cs => cs
    | cs => cs
  (lines (cs.length + 1) {} cs).map Document.members

end SqlTree.Toml
