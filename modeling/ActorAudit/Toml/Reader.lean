import ActorAudit.Toml.Scalar

/-!
# Reading TOML

A TOML document by recursive descent over its characters. Every function gives what follows the part
it read; nothing is said about why a text is no document.
-/

namespace ActorAudit.Toml

/-! ## Blanks and comments -/

def isSpace (c : Char) : Bool := c == ' ' || c == '\t'

def skipSpace (cs : List Char) : List Char := cs.dropWhile isSpace

def newline? : List Char → Option (List Char)
  | '\n' :: rest => some rest
  | '\r' :: '\n' :: rest => some rest
  | _ => none

def isPlain (c : Char) : Bool := c == '\t' || (0x20 ≤ c.toNat && c.toNat != 0x7F)

def skipComment (cs : List Char) : List Char := cs.dropWhile isPlain

/-- The end of a line after a value: blanks, a comment, and the line end or the end of the text. -/
def lineEnd? (cs : List Char) : Option (List Char) :=
  let cs := match skipSpace cs with
    | '#' :: rest => skipComment rest
    | rest => rest
  match cs with
  | [] => some []
  | cs => newline? cs

/-- Blanks, comments and line ends between the items of an array. Each round takes a character. -/
def skipFiller : Nat → List Char → List Char
  | 0, cs => cs
  | fuel + 1, cs =>
    match skipSpace cs with
    | '#' :: rest => skipFiller fuel (skipComment rest)
    | cs =>
      match newline? cs with
      | some rest => skipFiller fuel rest
      | none => cs

/-! ## Strings -/

def scalarValue? (n : Nat) : Option Char :=
  if n < 0xD800 ∨ (0xDFFF < n ∧ n < 0x110000) then some (Char.ofNat n) else none

def hexEscape? (width : Nat) (cs : List Char) : Option (Char × List Char) :=
  let ds := cs.take width
  if ds.length = width ∧ ds.all (isDigitOf 16) then
    (scalarValue? (ofDigits 16 (ds.map digitValue))).map fun c => (c, cs.drop width)
  else none

def escape? : List Char → Option (Char × List Char)
  | 'b' :: rest => some ('\x08', rest)
  | 't' :: rest => some ('\t', rest)
  | 'n' :: rest => some ('\n', rest)
  | 'f' :: rest => some ('\x0c', rest)
  | 'r' :: rest => some ('\r', rest)
  | '"' :: rest => some ('"', rest)
  | '\\' :: rest => some ('\\', rest)
  | 'u' :: rest => hexEscape? 4 rest
  | 'U' :: rest => hexEscape? 8 rest
  | _ => none

/-- A string on one line, after its opening quote. Characters are collected in reverse. -/
def basicString : Nat → List Char → List Char → Option (String × List Char)
  | 0, _, _ => none
  | fuel + 1, cs, acc =>
    match cs with
    | '"' :: rest => some (String.ofList acc.reverse, rest)
    | '\\' :: rest =>
      match escape? rest with
      | some (c, rest) => basicString fuel rest (c :: acc)
      | none => none
    | c :: rest => if isPlain c then basicString fuel rest (c :: acc) else none
    | [] => none

def literalString (cs : List Char) : Option (String × List Char) :=
  let body := cs.takeWhile fun c => isPlain c && c != '\''
  match cs.drop body.length with
  | '\'' :: rest => some (String.ofList body, rest)
  | _ => none

/-- Drops the blanks and line ends after a backslash at the end of a line. -/
def skipFold : List Char → List Char
  | '\n' :: rest => skipFold rest
  | '\r' :: '\n' :: rest => skipFold rest
  | ' ' :: rest => skipFold rest
  | '\t' :: rest => skipFold rest
  | rest => rest

/-- A string over several lines, after its opening quotes; `quote` is its kind of quote. Up to two
quotes may stand before the three that close it. A line end is a line feed. -/
def multilineString (quote : Char) : Nat → List Char → List Char → Option (String × List Char)
  | 0, _, _ => none
  | fuel + 1, cs, acc =>
    match cs with
    | [] => none
    | c :: rest =>
      if c == quote then
        let run := (cs.takeWhile (· == quote)).length
        if run < 3 then multilineString quote fuel rest (c :: acc)
        else
          let kept := min (run - 3) 2
          some (String.ofList (List.replicate kept quote ++ acc).reverse, cs.drop (kept + 3))
      else if c == '\\' && quote == '"' then
        match newline? (skipSpace rest) with
        | some rest => multilineString quote fuel (skipFold rest) acc
        | none =>
          match escape? rest with
          | some (c, rest) => multilineString quote fuel rest (c :: acc)
          | none => none
      else
        match newline? cs with
        | some rest => multilineString quote fuel rest ('\n' :: acc)
        | none => if isPlain c then multilineString quote fuel rest (c :: acc) else none

/-- A line end right after the opening quotes does not count. -/
def multilineBody (quote : Char) (cs : List Char) : Option (String × List Char) :=
  multilineString quote (cs.length + 1) ((newline? cs).getD cs) []

/-! ## Keys -/

/-- No key has this many parts, and no value is nested this deep. -/
def depthLimit : Nat := 80

def isBare (c : Char) : Bool := c.isAlphanum || c == '_' || c == '-'

def simpleKey? (cs : List Char) : Option (String × List Char) :=
  match cs with
  | '"' :: rest => basicString (rest.length + 1) rest []
  | '\'' :: rest => literalString rest
  | cs =>
    match cs.takeWhile isBare with
    | [] => none
    | key => some (String.ofList key, cs.drop key.length)

/-- The parts of a dotted key, with the blanks around them. -/
def keyParts : Nat → List Char → Option (List String × List Char)
  | 0, _ => none
  | fuel + 1, cs =>
    match simpleKey? (skipSpace cs) with
    | none => none
    | some (key, rest) =>
      match skipSpace rest with
      | '.' :: rest => (keyParts fuel rest).map fun (keys, rest) => (key :: keys, rest)
      | rest => some ([key], rest)

def key? (cs : List Char) : Option (List String × String × List Char) :=
  match keyParts (cs.length + 1) cs with
  | some (keys, rest) =>
    if keys.length < depthLimit then keys.getLast?.map fun last => (keys.dropLast, last, rest)
    else none
  | none => none

/-! ## Values -/

def isWordChar (c : Char) : Bool :=
  c.isAlphanum || c == '+' || c == '-' || c == '_' || c == '.' || c == ':'

/-- A word, together with the time of day that may follow a date after a blank. -/
def word (cs : List Char) : List Char × List Char :=
  let w := cs.takeWhile isWordChar
  match cs.drop w.length with
  | ' ' :: c :: rest =>
    if isDate w && c.isDigit then
      let t := (c :: rest).takeWhile isWordChar
      (w ++ ' ' :: t, (c :: rest).drop t.length)
    else (w, ' ' :: c :: rest)
  | rest => (w, rest)

mutual
def value? : Nat → Nat → List Char → Option (Toml × List Char)
  | 0, _, _ => none
  | fuel + 1, depth, cs =>
    match cs with
    | '"' :: '"' :: '"' :: rest =>
      (multilineBody '"' rest).map fun (s, rest) => (.string s, rest)
    | '"' :: rest => (basicString (rest.length + 1) rest []).map fun (s, rest) => (.string s, rest)
    | '\'' :: '\'' :: '\'' :: rest =>
      (multilineBody '\'' rest).map fun (s, rest) => (.string s, rest)
    | '\'' :: rest => (literalString rest).map fun (s, rest) => (.string s, rest)
    | '[' :: rest => if depth + 1 < depthLimit then items? fuel (depth + 1) rest [] else none
    | '\x7b' :: rest =>
      if depth + 1 < depthLimit then
        match skipSpace rest with
        | '\x7d' :: rest => some (.table .inline [], rest)
        | rest => entries? fuel (depth + 1) rest []
      else none
    | cs =>
      let (w, rest) := word cs
      (scalar? w).map fun v => (v, rest)
/-- The items of an array up to its closing bracket, in reverse after those already read. -/
def items? : Nat → Nat → List Char → List Toml → Option (Toml × List Char)
  | 0, _, _, _ => none
  | fuel + 1, depth, cs, items =>
    match skipFiller cs.length cs with
    | ']' :: rest => some (.array items.reverse, rest)
    | cs =>
      match value? fuel depth cs with
      | none => none
      | some (v, rest) =>
        match skipFiller rest.length rest with
        | ',' :: rest => items? fuel depth rest (v :: items)
        | ']' :: rest => some (.array (v :: items).reverse, rest)
        | _ => none
/-- The entries of an inline table up to its closing brace. -/
def entries? : Nat → Nat → List Char → Entries → Option (Toml × List Char)
  | 0, _, _, _ => none
  | fuel + 1, depth, cs, entries =>
    match key? cs with
    | some (path, key, '=' :: rest) =>
      match value? fuel depth (skipSpace rest) with
      | none => none
      | some (v, rest) =>
        match insertDotted key v true path entries, skipSpace rest with
        | some entries, ',' :: rest => entries? fuel depth rest entries
        | some entries, '\x7d' :: rest => some (.table .inline entries, rest)
        | _, _ => none
    | _ => none
end

/-! ## Documents -/

/-- A document being read: its entries, and the path of the table that is open. -/
structure State where
  entries : Entries := []
  path : List String := []

def header? (state : State) (cs : List Char) : Option (State × List Char) :=
  match cs with
  | '[' :: cs =>
    match key? cs with
    | some (path, key, ']' :: ']' :: rest) => do
      let rest ← lineEnd? rest
      let entries ← updateAt (openNext key) path state.entries
      return (⟨entries, path ++ [key]⟩, rest)
    | _ => none
  | cs =>
    match key? cs with
    | some (path, key, ']' :: rest) => do
      let rest ← lineEnd? rest
      let entries ← updateAt (openTable key) path state.entries
      return (⟨entries, path ++ [key]⟩, rest)
    | _ => none

def keyValue? (state : State) (cs : List Char) : Option (State × List Char) :=
  match key? cs with
  | some (path, key, '=' :: rest) => do
    let (v, rest) ← value? (2 * rest.length + 2) 0 (skipSpace rest)
    let rest ← lineEnd? rest
    let entries ← updateAt (insertDotted key v true path) state.path state.entries
    return (⟨entries, state.path⟩, rest)
  | _ => none

/-- Reads line after line. Every line takes a character. -/
def lines? : Nat → State → List Char → Option State
  | 0, state, cs => if cs.isEmpty then some state else none
  | fuel + 1, state, cs =>
    match skipSpace cs with
    | [] => some state
    | '#' :: rest =>
      match lineEnd? ('#' :: rest) with
      | some rest => lines? fuel state rest
      | none => none
    | '[' :: rest =>
      match header? state rest with
      | some (state, rest) => lines? fuel state rest
      | none => none
    | cs =>
      match newline? cs with
      | some rest => lines? fuel state rest
      | none =>
        match keyValue? state cs with
        | some (state, rest) => lines? fuel state rest
        | none => none

/-- The entries of a document. A byte order mark at its start does not count. -/
def parse? (s : String) : Option Entries :=
  let cs := match s.toList with
    | c :: rest => if c.toNat = 0xFEFF then rest else c :: rest
    | [] => []
  (lines? (cs.length + 1) {} cs).map State.entries

/-- The tree of a document, broken when the text is none. -/
def read (s : String) : Doc :=
  match parse? s with
  | some entries => (Toml.table .header entries).toDoc
  | none => .broken

end ActorAudit.Toml
