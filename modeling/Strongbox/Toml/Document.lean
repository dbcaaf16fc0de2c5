import Strongbox.Toml.Number

/-!
# TOML — documents

A document is a sequence of blocks: the definitions before the first header, and those after each
header.  A definition gives a value to a path of keys.  Reading checks the form of the text and
that no path of one block is defined twice or leads through a value; how blocks may follow one
another is for the reader of the document to judge.
-/

namespace Strongbox.Toml

/-- A value; of floating numbers and moments only the kind is kept. -/
inductive Value where
  | text (s : String)
  | int (n : Int)
  | bool (b : Bool)
  | float
  | moment
  | array (items : List Value)
  | table (members : List (List String × Value))

/-- The definitions of a block or of an inline table, in order. -/
abbrev Members : Type := List (List String × Value)

/-- No path is given twice, and none leads through the value of another. -/
def isPrefixFree (paths : List (List String)) : Bool :=
  match paths with
  | [] => true
  | p :: rest => rest.all (fun q => !p.isPrefixOf q && !q.isPrefixOf p) && isPrefixFree rest

/-- What stands over a block: a path, and whether it adds to an array of tables. -/
structure Header where
  path : List String
  isArray : Bool

/-- A header, none for the start of the document, and the definitions under it. -/
structure Block where
  header : Option Header
  members : Members

/-! ### Trivia -/

/-- The text after spaces and tabs. -/
def skipGaps (cs : List Char) : List Char :=
  cs.dropWhile isGap

/-- The text after a comment, if one is next. -/
def skipComment : List Char → List Char
  | '#' :: rest => rest.dropWhile isPlain
  | cs => cs

/-- The rest after the end of a line, before which gaps and a comment may stand. -/
def afterLine? (cs : List Char) : Option (List Char) :=
  match skipComment (skipGaps cs) with
  | [] => some []
  | '\n' :: rest => some rest
  | '\r' :: '\n' :: rest => some rest
  | _ => none

/-- The text after gaps, line breaks and comments; each round takes one line. -/
def skipLines : (rounds : Nat) → List Char → List Char
  | 0, cs => cs
  | rounds + 1, cs =>
    match skipComment (skipGaps cs) with
    | '\n' :: rest => skipLines rounds rest
    | '\r' :: '\n' :: rest => skipLines rounds rest
    | rest => rest

/-! ### Keys -/

/-- A character of an unquoted key. -/
def isKeyChar (c : Char) : Bool :=
  c.isAlphanum || c = '_' || c = '-'

/-- One key of a path. -/
def key? (cs : List Char) : Option (String × List Char) :=
  match cs with
  | '"' :: rest => (basic? rest).map fun (k, rest) => (String.ofList k, rest)
  | '\'' :: rest => (literal? rest).map fun (k, rest) => (String.ofList k, rest)
  | cs =>
    let key := cs.takeWhile isKeyChar
    if key.isEmpty then none else some (String.ofList key, cs.drop key.length)

/-- The greatest depth to which keys, arrays and inline tables nest. -/
def mostDepth : Nat := 79

/-- A path of at most `most` keys with points between them and gaps around them. -/
def path? : (most : Nat) → List Char → Option (List String × List Char)
  | 0, _ => none
  | most + 1, cs => do
    let (key, cs) ← key? (skipGaps cs)
    match skipGaps cs with
    | '.' :: cs => do
      let (keys, rest) ← path? most cs
      return (key :: keys, rest)
    | rest => return ([key], rest)

/-! ### Values -/

/-- The items of an array up to its closing bracket. -/
def items? (item : List Char → Option (Value × List Char)) :
    (rounds : Nat) → List Char → Option (List Value × List Char)
  | 0, _ => none
  | rounds + 1, cs =>
    match skipLines cs.length cs with
    | ']' :: rest => some ([], rest)
    | cs => do
      let (value, cs) ← item cs
      match skipLines cs.length cs with
      | ',' :: cs => do
        let (values, rest) ← items? item rounds cs
        return (value :: values, rest)
      | ']' :: rest => return ([value], rest)
      | _ => none

/-- A path, an equals sign and a value. -/
def definition? (value : List Char → Option (Value × List Char)) (cs : List Char) :
    Option ((List String × Value) × List Char) := do
  let (path, cs) ← path? mostDepth cs
  let (v, rest) ← value (skipGaps (← after? '=' cs))
  return ((path, v), rest)

/-- The definitions of an inline table up to its closing brace; there is at least one. -/
def members? (value : List Char → Option (Value × List Char)) :
    (rounds : Nat) → List Char → Option (Members × List Char)
  | 0, _ => none
  | rounds + 1, cs => do
    let (member, cs) ← definition? value cs
    match skipGaps cs with
    | ',' :: cs => do
      let (members, rest) ← members? value rounds cs
      return (member :: members, rest)
    | '\x7d' :: rest => return ([member], rest)
    | _ => none

/-- A value in which arrays and inline tables nest to a given depth. -/
def value? : (depth : Nat) → List Char → Option (Value × List Char)
  | 0, cs => scalar? cs
  | depth + 1, cs =>
    match cs with
    | '[' :: cs => do
      let (items, rest) ← items? (value? depth) cs.length cs
      return (.array items, rest)
    | '\x7b' :: cs =>
      match skipGaps cs with
      | '\x7d' :: rest => some (.table [], rest)
      | cs => do
        let (members, rest) ← members? (value? depth) cs.length cs
        if isPrefixFree (members.map (·.1)) then return (.table members, rest) else none
    | cs => scalar? cs
where
  /-- A value with no other inside. -/
  scalar? (cs : List Char) : Option (Value × List Char) :=
    match cs with
    | 't' :: 'r' :: 'u' :: 'e' :: rest => some (.bool true, rest)
    | 'f' :: 'a' :: 'l' :: 's' :: 'e' :: rest => some (.bool false, rest)
    | '"' :: _ | '\'' :: _ => (quoted? cs).map fun (s, rest) => (.text s, rest)
    | cs =>
      if startsDate cs then (afterDate? cs).map fun rest => (.moment, rest)
      else if startsClock cs then (afterClock? cs).map fun rest => (.moment, rest)
      else
        match afterFloat? cs with
        | some rest => some (.float, rest)
        | none =>
          match integer? cs with
          | some (n, rest) => if goesOn rest then none else some (.int n, rest)
          | none => none

/-! ### Blocks -/

/-- The rest after some characters. -/
def afterAll? (lead : List Char) (cs : List Char) : Option (List Char) :=
  if lead.isPrefixOf cs then some (cs.drop lead.length) else none

/-- A header after its first bracket, to the end of its line. -/
def header? (cs : List Char) : Option (Header × List Char) :=
  match cs with
  | '[' :: cs => do
    let (path, cs) ← path? mostDepth cs
    return (⟨path, true⟩, ← afterLine? (← afterAll? [']', ']'] cs))
  | cs => do
    let (path, cs) ← path? mostDepth cs
    return (⟨path, false⟩, ← afterLine? (← after? ']' cs))

/-- The blocks of a text, after the definitions of an open block, the last one first. -/
def blocks? : (rounds : Nat) → Option Header → Members → List Char → Option (List Block)
  | 0, _, _, _ => none
  | rounds + 1, header, members, cs =>
    match skipGaps cs with
    | [] => closed header members []
    | '[' :: cs => do
      let (next, rest) ← header? cs
      closed header members (← blocks? rounds (some next) [] rest)
    | c :: cs =>
      if c = '#' ∨ c = '\n' ∨ c = '\r' then do
        blocks? rounds header members (← afterLine? (c :: cs))
      else do
        let (member, cs) ← definition? (value? mostDepth) (c :: cs)
        blocks? rounds header (member :: members) (← afterLine? cs)
where
  /-- The open block put in front of the blocks after it. -/
  closed (header : Option Header) (members : Members) (rest : List Block) :
      Option (List Block) :=
    if isPrefixFree (members.map (·.1)) then some (⟨header, members.reverse⟩ :: rest) else none

/-- The blocks of a document, which a byte order mark may begin. -/
def read? (s : String) : Option (List Block) :=
  let cs :=
    match s.toList with
    | '\ufeff' :: cs => cs
    | cs => cs
  blocks? (cs.length + 1) none [] cs

end Strongbox.Toml
