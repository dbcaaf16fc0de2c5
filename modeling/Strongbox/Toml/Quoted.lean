import Strongbox.Text.Numeral

/-!
# TOML — quoted texts

The four ways to quote a text: between one or three double quotes, where a backslash begins an
escape, and between one or three apostrophes, where every character stands for itself.  A text
between three quotes may hold line breaks; one directly after the opening quotes is left out, and a
backslash at the end of a line takes the break and all blanks after it away.  Of up to five quotes
in a row the last three close the text.

Each reader takes what follows the opening quotes, and gives the text and what follows the closing
ones.
-/

namespace Strongbox.Toml

/-- A space or a tab. -/
def isGap (c : Char) : Bool :=
  c = ' ' || c = '\t'

/-- A character that stands for itself in comments and texts: a tab, or no control. -/
def isPlain (c : Char) : Bool :=
  c = '\t' || (decide (' ' ≤ c) && c ≠ '\x7f')

/-- One more character in front of what was read. -/
def putFront (c : Char) (r : Option (List Char × List Char)) : Option (List Char × List Char) :=
  r.map fun (cs, rest) => (c :: cs, rest)

/-- The character of a code point in hexadecimal digits. -/
def codePoint? (digits : List Char) : Option Char := do
  let n ← Text.hexAfter 0 digits
  if n.isValidChar then return Char.ofNat n else none

/-- The character that a one-letter escape stands for. -/
def shortEscape? (c : Char) : Option Char :=
  match c with
  | 'b' => some '\x08'
  | 't' => some '\t'
  | 'n' => some '\n'
  | 'f' => some '\x0c'
  | 'r' => some '\r'
  | '"' => some '"'
  | '\\' => some '\\'
  | _ => none

/-- A text up to a double quote. -/
def basic? : List Char → Option (List Char × List Char)
  | '"' :: rest => some ([], rest)
  | '\\' :: 'u' :: a :: b :: c :: d :: rest =>
    match codePoint? [a, b, c, d] with
    | some x => putFront x (basic? rest)
    | none => none
  | '\\' :: 'U' :: a :: b :: c :: d :: e :: f :: g :: h :: rest =>
    match codePoint? [a, b, c, d, e, f, g, h] with
    | some x => putFront x (basic? rest)
    | none => none
  | '\\' :: c :: rest =>
    match shortEscape? c with
    | some x => putFront x (basic? rest)
    | none => none
  | c :: rest => if isPlain c && c ≠ '\\' then putFront c (basic? rest) else none
  | [] => none

/-- A text up to an apostrophe. -/
def literal? : List Char → Option (List Char × List Char)
  | '\'' :: rest => some ([], rest)
  | c :: rest => if isPlain c then putFront c (literal? rest) else none
  | [] => none

/-- The quotes that stand before the closing ones, after three quotes have been seen. -/
def closing (quote : Char) : List Char → List Char × List Char
  | a :: b :: rest =>
    if a = quote then (if b = quote then ([a, b], rest) else ([a], b :: rest))
    else ([], a :: b :: rest)
  | [a] => if a = quote then ([a], []) else ([], [a])
  | [] => ([], [])

/-- The text goes on with a line break, after blanks. -/
def breaksLine (cs : List Char) : Bool :=
  match cs.dropWhile isGap with
  | '\n' :: _ => true
  | '\r' :: '\n' :: _ => true
  | _ => false

/-- A text up to three double quotes.  While `trimming`, blanks and line breaks are left out. -/
def longBasic? : (trimming : Bool) → List Char → Option (List Char × List Char)
  | _, '"' :: '"' :: '"' :: rest => some (closing '"' rest)
  | trimming, '\r' :: '\n' :: rest =>
    if trimming then longBasic? true rest else putFront '\n' (longBasic? false rest)
  | trimming, '\n' :: rest =>
    if trimming then longBasic? true rest else putFront '\n' (longBasic? false rest)
  | _, '\\' :: 'u' :: a :: b :: c :: d :: rest =>
    match codePoint? [a, b, c, d] with
    | some x => putFront x (longBasic? false rest)
    | none => none
  | _, '\\' :: 'U' :: a :: b :: c :: d :: e :: f :: g :: h :: rest =>
    match codePoint? [a, b, c, d, e, f, g, h] with
    | some x => putFront x (longBasic? false rest)
    | none => none
  | _, '\\' :: c :: rest =>
    match shortEscape? c with
    | some x => putFront x (longBasic? false rest)
    | none => if breaksLine (c :: rest) then longBasic? true (c :: rest) else none
  | trimming, c :: rest =>
    if trimming && isGap c then longBasic? true rest
    else if isPlain c && c ≠ '\\' then putFront c (longBasic? false rest)
    else none
  | _, [] => none

/-- A text up to three apostrophes. -/
def longLiteral? : List Char → Option (List Char × List Char)
  | '\'' :: '\'' :: '\'' :: rest => some (closing '\'' rest)
  | '\r' :: '\n' :: rest => putFront '\n' (longLiteral? rest)
  | '\n' :: rest => putFront '\n' (longLiteral? rest)
  | c :: rest => if isPlain c then putFront c (longLiteral? rest) else none
  | [] => none

/-- The text after a line break at its start. -/
def skipBreak : List Char → List Char
  | '\n' :: rest => rest
  | '\r' :: '\n' :: rest => rest
  | cs => cs

/-- A quoted text of any kind. -/
def quoted? : List Char → Option (String × List Char)
  | '"' :: '"' :: '"' :: rest => done (longBasic? false (skipBreak rest))
  | '\'' :: '\'' :: '\'' :: rest => done (longLiteral? (skipBreak rest))
  | '"' :: rest => done (basic? rest)
  | '\'' :: rest => done (literal? rest)
  | _ => none
where
  /-- The characters made a text. -/
  done (r : Option (List Char × List Char)) : Option (String × List Char) :=
    r.map fun (cs, rest) => (String.ofList cs, rest)

end Strongbox.Toml
