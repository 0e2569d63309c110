import Dis.Moment

/-! Values of a configuration before they are checked. -/

namespace Dis

inductive Setting where
  | null
  | bool (b : Bool)
  | int (n : Int)
  | float (x : Binary64)
  | text (s : String)
  -- A date, a time or both; no setting takes one.
  | moment
  | list (items : List Setting)
  | table (entries : List (String × Setting))

end Dis

/-! TOML scalars: texts, numbers and moments. A reader takes the characters that are
left and gives a value and the characters after it. -/

namespace Dis.Toml

inductive Fault where
  -- The document breaks the grammar or redefines a key.
  | malformed
  -- A decimal integer is longer than any that is read.
  | tooManyDigits (count : Nat)
  deriving DecidableEq

abbrev Rest (α : Type) := α × List Char

variable {α : Type}

def malformed : Except Fault α := .error .malformed

def isSpace (c : Char) : Bool := c = ' ' || c = '\t'

def isSpaceOrNewline (c : Char) : Bool := isSpace c || c = '\n'

def isControl (c : Char) : Bool := (c.toNat < 0x20 && c ≠ '\t') || c.toNat = 0x7F

def isDigit (c : Char) : Bool := '0' ≤ c && c ≤ '9'

def isHexDigit (c : Char) : Bool := (Hex.value? c).isSome

def isOctalDigit (c : Char) : Bool := '0' ≤ c && c ≤ '7'

def isBinaryDigit (c : Char) : Bool := c = '0' || c = '1'

def afterStart? (start : String) (input : List Char) : Option (List Char) :=
  if start.toList.isPrefixOf input then some (input.drop start.length) else none

/-! Texts. -/

def hexChar (width : Nat) (input : List Char) : Except Fault (Rest Char) :=
  let digits := input.take width
  if digits.length = width ∧ digits.all isHexDigit then
    let n := digits.foldl (fun n c => n * 16 + (Hex.value? c).getD 0) 0
    if n.isValidChar then .ok (Char.ofNat n, input.drop width) else malformed
  else malformed

def escaped : List Char → Except Fault (Rest Char)
  | 'b' :: rest => .ok ('\x08', rest)
  | 't' :: rest => .ok ('\t', rest)
  | 'n' :: rest => .ok ('\n', rest)
  | 'f' :: rest => .ok ('\x0c', rest)
  | 'r' :: rest => .ok ('\r', rest)
  | '"' :: rest => .ok ('"', rest)
  | '\\' :: rest => .ok ('\\', rest)
  | 'u' :: rest => hexChar 4 rest
  | 'U' :: rest => hexChar 8 rest
  | _ => malformed

/-- A backslash before the end of a line takes away all blanks and newlines after it. -/
def lineEnd? (input : List Char) : Option (Except Fault (List Char)) :=
  match input with
  | '\n' :: rest => some (.ok (rest.dropWhile isSpaceOrNewline))
  | c :: _ =>
    if isSpace c then
      match input.dropWhile isSpace with
      | [] => some (.ok [])
      | '\n' :: rest => some (.ok (rest.dropWhile isSpaceOrNewline))
      | _ => some malformed
    else none
  | [] => none

/-- The inside of a basic text, up to and past its closing quotes. `done` holds the
characters so far, last first. -/
def basicText (fuel : Nat) (multiline : Bool) (done : List Char) (input : List Char) :
    Except Fault (Rest (List Char)) :=
  match fuel with
  | 0 => malformed
  | fuel + 1 =>
    match input with
    | [] => malformed
    | '"' :: rest =>
      if !multiline then .ok (done.reverse, rest)
      else match rest with
        | '"' :: '"' :: rest => .ok (done.reverse, rest)
        | _ => basicText fuel multiline ('"' :: done) rest
    | '\\' :: rest =>
      match if multiline then lineEnd? rest else none with
      | some skipped => do basicText fuel multiline done (← skipped)
      | none => do
        let (c, rest) ← escaped rest
        basicText fuel multiline (c :: done) rest
    | c :: rest =>
      if isControl c && !(multiline && c = '\n') then malformed
      else basicText fuel multiline (c :: done) rest

def literalText (input : List Char) : Except Fault (Rest (List Char)) :=
  let (inside, rest) := input.span (· ≠ '\'')
  match rest with
  | _ :: rest => if inside.any isControl then malformed else .ok (inside, rest)
  | [] => malformed

def literalLines (done : List Char) : List Char → Except Fault (Rest (List Char))
  | [] => malformed
  | '\'' :: '\'' :: '\'' :: rest => .ok (done.reverse, rest)
  | c :: rest => if isControl c && c ≠ '\n' then malformed else literalLines (c :: done) rest

/-- Up to two more quotes after closing triple quotes belong to the text. -/
def trailingQuotes (quote : Char) (inside rest : List Char) : List Char × List Char :=
  let extra := (rest.take 2).takeWhile (· = quote)
  (inside ++ extra, rest.drop extra.length)

def dropNewline : List Char → List Char
  | '\n' :: rest => rest
  | rest => rest

def text? (input : List Char) : Option (Except Fault (Rest (List Char))) :=
  match input with
  | '"' :: '"' :: '"' :: rest => some do
    let (inside, rest) ← basicText (rest.length + 1) true [] (dropNewline rest)
    return trailingQuotes '"' inside rest
  | '\'' :: '\'' :: '\'' :: rest => some do
    let (inside, rest) ← literalLines [] (dropNewline rest)
    return trailingQuotes '\'' inside rest
  | '"' :: rest => some (basicText (rest.length + 1) false [] rest)
  | '\'' :: rest => some (literalText rest)
  | _ => none

/-! Numbers. -/

def digitRun (p : Char → Bool) (input : List Char) : List Char × List Char :=
  match input with
  | [] => ([], [])
  | c :: rest => if p c then let (ds, rest) := more rest; (c :: ds, rest) else ([], input)
where
  more : List Char → List Char × List Char
    | '_' :: c :: rest =>
      if p c then let (ds, rest) := more rest; (c :: ds, rest) else ([], '_' :: c :: rest)
    | c :: rest => if p c then let (ds, rest) := more rest; (c :: ds, rest) else ([], c :: rest)
    | [] => ([], [])

def ofDigits (base : Nat) (digits : List Char) : Nat :=
  digits.foldl (fun n c => n * base + (Hex.value? c).getD 0) 0

def based? (input : List Char) : Option (Nat × List Char) :=
  let read := fun base p rest =>
    match digitRun p rest with
    | ([], _) => none
    | (digits, rest) => some (ofDigits base digits, rest)
  match input with
  | '0' :: 'x' :: rest => read 16 isHexDigit rest
  | '0' :: 'o' :: rest => read 8 isOctalDigit rest
  | '0' :: 'b' :: rest => read 2 isBinaryDigit rest
  | _ => none

def sign : List Char → Bool × List Char
  | '-' :: rest => (true, rest)
  | '+' :: rest => (false, rest)
  | rest => (false, rest)

def wholeDigits : List Char → List Char × List Char
  | '0' :: rest => (['0'], rest)
  | rest => digitRun isDigit rest

def fractionDigits : List Char → Option (List Char × List Char)
  | '.' :: rest =>
    match digitRun isDigit rest with
    | ([], _) => none
    | found => some found
  | _ => none

def exponent? : List Char → Option (Int × List Char)
  | c :: rest =>
    if c = 'e' ∨ c = 'E' then
      let (negative, rest) := sign rest
      match digitRun isDigit rest with
      | ([], _) => none
      | (digits, rest) =>
        let n : Int := ofDigits 10 digits
        some (if negative then -n else n, rest)
    else none
  | [] => none

def decimal? (input : List Char) : Option (Except Fault (Rest Setting)) :=
  let (negative, start) := sign input
  match wholeDigits start with
  | ([], _) => none
  | (whole, rest) =>
    let fraction := fractionDigits rest
    let rest := (fraction.map Prod.snd).getD rest
    let exponent := exponent? rest
    let rest := (exponent.map Prod.snd).getD rest
    some <|
      if fraction.isNone && exponent.isNone then
        if Numeral.mostDigits < whole.length then .error (.tooManyDigits whole.length)
        else
          let n : Int := ofDigits 10 whole
          .ok (.int (if negative then -n else n), rest)
      else
        let decimals := (fraction.map Prod.fst).getD []
        let power := (exponent.map Prod.fst).getD 0 - decimals.length
        let x : Decimal := ⟨negative, ofDigits 10 (whole ++ decimals), power⟩
        .ok (.float x.toBinary64, rest)

def special? (input : List Char) : Option (Setting × List Char) :=
  let (negative, rest) := sign input
  match afterStart? "inf" rest, afterStart? "nan" rest with
  | some rest, _ => some (.float (.infinity negative), rest)
  | none, some rest => some (.float .nan, rest)
  | none, none => none

/-! Moments. -/

def twoDigits? (least greatest : Nat) : List Char → Option (Nat × List Char)
  | a :: b :: rest =>
    if isDigit a && isDigit b then
      let n := ofDigits 10 [a, b]
      if least ≤ n ∧ n ≤ greatest then some (n, rest) else none
    else none
  | _ => none

def expect? (c : Char) : List Char → Option (List Char)
  | d :: rest => if c = d then some rest else none
  | [] => none

def skipFraction (input : List Char) : List Char :=
  match input with
  | '.' :: c :: rest => if isDigit c then rest.dropWhile isDigit else input
  | _ => input

def afterTime? (input : List Char) : Option (List Char) := do
  let (_, rest) ← twoDigits? 0 23 input
  let (_, rest) ← twoDigits? 0 59 (← expect? ':' rest)
  let (_, rest) ← twoDigits? 0 59 (← expect? ':' rest)
  return skipFraction rest

def skipOffset (input : List Char) : List Char :=
  match input with
  | c :: rest =>
    if c = 'Z' ∨ c = 'z' then rest
    else if c = '+' ∨ c = '-' then
      (do
        let (_, rest) ← twoDigits? 0 23 rest
        let (_, rest) ← twoDigits? 0 59 (← expect? ':' rest)
        return rest).getD input
    else input
  | [] => []

def skipTime (input : List Char) : List Char :=
  match input with
  | c :: rest =>
    if c = 'T' ∨ c = 't' ∨ c = ' ' then ((afterTime? rest).map skipOffset).getD input else input
  | [] => []

/-- Year, month and day in digits, whether or not the month has that day. -/
def dateDigits? (input : List Char) : Option ((Nat × Nat × Nat) × List Char) := do
  let (high, rest) ← twoDigits? 0 99 input
  let (low, rest) ← twoDigits? 0 99 rest
  let (month, rest) ← twoDigits? 1 12 (← expect? '-' rest)
  let (day, rest) ← twoDigits? 1 31 (← expect? '-' rest)
  return ((high * 100 + low, month, day), rest)

def moment? (input : List Char) : Option (Except Fault (Rest Setting)) :=
  match dateDigits? input with
  | some ((year, month, day), rest) => some <|
    if Calendar.isDate year month day then .ok (.moment, skipTime rest) else malformed
  | none => (afterTime? input).map fun rest => .ok (.moment, rest)

def scalar (input : List Char) : Except Fault (Rest Setting) :=
  match text? input with
  | some read => do
    let (chars, rest) ← read
    return (.text (String.ofList chars), rest)
  | none =>
    match afterStart? "true" input, afterStart? "false" input with
    | some rest, _ => .ok (.bool true, rest)
    | none, some rest => .ok (.bool false, rest)
    | none, none =>
      match moment? input, based? input, decimal? input, special? input with
      | some read, _, _, _ => read
      | none, some (n, rest), _, _ => .ok (.int n, rest)
      | none, none, some read, _ => read
      | none, none, none, some found => .ok found
      | none, none, none, none => malformed

end Dis.Toml

/-! A document while it is being read: its tables so far, and which of them are
closed. Inline tables and arrays are frozen with all that is in them; a table that
has been opened by its header, or by the dotted keys of a section that has ended,
cannot be opened again. -/

namespace Dis.Toml

abbrev Path := List String
abbrev Entries := List (String × Setting)

structure Document where
  root : Entries := []
  opened : List Path := []
  frozen : List Path := []
  -- Tables made by dotted keys of the section that is being read.
  pending : List Path := []

def put (key : String) (value : Setting) : Entries → Entries
  | [] => [(key, value)]
  | (k, v) :: rest => if k = key then (k, value) :: rest else (k, v) :: put key value rest

/-- Applies a change to the table at a path, making the tables on the way. A path
goes on in the last table of an array of tables if `throughLists` is set. -/
def updateAt (throughLists : Bool) (change : Entries → Option Entries) :
    Path → Entries → Option Entries
  | [], entries => change entries
  | key :: path, entries =>
    match entries.lookup key with
    | none => do return put key (.table (← updateAt throughLists change path [])) entries
    | some (.table inner) => do
      return put key (.table (← updateAt throughLists change path inner)) entries
    | some (.list items) =>
      match throughLists, items.getLast? with
      | true, some (.table inner) => do
        let inner ← updateAt throughLists change path inner
        return put key (.list (items.dropLast ++ [.table inner])) entries
      | _, _ => none
    | some _ => none

def addNew (key : String) (value : Setting) (entries : Entries) : Option Entries :=
  if (entries.lookup key).isSome then none else some (entries ++ [(key, value)])

def addItem (key : String) (entries : Entries) : Option Entries :=
  match entries.lookup key with
  | none => some (entries ++ [(key, .list [.table []])])
  | some (.list items) => some (put key (.list (items ++ [.table []])) entries)
  | some _ => none

def isContainer : Setting → Bool
  | .list _ | .table _ => true
  | _ => false

namespace Document

variable (doc : Document)

def isFrozen (path : Path) : Bool := doc.frozen.any (·.isPrefixOf path)

def isOpened (path : Path) : Bool := doc.opened.contains path

def endSection : Document := { doc with opened := doc.pending ++ doc.opened, pending := [] }

def openTable (path : Path) : Option Document := do
  if doc.isOpened path || doc.isFrozen path then none
  else
    let root ← updateAt true some path doc.root
    return { doc with root, opened := path :: doc.opened }

/-- Opens a new item of an array of tables; what was said of the last one is forgotten. -/
def openItem (path : Path) : Option Document := do
  if doc.isFrozen path then none
  else
    let root ← updateAt true (addItem (path.getLast?.getD "")) path.dropLast doc.root
    return { doc with
      root
      opened := path :: doc.opened.filter fun other => !path.isPrefixOf other
      frozen := doc.frozen.filter fun other => !path.isPrefixOf other }

/-- The proper, nonempty beginnings of a dotted key. -/
def beginnings (key : Path) : List Path :=
  (List.range (key.length - 1)).map fun n => key.take (n + 1)

def assign (header key : Path) (value : Setting) : Option Document := do
  let tables := (beginnings key).map (header ++ ·)
  if tables.any doc.isOpened || doc.isFrozen (header ++ key.dropLast) then none
  else
    let root ← updateAt true (addNew (key.getLast?.getD "") value) (header ++ key.dropLast)
      doc.root
    return { doc with
      root
      pending := tables ++ doc.pending
      frozen := if isContainer value then (header ++ key) :: doc.frozen else doc.frozen }

end Document
/-! Reading TOML documents. -/

def skipSpaces (input : List Char) : List Char := input.dropWhile isSpace

def skipComment (input : List Char) : Except Fault (List Char) :=
  match input with
  | '#' :: rest =>
    let (inside, rest) := rest.span (· ≠ '\n')
    if inside.any isControl then malformed else .ok rest
  | _ => .ok input

def skipFiller (fuel : Nat) (input : List Char) : Except Fault (List Char) :=
  match fuel with
  | 0 => .ok input
  | fuel + 1 => do
    let rest ← skipComment (input.dropWhile isSpaceOrNewline)
    if rest.length = input.length then return input else skipFiller fuel rest

def isBare (c : Char) : Bool := c.isAlphanum || c = '_' || c = '-'

def keyPart (input : List Char) : Except Fault (Rest String) :=
  match input with
  | '"' :: rest => do
    let (chars, rest) ← basicText (rest.length + 1) false [] rest
    return (String.ofList chars, rest)
  | '\'' :: rest => do
    let (chars, rest) ← literalText rest
    return (String.ofList chars, rest)
  | _ =>
    match input.span isBare with
    | ([], _) => malformed
    | (chars, rest) => .ok (String.ofList chars, rest)

def keyParts (fuel : Nat) (input : List Char) : Except Fault (Rest Path) :=
  match fuel with
  | 0 => malformed
  | fuel + 1 => do
    let (part, rest) ← keyPart input
    match skipSpaces rest with
    | '.' :: rest => do
      let (parts, rest) ← keyParts fuel (skipSpaces rest)
      return (part :: parts, rest)
    | rest => return ([part], rest)

def key (input : List Char) : Except Fault (Rest Path) := keyParts (input.length + 1) input

def keyAndEquals (input : List Char) : Except Fault (Rest Path) := do
  let (path, rest) ← key input
  match rest with
  | '=' :: rest => return (path, skipSpaces rest)
  | _ => malformed

structure Inline where
  entries : Entries := []
  frozen : List Path := []

namespace Inline

def assign (table : Inline) (path : Path) (value : Setting) : Except Fault Inline :=
  if table.frozen.any (·.isPrefixOf path) then malformed
  else match updateAt false (addNew (path.getLast?.getD "") value) path.dropLast table.entries with
    | none => malformed
    | some entries =>
      .ok ⟨entries, if isContainer value then path :: table.frozen else table.frozen⟩

end Inline

mutual

def value (fuel : Nat) (input : List Char) : Except Fault (Rest Setting) :=
  match fuel with
  | 0 => malformed
  | fuel + 1 =>
    match input with
    | '[' :: rest => do
      let rest ← skipFiller (rest.length + 1) rest
      let (items, rest) ← items fuel [] rest
      return (.list items, rest)
    | '{' :: rest =>
      match skipSpaces rest with
      | '}' :: rest => .ok (.table [], rest)
      | rest => do
        let (entries, rest) ← inlineEntries fuel {} rest
        return (.table entries, rest)
    | _ => scalar input

def items (fuel : Nat) (done : List Setting) (input : List Char) : Except Fault (Rest (List Setting)) :=
  match fuel with
  | 0 => malformed
  | fuel + 1 =>
    match input with
    | ']' :: rest => .ok (done.reverse, rest)
    | _ => do
      let (item, rest) ← value fuel input
      match ← skipFiller (rest.length + 1) rest with
      | ']' :: rest => return ((item :: done).reverse, rest)
      | ',' :: rest => do
        items fuel (item :: done) (← skipFiller (rest.length + 1) rest)
      | _ => malformed

def inlineEntries (fuel : Nat) (table : Inline) (input : List Char) : Except Fault (Rest Entries) :=
  match fuel with
  | 0 => malformed
  | fuel + 1 => do
    let (path, rest) ← keyAndEquals input
    let (item, rest) ← value fuel rest
    let table ← table.assign path item
    match skipSpaces rest with
    | '}' :: rest => return (table.entries, rest)
    | ',' :: rest => inlineEntries fuel table (skipSpaces rest)
    | _ => malformed

end

structure Section where
  doc : Document := {}
  header : Path := []

def orMalformed {α : Type} (x : Option α) : Except Fault α :=
  match x with
  | some a => .ok a
  | none => malformed

def tableHeader (here : Section) (input : List Char) : Except Fault (Rest Section) := do
  let (path, rest) ← key (skipSpaces input)
  let doc ← orMalformed (here.doc.endSection.openTable path)
  match rest with
  | ']' :: rest => return (⟨doc, path⟩, rest)
  | _ => malformed

def itemHeader (here : Section) (input : List Char) : Except Fault (Rest Section) := do
  let (path, rest) ← key (skipSpaces input)
  let doc ← orMalformed (here.doc.endSection.openItem path)
  match rest with
  | ']' :: ']' :: rest => return (⟨doc, path⟩, rest)
  | _ => malformed

def assignment (here : Section) (input : List Char) : Except Fault (Rest Section) := do
  let (path, rest) ← keyAndEquals input
  let (item, rest) ← value (2 * rest.length + 2) rest
  let doc ← orMalformed (here.doc.assign here.header path item)
  return (⟨doc, here.header⟩, rest)

def statement (here : Section) (input : List Char) : Except Fault (Rest Section) :=
  match input with
  | '[' :: '[' :: rest => itemHeader here rest
  | '[' :: rest => tableHeader here rest
  | '#' :: _ => .ok (here, input)
  | _ => assignment here input

def statements (fuel : Nat) (here : Section) (input : List Char) : Except Fault Section :=
  match fuel with
  | 0 => malformed
  | fuel + 1 =>
    match skipSpaces input with
    | [] => .ok here
    | '\n' :: rest => statements fuel here rest
    | line => do
      let (here, rest) ← statement here line
      match ← skipComment (skipSpaces rest) with
      | [] => return here
      | '\n' :: rest => statements fuel here rest
      | _ => malformed

/-- A carriage return before a newline is part of it. -/
def joinLineEnds : List Char → List Char
  | '\r' :: '\n' :: rest => '\n' :: joinLineEnds rest
  | c :: rest => c :: joinLineEnds rest
  | [] => []

def read (text : String) : Except Fault Entries := do
  let input := joinLineEnds text.toList
  let last ← statements (input.length + 1) {} input
  return last.doc.root

end Dis.Toml
