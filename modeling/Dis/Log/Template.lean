import Dis.Log.Event

/-! What can go wrong while arguments are filled into a template. -/

namespace Dis

inductive TemplateFault where
  -- The template ends inside a directive.
  | unfinished
  | keyUnfinished
  -- A key asks for a table where there is none.
  | notATable
  | keyUnknown (key : String)
  -- A sequence, by its kind, is not asked by key.
  | notKeyed (sequence : String)
  | argumentMissing
  | argumentUnused
  | widthTooLarge
  | precisionTooLarge
  -- A precision that leaves no room for a number.
  | precisionTooWide
  -- A width or a precision was to be told by an argument that is no whole number.
  | measureNotWhole
  -- An argument tells a width or a precision that its word, by name, does not hold.
  | measureTooLarge (word : String)
  -- Number marks and the kinds of values that they do not take.
  | notANumber (mark : Char) (kind : String)
  | notWhole (mark : Char) (kind : String)
  | notReal (kind : String)
  | notAnInteger (infinite : Bool)
  | noDouble
  | notACharacter
  | characterRange
  | unknownMark (mark : Char) (index : Nat)
  | outOfMemory
  deriving DecidableEq

namespace TemplateFault

def category : TemplateFault → Error.Category
  | unfinished => .value
  | keyUnfinished => .value
  | keyUnknown _ => .key
  | widthTooLarge => .value
  | precisionTooLarge => .value
  | precisionTooWide => .overflow
  | measureTooLarge _ => .overflow
  | notAnInteger infinite => if infinite then .overflow else .value
  | noDouble => .overflow
  | characterRange => .overflow
  | unknownMark .. => .value
  | outOfMemory => .memory
  | _ => .type

/-- A mark that is not printable in seven bits is not shown. -/
def shownMark (mark : Char) : Char := if 31 ≤ mark.toNat ∧ mark.toNat ≤ 126 then mark else '?'

def message : TemplateFault → String
  | unfinished => "incomplete format"
  | keyUnfinished => "incomplete format key"
  | notATable => "format requires a mapping"
  | keyUnknown key => Quoted.text key
  | notKeyed sequence => s!"{sequence} indices must be integers or slices, not str"
  | argumentMissing => "not enough arguments for format string"
  | argumentUnused => "not all arguments converted during string formatting"
  | widthTooLarge => "width too big"
  | precisionTooLarge => "precision too big"
  | precisionTooWide => "precision too large"
  | measureNotWhole => "* wants int"
  | measureTooLarge word => s!"Python int too large to convert to C {word}"
  | notANumber mark kind => s!"%{mark} format: a real number is required, not {kind}"
  | notWhole mark kind => s!"%{mark} format: an integer is required, not {kind}"
  | notReal kind => s!"must be real number, not {kind}"
  | notAnInteger infinite => noIntegerText infinite
  | noDouble => noDoubleText
  | notACharacter => "%c requires int or char"
  | characterRange => "%c arg not in range(0x110000)"
  | unknownMark mark index =>
    let number := String.ofList (Nat.toDigits 16 mark.toNat)
    s!"unsupported format character '{shownMark mark}' (0x{number}) at index {index}"
  | outOfMemory => ""

end TemplateFault

/-! Directives of a template: a mark `%`, then a key in parentheses, flags, a width, a
precision after a point and a size letter, all of them optional, and the mark that
tells how a value is shown. A doubled `%` is no directive, but the character itself. -/

inductive Measure where
  | fixed (n : Nat)
  | argument
  deriving DecidableEq

inductive DirectiveKey where
  | named (name : List Char)
  -- The template ends before the parenthesis that closes the key.
  | unfinished
  deriving DecidableEq

structure Directive where
  key : Option DirectiveKey
  flags : List Char
  width : Option Measure
  precision : Option Measure
  -- The last character and its index, unless the template ends before it.
  mark : Option (Char × Nat)
  deriving DecidableEq

namespace Directive

variable (d : Directive)

def isLeft : Bool := d.flags.contains '-'
def isSigned : Bool := d.flags.contains '+'
def isSpaced : Bool := d.flags.contains ' '
def isAlternate : Bool := d.flags.contains '#'
def isZeroed : Bool := d.flags.contains '0'

/-- A part of a template, and what follows it. -/
structure Scanned (α : Type) (input : List Char) where
  part : α
  rest : List Char
  suffix : rest <:+ input

variable {α β : Type} {input : List Char}

def Scanned.andThen (first : Scanned α input) (next : Scanned β first.rest) : Scanned β input :=
  ⟨next.part, next.rest, next.suffix.trans first.suffix⟩

def scanWhile (test : Char → Bool) (input : List Char) : Scanned (List Char) input :=
  ⟨input.takeWhile test, input.dropWhile test, List.dropWhile_suffix test⟩

/-- The front up to the parenthesis that closes this many open ones. -/
def closing : (depth : Nat) → List Char → Option (List Char)
  | _, [] => none
  | 0, ')' :: _ => some []
  | depth + 1, ')' :: rest => (closing depth rest).map (')' :: ·)
  | depth, '(' :: rest => (closing (depth + 1) rest).map ('(' :: ·)
  | depth, c :: rest => (closing depth rest).map (c :: ·)

def scanKey (input : List Char) : Scanned (Option DirectiveKey) input :=
  match input with
  | '(' :: inside =>
    match closing 0 inside with
    | some name =>
      ⟨some (.named name), inside.drop (name.length + 1),
        (List.drop_suffix _ inside).trans (List.suffix_cons _ inside)⟩
    | none => ⟨some .unfinished, [], List.nil_suffix⟩
  | rest => ⟨none, rest, List.suffix_rfl⟩

def scanMeasure (input : List Char) : Scanned (Option Measure) input :=
  match input with
  | '*' :: rest => ⟨some .argument, rest, List.suffix_cons _ rest⟩
  | rest =>
    let digits := scanWhile Char.isDigit rest
    let value := digits.part.foldl (fun n c => n * 10 + (c.toNat - '0'.toNat)) 0
    ⟨if digits.part.isEmpty then none else some (.fixed value), digits.rest, digits.suffix⟩

/-- A point and what follows it; a point alone stands for none at all. -/
def scanPrecision (input : List Char) : Scanned (Option Measure) input :=
  match input with
  | '.' :: rest =>
    let measure := scanMeasure rest
    ⟨some (measure.part.getD (.fixed 0)), measure.rest,
      measure.suffix.trans (List.suffix_cons _ rest)⟩
  | rest => ⟨none, rest, List.suffix_rfl⟩

def scanSize (input : List Char) : Scanned Unit input :=
  match input with
  | 'h' :: rest => ⟨(), rest, List.suffix_cons _ rest⟩
  | 'l' :: rest => ⟨(), rest, List.suffix_cons _ rest⟩
  | 'L' :: rest => ⟨(), rest, List.suffix_cons _ rest⟩
  | rest => ⟨(), rest, List.suffix_rfl⟩

def scanMark (total : Nat) (input : List Char) : Scanned (Option (Char × Nat)) input :=
  match input with
  | c :: rest => ⟨some (c, total - input.length), rest, List.suffix_cons _ rest⟩
  | [] => ⟨none, [], List.suffix_rfl⟩

def isFlag (c : Char) : Bool := "-+ #0".toList.contains c

def scan (total : Nat) (input : List Char) : Scanned Directive input :=
  let key := scanKey input
  let flags := key.andThen (scanWhile isFlag key.rest)
  let width := flags.andThen (scanMeasure flags.rest)
  let precision := width.andThen (scanPrecision width.rest)
  let size := precision.andThen (scanSize precision.rest)
  let mark := size.andThen (scanMark total size.rest)
  ⟨⟨key.part, flags.part, width.part, precision.part, mark.part⟩, mark.rest, mark.suffix⟩

end Directive

inductive TemplatePart where
  | character (c : Char)
  | directive (d : Directive)
  deriving DecidableEq

namespace TemplatePart

def scanAll (total : Nat) (input : List Char) : List TemplatePart :=
  match input with
  | [] => []
  | '%' :: '%' :: rest => .character '%' :: scanAll total rest
  | '%' :: rest =>
    let scanned := Directive.scan total rest
    have : (Directive.scan total rest).rest.length ≤ rest.length := scanned.suffix.length_le
    .directive scanned.part :: scanAll total scanned.rest
  | c :: rest => .character c :: scanAll total rest
termination_by input.length

def ofTemplate (template : String) : List TemplatePart :=
  let chars := template.toList
  scanAll chars.length chars

end TemplatePart

/-! Filling arguments into a template. Directives take their values one after another;
a directive with a key takes its value from the table that is the only argument, and
leaves that value as the only one for those that follow. Fillers are only counted, so
a template is refused or filled before a wide text is written out. -/

/-- What a template is filled with: a value for each directive, or one value that stands
alone. -/
inductive Arguments where
  | each (values : List LogValue)
  | alone (value : LogValue)

namespace Arguments

def isVoid : Arguments → Bool
  | each values => values.isEmpty
  | alone value => value.isVoid

end Arguments

namespace Template

/-- The values that are left, and the value that is asked by key, if there is one. -/
structure Supply where
  keyed : Option LogValue
  values : List LogValue

/-- Can a value that stands alone be asked by key? Sequences can, but know none. -/
def isKeyed : LogValue → Bool
  | .list _ | .table _ | .octets _ => true
  | _ => false

def Supply.ofArguments : Arguments → Supply
  | .each values => ⟨none, values⟩
  | .alone value => ⟨if isKeyed value then some value else none, [value]⟩

abbrev Filling := StateT Supply (Except TemplateFault)

def next : Filling LogValue := do
  let supply ← get
  match supply.values with
  | [] => throw .argumentMissing
  | value :: values =>
    set { supply with values }
    return value

def lookUp (name : String) : LogValue → Except TemplateFault LogValue
  | .table entries =>
    match entries.lookup name with
    | some value => .ok value
    | none => .error (.keyUnknown name)
  | .list _ => .error (.notKeyed "list")
  | _ => .error (.notKeyed "byte")

def select : Option DirectiveKey → Filling Unit
  | none => return ()
  | some key => do
    match (← get).keyed, key with
    | none, _ => throw .notATable
    | some _, .unfinished => throw .keyUnfinished
    | some value, .named name =>
      set (⟨some value, [← lookUp (String.ofList name) value]⟩ : Supply)

def told (bits : Nat) (word : String) : Filling Int := do
  match (← next).whole? with
  | none => throw .measureNotWhole
  | some n => if Word.fits bits n then return n else throw (.measureTooLarge word)

/-- The width of a directive, and whether the value is set to its left. A negative
width has the opposite of its number within its word. -/
def widthOf (d : Directive) : Filling (Nat × Bool) := do
  match d.width with
  | none => return (0, d.isLeft)
  | some (.fixed n) => if Word.fits 64 n then return (n, d.isLeft) else throw .widthTooLarge
  | some .argument =>
    let n ← told 64 "ssize_t"
    if n < 0 then return (((-n).bmod (2 ^ 64)).toNat, true) else return (n.toNat, d.isLeft)

def precisionOf (d : Directive) : Filling (Option Nat) := do
  match d.precision with
  | none => return none
  | some (.fixed n) => if Word.fits 32 n then return some n else throw .precisionTooLarge
  | some .argument => return some (← told 32 "int").toNat

def mostInMemory : Nat := 2 ^ 36

/-- What a directive shows of its value, before it is fitted into its width. -/
inductive Shown where
  | text (points : CodePoints)
  -- A number by its sign, the mark of its base and its digits.
  | number (negative : Bool) (base : List Char) (digits : Runs)

def cut (precision : Option Nat) (s : String) : Shown :=
  let points := CodePoints.ofString s
  .text ((precision.map points.take).getD points)

def character (value : LogValue) : Except TemplateFault Shown :=
  match value, value.whole? with
  | .text s, _ =>
    match s.toList with
    | [c] => .ok (.text [c.toNat])
    | _ => .error .notACharacter
  | _, some n => if 0 ≤ n ∧ n < 0x110000 then .ok (.text [n.toNat]) else .error .characterRange
  | _, none => .error .notACharacter

def zeroFilled (precision : Option Nat) (digits : List Char) : Except TemplateFault Runs :=
  let least := precision.getD 0
  if Word.greatest 32 - 3 < least then .error .precisionTooWide
  else .ok (.repeated (least - digits.length) '0' ++ .ofChars digits)

def decimal (mark : Char) (precision : Option Nat) (value : LogValue) :
    Except TemplateFault Shown := do
  let n ←
    match value, value.whole? with
    | _, some n => pure n
    | .float x, none =>
      if x.isFinite then pure x.truncate else throw (.notAnInteger x.isInfinite)
    | _, none => throw (.notANumber mark value.kindName)
  return .number (n < 0) [] (← zeroFilled precision (Nat.toDigits 10 n.natAbs))

def based (mark : Char) (base : Nat) (alternate : Bool) (precision : Option Nat)
    (value : LogValue) : Except TemplateFault Shown :=
  match value.whole? with
  | none => .error (.notWhole mark value.kindName)
  | some n => do
    let digits ← zeroFilled precision (Nat.toDigits base n.natAbs)
    return .number (n < 0) (if alternate then ['0', mark] else [])
      (if mark.isUpper then digits.toUpper else digits)

def double (value : LogValue) : Except TemplateFault Binary64 :=
  match value, value.whole? with
  | .float x, _ => .ok x
  | _, some n =>
    match Binary64.ofInt? n with
    | some x => .ok x
    | none => .error .noDouble
  | _, none => .error (.notReal value.kindName)

def realDigits (mark : Char) (alternate : Bool) (precision : Nat) (x : Binary64) : Runs :=
  if x.isNaN then .ofString "nan"
  else if x.isInfinite then .ofString "inf"
  else match mark.toLower with
    | 'e' => Rounded.scientific alternate precision x
    | 'f' => Rounded.fixed alternate precision x
    | _ => Rounded.general alternate precision x

def real (mark : Char) (alternate : Bool) (precision : Option Nat) (value : LogValue) :
    Except TemplateFault Shown := do
  let x ← double value
  let digits := realDigits mark alternate (precision.getD 6) x
  return .number (x.isNegative && !x.isNaN) []
    (if mark.isUpper then digits.toUpper else digits)

def shown (d : Directive) (precision : Option Nat) (mark : Char) (index : Nat)
    (value : LogValue) : Except TemplateFault Shown :=
  match mark with
  | 's' => .ok (cut precision value.toText)
  | 'r' => .ok (cut precision value.display)
  | 'a' => .ok (cut precision (Quoted.sevenBit value.display))
  | 'c' => character value
  | 'd' | 'i' | 'u' => decimal mark precision value
  | 'o' => based mark 8 d.isAlternate precision value
  | 'x' | 'X' => based mark 16 d.isAlternate precision value
  | 'e' | 'E' | 'f' | 'F' | 'g' | 'G' => real mark d.isAlternate precision value
  | _ => .error (.unknownMark mark index)

/-- Fits what is shown into a width. Zeros stand between the sign and the digits of a
number; blanks stand before or behind all of it. -/
def fit (d : Directive) (width : Nat) (left : Bool) : Shown → Runs
  | .text points =>
    let gap := Runs.repeated (width - points.length) ' '
    if left then .ofPoints points ++ gap else gap ++ .ofPoints points
  | .number negative base digits =>
    let sign :=
      if negative then ['-'] else if d.isSigned then ['+'] else if d.isSpaced then [' '] else []
    let front := Runs.ofChars (sign ++ base)
    let gap := Runs.repeated (width - (front.size + digits.size))
    if left then front ++ digits ++ gap ' '
    else if d.isZeroed then front ++ gap '0' ++ digits
    else gap ' ' ++ front ++ digits

def fillDirective (d : Directive) : Filling Runs := do
  select d.key
  let (width, left) ← widthOf d
  let precision ← precisionOf d
  match d.mark with
  | none => throw .unfinished
  | some (mark, index) =>
    let shown ← shown d precision mark index (← next)
    if mostInMemory < width then throw .outOfMemory
    return fit d width left shown

def fillPart : TemplatePart → Filling Runs
  | .character c => return .ofChars [c]
  | .directive d => fillDirective d

/-- The filled template. Every value needs a place, unless values are asked by key. -/
def fill (template : String) (arguments : Arguments) : Except TemplateFault Runs := do
  let filling := (TemplatePart.ofTemplate template).mapM fillPart
  let (parts, supply) ← filling.run (.ofArguments arguments)
  if supply.keyed.isNone && !supply.values.isEmpty then throw .argumentUnused
  return parts.flatten

def render (template : String) (arguments : Arguments) : Except TemplateFault Runs :=
  if arguments.isVoid then .ok (.ofString template) else fill template arguments

end Template
end Dis
