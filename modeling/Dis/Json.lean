import Dis.Numeric.Decimal

/-! JSON documents, written without blanks between their parts. -/

namespace Dis

inductive Json where
  | null
  | bool (b : Bool)
  | int (n : Int)
  | float (x : Binary64)
  | text (s : String)
  | list (items : List Json)
  -- Names and values, in order.
  | object (entries : List (String × Json))
  deriving Inhabited

namespace Json

def shortEscape? (c : Char) : Option Char :=
  match c.toNat with
  | 0x08 => some 'b'
  | 0x09 => some 't'
  | 0x0A => some 'n'
  | 0x0C => some 'f'
  | 0x0D => some 'r'
  | _ => none

def escapeChar (c : Char) : List Char :=
  if c = '"' ∨ c = '\\' then ['\\', c]
  else if 0x20 ≤ c.toNat then [c]
  else match shortEscape? c with
    | some short => ['\\', short]
    | none => '\\' :: 'u' :: Quoted.hexDigits 4 c.toNat

def quote (s : String) : String :=
  (s.foldl (fun text c => (escapeChar c).foldl String.push text) "\"").push '"'

/-- Numbers: in place from `0.00001` up to sixteen digits, else with a plain exponent.
There are no infinities. -/
def number : DecimalStyle where
  leastPoint := -4
  greatestPoint := 16
  plusSign := false
  exponentDigits := 1
  infinity := "null"
  nan := "null"

def render : Json → String
  | null => "null"
  | bool b => if b then "true" else "false"
  | int n => toString n
  | float x => if x.isFinite then number.render x else "null"
  | text s => quote s
  | list items => "[" ++ ",".intercalate (renderItems items) ++ "]"
  | object entries => "\x7b" ++ ",".intercalate (renderEntries entries) ++ "\x7d"
where
  renderItems : List Json → List String
    | [] => []
    | item :: rest => render item :: renderItems rest
  renderEntries : List (String × Json) → List String
    | [] => []
    | (name, value) :: rest => (quote name ++ ":" ++ render value) :: renderEntries rest

end Json
end Dis
