import ChartTemplate.Text.Blank
import ChartTemplate.Numeric.Read
import ChartTemplate.Numeric.Rounding
import ChartTemplate.Numeric.Text

/-!
# Colors

`Rgb.ofText?` reads `#rgb`, `#rrggbb`, `rgb(r, g, b)` and some names; `Rgb.css` writes the second to
last form with channels rounded to bytes.
-/

namespace ChartTemplate

/-- A color of three channels, each from 0 to 255. -/
structure Rgb where
  r : Float
  g : Float
  b : Float
deriving DecidableEq

namespace Rgb

/-- The text of a channel, rounded to a byte; zero for NaN. -/
def channelChars (c : Float) : List Char :=
  intChars (clampInt 0 255 (round c))

def css (c : Rgb) : String :=
  String.ofList ("rgb(".toList ++ channelChars c.r ++ ", ".toList ++ channelChars c.g ++
    ", ".toList ++ channelChars c.b ++ [')'])

/-- The color of a number with eight bits a channel. -/
def ofNat (n : Nat) : Rgb :=
  ⟨Float.ofNat (n / 65536 % 256), Float.ofNat (n / 256 % 256), Float.ofNat (n % 256)⟩

/-- The color of a number with four bits a channel. -/
def ofNibbles (n : Nat) : Rgb :=
  ⟨Float.ofNat (n / 256 % 16 * 17), Float.ofNat (n / 16 % 16 * 17), Float.ofNat (n % 16 * 17)⟩

def named : List (String × Nat) :=
  [("black", 0x000000), ("white", 0xffffff), ("red", 0xff0000), ("green", 0x008000),
    ("blue", 0x0000ff), ("yellow", 0xffff00), ("orange", 0xffa500), ("purple", 0x800080),
    ("gray", 0x808080), ("grey", 0x808080), ("steelblue", 0x4682b4), ("brown", 0xa52a2a),
    ("pink", 0xffc0cb), ("cyan", 0x00ffff), ("magenta", 0xff00ff), ("navy", 0x000080)]

/-- The value of a small hexadecimal digit. -/
def hexValue? (c : Char) : Option Nat :=
  if c.isDigit then some (c.toNat - 48)
  else if 'a' ≤ c ∧ c ≤ 'f' then some (c.toNat - 87)
  else none

/-- The number that small hexadecimal digits spell, after an optional plus sign. -/
def readHex? (cs : List Char) : Option Nat :=
  let ds := match cs with
    | '+' :: r => r
    | r => r
  if ds.isEmpty then none
  else ds.foldl (fun acc c => acc.bind fun n => (hexValue? c).map fun d => n * 16 + d) (some 0)

/-- Splits a text at every occurrence of a character. -/
def splitAt (sep : Char) : List Char → List (List Char)
  | [] => [[]]
  | c :: cs =>
    match splitAt sep cs with
    | [] => [[c]]
    | t :: ts => if c = sep then [] :: t :: ts else (c :: t) :: ts

def readChannels? (cs : List Char) : Option Rgb :=
  match (splitAt ',' cs).map fun t => readFloat? (String.ofList (trimChars t)) with
  | [some r, some g, some b] => some ⟨r, g, b⟩
  | _ => none

def ofText? (text : String) : Option Rgb :=
  let cs := (trimChars text.toList).map Char.toLower
  match cs with
  | '#' :: ds =>
    if ds.length = 6 then (readHex? ds).map ofNat
    else if ds.length = 3 then (readHex? ds).map ofNibbles
    else none
  | 'r' :: 'g' :: 'b' :: '(' :: r =>
    if r.getLast? = some ')' then readChannels? r.dropLast else none
  | _ => (named.find? fun p => p.1.toList == cs).map fun p => ofNat p.2

end Rgb

end ChartTemplate
