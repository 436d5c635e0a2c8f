import ChartTemplate.Scale.Band
import ChartTemplate.Scale.Continuous
import ChartTemplate.Scale.Ordinal
import ChartTemplate.Scale.Quantize
import ChartTemplate.Scale.Sequential

/-!
# Scales

A `Scale` maps values of a domain to values of a range. Its settings are changed and read by calling
methods; every kind of scale has its own.
-/

namespace ChartTemplate

inductive Scale where
  /-- A linear, logarithmic, power, radial or time scale. -/
  | continuous (s : Continuous)
  /-- A sequential or diverging scale. -/
  | sequential (s : Sequential)
  /-- A quantize scale. -/
  | quantize (s : Quantize)
  /-- A threshold scale. -/
  | threshold (s : Threshold)
  /-- A band or point scale. -/
  | band (s : Band)
  /-- An ordinal scale. -/
  | ordinal (s : Ordinal)

namespace Scale

def default : ScaleKind → Scale
  | .linear => continuous (.ofTransform .identity)
  | .log => continuous (.ofTransform (.log 10))
  | .pow => continuous (.ofTransform (.pow 1))
  | .radial => continuous (.ofTransform .radial)
  | .time => continuous (.ofTransform .time)
  | .sequential => sequential (.default false)
  | .diverging => sequential (.default true)
  | .quantize => quantize .default
  | .threshold => threshold .default
  | .band => band (.default false)
  | .point => band (.default true)
  | .ordinal => ordinal .default

def kind : Scale → ScaleKind
  | continuous s => s.kind
  | sequential s => s.kind
  | quantize _ => .quantize
  | threshold _ => .threshold
  | band s => s.kind
  | ordinal _ => .ordinal

/-- Calls a method: the scale afterwards, and the result. -/
def call (s : Scale) (m : ScaleMethod) (args : List Value) : Checked ScaleError (Scale × Value) := do
  match s with
  | continuous s =>
    let (s, v) ← s.call m args
    return (continuous s, v)
  | sequential s =>
    let (s, v) ← s.call m args
    return (sequential s, v)
  | quantize s =>
    let (s, v) ← s.call m args
    return (quantize s, v)
  | threshold s =>
    let (s, v) ← s.call m args
    return (threshold s, v)
  | band s =>
    let (s, v) ← s.call m args
    return (band s, v)
  | ordinal s =>
    let (s, v) ← s.call m args
    return (ordinal s, v)

/-- The scale with a domain or range set, which every kind takes. -/
def configure (s : Scale) (m : ScaleMethod) (v : Value) : Scale :=
  match (s.call m [v]).run with
  | .ok (.ok (s, _)) => s
  | _ => s

/-- Makes a scale. One argument sets the range, or the domain of sequential and diverging scales; two
set domain and range. -/
def make (kind : ScaleKind) (args : List Value) : Scale :=
  let s := default kind
  match args with
  | [] => s
  | [v] => s.configure (if kind = .sequential ∨ kind = .diverging then .domain else .range) v
  | d :: r :: _ => (s.configure .domain d).configure .range r

/-- The value of the range for a value of the domain, and the scale afterwards: an ordinal scale may
have extended its domain. -/
def apply (s : Scale) (v : Value) : Except Fault (Scale × Value) :=
  match s with
  | continuous c => (c.apply v).map fun y => (s, y)
  | sequential c => pure (s, c.apply v)
  | quantize c => pure (s, c.apply v)
  | threshold c => pure (s, c.apply v)
  | band c => pure (s, c.apply v)
  | ordinal c =>
    let (c, y) := c.apply v
    pure (ordinal c, y)

/-- The values that an axis marks: ticks where the scale has them, else its domain. -/
def axisValues (s : Scale) (count : Float) : Except Fault (List Value) :=
  match s with
  | continuous c => (c.ticks count).map fun xs => xs.map c.domainValue
  | sequential c =>
    pure (match endsOf? c.domain with
      | some (a, b) => (ticks a b count).map Value.number
      | none => [])
  | quantize c => pure ((ticks c.low c.high count).map Value.number)
  | threshold c => pure (c.domain.map Value.number)
  | band c => pure c.settings.domain
  | ordinal c => pure c.domain

/-- The labels of the values that an axis marks. -/
def tickLabels (s : Scale) (count : Float) (specifier : Option String) : TickLabels :=
  match s with
  | continuous c => c.tickLabels count specifier
  | sequential c =>
    match endsOf? c.domain with
    | some (a, b) => .number (tickFormat a b count specifier)
    | none => .text
  | quantize c => .number (tickFormat c.low c.high count specifier)
  | _ => .text

/-- The numbers of the first and last entry of a range; zeros if it is empty. -/
def rangeEnds (vs : List Value) : Float × Float :=
  match endsOf? vs with
  | some (a, b) => (a.toNumber, b.toNumber)
  | none => (0, 0)

def rangeExtent : Scale → Float × Float
  | continuous s => rangeEnds s.range
  | sequential s => rangeEnds s.range
  | quantize s => rangeEnds s.range
  | threshold s => rangeEnds s.range
  | band s => (s.settings.start, s.settings.stop)
  | ordinal s => rangeEnds s.range

/-- The width of a band; zero for scales without bands. -/
def bandwidth : Scale → Float
  | band s => s.layout.bandwidth
  | _ => 0

def isRounded : Scale → Bool
  | continuous s => s.rounds
  | band s => s.settings.rounds
  | _ => false

end Scale

end ChartTemplate
