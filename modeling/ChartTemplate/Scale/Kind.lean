import ChartTemplate.Ticks.Linear
import ChartTemplate.Value.Lists

/-!
# Kinds and methods of scales

The names by which templates make scales and call their methods, and the errors that a method call
can end with.
-/

namespace ChartTemplate

inductive ScaleKind where
  /-- Linear. -/
  | linear
  /-- Logarithmic. -/
  | log
  /-- By a power. -/
  | pow
  /-- Linear in the square of the range. -/
  | radial
  /-- Linear in time. -/
  | time
  /-- Through the stops of a range. -/
  | sequential
  /-- Through the stops of a range, from both sides of a middle. -/
  | diverging
  /-- Equal segments of a domain. -/
  | quantize
  /-- Segments between thresholds. -/
  | threshold
  /-- Bands for the entries of a list. -/
  | band
  /-- Points for the entries of a list. -/
  | point
  /-- Entries of a list onto entries of another. -/
  | ordinal
deriving DecidableEq, Repr

namespace ScaleKind

def helperNames : List (ScaleKind × String) :=
  [(linear, "scaleLinear"), (log, "scaleLog"), (pow, "scalePow"), (radial, "scaleRadial"),
    (time, "scaleTime"), (sequential, "scaleSequential"), (diverging, "scaleDiverging"),
    (quantize, "scaleQuantize"), (threshold, "scaleThreshold"), (band, "scaleBand"),
    (point, "scalePoint"), (ordinal, "scaleOrdinal")]

def ofHelperName? (name : String) : Option ScaleKind :=
  (helperNames.find? fun p => p.2 == name).map Prod.fst

def label : ScaleKind → String
  | linear => "linear"
  | log => "log"
  | pow => "pow"
  | radial => "radial"
  | time => "time"
  | sequential => "sequential"
  | diverging => "diverging"
  | quantize => "quantize"
  | threshold => "threshold"
  | band => "band"
  | point => "point"
  | ordinal => "ordinal"

end ScaleKind

/-- A method of scales. Called with an argument it changes a setting, without one it reads it. -/
inductive ScaleMethod where
  | domain | range | rangeRound | clamp | nice | ticks | invert | unknown | base | exponent
  | padding | paddingInner | paddingOuter | align | round | bandwidth | step | thresholds
  | invertExtent
deriving DecidableEq, Repr

namespace ScaleMethod

def name : ScaleMethod → String
  | domain => "domain"
  | range => "range"
  | rangeRound => "rangeRound"
  | clamp => "clamp"
  | nice => "nice"
  | ticks => "ticks"
  | invert => "invert"
  | unknown => "unknown"
  | base => "base"
  | exponent => "exponent"
  | padding => "padding"
  | paddingInner => "paddingInner"
  | paddingOuter => "paddingOuter"
  | align => "align"
  | round => "round"
  | bandwidth => "bandwidth"
  | step => "step"
  | thresholds => "thresholds"
  | invertExtent => "invertExtent"

def all : List ScaleMethod :=
  [domain, range, rangeRound, clamp, nice, ticks, invert, unknown, base, exponent, padding,
    paddingInner, paddingOuter, align, round, bandwidth, step, thresholds, invertExtent]

def ofName? (s : String) : Option ScaleMethod :=
  all.find? fun m => m.name == s

end ScaleMethod

/-- Why a method call is refused. -/
inductive ScaleError where
  /-- Scales of the kind have no such method. -/
  | unsupported (method : ScaleMethod) (kind : ScaleKind)
  /-- The number of ticks is too great. -/
  | tickCount (e : TickCountError)
deriving DecidableEq

def ScaleError.message : ScaleError → String
  | unsupported method kind => s!"Method {method.name} is not supported by {kind.label} scale"
  | tickCount e => e.message

/-- The number of ticks that the first argument asks for. -/
def countArgument (args : List Value) : Except ScaleError Float :=
  (tickCount (args.headD .undefined)).mapError ScaleError.tickCount

def numbersOf (v : Value) : List Float :=
  (v.items?.getD []).map Value.toNumber

def numberArray (xs : List Float) : Value :=
  .array (xs.map Value.number)

/-- The first and last of a list, if it has any. -/
def endsOf? {α : Type} (xs : List α) : Option (α × α) :=
  match xs with
  | [] => none
  | x :: rest => some (x, rest.getLastD x)

/-- A number kept between bounds, which must be in order. -/
def clampBetween (lo hi x : Float) : Except Fault Float :=
  if lo ≤ hi then pure (if x < lo then lo else if hi < x then hi else x)
  else throw .unorderedBounds

/-- A number kept between zero and one; NaN stays. -/
def clampUnit (x : Float) : Float :=
  if x < 0 then 0 else if 1 < x then 1 else x

end ChartTemplate
