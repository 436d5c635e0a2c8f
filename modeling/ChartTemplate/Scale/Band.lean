import ChartTemplate.Scale.Kind

/-!
# Band and point scales

The entries of the domain get evenly spaced positions in the range. Step, bandwidth and positions are
computed anew whenever a setting changes.
-/

namespace ChartTemplate

structure BandSettings where
  /-- Whether the scale has points, which are bands without width. -/
  point : Bool
  /-- The entries of the domain, without repetitions. -/
  domain : List Value
  /-- The first end of the range. -/
  start : Float
  /-- The second end of the range. -/
  stop : Float
  /-- The gap between bands, as a share of the step. -/
  paddingInner : Float
  /-- The gap at the ends, in steps. -/
  paddingOuter : Float
  /-- Where between the ends the bands are put, from zero to one. -/
  align : Float
  /-- Whether step and start are rounded. -/
  rounds : Bool

structure BandLayout where
  /-- The distance of the starts of neighbouring bands. -/
  step : Float
  /-- The width of a band. -/
  bandwidth : Float
  /-- The start of the band of each entry of the domain. -/
  positions : List Float
deriving DecidableEq

def BandSettings.layout (s : BandSettings) : BandLayout :=
  let n := Float.ofNat s.domain.length
  let reverse := s.stop < s.start
  let (start, stop) := if reverse then (s.stop, s.start) else (s.start, s.stop)
  let step := (stop - start) / maxNumber (n - s.paddingInner + s.paddingOuter * 2) 1
  let step := if s.rounds then floor step else step
  let start := start + (stop - start - step * (n - s.paddingInner)) * s.align
  let width := step * (1 - s.paddingInner)
  let start := if s.rounds then round start else start
  let positions := (countUp s.domain.length).map fun i => start + step * i
  { step
    bandwidth := if s.rounds then round width else width
    positions := if reverse then positions.reverse else positions }

structure Band where
  /-- The settings. -/
  settings : BandSettings
  /-- The layout of the latest change. -/
  layout : BandLayout

namespace Band

def ofSettings (s : BandSettings) : Band :=
  ⟨s, s.layout⟩

/-- The scale with its default settings and an empty domain. -/
def default (point : Bool) : Band :=
  ofSettings { point, domain := [], start := 0, stop := 1, paddingInner := if point then 1 else 0,
               paddingOuter := 0, align := 0.5, rounds := false }

def kind (s : Band) : ScaleKind :=
  if s.settings.point then .point else .band

/-- The position of an entry of the domain. -/
def apply (s : Band) (v : Value) : Value :=
  ((s.settings.domain.findIdx? fun d => d.strictEq v).bind fun i =>
    (s.layout.positions[i]?).map Value.number).getD .undefined

/-- The settings with the two numbers of an array as the ends of the range; any other array is
ignored. -/
def withRange (s : BandSettings) (v : Value) : BandSettings :=
  match numbersOf v with
  | [a, b] => { s with start := a, stop := b }
  | _ => s

def call (b : Band) (m : ScaleMethod) (args : List Value) : Except ScaleError (Band × Value) :=
  let s := b.settings
  let set (s : BandSettings) : Except ScaleError (Band × Value) := pure (ofSettings s, .undefined)
  let get (v : Value) : Except ScaleError (Band × Value) := pure (b, v)
  let refuse : Except ScaleError (Band × Value) := throw (.unsupported m b.kind)
  match m, args.head? with
  | .domain, some v => set { s with domain := Value.distinct (v.items?.getD []) }
  | .domain, none => get (.array s.domain)
  | .range, some v => set (withRange s v)
  | .range, none => get (numberArray [s.start, s.stop])
  | .rangeRound, some v => set { withRange s v with rounds := true }
  | .round, some v => set { s with rounds := v.isTruthy }
  | .round, none => get (.bool s.rounds)
  | .align, some v => set { s with align := clampUnit v.toNumber }
  | .align, none => get (.number s.align)
  | .padding, some v =>
    let p := v.toNumber
    set { s with
      paddingInner := if s.point then s.paddingInner else minNumber p 1
      paddingOuter := p }
  | .padding, none => get (.number (if s.point then s.paddingOuter else s.paddingInner))
  | .paddingInner, some v =>
    if s.point then refuse else set { s with paddingInner := minNumber v.toNumber 1 }
  | .paddingInner, none => if s.point then refuse else get (.number s.paddingInner)
  | .paddingOuter, some v => if s.point then refuse else set { s with paddingOuter := v.toNumber }
  | .paddingOuter, none => if s.point then refuse else get (.number s.paddingOuter)
  | .bandwidth, _ => get (.number b.layout.bandwidth)
  | .step, _ => get (.number b.layout.step)
  | _, _ => refuse

end Band

end ChartTemplate
