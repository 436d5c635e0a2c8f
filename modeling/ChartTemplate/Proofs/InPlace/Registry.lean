import Mathlib
import ChartTemplate.Proofs.Helper.Effect
import ChartTemplate.Proofs.InPlace.Scale

/-!
# The registry in place

The operations of the registry as they write to what they find under a name: a scale or an axis that a
method was called on is written back whatever came of it. Each is shown to do what the operation that
runs does, which gives a new registry.
-/

namespace ChartTemplate

open Entries (get?)

/-! ## Axes -/

namespace Axis

def work (m : AxisMethod) (args : List Value) : InPlace Axis AxisError PUnit := do
  let first := args.headD .undefined
  let number (current : Float) : Float := (args.head?.map Value.toNumber).getD current
  match m with
  | .ticks =>
    checkCount args
    modify fun a => { a with tickArguments := args }
  | .tickArguments =>
    let args := first.items?.getD []
    checkCount args
    modify fun a => { a with tickArguments := args }
  | .tickValues => modify fun a => { a with tickValues := first.items? }
  | .tickFormat =>
    match first.text? with
    | none => modify fun a => { a with tickFormat := none }
    | some s =>
      let f ← (NumberFormat.ofText s).mapError AxisError.format
      modify fun a => { a with tickFormat := some f }
  | .tickSize =>
    modify fun a => { a with tickSizeInner := number a.tickSizeInner }
    modify fun a => { a with tickSizeOuter := a.tickSizeInner }
  | .tickSizeInner => modify fun a => { a with tickSizeInner := number a.tickSizeInner }
  | .tickSizeOuter => modify fun a => { a with tickSizeOuter := number a.tickSizeOuter }
  | .tickPadding => modify fun a => { a with tickPadding := number a.tickPadding }
  | .offset => modify fun a => { a with offset := number a.offset }

/-- **A method** writes nothing before it is refused. -/
theorem work_does (m : AxisMethod) (args : List Value) :
    (work m args).Does fun a => liftM ((a.configure m args).map fun a => (a, PUnit.unit)) := by
  refine .of_except fun a => ?_
  unfold work configure
  cases m with
  | ticks =>
    dsimp only
    rw [InPlace.on_liftError_bind]
    cases checkCount args <;> rfl
  | tickArguments =>
    dsimp only
    rw [InPlace.on_liftError_bind]
    cases checkCount _ <;> rfl
  | tickFormat =>
    dsimp only
    cases (args.headD .undefined).text? with
    | none => rfl
    | some s =>
      dsimp only
      rw [InPlace.on_liftError_bind]
      cases NumberFormat.ofText s <;> rfl
  | _ => rfl

end Axis

/-! ## Operations -/

namespace Registry

def withScale (r : Registry) (id : String) (s : Scale) : Registry :=
  { r with scales := Entries.insert r.scales id s }

def withAxis (r : Registry) (id : String) (a : Axis) : Registry :=
  { r with axes := Entries.insert r.axes id a }

/-- Makes a scale under a name that is not taken. -/
def addScaleWork (kind : ScaleKind) (id : String) (args : List Value) :
    InPlace Registry RegistryError Value := do
  if Entries.contains (← get).scales id then throw .redeclared
  let s ← Scale.makeAt kind args
  modify fun r => r.withScale id s
  return .undefined

def useScaleWork (id : String) (v : Value) : InPlace Registry RegistryError Value := do
  let r ← get
  match get? r.scales id with
  | none => throw .wrongScaleId
  | some s =>
    if id.isEmpty then throw .wrongScaleId
    (Scale.applyWork v).onPart s (r.withScale id)

/-- Calls a method of a scale. Without a scale of the name there is no result. -/
def callScaleWork (id : String) (m : ScaleMethod) (args : List Value) :
    InPlace Registry RegistryError Value := do
  let r ← get
  match get? r.scales id with
  | none => return .undefined
  | some s => InPlace.onPart (ExceptT.adapt .scale (Scale.work m args)) s (r.withScale id)

/-- Makes an axis for a scale, in the place of any axis of the name. -/
def addAxisWork (orient : Orient) (id scale : String) : InPlace Registry RegistryError Value := do
  if !Entries.contains (← get).scales scale then throw (.scaleNotFound scale)
  modify fun r => r.withAxis id (Axis.make orient scale)
  return .undefined

def ofAxisError : AxisError → RegistryError
  | .format _ => .wrongFormat
  | .tickCount e => .tickCount e

/-- Changes a setting of an axis, if there is one of the name. -/
def configureAxisWork (id : String) (m : AxisMethod) (args : List Value) :
    InPlace Registry RegistryError Value := do
  let r ← get
  match get? r.axes id with
  | none => return .undefined
  | some a =>
    InPlace.onPart (ExceptT.adapt ofAxisError (Axis.work m args)) a (r.withAxis id)
    return .undefined

/-- The format of a text, which is kept before it is taken. -/
def numberFormatWork (pattern : String) : InPlace Registry RegistryError NumberFormat := do
  if !Entries.contains (← get).numberFormats pattern then
    let f ← (NumberFormat.ofText pattern).mapError fun _ => RegistryError.wrongFormat
    modify fun r => { r with numberFormats := Entries.insert r.numberFormats pattern f }
  match get? (← get).numberFormats pattern with
  | some f => return f
  | none => (Except.error Abort.outOfBounds : Except Abort NumberFormat)

def formatWork (v pattern : Value) : InPlace Registry RegistryError Value := do
  match v, pattern with
  | .null, _ => return .text "null"
  | .number x, .text p =>
    let f ← numberFormatWork p
    let s ← Abort.ofFault (f.format x)
    return .text s
  | _, .text _ => throw .notNumber
  | _, _ => throw .wrongFormat

/-- The pattern of a text, which is kept before it is taken. -/
def datePatternWork (utc : Bool) (pattern : String) : InPlace Registry RegistryError DatePattern := do
  let r ← get
  match get? (if utc then r.utcPatterns else r.localPatterns) pattern with
  | some p => return p
  | none =>
    let p := DatePattern.ofText pattern
    if utc then modify fun r => { r with utcPatterns := Entries.insert r.utcPatterns pattern p }
    else modify fun r => { r with localPatterns := Entries.insert r.localPatterns pattern p }
    return p

/-- The text of an instant in a pattern, in universal time or as local clocks show it; missing for what
is no instant. -/
def formatDateWork (zone : TimeZone) (utc : Bool) (v pattern : Value) :
    InPlace Registry RegistryError Value := do
  match v, pattern with
  | .null, _ => return .text "null"
  | v, .text p =>
    match v.toInstant? with
    | none => return .undefined
    | some t =>
      let f ← datePatternWork utc p
      let offset ← Abort.ofFault (zone.clockOffset utc t)
      return .text (f.format t offset)
  | _, _ => throw .wrongFormat

variable {id : String}

theorem withScale_self {r : Registry} {s : Scale} (h : get? r.scales id = some s) :
    r.withScale id s = r := by
  rw [withScale, Entries.insert_eq_self h]

theorem withAxis_self {r : Registry} {a : Axis} (h : get? r.axes id = some a) :
    r.withAxis id a = r := by
  rw [withAxis, Entries.insert_eq_self h]

theorem addScaleWork_does (kind : ScaleKind) (id : String) (args : List Value) :
    (addScaleWork kind id args).Does fun r => Helper.silent (r.addScale kind id args) := by
  refine .of_eq fun r => ?_
  unfold addScaleWork addScale
  rw [InPlace.on_get_bind]
  cases Entries.contains r.scales id with
  | true => rfl
  | false =>
    rw [Scale.makeAt_eq]
    rfl

theorem useScaleWork_does (id : String) (v : Value) :
    (useScaleWork id v).Does fun r => r.useScale id v := by
  refine .of_eq fun r => ?_
  unfold useScaleWork useScale
  rw [InPlace.on_get_bind]
  cases hs : get? r.scales id with
  | none => rfl
  | some s =>
    dsimp only
    split
    · rfl
    · exact (Scale.applyWork_does v).onPart (withScale_self hs)

theorem callScaleWork_does (id : String) (m : ScaleMethod) (args : List Value) :
    (callScaleWork id m args).Does fun r => r.callScale id m args := by
  refine .of_eq fun r => ?_
  unfold callScaleWork callScale
  rw [InPlace.on_get_bind]
  cases hs : get? r.scales id with
  | none => rfl
  | some s => exact ((Scale.work_does m args).adapt _).onPart (withScale_self hs)

theorem addAxisWork_does (orient : Orient) (id scale : String) :
    (addAxisWork orient id scale).Does fun r => Helper.silent (r.addAxis orient id scale) := by
  refine .of_eq fun r => ?_
  unfold addAxisWork addAxis
  rw [InPlace.on_get_bind]
  cases Entries.contains r.scales scale <;> rfl

theorem configureAxisWork_does (id : String) (m : AxisMethod) (args : List Value) :
    (configureAxisWork id m args).Does fun r => Helper.silent (r.configureAxis id m args) := by
  refine .of_eq fun r => ?_
  unfold configureAxisWork configureAxis
  rw [InPlace.on_get_bind]
  cases ha : get? r.axes id with
  | none => rfl
  | some a =>
    dsimp only
    rw [InPlace.on_bind, ((Axis.work_does m args).adapt _).onPart (withAxis_self ha)]
    cases a.configure m args with
    | ok a => rfl
    | error e => cases e <;> rfl

theorem numberFormatWork_does (pattern : String) :
    (numberFormatWork pattern).Does fun r => liftM (r.numberFormat pattern) := by
  refine .of_except fun r => ?_
  unfold numberFormatWork numberFormat
  rw [InPlace.on_get_bind, Entries.contains_eq_isSome]
  cases hget : get? r.numberFormats pattern with
  -- the format that was kept is looked up once more, and a new one right after it is kept
  | some f =>
    show InPlace.on (match get? r.numberFormats pattern with
      | some f => pure f
      | none => _) r = _
    rw [hget]
    rfl
  | none =>
    cases NumberFormat.ofText pattern with
    | error e => rfl
    | ok f =>
      show InPlace.on (match get? (Entries.insert r.numberFormats pattern f) pattern with
        | some f => pure f
        | none => _) { r with numberFormats := Entries.insert r.numberFormats pattern f } = _
      rw [Entries.get?_insert_self]
      rfl

theorem formatWork_does (v pattern : Value) : (formatWork v pattern).Does fun r => r.format v pattern := by
  refine .of_eq fun r => ?_
  unfold formatWork format
  cases v with
  | null => rfl
  | number x =>
    cases pattern with
    | text p =>
      dsimp only
      rw [InPlace.on_bind, (numberFormatWork_does p).on_eq, Checked.onto_liftError_bind]
      cases r.numberFormat p with
      | error e => rfl
      | ok b =>
        show InPlace.on (liftM (Abort.ofFault (b.2.format x)) >>= fun s => _) b.1 =
          Checked.onto (liftM (b.2.format x) >>= fun s => _) r
        rw [Checked.onto_lift_bind, InPlace.on_lift_bind]
        rfl
    | _ => rfl
  | _ => cases pattern <;> rfl

theorem datePatternWork_on (utc : Bool) (pattern : String) (r : Registry) :
    (datePatternWork utc pattern).on r =
      .ok (.ok (r.datePattern utc pattern).2, (r.datePattern utc pattern).1) := by
  unfold datePatternWork datePattern
  rw [InPlace.on_get_bind]
  cases get? (if utc then r.utcPatterns else r.localPatterns) pattern with
  | some p => rfl
  | none => cases utc <;> rfl

theorem formatDateWork_does (zone : TimeZone) (utc : Bool) (v pattern : Value) :
    (formatDateWork zone utc v pattern).Does fun r => r.formatDate zone utc v pattern := by
  refine .of_eq fun r => ?_
  unfold formatDateWork formatDate
  cases pattern with
  | text p =>
    cases v with
    | null => rfl
    | _ =>
      dsimp only
      cases Value.toInstant? _ with
      | none => rfl
      | some t =>
        dsimp only
        rw [InPlace.on_bind, datePatternWork_on, ok_bind]
        show InPlace.on (liftM (Abort.ofFault (zone.clockOffset utc t)) >>= fun offset => _) _ =
          Checked.onto (liftM (zone.clockOffset utc t) >>= fun offset => _) r
        rw [Checked.onto_lift_bind, InPlace.on_lift_bind]
        rfl
  | _ => cases v <;> rfl

end Registry

end ChartTemplate
