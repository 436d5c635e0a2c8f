import ChartTemplate.Axis.Drawing

/-!
# The registry

The scales, axes and variables that helper calls of one rendering share by name, and formats kept
by their texts. `Registry.reset` drops all but the formats. An operation that is refused leaves the
registry as it was.
-/

namespace ChartTemplate

/-- Named scales, axes and variables, and formats by their texts. -/
structure Registry where
  scales : Entries Scale
  axes : Entries Axis
  values : Entries Value
  /-- The number formats that were used. -/
  numberFormats : Entries NumberFormat
  /-- The date patterns that were used for universal time. -/
  utcPatterns : Entries DatePattern
  /-- The date patterns that were used for local time. -/
  localPatterns : Entries DatePattern

/-- Why an operation is refused. -/
inductive RegistryError where
  /-- There is a scale of the name already. -/
  | redeclared
  /-- There is no scale of the name to be applied. -/
  | wrongScaleId
  /-- There is no scale of the name to draw an axis for. -/
  | scaleNotFound (id : String)
  /-- The pattern is no text, or no format. -/
  | wrongFormat
  /-- The value to be formatted is no number. -/
  | notNumber
  | scale (e : ScaleError)
  | tickCount (e : TickCountError)
deriving DecidableEq

def RegistryError.message : RegistryError → String
  | redeclared => "Scale redeclared"
  | wrongScaleId => "Wrong scale ID"
  | scaleNotFound id => "Scale " ++ id ++ " not found"
  | wrongFormat => "Wrong format"
  | notNumber => "Value is not number"
  | scale e => e.message
  | tickCount e => e.message

namespace Registry

def empty : Registry := ⟨[], [], [], [], [], []⟩

/-- Drops all scales, axes and variables. -/
def reset (r : Registry) : Registry :=
  { r with scales := [], axes := [], values := [] }

/-- Makes a scale under a name that is not taken. -/
def addScale (r : Registry) (kind : ScaleKind) (id : String) (args : List Value) :
    Except RegistryError Registry :=
  if Entries.contains r.scales id then throw .redeclared
  else pure { r with scales := Entries.insert r.scales id (Scale.make kind args) }

def useScale (r : Registry) (id : String) (v : Value) : Checked RegistryError (Registry × Value) := do
  match Entries.get? r.scales id with
  | none => throw .wrongScaleId
  | some s =>
    if id.isEmpty then throw .wrongScaleId
    let (s, y) ← s.apply v
    return ({ r with scales := Entries.insert r.scales id s }, y)

/-- Calls a method of a scale. Without a scale of the name there is no result. -/
def callScale (r : Registry) (id : String) (m : ScaleMethod) (args : List Value) :
    Checked RegistryError (Registry × Value) := do
  match Entries.get? r.scales id with
  | none => return (r, .undefined)
  | some s =>
    let (s, v) ← (s.call m args).adapt RegistryError.scale
    return ({ r with scales := Entries.insert r.scales id s }, v)

/-- Makes an axis for a scale, in the place of any axis of the name. -/
def addAxis (r : Registry) (orient : Orient) (id scale : String) : Except RegistryError Registry :=
  if Entries.contains r.scales scale then
    pure { r with axes := Entries.insert r.axes id (Axis.make orient scale) }
  else throw (.scaleNotFound scale)

/-- Changes a setting of an axis, if there is one of the name. -/
def configureAxis (r : Registry) (id : String) (m : AxisMethod) (args : List Value) :
    Except RegistryError Registry :=
  match Entries.get? r.axes id with
  | none => pure r
  | some a =>
    match a.configure m args with
    | .ok a => pure { r with axes := Entries.insert r.axes id a }
    | .error (.format _) => throw .wrongFormat
    | .error (.tickCount e) => throw (.tickCount e)

/-- The markup of an axis; missing if there is none of the name. -/
def drawAxis (r : Registry) (id : String) : Checked RegistryError Value := do
  match Entries.get? r.axes id with
  | none => return .undefined
  | some a =>
    match Entries.get? r.scales a.scale with
    | none => throw (.scaleNotFound a.scale)
    | some s =>
      let markup ← a.render s
      return .text markup

def setVariable (r : Registry) (name : String) (v : Value) : Registry :=
  { r with values := Entries.insert r.values name v }

def getVariable (r : Registry) (name : String) : Value :=
  (Entries.get? r.values name).getD .undefined

/-- The format of a text, from the ones kept or made anew, and the registry that keeps it. -/
def numberFormat (r : Registry) (pattern : String) :
    Except RegistryError (Registry × NumberFormat) :=
  match Entries.get? r.numberFormats pattern with
  | some f => pure (r, f)
  | none =>
    match NumberFormat.ofText pattern with
    | .ok f => pure ({ r with numberFormats := Entries.insert r.numberFormats pattern f }, f)
    | .error _ => throw .wrongFormat

def format (r : Registry) (v pattern : Value) : Checked RegistryError (Registry × Value) := do
  match v, pattern with
  | .null, _ => return (r, .text "null")
  | .number x, .text p =>
    let (r, f) ← r.numberFormat p
    let s ← f.format x
    return (r, .text s)
  | _, .text _ => throw .notNumber
  | _, _ => throw .wrongFormat

/-- The pattern of a text, from the ones kept or made anew, and the registry that keeps it. -/
def datePattern (r : Registry) (utc : Bool) (pattern : String) : Registry × DatePattern :=
  match Entries.get? (if utc then r.utcPatterns else r.localPatterns) pattern with
  | some p => (r, p)
  | none =>
    let p := DatePattern.ofText pattern
    if utc then ({ r with utcPatterns := Entries.insert r.utcPatterns pattern p }, p)
    else ({ r with localPatterns := Entries.insert r.localPatterns pattern p }, p)

/-- The text of an instant in a pattern, in universal time or as local clocks show it; missing for what
is no instant. -/
def formatDate (r : Registry) (zone : TimeZone) (utc : Bool) (v pattern : Value) :
    Checked RegistryError (Registry × Value) := do
  match v, pattern with
  | .null, _ => return (r, .text "null")
  | v, .text p =>
    match v.toInstant? with
    | none => return (r, .undefined)
    | some t =>
      let (r, f) := r.datePattern utc p
      let offset ← zone.clockOffset utc t
      return (r, .text (f.format t offset))
  | _, _ => throw .wrongFormat

/-! ## Kept formats -/

def keepNumberFormat (r : Registry) (pattern : Value) : Registry :=
  match pattern with
  | .text p =>
    match r.numberFormat p with
    | .ok (r, _) => r
    | .error _ => r
  | _ => r

def keepDatePattern (r : Registry) (utc : Bool) (pattern : Value) : Registry :=
  match pattern with
  | .text p => (r.datePattern utc p).1
  | _ => r

end Registry

end ChartTemplate
