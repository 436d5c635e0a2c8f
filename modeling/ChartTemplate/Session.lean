import ChartTemplate.Options
import ChartTemplate.Spec.Binding
import ChartTemplate.Spec.Mapping
import ChartTemplate.Template.Diagnostic
import ChartTemplate.Template.Hidden

/-!
# Sessions

A session renders one template again and again, against data that change. `Session.render` reveals
the hidden text of its source, renders it, reads the text as a specification and binds that to the
table.

An evaluator keeps a registry, the table and the host of the last rendering, and the template that is
registered under a fixed name. A rendering overwrites all of these first, but for the formats that the
registry keeps and for the slots of the palette, which is the host of a session. The template is read anew
only if the revealed source is another one.

A rendering that is cut off leaves what it has done so far (`Session.left`), unless the stack is full.
-/

namespace ChartTemplate

/-- The size of the picture. -/
structure Viewport where
  width : Float
  height : Float

def RenderOptions.viewport (o : RenderOptions) : Viewport :=
  ⟨Float.ofNat o.width, Float.ofNat o.height⟩

def Viewport.toJson (v : Viewport) : Json :=
  .obj [("width", .ofFloat v.width), ("height", .ofFloat v.height)]

/-- The document that a template sees: global names, and over them the table, its dataset and the
viewport. -/
def rootDocument (table : Table) (viewport : Viewport) (globals : Members) : Json :=
  .obj (Entries.insert (Entries.insert (Entries.insert globals "table" table.toJson) "dataset"
    table.dataset.toJson) "viewport" viewport.toJson)

/-- What a rendering has from the process that it is a part of. -/
structure Process where
  /-- The time zone of local clocks. -/
  zone : TimeZone
  /-- How many templates can be inserted within one another before the stack is full. -/
  room : Nat

/-- A process with universal time, and a stack for a thousand templates. -/
def Process.standard : Process := ⟨.utc, 1000⟩

def sceneOf (table : Table) (viewport : Viewport) (globals : Members)
    (process : Process := .standard) : RenderScene :=
  ⟨table, rootDocument table viewport globals, process.zone, process.room⟩

/-- The state at the start of a rendering: a reset registry and the host as it is. -/
def HelperState.fresh {σ : Type} (s : HelperState σ) : HelperState σ :=
  { s with registry := s.registry.reset }

/-- The outcome of a rendering, and the state that it leaves. -/
abbrev Rendered (σ : Type := Palette) := Except Failure String × HelperState σ

/-- Renders a template that was read, or failed to be. -/
def renderTemplate {σ : Type} [HostServices σ] (t : Except TemplateError Template) (scene : RenderScene)
    (s : HelperState σ) : Except Fault (Rendered σ) := do
  match t with
  | .error e => return (.error (.template e), s)
  | .ok t =>
    let (r, s) ← t.render scene s.fresh
    return (r.mapError Failure.rendering, s)

/-! ## Evaluators -/

/-- What the helpers of an evaluator share. -/
structure RenderState extends HelperState where
  table : Table

/-- An evaluator of templates. -/
structure Evaluator where
  state : RenderState
  /-- The template that is registered under `Rendering.registeredName`. -/
  registered : Option Template

namespace Evaluator

def start : Evaluator := ⟨⟨⟨.empty, .ofColors []⟩, .empty⟩, none⟩

/-- Puts what a rendering is about in the place of what the last one was about. -/
def prepare (e : Evaluator) (t : Template) (table : Table) (host : Palette) : Evaluator :=
  { e with
    state := ⟨⟨e.state.registry.reset, host⟩, table⟩
    registered := some t }

/-- The calls that write the registered template about a document. -/
def calls (e : Evaluator) (root : Json) (room : Nat) : CallTree (Except Failure String) :=
  match e.registered with
  | some t => Except.mapError Failure.rendering <$> t.calls root room
  | none => .done (.error (.rendering ⟨.templateNotFound Rendering.registeredName, none⟩))

def withHelpers (e : Evaluator) (s : HelperState) : Evaluator :=
  { e with state := { e.state with toHelperState := s } }

/-- Renders the registered template. -/
def run (e : Evaluator) (root : Json) (process : Process) :
    Except Fault (Except Failure String × Evaluator) := do
  let (r, s) ← (e.calls root process.room).run e.state.table process.zone e.state.toHelperState
  return (r, e.withHelpers s)

/-- The evaluator that rendering the registered template leaves, even if it is cut off. -/
def left (e : Evaluator) (root : Json) (process : Process) : Evaluator :=
  e.withHelpers ((e.calls root process.room).left e.state.table process.zone e.state.toHelperState)

end Evaluator

/-! ## Sessions -/

structure RenderedChart where
  /-- The text, or the diagnostic in its place. -/
  text : String
  /-- The specification that the text holds, bound to the table. -/
  chart : Json
  /-- Why there is no text. -/
  failure : Option Failure

/-- A template that is rendered against changing data. -/
structure Session where
  source : String
  options : RenderOptions
  host : Palette
  evaluator : Evaluator
  /-- The last revealed source, and the template that it gave. -/
  kept : Option (String × Except TemplateError Template)

namespace Session

def start (source : String) (options : RenderOptions) : Session :=
  ⟨source, options, .ofColors options.palette, .start, none⟩

def setSource (s : Session) (source : String) : Session :=
  { s with source }

/-- The template of the source, and the session that keeps it. -/
def template (s : Session) : Session × Except TemplateError Template :=
  let revealed := reveal s.source
  let anew := Template.ofText? revealed
  match s.kept with
  | some (text, t) =>
    if text == revealed then (s, t) else ({ s with kept := some (revealed, anew) }, anew)
  | none => ({ s with kept := some (revealed, anew) }, anew)

/-- The document that the template of a session sees. -/
def root (s : Session) (table : Table) : Json :=
  rootDocument table s.options.viewport s.options.globals

/-- The session with an evaluator. Its host is the one that the evaluator was given, as it is now. -/
def withEvaluator (s : Session) (e : Evaluator) : Session :=
  { s with host := e.state.host, evaluator := e }

def chartOf (table : Table) (r : Except Failure String) : RenderedChart :=
  match r with
  | .ok text => ⟨text, bind (safeParse text) table, none⟩
  | .error e =>
    let text := e.diagnostic.inlineText
    ⟨text, bind (safeParse text) table, some e⟩

def render (s : Session) (table : Table) (process : Process := .standard) :
    Except Fault (Session × RenderedChart) := do
  let (s, t) := s.template
  match t with
  | .error e => return (s, chartOf table (.error (.template e)))
  | .ok t =>
    let (r, e) ← (s.evaluator.prepare t table s.host).run (s.root table) process
    return (s.withEvaluator e, chartOf table r)

/-- The session that a rendering leaves, even if it is cut off. -/
def left (s : Session) (table : Table) (process : Process) : Session :=
  let (s, t) := s.template
  match t with
  | .error _ => s
  | .ok t => s.withEvaluator ((s.evaluator.prepare t table s.host).left (s.root table) process)

/-- The references of the source to columns that a table does not have. -/
def verify (s : Session) (table : Table) : List Unresolved :=
  ChartTemplate.verify s.source table.names

/-- Gives the references of the source that a mapping names new columns of a table. -/
def apply (s : Session) (mapping : Mapping) (table : Table) : Session :=
  s.setSource (applyMapping s.source mapping table.dataset)

end Session

end ChartTemplate
