import Mathlib
import ChartTemplate.Proofs.Template.Kept
import ChartTemplate.Session

/-!
# Sessions and their history

A session keeps a template that was read, an evaluator and a palette from one rendering to the next, also
from one that fails or is cut off. `Session.Sound` is the invariant of its calls: the template is the one of
the text it is kept for, the registry keeps what texts give, and the palette has the colors of the options.
Of all that, renderings see the slots of keys, and nothing else: after any calls, a session renders as a new
one does (`render_after`).

A rendering puts its own table, host and template in the place of those of the last one, and resets the
registry. So the states that two sessions render from are alike, and what they leave is.
-/

namespace ChartTemplate

theorem Palette.colors_color (p : Palette) (key : String) : (p.color key).1.colors = p.colors := by
  unfold color
  split <;> rfl

/-! ## Evaluators -/

namespace Evaluator

variable {e e' : Evaluator}

/-- The evaluators cannot be told apart by what they render. -/
structure Alike (e e' : Evaluator) : Prop where
  helpers : e.state.toHelperState.Alike e'.state.toHelperState
  table : e.state.table = e'.state.table
  registered : e.registered = e'.registered

/-- **Prepared evaluators** are alike, whatever they rendered before. -/
theorem prepare_alike (h : e.state.registry.Compiled) (h' : e'.state.registry.Compiled) (t : Template)
    (table : Table) (host : Palette) : (e.prepare t table host).Alike (e'.prepare t table host) :=
  ⟨⟨h.alike_reset.trans h'.alike_reset.symm, rfl⟩, rfl, rfl⟩

theorem Alike.calls (h : e.Alike e') (root : Json) (room : Nat) :
    e.calls root room = e'.calls root room := by
  rw [Evaluator.calls, Evaluator.calls, h.registered]

theorem Alike.run (h : e.Alike e') (root : Json) (process : Process) :
    Prod.fst <$> e.run root process = Prod.fst <$> e'.run root process := by
  have hrun := (e.calls root process.room).run_alike e.state.table process.zone h.helpers
  rw [h.calls, h.table] at hrun
  unfold Evaluator.run
  rw [h.calls, h.table]
  refine (hrun.bind fun a b hab => .ok ?_).map_eq fun _ _ hab => hab
  exact hab.1

theorem Alike.left (h : e.Alike e') (root : Json) (process : Process) :
    (e.left root process).Alike (e'.left root process) := by
  refine ⟨?_, h.table, h.registered⟩
  show ((e.calls root process.room).left e.state.table process.zone _).Alike
    ((e'.calls root process.room).left e'.state.table process.zone _)
  rw [h.calls, h.table]
  exact CallTree.left_alike _ _ _ h.helpers

/-- What a rendering with a result leaves is the evaluator that comes with it. -/
theorem left_of_run {root : Json} {process : Process} {r : Except Failure String}
    (h : e.run root process = .ok (r, e')) : e.left root process = e' := by
  unfold Evaluator.run at h
  cases hrun : (e.calls root process.room).run e.state.table process.zone e.state.toHelperState with
  | error f =>
    rw [hrun] at h
    cases h
  | ok a =>
    obtain ⟨r', u⟩ := a
    rw [hrun] at h
    cases h
    rw [Evaluator.left, CallTree.left_of_run hrun]

theorem left_colors (e : Evaluator) (root : Json) (process : Process) :
    (e.left root process).state.host.colors = e.state.host.colors :=
  CallTree.left_host (P := fun p : Palette => p.colors = e.state.host.colors)
    (fun p key hp => (p.colors_color key).trans hp) _ rfl

end Evaluator

/-! ## Calls -/

inductive SessionCall where
  | render (table : Table) (process : Process)
  | setSource (source : String)
  | verify (table : Table)
  | apply (mapping : Mapping) (table : Table)

namespace Session

/-- The session after a call. One that is cut off leaves it, unless the process ends. -/
def call (s : Session) : SessionCall → Option Session
  | .render table process =>
    match s.render table process with
    | .ok (s, _) => some s
    | .error f => if f.endsProcess then none else some (s.left table process)
  | .setSource source => some (s.setSource source)
  | .verify _ => some s
  | .apply mapping table => some (s.apply mapping table)

def after (s : Session) (calls : List SessionCall) : Option Session :=
  calls.foldlM call s

def sourceAfter (source : String) : SessionCall → String
  | .setSource source => source
  | .apply mapping table => applyMapping source mapping table.dataset
  | _ => source

/-- A new session in which keys have slots already. -/
def resumed (source : String) (options : RenderOptions) (assigned : Entries Nat) : Session :=
  { start source options with host := { Palette.ofColors options.palette with assigned } }

/-- What is seen of a rendering: the chart, or why it is cut off, and the palette afterwards. -/
def seen (s : Session) (table : Table) (process : Process) : Except Fault RenderedChart × Palette :=
  (Prod.snd <$> s.render table process, (s.left table process).host)

/-- The invariant of a session with given options. -/
structure Sound (o : RenderOptions) (s : Session) : Prop where
  options : s.options = o
  compiled : s.evaluator.state.registry.Compiled
  colors : s.host.colors = (Palette.ofColors o.palette).colors
  kept : ∀ text t, s.kept = some (text, t) → t = Template.ofText? text

variable {source : String} {options : RenderOptions} {s s' : Session} {table : Table} {process : Process}

/-! ### One rendering -/

theorem template_fst (s : Session) : ∃ kept, s.template.1 = { s with kept } := by
  unfold template
  dsimp only
  split
  · split
    · exact ⟨s.kept, rfl⟩
    · exact ⟨_, rfl⟩
  · exact ⟨_, rfl⟩

theorem snd_render_eq {t : Template} (ht : s.template.2 = .ok t) (table : Table) (process : Process) :
    Prod.snd <$> s.render table process = chartOf table <$> Prod.fst <$>
      (s.evaluator.prepare t table s.host).run (s.root table) process := by
  obtain ⟨kept, hkept⟩ := s.template_fst
  unfold render
  generalize s.template = u at ht hkept
  obtain ⟨u, t'⟩ := u
  dsimp only at ht hkept
  subst ht hkept
  show Prod.snd <$> ((s.evaluator.prepare t table s.host).run (s.root table) process >>= _) = _
  cases (s.evaluator.prepare t table s.host).run (s.root table) process <;> rfl

theorem snd_render_of_error {e : TemplateError} (he : s.template.2 = .error e) (table : Table)
    (process : Process) :
    Prod.snd <$> s.render table process = .ok (chartOf table (.error (.template e))) := by
  unfold render
  generalize s.template = u at he
  obtain ⟨u, t'⟩ := u
  dsimp only at he
  subst he
  rfl

/-! ### The invariant -/

theorem sound_resumed (source : String) (options : RenderOptions) (assigned : Entries Nat) :
    (resumed source options assigned).Sound options :=
  ⟨rfl, Registry.compiled_empty, rfl, fun _ _ h => nomatch h⟩

theorem sound_start (source : String) (options : RenderOptions) :
    (start source options).Sound options :=
  sound_resumed source options []

theorem Sound.setSource (h : s.Sound options) (source : String) :
    (s.setSource source).Sound options :=
  ⟨h.options, h.compiled, h.colors, h.kept⟩

/-- The template of a session is the one of its source, whether it was kept or not. -/
theorem template_eq (h : s.Sound options) :
    ∃ kept, (∀ text t, kept = some (text, t) → t = Template.ofText? text) ∧
      s.template = ({ s with kept }, Template.ofText? (reveal s.source)) := by
  have hanew : ∀ text t, some (reveal s.source, Template.ofText? (reveal s.source)) = some (text, t) →
      t = Template.ofText? text := by
    rintro text t ⟨⟩
    rfl
  unfold template
  cases hkept : s.kept with
  | none => exact ⟨_, hanew, rfl⟩
  | some k =>
    obtain ⟨text, t⟩ := k
    have ht := h.kept text t hkept
    dsimp only
    split
    · rename_i htext
      refine ⟨s.kept, h.kept, ?_⟩
      rw [ht, beq_iff_eq.1 htext]
    · exact ⟨_, hanew, rfl⟩

theorem template_snd (h : s.Sound options) : s.template.2 = Template.ofText? (reveal s.source) := by
  obtain ⟨kept, -, heq⟩ := template_eq h
  rw [heq]

theorem left_eq (h : s.Sound options) {t : Template} (ht : Template.ofText? (reveal s.source) = .ok t)
    (table : Table) (process : Process) :
    ∃ kept, (∀ text t, kept = some (text, t) → t = Template.ofText? text) ∧
      s.left table process = { s with kept }.withEvaluator
        ((s.evaluator.prepare t table s.host).left (s.root table) process) := by
  obtain ⟨kept, hkept, htemplate⟩ := template_eq h
  refine ⟨kept, hkept, ?_⟩
  unfold left
  rw [htemplate, ht]
  rfl

theorem render_eq_of_error (h : s.Sound options) {e : TemplateError}
    (he : Template.ofText? (reveal s.source) = .error e) (table : Table) (process : Process) :
    ∃ kept, (∀ text t, kept = some (text, t) → t = Template.ofText? text) ∧
      s.left table process = { s with kept } ∧
      s.render table process = .ok ({ s with kept }, chartOf table (.error (.template e))) := by
  obtain ⟨kept, hkept, htemplate⟩ := template_eq h
  refine ⟨kept, hkept, ?_, ?_⟩
  · unfold left
    rw [htemplate, he]
  · unfold render
    rw [htemplate, he]
    rfl

/-- **Two sessions** with the same options, source and palette render alike, and leave the same palette. -/
theorem seen_eq (h : s.Sound options) (h' : s'.Sound options) (hsource : s.source = s'.source)
    (hhost : s.host = s'.host) (table : Table) (process : Process) :
    s.seen table process = s'.seen table process := by
  have hroot : s.root table = s'.root table := by rw [root, root, h.options, h'.options]
  unfold seen
  cases ht' : Template.ofText? (reveal s'.source) with
  | error e =>
    have ht : Template.ofText? (reveal s.source) = .error e := by rw [hsource, ht']
    obtain ⟨kept, -, hleft, hrender⟩ := render_eq_of_error h ht table process
    obtain ⟨kept', -, hleft', hrender'⟩ := render_eq_of_error h' ht' table process
    rw [hleft, hrender, hleft', hrender']
    exact congrArg _ hhost
  | ok t =>
    have ht : Template.ofText? (reveal s.source) = .ok t := by rw [hsource, ht']
    have halike := Evaluator.prepare_alike h.compiled h'.compiled t table s.host
    obtain ⟨kept, -, hleft⟩ := left_eq h ht table process
    obtain ⟨kept', -, hleft'⟩ := left_eq h' ht' table process
    rw [snd_render_eq ((template_snd h).trans ht), snd_render_eq ((template_snd h').trans ht'), hleft,
      hleft', ← hroot, ← hhost, halike.run (s.root table) process]
    exact congrArg _ (halike.left (s.root table) process).helpers.host

theorem left_of_render {c : RenderedChart} (h : s.render table process = .ok (s', c)) :
    s.left table process = s' := by
  unfold render at h
  unfold left
  generalize s.template = u at h ⊢
  obtain ⟨u, t⟩ := u
  cases t with
  | error e =>
    cases h
    rfl
  | ok t =>
    dsimp only at h ⊢
    cases hrun : (u.evaluator.prepare t table u.host).run (u.root table) process with
    | error f =>
      rw [hrun] at h
      cases h
    | ok a =>
      rw [hrun] at h
      cases h
      rw [Evaluator.left_of_run hrun]

/-- **A rendering** keeps the invariant, whether it has a result or is cut off. -/
theorem sound_left (h : s.Sound options) (table : Table) (process : Process) :
    (s.left table process).Sound options ∧ (s.left table process).source = s.source := by
  cases ht : Template.ofText? (reveal s.source) with
  | error e =>
    obtain ⟨kept, hkept, hleft, -⟩ := render_eq_of_error h ht table process
    rw [hleft]
    exact ⟨⟨h.options, h.compiled, h.colors, hkept⟩, rfl⟩
  | ok t =>
    obtain ⟨kept, hkept, hleft⟩ := left_eq h ht table process
    have halike := Evaluator.prepare_alike h.compiled h.compiled t table s.host
    have hcompiled := (halike.left (s.root table) process).helpers.registry.compiled
    have hcolors := Evaluator.left_colors (s.evaluator.prepare t table s.host) (s.root table) process
    rw [hleft]
    exact ⟨⟨h.options, hcompiled, hcolors.trans h.colors, hkept⟩, rfl⟩

theorem call_of_render {c : RenderedChart} (h : s.render table process = .ok (s', c)) :
    s.call (.render table process) = some s' := by
  rw [call, h]

theorem call_render (h : s.call (.render table process) = some s') : s' = s.left table process := by
  rw [call] at h
  split at h
  · rename_i hrender
    cases h
    exact (left_of_render hrender).symm
  · split at h
    · cases h
    · exact (Option.some.inj h).symm

theorem sound_call (h : s.Sound options) {c : SessionCall} (hcall : s.call c = some s') :
    s'.Sound options ∧ s'.source = sourceAfter s.source c := by
  cases c with
  | render table process =>
    obtain rfl := call_render hcall
    exact sound_left h table process
  | setSource source =>
    obtain rfl := Option.some.inj hcall
    exact ⟨h.setSource source, rfl⟩
  | verify table =>
    obtain rfl := Option.some.inj hcall
    exact ⟨h, rfl⟩
  | apply mapping table =>
    obtain rfl := Option.some.inj hcall
    exact ⟨h.setSource _, rfl⟩

theorem after_cons {c : SessionCall} (h : s.call c = some s') (calls : List SessionCall) :
    s.after (c :: calls) = s'.after calls := by
  rw [after, List.foldlM_cons, h]
  rfl

theorem sound_after (h : s.Sound options) {calls : List SessionCall}
    (hafter : s.after calls = some s') :
    s'.Sound options ∧ s'.source = calls.foldl sourceAfter s.source := by
  induction calls generalizing s with
  | nil =>
    obtain rfl := Option.some.inj hafter
    exact ⟨h, rfl⟩
  | cons c calls ih =>
    cases hcall : s.call c with
    | none =>
      rw [after, List.foldlM_cons, hcall] at hafter
      cases hafter
    | some t =>
      rw [after_cons hcall] at hafter
      obtain ⟨ht, hsource⟩ := sound_call h hcall
      rw [List.foldl_cons, ← hsource]
      exact ih ht hafter

/-- **The history of a session** is not seen: after any calls that do not end the process, be it that
renderings among them failed or were cut off, a rendering gives the chart and leaves the palette that it
does for a new session with the same options, the source that the calls led to, and the same slots for
keys. -/
theorem render_after {calls : List SessionCall} (h : (start source options).after calls = some s)
    (table : Table) (process : Process) :
    s.seen table process =
      (resumed (calls.foldl sourceAfter source) options s.host.assigned).seen table process := by
  obtain ⟨hsound, hsource⟩ := sound_after (sound_start source options) h
  have hhost : s.host = (resumed (calls.foldl sourceAfter source) options s.host.assigned).host := by
    cases hs : s.host with
    | mk colors assigned =>
      have hcolors := hsound.colors
      rw [hs] at hcolors
      exact congrArg (Palette.mk · assigned) hcolors
  exact seen_eq hsound (sound_resumed _ options _) hsource hhost table process

/-! ## A session that went through much -/

theorem run_of_render_eq_error {t : Template} {f : Fault} (ht : s.template.2 = .ok t)
    (h : s.render table process = .error f) :
    (s.evaluator.prepare t table s.host).run (s.root table) process = .error f := by
  have hsnd := snd_render_eq ht table process
  rw [h] at hsnd
  cases hrun : (s.evaluator.prepare t table s.host).run (s.root table) process with
  | error f' =>
    rw [hrun] at hsnd
    cases hsnd
    rfl
  | ok a =>
    rw [hrun] at hsnd
    cases hsnd

theorem call_render_eq (h : s.Sound options) {t : Template}
    (ht : Template.ofText? (reveal s.source) = .ok t)
    (hroom : (s.evaluator.prepare t table s.host).run (s.root table) process ≠ .error .fullStack) :
    ∃ kept, s.call (.render table process) = some ({ s with kept }.withEvaluator
      ((s.evaluator.prepare t table s.host).left (s.root table) process)) := by
  obtain ⟨kept, -, hleft⟩ := left_eq h ht table process
  refine ⟨kept, ?_⟩
  rw [call, ← hleft]
  cases hrender : s.render table process with
  | ok a => rw [left_of_render hrender]
  | error f =>
    have hfault := run_of_render_eq_error ((template_snd h).trans ht) hrender
    cases f with
    | fullStack => exact absurd hfault hroom
    | _ => rfl

def twoColors : RenderOptions := ⟨800, 600, ["red", "green"], []⟩

/-- Clocks that are an hour ahead. -/
def hourAhead : TimeZone := ⟨fun _ => 3600, fun _ => by decide⟩

/-- The text of a template that shows the last second of all dates. -/
def timing : String := "\x7b\x7btimeFormat 8210266876799000 \"%Y\"\x7d\x7d"

def unclosed : String := "\x7b\x7b#if x\x7d\x7d"

/-- The text of a template that inserts itself, and then keeps the color of a key. -/
def inserting : String :=
  "\x7b\x7b#if last\x7d\x7d" ++ "\x7b\x7bvar \"w\" (useColor \"a\")\x7d\x7d" ++
    "\x7b\x7belse\x7d\x7d" ++ "\x7b\x7b> chart last=true\x7d\x7d" ++ "\x7b\x7b/if\x7d\x7d"

def timingTemplate : Template :=
  [(some ⟨1, 1⟩, .value true (.call "timeFormat"
    [(none, .literal (.num (.int 8210266876799000))), (none, .literal (.str "%Y"))]))]

def insertingTemplate : Template :=
  [(some ⟨1, 1⟩, .block ⟨"if", [(none, .reference ⟨"last", [.key "last"]⟩)], []⟩
    [(some ⟨1, 13⟩, .value true (.call "var" [(none, .literal (.str "w")),
      (none, .call "useColor" [(none, .literal (.str "a"))])]))]
    [(some ⟨1, 47⟩, .insertion (.literal (.str "chart"))
      [(some "last", .literal (.bool true))] none)])]

/-- A rendering that is cut off, one that fails, and one that inserts the template itself. -/
def usedCalls : List SessionCall :=
  [.render .empty ⟨hourAhead, 0⟩, .setSource unclosed, .render .empty .standard, .setSource inserting,
    .render .empty .standard]

/-- Local clocks have nothing to show. -/
theorem timeFormat_cutOff (s : HelperState) :
    (Helper.timeFormat.call .empty s [Value.ofJson (.num (.int 8210266876799000)), .text "%Y"]
      hourAhead).run = .error .dateRange := by
  have hinstant : (Value.ofJson (.num (.int 8210266876799000))).toInstant? =
      some ⟨8210266876799, 0⟩ := by decide +kernel
  have hclock : hourAhead.Dateless ⟨8210266876799, 0⟩ := rfl
  exact (s.settle_run_eq_error_iff _).2
    ((Registry.formatDate_eq_error_iff _ _ _ _).2 ⟨_, _, hinstant, rfl, rfl, hclock, rfl⟩)

/-- The state that the first rendering leaves: it keeps the pattern. -/
def timed : HelperState :=
  ⟨Registry.empty.keepDatePattern false (.text "%Y"), .ofColors ["red", "green"]⟩

/-- The state that the last rendering leaves. -/
def inserted : HelperState :=
  ⟨{ timed.registry with values := [("w", .text "red")] }, ⟨["red", "green"], [("a", 0)]⟩⟩

theorem run_timing (root : Json) :
    let e := Evaluator.start.prepare timingTemplate .empty (.ofColors ["red", "green"])
    e.run root ⟨hourAhead, 0⟩ = .error .dateRange ∧
      e.left root ⟨hourAhead, 0⟩ = e.withHelpers timed := by
  intro e
  obtain ⟨next, hcalls⟩ : ∃ next, e.calls root 0 =
    .call .timeFormat [Value.ofJson (.num (.int 8210266876799000)), .text "%Y"] next := ⟨_, rfl⟩
  have hfault := timeFormat_cutOff e.state.toHelperState
  constructor
  · show ((e.calls root 0).run .empty hourAhead e.state.toHelperState >>= _) = _
    rw [hcalls, CallTree.run_of_fault hfault]
    rfl
  · show e.withHelpers ((e.calls root 0).left .empty hourAhead e.state.toHelperState) = _
    rw [hcalls, CallTree.left, hfault]
    rfl

theorem run_inserting (e : Evaluator) (he : e.state.registry = timed.registry) :
    let e := e.prepare insertingTemplate .empty timed.host
    e.run (rootDocument .empty twoColors.viewport []) .standard = .ok (.ok "", e.withHelpers inserted) := by
  intro e'
  have hcolor : (Helper.useColor.call .empty e'.state.toHelperState [.text "a"]).run =
      .ok (.ok (⟨timed.registry, inserted.host⟩, .text "red")) := by
    show Except.ok (Except.ok (HelperState.mk e.state.registry.reset inserted.host, _)) = _
    rw [he]
    rfl
  have hvariable : (Helper.setVariable.call .empty ⟨timed.registry, inserted.host⟩
      [.text "w", .text "red"]).run = .ok (.ok (inserted, .undefined)) := rfl
  obtain ⟨next, hcalls, next', hnext, hdone⟩ : ∃ next,
      e'.calls (rootDocument .empty twoColors.viewport []) 1000 = .call .useColor [.text "a"] next ∧
      ∃ next', next (.ok (.text "red")) = .call .setVariable [.text "w", .text "red"] next' ∧
        next' (.ok .undefined) = .done (.ok "") := ⟨_, rfl, _, rfl, rfl⟩
  show ((e'.calls (rootDocument .empty twoColors.viewport []) 1000).run .empty .utc
    e'.state.toHelperState >>= _) = _
  rw [hcalls, CallTree.run_of_answered hcolor, hnext, CallTree.run_of_answered hvariable, hdone]
  rfl

/-- A session that keeps a pattern of a rendering that was cut off, and a variable and a slot of another. -/
theorem render_after_usedCalls :
    ∃ s, (start timing twoColors).after usedCalls = some s ∧ s.host.assigned = [("a", 0)] ∧
      Entries.keys s.evaluator.state.registry.values = ["w"] ∧
      Entries.keys s.evaluator.state.registry.localPatterns = ["%Y"] ∧
      s.seen .empty .standard = (resumed (usedCalls.foldl sourceAfter timing) twoColors
        s.host.assigned).seen .empty .standard := by
  have htiming : Template.ofText? (reveal timing) = .ok timingTemplate := by cbv
  have hunclosed : Template.ofText? (reveal unclosed) = .error .unreadable := by cbv
  have hinserting : Template.ofText? (reveal inserting) = .ok insertingTemplate := by cbv
  -- the first rendering is cut off
  have hstart := sound_start timing twoColors
  obtain ⟨hcut, hleft⟩ := run_timing ((start timing twoColors).root .empty)
  obtain ⟨kept₁, hcall₁⟩ : ∃ kept,
      (start timing twoColors).call (.render .empty ⟨hourAhead, 0⟩) =
        some ⟨timing, twoColors, timed.host, ⟨⟨timed, .empty⟩, some timingTemplate⟩, kept⟩ := by
    obtain ⟨kept, hcall⟩ := call_render_eq hstart htiming fun h => by cases hcut.symm.trans h
    refine ⟨kept, hcall.trans ?_⟩
    exact congrArg (fun e => some (withEvaluator { start timing twoColors with kept } e)) hleft
  -- the second one fails, and leaves the evaluator alone
  have hsound₁ := (sound_call hstart hcall₁).1.setSource unclosed
  obtain ⟨kept₂, -, -, hrender⟩ := render_eq_of_error hsound₁ hunclosed .empty .standard
  have hcall₂ := call_of_render hrender
  -- the last one inserts its template into itself
  have hsound₂ := (sound_call hsound₁ hcall₂).1.setSource inserting
  have hrun := run_inserting ⟨⟨timed, .empty⟩, some timingTemplate⟩ rfl
  obtain ⟨kept₃, hcall₃⟩ := call_render_eq hsound₂ hinserting fun h => by cases hrun.symm.trans h
  have hafter : (start timing twoColors).after usedCalls =
      some ⟨inserting, twoColors, inserted.host, ⟨⟨inserted, .empty⟩, some insertingTemplate⟩,
        kept₃⟩ := by
    rw [usedCalls, after_cons hcall₁, after_cons rfl, after_cons hcall₂, after_cons rfl,
      after_cons hcall₃]
    have hlast := Evaluator.left_of_run hrun
    exact congrArg (fun e => some (withEvaluator ⟨inserting, twoColors, timed.host, _, kept₃⟩ e)) hlast
  exact ⟨_, hafter, rfl, rfl, rfl, render_after hafter .empty .standard⟩

end Session

end ChartTemplate
