import Mathlib
import ChartTemplate.Proofs.Json.Reading
import ChartTemplate.Proofs.Spec.Binding
import ChartTemplate.Proofs.Session
import ChartTemplate.Proofs.Template.Room

/-!
# Rendered charts

A rendering of a session gives a chart of the form that hosts draw, whatever its text is, and the chart
without content where there is a failure (`Session.render_usable`). It gives none if the template leads to
a call of a helper that is cut off, or inserts templates into one another until the stack is full.
-/

namespace ChartTemplate

/-! ## Diagnostics in the place of text -/

theorem safeParse_markup {text : String} {cs : List Char} (h : text.toList = '<' :: cs) :
    safeParse text = emptyChart := by
  have hkept : relaxChars ('<' :: cs) = '<' :: relaxChars cs := by rw [relaxChars] <;> simp
  have hfilled : (trimLeft ('<' :: cs)).isEmpty = false := rfl
  have hunread (fuel depth : Nat) : Json.Read.value? fuel depth ('<' :: relaxChars cs) = none :=
    Json.Read.value?_of_not_begins (by simp [Json.Read.Begins]) rfl fuel depth _
  rw [safeParse, h, hfilled, hkept, Json.parseChars?, hunread]
  rfl

theorem safeParse_inlineText (d : Diagnostic) : safeParse d.inlineText = emptyChart := by
  have h : d.inlineText.toList =
      '<' :: ("h4>" ++ d.message ++ "</h4><pre>" ++ d.trace ++ "</pre>").toList := by
    simp [Diagnostic.inlineText]
  exact safeParse_markup h

theorem bind_emptyChart (t : Table) : bind emptyChart t = emptyChart := by
  rw [bind_of_isChart t distinct_emptyChart ⟨_, rfl, by decide, by decide⟩]
  cbv

/-! ## Renderings -/

/-- A chart that can be drawn: an object with options and series, which has no content where there is a
diagnostic in the place of text. -/
structure RenderedChart.Usable (c : RenderedChart) : Prop where
  isChart : c.chart.IsChart
  diagnosed : ∀ e, c.failure = some e → c.text = e.diagnostic.inlineText ∧
    c.chart = .obj [("options", .obj []), ("series", .arr [])]

theorem Session.chartOf_usable (table : Table) (r : Except Failure String) :
    (chartOf table r).Usable := by
  cases r with
  | ok text =>
    refine ⟨isChart_bind table (distinct_safeParse text), fun e h => ?_⟩
    cases h
  | error e =>
    refine ⟨isChart_bind table (distinct_safeParse _), fun e' h => ?_⟩
    cases h
    refine ⟨rfl, ?_⟩
    show bind (safeParse e.diagnostic.inlineText) table = _
    rw [safeParse_inlineText, bind_emptyChart]
    rfl

namespace Session

/-- The calls that a rendering makes, and what they lead to. -/
def calls (s : Session) (table : Table) (process : Process) : CallTree (Except Failure String) :=
  match s.template.2 with
  | .error e => .done (.error (.template e))
  | .ok t => (t.calls (s.root table) process.room).bind fun r => .done (r.mapError Failure.rendering)

/-- The state that the calls start from. -/
def fresh (s : Session) : HelperState :=
  ⟨s.evaluator.state.registry.reset, s.host⟩

/-- The session's template may insert others. -/
def MayInsert (s : Session) : Prop :=
  ∃ t, s.template.2 = .ok t ∧ ¬ t.InsertsNothing

variable {table : Table} {process : Process}

/-- **A rendering** makes its calls. -/
theorem snd_render_eq_run (s : Session) (table : Table) (process : Process) :
    Prod.snd <$> s.render table process = (fun r => chartOf table r.1) <$>
      (s.calls table process).run table process.zone s.fresh := by
  unfold calls
  cases ht : s.template.2 with
  | error e => exact snd_render_of_error ht table process
  | ok t =>
    rw [snd_render_eq ht]
    show _ = (fun r : Except Failure String × HelperState => chartOf table r.1) <$>
      ((Except.mapError Failure.rendering <$> t.calls (s.root table) process.room).run table
        process.zone s.fresh)
    unfold Evaluator.run
    show _ <$> Prod.fst <$> (CallTree.run table process.zone (Except.mapError Failure.rendering <$>
      t.calls (s.root table) process.room) s.fresh >>= _) = _
    cases (Except.mapError Failure.rendering <$> t.calls (s.root table) process.room).run table
      process.zone s.fresh <;> rfl

theorem render_eq_error_iff (s : Session) (table : Table) (process : Process) (f : Fault) :
    s.render table process = .error f ↔
      (s.calls table process).run table process.zone s.fresh = .error f := by
  refine (map_eq_error_iff (s.render table process) Prod.snd).symm.trans ?_
  have hsnd := s.snd_render_eq_run table process
  exact (iff_of_eq (congrArg (· = .error f) hsnd)).trans (map_eq_error_iff _ _)

theorem mayInsert_of_outOfStack {s : Session} {u v : HelperState}
    (h : (s.calls table process).Reaches table process.zone u .outOfStack v) : s.MayInsert := by
  unfold calls at h
  cases ht : s.template.2 with
  | error e =>
    rw [ht] at h
    cases h
  | ok t =>
    rw [ht] at h
    refine ⟨t, ht, fun hnothing => ?_⟩
    have hends := (t.calls_of_insertsNothing hnothing (s.root table) process.room).bind
      (f := fun r => .done (r.mapError Failure.rendering)) (Q := fun _ => True) fun _ _ => trivial
    exact hends.of_reaches h

/-- **Every rendering** gives a usable chart, but for templates that lead to a call of a helper that is cut
off, or fill the stack. Only templates that insert others fill it. -/
theorem render_usable (s : Session) (table : Table) (process : Process) :
    ((∃ f, s.render table process = .error f) ↔
      (∃ h args next u, (s.calls table process).Reaches table process.zone s.fresh (.call h args next) u ∧
        (HelperCall.mk h args table u.host process.zone).CutOff u.registry) ∨
      ∃ u, (s.calls table process).Reaches table process.zone s.fresh .outOfStack u) ∧
    ((∃ u, (s.calls table process).Reaches table process.zone s.fresh .outOfStack u) → s.MayInsert) ∧
    ∀ s' c, s.render table process = .ok (s', c) → c.Usable := by
  refine ⟨?_, fun ⟨u, h⟩ => mayInsert_of_outOfStack h, fun s' c h => ?_⟩
  · rw [← CallTree.run_eq_error_iff]
    exact exists_congr fun f => render_eq_error_iff s table process f
  · have hsnd := s.snd_render_eq_run table process
    rw [h] at hsnd
    cases hrun : (s.calls table process).run table process.zone s.fresh with
    | error f =>
      rw [hrun] at hsnd
      cases hsnd
    | ok r =>
      rw [hrun] at hsnd
      cases hsnd
      exact chartOf_usable table r.1

/-- The text of a template with a scale whose domain has no number, and that is to keep a number within
it. -/
def clampedTexts : String :=
  "\x7b\x7bscaleLinear \"s\" (array \"a\" \"b\") (array \"low\" \"high\")\x7d\x7d" ++
    "\x7b\x7bsetupScale \"s\" \"clamp\" true\x7d\x7d" ++ "\x7b\x7buseScale \"s\" 5\x7d\x7d"

def clampedTemplate : Template :=
  [(some ⟨1, 1⟩, .value true (.call "scaleLinear" [(none, .literal (.str "s")),
      (none, .call "array" [(none, .literal (.str "a")), (none, .literal (.str "b"))]),
      (none, .call "array" [(none, .literal (.str "low")), (none, .literal (.str "high"))])])),
    (some ⟨1, 57⟩, .value true (.call "setupScale" [(none, .literal (.str "s")),
      (none, .literal (.str "clamp")), (none, .literal (.bool true))])),
    (some ⟨1, 88⟩, .value true (.call "useScale" [(none, .literal (.str "s")),
      (none, .literal (.num (.int 5)))]))]

def withOneScale (s : Scale) (p : Palette) : HelperState :=
  ⟨{ Registry.empty with scales := [("s", s)] }, p⟩

/-- A rendering is cut off, and gives no chart. -/
theorem render_clampedTexts :
    (start clampedTexts .standard).render .empty = .error .unorderedBounds := by
  have hread : Template.ofText? (reveal clampedTexts) = .ok clampedTemplate := by cbv
  let p : Palette := .ofColors RenderOptions.standard.palette
  let texts : Value := .array [.text "a", .text "b"]
  let range : Value := .array [.text "low", .text "high"]
  let made : Scale := .make .linear [texts, range]
  let clamped : Scale := .continuous { Continuous.ofTransform .identity with
    domain := [Value.toNumber (.text "a"), Value.toNumber (.text "b")]
    range := [.text "low", .text "high"]
    clamp := true }
  have htexts (s : HelperState) : (Helper.array.call .empty s [.text "a", .text "b"]).run =
      .ok (.ok (s, texts)) := rfl
  have hrange (s : HelperState) : (Helper.array.call .empty s [.text "low", .text "high"]).run =
      .ok (.ok (s, range)) := rfl
  have hmake : ((Helper.scale .linear).call .empty ⟨.empty, p⟩ [.text "s", texts, range]).run =
      .ok (.ok (withOneScale made p, .undefined)) := rfl
  have hclamp : (Helper.setupScale.call .empty (withOneScale made p)
      [.text "s", .text "clamp", .bool true]).run = .ok (.ok (withOneScale clamped p, .undefined)) := rfl
  have huse : (Helper.useScale.call .empty (withOneScale clamped p)
      [.text "s", Value.ofJson (.num (.int 5))]).run = .error .unorderedBounds := rfl
  obtain ⟨next₁, hcalls, next₂, hnext₁, next₃, hnext₂, next₄, hnext₃, next₅, hnext₄⟩ :
      ∃ next₁,
      (start clampedTexts .standard).calls .empty .standard = .call .array [.text "a", .text "b"] next₁ ∧
      ∃ next₂, next₁ (.ok texts) = .call .array [.text "low", .text "high"] next₂ ∧
      ∃ next₃, next₂ (.ok range) = .call (.scale .linear) [.text "s", texts, range] next₃ ∧
      ∃ next₄, next₃ (.ok .undefined) =
        .call .setupScale [.text "s", .text "clamp", .bool true] next₄ ∧
      ∃ next₅, next₄ (.ok .undefined) =
        .call .useScale [.text "s", Value.ofJson (.num (.int 5))] next₅ := by
    have htemplate : (start clampedTexts .standard).template.2 = .ok clampedTemplate := hread
    rw [calls, htemplate]
    exact ⟨_, rfl, _, rfl, _, rfl, _, rfl, _, rfl⟩
  have hrun : ((start clampedTexts .standard).calls .empty .standard).run .empty .utc ⟨.empty, p⟩ =
      .error .unorderedBounds := by
    rw [hcalls, CallTree.run_of_answered (htexts _), hnext₁, CallTree.run_of_answered (hrange _), hnext₂,
      CallTree.run_of_answered hmake, hnext₃, CallTree.run_of_answered hclamp, hnext₄,
      CallTree.run_of_fault huse]
  exact (render_eq_error_iff _ _ _ _).2 hrun

/-- The text of a template that inserts itself under no condition. -/
def selfInsertion : String := "\x7b\x7b> chart\x7d\x7d"

/-- A rendering that ends the process, whatever it is about and however much room there is. -/
theorem render_selfInsertion (options : RenderOptions) (table : Table) (process : Process) :
    (start selfInsertion options).render table process = .error .fullStack := by
  have hread : Template.ofText? (reveal selfInsertion) = .ok Template.selfInserting := by cbv
  have htemplate : (start selfInsertion options).template.2 = .ok Template.selfInserting := hread
  refine (render_eq_error_iff _ _ _ _).2 ?_
  rw [calls, htemplate]
  dsimp only
  rw [CallTree.run_bind, Template.run_selfInserting]
  rfl

end Session

end ChartTemplate
