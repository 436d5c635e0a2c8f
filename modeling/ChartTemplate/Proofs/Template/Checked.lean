import Mathlib
import ChartTemplate.Proofs.Template.Failures

/-!
# Checked calls

Calls that are looked at before rendering name a helper, and a method that the helper has if the method is a
literal. Rendering misses a helper only where it is called, and only refuses methods that the helper lacks.
So only calls that are not looked at fail for these reasons (`Template.failure_of_render`).
-/

namespace ChartTemplate

variable {σ : Type} [HostServices σ]

/-- **Failures of a template that was not refused.** A helper that does not exist is called only where
calls are not looked at before rendering, and no method is refused that a call which was looked at names
by a literal. -/
theorem Template.failure_of_render {text : String} {t : Template} (ht : Template.ofText? text = .ok t)
    {scene : RenderScene} {s s' : HelperState σ} {failure : RenderFailure}
    (hrender : t.render scene s = .ok (.error failure, s')) :
    (∀ name, failure.error = .helperNotFound name →
      ∃ c ∈ CallSite.ofElements t, c.MayName name ∧ c.checked = false) ∧
    ∀ c ∈ CallSite.ofElements t, c.checked = true → ∀ h m, c.literalMethod? = some (h, m) →
      failure.error ≠ .helper (.unknownMethod h m) := by
  have hsound : AllSound (CallSite.ofElements t) := sound_of_checkElements t (checkElements_of_ofText? ht)
  have haccounted : failure.error.AccountedBy (CallSite.ofElements t) :=
    (t.calls_within scene.root scene.room).of_run hrender
  constructor
  · intro name hname
    rw [hname] at haccounted
    obtain ⟨hmissing, c, hc, hmay⟩ := haccounted
    refine ⟨c, hc, hmay, ?_⟩
    by_contra hlooked
    obtain ⟨name', hname', hhelper⟩ := (hsound c hc (by simpa using hlooked)).helper
    rcases hmay with hnone | hsome
    · rw [hnone] at hname'
      cases hname'
    · rw [hsome] at hname'
      cases hname'
      rw [hmissing] at hhelper
      cases hhelper
  · intro c hc hlooked h m hm hfailure
    rw [hfailure] at haccounted
    have haccepted := (hsound c hc hlooked).method h m hm
    have hlacking : h.acceptsMethod m = false := haccounted
    rw [haccepted] at hlacking
    cases hlacking

theorem Template.ofText?_len_nope : Template.ofText? "\x7b\x7blen (nope)\x7d\x7d" =
    .ok [(some ⟨1, 1⟩, .value true (.call "len" [(none, .call "nope" [])]))] := by cbv

/-- A call in parentheses without arguments. -/
theorem Template.failure_of_render_nope :
    let s : HelperState := ⟨.empty, .ofColors []⟩
    ∃ t failure, Template.ofText? "\x7b\x7blen (nope)\x7d\x7d" = .ok t ∧
      t.render ⟨.empty, .null, .utc, 8⟩ s = .ok (.error failure, s) ∧
      ∃ c ∈ CallSite.ofElements t, c.MayName "nope" ∧ c.checked = false := by
  intro s
  let t : Template := [(some ⟨1, 1⟩, .value true (.call "len" [(none, .call "nope" [])]))]
  have hrender : t.render ⟨.empty, .null, .utc, 8⟩ s =
      .ok (.error ⟨.helperNotFound "nope", some ⟨1, 1⟩⟩, s) := rfl
  exact ⟨t, _, ofText?_len_nope, hrender, (failure_of_render ofText?_len_nope hrender).1 "nope" rfl⟩

/-- Templates that are not refused, and fail whatever they are rendered with. -/
theorem Template.overlooked_calls_fail :
    (∃ t, Template.ofText? "\x7b\x7b(nope 1)\x7d\x7d" = .ok t ∧ ∀ scene (s : HelperState),
      t.render scene s = .ok (.error ⟨.helperNotFound "nope", some ⟨1, 1⟩⟩, s)) ∧
    (∃ t, Template.ofText? "\x7b\x7blen (nope)\x7d\x7d" = .ok t ∧ ∀ scene (s : HelperState),
      t.render scene s = .ok (.error ⟨.helperNotFound "nope", some ⟨1, 1⟩⟩, s)) ∧
    ∃ t, Template.ofText? "\x7b\x7b(math \"random\")\x7d\x7d" = .ok t ∧ ∀ scene (s : HelperState),
      t.render scene s = .ok (.error ⟨.helper (.unknownMethod .math "random"), some ⟨1, 1⟩⟩, s) := by
  have hcomputed : Template.ofText? "\x7b\x7b(nope 1)\x7d\x7d" =
    .ok [(some ⟨1, 1⟩, .computed true (.call "nope" [(none, .literal (.num (.int 1)))]))] := by cbv
  have hmethod : Template.ofText? "\x7b\x7b(math \"random\")\x7d\x7d" =
    .ok [(some ⟨1, 1⟩, .computed true (.call "math" [(none, .literal (.str "random"))]))] := by cbv
  refine ⟨⟨_, hcomputed, fun _ _ => rfl⟩, ⟨_, ofText?_len_nope, fun _ _ => rfl⟩, _, hmethod,
    fun scene s => ?_⟩
  have hrefused : (Helper.math.call scene.table s [.text "random"] scene.zone).run =
      .ok (.error (.unknownMethod .math "random")) := rfl
  exact CallTree.run_of_refused hrefused

end ChartTemplate
