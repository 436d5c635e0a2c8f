import ChartTemplate.Proofs.Scale.Steps

/-!
# Layouts and thresholds are never stale

Band, point and quantize scales keep what they compute from their settings. `Scale.layout_fresh` : after
any run, setting by setting and with refused calls in it, what is kept is what the settings give. So every
entry of a band's domain has a position and every number a segment of a quantize scale.
-/

namespace ChartTemplate

open Value (Unrepeated)

@[simp]
theorem length_countUp (n : Nat) : (countUp n).length = n := by
  simp [countUp]

/-! ## Band and point scales -/

theorem BandSettings.length_positions (s : BandSettings) : s.layout.positions.length = s.domain.length := by
  unfold layout
  dsimp only
  split <;> simp

namespace Band

variable {b : Band} {v : Value} {i : Nat}

/-- **Every entry has its position.** -/
theorem apply_domain (hfresh : b.rescale = b) (hb : Unrepeated b.settings.domain)
    (hi : b.settings.domain[i]? = some v) (hv : v.strictEq v = true) :
    ∃ x, b.layout.positions[i]? = some x ∧ b.apply v = .number x := by
  obtain ⟨hlt, -⟩ := List.getElem?_eq_some_iff.1 hi
  have hlength : b.layout.positions.length = b.settings.domain.length := by
    rw [← hfresh]
    exact b.settings.length_positions
  have hposition := List.getElem?_eq_getElem (hlength.symm ▸ hlt : i < b.layout.positions.length)
  refine ⟨_, hposition, ?_⟩
  rw [apply, hb.findIdx? hi, if_pos hv, Option.bind_some, hposition]
  rfl

end Band

/-! ## Quantize scales -/

namespace Quantize

variable {q : Quantize}

theorem length_thresholds (hfresh : q.rescale = q) (hrange : q.range ≠ []) :
    q.thresholds.length + 1 = q.range.length := by
  have hpos : 0 < q.range.length := List.length_pos_iff.2 hrange
  rw [← hfresh]
  simp only [rescale, bounds, List.length_map, length_countUp]
  omega

/-- **Every number has its entry of the range.** -/
theorem apply_number (hfresh : q.rescale = q) (hrange : q.range ≠ []) {v : Value}
    (hv : v.toNumber.isNaN = false) :
    ∃ y ∈ q.range, stepValue? q.thresholds q.range v.toNumber = some y ∧ q.apply v = y := by
  have hlength := length_thresholds hfresh hrange
  have hle := List.length_filter_le (fun t => decide (t ≤ v.toNumber)) q.thresholds
  have hlt : (q.thresholds.filter fun t => decide (t ≤ v.toNumber)).length < q.range.length := by omega
  have hstep : stepValue? q.thresholds q.range v.toNumber = some _ := List.getElem?_eq_getElem hlt
  refine ⟨_, List.getElem_mem hlt, hstep, ?_⟩
  rw [apply, hv, if_neg Bool.false_ne_true, hstep, Option.getD_some]

end Quantize

/-! ## Runs -/

namespace Scale

theorem exists_run_band {kind : ScaleKind} (hkind : kind = .band ∨ kind = .point) (args : List Value)
    (steps : List ScaleStep) :
    ∃ b : Band, run kind args steps = .ok (.band b) ∧ b.rescale = b ∧ Unrepeated b.settings.domain := by
  have hdefault : ∃ b, default kind = .band b := by
    rcases hkind with rfl | rfl <;> exact ⟨_, rfl⟩
  exact exists_run .band hdefault (fun b t h => by cases h; exact ⟨_, rfl⟩) (fun b c h => nomatch h)
    args steps

theorem exists_run_quantize (args : List Value) (steps : List ScaleStep) :
    ∃ q : Quantize, run .quantize args steps = .ok (.quantize q) ∧ q.rescale = q :=
  exists_run .quantize ⟨_, rfl⟩ (fun q t h => by cases h; exact ⟨_, rfl⟩) (fun q c h => nomatch h) args steps

/-- **Layouts and thresholds are never stale.** Whatever a band or point scale was made of and whatever
steps were taken, refused ones included, its layout is the one of its settings; it has one position for
each entry of the domain, in which no entry equals a later one, and an entry that equals itself is mapped
to its position. The thresholds of a quantize scale are those of its domain and range; if the range has
entries, there is one threshold less than that, and whatever has a number is mapped to an entry of the
range. -/
theorem layout_fresh (args : List Value) (steps : List ScaleStep) :
    (∀ kind, kind = .band ∨ kind = .point → ∃ b : Band, runAt kind args steps = .ok (.band b) ∧
      b.rescale = b ∧ b.layout.positions.length = b.settings.domain.length ∧
      Unrepeated b.settings.domain ∧
      ∀ (i : Nat) (v : Value), b.settings.domain[i]? = some v → v.strictEq v = true →
        ∃ x, b.layout.positions[i]? = some x ∧ b.apply v = .number x) ∧
    ∃ q : Quantize, runAt .quantize args steps = .ok (.quantize q) ∧ q.rescale = q ∧
      (q.range ≠ [] → q.thresholds.length + 1 = q.range.length ∧
        ∀ v, v.toNumber.isNaN = false →
          ∃ y ∈ q.range, stepValue? q.thresholds q.range v.toNumber = some y ∧ q.apply v = y) := by
  refine ⟨fun kind hkind => ?_, ?_⟩
  · obtain ⟨b, hrun, hfresh, hdomain⟩ := exists_run_band hkind args steps
    refine ⟨b, by rw [runAt_eq, hrun]; rfl, hfresh, ?_, hdomain, fun i v hi hv => ?_⟩
    · rw [← hfresh]
      exact b.settings.length_positions
    · exact Band.apply_domain hfresh hdomain hi hv
  · obtain ⟨q, hrun, hfresh⟩ := exists_run_quantize args steps
    refine ⟨q, by rw [runAt_eq, hrun]; rfl, hfresh, fun hrange => ⟨?_, fun v hv => ?_⟩⟩
    · exact Quantize.length_thresholds hfresh hrange
    · exact Quantize.apply_number hfresh hrange hv

/-- Two bands after a refused call, and a quantize scale that was made of five colours and got two. -/
theorem layout_fresh_refused :
    let domain : List Value := [.text "a", .text "b", .text "a"]
    let colors : List Value := [.text "red", .text "blue"]
    (∃ b : Band, runAt .band [.array domain, numberArray [0, 10]] [.call .clamp [.bool true]] =
        .ok (.band b) ∧ b.settings.domain = [.text "a", .text "b"] ∧
      ∃ x, b.layout.positions[1]? = some x ∧ b.apply (.text "b") = .number x) ∧
    ∃ q : Quantize, runAt .quantize [numberArray [0, 1, 2, 3, 4]] [.call .range [.array colors]] =
        .ok (.quantize q) ∧ q.range = colors ∧ q.thresholds.length = 1 ∧
      ∃ y ∈ colors, q.apply (.number 1) = y := by
  intro domain colors
  obtain ⟨b, hb, -, -, -, hpositions⟩ := (layout_fresh [.array domain, numberArray [0, 10]]
    [.call .clamp [.bool true]]).1 .band (.inl rfl)
  obtain ⟨q, hq, -, hthresholds⟩ := (layout_fresh [numberArray [0, 1, 2, 3, 4]]
    [.call .range [.array colors]]).2
  have hdomain : b.settings.domain = [.text "a", .text "b"] := by
    rw [runAt_eq] at hb
    cases hb
    rfl
  have hrange : q.range = colors := by
    rw [runAt_eq] at hq
    cases hq
    rfl
  obtain ⟨hlength, hsegments⟩ := hthresholds (hrange ▸ List.cons_ne_nil _ _)
  obtain ⟨y, hy, -, hone⟩ := hsegments (.number 1) (by decide)
  refine ⟨⟨b, hb, hdomain, hpositions 1 (.text "b") (by rw [hdomain]; rfl) rfl⟩,
    q, hq, hrange, ?_, y, hrange ▸ hy, hone⟩
  rw [hrange] at hlength
  exact Nat.succ.inj hlength

end Scale

end ChartTemplate
