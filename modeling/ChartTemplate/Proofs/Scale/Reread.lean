import ChartTemplate.Proofs.Scale.Steps
import ChartTemplate.Proofs.Time.Timestamps
import ChartTemplate.Proofs.Value.Passed

/-!
# Domains and ranges that are read and set again

`Scale.reread` : a domain or range that is read from a scale, and set on the scale or on one that differs
from it in that setting alone, makes the scale again. The domain of a time scale is read as instants, so
its entries have to be the milliseconds of some. A template hands on what it read as a document, which
makes the scale again exactly if the value is what the document is read as.

Reading and setting are the two sides of a lens: what is set last counts (`configure_twin`), and what is
read and set changes nothing (`configure_reading`).
-/

namespace ChartTemplate

open Instant (InDates atMillis)
open Value (distinct Unrepeated)

/-! ## Arrays of numbers -/

theorem numbersOf_numberArray (xs : List Float) : numbersOf (numberArray xs) = xs := by
  simp [numbersOf, numberArray, Value.items?, Value.toNumber, Function.comp_def]

theorem length_numbersOf (v : Value) : (numbersOf v).length = (v.items?.getD []).length :=
  List.length_map _

theorem passed_numberArray_eq_iff (xs : List Float) :
    (numberArray xs).passed = numberArray xs ↔ numbersOf (numberArray xs).passed = xs := by
  constructor
  · intro h
    rw [h, numbersOf_numberArray]
  · intro h
    rw [numberArray, Value.passed_array, numbersOf, Value.items?, Option.getD_some, List.map_map,
      List.map_map] at h
    rw [numberArray, Value.passed_array, List.map_map]
    congr 1
    refine List.map_congr_left fun x hx => ?_
    have hnumber : (Value.passed (.number x)).toNumber = x := by
      have hat := List.map_inj_left.1 (h.trans (List.map_id xs).symm) x hx
      exact hat
    rw [Function.comp_apply, Value.passed_eq_self_iff]
    exact (Value.toNumber_passed_iff _).1 hnumber

theorem items_passed_array (vs : List Value) :
    (Value.array vs).passed.items?.getD [] = vs.map Value.passed := by
  rw [Value.passed_array]
  rfl

theorem passed_array_of_items {vs : List Value} (h : (Value.array vs).passed.items?.getD [] = vs) :
    (Value.array vs).passed = .array vs := by
  rw [items_passed_array] at h
  rw [Value.passed_array, h]

theorem passed_array_of_distinct {vs : List Value}
    (h : distinct ((Value.array vs).passed.items?.getD []) = vs) : (Value.array vs).passed = .array vs := by
  rw [items_passed_array] at h
  have hlength : (distinct (vs.map Value.passed)).length = (vs.map Value.passed).length := by
    rw [h, List.length_map]
  have hitems : distinct (vs.map Value.passed) = vs.map Value.passed :=
    (Value.distinct_sublist _).eq_of_length hlength
  rw [Value.passed_array, ← hitems, h]

/-! ## Instants -/

namespace Instant

/-- Milliseconds in the years of four digits. -/
def InYears (ms : ℤ) : Prop :=
  0 ≤ (atMillis ms).date.year ∧ (atMillis ms).date.year ≤ 9999

instance (ms : ℤ) : Decidable (InYears ms) :=
  inferInstanceAs (Decidable (_ ∧ _))

theorem InYears.inDates {ms : ℤ} (h : InYears ms) : InDates ms := by
  have hday : (atMillis ms).date.toDays = ms / 86400000 := by
    rw [date, Date.toDays_ofDays, dayNumber_atMillis]
  rw [InDates, ← hday, Date.inRange_toDays_iff (valid_date _)]
  exact ⟨by unfold minYear; exact le_trans (by decide) h.1, by unfold maxYear; exact h.2.trans (by decide)⟩

theorem InYears.isWritable {ms : ℤ} (h : InYears ms) : (atMillis ms).IsWritable where
  year := h
  millis := ⟨(ms % 1000).toNat, by rw [atMillis]; ring⟩
  nanos := by
    left
    simp only [atMillis]
    omega

end Instant

namespace Continuous

variable {c : Continuous} {ms : ℤ}

theorem input_of_ne (h : c.transform ≠ .time) (v : Value) : c.input v = v.toNumber := by
  unfold input
  split
  · next htime => exact absurd htime h
  · rfl

theorem domainValue_of_ne (h : c.transform ≠ .time) (x : Float) : c.domainValue x = .number x := by
  unfold domainValue
  split
  · next htime => exact absurd htime h
  · rfl

theorem reading_domain (h : c.transform ≠ .time) :
    Value.array (c.domain.map c.domainValue) = numberArray c.domain := by
  rw [numberArray, List.map_congr_left fun x _ => domainValue_of_ne h x]

theorem setDomain_of_ne (h : c.transform ≠ .time) (v : Value) :
    c.setDomain v = { c with domain := numbersOf v } := by
  rw [setDomain, numbersOf, List.map_congr_left fun v _ => input_of_ne h v]

theorem input_domainValue (htime : c.transform = .time) (h : InDates ms) :
    c.input (c.domainValue (Float.ofInt ms)) = Float.ofInt ms := by
  simp only [input, domainValue, htime, instantOf?_ofInt h, Option.map_some, Option.getD_some,
    Value.toInstant?, Instant.toFloat_atMillis]

theorem input_passed_domainValue (htime : c.transform = .time) (h : Instant.InYears ms) :
    c.input (c.domainValue (Float.ofInt ms)).passed = Float.ofInt ms := by
  simp only [input, domainValue, htime, instantOf?_ofInt h.inDates, Option.map_some, Option.getD_some,
    Value.passed_date, Value.toInstant?, h.isWritable.ofIso?_isoText, Instant.toFloat_atMillis]

theorem setDomain_items {f : Float → Value} (h : ∀ x ∈ c.domain, c.input (f x) = x) :
    c.setDomain (.array (c.domain.map f)) = c := by
  have hdomain : (c.domain.map f).map c.input = c.domain := by
    rw [List.map_map]
    exact (List.map_congr_left h).trans (List.map_id _)
  rw [setDomain, Value.items?, Option.getD_some, hdomain]

end Continuous

/-! ## Two ends -/

theorem Quantize.setDomain_pair (q : Quantize) {v : Value} {a b : Float} (hv : numbersOf v = [a, b]) :
    q.setDomain v = { q with low := a, high := b } := by
  rw [setDomain, hv]

theorem Quantize.exists_setDomain (q : Quantize) (v : Value) :
    ∃ a b, q.setDomain v = { q with low := a, high := b } := by
  unfold setDomain
  split
  · exact ⟨_, _, rfl⟩
  · exact ⟨q.low, q.high, rfl⟩

theorem Band.withRange_pair (s : BandSettings) {v : Value} {a b : Float} (hv : numbersOf v = [a, b]) :
    withRange s v = { s with start := a, stop := b } := by
  rw [withRange, hv]

theorem Band.exists_withRange (s : BandSettings) (v : Value) :
    ∃ a b, withRange s v = { s with start := a, stop := b } := by
  unfold withRange
  split
  · exact ⟨_, _, rfl⟩
  · exact ⟨s.start, s.stop, rfl⟩

/-! ## Reading and setting -/

namespace Scale

/-- What a method gives that is called without arguments. -/
def reading (s : Scale) (m : ScaleMethod) : Value :=
  match (s.call m []).run with
  | .ok (.ok (_, v)) => v
  | _ => .undefined

/-- The scale differs at most in what a method sets. -/
def Twin (m : ScaleMethod) (s t : Scale) : Prop :=
  t = s ∨ ∃ w, s.call m [w] = pure (t, .undefined)

def timeDomain? : Scale → Option (List Float)
  | continuous c => if c.transform = .time then some c.domain else none
  | _ => none

theorem pure_eq_iff {s t : Scale} :
    (pure (s, .undefined) : Checked ScaleError (Scale × Value)) = pure (t, .undefined) ↔ s = t :=
  ⟨fun h => (Prod.mk.inj (Except.ok.inj (Except.ok.inj h))).1, fun h => h ▸ rfl⟩

section

variable {m : ScaleMethod} (hm : m = .domain ∨ m = .range)

include hm

theorem call_reading (s : Scale) : s.call m [] = pure (s, s.reading m) := by
  rcases hm with rfl | rfl <;> cases s <;> rfl

theorem call_setting (s : Scale) (v : Value) : s.call m [v] = pure (s.configure m v, .undefined) := by
  rcases hm with rfl | rfl <;> cases s <;> rfl

/-- What is set last counts. Two ends are set by two numbers only, so as many items are to be set as are
read. -/
theorem configure_configure (s : Scale) (w : Value) {v : Value}
    (hlength : (numbersOf v).length = (numbersOf (s.reading m)).length) :
    (s.configure m w).configure m v = s.configure m v := by
  rcases hm with rfl | rfl
  · cases s with
    | quantize q =>
      obtain ⟨a, b, hv⟩ := List.length_eq_two.1 hlength
      obtain ⟨x, y, hw⟩ := q.exists_setDomain w
      show quantize ((q.setDomain w).rescale.setDomain v).rescale = quantize (q.setDomain v).rescale
      rw [hw, Quantize.setDomain_pair _ hv, Quantize.setDomain_pair _ hv]
      rfl
    | _ => rfl
  · cases s with
    | band b =>
      obtain ⟨x, y, hv⟩ := List.length_eq_two.1 hlength
      obtain ⟨x', y', hw⟩ := Band.exists_withRange b.settings w
      show band (.ofSettings (Band.withRange (Band.withRange b.settings w) v)) =
        band (.ofSettings (Band.withRange b.settings v))
      rw [hw, Band.withRange_pair _ hv, Band.withRange_pair _ hv]
    | _ => rfl

theorem configure_reading {s : Scale} (hs : s.Sound)
    (htime : m = .domain → ∀ xs, s.timeDomain? = some xs → ∀ x ∈ xs, ∃ ms, InDates ms ∧ x = Float.ofInt ms) :
    s.configure m (s.reading m) = s := by
  rcases hm with rfl | rfl
  · cases s with
    | continuous c =>
      show continuous (c.setDomain (.array (c.domain.map c.domainValue))) = continuous c
      by_cases h : c.transform = .time
      · have hdomain := htime rfl c.domain (if_pos h)
        refine congrArg continuous (Continuous.setDomain_items fun x hx => ?_)
        obtain ⟨ms, hms, rfl⟩ := hdomain x hx
        exact Continuous.input_domainValue h hms
      · rw [Continuous.reading_domain h, Continuous.setDomain_of_ne h, numbersOf_numberArray]
    | sequential c =>
      show sequential { c with domain := numbersOf (numberArray c.domain) } = sequential c
      rw [numbersOf_numberArray]
    | quantize q =>
      show quantize (q.setDomain (numberArray [q.low, q.high])).rescale = quantize q
      rw [Quantize.setDomain_pair q (numbersOf_numberArray _)]
      exact congrArg quantize hs
    | threshold c =>
      show threshold { c with domain := numbersOf (numberArray c.domain) } = threshold c
      rw [numbersOf_numberArray]
    | band b =>
      show band (.ofSettings { b.settings with domain := distinct b.settings.domain }) = band b
      rw [hs.2.distinct_eq]
      exact congrArg band hs.1
    | ordinal c =>
      show ordinal { c with domain := distinct c.domain } = ordinal c
      rw [Unrepeated.distinct_eq hs]
  · cases s with
    | quantize q =>
      show quantize q.rescale = quantize q
      exact congrArg quantize hs
    | band b =>
      show band (.ofSettings (Band.withRange b.settings (numberArray [b.settings.start, b.settings.stop]))) =
        band b
      rw [Band.withRange_pair _ (numbersOf_numberArray _)]
      exact congrArg band hs.1
    | _ => rfl

theorem configure_passed_iff {s : Scale} (hs : s.Sound) (htime : m = .domain → s.timeDomain? = none) :
    s.configure m (s.reading m).passed = s ↔ (s.reading m).passed = s.reading m := by
  refine ⟨fun h => ?_, fun h => ?_⟩
  · rcases hm with rfl | rfl
    · cases s with
      | continuous c =>
        have hc : c.transform ≠ .time := fun hc => nomatch (if_pos hc).symm.trans (htime rfl)
        change continuous (c.setDomain (Value.array (c.domain.map c.domainValue)).passed) = _ at h
        show (Value.array (c.domain.map c.domainValue)).passed = .array (c.domain.map c.domainValue)
        rw [Continuous.reading_domain hc, Continuous.setDomain_of_ne hc] at h
        rw [Continuous.reading_domain hc, passed_numberArray_eq_iff]
        exact congrArg Continuous.domain (continuous.inj h)
      | sequential c =>
        exact (passed_numberArray_eq_iff _).2 (congrArg Sequential.domain (sequential.inj h))
      | quantize q =>
        exact (passed_numberArray_eq_iff [q.low, q.high]).2
          (congrArg (fun q : Quantize => [q.low, q.high]) (quantize.inj h))
      | threshold c =>
        exact (passed_numberArray_eq_iff _).2 (congrArg Threshold.domain (threshold.inj h))
      | band b =>
        exact passed_array_of_distinct (congrArg (fun b : Band => b.settings.domain) (band.inj h))
      | ordinal c => exact passed_array_of_distinct (congrArg Ordinal.domain (ordinal.inj h))
    · cases s with
      | continuous c => exact passed_array_of_items (congrArg Continuous.range (continuous.inj h))
      | sequential c => exact passed_array_of_items (congrArg Sequential.range (sequential.inj h))
      | quantize q => exact passed_array_of_items (congrArg Quantize.range (quantize.inj h))
      | threshold c => exact passed_array_of_items (congrArg Threshold.range (threshold.inj h))
      | band b =>
        exact (passed_numberArray_eq_iff [b.settings.start, b.settings.stop]).2
          (congrArg (fun b : Band => [b.settings.start, b.settings.stop]) (band.inj h))
      | ordinal c => exact passed_array_of_items (congrArg Ordinal.range (ordinal.inj h))
  · rw [h]
    refine configure_reading hm hs fun hdomain xs hxs => ?_
    rw [htime hdomain] at hxs
    cases hxs

theorem length_passed_reading (s : Scale) :
    (numbersOf (s.reading m).passed).length = (numbersOf (s.reading m)).length := by
  have harray : ∃ vs, s.reading m = .array vs := by
    rcases hm with rfl | rfl <;> cases s <;> exact ⟨_, rfl⟩
  obtain ⟨vs, hvs⟩ := harray
  rw [hvs, length_numbersOf, length_numbersOf, items_passed_array, List.length_map]
  rfl

theorem call_twin {s t : Scale} (ht : s.Twin m t) {v : Value}
    (hlength : (numbersOf v).length = (numbersOf (s.reading m)).length) :
    t.call m [v] = pure (s, .undefined) ↔ s.configure m v = s := by
  rw [call_setting hm, pure_eq_iff]
  rcases ht with rfl | ⟨w, hw⟩
  · rfl
  · rw [call_setting hm, pure_eq_iff] at hw
    rw [← hw, configure_configure hm s w hlength]

end

/-- What is received of the instants of a time scale changes nothing in the years of four digits. -/
theorem configure_passed_of_time {s : Scale} {xs : List Float} (htime : s.timeDomain? = some xs)
    (hxs : ∀ x ∈ xs, ∃ ms, Instant.InYears ms ∧ x = Float.ofInt ms) :
    s.configure .domain (s.reading .domain).passed = s := by
  cases s with
  | continuous c =>
    obtain ⟨hc, rfl⟩ : c.transform = .time ∧ c.domain = xs := by simpa [timeDomain?] using htime
    show continuous (c.setDomain (Value.array (c.domain.map c.domainValue)).passed) = continuous c
    rw [Value.passed_array, List.map_map]
    refine congrArg continuous (Continuous.setDomain_items fun x hx => ?_)
    obtain ⟨ms, hms, rfl⟩ := hxs x hx
    exact Continuous.input_passed_domainValue hc hms
  | _ => cases htime

/-- **Reading and setting again.** On every scale that a run leads to, a domain or range is read without a
change and can be set. This makes the scale again, from itself and from every scale that differs from it
in this setting alone; for the domain of a time scale, if its entries are the milliseconds of instants.
What a template hands on makes the scale again exactly if the value is a document; for the domain of a
time scale it does if its instants lie in the years of four digits. -/
theorem reread {kind : ScaleKind} {args : List Value} {steps : List ScaleStep} {s : Scale}
    (h : run kind args steps = .ok s) {m : ScaleMethod} (hm : m = .domain ∨ m = .range) :
    ∃ v, s.call m [] = pure (s, v) ∧ (∃ t, s.call m [v] = pure (t, .undefined)) ∧
      ((m = .domain → ∀ xs, s.timeDomain? = some xs →
          ∀ x ∈ xs, ∃ ms, InDates ms ∧ x = Float.ofInt ms) →
        ∀ t, s.Twin m t → t.call m [v] = pure (s, .undefined)) ∧
      ((m = .domain → s.timeDomain? = none) →
        ∀ t, s.Twin m t → (t.call m [v.passed] = pure (s, .undefined) ↔ v.isDocument = true)) ∧
      ∀ xs, m = .domain → s.timeDomain? = some xs →
        (∀ x ∈ xs, ∃ ms, Instant.InYears ms ∧ x = Float.ofInt ms) →
        ∀ t, s.Twin m t → t.call m [v.passed] = pure (s, .undefined) := by
  have hs : s.Sound := sound_run h
  refine ⟨s.reading m, call_reading hm s, ⟨_, call_setting hm s _⟩, fun htime t ht => ?_,
    fun htime t ht => ?_, fun xs hdomain htime hxs t ht => ?_⟩
  · rw [call_twin hm ht rfl]
    exact configure_reading hm hs htime
  · rw [call_twin hm ht (length_passed_reading hm s), configure_passed_iff hm hs htime,
      Value.passed_eq_self_iff]
  · rw [call_twin hm ht (length_passed_reading hm s)]
    subst hdomain
    exact configure_passed_of_time htime hxs

/-- The default time scale, from one with another domain. -/
theorem reread_default :
    let s := default .time
    let t := s.configure .domain (numberArray [0, 1])
    run .time [] [] = .ok s ∧
      (∃ v, s.call .domain [] = pure (s, v) ∧ t.call .domain [v] = pure (s, .undefined) ∧
        t.call .domain [v.passed] = pure (s, .undefined)) ∧
      ∃ v, s.call .range [] = pure (s, v) ∧ s.call .range [v] = pure (s, .undefined) ∧
        (s.call .range [v.passed] = pure (s, .undefined) ↔ v.isDocument = true) := by
  intro s t
  have hrun : run .time [] [] = .ok s := rfl
  have htwin : s.Twin .domain t := .inr ⟨numberArray [0, 1], rfl⟩
  have hyears : ∀ x ∈ [(946684800000 : Float), 946771200000],
      ∃ ms, Instant.InYears ms ∧ x = Float.ofInt ms := by
    simp only [List.forall_mem_cons]
    exact ⟨⟨946684800000, by decide +kernel, by decide +kernel⟩,
      ⟨946771200000, by decide +kernel, by decide +kernel⟩, fun _ h => nomatch h⟩
  obtain ⟨v, hv, -, hset, -, hcopied⟩ := reread hrun (m := .domain) (.inl rfl)
  obtain ⟨w, hw, -, hsetrange, hcopiedrange, -⟩ := reread hrun (m := .range) (.inr rfl)
  refine ⟨hrun, ⟨v, hv, hset (fun _ xs hxs x hx => ?_) t htwin, hcopied _ rfl rfl hyears t htwin⟩, w, hw,
    hsetrange (fun h => nomatch h) s (.inl rfl), hcopiedrange (fun h => nomatch h) s (.inl rfl)⟩
  cases hxs
  obtain ⟨ms, hms, hx⟩ := hyears x hx
  exact ⟨ms, hms.inDates, hx⟩

/-- A domain with a text in it is handed on with zero in its place, and a text that is no timestamp is
read as an instant. -/
theorem reread_texts :
    (∃ s v t, run .linear [.array [.text "a", .number 10], numberArray [0, 1]] [] = .ok s ∧
      s.call .domain [] = pure (s, v) ∧ s.call .domain [v.passed] = pure (t, .undefined) ∧ t ≠ s) ∧
    ∃ s v t, run .time [.array [.text "x", .number 1000], numberArray [0, 1]] [] = .ok s ∧
      s.call .domain [] = pure (s, v) ∧ s.call .domain [v] = pure (t, .undefined) ∧ t ≠ s := by
  have hne {c c' : Continuous} (h : c.domain.map Float.isNaN ≠ c'.domain.map Float.isNaN) :
      continuous c ≠ continuous c' := fun heq => h (by rw [continuous.inj heq])
  exact ⟨⟨_, _, _, rfl, rfl, rfl, hne (by decide +kernel)⟩, _, _, _, rfl, rfl, rfl, hne (by decide +kernel)⟩

end Scale

end ChartTemplate
