import ChartTemplate.Axis.Drawing
import ChartTemplate.Proofs.Format.Placed
import ChartTemplate.Proofs.Helper.CutOff
import ChartTemplate.Proofs.Value.Passed

/-!
# Markup of axes

The markup of an axis is made of fixed texts and, between them, texts that the data decide. Every fixed text
that stands behind a text of the data begins with a mark, and no text of the data has one: attributes are
made of the texts of numbers and of fixed letters (`unmarked_numberText`), and labels are escaped
(`unmarked_escapeMarkup`). So a text of the data ends where the next mark stands, and the markup is read in
one way only (`Drawing.chars_inj`). `Axis.render_drawing_iff` : an axis that is not cut off is drawn as one
path and one group for each value, and its markup cannot be read back as anything else.
-/

namespace ChartTemplate

/-! ## Marks -/

/-- The characters by which markup is taken apart. -/
def isMark (c : Char) : Bool :=
  c == '<' || c == '>' || c == '"'

def Unmarked (cs : List Char) : Prop :=
  ∀ c ∈ cs, isMark c = false

instance (cs : List Char) : Decidable (Unmarked cs) :=
  List.decidableBAll (fun c => isMark c = false) cs

theorem unmarked_append {cs ds : List Char} : Unmarked (cs ++ ds) ↔ Unmarked cs ∧ Unmarked ds :=
  List.forall_mem_append

theorem Unmarked.append {cs ds : List Char} (hcs : Unmarked cs) (hds : Unmarked ds) : Unmarked (cs ++ ds) :=
  unmarked_append.2 ⟨hcs, hds⟩

theorem Unmarked.filter {cs : List Char} (h : Unmarked cs) : cs.filter isMark = [] :=
  List.filter_eq_nil_iff.2 fun c hc => by rw [h c hc]; exact Bool.false_ne_true

theorem unmarked_escapeMarkupChar (c : Char) : Unmarked (escapeMarkupChar c) := by
  unfold escapeMarkupChar
  split
  case h_8 hlt hgt hquote _ _ _ _ =>
    intro d hd
    rw [List.mem_singleton.1 hd]
    simp only [isMark, Bool.or_eq_false_iff, beq_eq_false_iff_ne]
    exact ⟨⟨hlt, hgt⟩, hquote⟩
  all_goals decide

theorem unmarked_escapeMarkup (s : String) : Unmarked (escapeMarkup s).toList := by
  intro c hc
  rw [escapeMarkup, String.toList_ofList] at hc
  obtain ⟨d, -, hc⟩ := List.mem_flatMap.1 hc
  exact unmarked_escapeMarkupChar d c hc

/-! ### Texts of numbers -/

theorem DecimalNumeral.numeralChar (n : DecimalNumeral) {c : Char} (hc : c ∈ n.chars) : Json.Read.NumeralChar c := by
  have hfigures (f : Figures) (hc : c ∈ f.chars) : Json.Read.NumeralChar c := .inl (f.digits c hc)
  rcases List.mem_append.1 hc with hc | hc
  · rcases List.mem_append.1 hc with hc | hc
    · exact hfigures _ hc
    · unfold fractionPart at hc
      cases hfraction : n.fraction with
      | none => simp [hfraction] at hc
      | some f =>
        rw [hfraction] at hc
        rcases List.mem_cons.1 hc with rfl | hc
        · exact .inr (by simp)
        · exact hfigures f hc
  · unfold tail at hc
    cases hpower : n.power with
    | none => simp [hpower] at hc
    | some p =>
      rw [hpower] at hc
      rcases List.mem_cons.1 hc with rfl | hc
      · exact .inr (by simp)
      · rcases List.mem_cons.1 hc with rfl | hc
        · exact .inr (by split <;> simp)
        · exact hfigures _ hc

theorem isMark_of_numeralChar {c : Char} (hc : Json.Read.NumeralChar c) : isMark c = false := by
  rcases hc with hdigit | hmem
  · rw [Bool.eq_false_iff]
    intro hmark
    simp only [isMark, Bool.or_eq_true, beq_iff_eq] at hmark
    rcases hmark with (rfl | rfl) | rfl <;> cases hdigit
  · fin_cases hmem <;> rfl

theorem unmarked_numberText (x : Float) : Unmarked (numberText x).toList := by
  cases hfinite : x.isFinite with
  | false =>
    rcases Value.numberText_of_not_finite hfinite with h | h | h <;> rw [h] <;> decide
  | true =>
    obtain ⟨n, hchars, -⟩ := ((isExpansion_shortest .up x).laysOut_plainChars).denotes
    have hbody : Unmarked (Decimal.shortest .up x).plainChars := fun c hc =>
      isMark_of_numeralChar (n.numeralChar (hchars ▸ hc))
    rw [numberText, String.toList_ofList, numberChars_eq_signed hfinite, signed]
    split
    · exact List.forall_mem_cons.2 ⟨rfl, hbody⟩
    · exact hbody

/-! ## Fixed texts -/

/-- Texts, each with a fixed text behind it. -/
def weave : List (List Char) → List (List Char) → List Char
  | fixed :: rest, part :: parts => part ++ (fixed ++ weave rest parts)
  | _, _ => []

def Marked (fixed : List (List Char)) : Prop :=
  ∀ f ∈ fixed, f.head?.any isMark = true

instance (fixed : List (List Char)) : Decidable (Marked fixed) :=
  inferInstanceAs (Decidable (∀ f ∈ fixed, f.head?.any isMark = true))

section Weave

variable {fixed parts parts' : List (List Char)} {rest rest' : List Char}

/-- A text without marks ends where a fixed text begins. -/
theorem unmarked_append_inj {f : List Char} (hf : f.head?.any isMark = true) {cs ds : List Char}
    (hcs : Unmarked cs) (hds : Unmarked ds) (h : cs ++ (f ++ rest) = ds ++ (f ++ rest')) :
    cs = ds ∧ rest = rest' := by
  have hplain {cs : List Char} (hcs : Unmarked cs) : ∀ c ∈ cs, (!isMark c) = true := fun c hc => by
    rw [hcs c hc]
    rfl
  have hends (rest : List Char) : ∀ c ∈ (f ++ rest).head?, (!isMark c) = false := by
    cases f with
    | nil => cases hf
    | cons d f =>
      intro c hc
      obtain rfl : d = c := by simpa using hc
      rw [show isMark d = true from hf]
      rfl
  obtain ⟨heq, hrest⟩ := append_inj_of_head? (hplain hcs) (hplain hds) (hends rest) (hends rest') h
  exact ⟨heq, List.append_cancel_left hrest⟩

/-- **Woven texts** can be taken apart in one way only. -/
theorem weave_inj (hfixed : Marked fixed) (hparts : ∀ p ∈ parts, Unmarked p) (hparts' : ∀ p ∈ parts', Unmarked p)
    (hlength : parts.length = fixed.length) (hlength' : parts'.length = fixed.length)
    (h : weave fixed parts ++ rest = weave fixed parts' ++ rest') : parts = parts' ∧ rest = rest' := by
  induction fixed generalizing parts parts' with
  | nil =>
    rw [List.eq_nil_of_length_eq_zero hlength, List.eq_nil_of_length_eq_zero hlength'] at *
    exact ⟨rfl, h⟩
  | cons f fixed ih =>
    obtain ⟨p, ps, rfl⟩ := List.exists_cons_of_length_eq_add_one hlength
    obtain ⟨p', ps', rfl⟩ := List.exists_cons_of_length_eq_add_one hlength'
    obtain ⟨hf, hfixed⟩ := List.forall_mem_cons.1 hfixed
    obtain ⟨hp, hps⟩ := List.forall_mem_cons.1 hparts
    obtain ⟨hp', hps'⟩ := List.forall_mem_cons.1 hparts'
    simp only [weave, List.append_assoc] at h
    obtain ⟨hpart, hbehind⟩ := unmarked_append_inj hf hp hp' h
    obtain ⟨hothers, hrest⟩ := ih hfixed hps hps' (Nat.succ.inj hlength) (Nat.succ.inj hlength') hbehind
    exact ⟨congrArg₂ List.cons hpart hothers, hrest⟩

theorem filter_weave (hparts : ∀ p ∈ parts, Unmarked p) (hlength : parts.length = fixed.length) :
    (weave fixed parts).filter isMark = fixed.flatten.filter isMark := by
  induction fixed generalizing parts with
  | nil =>
    rw [List.eq_nil_of_length_eq_zero hlength]
    rfl
  | cons f fixed ih =>
    obtain ⟨p, ps, rfl⟩ := List.exists_cons_of_length_eq_add_one hlength
    obtain ⟨hp, hps⟩ := List.forall_mem_cons.1 hparts
    rw [weave, List.filter_append, List.filter_append, hp.filter, ih hps (Nat.succ.inj hlength),
      List.flatten_cons, List.filter_append, List.nil_append]

end Weave

/-! ## Drawings -/

/-- What the data decide in the group of a tick: its attributes, with the names of those that differ between
sides, and its label. -/
structure TickGroup where
  transform : List Char
  lineName : List Char
  lineEnd : List Char
  textName : List Char
  textStart : List Char
  shift : List Char
  label : List Char

namespace TickGroup

def opening : List Char :=
  "<g class=\"tick\" opacity=\"1\" transform=\"".toList

/-- The fixed texts behind the parts of a group. -/
def fixed : List (List Char) :=
  ["\"><line stroke=\"currentColor\" ".toList, "\"".toList,
    "\"></line><text fill=\"currentColor\" ".toList, "\"".toList, "\" dy=\"".toList, "\">".toList,
    "</text></g>".toList]

def parts (g : TickGroup) : List (List Char) :=
  [g.transform, g.lineName, g.lineEnd, g.textName, g.textStart, g.shift, g.label]

def chars (g : TickGroup) : List Char :=
  opening ++ weave fixed g.parts

def Plain (g : TickGroup) : Prop :=
  ∀ p ∈ g.parts, Unmarked p

theorem marked_fixed : Marked fixed := by decide

theorem parts_injective : Function.Injective parts := by
  rintro ⟨⟩ ⟨⟩ h
  simpa [parts] using h

theorem chars_append_inj {g g' : TickGroup} (hg : g.Plain) (hg' : g'.Plain) {rest rest' : List Char}
    (h : g.chars ++ rest = g'.chars ++ rest') : g = g' ∧ rest = rest' := by
  rw [chars, chars, List.append_assoc, List.append_assoc] at h
  obtain ⟨hparts, hrest⟩ := weave_inj marked_fixed hg hg' rfl rfl (List.append_cancel_left h)
  exact ⟨parts_injective hparts, hrest⟩

theorem chars_ne_nil (g : TickGroup) : g.chars ≠ [] :=
  List.cons_ne_nil _ _

theorem flatMap_chars_inj {gs gs' : List TickGroup} (hgs : ∀ g ∈ gs, g.Plain) (hgs' : ∀ g ∈ gs', g.Plain)
    (h : gs.flatMap chars = gs'.flatMap chars) : gs = gs' := by
  induction gs generalizing gs' with
  | nil =>
    cases gs' with
    | nil => rfl
    | cons g' gs' => exact absurd (List.append_eq_nil_iff.1 h.symm).1 g'.chars_ne_nil
  | cons g gs ih =>
    cases gs' with
    | nil => exact absurd (List.append_eq_nil_iff.1 h).1 g.chars_ne_nil
    | cons g' gs' =>
      obtain ⟨hg, hgs⟩ := List.forall_mem_cons.1 hgs
      obtain ⟨hg', hgs'⟩ := List.forall_mem_cons.1 hgs'
      obtain ⟨hgroup, hrest⟩ := chars_append_inj hg hg' h
      exact congrArg₂ List.cons hgroup (ih hgs hgs' hrest)

theorem filter_flatMap_chars {gs : List TickGroup} (hgs : ∀ g ∈ gs, g.Plain) :
    (gs.flatMap chars).filter isMark = (List.replicate gs.length (opening ++ fixed.flatten)).flatten.filter isMark := by
  induction gs with
  | nil => rfl
  | cons g gs ih =>
    obtain ⟨hg, hgs⟩ := List.forall_mem_cons.1 hgs
    have hlength : g.parts.length = fixed.length := rfl
    have hgroup : g.chars.filter isMark = (opening ++ fixed.flatten).filter isMark := by
      rw [chars, List.filter_append, filter_weave hg hlength, List.filter_append]
    rw [List.flatMap_cons, List.filter_append, ih hgs, hgroup, ← List.filter_append, List.length_cons,
      List.replicate_succ, List.flatten_cons]

end TickGroup

/-- A path, and a group for each tick. -/
structure Drawing where
  path : List Char
  groups : List TickGroup

namespace Drawing

def opening : List Char :=
  "<path class=\"domain\" stroke=\"currentColor\" d=\"".toList

def closing : List Char :=
  "\"></path>".toList

def chars (d : Drawing) : List Char :=
  opening ++ (weave [closing] [d.path] ++ d.groups.flatMap TickGroup.chars)

/-- The data have put no mark into the drawing. -/
structure Plain (d : Drawing) : Prop where
  path : Unmarked d.path
  groups : ∀ g ∈ d.groups, g.Plain

/-- The marks of a drawing with `n` groups. -/
def marks (n : Nat) : List Char :=
  ((opening ++ closing) ++ (List.replicate n (TickGroup.opening ++ TickGroup.fixed.flatten)).flatten).filter isMark

variable {d d' : Drawing}

/-- **Drawings** can be read from their markup in one way only. -/
theorem chars_inj (hd : d.Plain) (hd' : d'.Plain) (h : d.chars = d'.chars) : d = d' := by
  have hclosing : Marked [closing] := by decide
  obtain ⟨hpath, hgroups⟩ := weave_inj hclosing (List.forall_mem_singleton.2 hd.path)
    (List.forall_mem_singleton.2 hd'.path) rfl rfl (List.append_cancel_left h)
  obtain ⟨path, groups⟩ := d
  obtain ⟨path', groups'⟩ := d'
  rw [Drawing.mk.injEq]
  exact ⟨List.singleton_inj.1 hpath, TickGroup.flatMap_chars_inj hd.groups hd'.groups hgroups⟩

theorem Plain.filter_chars (hd : d.Plain) : d.chars.filter isMark = marks d.groups.length := by
  have hpath := filter_weave (List.forall_mem_singleton.2 hd.path) (show [d.path].length = [closing].length from rfl)
  have hclosing : [closing].flatten = closing := List.append_nil _
  rw [hclosing] at hpath
  simp only [chars, marks, List.filter_append, hpath, TickGroup.filter_flatMap_chars hd.groups, List.append_assoc]

end Drawing

/-! ## Axes -/

namespace Axis

variable {a : Axis} {labels : TickLabels} {center : Float} {s t : Scale}

def group (a : Axis) (position : Float) (label : String) : TickGroup :=
  let coordinate := if a.orient.isVertical then "x" else "y"
  { transform :=
      (if a.orient.isVertical then "translate(0," ++ numberText position ++ ")"
        else "translate(" ++ numberText position ++ ",0)").toList
    lineName := (coordinate ++ "2=").toList
    lineEnd := (numberText (a.orient.direction * a.tickSizeInner)).toList
    textName := (coordinate ++ "=").toList
    textStart := (numberText (a.orient.direction * (maxNumber a.tickSizeInner 0 + a.tickPadding))).toList
    shift := (labelShift a.orient).toList
    label := (escapeMarkup label).toList }

theorem toList_tickMarkup (a : Axis) (position : Float) (label : String) :
    (a.tickMarkup position (escapeMarkup label)).toList = (a.group position label).chars := by
  -- The equals sign of an attribute belongs to its name, and the quote begins the fixed text behind it.
  have hline : "2=\"".toList = "2=".toList ++ "\"".toList := rfl
  have htext : "=\"".toList = "=".toList ++ "\"".toList := rfl
  unfold tickMarkup group TickGroup.chars TickGroup.parts TickGroup.fixed TickGroup.opening
  dsimp only [weave]
  simp only [String.toList_append, hline, htext]
  simp only [List.append_assoc, List.append_nil]

theorem toList_lineMarkup (path : String) :
    (lineMarkup path).toList = Drawing.opening ++ weave [Drawing.closing] [path.toList] := by
  unfold lineMarkup Drawing.opening Drawing.closing
  dsimp only [weave]
  simp only [String.toList_append, List.append_assoc, List.append_nil]

/-! ### No marks from the data -/

theorem unmarked_translate (vertical : Bool) (position : Float) :
    Unmarked (if vertical then "translate(0," ++ numberText position ++ ")"
      else "translate(" ++ numberText position ++ ",0)").toList := by
  have hposition := unmarked_numberText position
  split <;> rw [String.toList_append, String.toList_append]
  · have hstart : Unmarked "translate(0,".toList := by decide
    exact (hstart.append hposition).append (by decide)
  · have hstart : Unmarked "translate(".toList := by decide
    exact (hstart.append hposition).append (by decide)

theorem plain_group (a : Axis) (position : Float) (label : String) : (a.group position label).Plain := by
  have hcoordinate (cs : String) (hcs : Unmarked cs.toList) :
      Unmarked ((if a.orient.isVertical then "x" else "y") ++ cs).toList := by
    rw [String.toList_append]
    refine Unmarked.append ?_ hcs
    split <;> decide
  have hshift : Unmarked (labelShift a.orient).toList := by
    cases a.orient <;> decide
  simp only [TickGroup.Plain, TickGroup.parts, group, List.forall_mem_cons]
  exact ⟨unmarked_translate _ _, hcoordinate "2=" (by decide), unmarked_numberText _,
    hcoordinate "=" (by decide), unmarked_numberText _, hshift, unmarked_escapeMarkup _, nofun⟩

theorem unmarked_pathText (a : Axis) (range0 range1 : Float) : Unmarked (a.pathText range0 range1).toList := by
  have hletters : Unmarked "M".toList ∧ Unmarked ",".toList ∧ Unmarked "H".toList ∧ Unmarked "V".toList := by decide
  obtain ⟨hM, hcomma, hH, hV⟩ := hletters
  unfold pathText
  dsimp only
  split <;> split <;>
    simp only [String.toList_append, unmarked_append, unmarked_numberText, hM, hcomma, hH, hV, and_self]

/-! ### Groups of the values -/

/-- The groups are those of the values, in order: each stands at the position of its value and has its label.
Positions may extend the scale that the values behind are placed with. -/
inductive Draws (a : Axis) (labels : TickLabels) (center : Float) : Scale → List Value → List TickGroup → Prop
  | nil {s : Scale} : Draws a labels center s [] []
  | cons {s t : Scale} {v y : Value} {text : String} {vs : List Value} {gs : List TickGroup}
      (happly : s.apply v = .ok (t, y)) (hlabel : labels.label v = .ok text)
      (rest : Draws a labels center t vs gs) :
      Draws a labels center s (v :: vs) (a.group (y.toNumber + center + a.offset) text :: gs)

variable {vs : List Value} {gs : List TickGroup}

theorem Draws.length (h : a.Draws labels center s vs gs) : gs.length = vs.length := by
  induction h with
  | nil => rfl
  | cons _ _ _ ih => rw [List.length_cons, ih, List.length_cons]

theorem Draws.plain (h : a.Draws labels center s vs gs) : ∀ g ∈ gs, g.Plain := by
  induction h with
  | nil => exact nofun
  | cons _ _ _ ih => exact List.forall_mem_cons.2 ⟨a.plain_group _ _, ih⟩

theorem draws_of_ticksMarkup {ms : List String} (h : a.ticksMarkup labels center s vs = .ok ms) :
    ∃ gs, a.Draws labels center s vs gs ∧ (String.join ms).toList = gs.flatMap TickGroup.chars := by
  induction vs generalizing s ms with
  | nil =>
    cases h
    exact ⟨[], .nil, rfl⟩
  | cons v vs ih =>
    rw [ticksMarkup] at h
    obtain ⟨⟨t, y⟩, happly, h⟩ := exists_of_bind_eq_ok h
    obtain ⟨text, hlabel, h⟩ := exists_of_bind_eq_ok h
    obtain ⟨rest, hrest, h⟩ := exists_of_bind_eq_ok h
    cases h
    obtain ⟨gs, hgs, hjoin⟩ := ih hrest
    refine ⟨_, .cons happly hlabel hgs, ?_⟩
    rw [List.flatMap_cons, ← toList_tickMarkup, ← hjoin, String.toList_join, String.toList_join,
      List.flatMap_cons]

/-! ### What is drawn -/

/-- The drawing of the values: the path of the line, and the groups of the values. -/
structure IsDrawn (a : Axis) (s : Scale) (vs : List Value) (d : Drawing) : Prop where
  path : d.path = (a.pathText (s.rangeExtent.1 + a.offset) (s.rangeExtent.2 + a.offset)).toList
  groups : a.Draws (a.labels s) (a.center s) s vs d.groups

theorem IsDrawn.plain {d : Drawing} (h : a.IsDrawn s vs d) : d.Plain where
  path := h.path ▸ a.unmarked_pathText _ _
  groups := h.groups.plain

theorem exists_isDrawn {text : String} (h : a.render s = .ok text) :
    ∃ vs d, a.values s = .ok vs ∧ a.IsDrawn s vs d ∧ d.chars = text.toList := by
  unfold render at h
  obtain ⟨vs, hvalues, h⟩ := exists_of_bind_eq_ok h
  obtain ⟨ms, hticks, h⟩ := exists_of_bind_eq_ok h
  obtain rfl : _ = text := Except.ok.inj h
  obtain ⟨gs, hdraws, hjoin⟩ := draws_of_ticksMarkup hticks
  refine ⟨vs, ⟨_, gs⟩, hvalues, ⟨rfl, hdraws⟩, ?_⟩
  rw [String.toList_append, toList_lineMarkup, hjoin, List.append_assoc]
  rfl

theorem exists_render_iff : (∃ text, a.render s = .ok text) ↔ ¬ a.CutOff s := by
  rw [← render_eq_error_iff]
  cases a.render s with
  | ok text =>
    refine iff_of_true ⟨text, rfl⟩ ?_
    rintro ⟨f, h⟩
    cases h
  | error f =>
    refine iff_of_false ?_ (not_not_intro ⟨f, rfl⟩)
    rintro ⟨text, h⟩
    cases h

/-- **Axes** are drawn as one path and one group for each value, in order, unless they are cut off. No mark of
the markup comes from the data, so that it can be read back in this way only. -/
theorem render_drawing_iff (a : Axis) (s : Scale) :
    (∃ text vs d, a.render s = .ok text ∧ a.values s = .ok vs ∧ a.IsDrawn s vs d ∧
        d.groups.length = vs.length ∧ d.Plain ∧ d.chars = text.toList ∧
        text.toList.filter isMark = Drawing.marks vs.length ∧
        ∀ d' : Drawing, d'.Plain → d'.chars = text.toList → d' = d) ↔
      ¬ a.CutOff s := by
  rw [← exists_render_iff]
  constructor
  · rintro ⟨text, _, _, hrender, -⟩
    exact ⟨text, hrender⟩
  · rintro ⟨text, hrender⟩
    obtain ⟨vs, d, hvalues, hdrawn, hchars⟩ := exists_isDrawn hrender
    have hlength := hdrawn.groups.length
    refine ⟨text, vs, d, hrender, hvalues, hdrawn, hlength, hdrawn.plain, hchars, ?_, ?_⟩
    · rw [← hchars, hdrawn.plain.filter_chars, hlength]
    · intro d' hplain hchars'
      exact Drawing.chars_inj hplain hdrawn.plain (hchars'.trans hchars.symm)

/-- No group is drawn for an infinite value that is to be written with an exponent. -/
theorem render_infinite_exponent :
    (do
      let a ← (make .left "s").configure .tickValues [.array [.text "Infinity"]]
      let a ← a.configure .tickFormat [.text "e"]
      pure (a.render (Scale.make .linear [numberArray [0, 1], numberArray [0, 1]]))) =
      (.ok (.error .noDigits) : Except AxisError (Except Fault String)) := by
  rfl

end Axis

end ChartTemplate
