import Mathlib
import ChartTemplate.Proofs.InPlace.Work
import ChartTemplate.Template.Basic

/-!
# Call sites

`CallSite.ofElements` lists the places where a template calls helpers, and says for each whether
`Template.ofText?` looks at it. It does not look at calls in tags that are a call in parentheses, at
those in insertions and decorations with their bodies, and at the names of calls without arguments, other
than blocks. A call that is looked at names a helper, and a method that the helper has if the method is a
literal (`sound_of_checkElements`).
-/

namespace ChartTemplate

/-- A place where a template calls a helper. -/
structure CallSite where
  /-- The name of the helper, unless it is computed while rendering. -/
  name : Option String
  arguments : List Argument
  /-- Whether the call is looked at before the template is rendered. -/
  checked : Bool

namespace CallSite

def literalMethod? (c : CallSite) : Option (Helper × String) :=
  match c.name.bind Helper.ofName? with
  | none => none
  | some h =>
    match h.methodPosition?.bind fun i => (positional c.arguments)[i]? with
    | some (.literal (.str method)) => some (h, method)
    | _ => none

def MayName (c : CallSite) (name : String) : Prop :=
  c.name = none ∨ c.name = some name

/-- The call has a helper, with the method that it names by a literal. -/
structure Sound (c : CallSite) : Prop where
  helper : ∃ name, c.name = some name ∧ isHelperName name = true
  method : ∀ h m, c.literalMethod? = some (h, m) → h.acceptsMethod m = true

mutual

def ofExpression (checked : Bool) : Expression → List CallSite
  | .call name as =>
    ⟨some name, as, checked && !as.isEmpty⟩ :: (ofPositional checked as ++ ofNamed checked as)
  | _ => []

/-- The calls in arguments without names. -/
def ofPositional (checked : Bool) : List (Option String × Expression) → List CallSite
  | [] => []
  | (none, e) :: as => ofExpression checked e ++ ofPositional checked as
  | (some _, _) :: as => ofPositional checked as

/-- The calls in arguments with names, of which the last one of a name counts. -/
def ofNamed (checked : Bool) : List (Option String × Expression) → List CallSite
  | [] => []
  | (none, _) :: as => ofNamed checked as
  | (some k, e) :: as =>
    if as.any fun a => a.1 == some k then ofNamed checked as
    else ofExpression checked e ++ ofNamed checked as

end

def ofArguments (checked : Bool) (as : List Argument) : List CallSite :=
  ofPositional checked as ++ ofNamed checked as

mutual

def inElement (looked : Bool) : Element → List CallSite
  | .text _ | .comment => []
  | .value _ e => ofExpression looked e
  | .computed _ e => ⟨none, [], false⟩ :: ofExpression false e
  | .block head body alternative =>
    ⟨some head.name, head.arguments, looked⟩ ::
      (ofArguments looked head.arguments ++ (inElements looked body ++ inElements looked alternative))
  | .insertion name as none => ofExpression false name ++ ofArguments false as
  | .insertion name as (some body) =>
    ofExpression false name ++ (ofArguments false as ++ inElements false body)
  | .decoration head none => ofArguments false head.arguments
  | .decoration head (some body) => ofArguments false head.arguments ++ inElements false body

def inElements (looked : Bool) : List (Option Position × Element) → List CallSite
  | [] => []
  | (_, e) :: es => inElement looked e ++ inElements looked es

end

def ofElements (t : Template) : List CallSite :=
  inElements true t

end CallSite

/-! ## Before rendering -/

section Check

variable {p : Position}

def AllSound (cs : List CallSite) : Prop :=
  ∀ c ∈ cs, c.checked = true → c.Sound

theorem AllSound.nil : AllSound [] := by
  intro c hc
  cases hc

theorem AllSound.cons {c : CallSite} {cs : List CallSite} (hc : c.checked = true → c.Sound)
    (hcs : AllSound cs) : AllSound (c :: cs) :=
  List.forall_mem_cons.mpr ⟨hc, hcs⟩

theorem AllSound.append {cs ds : List CallSite} (hcs : AllSound cs) (hds : AllSound ds) :
    AllSound (cs ++ ds) :=
  List.forall_mem_append.mpr ⟨hcs, hds⟩

theorem both_of_bind_eq_ok {ε : Type} {x y : Except ε Unit} (h : (do x; y) = .ok ()) :
    x = .ok () ∧ y = .ok () := by
  obtain ⟨⟨⟩, hx, hy⟩ := exists_of_bind_eq_ok h
  exact ⟨hx, hy⟩

theorem acceptsMethod_of_checkMethod {h : Helper} {as : List Argument} {m : String}
    (hcheck : checkMethod h as p = .ok ())
    (hm : (h.methodPosition?.bind fun i => (positional as)[i]?) = some (.literal (.str m))) :
    h.acceptsMethod m = true := by
  unfold checkMethod at hcheck
  rw [hm] at hcheck
  dsimp only at hcheck
  split at hcheck
  · assumption
  · cases hcheck

theorem sound_of_checkCall {block : Bool} {name : String} {as : List Argument}
    (h : checkCall block name as p = .ok ()) (hlooked : (block || !as.isEmpty) = true)
    (checked : Bool) : CallSite.Sound ⟨some name, as, checked⟩ := by
  unfold checkCall at h
  rw [hlooked, Bool.true_and] at h
  by_cases hname : isHelperName name = true
  · rw [hname] at h
    refine ⟨⟨name, rfl, hname⟩, fun helper m hm => ?_⟩
    unfold CallSite.literalMethod? at hm
    rw [Option.bind_some] at hm
    cases hhelper : Helper.ofName? name with
    | none =>
      rw [hhelper] at hm
      cases hm
    | some helper' =>
      rw [hhelper] at h hm
      dsimp only at hm
      split at hm
      · cases hm
        exact acceptsMethod_of_checkMethod h ‹_›
      · cases hm
  · rw [if_pos (by simpa using hname)] at h
    cases h

mutual

theorem sound_of_checkExpression (looked : Bool) (e : Expression)
    (h : looked = true → checkExpression p e = .ok ()) : AllSound (CallSite.ofExpression looked e) := by
  cases e with
  | call name as =>
    have hchecked (hlooked : looked = true) : checkCall false name as p = .ok () ∧
        checkPositional p as = .ok () ∧ checkNamed p as = .ok () := by
      have hcheck := h hlooked
      rw [checkExpression] at hcheck
      obtain ⟨hcall, hcheck⟩ := both_of_bind_eq_ok hcheck
      exact ⟨hcall, both_of_bind_eq_ok hcheck⟩
    rw [CallSite.ofExpression]
    refine .cons (fun hcall => ?_) (.append ?_ ?_)
    · obtain ⟨hlooked, has⟩ := Bool.and_eq_true_iff.mp hcall
      exact sound_of_checkCall (hchecked hlooked).1 has _
    · exact sound_of_checkPositional looked as fun hlooked => (hchecked hlooked).2.1
    · exact sound_of_checkNamed looked as fun hlooked => (hchecked hlooked).2.2
  | _ => exact .nil

theorem sound_of_checkPositional (looked : Bool) (as : List (Option String × Expression))
    (h : looked = true → checkPositional p as = .ok ()) :
    AllSound (CallSite.ofPositional looked as) := by
  match as with
  | [] => exact .nil
  | (none, e) :: as =>
    rw [CallSite.ofPositional]
    rw [checkPositional] at h
    exact (sound_of_checkExpression looked e fun hlooked => (both_of_bind_eq_ok (h hlooked)).1).append
      (sound_of_checkPositional looked as fun hlooked => (both_of_bind_eq_ok (h hlooked)).2)
  | (some _, _) :: as =>
    rw [CallSite.ofPositional]
    rw [checkPositional] at h
    exact sound_of_checkPositional looked as h

theorem sound_of_checkNamed (looked : Bool) (as : List (Option String × Expression))
    (h : looked = true → checkNamed p as = .ok ()) : AllSound (CallSite.ofNamed looked as) := by
  match as with
  | [] => exact .nil
  | (none, _) :: as =>
    rw [CallSite.ofNamed]
    rw [checkNamed] at h
    exact sound_of_checkNamed looked as h
  | (some k, e) :: as =>
    rw [CallSite.ofNamed]
    rw [checkNamed] at h
    split
    · rename_i hshadowed
      rw [if_pos hshadowed] at h
      exact sound_of_checkNamed looked as h
    · rename_i hlast
      rw [if_neg hlast] at h
      exact (sound_of_checkExpression looked e fun hlooked => (both_of_bind_eq_ok (h hlooked)).1).append
        (sound_of_checkNamed looked as fun hlooked => (both_of_bind_eq_ok (h hlooked)).2)

end

theorem sound_of_checkArguments (looked : Bool) (as : List Argument)
    (hpositional : looked = true → checkPositional p as = .ok ())
    (hnamed : looked = true → checkNamed p as = .ok ()) : AllSound (CallSite.ofArguments looked as) :=
  (sound_of_checkPositional looked as hpositional).append (sound_of_checkNamed looked as hnamed)

mutual

theorem allSound_overlooked (e : Element) : AllSound (CallSite.inElement false e) := by
  have hexpression (e : Expression) : AllSound (CallSite.ofExpression false e) :=
    sound_of_checkExpression (p := .start) false e nofun
  have harguments (as : List Argument) : AllSound (CallSite.ofArguments false as) :=
    sound_of_checkArguments (p := .start) false as nofun nofun
  match e with
  | .text _ | .comment => exact .nil
  | .value _ e => exact hexpression e
  | .computed _ e => exact .cons nofun (hexpression e)
  | .block head body alternative =>
    rw [CallSite.inElement]
    have hbodies := (allSound_overlookedAll body).append (allSound_overlookedAll alternative)
    exact .cons nofun ((harguments _).append hbodies)
  | .insertion name as none =>
    rw [CallSite.inElement]
    exact (hexpression name).append (harguments as)
  | .insertion name as (some body) =>
    rw [CallSite.inElement]
    exact (hexpression name).append ((harguments as).append (allSound_overlookedAll body))
  | .decoration head none =>
    rw [CallSite.inElement]
    exact harguments _
  | .decoration head (some body) =>
    rw [CallSite.inElement]
    exact (harguments _).append (allSound_overlookedAll body)

theorem allSound_overlookedAll (es : List (Option Position × Element)) :
    AllSound (CallSite.inElements false es) := by
  match es with
  | [] => exact .nil
  | (_, e) :: es =>
    rw [CallSite.inElements]
    exact (allSound_overlooked e).append (allSound_overlookedAll es)

end

mutual

theorem sound_of_checkElement (e : Element) (q : Position) (h : checkElement q e = .ok ()) :
    AllSound (CallSite.inElement true e) := by
  match e with
  | .text _ | .comment => exact .nil
  | .value _ e =>
    rw [checkElement] at h
    exact sound_of_checkExpression true e fun _ => h
  | .computed escaped e => exact allSound_overlooked (.computed escaped e)
  | .block head body alternative =>
    rw [checkElement] at h
    obtain ⟨hcall, h⟩ := both_of_bind_eq_ok h
    obtain ⟨hpositional, h⟩ := both_of_bind_eq_ok h
    obtain ⟨hnamed, h⟩ := both_of_bind_eq_ok h
    obtain ⟨hbody, halternative⟩ := both_of_bind_eq_ok h
    rw [CallSite.inElement]
    refine .cons (fun _ => sound_of_checkCall hcall rfl _) (.append ?_ ?_)
    · exact sound_of_checkArguments true head.arguments (fun _ => hpositional) fun _ => hnamed
    · exact (sound_of_checkElements body hbody).append (sound_of_checkElements alternative halternative)
  | .insertion name as none => exact allSound_overlooked (.insertion name as none)
  | .insertion name as (some body) => exact allSound_overlooked (.insertion name as (some body))
  | .decoration head none => exact allSound_overlooked (.decoration head none)
  | .decoration head (some body) => exact allSound_overlooked (.decoration head (some body))

/-- **The calls of a template** that are looked at are sound if it is not refused. -/
theorem sound_of_checkElements (es : List (Option Position × Element)) (h : checkElements es = .ok ()) :
    AllSound (CallSite.inElements true es) := by
  match es with
  | [] => exact .nil
  | (q, e) :: es =>
    rw [checkElements] at h
    obtain ⟨he, hes⟩ := both_of_bind_eq_ok h
    rw [CallSite.inElements]
    exact (sound_of_checkElement e _ he).append (sound_of_checkElements es hes)

end

theorem checkElements_of_ofText? {text : String} {t : Template} (h : Template.ofText? text = .ok t) :
    checkElements t = .ok () := by
  unfold Template.ofText? at h
  split at h
  · cases h
  · rename_i ss hread
    dsimp only at h
    split at h
    · cases h
    · obtain ⟨t', -, h⟩ := exists_of_bind_eq_ok h
      obtain ⟨⟨⟩, hcheck, h⟩ := exists_of_bind_eq_ok h
      cases h
      exact hcheck

end Check

end ChartTemplate
