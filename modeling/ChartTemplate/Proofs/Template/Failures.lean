import ChartTemplate.Proofs.Template.CallSites
import ChartTemplate.Proofs.Template.Ends

/-!
# Failures of renderings

`Rendering.Within` says of a step of a rendering that given call sites account for all of its failures: it
misses a helper only where one of them calls it, and only refuses methods that the helper lacks. It also says
that what the step defines calls helpers nowhere else, and whether the stack may be full. It is closed under
the ways in which steps are put together, so the call sites of a template account for all failures of its
rendering (`Template.calls_within`), and the stack is only full where a template is inserted
(`Template.calls_of_insertsNothing`).
-/

namespace ChartTemplate

/-- The calls account for an error: a helper that does not exist is called, a method that is refused is
one that the helper lacks. -/
def RenderError.AccountedBy (cs : List CallSite) : RenderError → Prop
  | .helperNotFound name => isHelperName name = false ∧ ∃ c ∈ cs, c.MayName name
  | .helper e => e.Lacking
  | _ => True

mutual

def Element.inserts : Element → Bool
  | .insertion _ _ _ => true
  | .block _ body alternative => insertsIn body || insertsIn alternative
  | _ => false

def insertsIn : List (Option Position × Element) → Bool
  | [] => false
  | (_, e) :: es => e.inserts || insertsIn es

end

def Template.InsertsNothing (t : Template) : Prop :=
  insertsIn t = false

namespace Rendering

variable {α β : Type} {full : Prop} {cs : List CallSite}

/-! ## Steps -/

/-- The calls of a template are among the given ones. -/
def CallsWithin (cs : List CallSite) (t : Template) : Prop :=
  ∃ looked, CallSite.inElements looked t ⊆ cs

def DefinesWithin (cs : List CallSite) (defined : Entries Template) : Prop :=
  ∀ name t, Entries.get? defined name = some t → CallsWithin cs t

/-- The calls account for every failure of a step, and for what it defines. -/
def Within (full : Prop) (cs : List CallSite) (x : Rendering α) : Prop :=
  ∀ defined, DefinesWithin cs defined → (x.calls defined).Ends full fun
    | .ok (_, defined) => DefinesWithin cs defined
    | .error failure => failure.error.AccountedBy cs

theorem calls_bind (x : Rendering α) (f : α → Rendering β) (defined : Entries Template) :
    (x >>= f).calls defined = (x.calls defined).bind fun
      | .ok (a, defined) => (f a).calls defined
      | .error failure => .done (.error failure) := by
  show CallTree.bind _ _ = _
  congr 1
  funext r
  cases r <;> rfl

theorem calls_tryCatch (x : Rendering α) (f : RenderFailure → Rendering α) (defined : Entries Template) :
    (tryCatch x f).calls defined = (x.calls defined).bind fun
      | .ok r => .done (.ok r)
      | .error failure => (f failure).calls defined := by
  show CallTree.bind _ _ = _
  congr 1
  funext r
  cases r <;> rfl

namespace Within

theorem pure (a : α) : Within full cs (Pure.pure a : Rendering α) :=
  fun _ hdefined => hdefined

theorem throw {failure : RenderFailure} (hfailure : failure.error.AccountedBy cs) :
    Within full cs (MonadExcept.throw failure : Rendering α) :=
  fun _ _ => hfailure

theorem bind {x : Rendering α} {f : α → Rendering β} (hx : Within full cs x)
    (hf : ∀ a, Within full cs (f a)) : Within full cs (x >>= f) := by
  intro defined hdefined
  rw [calls_bind]
  refine (hx defined hdefined).bind fun r hr => ?_
  match r with
  | .ok (a, defined') => exact hf a defined' hr
  | .error failure => exact hr

theorem tryCatch {x : Rendering α} {f : RenderFailure → Rendering α} (hx : Within full cs x)
    (hf : ∀ failure, failure.error.AccountedBy cs → Within full cs (f failure)) :
    Within full cs (MonadExcept.tryCatch x f) := by
  intro defined hdefined
  rw [calls_tryCatch]
  refine (hx defined hdefined).bind fun r hr => ?_
  match r with
  | .ok r => exact hr
  | .error failure => exact hf failure hr defined hdefined

theorem get_bind {f : Entries Template → Rendering α}
    (hf : ∀ defined, DefinesWithin cs defined → Within full cs (f defined)) :
    Within full cs (get >>= f) :=
  fun defined hdefined => hf defined hdefined defined hdefined

theorem modify {f : Entries Template → Entries Template}
    (hf : ∀ defined, DefinesWithin cs defined → DefinesWithin cs (f defined)) :
    Within full cs (modify f : Rendering PUnit) :=
  fun defined hdefined => hf defined hdefined

end Within

theorem DefinesWithin.insert {defined : Entries Template} (h : DefinesWithin cs defined) (name : String)
    {t : Template} (ht : CallsWithin cs t) : DefinesWithin cs (Entries.insert defined name t) := by
  intro name' t' hget
  rw [Entries.get?_insert] at hget
  split at hget
  · cases hget
    exact ht
  · exact h name' t' hget

variable {root : Json} {scopes : List Scope}

/-! ## Calls -/

theorem fail_within {e : RenderError} (he : e.AccountedBy cs) : Within full cs (fail e : Rendering α) :=
  .throw he

theorem placing_within (p : Option Position) {x : Rendering α} (hx : Within full cs x) :
    Within full cs (placing p x) :=
  hx.tryCatch fun _ h => .throw h

theorem resolve_within (r : Reference) : Within full cs (resolve root scopes r) := by
  unfold resolve
  split
  · exact .pure _
  · exact fail_within trivial

theorem callHelper_within (h : Helper) (args : List (Option Json)) :
    Within full cs (callHelper h args) := by
  intro defined hdefined r hr
  match r with
  | .error e => exact hr e rfl
  | .ok v => cases v <;> exact hdefined

theorem checkArity_within (b : Builtin) (args : CallArguments) : Within full cs (checkArity b args) := by
  unfold checkArity
  split
  · exact fail_within trivial
  · exact .pure _

theorem isHelperName_eq_false_iff (name : String) :
    isHelperName name = false ↔ Callee.ofName? name = none := by
  unfold isHelperName Callee.ofName?
  cases Helper.ofName? name <;> simp

theorem callValue_within {name : String} (args : CallArguments)
    (hname : isHelperName name = false → ∃ c ∈ cs, c.MayName name) :
    Within full cs (callValue name args) := by
  unfold callValue
  split
  · rename_i hnone
    have hmissing := (isHelperName_eq_false_iff name).mpr hnone
    exact fail_within ⟨hmissing, hname hmissing⟩
  · exact callHelper_within _ _
  · exact (checkArity_within _ _).bind fun _ => .pure _

mutual

theorem evaluate_within (looked : Bool) (e : Expression) (h : CallSite.ofExpression looked e ⊆ cs) :
    Within full cs (evaluate root scopes e) := by
  cases e with
  | reference r => exact resolve_within r
  | literal j => exact .pure _
  | malformed text => exact .pure _
  | call name as =>
    rw [CallSite.ofExpression, List.cons_subset, List.append_subset] at h
    obtain ⟨hcall, hpositional, hnamed⟩ := h
    rw [evaluate]
    exact (evaluatePositional_within looked as hpositional).bind fun positional =>
      (evaluateNamed_within looked as hnamed).bind fun named =>
        callValue_within _ fun _ => ⟨_, hcall, .inr rfl⟩

theorem evaluatePositional_within (looked : Bool) (as : List (Option String × Expression))
    (h : CallSite.ofPositional looked as ⊆ cs) :
    Within full cs (evaluatePositional root scopes as) := by
  match as with
  | [] => exact .pure _
  | (none, e) :: as =>
    rw [CallSite.ofPositional, List.append_subset] at h
    rw [evaluatePositional]
    exact (evaluate_within looked e h.1).bind fun j =>
      (evaluatePositional_within looked as h.2).bind fun js => .pure _
  | (some _, _) :: as =>
    rw [CallSite.ofPositional] at h
    rw [evaluatePositional]
    exact evaluatePositional_within looked as h

theorem evaluateNamed_within (looked : Bool) (as : List (Option String × Expression))
    (h : CallSite.ofNamed looked as ⊆ cs) : Within full cs (evaluateNamed root scopes as) := by
  match as with
  | [] => exact .pure _
  | (none, _) :: as =>
    rw [CallSite.ofNamed] at h
    rw [evaluateNamed]
    exact evaluateNamed_within looked as h
  | (some k, e) :: as =>
    rw [CallSite.ofNamed] at h
    rw [evaluateNamed]
    split
    · rename_i hshadowed
      rw [if_pos hshadowed] at h
      exact evaluateNamed_within looked as h
    · rename_i hlast
      rw [if_neg hlast, List.append_subset] at h
      exact (evaluate_within looked e h.1).bind fun j =>
        (evaluateNamed_within looked as h.2).bind fun js => .pure _

end

theorem evaluateArguments_within (looked : Bool) (as : List Argument)
    (h : CallSite.ofArguments looked as ⊆ cs) : Within full cs (evaluateArguments root scopes as) := by
  obtain ⟨hpositional, hnamed⟩ := List.append_subset.1 h
  exact (evaluatePositional_within looked as hpositional).bind fun _ =>
    (evaluateNamed_within looked as hnamed).bind fun _ => .pure _

theorem writeCall_within {name : String} (looked escaped : Bool) (as : List Argument)
    (hname : isHelperName name = false → ∃ c ∈ cs, c.MayName name)
    (h : CallSite.ofArguments looked as ⊆ cs) :
    Within full cs (writeCall root scopes escaped name as) :=
  (evaluateArguments_within looked as h).bind fun _ => (callValue_within _ hname).bind fun _ => .pure _

theorem writeValue_within (looked escaped : Bool) (e : Expression)
    (h : CallSite.ofExpression looked e ⊆ cs) : Within full cs (writeValue root scopes escaped e) := by
  unfold writeValue
  split
  · split
    · rename_i hname
      -- a reference is a call only if it is the name of a helper
      refine writeCall_within looked escaped [] (fun hmissing => ?_) (List.nil_subset _)
      rw [hname] at hmissing
      cases hmissing
    · exact (resolve_within _).bind fun _ => .pure _
  · rw [CallSite.ofExpression, List.cons_subset] at h
    exact writeCall_within looked escaped _ (fun _ => ⟨_, h.1, .inr rfl⟩) h.2
  · exact .pure _

/-- The name that a call in parentheses gives may be another one when it is evaluated again. -/
theorem writeComputed_within (looked escaped : Bool) (e : Expression)
    (h : ⟨none, [], false⟩ :: CallSite.ofExpression looked e ⊆ cs) :
    Within full cs (writeComputed root scopes escaped e) := by
  obtain ⟨hcomputed, he⟩ := List.cons_subset.1 h
  refine (evaluate_within looked e he).bind fun first => (evaluate_within looked e he).bind fun again => ?_
  split
  · exact writeCall_within looked escaped [] (fun _ => ⟨_, hcomputed, .inl rfl⟩) (List.nil_subset _)
  · exact .pure _

/-! ## Blocks -/

theorem inTurn_within {rs : List (Rendering String)} (h : ∀ r ∈ rs, Within full cs r) :
    Within full cs (inTurn rs) := by
  induction rs with
  | nil => exact .pure _
  | cons r rs ih =>
    have hrest := ih fun r hr => h r (List.mem_cons_of_mem _ hr)
    exact (h r List.mem_cons_self).bind fun _ => hrest.bind fun _ => .pure _

theorem writeBlock_within (b : Builtin) (binders : List String) (args : CallArguments)
    {body alternative : List Scope → Rendering String} (hbody : ∀ scopes, Within full cs (body scopes))
    (halternative : ∀ scopes, Within full cs (alternative scopes)) :
    Within full cs (writeBlock scopes b binders args body alternative) := by
  refine (checkArity_within b args).bind fun _ => ?_
  have hchoice (c : Prop) [Decidable c] :
      Within full cs (if c then body scopes else alternative scopes) := by
    split
    · exact hbody scopes
    · exact halternative scopes
  cases b with
  | condition expected => exact hchoice _
  | each =>
    dsimp only
    split
    · exact halternative scopes
    · refine inTurn_within fun r hr => ?_
      obtain ⟨part, -, rfl⟩ := List.mem_map.1 hr
      exact hbody (part :: scopes)
  | within =>
    dsimp only
    split
    · exact hbody _
    · exact halternative scopes
  | raw => exact hbody scopes
  | _ =>
    dsimp only
    split
    · exact hbody scopes
    · exact halternative scopes
    · exact .pure _

/-! ## Decorators -/

/-- The calls of a body that may be missing are among the given ones. -/
def BodyWithin (cs : List CallSite) (body : Option Template) : Prop :=
  ∀ t, body = some t → CallsWithin cs t

theorem bodyWithin_some {looked : Bool} {t : Template} (h : CallSite.inElements looked t ⊆ cs) :
    BodyWithin cs (some t) := by
  rintro _ ⟨⟩
  exact ⟨looked, h⟩

theorem decorate_within {head : Invocation} (harguments : CallSite.ofArguments false head.arguments ⊆ cs)
    {body : Option Template} (hbody : BodyWithin cs body) :
    Within full cs (decorate root scopes head body) := by
  refine (evaluateArguments_within false _ harguments).bind fun args => ?_
  dsimp only
  split
  case' isTrue =>
    refine (fail_within (e := .decoratorNotFound head.name) trivial).bind fun _ => ?_
  all_goals
    split
    · exact fail_within trivial
    · split
      · exact .modify fun _ hdefined => hdefined.insert _ (hbody _ rfl)
      · exact fail_within trivial
    · exact fail_within trivial

theorem callsWithin_cons {p : Option Position} {e : Element} {es : Template}
    (h : CallsWithin cs ((p, e) :: es)) :
    (∃ looked, CallSite.inElement looked e ⊆ cs) ∧ CallsWithin cs es := by
  obtain ⟨looked, h⟩ := h
  obtain ⟨he, hes⟩ := List.append_subset.1 h
  exact ⟨⟨looked, he⟩, looked, hes⟩

theorem decoration_within {looked : Bool} {head : Invocation} {body : Option Template}
    (h : CallSite.inElement looked (.decoration head body) ⊆ cs) :
    Within full cs (decorate root scopes head body) := by
  match body with
  | none => exact decorate_within h nofun
  | some t =>
    rw [CallSite.inElement, List.append_subset] at h
    exact decorate_within h.1 (bodyWithin_some h.2)

theorem defineAll_within (t : Template) (h : CallsWithin cs t) :
    Within full cs (defineAll root scopes t) := by
  fun_induction defineAll root scopes t with
  | case1 => exact .pure _
  | case2 p head body es ih =>
    obtain ⟨⟨looked, he⟩, hes⟩ := callsWithin_cons h
    exact (placing_within p (decoration_within he)).bind fun _ => ih hes
  | case3 _ _ _ ih => exact ih (callsWithin_cons h).2

/-! ## Insertions -/

/-- A way to insert templates whose calls are among the given ones does nothing else. -/
def InsertsWithin (full : Prop) (cs : List CallSite) (insert : Inserter) : Prop :=
  ∀ scopes name args body, BodyWithin cs body → Within full cs (insert scopes name args body)

mutual

theorem writeElement_within {insert : Inserter} (looked : Bool) (scopes : List Scope) (e : Element)
    (h : CallSite.inElement looked e ⊆ cs)
    (hinsert : e.inserts = true → InsertsWithin full cs insert) :
    Within full cs (writeElement root insert scopes e) := by
  match e with
  | .text s => exact .pure _
  | .comment => exact .pure _
  | .value escaped e => exact writeValue_within looked escaped e h
  | .computed escaped e => exact writeComputed_within false escaped e h
  | .block head body alternative =>
    rw [CallSite.inElement, List.cons_subset, List.append_subset, List.append_subset] at h
    obtain ⟨hcall, harguments, hbody, halternative⟩ := h
    rw [Element.inserts, Bool.or_eq_true] at hinsert
    rw [writeElement]
    refine (evaluateArguments_within looked _ harguments).bind fun args => ?_
    split
    · rename_i hnone
      exact fail_within ⟨(isHelperName_eq_false_iff _).mpr hnone, _, hcall, .inr rfl⟩
    · exact (callHelper_within _ _).bind fun _ => .pure _
    · exact writeBlock_within _ _ _
        (fun scopes => writeElements_within looked scopes body hbody fun hin => hinsert (.inl hin))
        fun scopes => writeElements_within looked scopes alternative halternative fun hin => hinsert (.inr hin)
  | .insertion name as body =>
    have hinserter := hinsert rfl
    rw [writeElement]
    rcases body with - | t
    · rw [CallSite.inElement, List.append_subset] at h
      exact (evaluate_within false name h.1).bind fun j => (evaluateArguments_within false as h.2).bind
        fun args => hinserter _ _ _ none nofun
    · rw [CallSite.inElement, List.append_subset, List.append_subset] at h
      exact (evaluate_within false name h.1).bind fun j => (evaluateArguments_within false as h.2.1).bind
        fun args => hinserter _ _ _ (some t) (bodyWithin_some h.2.2)
  | .decoration head body =>
    rw [writeElement]
    exact (decoration_within h).bind fun _ => .pure _

theorem writeElements_within {insert : Inserter} (looked : Bool) (scopes : List Scope)
    (es : List (Option Position × Element)) (h : CallSite.inElements looked es ⊆ cs)
    (hinsert : insertsIn es = true → InsertsWithin full cs insert) :
    Within full cs (writeElements root insert scopes es) := by
  match es with
  | [] => exact .pure _
  | (p, e) :: es =>
    rw [CallSite.inElements, List.append_subset] at h
    rw [insertsIn, Bool.or_eq_true] at hinsert
    rw [writeElements]
    exact (placing_within p
        (writeElement_within looked scopes e h.1 fun hin => hinsert (.inl hin))).bind fun _ =>
      (writeElements_within looked scopes es h.2 fun hin => hinsert (.inr hin)).bind fun _ => .pure _

end

/-- The calls of what can be inserted are among the given ones. -/
structure InsertionsWithin (cs : List CallSite) (i : Insertions) : Prop where
  registered : CallsWithin cs i.registered
  bodies : ∀ t ∈ i.bodies, CallsWithin cs t

theorem InsertionsWithin.find? {i : Insertions} (h : InsertionsWithin cs i) {defined : Entries Template}
    (hdefined : DefinesWithin cs defined) {name : String} {body : Option Template}
    (hbody : BodyWithin cs body) {t : Template} (ht : i.find? defined name body = some t) :
    CallsWithin cs t := by
  rw [Insertions.find?, Option.orElse_eq_some, Option.orElse_eq_some] at ht
  obtain ht | ⟨-, ht | ⟨-, ht⟩⟩ := ht
  · split at ht
    · exact h.bodies t (List.mem_of_head? ht)
    · exact hdefined name t ht
  · split at ht
    · cases ht
      exact h.registered
    · cases ht
  · exact hbody t ht

theorem InsertionsWithin.within {i : Insertions} (h : InsertionsWithin cs i) (name : String)
    {body : Option Template} (hbody : BodyWithin cs body) : InsertionsWithin cs (i.within name body) := by
  refine ⟨h.registered, fun t ht => ?_⟩
  rcases List.mem_append.1 ht with ht | ht
  · exact hbody t (Option.mem_toList.1 ht)
  · split at ht
    · exact h.bodies t (List.mem_of_mem_tail ht)
    · exact h.bodies t ht

theorem insert_within {i : Insertions} (h : InsertionsWithin cs i)
    {write : Insertions → List Scope → Template → Rendering String}
    (hwrite : ∀ i scopes t, InsertionsWithin cs i → CallsWithin cs t → Within full cs (write i scopes t)) :
    InsertsWithin full cs (insert write root i) := by
  intro scopes name args body hbody
  have hdefine : Within full cs (defineAll root scopes (body.getD [])) := by
    refine defineAll_within _ ?_
    cases body with
    | none => exact ⟨true, List.nil_subset _⟩
    | some t => exact hbody t rfl
  refine hdefine.bind fun _ => .get_bind fun defined hdefined => ?_
  split
  · rename_i t ht
    exact hwrite _ _ t (h.within name hbody) (h.find? hdefined hbody ht)
  · exact fail_within trivial

theorem writeWithin_within (root : Json) (room : Nat) (i : Insertions) (scopes : List Scope) (t : Template)
    (h : InsertionsWithin cs i) (ht : CallsWithin cs t) :
    Within True cs (writeWithin root room i scopes t) := by
  induction room generalizing i scopes t with
  | zero => exact fun _ _ => trivial
  | succ room ih =>
    obtain ⟨looked, ht⟩ := ht
    exact writeElements_within looked scopes t ht fun _ => insert_within h ih

end Rendering

namespace Template

open Rendering (Within)

variable {full : Prop} {cs : List CallSite}

theorem ends_of_within {x : Rendering String} (h : Within full cs x) :
    (x.run' []).run.Ends full fun
      | .ok _ => True
      | .error failure => failure.error.AccountedBy cs := by
  have hnothing : Rendering.DefinesWithin cs [] := nofun
  show CallTree.Ends full _ ((x.calls []).bind _)
  refine (h [] hnothing).bind fun r hr => ?_
  match r with
  | .ok _ => trivial
  | .error failure => exact hr

/-- **The calls of a template** account for all failures of its rendering. -/
theorem calls_within (t : Template) (root : Json) (room : Nat) :
    (t.calls root room).Ends True fun
      | .ok _ => True
      | .error failure => failure.error.AccountedBy (CallSite.ofElements t) := by
  have ht : Rendering.CallsWithin (CallSite.ofElements t) t := ⟨true, List.Subset.refl _⟩
  have hinsertions : Rendering.InsertionsWithin (CallSite.ofElements t) ⟨t, []⟩ := ⟨ht, nofun⟩
  exact ends_of_within (Rendering.writeElements_within true _ t (List.Subset.refl _) fun _ =>
    Rendering.insert_within hinsertions (Rendering.writeWithin_within root room))

/-- **A template that inserts nothing** does not fill the stack. -/
theorem calls_of_insertsNothing {t : Template} (h : t.InsertsNothing) (root : Json) (room : Nat) :
    (t.calls root room).Ends False fun
      | .ok _ => True
      | .error failure => failure.error.AccountedBy (CallSite.ofElements t) := by
  refine ends_of_within (Rendering.writeElements_within true _ t (List.Subset.refl _) fun hin => ?_)
  exact absurd hin (by rw [h]; exact Bool.false_ne_true)

end Template

end ChartTemplate
