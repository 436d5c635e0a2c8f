import ChartTemplate.Proofs.Template.Failures

/-!
# Room on the stack

How many templates can be inserted into one another is left to the process. More room only changes renderings
that fill the stack (`Template.run_of_room_le`): with more room a rendering makes the same calls and ends in
the same way, or goes on where the stack was full (`CallTree.Extends`). A template that inserts itself under
no condition fills any stack (`Template.run_selfInserting`).
-/

namespace ChartTemplate

variable {α β σ : Type}

namespace CallTree

/-- The second tree makes the calls of the first, and may go on where the stack is full there. -/
inductive Extends : CallTree α → CallTree α → Prop
  | done (a : α) : Extends (done a) (done a)
  | outOfStack (t : CallTree α) : Extends outOfStack t
  | call {h : Helper} {args : List Value} {next next' : Except HelperError Value → CallTree α}
      (hnext : ∀ r, Extends (next r) (next' r)) : Extends (call h args next) (call h args next')

theorem Extends.refl (t : CallTree α) : t.Extends t := by
  induction t with
  | done a => exact .done a
  | outOfStack => exact .outOfStack _
  | call h args next ih => exact .call ih

theorem Extends.bind {t t' : CallTree α} {f f' : α → CallTree β} (h : t.Extends t')
    (hf : ∀ a, (f a).Extends (f' a)) : (t.bind f).Extends (t'.bind f') := by
  induction h with
  | done a => exact hf a
  | outOfStack t => exact .outOfStack _
  | call _ ih => exact .call ih

/-- Unless it fills the stack, a tree ends as one does that goes on there. -/
theorem Extends.run_eq [HostServices σ] {table : Table} {zone : TimeZone} {t t' : CallTree α}
    (h : t.Extends t') {s : HelperState σ} (hroom : ¬ ∃ u, t.Reaches table zone s .outOfStack u) :
    t'.run table zone s = t.run table zone s := by
  induction h generalizing s with
  | done a => rfl
  | outOfStack t => exact absurd ⟨s, .here⟩ hroom
  | @call helper args next next' _ ih =>
    match hcall : (helper.call table s args zone).run with
    | .error f => rw [run_of_fault hcall, run_of_fault hcall]
    | .ok (.error e) =>
      rw [run_of_refused hcall, run_of_refused hcall]
      exact ih _ fun ⟨u, hu⟩ => hroom ⟨u, .refused hcall hu⟩
    | .ok (.ok (s', v)) =>
      rw [run_of_answered hcall, run_of_answered hcall]
      exact ih _ fun ⟨u, hu⟩ => hroom ⟨u, .answered hcall hu⟩

end CallTree

namespace Rendering

/-- The second step does what the first one does, and may go on where the stack is full there. -/
def Extends (x y : Rendering α) : Prop :=
  ∀ defined, (x.calls defined).Extends (y.calls defined)

theorem Extends.refl (x : Rendering α) : Extends x x :=
  fun _ => .refl _

theorem Extends.bind {x y : Rendering α} {f g : α → Rendering β} (h : Extends x y)
    (hf : ∀ a, Extends (f a) (g a)) : Extends (x >>= f) (y >>= g) := by
  intro defined
  rw [calls_bind, calls_bind]
  refine (h defined).bind fun r => ?_
  match r with
  | .ok (a, defined') => exact hf a defined'
  | .error failure => exact .refl _

theorem Extends.after (x : Rendering α) {f g : α → Rendering β} (hf : ∀ a, Extends (f a) (g a)) :
    Extends (x >>= f) (x >>= g) :=
  (Extends.refl x).bind hf

theorem Extends.placing (p : Option Position) {x y : Rendering α} (h : Extends x y) :
    Extends (placing p x) (placing p y) := by
  intro defined
  unfold Rendering.placing
  rw [calls_tryCatch, calls_tryCatch]
  exact (h defined).bind fun r => .refl _

variable {root : Json}

theorem inTurn_extends {scopes : List Scope} {body body' : List Scope → Rendering String}
    (hbody : ∀ scopes, Extends (body scopes) (body' scopes)) (parts : List Scope) :
    Extends (inTurn (parts.map fun s => body (s :: scopes)))
      (inTurn (parts.map fun s => body' (s :: scopes))) := by
  induction parts with
  | nil => exact .refl _
  | cons part parts ih => exact (hbody _).bind fun s => ih.bind fun t => .refl _

theorem writeBlock_extends (scopes : List Scope) (b : Builtin) (binders : List String)
    (args : CallArguments) {body body' alternative alternative' : List Scope → Rendering String}
    (hbody : ∀ scopes, Extends (body scopes) (body' scopes))
    (halternative : ∀ scopes, Extends (alternative scopes) (alternative' scopes)) :
    Extends (writeBlock scopes b binders args body alternative)
      (writeBlock scopes b binders args body' alternative') := by
  refine .after _ fun _ => ?_
  have hchoice (c : Prop) [Decidable c] : Extends (if c then body scopes else alternative scopes)
      (if c then body' scopes else alternative' scopes) := by
    split
    · exact hbody scopes
    · exact halternative scopes
  cases b with
  | condition expected => exact hchoice _
  | each =>
    dsimp only
    split
    · exact halternative scopes
    · exact inTurn_extends hbody _
  | within =>
    dsimp only
    split
    · exact hbody _
    · exact halternative scopes
  | raw => exact hbody scopes
  | _ =>
    dsimp only
    split
    · exact hbody scopes
    · exact halternative scopes
    · exact .refl _

mutual

theorem writeElement_extends {insert insert' : Inserter}
    (h : ∀ scopes name args body, Extends (insert scopes name args body) (insert' scopes name args body))
    (scopes : List Scope) (e : Element) :
    Extends (writeElement root insert scopes e) (writeElement root insert' scopes e) := by
  cases e with
  | text | comment | value | computed | decoration => exact .refl _
  | block head body alternative =>
    rw [writeElement, writeElement]
    refine .after _ fun args => ?_
    split
    · exact .refl _
    · exact .refl _
    · exact writeBlock_extends _ _ _ _ (fun scopes => writeElements_extends h scopes body)
        fun scopes => writeElements_extends h scopes alternative
  | insertion name as body =>
    rw [writeElement, writeElement]
    exact .after _ fun j => .after _ fun args => h _ _ _ _

theorem writeElements_extends {insert insert' : Inserter}
    (h : ∀ scopes name args body, Extends (insert scopes name args body) (insert' scopes name args body))
    (scopes : List Scope) (es : List (Option Position × Element)) :
    Extends (writeElements root insert scopes es) (writeElements root insert' scopes es) := by
  match es with
  | [] => exact .refl _
  | (p, e) :: es =>
    rw [writeElements, writeElements]
    exact ((writeElement_extends h scopes e).placing p).bind fun _ =>
      (writeElements_extends h scopes es).bind fun _ => .refl _

end

theorem insert_extends {write write' : Insertions → List Scope → Template → Rendering String}
    (h : ∀ i scopes t, Extends (write i scopes t) (write' i scopes t)) (i : Insertions)
    (scopes : List Scope) (name : String) (args : CallArguments) (body : Option Template) :
    Extends (insert write root i scopes name args body) (insert write' root i scopes name args body) := by
  refine .after _ fun _ => .after _ fun defined => ?_
  split
  · exact h _ _ _
  · exact .refl _

theorem writeWithin_extends (root : Json) {room room' : ℕ} (h : room ≤ room') (i : Insertions)
    (scopes : List Scope) (t : Template) :
    Extends (writeWithin root room i scopes t) (writeWithin root room' i scopes t) := by
  induction room generalizing room' i scopes t with
  | zero => exact fun _ => .outOfStack _
  | succ room ih =>
    obtain ⟨room', rfl⟩ := Nat.exists_eq_succ_of_ne_zero (Nat.ne_zero_of_lt h)
    exact writeElements_extends (insert_extends (ih (Nat.le_of_succ_le_succ h)) i) scopes t

end Rendering

namespace Template

theorem calls_extends (t : Template) (root : Json) {room room' : ℕ} (h : room ≤ room') :
    (t.calls root room).Extends (t.calls root room') := by
  have hwrite := Rendering.writeWithin_extends root h
  exact (Rendering.writeElements_extends (Rendering.insert_extends hwrite ⟨t, []⟩) _ t []).bind
    fun r => .refl _

variable [HostServices σ] {table : Table} {zone : TimeZone}

/-- **More room** changes nothing unless the stack is full. -/
theorem run_of_room_le (t : Template) (root : Json) {room room' : ℕ} (h : room ≤ room')
    {s : HelperState σ} (hroom : ¬ ∃ u, (t.calls root room).Reaches table zone s .outOfStack u) :
    (t.calls root room').run table zone s = (t.calls root room).run table zone s :=
  (t.calls_extends root h).run_eq hroom

/-- A template that inserts itself under no condition. -/
def selfInserting : Template :=
  [(some ⟨1, 1⟩, .insertion (.literal (.str Rendering.registeredName)) [] none)]

theorem calls_writeWithin_selfInserting (root : Json) (room : ℕ) (scopes : List Scope) :
    (Rendering.writeWithin root room ⟨selfInserting, []⟩ scopes selfInserting).calls [] = .outOfStack := by
  induction room generalizing scopes with
  | zero => rfl
  | succ room ih =>
    -- the tag writes the same template again, about the same document, with less room
    show CallTree.bind (CallTree.bind ((Rendering.writeWithin root room ⟨selfInserting, []⟩
      [.ofData (Scope.innermost scopes)] selfInserting).calls []) _) _ = _
    rw [ih]
    rfl

theorem run_selfInserting (root : Json) (room : ℕ) (s : HelperState σ) :
    (selfInserting.calls root room).run table zone s = .error .fullStack := by
  show CallTree.run table zone (CallTree.bind ((Rendering.writeWithin root (room + 1) ⟨selfInserting, []⟩
    [.ofData root] selfInserting).calls []) _) s = _
  rw [calls_writeWithin_selfInserting]
  rfl

end Template

end ChartTemplate
