import ChartTemplate.Helper.Call

/-!
# Trees of calls

All that a template does to the state of helpers, it does by calling them. A `CallTree` holds the call that
comes next for every outcome of those before, and what they lead to in the end. Trees meet a state only in
`CallTree.run`, which makes the calls, and in `CallTree.left`, the state that they leave even if one of
them is cut off.
-/

namespace ChartTemplate

/-- Calls of helpers, of which each is chosen by the outcomes of those before it. -/
inductive CallTree (α : Type) where
  | done (a : α)
  /-- The stack has no room for what is to come. -/
  | outOfStack
  | call (h : Helper) (args : List Value) (next : Except HelperError Value → CallTree α)

namespace CallTree

variable {α β σ : Type} [HostServices σ]

def bind (t : CallTree α) (f : α → CallTree β) : CallTree β :=
  match t with
  | done a => f a
  | outOfStack => outOfStack
  | call h args next => call h args fun r => (next r).bind f

instance : Monad CallTree where
  pure := done
  bind := bind

def ask (h : Helper) (args : List Value) : CallTree (Except HelperError Value) :=
  call h args done

/-- Makes the calls. One that ends in an error leaves the state as it was. -/
def run (table : Table) (zone : TimeZone) : CallTree α → HelperState σ → Except Fault (α × HelperState σ)
  | done a, s => pure (a, s)
  | outOfStack, _ => throw .fullStack
  | call h args next, s => do
    match ← (h.call table s args zone).run with
    | .error e => (next (.error e)).run table zone s
    | .ok (s, v) => (next (.ok v)).run table zone s

/-- The state that the calls leave, up to one that is cut off. -/
def left (table : Table) (zone : TimeZone) : CallTree α → HelperState σ → HelperState σ
  | done _, s | outOfStack, s => s
  | call h args next, s =>
    match (h.call table s args zone).run with
    | .ok (.error e) => (next (.error e)).left table zone s
    | .ok (.ok (s, v)) => (next (.ok v)).left table zone s
    | .error _ => h.left s args

end CallTree

end ChartTemplate
