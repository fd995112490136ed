import Lispette.Eval.Budget

/-!
Running programs. Every evaluation and every call ends, so none of these actions shows a
budget. An interpreter is a meter: it counts the calls of all programs that run on it.
-/

namespace Lispette

def defaultLimit : Nat := 200

/-- The action of a trial whose budget suffices in every store. -/
def Trial.complete {ε α : Type} (x : Store → Trial ε α)
    (enough : ∀ s, Trial.Steady s.headroom (x s)) : Action ε α := fun s =>
  match out : x s s with
  | .ok a t => .ok a t
  | .error (.failed e) t => .error e t
  | .error .exhausted _ => ((enough s).not_exhausted out).elim

def Tree.eval (meter : Nat) (scope : Scope) (t : Tree) : Action EvalError Value :=
  Trial.complete (fun s => t.evalWith (Function.invoke s.headroom) meter scope) fun s =>
    Tree.steady_evalWith (Function.steady_invoke s.headroom) scope t

/-- A call that no meter counts; the calls in the function's body count as ever. -/
def Function.call (f : Function) (values : List Value) : Action CallError Value :=
  Trial.complete (fun s => f.invoke (s.headroom + 1) values) fun s =>
    Function.steady_invoke (s.headroom + 1) f values s.headroom (Nat.lt_succ_self _)

def readTokens (source : String) : Action ScanError (List Token) := do
  Action.record (.scanning source)
  let tokens ← Action.ofExcept (Token.scan source)
  Action.record (.scanned tokens.length)
  return tokens

def readTree (tokens : List Token) : Action ParseError Tree := do
  Action.record (.parsing (Tree.significant tokens).length)
  Action.ofExcept (Tree.ofTokens tokens)

def readSource (source : String) : Action Failure Tree := do
  let tokens ← Action.mapError .scan (readTokens source)
  Action.mapError .parse (readTree tokens)

def evaluate (meter : Nat) (scope : Scope) (source : String) : Action Failure Value := do
  let t ← readSource source
  Action.mapError .eval (t.eval meter scope)

end Lispette
