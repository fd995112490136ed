import Lispette.CommandLine.Output
import Lispette.Eval
import Lispette.Tree.Printer

/-!
Running sources one after the other: each finds the scope as the sources before it left it,
and its output is taken out of the store before the next one runs.
-/

namespace Lispette

structure Workspace where
  scope : Scope
  meter : Nat
  store : Store

/-- The result of a source: its tree if trees are asked for, else its value. -/
inductive Shown
  | tree (text : String)
  | value (v : Value)

def Shown.text : Shown → String
  | .tree text => text
  | .value v => v.shown

namespace Workspace

def start (o : Options) (limit : Nat) : Output × Workspace :=
  let metered := Store.newMeter {} limit
  let made := Action.sure Scope.prelude metered.2
  (made.2.output o, ⟨made.1, metered.1, made.2.cleared⟩)

def execute (w : Workspace) (o : Options) (source : String) : Action Failure Shown :=
  if o.showTree then do
    let t ← readSource source
    return .tree t.text
  else do
    let v ← evaluate w.meter w.scope source
    Action.record (.evaluated v.kind)
    return .value v

def run (w : Workspace) (o : Options) (source : String) :
    Except Failure Shown × Output × Workspace :=
  match w.execute o source w.store with
  | .ok shown store => (.ok shown, store.output o, { w with store := store.cleared })
  | .error e store => (.error e, store.output o, { w with store := store.cleared })

end Workspace
end Lispette
