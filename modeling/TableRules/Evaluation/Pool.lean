/-!
# Evaluating side by side

With more than one worker, the columns and the conditional rules of a table are evaluated side by
side. A **pool** queues the evaluations in the order of their items, each with the slot that its
result goes to. From then on it makes moves, in an order that nothing fixes: a free worker takes up
the next evaluation of the queue, a running evaluation ends, the result of one that ended is put
into its slot. A fault that is met in place of a result breaks the collecting off; the evaluations
that are left are still carried out.

`Pool.step` carries out a move, if it is possible, and `Pool.run` a sequence of moves. With one
worker, or for at most one item, there is no pool (`Pool.Yields`).
-/

namespace TableRules

/-- Evaluations under way: those that wait, those that run and those that ended, each with its slot,
the results that were collected, and the fault that was met. -/
structure Pool (α ε β : Type) where
  waiting : List (Nat × α)
  running : List (Nat × α)
  ended : List (Nat × Except ε β)
  results : List (Option β)
  fault : Option ε

namespace Pool

/-- What happens next in a pool. Running and ended evaluations are named by their places. -/
inductive Move
  | takeUp
  | finish (place : Nat)
  | collect (place : Nat)
  deriving DecidableEq, Repr

variable {α ε β : Type}

/-- A pool before its first move: all items wait, and all slots are empty. -/
def start (items : List α) : Pool α ε β :=
  ⟨items.zipIdx.map fun (x, slot) => (slot, x), [], [], items.map fun _ => none, none⟩

/-- Puts what came of an evaluation into its slot; a fault goes into none. -/
def accept (p : Pool α ε β) (slot : Nat) : Except ε β → Pool α ε β
  | .ok y => { p with results := p.results.set slot (some y) }
  | .error e => { p with fault := some e }

/-- Carries out a move, if it is possible. -/
def step (workers : Nat) (f : α → Except ε β) (p : Pool α ε β) : Move → Option (Pool α ε β)
  | .takeUp =>
    match p.waiting with
    | [] => none
    | task :: rest =>
      if p.running.length < workers then
        some { p with waiting := rest, running := p.running ++ [task] }
      else none
  | .finish place =>
    p.running[place]?.map fun (slot, x) =>
      { p with running := p.running.eraseIdx place, ended := p.ended ++ [(slot, f x)] }
  | .collect place =>
    if p.fault.isSome then none
    else p.ended[place]?.map fun (slot, r) =>
      { p with ended := p.ended.eraseIdx place }.accept slot r

/-- Carries out moves one after another, if they are possible. -/
def run (workers : Nat) (f : α → Except ε β) (p : Pool α ε β) (moves : List Move) :
    Option (Pool α ε β) :=
  moves.foldlM (step workers f) p

/-- No move is possible. -/
def IsStuck (workers : Nat) (f : α → Except ε β) (p : Pool α ε β) : Prop :=
  ∀ move, p.step workers f move = none

/-- What came of a pool: the fault that was met, or the results if all slots are filled. -/
def outcome? (p : Pool α ε β) : Option (Except ε (List β)) :=
  match p.fault with
  | some e => some (.error e)
  | none => (p.results.mapM id).map .ok

/-- What evaluating items with some workers may come to. One worker evaluates them in turn, as does
any number at most one item; otherwise a pool runs until no move is possible. -/
def Yields (workers : Nat) (f : α → Except ε β) (items : List α)
    (r : Option (Except ε (List β))) : Prop :=
  if workers ≤ 1 ∨ items.length ≤ 1 then r = some (items.mapM f)
  else ∃ moves p, (start items).run workers f moves = some p ∧ p.IsStuck workers f ∧ r = p.outcome?

end Pool

end TableRules
