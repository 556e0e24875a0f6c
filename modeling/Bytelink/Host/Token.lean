/-!
# Cancel tokens

A token stands for a flag that is set once and stays set. A copy of a token stands for the same
flag: the tokens that descend from one fresh token by copying form a family.
-/
namespace Bytelink

structure Token where
  family : Nat
  deriving DecidableEq, Repr

/-- All tokens made so far, in order, and the families whose flag is set. -/
structure Tokens where
  handles : List Token
  nextFamily : Nat
  triggered : List Nat
  deriving DecidableEq, Repr

/-- A step on tokens, which are numbered in the order of their making. -/
inductive TokenStep
  | fresh
  | copy (of : Nat)
  | cancel (of : Nat)
  deriving DecidableEq, Repr

namespace Tokens

def none : Tokens := ⟨[], 0, []⟩

def isCancelled (s : Tokens) (t : Token) : Bool := s.triggered.contains t.family

def cancel (s : Tokens) (t : Token) : Tokens := { s with triggered := t.family :: s.triggered }

/-- A token with a flag of its own. -/
def fresh (s : Tokens) : Token × Tokens :=
  let token := ⟨s.nextFamily⟩
  (token, { s with handles := s.handles ++ [token], nextFamily := s.nextFamily + 1 })

/-- A further token for the same flag. -/
def copy (s : Tokens) (t : Token) : Token × Tokens :=
  (t, { s with handles := s.handles ++ [t] })

/-- Takes a step; one that names a token not made yet changes nothing. -/
def step (s : Tokens) : TokenStep → Tokens
  | .fresh => s.fresh.2
  | .copy of => match s.handles[of]? with
    | some t => (s.copy t).2
    | Option.none => s
  | .cancel of => match s.handles[of]? with
    | some t => s.cancel t
    | Option.none => s

/-- Whether each token made so far is triggered. -/
def states (s : Tokens) : List Bool := s.handles.map s.isCancelled

end Tokens
end Bytelink
