import Tabletop.Random.Bytes
import Tabletop.Roll

/-!
# Requests for randomness

What a caller may ask of one supply, in any order.
-/

namespace Tabletop

inductive Request where
  | word
  | doubleWord
  | bytes (n : Nat)
  /-- Bytes for a caller that is ready to be refused. It is served like any other. -/
  | tryBytes (n : Nat)
  | roll (f : Formula)

inductive Response where
  | word (w : Word)
  | doubleWord (w : UInt64)
  | bytes (bs : List UInt8)
  | score (result : Score)
  deriving DecidableEq

namespace Request

def answer : Request → Draw Response
  | .word => return .word (← Draw.word)
  | .doubleWord => return .doubleWord (← Draw.doubleWord)
  | .bytes n | .tryBytes n => return .bytes (← Draw.bytes n)
  | .roll f => return .score (← f.draw).result

/-- With the response, which is none where the supply was dry, comes the number of words delivered
so far. -/
def serve (request : Request) : StateM Supply (Option Response × Nat) := do
  let response? ← request.answer.run
  return (response?, (← get).delivered)

/-- Serves the requests in order. -/
def answerAll (requests : List Request) : StateM Supply (List (Option Response × Nat)) :=
  requests.mapM serve

end Request

end Tabletop
