import Noxipher.Core.Errors

namespace Noxipher

/-- What the clients and the key derivation let through: the exceptions of the model, and those of the runtime and of
the packages below. -/
inductive Failure where
  | raised (e : PyError)
  | overflowError (msg : String)
  | cancelledError
  | packageError (msg : String)
  deriving DecidableEq, Repr

namespace Failure

/-- `str(e)` -/
def str : Failure → String
  | raised e => e.str
  | overflowError msg | packageError msg => msg
  | cancelledError => ""

/-- `except Exception`: a cancellation passes through, everything else is wrapped. -/
def wrapped (wrap : String → PyError) : Failure → Failure
  | cancelledError => cancelledError
  | e => raised (wrap e.str)

end Failure

end Noxipher
