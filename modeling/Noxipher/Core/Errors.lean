import Mathlib.Tactic.Common

namespace Noxipher

/-- The exceptions the modelled code raises, with the text or key they carry. -/
inductive PyError where
  | valueError (msg : String)
  | keyError (key : String)
  | typeError (msg : String)
  | attributeError (msg : String)
  | unboundLocalError (name : String)
  | structError (msg : String)
  | indexError (msg : String)
  | validationError (model field : String)
  | invalidMnemonicError (msg : String)
  | addressError (msg : String)
  | transactionError (msg : String)
  | transactionTimeoutError (msg : String)
  | indexerError (msg : String)
  | proofError (msg : String)
  deriving DecidableEq, Repr

namespace PyError

/-- `str(e)`; a key error prints the quoted key. -/
def str : PyError → String
  | valueError msg | typeError msg | attributeError msg | structError msg | indexError msg
  | invalidMnemonicError msg | addressError msg | transactionError msg | transactionTimeoutError msg | indexerError msg
  | proofError msg => msg
  | keyError key => "'" ++ key ++ "'"
  | unboundLocalError name =>
      "cannot access local variable '" ++ name ++ "' where it is not associated with a value"
  | validationError model field => "1 validation error for " ++ model ++ ": " ++ field

/-- `isinstance(e, TransactionError)`; the timeout error is a subclass. -/
def isTransactionError : PyError → Bool
  | transactionError _ | transactionTimeoutError _ => true
  | _ => false

/-- `isinstance(e, NoxipherError)` -/
def isNoxipherError : PyError → Bool
  | invalidMnemonicError _ | addressError _ | transactionError _ | transactionTimeoutError _ | indexerError _
  | proofError _ => true
  | _ => false

end PyError

/-- `d[key]` on a dictionary display whose key may be missing. -/
def required {α : Type} (key : String) : Option α → Except PyError α
  | some a => .ok a
  | none => .error (.keyError key)

@[simp] theorem required_some {α : Type} (key : String) (a : α) : required key (some a) = .ok a := rfl

@[simp] theorem required_none {α : Type} (key : String) :
    required key (none : Option α) = .error (.keyError key) := rfl

/-- A declared field without a default. -/
def validated {α : Type} (model field : String) : Option α → Except PyError α
  | some a => .ok a
  | none => .error (.validationError model field)

theorem validated_ok_iff {α : Type} {model field : String} {o : Option α} {a : α} :
    validated model field o = .ok a ↔ o = some a := by
  cases o <;> simp [validated]

theorem required_ok_iff {α : Type} {key : String} {o : Option α} {a : α} :
    required key o = .ok a ↔ o = some a := by
  cases o <;> simp [required]

end Noxipher
