import ThreadCommissioner.Texts

namespace ThreadCommissioner.Errors

open Texts

/-- `thread_dtls::Error`. -/
inductive DtlsError
  | crypto (message : String)
  | invalidState (message : String)
  | timeout (operation : String)
  | io (message : String)
  deriving DecidableEq, Repr

inductive TlvError
  | bufferTooSmall
  | invalidLength
  | invalidValue
  | valueTooLarge (length : ℕ)
  deriving DecidableEq, Repr

/-- The error type of the commissioner crate. -/
inductive Error
  | configuration (message : String)
  | tlv (error : TlvError)
  | dataset (message : String)
  | crypto (message : String)
  | dtls (error : DtlsError)
  | hex (message : String)
  | io (message : String)
  | timeout (operation : String)
  | invalidState (message : String)
  | petitionRejected (existingCommissionerId : Option Text)
  | unsupported (operation : String)
  deriving DecidableEq

/-- The conversion that `?` inserts for a failure of another layer. -/
def wrapError {ε ε' α : Type} (wrap : ε → ε') : Except ε α → Except ε' α
  | .ok a => .ok a
  | .error e => .error (wrap e)

@[simp] theorem wrapError_eq_ok {ε ε' α : Type} {wrap : ε → ε'} {x : Except ε α} {a : α} :
    wrapError wrap x = .ok a ↔ x = .ok a := by
  cases x <;> simp [wrapError]

def ofDtls {α : Type} (x : Except DtlsError α) : Except Error α := wrapError .dtls x

def ofTlv {α : Type} (x : Except TlvError α) : Except Error α := wrapError .tlv x

@[simp] theorem ofDtls_eq_ok {α : Type} {x : Except DtlsError α} {a : α} : ofDtls x = .ok a ↔ x = .ok a := wrapError_eq_ok

@[simp] theorem ofTlv_eq_ok {α : Type} {x : Except TlvError α} {a : α} : ofTlv x = .ok a ↔ x = .ok a := wrapError_eq_ok

end ThreadCommissioner.Errors
