import TravelDocument.Error

/-!
# Kinds of failures

A failure is operational if it comes up while something is under way, and ordinary if moreover it
comes from neither the link nor the length of a key or of data. `Except.FailsIn` says which failures
a computation may end with; it follows the steps of the computation (`FailsIn.bind`).
-/

namespace Except

variable {ε α β : Type} {bad : ε → Prop}

/-- The failures of a computation are in `bad`. -/
def FailsIn (r : Except ε α) (bad : ε → Prop) : Prop :=
  ∀ e, r = .error e → bad e

theorem failsIn_ok (a : α) : (ok a : Except ε α).FailsIn bad := nofun

theorem failsIn_error {e : ε} (h : bad e) : (error e : Except ε α).FailsIn bad := by
  rintro _ ⟨⟩
  exact h

theorem failsIn_of_eq_ok {r : Except ε α} {a : α} (h : r = .ok a) : r.FailsIn bad :=
  h ▸ failsIn_ok a

theorem FailsIn.bind {r : Except ε α} {f : α → Except ε β} (h : r.FailsIn bad)
    (hf : ∀ a, r = .ok a → (f a).FailsIn bad) : (r >>= f).FailsIn bad := by
  cases r with
  | error e => exact failsIn_error (h e rfl)
  | ok a => exact hf a rfl

end Except

namespace TravelDocument

/-- Failures that come up while something is under way: the session has not refused the operation,
and no certificate chain was found broken. -/
def Error.IsOperational : Error → Prop
  | .invalidState _ _ | .chain _ => False
  | _ => True

/-- Failures that say nothing about the length of a key or of data. -/
def CryptoError.IsOrdinary : CryptoError → Prop
  | .invalidKeyLength _ _ | .invalidDataLength _ _ => False
  | _ => True

/-- Operational failures that are about neither lengths nor the link. -/
def Error.IsOrdinary : Error → Prop
  | .crypto reason => reason.IsOrdinary
  | .invalidState _ _ | .chain _ | .transport _ => False
  | _ => True

theorem Error.IsOrdinary.isOperational {e : Error} (h : e.IsOrdinary) : e.IsOperational := by
  cases e with
  | invalidState _ _ | chain _ => exact h
  | _ => exact trivial

theorem liftCrypto_eq_ok {α : Type} {r : Except CryptoError α} {a : α} (h : liftCrypto r = .ok a) :
    r = .ok a := by
  cases r with
  | error e => cases h
  | ok b =>
    cases h
    rfl

theorem liftCrypto_eq_error {α : Type} {r : Except CryptoError α} {e : Error}
    (h : liftCrypto r = .error e) : ∃ reason, e = .crypto reason ∧ r = .error reason := by
  cases r with
  | error reason =>
    cases h
    exact ⟨reason, rfl, rfl⟩
  | ok b => cases h

/-- An ordinary failure of a cryptographic computation is one of the protocol it is part of. -/
theorem failsIn_liftCrypto {α : Type} {r : Except CryptoError α}
    (h : r.FailsIn CryptoError.IsOrdinary) :
    (liftCrypto r).FailsIn Error.IsOrdinary := by
  intro e he
  obtain ⟨reason, rfl, hr⟩ := liftCrypto_eq_error he
  exact h reason hr

end TravelDocument
