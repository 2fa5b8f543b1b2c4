import Mathlib.Data.String.Basic

/-!
# Exceptions and the texts in them

An exception is its class and its text. The classes of the client library, and those that a
value's encoder raises, are known by name only.
-/

namespace ActiveGraphSurreal

inductive ErrClass where
  | valueError
  | typeError
  | overflowError
  | jsonDecodeError
  | duplicateEventError
  | eventNotFoundError
  | closedStoreError
  | ledgerIntegrityError
  | concurrentWriterError
  | forkPointNotFoundError
  | runAlreadyExistsError
  | unsupportedCompactedRunError
  | surrealProviderError
  | projectionUnavailableError
  | notFoundError
  | other (name : String)
  deriving DecidableEq, Repr

/-- `type(error).__name__` -/
def ErrClass.name : ErrClass → String
  | valueError => "ValueError"
  | typeError => "TypeError"
  | overflowError => "OverflowError"
  | jsonDecodeError => "JSONDecodeError"
  | duplicateEventError => "DuplicateEventError"
  | eventNotFoundError => "EventNotFoundError"
  | closedStoreError => "ClosedStoreError"
  | ledgerIntegrityError => "LedgerIntegrityError"
  | concurrentWriterError => "ConcurrentWriterError"
  | forkPointNotFoundError => "ForkPointNotFoundError"
  | runAlreadyExistsError => "RunAlreadyExistsError"
  | unsupportedCompactedRunError => "UnsupportedCompactedRunError"
  | surrealProviderError => "SurrealProviderError"
  | projectionUnavailableError => "ProjectionUnavailableError"
  | notFoundError => "NotFoundError"
  | other name => name

/-- The errors that come from the database and its client. -/
def ErrClass.IsSdk : ErrClass → Prop
  | notFoundError | other _ => True
  | _ => False

instance : DecidablePred ErrClass.IsSdk := fun c => by
  cases c <;> first | exact isTrue trivial | exact isFalse id

structure PyErr where
  cls : ErrClass
  text : String
  deriving DecidableEq, Repr

/-- `if bad: raise e` -/
def raiseIf (bad : Prop) [Decidable bad] (e : PyErr) : Except PyErr Unit :=
  if bad then .error e else .ok ()

lemma raiseIf_eq_ok {bad : Prop} [Decidable bad] {e : PyErr} {u : Unit} :
    raiseIf bad e = .ok u ↔ ¬ bad := by
  unfold raiseIf
  by_cases h : bad <;> simp [h]

/-- A sequence that returns has passed every part. -/
theorem bind_eq_ok {ε α β : Type} {x : Except ε α} {f : α → Except ε β} {b : β} :
    (x >>= f) = .ok b ↔ ∃ a, x = .ok a ∧ f a = .ok b := by
  cases x with
  | error e => simp [bind, Except.bind]
  | ok a => simp [bind, Except.bind]

/-- A sequence that raises has raised in one of its parts. -/
theorem bind_eq_error {ε α β : Type} {x : Except ε α} {f : α → Except ε β} {e : ε} :
    (x >>= f) = .error e ↔ x = .error e ∨ ∃ a, x = .ok a ∧ f a = .error e := by
  cases x with
  | error e => simp [bind, Except.bind]
  | ok a => simp [bind, Except.bind]

lemma raiseIf_eq_error {bad : Prop} [Decidable bad] {e e' : PyErr} :
    raiseIf bad e = .error e' ↔ bad ∧ e = e' := by
  unfold raiseIf
  by_cases h : bad <;> simp [h]

lemma pure_eq_ok {ε α : Type} {a b : α} : (pure a : Except ε α) = .ok b ↔ a = b := by
  simp [pure, Except.pure]

/-! ### `repr` of a string -/

def hexText (width n : Nat) : List Char :=
  let digits := Nat.toDigits 16 n
  List.replicate (width - digits.length) '0' ++ digits

def singleQuote : Char := Char.ofNat 39

/-- One character between quotes. Beyond ASCII, `isPrintable` is `str.isprintable`. -/
def reprChar (isPrintable : Char → Bool) (quote c : Char) : List Char :=
  if c = quote ∨ c = '\\' then ['\\', c]
  else if c = '\t' then ['\\', 't']
  else if c = '\n' then ['\\', 'n']
  else if c = '\r' then ['\\', 'r']
  else if c.toNat < 32 ∨ c.toNat = 127 then '\\' :: 'x' :: hexText 2 c.toNat
  else if c.toNat < 127 ∨ isPrintable c then [c]
  else if c.toNat < 0x100 then '\\' :: 'x' :: hexText 2 c.toNat
  else if c.toNat < 0x10000 then '\\' :: 'u' :: hexText 4 c.toNat
  else '\\' :: 'U' :: hexText 8 c.toNat

/-- `f"{s!r}"` -/
def pyRepr (isPrintable : Char → Bool) (s : String) : String :=
  let quote := if singleQuote ∈ s.toList ∧ '"' ∉ s.toList then '"' else singleQuote
  String.ofList (quote :: (s.toList.flatMap (reprChar isPrintable quote) ++ [quote]))

end ActiveGraphSurreal
