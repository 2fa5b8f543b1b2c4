import ActiveGraphSurreal.Errors
import Mathlib.Data.List.DropRight

/-!
# The configuration of a connection

A configuration is checked when it is made, and its texts are brought into a normal form.
-/

namespace ActiveGraphSurreal

def configurationError (text : String) : PyErr := ⟨.other "ConfigurationError", text⟩

structure SurrealConfig where
  endpoint : String
  namespace_ : String
  database : String
  username : String
  password : String
  deriving DecidableEq

namespace SurrealConfig

/-! ### Texts -/

/-- `c.isspace()`, which is what `str.strip` takes away. -/
def isSpace (c : Char) : Bool :=
  let n := c.toNat
  9 ≤ n && n ≤ 13 || 28 ≤ n && n ≤ 32 || n == 0x85 || n == 0xa0 || n == 0x1680 ||
    0x2000 ≤ n && n ≤ 0x200a || n == 0x2028 || n == 0x2029 || n == 0x202f || n == 0x205f ||
    n == 0x3000

/-- `text.strip()` -/
@[irreducible] def strip (text : String) : String :=
  String.ofList ((text.toList.dropWhile isSpace).rdropWhile isSpace)

/-- `text.rstrip("/")` -/
def rstripSlash (text : String) : String := String.ofList (text.toList.rdropWhile (· == '/'))

/-- `text[:-4]` -/
def dropLastFour (text : String) : String := String.ofList (text.toList.rdrop 4)

/-- `text.startswith(start)` -/
def startsWith (start text : String) : Prop := start.toList <+: text.toList

/-- `text.endswith(last)` -/
def endsWith (last text : String) : Prop := last.toList <:+ text.toList

instance (start text : String) : Decidable (startsWith start text) :=
  inferInstanceAs (Decidable (_ <+: _))

instance (last text : String) : Decidable (endsWith last text) :=
  inferInstanceAs (Decidable (_ <:+ _))

/-! ### Configurations -/

@[irreducible] def normalizedEndpoint (endpoint : String) : String :=
  let endpoint := rstripSlash (strip endpoint)
  if endsWith "/rpc" endpoint then rstripSlash (dropLastFour endpoint) else endpoint

/-- The check of one of the other fields. -/
def stripped (name value : String) : Except PyErr String := do
  raiseIf (strip value = "") (configurationError (name ++ " must be non-empty"))
  return strip value

/-- `__post_init__` -/
def postInit (self : SurrealConfig) : Except PyErr SurrealConfig := do
  let endpoint := normalizedEndpoint self.endpoint
  raiseIf (¬ (startsWith "ws://" endpoint ∨ startsWith "wss://" endpoint)) (configurationError
    ("endpoint must use ws:// or wss://; HTTP and embedded " ++
      "transports are not supported by this preview"))
  let namespace_ ← stripped "namespace" self.namespace_
  let database ← stripped "database" self.database
  let username ← stripped "username" self.username
  let password ← stripped "password" self.password
  return { endpoint, namespace_, database, username, password }

end SurrealConfig

end ActiveGraphSurreal
