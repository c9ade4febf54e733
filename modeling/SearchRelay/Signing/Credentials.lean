import SearchRelay.Text.Space

/-!
Credentials for signed requests. Whoever hands them out is asked as seldom as possible: the last
ones are held until shortly before they expire. Credentials without a key or a secret are none.
-/

namespace SearchRelay

structure Credentials where
  key : String
  secret : String
  token : Option String
  /-- Seconds since the beginning of 1970 until which they are good, if that is limited. -/
  expiry : Option Int
deriving DecidableEq, Repr

namespace Credentials

def isSet (credentials : Credentials) : Bool :=
  !Text.isBlank credentials.key.toList && !Text.isBlank credentials.secret.toList

/-- How many seconds before their end credentials are replaced. -/
def margin : Int := 300

def isFresh (now : Int) (credentials : Credentials) : Bool :=
  credentials.expiry.all fun expiry => margin < expiry - now

/-- Keys that were given together, if they are any. -/
def ofKeys? (key secret : Option String) : Option Credentials := do
  let credentials : Credentials := ⟨← key, ← secret, none, none⟩
  if credentials.isSet then some credentials else none

end Credentials

/-- The last credentials of a provider, while they are good. -/
structure CredentialHolder where
  held : Option Credentials
deriving DecidableEq, Repr

namespace CredentialHolder

def empty : CredentialHolder := ⟨none⟩

/-- Credentials for a request at `now`. The provider is asked only if none are held that are still
fresh; what it then answers is held, and if it has nothing to give, nothing is. -/
def credentials (holder : CredentialHolder) (provider : σ → Option Credentials × σ) (now : Int)
    (state : σ) : Option Credentials × CredentialHolder × σ :=
  match holder.held.filter (Credentials.isFresh now) with
  | some held => (some held, holder, state)
  | none =>
    let (answer, state) := provider state
    let given := answer.filter Credentials.isSet
    (given, ⟨given⟩, state)

/-- A holder whose provider has something to give: it is asked once. -/
def resolve (provider : σ → Option Credentials × σ) (now : Int) (state : σ) :
    Option CredentialHolder × σ :=
  let (given, holder, state) := empty.credentials provider now state
  (given.map fun _ => holder, state)

end CredentialHolder

end SearchRelay
