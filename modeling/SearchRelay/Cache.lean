/-!
Remembered answers to yes-or-no questions about records. An answer is asked for once, and stays
until its record or its whole type is forgotten. Asking may itself use the cache.
-/

namespace SearchRelay

/-- Remembered answers, at most one for each type and number. -/
structure AnswerCache where
  entries : List ((String × Nat) × Bool)
deriving Repr

namespace AnswerCache

abbrev Key := String × Nat

def empty : AnswerCache := ⟨[]⟩

def find? (cache : AnswerCache) (key : Key) : Option Bool :=
  (cache.entries.find? fun entry => entry.1 == key).map Prod.snd

def erase (cache : AnswerCache) (key : Key) : AnswerCache :=
  ⟨cache.entries.filter fun entry => entry.1 != key⟩

def set (cache : AnswerCache) (key : Key) (answer : Bool) : AnswerCache :=
  ⟨(key, answer) :: (cache.erase key).entries⟩

def eraseType (cache : AnswerCache) (type : String) : AnswerCache :=
  ⟨cache.entries.filter fun entry => entry.1.1 != type⟩

def size (cache : AnswerCache) : Nat := cache.entries.length

/-- The result of a fetch: the answer, the cache after it, and whether it had to be asked for. -/
structure Fetched where
  answer : Bool
  cache : AnswerCache
  asked : Bool

/-- The remembered answer, or the one that `ask` gives, which is remembered from then on. What
`ask` does to the cache is kept. -/
def fetch (cache : AnswerCache) (key : Key) (ask : AnswerCache → Bool × AnswerCache) : Fetched :=
  match cache.find? key with
  | some answer => ⟨answer, cache, false⟩
  | none =>
    let (answer, cache) := ask cache
    ⟨answer, cache.set key answer, true⟩

end AnswerCache

end SearchRelay
