import Mathlib.Data.Set.Card
import SearchRelay.Cache

/-!
The history of a cache. However deep the questions of its fetches use it themselves, it holds for
each key the answer that was worked out last and not forgotten since, and a question is asked when
there is none.
-/

namespace SearchRelay

/-- Something wanted has happened, and nothing has put an end to it since. -/
def Since {ε : Type} (ends wanted : ε → Prop) (past : List ε) : Prop :=
  ∃ before event after, past = before ++ event :: after ∧ wanted event ∧
    ∀ later ∈ after, ¬ ends later

theorem not_since_nil {ε : Type} {ends wanted : ε → Prop} : ¬ Since ends wanted [] := by
  intro ⟨before, event, after, split, _⟩
  exact absurd split.symm (by simp)

theorem since_concat {ε : Type} {ends wanted : ε → Prop} {past : List ε} {event : ε} :
    Since ends wanted (past ++ [event]) ↔ wanted event ∨ ¬ ends event ∧ Since ends wanted past := by
  constructor
  · intro ⟨before, found, after, split, here, calm⟩
    rcases List.eq_nil_or_concat after with rfl | ⟨after, last, rfl⟩
    · obtain ⟨-, same⟩ := List.append_inj' split rfl
      exact Or.inl (List.singleton_inj.1 same ▸ here)
    · rw [List.concat_eq_append] at split calm
      rw [← List.cons_append, ← List.append_assoc] at split
      obtain ⟨rfl, same⟩ := List.append_inj' split rfl
      obtain rfl := List.singleton_inj.1 same
      obtain ⟨earlier, last⟩ := List.forall_mem_append.1 calm
      have calmer := last event (List.mem_singleton_self event)
      exact Or.inr ⟨calmer, before, found, after, rfl, here, earlier⟩
  · rintro (here | ⟨calm, before, found, after, rfl, here, earlier⟩)
    · exact ⟨past, event, [], rfl, here, fun _ member => absurd member List.not_mem_nil⟩
    · refine ⟨before, found, after ++ [event], by simp, here, ?_⟩
      exact List.forall_mem_append.2 ⟨earlier, List.forall_mem_singleton.2 calm⟩

namespace AnswerCache

variable {cache : AnswerCache} {key : Key}

/-! ### What is found -/

theorem find?_filter (cache : AnswerCache) (keep : Key → Bool) (key : Key) :
    find? ⟨cache.entries.filter fun entry => keep entry.1⟩ key =
      if keep key then cache.find? key else none := by
  simp only [find?, List.find?_filter]
  split
  next kept =>
    congr 2
    funext entry
    by_cases here : entry.1 = key
    · simp [here, kept]
    · simp [here]
  next dropped =>
    rw [Option.map_eq_none_iff, List.find?_eq_none]
    intro entry _ found
    obtain ⟨kept, here⟩ := of_decide_eq_true found
    exact dropped (eq_of_beq here ▸ kept)

theorem find?_erase (cache : AnswerCache) (key other : Key) :
    (cache.erase key).find? other = if other = key then none else cache.find? other := by
  rw [erase, cache.find?_filter (· != key)]
  by_cases same : other = key <;> simp [same]

theorem find?_eraseType (cache : AnswerCache) (type : String) (key : Key) :
    (cache.eraseType type).find? key = if key.1 = type then none else cache.find? key := by
  rw [eraseType, cache.find?_filter fun other => other.1 != type]
  by_cases same : key.1 = type <;> simp [same]

theorem find?_set (cache : AnswerCache) (key other : Key) (answer : Bool) :
    (cache.set key answer).find? other =
      if other = key then some answer else cache.find? other := by
  have rest := cache.find?_erase key other
  by_cases same : other = key
  · simp [find?, set, same]
  · rw [if_neg same] at rest ⊢
    rw [← rest, find?, set, List.find?_cons_of_neg (by simpa using Ne.symm same)]
    rfl

theorem isSome_find? : (cache.find? key).isSome ↔ key ∈ cache.entries.map Prod.fst := by
  simp [find?]

/-- Every key has at most one entry. -/
def Distinct (cache : AnswerCache) : Prop := (cache.entries.map Prod.fst).Nodup

theorem Distinct.filter (distinct : cache.Distinct) (keep : Key × Bool → Bool) :
    Distinct ⟨cache.entries.filter keep⟩ :=
  distinct.sublist (List.filter_sublist.map Prod.fst)

theorem Distinct.set (distinct : cache.Distinct) (key : Key) (answer : Bool) :
    (cache.set key answer).Distinct := by
  refine List.nodup_cons.2 ⟨?_, distinct.filter _⟩
  have gone := cache.find?_erase key key
  rw [if_pos rfl] at gone
  rw [← isSome_find?, gone]
  exact Bool.false_ne_true

theorem Distinct.size (distinct : cache.Distinct) :
    cache.size = {key | (cache.find? key).isSome}.ncard := by
  have keys : {key | (cache.find? key).isSome} =
      ((cache.entries.map Prod.fst).toFinset : Set Key) := by
    ext key
    simp only [Set.mem_ofPred_eq, isSome_find?, List.coe_toFinset]
  rw [keys, Set.ncard_coe_finset, List.toFinset_card_of_nodup distinct, List.length_map]
  rfl

/-- What a question does with the cache before it is answered. What it does next may depend on all
that it was told. A history of the cache is such a script as well. -/
inductive Script where
  | answer (value : Bool)
  | fetch (key : Key) (question : Script) (next : Bool → Script)
  | eraseType (type : String) (next : Script)
  | erase (key : Key) (next : Script)
  | size (next : Nat → Script)

/-- What can be seen to happen to a cache. -/
inductive Event where
  /-- A fetch begins, and it asks its question or does not. -/
  | begun (key : Key) (asks : Bool)
  /-- A fetch ends, with the answer to its question if it asked. -/
  | ended (key : Key) (asked : Bool) (answer : Bool)
  | erasedType (type : String)
  | erased (key : Key)
  | sized (size : Nat)

namespace Script

def run : Script → AnswerCache → Bool × AnswerCache
  | .answer value, cache => (value, cache)
  | .fetch key question next, cache =>
    let fetched := cache.fetch key question.run
    (next fetched.answer).run fetched.cache
  | .eraseType type next, cache => next.run (cache.eraseType type)
  | .erase key next, cache => next.run (cache.erase key)
  | .size next, cache => (next cache.size).run cache

/-- The events of a script in their order, those of the questions that it asks among them. -/
def events : Script → AnswerCache → List Event
  | .answer _, _ => []
  | .fetch key question next, cache =>
    let fetched := cache.fetch key question.run
    .begun key fetched.asked :: ((if fetched.asked then question.events cache else []) ++
      .ended key fetched.asked fetched.answer :: (next fetched.answer).events fetched.cache)
  | .eraseType type next, cache => .erasedType type :: next.events (cache.eraseType type)
  | .erase key next, cache => .erased key :: next.events (cache.erase key)
  | .size next, cache => .sized cache.size :: (next cache.size).events cache

end Script

namespace Event

def Forgets (key : Key) : Event → Prop
  | .erasedType type => key.1 = type
  | .erased other => key = other
  | .begun .. | .ended .. | .sized _ => False

/-- A fetch of the key ends. -/
def Ends (key : Key) : Event → Prop
  | .ended other _ _ => key = other
  | .begun .. | .erasedType _ | .erased _ | .sized _ => False

/-- A fetch of the key ends that asked its question. -/
def Settles (key : Key) : Event → Prop
  | .ended other asked _ => key = other ∧ asked
  | .begun .. | .erasedType _ | .erased _ | .sized _ => False

end Event

/-- A fetch of the key has ended since the key was forgotten last. -/
def Completed (past : List Event) (key : Key) : Prop :=
  Since (Event.Forgets key) (Event.Ends key) past

/-- The last question about the key since it was forgotten had the answer. -/
def Remembered (past : List Event) (key : Key) (answer : Bool) : Prop :=
  Since (fun event => event.Forgets key ∨ event.Settles key) (· = .ended key true answer) past

/-- An event is as it should be after those of the past. A fetch asks if none has been completed,
and it ends with the answer to the last question, which is its own if it asked. -/
def Event.Right (past : List Event) : Event → Prop
  | .begun key asks => asks = true ↔ ¬ Completed past key
  | .ended key asked answer => Remembered (past ++ [.ended key asked answer]) key answer
  | .sized size => size = {key | Completed past key}.ncard
  | .erasedType _ | .erased _ => True

/-! ### What a history leaves -/

/-- A cache holds what the past has left. -/
structure Reflects (past : List Event) (cache : AnswerCache) : Prop where
  distinct : cache.Distinct
  completed : ∀ key, Completed past key ↔ (cache.find? key).isSome
  remembered : ∀ key answer, Remembered past key answer ↔ cache.find? key = some answer

section
variable {past : List Event}

theorem Reflects.size (reflects : Reflects past cache) :
    cache.size = {key | Completed past key}.ncard := by
  rw [reflects.distinct.size]
  congr 1
  ext key
  exact (reflects.completed key).symm

/-- An event that ends no fetch takes away what it forgets and leaves the rest. -/
theorem Reflects.after {event : Event} {later : AnswerCache} (reflects : Reflects past cache)
    (distinct : later.Distinct) (quiet : ∀ key, ¬ event.Ends key)
    (gone : ∀ key, event.Forgets key → later.find? key = none)
    (kept : ∀ key, ¬ event.Forgets key → later.find? key = cache.find? key) :
    Reflects (past ++ [event]) later := by
  have unsettled (key : Key) : ¬ event.Settles key := by
    cases event with
    | ended other => exact absurd rfl (quiet other)
    | begun | erasedType | erased | sized => exact id
  have other (key : Key) (answer : Bool) : event ≠ .ended key true answer := by
    rintro rfl
    exact quiet key rfl
  refine ⟨distinct, fun key => ?_, fun key answer => ?_⟩
  · rw [Completed, since_concat, or_iff_right (quiet key)]
    by_cases forgets : event.Forgets key
    · simp [forgets, gone key forgets]
    · rw [kept key forgets, ← reflects.completed key]
      exact and_iff_right forgets
  · rw [Remembered, since_concat, or_iff_right (other key answer)]
    by_cases forgets : event.Forgets key
    · simp [forgets, gone key forgets]
    · rw [kept key forgets, ← reflects.remembered key answer]
      exact and_iff_right (not_or.2 ⟨forgets, unsettled key⟩)

theorem Reflects.quiet {event : Event} (reflects : Reflects past cache)
    (calm : ∀ key, ¬ event.Ends key ∧ ¬ event.Forgets key) : Reflects (past ++ [event]) cache :=
  reflects.after reflects.distinct (fun key => (calm key).1)
    (fun key forgets => absurd forgets (calm key).2) fun _ _ => rfl

theorem Reflects.eraseType (reflects : Reflects past cache) (type : String) :
    Reflects (past ++ [.erasedType type]) (cache.eraseType type) := by
  refine reflects.after (reflects.distinct.filter _) (fun _ => id) ?_ ?_
  · exact fun key same => (cache.find?_eraseType type key).trans (if_pos same)
  · exact fun key other => (cache.find?_eraseType type key).trans (if_neg other)

theorem Reflects.erase (reflects : Reflects past cache) (key : Key) :
    Reflects (past ++ [.erased key]) (cache.erase key) := by
  refine reflects.after (reflects.distinct.filter _) (fun _ => id) ?_ ?_
  · exact fun other same => (cache.find?_erase key other).trans (if_pos same)
  · exact fun other different => (cache.find?_erase key other).trans (if_neg different)

theorem completed_ended {asked answer : Bool} {other : Key} :
    Completed (past ++ [.ended key asked answer]) other ↔ other = key ∨ Completed past other := by
  rw [Completed, since_concat]
  exact or_congr Iff.rfl (and_iff_right id)

theorem Reflects.hit {answer : Bool} (reflects : Reflects past cache)
    (known : cache.find? key = some answer) :
    Reflects (past ++ [.ended key false answer]) cache := by
  refine ⟨reflects.distinct, fun other => ?_, fun other value => ?_⟩
  · rw [completed_ended, reflects.completed other, or_iff_right_iff_imp]
    rintro rfl
    exact Option.isSome_of_eq_some known
  · rw [Remembered, since_concat, ← reflects.remembered other value]
    simp [Event.Forgets, Event.Settles, Remembered]

theorem Reflects.set (reflects : Reflects past cache) (key : Key) (answer : Bool) :
    Reflects (past ++ [.ended key true answer]) (cache.set key answer) := by
  refine ⟨reflects.distinct.set key answer, fun other => ?_, fun other value => ?_⟩
  · rw [completed_ended, reflects.completed other, find?_set]
    by_cases same : other = key <;> simp [same]
  · rw [Remembered, since_concat, find?_set, ← Remembered, reflects.remembered other value]
    by_cases same : other = key
    · simp [Event.Settles, same]
    · simp [Event.Forgets, Event.Settles, same, Ne.symm same]

/-! ### Every history -/

/-- Each event is as it should be after those of the past and those before it. -/
def Told (past events : List Event) : Prop :=
  ∀ before event after, events = before ++ event :: after → event.Right (past ++ before)

theorem told_nil : Told past [] := by
  intro before event after split
  exact absurd split.symm (by simp)

theorem told_cons {event : Event} {rest : List Event} (right : event.Right past)
    (told : Told (past ++ [event]) rest) : Told past (event :: rest) := by
  intro before other after split
  cases before with
  | nil =>
    obtain ⟨rfl, -⟩ := List.cons.inj split
    exact (List.append_nil past).symm ▸ right
  | cons first before =>
    obtain ⟨rfl, tail⟩ := List.cons.inj split
    have later := told before other after tail
    rwa [List.append_assoc] at later

theorem told_append {first second : List Event} (told : Told past first)
    (later : Told (past ++ first) second) : Told past (first ++ second) := by
  induction first generalizing past with
  | nil => rwa [List.append_nil] at later
  | cons event first ih =>
    have right := told [] event first rfl
    rw [List.append_nil] at right
    refine told_cons right (ih ?_ ?_)
    · intro before other after split
      have rest := told (event :: before) other after (congrArg (event :: ·) split)
      rwa [List.append_assoc]
    · rwa [List.append_assoc]

theorem Reflects.right_begun (reflects : Reflects past cache)
    (question : AnswerCache → Bool × AnswerCache) :
    (Event.begun key (cache.fetch key question).asked).Right past := by
  rw [Event.Right, reflects.completed, fetch]
  cases cache.find? key <;> simp

theorem Script.reflects (script : Script) (reflects : Reflects past cache) :
    Told past (script.events cache) ∧
      Reflects (past ++ script.events cache) (script.run cache).2 := by
  induction script generalizing past cache with
  | answer value => exact ⟨told_nil, by rwa [events, List.append_nil]⟩
  | eraseType type next ih =>
    obtain ⟨told, later⟩ := ih (reflects.eraseType type)
    rw [List.append_assoc] at later
    exact ⟨told_cons trivial told, later⟩
  | erase key next ih =>
    obtain ⟨told, later⟩ := ih (reflects.erase key)
    rw [List.append_assoc] at later
    exact ⟨told_cons trivial told, later⟩
  | size next ih =>
    have sized : Reflects (past ++ [.sized cache.size]) cache := reflects.quiet fun _ => ⟨id, id⟩
    obtain ⟨told, later⟩ := ih cache.size sized
    rw [List.append_assoc] at later
    exact ⟨told_cons reflects.size told, later⟩
  | fetch key question next ask go =>
    have right : (Event.begun key (cache.fetch key question.run).asked).Right past :=
      reflects.right_begun question.run
    have begun : Reflects (past ++ [.begun key (cache.fetch key question.run).asked]) cache :=
      reflects.quiet fun _ => ⟨id, id⟩
    cases known : cache.find? key with
    | some answer =>
      have fetched : cache.fetch key question.run = ⟨answer, cache, false⟩ := by
        simp only [AnswerCache.fetch, known]
      rw [fetched] at right begun
      have hit := begun.hit known
      obtain ⟨told, later⟩ := go answer hit
      simp only [events, run, fetched]
      refine ⟨told_cons right (told_cons ((hit.remembered key answer).2 known) told), ?_⟩
      simpa using later
    | none =>
      have fetched : cache.fetch key question.run =
          ⟨(question.run cache).1, (question.run cache).2.set key (question.run cache).1,
            true⟩ := by
        simp only [AnswerCache.fetch, known]
      rw [fetched] at right begun
      obtain ⟨asked, settled⟩ := ask begun
      have set := settled.set key (question.run cache).1
      have found := (set.remembered key _).2 ((find?_set _ key key _).trans (if_pos rfl))
      obtain ⟨told, later⟩ := go _ set
      simp only [events, run, fetched]
      refine ⟨told_cons right (told_append asked (told_cons found told)), ?_⟩
      simpa using later

end

/-- A question about a project that asks the same question before it makes up its mind. -/
example :
    let key := ("project", 7)
    let twice := Script.fetch key (.fetch key (.answer true) fun _ => .answer false) .answer
    (twice.run empty).1 = false ∧ (twice.run empty).2.find? key = some false ∧
      (twice.run empty).2.size = 1 := by decide

end AnswerCache

end SearchRelay
