import SearchRelay.Proofs.Record.Stored
import SearchRelay.Proofs.Search.Snippets

/-!
Following the pager. The pages that are shown from the first one on, each the next one of the page
before, hold the results in their order and each once, as far as whole pages reach into the window.
A page that the window does not hold as a whole is shown without items, even if results are left
for it.
-/

namespace SearchRelay

namespace Results

/-- The results of a question in a scope, in their order. -/
def ranked (question : Question) (documents : List StoredDocument) (scope : Scope) :
    List StoredDocument :=
  (MemoryCluster.holding documents).matching (question.request scope 0 0)

/-- The number of results on the pages of a size that lie in the window. -/
def reach (size : Nat) : Nat := resultWindow / size * size

theorem page_mul {page : Nat} (first : 0 < page) (size : Nat) :
    page * size = (page - 1) * size + size := by
  rw [← Nat.succ_mul, Nat.succ_eq_add_one, Nat.sub_add_cancel first]

section
variable {page size : Nat} (first : 0 < page) (positive : 0 < size)
include positive

theorem le_reach (inside : page * size ≤ resultWindow) : page * size ≤ reach size :=
  Nat.mul_le_mul_right size ((Nat.le_div_iff_mul_le positive).2 inside)

include first

theorem reach_le_iff : reach size ≤ (page - 1) * size ↔ resultWindow < page * size := by
  rw [reach, Nat.mul_le_mul_right_iff positive, ← Nat.div_lt_iff_lt_mul positive]
  omega

variable (small : size ≤ maxPerPage)
include small

theorem request_of : PageRequest.of page size = ⟨page, size⟩ := by
  unfold PageRequest.of
  congr 1
  · omega
  · omega

theorem inWindow_of : inWindow (.of page size) ↔ page * size ≤ resultWindow := by
  have step := page_mul first size
  have large : resultWindow < Text.maxWord := by decide
  rw [request_of first positive small, inWindow, decide_eq_true_iff, PageRequest.offset, step]
  dsimp only
  omega

/-- What stands on a page is its part of the results that pages reach. -/
theorem onPage_of {question : Question} (asked : ¬ question.isBlank)
    (documents : List StoredDocument) (scope : Scope) :
    question.onPage documents scope (.of page size) =
      (((ranked question documents scope).take (reach size)).drop ((page - 1) * size)).take
        size := by
  have window := inWindow_of first positive small
  have step := page_mul first size
  by_cases reached : inWindow (.of page size)
  · have whole := le_reach positive (window.1 reached)
    rw [Question.onPage_reached asked reached, PageRequest.offset_of_inWindow reached,
      request_of first positive small, ← ranked, List.drop_take, List.take_take,
      Nat.min_eq_left (by omega)]
  · have beyond := (reach_le_iff first positive).2 (Nat.lt_of_not_le (mt window.2 reached))
    rw [Question.onPage_far reached, List.drop_take, Nat.sub_eq_zero_of_le beyond, List.take_zero,
      List.take_nil]

end

/-! ### One page after the other -/

/-- The pages that are shown from a page on, each the next one of the page before, to the last. -/
inductive Follows (backend : Backend σ) (scope : Scope) (size : Nat) :
    Nat → Results × σ → List (Page ResultItem) → Prop where
  | last {page now shown} :
      (now.1.page backend scope (.of page size) now.2).1 = .ok shown → shown.next? = none →
      Follows backend scope size page now [shown]
  | next {page now shown following rest} :
      (now.1.page backend scope (.of page size) now.2).1 = .ok shown →
      shown.next? = some following →
      Follows backend scope size following (now.1.page backend scope (.of page size) now.2).2 rest →
      Follows backend scope size page now (shown :: rest)

theorem Follows.unique {backend : Backend σ} {scope : Scope} {size page : Nat} {now : Results × σ}
    {pages others : List (Page ResultItem)} (follows : Follows backend scope size page now pages)
    (other : Follows backend scope size page now others) : others = pages := by
  induction follows generalizing others with
  | last told final =>
    cases other with
    | last again _ => rw [Except.ok.inj (again.symm.trans told)]
    | next again more _ =>
      rw [Except.ok.inj (again.symm.trans told), final] at more
      cases more
  | next told more _ ih =>
    cases other with
    | last again final =>
      rw [Except.ok.inj (again.symm.trans told), more] at final
      cases final
    | next again later rest =>
      rw [Except.ok.inj (again.symm.trans told), more] at later
      obtain rfl := Option.some.inj later
      rw [Except.ok.inj (again.symm.trans told), ih rest]

/-! ### A session in front of a cluster -/

/-- The item is the one that a document is shown as. -/
def Presents (question : Question) (scope : Scope) (document : StoredDocument) (item : ResultItem) :
    Prop :=
  ResultItem.ofHit scope (question.hit scope document) = .ok item

/-- A session in front of a cluster that is there and holds these documents. -/
structure Ready (question : Question) (documents : List StoredDocument)
    (now : Results × MemoryCluster) : Prop where
  recites : Recites question documents now
  sound : now.1.Sound documents
  here : now.2.unavailable = false

variable {question : Question} {documents : List StoredDocument} {now : Results × MemoryCluster}

theorem Ready.page (ready : Ready question documents now) (asked : ¬ question.isBlank)
    (scope : Scope) (request : PageRequest) :
    let ended := now.1.page MemoryCluster.backend scope request now.2
    Ready question documents ended.2 ∧ ∃ shown, ended.1 = .ok shown ∧ shown.request = request ∧
      shown.total = (ranked question documents scope).length ∧
      List.Forall₂ (Presents question scope) (question.onPage documents scope request)
        shown.items := by
  intro ended
  obtain ⟨recites, sound, here⟩ := ready
  have asks : now.1.question = question := recites.asks
  have good : now.2.documents = documents := recites.good
  have ends := page_ends (asks.symm ▸ asked) (good.symm ▸ sound) scope request
  obtain ⟨shown, told⟩ := Recites.exists_page recites here scope request
  refine ⟨⟨?_, good ▸ ends.sound, ends.unavailable.trans here⟩, shown, told, request_page told, ?_,
    Recites.page_items recites told⟩
  · exact Recites.event recites (.call (.page scope request))
  · rw [(ends.answered shown told).1, asks, good, ranked, MemoryCluster.length_matching]
    rfl

section
variable {scope : Scope} {page size : Nat} (asked : ¬ question.isBlank) (positive : 0 < size)
  (small : size ≤ maxPerPage) (ready : Ready question documents now) (first : 0 < page)
include asked positive small ready first

/-- From a page on, the pages hold what the pages before it do not, of the results that pages
reach. -/
theorem Ready.follows :
    ∃ pages, Follows MemoryCluster.backend scope size page now pages ∧
      List.Forall₂ (Presents question scope)
        (((ranked question documents scope).take (reach size)).drop ((page - 1) * size))
        (pages.flatMap Page.items) := by
  -- by the number of results behind the page
  generalize left : (ranked question documents scope).length - page * size = count
  induction count using Nat.strongRecOn generalizing page now with
  | ind count ih =>
    obtain ⟨after, shown, told, request, total, items⟩ := ready.page asked scope (.of page size)
    rw [onPage_of first positive small asked] at items
    rw [request_of first positive small] at request
    have next := shown.next?_eq (request ▸ positive)
    rw [request, total] at next
    have step := page_mul first size
    by_cases more : page * size < (ranked question documents scope).length
    · rw [if_pos more] at next
      have fewer : (ranked question documents scope).length - (page + 1) * size < count := by
        rw [Nat.succ_mul]
        omega
      obtain ⟨pages, follows, rest⟩ := ih _ fewer after (Nat.succ_pos page) rfl
      refine ⟨shown :: pages, .next told next follows, ?_⟩
      rw [List.flatMap_cons, ← List.take_append_drop size (List.drop _ _), List.drop_drop, ← step]
      exact List.rel_append items rest
    · rw [if_neg more] at next
      refine ⟨[shown], .last told next, ?_⟩
      rw [List.flatMap_singleton]
      rwa [List.take_of_length_le] at items
      rw [List.length_drop, List.length_take]
      omega

/-- A page that is not out of range has no items if and only if it ends beyond the window. -/
theorem Ready.page_empty_iff {shown : Page ResultItem}
    (told : (now.1.page MemoryCluster.backend scope (.of page size) now.2).1 = .ok shown)
    (inside : ¬ shown.outOfRange) (found : 0 < shown.total) :
    shown.items = [] ↔ resultWindow < page * size := by
  obtain ⟨-, again, same, request, total, items⟩ := ready.page asked scope (.of page size)
  obtain rfl := Except.ok.inj (told.symm.trans same)
  rw [onPage_of first positive small asked] at items
  rw [request_of first positive small] at request
  rw [shown.outOfRange_iff (request ▸ positive), request, total] at inside
  have behind : (page - 1) * size < (ranked question documents scope).length := by
    rcases Nat.eq_or_lt_of_le first with rfl | later
    · rw [Nat.sub_self, Nat.zero_mul, ← total]
      exact found
    · exact Nat.lt_of_not_le fun beyond => inside ⟨later, beyond⟩
  have sizes := items.length_eq
  rw [List.length_take, List.length_drop, List.length_take] at sizes
  rw [← reach_le_iff first positive, ← List.length_eq_zero_iff, ← sizes]
  omega

end

/-- Whatever the cluster went through, and whatever was asked before: the pages that the pager leads
through, from the first to the one without a next, are determined, and their items are those of the
matching documents, each once, by the sort and then in the order of first insertion, as far as whole
pages lie in the window. A page in range is empty, though something matches, if and only if it ends
beyond the window, and where the window holds all that matches only the last one does. If it does
not, and always for sizes that divide the window, whole pages hold all that matches. -/
theorem pager_reaches_window (changes : List Change) (question : Question)
    (asked : ¬ question.isBlank) (scope : Scope) (before : List Event) (size : Nat)
    (positive : 0 < size) (small : size ≤ maxPerPage) :
    let reached := Change.run changes (MemoryCluster.empty, Ledger.empty)
    let now := session changes question before
    now.2.unavailable = false →
    ∃ listed : List Numbered,
      reached.2.Ranks question scope listed ∧
      (listed.map Numbered.document).Perm (reached.1.documents.filter (question.finds scope)) ∧
      (∃ pages, Follows MemoryCluster.backend scope size 1 now pages ∧
        (∀ others, Follows MemoryCluster.backend scope size 1 now others → others = pages) ∧
        List.Forall₂ (Presents question scope) ((listed.take (reach size)).map Numbered.document)
          (pages.flatMap Page.items)) ∧
      (listed.length ≤ resultWindow → size ∣ resultWindow → listed.length ≤ reach size) ∧
      ∀ page, 0 < page → ∃ shown,
        (now.1.page MemoryCluster.backend scope (.of page size) now.2).1 = .ok shown ∧
          shown.total = listed.length ∧
          (shown.next? = none → page * size ≤ resultWindow → listed.length ≤ reach size) ∧
          (¬ shown.outOfRange → 0 < shown.total →
            (shown.items = [] ↔ resultWindow < page * size)) ∧
          (shown.total ≤ resultWindow → resultWindow < page * size → shown.next? = none) := by
  intro reached now here
  have lists : reached.2.Lists reached.1.documents := Ledger.lists_empty.run changes
  obtain ⟨listed, ranks, members, same⟩ := lists.ranks question scope
  have results : listed.map Numbered.document = ranked question reached.1.documents scope := same
  have started : Ready question reached.1.documents now := by
    have recites : Recites question reached.1.documents now :=
      Recites.run (recites_ask question reached.1) before
    have later : Continues (ask question, reached.1) now :=
      continues_run (sound_ask question reached.1.documents) before
    exact ⟨recites, later.sound, here⟩
  refine ⟨listed, ranks, members, ?_, ?_, ?_⟩
  · obtain ⟨pages, follows, items⟩ := started.follows asked positive small Nat.one_pos
    rw [Nat.sub_self, Nat.zero_mul, List.drop_zero, ← results, ← List.map_take] at items
    exact ⟨pages, follows, fun others other => follows.unique other, items⟩
  · intro few divides
    rwa [reach, Nat.div_mul_cancel divides]
  · intro page first
    obtain ⟨-, shown, told, request, total, -⟩ := started.page asked scope (.of page size)
    rw [request_of first positive small] at request
    rw [← results, List.length_map] at total
    have next := shown.next?_eq (request ▸ positive)
    rw [request, total] at next
    refine ⟨shown, told, total, ?_, started.page_empty_iff asked positive small first told, ?_⟩
    · intro final inside
      have last : ¬ page * size < listed.length := by
        intro more
        rw [next, if_pos more] at final
        cases final
      exact Nat.le_trans (Nat.le_of_not_lt last) (le_reach positive inside)
    · intro few beyond
      rw [next]
      exact if_neg (by dsimp only; omega)

private def crowdIssue (number : Nat) : StoredDocument :=
  ⟨"main", Kind.issue.searchId number, none, .obj [("title", .str "red"), ("type", .str "issue")]⟩

private def askCrowd : Question :=
  ⟨"main", "red", ⟨.all, .everything⟩, ⟨none, none, none⟩, 20⟩

/-- Three issues on pages of two, of which the first page was asked for before, come in the order in
which they were put in. -/
theorem pager_reaches_window_crowd :
    let changes := (List.range 3).map fun number => Change.put (crowdIssue number)
    let now := session changes askCrowd [.call (.page .issues (.of 1 2))]
    ∃ pages, Follows MemoryCluster.backend .issues 2 1 now pages ∧
      List.Forall₂ (Presents askCrowd .issues) ((List.range 3).map crowdIssue)
        (pages.flatMap Page.items) := by
  intro changes now
  obtain ⟨listed, ranks, -, ⟨pages, follows, -, items⟩, -, -⟩ :=
    pager_reaches_window changes askCrowd (by decide) .issues [.call (.page .issues (.of 1 2))] 2
      (by decide) (by decide) (by decide +kernel)
  have table : (Change.run changes (MemoryCluster.empty, Ledger.empty)).2.entries =
      [⟨3, crowdIssue 2⟩, ⟨2, crowdIssue 1⟩, ⟨1, crowdIssue 0⟩] := by rfl
  have found : ∀ entry ∈ [(⟨3, crowdIssue 2⟩ : Numbered), ⟨2, crowdIssue 1⟩, ⟨1, crowdIssue 0⟩],
      askCrowd.finds .issues entry.document := by decide +kernel
  have all := ranks.entries
  rw [table, List.filter_eq_self.2 found] at all
  -- without a sort the entries come by their numbers
  have order : listed = [⟨1, crowdIssue 0⟩, ⟨2, crowdIssue 1⟩, ⟨3, crowdIssue 2⟩] := by
    apply (all.trans (List.reverse_perm _).symm).eq_of_pairwise _ ranks.ordered
    · simp [Numbered.Before, askCrowd]
    · exact fun _ _ _ _ less more => absurd more (Nat.lt_asymm less)
  rw [order] at items
  exact ⟨pages, follows, items⟩

private theorem number_crowd (numbers : List Nat) :
    askCrowd.number (numbers.map crowdIssue) .issues = numbers.length := by
  have one : askCrowd.finds .issues (crowdIssue 0) := by decide +kernel
  rw [Question.number, List.filter_eq_self.2, List.length_map]
  intro document inside
  obtain ⟨number, -, rfl⟩ := List.mem_map.1 inside
  exact one

private theorem nodup_crowd {numbers : List Nat} (apart : numbers.Nodup) :
    ((numbers.map crowdIssue).map StoredDocument.key).Nodup := by
  rw [List.map_map]
  refine List.Nodup.map ?_ apart
  intro one other same
  exact (Kind.searchId_injective (congrArg Prod.snd same)).2

/-- As many issues match as the window has places for, and the last of them is on no page of three:
the pager leads to a page that is in range and empty. -/
theorem last_page_beyond_window :
    let documents := (List.range resultWindow).map crowdIssue
    let told := (ask askCrowd).page MemoryCluster.backend .issues (.of 3334 3)
      (MemoryCluster.holding documents)
    (MemoryCluster.holding documents).unavailable = false ∧
      (documents.map StoredDocument.key).Nodup ∧ ¬ askCrowd.isBlank ∧
      askCrowd.number documents .issues = resultWindow ∧
      ∃ shown, told.1 = .ok shown ∧ ¬ shown.outOfRange ∧ shown.total = resultWindow ∧
        shown.items = [] := by
  have number : askCrowd.number ((List.range resultWindow).map crowdIssue) .issues =
      resultWindow := (number_crowd _).trans List.length_range
  have apart := nodup_crowd (List.nodup_range : (List.range resultWindow).Nodup)
  generalize (List.range resultWindow).map crowdIssue = documents at number apart
  intro documents told
  have ready : Ready askCrowd documents (ask askCrowd, MemoryCluster.holding documents) :=
    ⟨recites_ask askCrowd (MemoryCluster.holding documents), sound_ask askCrowd documents, rfl⟩
  obtain ⟨-, shown, answered, request, total, -⟩ := ready.page (by decide) .issues (.of 3334 3)
  rw [ranked, MemoryCluster.length_matching] at total
  have count : shown.total = resultWindow := total.trans number
  have inside : ¬ shown.outOfRange := by
    rw [Page.outOfRange, Page.totalPages, request, count]
    decide
  refine ⟨rfl, apart, by decide, number, shown, answered, inside, count, ?_⟩
  exact (ready.page_empty_iff (by decide) (by decide) (by decide) (by decide) answered inside
    (count ▸ by decide)).2 (by decide)

end Results

end SearchRelay
