import SearchRelay.Repository.Status

/-!
What a table of statuses knows of a project after one was set or forgotten, and when a plan has
nothing to do.
-/

namespace SearchRelay

namespace StatusTable

theorem find?_record (table : StatusTable) (status : Status) :
    (table.record status).find? status.projectId = some status := by
  rw [record, find?]
  dsimp only
  generalize table.statuses = statuses
  fun_induction insert status statuses with
  | case1 => simp
  | case2 => simp
  | case3 => simp
  | case4 first rest other _ ih =>
    rw [List.find?_cons_of_neg (by simpa using Ne.symm other)]
    exact ih

theorem find?_record_other (table : StatusTable) (status : Status) {project : Nat}
    (other : project ≠ status.projectId) :
    (table.record status).find? project = table.find? project := by
  have passed (known : Status) (same : known.projectId = status.projectId) (rest : List Status) :
      (known :: rest).find? (fun status => status.projectId == project) =
        rest.find? fun status => status.projectId == project :=
    List.find?_cons_of_neg (by simpa [same] using other.symm)
  rw [record, find?, find?]
  dsimp only
  generalize table.statuses = statuses
  fun_induction insert status statuses with
  | case1 => exact passed status rfl []
  | case2 first rest same => rw [passed status rfl, passed first same.symm]
  | case3 first rest => exact passed status rfl (first :: rest)
  | case4 first rest _ _ ih => rw [List.find?_cons, List.find?_cons, ih]

theorem find?_remove (table : StatusTable) (project : Nat) :
    (table.remove project).1.find? project = none := by
  simp [remove, find?, List.find?_eq_none]

theorem find?_remove_other (table : StatusTable) {project other : Nat} (apart : other ≠ project) :
    (table.remove project).1.find? other = table.find? other := by
  rw [remove, find?, find?, List.find?_filter]
  congr 1
  funext status
  by_cases known : status.projectId = other
  · simp [known, apart]
  · simp [known]

/-- A plan that is carried out moves the status of its project to its target, and no other one. -/
theorem find?_recordSuccess (table : StatusTable) {plan : Plan} (stale : plan ≠ .upToDate)
    (project other : Nat) (now : Instant) :
    (table.recordSuccess project plan now).find? other =
      if other = project then plan.target?.map fun commit => ⟨project, commit, now⟩
      else table.find? other := by
  have moved (commit : String) : (table.record ⟨project, commit, now⟩).find? other =
      if other = project then some ⟨project, commit, now⟩ else table.find? other := by
    split
    next same => exact same ▸ table.find?_record ⟨project, commit, now⟩
    next apart => exact table.find?_record_other ⟨project, commit, now⟩ apart
  cases plan with
  | upToDate => exact absurd rfl stale
  | incremental first last => exact moved last
  | full commit => exact moved commit
  | purge =>
    rw [recordSuccess]
    split
    next same => exact same ▸ table.find?_remove project
    next apart => exact table.find?_remove_other apart

end StatusTable

/-- The commit that a table has a project at. -/
def StatusTable.indexed (table : StatusTable) (project : Nat) : Option String :=
  (table.find? project).map Status.lastCommit

theorem Plan.decide_upToDate {status : Option Status} {isAncestor : String → String → Bool}
    {head : Option String} :
    decide status isAncestor head = .upToDate ↔ status.map Status.lastCommit = head := by
  fun_cases decide status isAncestor head with
  | case1 | case2 | case3 | case4 => simp
  | case5 head status other _ => simp [other]
  | case6 head status other _ => simp [other]

end SearchRelay
