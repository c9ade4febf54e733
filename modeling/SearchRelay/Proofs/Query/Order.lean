import SearchRelay.Backend.Memory
import SearchRelay.Proofs.Json.RoundTrip
import SearchRelay.Proofs.Sorting

/-!
The order of values is a preorder over all of them: by the first characters of their texts strings
come before numbers, and numbers before everything else. Sorting by a field is one too, with the
documents without the field at the end.
-/

namespace SearchRelay

namespace Binary64

/-! ### The text of a double -/

theorem interval_pos {steps : Nat} (positive : steps ≠ 0) : 0 < (interval steps).1 := by
  have whole : Nat.pow 2 (Nat.log2 steps) ≤ steps := Nat.log2_self_le positive
  have small : Nat.pow 2 (excess steps) ≤ Nat.pow 2 (Nat.log2 steps) :=
    Nat.pow_le_pow_right (by decide) (by unfold excess; omega)
  unfold interval
  dsimp only
  split <;> omega

/-- A place on the grid. -/
def inInterval (steps gridNum gridDen k : Nat) : Bool :=
  let (low, high, ends) := interval steps
  if ends then low * gridDen ≤ 4 * k * gridNum && 4 * k * gridNum ≤ high * gridDen
  else low * gridDen < 4 * k * gridNum && 4 * k * gridNum < high * gridDen

theorem onGrid_inInterval {steps gridNum gridDen k : Nat}
    (found : onGrid steps gridNum gridDen = some k) : inInterval steps gridNum gridDen k := by
  have taken {inside : Nat → Bool} {nearer other : Nat}
      (found : (if inside nearer then some nearer else if inside other then some other else none) =
        some k) : inside k := by
    split at found
    next holds => exact Option.some.inj found ▸ holds
    next =>
      split at found
      next holds => exact Option.some.inj found ▸ holds
      next => cases found
  exact taken found

theorem onGrid_pos {steps gridNum gridDen k : Nat} (positive : steps ≠ 0) (den : 0 < gridDen)
    (found : onGrid steps gridNum gridDen = some k) : 0 < k := by
  have low := Nat.mul_pos (interval_pos positive) den
  have inside := onGrid_inInterval found
  rw [Nat.pos_iff_ne_zero]
  rintro rfl
  unfold inInterval at inside
  dsimp only at inside
  split at inside <;> simp only [Bool.and_eq_true, decide_eq_true_eq] at inside <;> omega

theorem digits_trimmed {first : Char} (digit : first ≠ '0') (more : List Char) :
    ∃ rest, ((first :: more).reverse.dropWhile (· == '0')).reverse = first :: rest := by
  have kept : [first].dropWhile (· == '0') = [first] := by simp [digit]
  rw [List.reverse_cons, List.dropWhile_append, kept]
  split
  next => exact ⟨[], rfl⟩
  next => exact ⟨_, by rw [List.reverse_append, List.reverse_singleton, List.singleton_append]⟩

theorem shortestFrom_digit {steps : Nat} (positive : steps ≠ 0) (point : Int) (tries places : Nat) :
    ∃ first more, (shortestFrom steps point tries places).digits = first :: more ∧ first.isDigit := by
  induction tries generalizing places with
  | zero => exact ⟨'0', [], rfl, rfl⟩
  | succ tries ih =>
    unfold shortestFrom
    dsimp only
    split
    next k found =>
      have den : 0 < if 0 ≤ point - places then 1 else Nat.pow 10 (point - places).natAbs := by
        split
        · decide
        · exact Nat.pow_pos (by decide)
      have large := onGrid_pos positive den found
      obtain ⟨first, more, split, digit, -⟩ := Text.decimal_first k
      have notZero : first ≠ '0' := by
        rintro rfl
        have nothing := (Text.decimal_leading_zero split).1
        omega
      obtain ⟨rest, trimmed⟩ := digits_trimmed notZero more
      refine ⟨first, rest, ?_, digit⟩
      rw [← split] at trimmed
      exact trimmed
    next => exact ih (places + 1)

theorem magnitudeText_first (steps : Nat) :
    ∃ first more, magnitudeText steps = first :: more ∧ first.isDigit := by
  unfold magnitudeText
  split
  next => exact ⟨'0', _, rfl, rfl⟩
  next positive =>
    obtain ⟨first, more, digits, digit⟩ := shortestFrom_digit positive (pointOf steps) 17 1
    rw [show shortestFrom steps (pointOf steps) 17 1 = shortest steps from rfl] at digits
    dsimp only
    rw [digits]
    split
    next fits =>
      split
      next => exact ⟨first, _, rfl, digit⟩
      next =>
        obtain ⟨whole, same⟩ : ∃ whole, (shortest steps).point.toNat = whole + 1 :=
          Nat.exists_eq_succ_of_ne_zero (by simp at fits; omega)
        rw [same]
        exact ⟨first, _, rfl, digit⟩
    next =>
      split
      next => exact ⟨'0', _, rfl, rfl⟩
      next =>
        cases more with
        | nil => exact ⟨first, _, rfl, digit⟩
        | cons second more => exact ⟨first, _, rfl, digit⟩

theorem text_first (x : Binary64) :
    ∃ first more, x.text = first :: more ∧ (first.isDigit ∨ first = '-') := by
  unfold text
  split
  next => exact ⟨'-', _, rfl, Or.inr rfl⟩
  next =>
    obtain ⟨first, more, text, digit⟩ := magnitudeText_first x.steps
    exact ⟨first, more, text, Or.inl digit⟩

end Binary64

namespace Json

/-! ### Values of different types -/

/-- Where values of a type stand among those of other types. -/
def rank : Json → Nat
  | .str _ => 0
  | .num _ => 1
  | _ => 2

def quantity : Json → Int
  | .num number => number.toFloat.value
  | _ => 0

def wording : Json → String
  | .str text => text
  | .num _ => ""
  | other => other.render

/-- The least code of a character that a text of this rank begins with. -/
def threshold : Nat → Nat
  | 0 => 34
  | 1 => 45
  | _ => 91

theorem code_of_numeral {c : Char} (first : c.isDigit ∨ c = '-') : 45 ≤ c.toNat ∧ c.toNat < 91 := by
  rcases first with digit | rfl
  · have codes := Char.isDigit_iff_toNat.1 digit
    simp at codes
    omega
  · decide

theorem print_first (value : Json) :
    ∃ first more, value.print = first :: more ∧ threshold value.rank ≤ first.toNat ∧
      (value.rank < 2 → first.toNat < threshold (value.rank + 1)) := by
  match value with
  | .null => exact ⟨'n', _, rfl, by decide, by decide⟩
  | .bool true => exact ⟨'t', _, rfl, by decide, by decide⟩
  | .bool false => exact ⟨'f', _, rfl, by decide, by decide⟩
  | .str text => exact ⟨'"', _, rfl, by simp [rank, threshold], by simp [rank, threshold]⟩
  | .arr [] => exact ⟨'[', _, rfl, by decide, by decide⟩
  | .arr (_ :: _) => exact ⟨'[', _, rfl, by simp [rank, threshold], by simp [rank]⟩
  | .obj [] => exact ⟨'\x7b', _, rfl, by decide, by decide⟩
  | .obj ((_, _) :: _) => exact ⟨'\x7b', _, rfl, by simp [rank, threshold], by simp [rank]⟩
  | .num (.int n) =>
    obtain ⟨first, more, text, start, -⟩ := Number.text_int n
    obtain ⟨low, high⟩ := code_of_numeral start
    exact ⟨first, more, text, low, fun _ => high⟩
  | .num (.float x) =>
    obtain ⟨first, more, text, start⟩ := x.text_first
    obtain ⟨low, high⟩ := code_of_numeral start
    exact ⟨first, more, text, low, fun _ => high⟩

theorem threshold_le {r s : Nat} (less : r < s) (most : s ≤ 2) : threshold (r + 1) ≤ threshold s := by
  have ranks : s = 1 ∧ r = 0 ∨ s = 2 ∧ r = 0 ∨ s = 2 ∧ r = 1 := by omega
  rcases ranks with ⟨rfl, rfl⟩ | ⟨rfl, rfl⟩ | ⟨rfl, rfl⟩ <;> decide

theorem render_lt {a b : Json} (less : a.rank < b.rank) : compare a.render b.render = .lt := by
  have most : b.rank ≤ 2 := by cases b <;> simp [rank]
  obtain ⟨first, more, text, -, high⟩ := a.print_first
  obtain ⟨other, rest, wording, low, -⟩ := b.print_first
  have before : first < other := by
    have ends := high (by omega)
    have rising := threshold_le less most
    exact Char.lt_def.2 (Nat.lt_of_lt_of_le ends (Nat.le_trans rising low))
  apply compareOfLessAndEq_eq_lt.2
  rw [String.lt_iff_toList_lt, render, render, String.toList_ofList, String.toList_ofList, text, wording]
  exact List.Lex.rel before

theorem order_of_ranks {a b : Json} (different : a.rank ≠ b.rank) :
    a.order b = compare a.render b.render := by
  unfold order
  split
  next => exact absurd rfl different
  next => exact absurd rfl different
  next => rfl

/-- The order is that of three keys, one after the other. -/
theorem order_eq :
    order = compareLex (compareOn rank) (compareLex (compareOn quantity) (compareOn wording)) := by
  funext a b
  rcases Nat.lt_trichotomy a.rank b.rank with less | same | more
  · have ranks : compareOn rank a b = .lt := Nat.compare_eq_lt.2 less
    rw [order_of_ranks (Nat.ne_of_lt less), render_lt less, compareLex, ranks]
    rfl
  · have ranks : compareOn rank a b = .eq := Nat.compare_eq_eq.2 same
    rw [compareLex, ranks, Ordering.eq_then]
    unfold order
    split
    next => simp [compareLex, compareOn, quantity, wording, Binary64.compare]
    next => simp [compareLex, compareOn, quantity, wording]
    next notNumbers notStrings =>
      cases a <;> cases b <;> simp [rank] at same notNumbers notStrings <;>
        simp [compareLex, compareOn, quantity, wording]
  · have ranks : compareOn rank a b = .gt := Nat.compare_eq_gt.2 more
    have swapped : compare a.render b.render = .gt := Std.OrientedCmp.gt_of_lt (render_lt more)
    rw [order_of_ranks (Nat.ne_of_gt more), swapped, compareLex, ranks]
    rfl

instance : Std.TransCmp order := by
  rw [order_eq]
  infer_instance

end Json

/-! ### Sorting by a field -/

namespace SortBy

variable (sort : SortBy)

/-- The order of two values in the direction of a sort. -/
def directed : Json → Json → Ordering :=
  match sort.direction with
  | .ascending => Json.order
  | .descending => fun a b => b.order a

instance : Std.TransCmp sort.directed := by
  unfold directed
  cases sort.direction with
  | ascending => exact inferInstanceAs (Std.TransCmp Json.order)
  | descending => exact Std.TransCmp.opposite

/-- A document without the field comes last, whatever the direction. -/
theorem compare_eq (left right : Json) :
    sort.compare left right =
      match left.lookup sort.field, right.lookup sort.field with
      | some a, some b => sort.directed a b
      | some _, none => .lt
      | none, some _ => .gt
      | none, none => .eq := by
  unfold compare
  cases left.lookup sort.field with
  | none => cases right.lookup sort.field <;> rfl
  | some a =>
    cases right.lookup sort.field with
    | none => rfl
    | some b =>
      unfold directed
      cases sort.direction with
      | ascending => rfl
      | descending => exact Std.OrientedCmp.eq_swap.symm

instance : Std.TransCmp sort.compare where
  eq_swap := by
    intro a b
    rw [compare_eq, compare_eq]
    cases a.lookup sort.field with
    | none => cases b.lookup sort.field <;> rfl
    | some x =>
      cases b.lookup sort.field with
      | none => rfl
      | some y => exact @Std.OrientedCmp.eq_swap _ sort.directed _ x y
  isLE_trans := by
    intro a b c first second
    rw [compare_eq] at first second ⊢
    revert first second
    cases a.lookup sort.field with
    | none =>
      cases b.lookup sort.field with
      | none => exact fun _ => id
      | some _ => exact nofun
    | some x =>
      cases c.lookup sort.field with
      | none => exact fun _ _ => rfl
      | some z =>
        cases b.lookup sort.field with
        | none => exact fun _ => nofun
        | some y => exact @Std.TransCmp.isLE_trans _ sort.directed _ x y z

/-! ### Sorted documents -/

/-- The document has the field. -/
def sees (document : Json) : Bool := (document.lookup sort.field).isSome

theorem compare_of_missing {left right : Json} (found : sort.sees left)
    (missing : ¬ sort.sees right) : sort.compare left right = .lt := by
  obtain ⟨value, here⟩ := Option.isSome_iff_exists.1 found
  have nothing : right.lookup sort.field = none := by simpa [sees] using missing
  rw [compare_eq, here, nothing]

theorem compare_of_both_missing {left right : Json} (first : ¬ sort.sees left)
    (second : ¬ sort.sees right) : sort.compare left right = .eq := by
  have nothing : left.lookup sort.field = none := by simpa [sees] using first
  have neither : right.lookup sort.field = none := by simpa [sees] using second
  rw [compare_eq, nothing, neither]

theorem sees_of_isLE {left right : Json} (before : (sort.compare left right).isLE)
    (found : sort.sees right) : sort.sees left := by
  by_contra missing
  have greater : sort.compare left right = .gt :=
    Std.OrientedCmp.gt_of_lt (sort.compare_of_missing found missing)
  rw [greater] at before
  cases before

instance transCmp_source :
    Std.TransCmp fun left right : StoredDocument => sort.compare left.source right.source :=
  transCmp_on sort.compare StoredDocument.source

/-- Sorting only ever meets a consistent order. It moves the documents that have the field to the
front, in that order, and leaves the others as they were found. -/
theorem compare_consistent :
    (∀ document, sort.compare document document = .eq) ∧
      (∀ left right, sort.compare right left = (sort.compare left right).swap) ∧
      (∀ first second third, (sort.compare first second).isLE →
        (sort.compare second third).isLE → (sort.compare first third).isLE) ∧
      (∀ left right, sort.sees left → ¬ sort.sees right → sort.compare left right = .lt) ∧
      ∀ (cluster : MemoryCluster) (request : SearchRequest),
        let found := cluster.matching { request with sort := none }
        let listed := cluster.matching { request with sort := some sort }
        listed.Perm found ∧
          listed.Pairwise (fun left right => (sort.compare left.source right.source).isLE) ∧
          listed = listed.filter (fun document => sort.sees document.source) ++
            found.filter fun document => !sort.sees document.source := by
  refine ⟨fun _ => Std.ReflCmp.compare_self, fun _ _ => Std.OrientedCmp.eq_swap,
    fun _ _ _ => Std.TransCmp.isLE_trans, fun _ _ => sort.compare_of_missing, ?_⟩
  intro cluster request found listed
  let order (left right : StoredDocument) := sort.compare left.source right.source
  let has (document : StoredDocument) : Bool := sort.sees document.source
  have sorted : listed.Pairwise fun left right => (order left right).isLE :=
    pairwise_mergeSort_isLE found
  have parts : listed.filter has ++ listed.filter (fun document => !has document) = listed :=
    filter_append_filter_not (sorted.imp fun before => sort.sees_of_isLE before)
  have kept : listed.filter (fun document => !has document) =
      found.filter fun document => !has document := by
    have equal (left right : StoredDocument) (first : !has left) (second : !has right) :
        order left right = .eq :=
      sort.compare_of_both_missing (by simpa [has] using first) (by simpa [has] using second)
    exact filter_mergeSort equal found
  refine ⟨List.mergeSort_perm _ _, sorted, ?_⟩
  rw [← kept]
  exact parts.symm

/-- A list, a number, a string and nothing at all, from the last to the first. -/
example :
    let sort : SortBy := ⟨"at", .descending⟩
    let entry (value : Json) : Json := .obj [("at", value)]
    sort.compare (entry (.arr [])) (entry (.num (.int 9))) = .lt ∧
      sort.compare (entry (.num (.int 9))) (entry (.str "10")) = .lt ∧
      sort.compare (entry (.str "10")) (.obj []) = .lt := by decide

end SortBy

end SearchRelay
