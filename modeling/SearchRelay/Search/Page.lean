import SearchRelay.Text.Decimal
import SearchRelay.Text.Space

/-!
Pages. A request names a page from one on and a size between one and the largest; a page of
results knows its neighbours by the number of all results.
-/

namespace SearchRelay

/-- The most that one page holds. -/
def maxPerPage : Nat := 100

structure PageRequest where
  page : Nat
  perPage : Nat
deriving DecidableEq, Repr

namespace PageRequest

/-- Page zero is page one, and the size is brought into its range. -/
def of (page perPage : Nat) : PageRequest := ⟨max page 1, min (max perPage 1) maxPerPage⟩

/-- Reads the number of a page. Whatever is no number means page one. -/
def parse (page : List Char) (perPage : Nat) : PageRequest :=
  of ((Text.readWord? (Text.trim page)).getD 1) perPage

/-- The number of results before the page, as far as it fits 64 bits. -/
def offset (request : PageRequest) : Nat :=
  min ((request.page - 1) * request.perPage) Text.maxWord

end PageRequest

structure Page (α : Type) where
  items : List α
  request : PageRequest
  total : Nat

namespace Page

def totalPages (page : Page α) : Nat :=
  (page.total + (max page.request.perPage 1 - 1)) / max page.request.perPage 1

/-- The page lies behind the last one; page one never does. -/
def outOfRange (page : Page α) : Bool := max page.totalPages 1 < page.request.page

def next? (page : Page α) : Option Nat :=
  if page.request.page < page.totalPages then some (page.request.page + 1) else none

def previous? (page : Page α) : Option Nat :=
  if 1 < page.request.page then some (page.request.page - 1) else none

end Page

end SearchRelay
