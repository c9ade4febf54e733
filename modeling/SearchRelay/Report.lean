/-!
Reports of failures. A report says what could not be done, then why, from the outermost reason to
the innermost. A reason that comes from outside this library is named only by who gave it, and
nothing follows it.
-/

namespace SearchRelay

inductive Party where
  /-- A reader of documents. -/
  | document
  | file
  | network
  | settings
  | address
  | repository
  | signing
deriving DecidableEq, Repr

/-- One reason: a sentence of this library, or someone else's. -/
inductive Reason where
  | told (text : String)
  | outside (party : Party)
deriving DecidableEq, Repr

/-- What went wrong, and the reasons behind it. -/
structure Report where
  reason : Reason
  causes : List Reason
deriving DecidableEq, Repr

namespace Report

def told (text : String) : Report := ⟨.told text, []⟩

def outside (party : Party) : Report := ⟨.outside party, []⟩

/-- Says what could not be done because of a failure. -/
def within (text : String) (report : Report) : Report :=
  ⟨.told text, report.reason :: report.causes⟩

end Report

abbrev Outcome (α : Type) := Except Report α

end SearchRelay
