/-
The sections of an update statement and the clauses that stand in them.
-/
import UpdateExpr.Record.Schema
import UpdateExpr.Token

namespace UpdateExpr

/-! ## Sections -/

/-- A section of an update statement. -/
inductive Section where
  | set | remove | add | delete
deriving Repr, DecidableEq

namespace Section

/-- The sections in the order in which they are written. -/
def all : List Section :=
  [.set, .remove, .add, .delete]

/-- The word that opens a section. -/
def keyword : Section → String
  | .set => "SET"
  | .remove => "REMOVE"
  | .add => "ADD"
  | .delete => "DELETE"

/-- The section that a word opens. -/
def ofKeyword? (word : String) : Option Section :=
  all.find? fun s => s.keyword = word

theorem mem_all (s : Section) : s ∈ all := by
  cases s <;> decide

theorem ofKeyword?_keyword (s : Section) : ofKeyword? s.keyword = some s := by
  cases s <;> decide

end Section

/-! ## Clauses -/

namespace Clause

/-- The value at a path, or another one if nothing is there. -/
def ifNotExists (path key : String) : String :=
  "if_not_exists(" ++ path ++ ", " ++ key ++ ")"

/-- An assignment, perhaps only if nothing is there yet. -/
def assign (path key : String) (onlyIfAbsent : Bool) : String :=
  path ++ " = " ++ if onlyIfAbsent then ifNotExists path key else key

/-- A list append; a list that is not there yet counts as empty. -/
def append (path key : String) (listEnd : ListEnd) : String :=
  let existing := ifNotExists path Token.emptyListKey
  match listEnd with
  | .front => path ++ " = list_append(" ++ key ++ ", " ++ existing ++ ")"
  | .back => path ++ " = list_append(" ++ existing ++ ", " ++ key ++ ")"

/-- An increment; a counter that is not there yet starts at a base. -/
def increment (path base amount : String) : String :=
  path ++ " = " ++ ifNotExists path base ++ " + " ++ amount

/-- A path with a value. -/
def valued (path key : String) : String :=
  path ++ " " ++ key

end Clause

/-! ## Clauses by section -/

/-- The clauses of every section, in the order in which they were added. -/
structure Clauses where
  set : List String := []
  remove : List String := []
  add : List String := []
  delete : List String := []
deriving Repr, DecidableEq

namespace Clauses

/-- The clauses of a section. -/
def get (c : Clauses) : Section → List String
  | .set => c.set
  | .remove => c.remove
  | .add => c.add
  | .delete => c.delete

/-- Adds a clause at the end of a section. -/
def push (c : Clauses) (s : Section) (clause : String) : Clauses :=
  match s with
  | .set => { c with set := c.set ++ [clause] }
  | .remove => { c with remove := c.remove ++ [clause] }
  | .add => { c with add := c.add ++ [clause] }
  | .delete => { c with delete := c.delete ++ [clause] }

theorem get_empty (s : Section) : ({} : Clauses).get s = [] := by
  cases s <;> rfl

theorem get_push (c : Clauses) (s t : Section) (clause : String) :
    (c.push s clause).get t = c.get t ++ if s = t then [clause] else [] := by
  cases s <;> cases t <;> simp [push, get]

theorem ext_get {c d : Clauses} (h : ∀ s, c.get s = d.get s) : c = d := by
  cases c
  cases d
  rw [Clauses.mk.injEq]
  exact ⟨h .set, h .remove, h .add, h .delete⟩

/-- Whether no section has a clause. -/
def isEmpty (c : Clauses) : Bool :=
  Section.all.all fun s => (c.get s).isEmpty

/-- A section as it is written. -/
def section? (c : Clauses) (s : Section) : Option String :=
  match c.get s with
  | [] => none
  | clauses => some (s.keyword ++ " " ++ ", ".intercalate clauses)

/-- The statement: the sections that have clauses, one space apart. -/
def statement? (c : Clauses) : Option String :=
  match Section.all.filterMap c.section? with
  | [] => none
  | sections => some (" ".intercalate sections)

end Clauses

end UpdateExpr
