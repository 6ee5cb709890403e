import Precedents.Reference.Basic

/-!
# Covers

A cover lists the references found so far, in the order in which they were
found, and says nothing twice.  A cell that lies in a listed range is left out,
and a range drops the cells that it holds.  Ranges that overlap stay side by
side.
-/

namespace Precedents

/-- The references found so far. -/
structure Cover where
  entries : List Reference := []
deriving DecidableEq, Repr

namespace Reference

def coversCell (ref : Reference) (cell : Cell) : Bool :=
  match ref with
  | .cell c => c == cell
  | .range r => r.contains cell

/-- The reference is the range: on the same sheet, with the same corners. -/
def isRange (ref : Reference) (range : Range) : Bool :=
  match ref with
  | .cell _ => false
  | .range r => r.sheet == range.sheet && r.sameBounds range

def isCellIn (ref : Reference) (range : Range) : Bool :=
  match ref with
  | .cell c => range.contains c
  | .range _ => false

end Reference

namespace Cover

def size (cover : Cover) : Nat :=
  cover.entries.length

/-- Adding the reference would say nothing new. -/
def covers (cover : Cover) (ref : Reference) : Bool :=
  match ref with
  | .cell c => cover.entries.any (·.coversCell c)
  | .range r => cover.entries.any (·.isRange r)

def keptBeside (ref : Reference) (entries : List Reference) : List Reference :=
  match ref with
  | .cell _ => entries
  | .range r => entries.filter fun entry => !entry.isCellIn r

def add (cover : Cover) (ref : Reference) : Cover :=
  if cover.covers ref then cover
  else ⟨keptBeside ref cover.entries ++ [ref]⟩

def offer (cover : Cover) (ref : Reference) : Bool × Cover :=
  (!cover.covers ref, cover.add ref)

end Cover
end Precedents
