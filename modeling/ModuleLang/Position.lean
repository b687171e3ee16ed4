/-!
Positions in a text and the spans between them. A position is a row and a
column counted from zero in characters. The reference walk lets a line feed, a
carriage return with its line feed, and a lone carriage return each end one
row; every other character takes one column.
-/

namespace ModuleLang

structure Position where
  row : Nat
  column : Nat
deriving DecidableEq, Inhabited

namespace Position

/-- First character of a text. -/
def start : Position := ⟨0, 0⟩

def nextLine (position : Position) : Position := ⟨position.row + 1, 0⟩

/-- Position `columns` further along the same row. -/
def shifted (position : Position) (columns : Nat) : Position :=
  ⟨position.row, position.column + columns⟩

/-- Rows and columns are added apart from each other. -/
instance : Add Position where
  add left right := ⟨left.row + right.row, left.column + right.column⟩

/-- Row first, then column. -/
protected def le (left right : Position) : Prop :=
  left.row < right.row ∨ (left.row = right.row ∧ left.column ≤ right.column)

instance : LE Position := ⟨Position.le⟩

instance (left right : Position) : Decidable (left ≤ right) :=
  inferInstanceAs (Decidable (_ ∨ _))

instance : LT Position where
  lt left right := left ≤ right ∧ ¬ right ≤ left

instance (left right : Position) : Decidable (left < right) :=
  inferInstanceAs (Decidable (_ ∧ _))

instance : Max Position := maxOfLe
instance : Min Position := minOfLe

instance : Ord Position where
  compare left right :=
    if left = right then .eq else if left ≤ right then .lt else .gt

theorem le_iff {left right : Position} :
    left ≤ right ↔ left.row < right.row ∨ (left.row = right.row ∧ left.column ≤ right.column) :=
  Iff.rfl

theorem le_refl (position : Position) : position ≤ position :=
  Or.inr ⟨rfl, Nat.le_refl _⟩

theorem le_trans {first second third : Position}
    (lower : first ≤ second) (upper : second ≤ third) : first ≤ third := by
  rw [le_iff] at *
  omega

theorem le_total (left right : Position) : left ≤ right ∨ right ≤ left := by
  rw [le_iff, le_iff]
  omega

theorem le_antisymm {left right : Position} (forward : left ≤ right) (backward : right ≤ left) :
    left = right := by
  rw [le_iff] at *
  obtain ⟨row, column⟩ := left
  obtain ⟨otherRow, otherColumn⟩ := right
  simp only [mk.injEq] at *
  omega

theorem start_le (position : Position) : start ≤ position := by
  rw [le_iff]
  simp only [start]
  omega

theorem le_max_left (left right : Position) : left ≤ max left right := by
  simp only [max]
  split
  · assumption
  · exact le_refl left

/-- Text for people, who count rows and columns from one. -/
def text (position : Position) : String :=
  s!"{position.row + 1}:{position.column + 1}"

/-- Position behind `character`, which `next` follows. A carriage return leaves
its row only if no line feed follows that will. -/
def after (position : Position) (character : Char) (next : Option Char) : Position :=
  if character = '\n' ∨ (character = '\r' ∧ next ≠ some '\n') then position.nextLine
  else position.shifted 1

theorem le_after (position : Position) (character : Char) (next : Option Char) :
    position ≤ position.after character next := by
  rw [le_iff]
  unfold after
  split
  · exact Or.inl (Nat.lt_succ_self _)
  · exact Or.inr ⟨rfl, Nat.le_succ _⟩

/-- Walks over the first `count` characters of `text`: where the walk ends, and
what is left of the text there. -/
def walk : Nat → Position → List Char → Position × List Char
  | count + 1, position, character :: text =>
      walk count (position.after character text.head?) text
  | 0, position, text => (position, text)
  | _ + 1, position, [] => (position, [])

theorem le_walk (count : Nat) (position : Position) (text : List Char) :
    position ≤ (walk count position text).1 := by
  induction count generalizing position text with
  | zero => exact le_refl position
  | succ count ih =>
    cases text with
    | nil => exact le_refl position
    | cons character text => exact le_trans (le_after position character _) (ih _ _)

end Position

/-- Half-open stretch of a text. It never ends before it starts. -/
structure Span where
  start : Position
  stop : Position
  ordered : start ≤ stop
deriving DecidableEq

namespace Span

/-- Empty span at one place. -/
def point (place : Position) : Span := ⟨place, place, Position.le_refl place⟩

instance : Inhabited Span := ⟨Span.point .start⟩

/-- Span between two ends, if they come in order. -/
def ofEnds? (start stop : Position) : Option Span :=
  if ordered : start ≤ stop then some ⟨start, stop, ordered⟩ else none

/-- Span from `start` to `stop`, or the empty one at `start` where `stop` lies
before it. -/
def reaching (start stop : Position) : Span :=
  ⟨start, max start stop, Position.le_max_left start stop⟩

/-- Smallest span that covers both. -/
def union (left right : Span) : Span where
  start := min left.start right.start
  stop := max left.stop right.stop
  ordered := by
    have lower : min left.start right.start ≤ left.start := by
      simp only [min]
      split
      · exact Position.le_refl _
      · exact (Position.le_total _ _).resolve_left ‹_›
    exact Position.le_trans lower (Position.le_trans left.ordered (Position.le_max_left _ _))

end Span

end ModuleLang
