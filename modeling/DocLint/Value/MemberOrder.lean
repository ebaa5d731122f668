/-
The order in which the members of a set are shown.

Integers are kept in a table of numbered places.  Each belongs at its remainder by the size
of the table; where that place is taken it goes to the next free one of the nine behind, if
the table is long enough, and else tries a place further off.  So small integers come out
in ascending order, however they were written.  A set in which not all is an integer is
shown as it was written.
-/
import DocLint.Value

namespace DocLint.Value

/-- The size of a table for so many members: at least eight, and more than twice as many from five
on. -/
def tableSize (count : Nat) : Nat := if count < 5 then 8 else Nat.nextPowerOfTwo (2 * count + 1)

/-- The number that decides on the place of an integer. -/
def placeCode (n : Int) : Nat :=
  let reduced := Int.tmod n (Int.pow 2 61 - 1)
  ((if reduced = -1 then -2 else reduced) % Int.pow 2 64).toNat

/-- The first free place for a number, the search beginning at `start`.  From the number `far` the
leaps of the search are made; when that is used up they lead to every place in turn. -/
def freePlace (table : Array (Option Value)) : Nat → Nat → Nat → Option Nat
  | 0, _, _ => none
  | fuel + 1, start, far =>
    let behind := if start + 9 < table.size then 9 else 0
    let places := (List.range (behind + 1)).map (start + ·)
    match places.find? fun p => (table[p]?).join.isNone with
    | some p => some p
    | none => freePlace table fuel ((start * 5 + 1 + far / 32) % table.size) (far / 32)

def addMember (table : Array (Option Value)) (member : Value × Int) : Array (Option Value) :=
  let code := placeCode member.2
  match freePlace table (table.size + 14) (code % table.size) code with
  | some place => table.setIfInBounds place (some member.1)
  | none => table

/-- The members of a set in the order in which they are shown. -/
def inMemberOrder (members : List Value) : List Value :=
  match members.mapM wholeNumber? with
  | none => members
  | some numbers =>
    let table := (members.zip numbers).foldl addMember
      (Array.replicate (tableSize members.length) none)
    table.toList.filterMap id

end DocLint.Value
