/-!
# Queue

A bounded queue between those who hand in lines and the one who writes them.  When it is full the
newest line is refused and counted, and those already queued stay as they are.

The queue also carries a permit to wake the writer.  Every accepted line leaves one, but there is
at most one at a time; it is taken by looking for it, and not by taking lines.
-/

namespace PacketLog

/-- A bounded queue with a permit to wake the reader. -/
structure Queue (α : Type) where
  capacity : Nat
  items    : List α := []
  /-- How many items have been refused. -/
  refused  : UInt64 := 0
  /-- An item has been accepted since the permit was last taken. -/
  permit   : Bool := false
deriving DecidableEq

namespace Queue

variable {α : Type}

/-- An empty queue, which has room for one item at least. -/
def new (capacity : Nat) : Queue α := { capacity := max capacity 1 }

/-- The number of items. -/
def size (q : Queue α) : Nat := q.items.length

/-- There is room for no more. -/
def isFull (q : Queue α) : Bool := q.capacity ≤ q.size

/-- Offer an item, and learn whether it was accepted. -/
def offer (q : Queue α) (a : α) : Bool × Queue α :=
  if q.isFull then (false, { q with refused := q.refused + 1 })
  else (true, { q with items := q.items ++ [a], permit := true })

/-- Take up to `n` items, the oldest first. -/
def take (q : Queue α) (n : Nat) : List α × Queue α :=
  (q.items.take n, { q with items := q.items.drop n })

/-- Take all items, the oldest first. -/
def takeAll (q : Queue α) : List α × Queue α := (q.items, { q with items := [] })

/-- Take the permit, and learn whether there was one. -/
def poll (q : Queue α) : Bool × Queue α := (q.permit, { q with permit := false })

theorem isFull_iff {q : Queue α} : q.isFull = true ↔ q.capacity ≤ q.size := by simp [isFull]

theorem offer_of_full {q : Queue α} (a : α) (h : q.isFull = true) :
    q.offer a = (false, { q with refused := q.refused + 1 }) := by simp [offer, h]

theorem offer_of_room {q : Queue α} (a : α) (h : q.isFull = false) :
    q.offer a = (true, { q with items := q.items ++ [a], permit := true }) := by simp [offer, h]

theorem takeAll_eq_take (q : Queue α) : q.takeAll = q.take q.size := by
  simp [takeAll, take, size]

/-- What is taken and what stays are the items, in order. -/
theorem items_take (q : Queue α) (n : Nat) : (q.take n).1 ++ (q.take n).2.items = q.items := by
  simp [take]

/-- Taking items does not take the permit. -/
@[simp] theorem permit_take (q : Queue α) (n : Nat) : (q.take n).2.permit = q.permit := rfl

end Queue

end PacketLog
