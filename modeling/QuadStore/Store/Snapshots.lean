/-!
# Snapshots

Snapshots are numbered by stamps, which are words of 64 bits. The two greatest numbers are
reserved: one for a bound that is not set, and one, below it, for what the open transaction has
staged.

A reader pins the snapshot that it reads, and several readers may hold one pin. While a snapshot is
pinned, what it shows is kept; the watermark is the oldest snapshot that is still of interest.
-/

namespace QuadStore

/-! ## Stamps -/

namespace Stamp

/-- How many stamps there are. -/
def wordSize : Nat := 0x10000000000000000

/-- The stamp of a bound that is not set. -/
def never : Nat := wordSize - 1

/-- The stamp of staged changes, and of the snapshot that shows them. -/
def pending : Nat := wordSize - 2

/-- The stamp after another one. -/
def next (s : Nat) : Nat := (s + 1) % wordSize

end Stamp

/-! ## Pins -/

/-- The number of a pin. -/
structure PinId where
  number : Nat
deriving DecidableEq, Repr, Inhabited

/-- A pinned snapshot and how many readers hold it. -/
structure Pin where
  id : PinId
  stamp : Nat
  holders : Nat
deriving DecidableEq, Repr

/-- The pins that are held. -/
structure Pins where
  held : List Pin
  nextId : Nat
deriving DecidableEq, Repr

namespace Pins

/-- No pins. -/
def empty : Pins := ⟨[], 0⟩

/-- How many pins are held. -/
def size (pins : Pins) : Nat := pins.held.length

/-- Pins a snapshot for one reader. -/
def add (pins : Pins) (stamp : Nat) : PinId × Pins :=
  let id : PinId := ⟨pins.nextId⟩
  (id, ⟨pins.held ++ [⟨id, stamp, 1⟩], pins.nextId + 1⟩)

/-- Lets one more reader hold a pin. -/
def share (pins : Pins) (id : PinId) : Pins :=
  { pins with held := pins.held.map fun p =>
      if p.id = id then { p with holders := p.holders + 1 } else p }

/-- Lets go of a pin, which is gone with its last reader. -/
def release (pins : Pins) (id : PinId) : Pins :=
  { pins with held := pins.held.filterMap fun p =>
      if p.id = id then
        if p.holders ≤ 1 then none else some { p with holders := p.holders - 1 }
      else some p }

/-- The oldest pinned snapshot. -/
def oldest? (pins : Pins) : Option Nat := (pins.held.map (·.stamp)).min?

/-- What has been removed up to this snapshot is out of reach of every reader; without pins, this
is the snapshot after the current one. -/
def watermark (pins : Pins) (current : Nat) : Nat := pins.oldest?.getD (Stamp.next current)

end Pins
end QuadStore
