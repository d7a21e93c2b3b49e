import Occupancy.Program
import Occupancy.Table
import Occupancy.Topic

/-!
# The book of connections

What the broker on Redis remembers: the shared connection, one connection for each topic that is read,
and the topics whose group has been created. The book is looked at and changed in short sections; a
connection is dialled and a command sent between them, never inside one.
-/

namespace Occupancy.Redis

/-- The number of a connection, in the order of dialling. -/
abbrev Connection := Nat

/-- The connections and declarations of one broker. -/
structure Book where
  shared : Option Connection := none
  consumers : Table Topic Connection := ∅
  declared : List Topic := []

/-- What the book says to a reader of a topic. -/
inductive Reading where
  /-- There is no shared connection, so nothing is read. -/
  | unlinked
  /-- The topic has this connection. -/
  | held (c : Connection)
  /-- A connection has to be dialled. -/
  | missing
deriving DecidableEq

/-- A section on the book. -/
inductive Section where
  | shared
  | keepShared (c : Connection)
  | reading (t : Topic)
  /-- Keeps a connection for a topic, unless it has got one meanwhile. -/
  | keepConsumer (t : Topic) (c : Connection)
  | isDeclared (t : Topic)
  | declare (t : Topic)
  | forget (t : Topic)
  | release (t : Topic)
  | declared
  | clear
deriving DecidableEq

def Section.Reply : Section → Type
  | .shared => Option Connection
  | .keepShared _ => Unit
  | .reading _ => Reading
  | .keepConsumer _ _ => Connection
  | .isDeclared _ => Bool
  | .declare _ => Unit
  | .forget _ => Unit
  | .release _ => Unit
  | .declared => Option Connection × List Topic
  | .clear => Unit

namespace Book

/-- What the book says to a reader of a topic. -/
def reading (b : Book) (t : Topic) : Reading :=
  match b.shared with
  | none => .unlinked
  | some _ =>
    match b.consumers.get? t with
    | some c => .held c
    | none => .missing

/-- The book with a connection for a topic that has none, and the connection that it now has. -/
def keepConsumer (b : Book) (t : Topic) (c : Connection) : Connection × Book :=
  match b.consumers.get? t with
  | some old => (old, b)
  | none => (c, { b with consumers := b.consumers.set t c })

def declare (b : Book) (t : Topic) : Book :=
  { b with declared := if t ∈ b.declared then b.declared else b.declared ++ [t] }

def perform (b : Book) : (s : Section) → s.Reply × Book
  | .shared => (b.shared, b)
  | .keepShared c => ((), { b with shared := some c })
  | .reading t => (b.reading t, b)
  | .keepConsumer t c => b.keepConsumer t c
  | .isDeclared t => (decide (t ∈ b.declared), b)
  | .declare t => ((), b.declare t)
  | .forget t => ((), { b with declared := b.declared.filter (· ≠ t) })
  | .release t => ((), { b with consumers := b.consumers.erase t })
  | .declared => ((b.shared, b.declared), b)
  | .clear => ((), {})

end Book

end Occupancy.Redis
