import Transponder.Instant

/-!
# Messages in several sentences

A `FragmentTable` keeps the fragments of messages until all of them have come. The fragments of one
message have the sequence id, the channel and the count in common. A message that is waited for in
vain is given up when a later fragment comes: its last one must not be older than a limit, to the
nanosecond.
-/

namespace Transponder

/-- What the fragments of one message have in common. -/
structure FragmentKey where
  sequenceId : String
  channel : Option Char
  total : Nat
deriving DecidableEq

/-- A piece of a payload. -/
structure Fragment where
  payload : String
  fillBits : Nat
deriving DecidableEq

/-- The fragments of one message, by their numbers. -/
structure FragmentSet where
  lastSeen : Moment
  fragments : List (Nat × Fragment)

namespace FragmentSet

/-- No fragments. -/
def empty (now : Moment) : FragmentSet :=
  ⟨now, []⟩

def get? (s : FragmentSet) (number : Nat) : Option Fragment :=
  s.fragments.lookup number

/-- Puts a fragment in, in place of one with its number. -/
def insert (s : FragmentSet) (now : Moment) (number : Nat) (fragment : Fragment) : FragmentSet :=
  ⟨now, (number, fragment) :: s.fragments.filter (·.1 != number)⟩

/-- The fragments from 1 to `total`, if they are all there. -/
def complete? (s : FragmentSet) (total : Nat) : Option (List Fragment) :=
  (List.range total).mapM fun i => s.get? (i + 1)

end FragmentSet

/-- The messages that are waited for. -/
structure FragmentTable where
  /-- The limit in seconds. -/
  maxAge : Nat
  entries : List (FragmentKey × FragmentSet)

namespace FragmentTable

/-- A table that waits for no message. -/
def empty (maxAge : Nat) : FragmentTable :=
  ⟨maxAge, []⟩

def get? (t : FragmentTable) (key : FragmentKey) : Option FragmentSet :=
  t.entries.lookup key

def erase (t : FragmentTable) (key : FragmentKey) : FragmentTable :=
  { t with entries := t.entries.filter (·.1 != key) }

def insert (t : FragmentTable) (key : FragmentKey) (s : FragmentSet) : FragmentTable :=
  { t with entries := (key, s) :: (t.erase key).entries }

/-- The number of messages that are waited for. -/
def pending (t : FragmentTable) : Nat :=
  t.entries.length

/-- Whether a message of which the last fragment was seen then is not too old. -/
def isFresh (t : FragmentTable) (now lastSeen : Moment) : Bool :=
  now.since lastSeen ≤ Moment.nanosecondsPerSecond * (t.maxAge : Int)

/-- Gives up the messages that are waited for too long. -/
def evict (t : FragmentTable) (now : Moment) : FragmentTable :=
  { t with entries := t.entries.filter fun (_, s) => t.isFresh now s.lastSeen }

/-- The number of fragments of a message that are there. -/
def received (t : FragmentTable) (key : FragmentKey) : Nat :=
  match t.get? key with
  | some s => s.fragments.length
  | none => 0

/-- Puts a fragment in, after giving up what is too old, and answers how many fragments of its
message are there. A number that the message does not have is left out. -/
def add (t : FragmentTable) (now : Moment) (key : FragmentKey) (number : Nat)
    (fragment : Fragment) : FragmentTable × Nat :=
  let t := t.evict now
  if number = 0 ∨ key.total < number then (t, t.received key)
  else
    let s := ((t.get? key).getD (.empty now)).insert now number fragment
    (t.insert key s, s.fragments.length)

/-- Whether all fragments of a message are there. -/
def isComplete (t : FragmentTable) (key : FragmentKey) : Bool :=
  match t.get? key with
  | some s => (s.complete? key.total).isSome
  | none => false

/-- Joins the fragments of a message; the last one says how many bits are filled up. -/
def join (fragments : List Fragment) : Fragment where
  payload := String.join (fragments.map (·.payload))
  fillBits := (fragments.getLast?.map (·.fillBits)).getD 0

/-- The payload of a complete message, which is then forgotten. -/
def take? (t : FragmentTable) (key : FragmentKey) : Option (Fragment × FragmentTable) := do
  let s ← t.get? key
  let fragments ← s.complete? key.total
  return (join fragments, t.erase key)

/-- Waits for no message any more. -/
def clear (t : FragmentTable) : FragmentTable :=
  .empty t.maxAge

end FragmentTable

end Transponder
