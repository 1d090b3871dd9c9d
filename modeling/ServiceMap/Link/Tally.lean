import ServiceMap.Link.Basic
import ServiceMap.Table

/-!
# Tallies

Calls and errors by the two services between which they occurred, in the order in which the pairs first came up.
-/

namespace ServiceMap

/-- Two services, the calling one first. -/
structure ServicePair where
  parent : String
  child : String
deriving Repr, DecidableEq

/-- Calls, and how many of them failed. -/
structure Counts where
  calls : Nat := 0
  errors : Nat := 0
deriving Repr, DecidableEq

def Counts.plus (a b : Counts) : Counts := ⟨a.calls + b.calls, a.errors + b.errors⟩

/-- Counts by pairs of services. -/
structure Tally where
  counts : Table ServicePair Counts := .empty
deriving Repr, DecidableEq

namespace Tally

def add (t : Tally) (pair : ServicePair) (counts : Counts) : Tally :=
  ⟨t.counts.alter pair fun before => (before.getD {}).plus counts⟩

/-- The links of a tally, in the order of its pairs. -/
def links (t : Tally) : Except Failure (List Link) :=
  t.counts.entries.mapM fun (pair, counts) => Link.make pair.parent pair.child counts.calls counts.errors

def addLink (t : Tally) (link : Link) : Tally := t.add ⟨link.parent, link.child⟩ ⟨link.calls, link.errors⟩

def addLinks (t : Tally) (links : List Link) : Tally := links.foldl addLink t

/-- The links of some collections as one: each pair of services once, with the sums of its calls and errors. -/
def merge (collections : List (List Link)) : Except Failure (List Link) :=
  (collections.foldl addLinks {}).links

end Tally

end ServiceMap
