import Intake.Keyed
import Intake.Writer

/-!
A store and a queue in memory. It takes note of every call before it answers,
keeps the first source of a key and the last item of an info hash, and fails when it
is told to.
-/
namespace Intake

/-- The kinds of calls. -/
inductive CallKind where
  | sources
  | items
  | publish
deriving DecidableEq, Repr

def Call.kind : Call → CallKind
  | .createSources _ => .sources
  | .upsertItems _ => .items
  | .publish _ => .publish

/-- A failure that calls of one kind are answered with. -/
structure Outage where
  kind : CallKind
  failure : Failure
  /-- How many calls it still hits; all when none is given. -/
  times? : Option Nat := none

structure Memory where
  sources : List Source := []
  items : List Item := []
  outages : List Outage := []
  /-- The calls so far. -/
  noted : List Call := []

namespace Memory

def note (call : Call) (m : Memory) : Memory := { m with noted := m.noted ++ [call] }

/-- Adds sources whose keys are not there. -/
def addSources (sources : List Source) (kept : List Source) : List Source :=
  sources.foldl (fun kept s => if kept.any (·.key = s.key) then kept else kept ++ [s]) kept

/-- Adds items, over those with their info hashes. -/
def addItems (items : List Item) (kept : List Item) : List Item :=
  items.foldl (fun kept item => Keyed.put (·.infoHash) item kept) kept

/-- What a call does to the store. -/
def write (call : Call) (m : Memory) : Memory :=
  match call with
  | .createSources sources => { m with sources := addSources sources m.sources }
  | .upsertItems items => { m with items := addItems items m.items }
  | .publish _ => m

/-- The failure that a kind of call meets, and the outages after it. -/
def strike (kind : CallKind) : List Outage → Option Failure × List Outage
  | [] => (none,[])
  | o :: rest =>
    if o.kind = kind ∧ o.times? ≠ some 0 then
      (some o.failure,{ o with times? := o.times?.map (· - 1) } :: rest)
    else
      let (failure?,rest) := strike kind rest
      (failure?,o :: rest)

/-- Answers a call that is noted already. -/
def respond : Answers Memory := fun call m =>
  let (failure?,outages) := strike call.kind m.outages
  let m := { m with outages }
  match failure? with
  | some f => (.error f,m)
  | none => (.ok (),m.write call)

/-- Notes a call and answers it. -/
def answers : Answers Memory := fun call m => respond call (m.note call)

/-- The keys of the sources in order. -/
def sourceKeys (m : Memory) : List String := (m.sources.map (·.key)).mergeSort fun a b => decide (a ≤ b)

/-- The items in the order of their info hashes. -/
def sortedItems (m : Memory) : List Item := m.items.mergeSort fun a b => a.infoHash.le b.infoHash

end Memory

end Intake
