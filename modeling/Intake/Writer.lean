import Intake.Failure
import Intake.Item

/-!
Batches on their way to the store and the queue. A batch is written by up to
three calls: its new sources, its items, and the news of its info hashes for the
queue (`Writer.plan`). The calls are made in this order and the first that fails
ends the batch; what was written before stays, and every call is safe to repeat.
A source is new until a batch with it has been written to the end.
-/
namespace Intake

/-- What a batch asks of the store and the queue. -/
inductive Call where
  | createSources (sources : List Source)
  | upsertItems (items : List Item)
  | publish (hashes : List InfoHash)
deriving DecidableEq

structure Writer where
  info : ImportInfo
  /-- The keys of the sources in batches that were written to the end. -/
  durable : List String := []
deriving DecidableEq

namespace Writer

/-- The sources of a batch that are not durable, each once. -/
def freshSources (p : Writer) (batch : List Record) : List Source :=
  (((batch.map (·.source)).filter (· ∉ p.durable)).eraseDups).map .ofKey

/-- The first record of a batch that is not valid. -/
def checkAll : List Record → Except Invalidity Unit
  | [] => .ok ()
  | r :: rest => do
    r.validate
    checkAll rest

def hashes (batch : List Record) : List InfoHash := batch.map (·.infoHash)

/-- The calls that write a batch. -/
def calls (p : Writer) (batch : List Record) : List Call :=
  let sources := p.freshSources batch
  (if sources.isEmpty then [] else [.createSources sources]) ++
    [.upsertItems (batch.map (Item.ofRecord p.info)),.publish (hashes batch)]

/-- The calls that write a batch; none for an empty one, and a failure for one with an invalid record. -/
def plan (p : Writer) (batch : List Record) : Except Failure (List Call) :=
  if batch.isEmpty then .ok []
  else match checkAll batch with
    | .ok () => .ok (p.calls batch)
    | .error cause => .error (.invalidRecord cause)

/-- The writer after a batch has been written to the end. -/
def commit (p : Writer) (batch : List Record) : Writer :=
  { p with durable := p.durable ++ (p.freshSources batch).map (·.key) }

def isDurable (p : Writer) (key : String) : Bool := p.durable.contains key

end Writer

/-! ## Answers -/

variable {σ : Type}

/-- How calls are answered by something with a state. -/
abbrev Answers (σ : Type) := Call → σ → Except Failure Unit × σ

/-- Makes calls until one fails. -/
def Answers.run (answers : Answers σ) : List Call → σ → Except Failure Unit × σ
  | [], s => (.ok (),s)
  | call :: rest, s => match answers call s with
    | (.ok (),s) => answers.run rest s
    | (.error f,s) => (.error f,s)

/-- Writes a batch and answers with the info hashes of its records. -/
def Writer.write (p : Writer) (answers : Answers σ) (batch : List Record) (s : σ) :
    Except Failure (List InfoHash) × Writer × σ :=
  match p.plan batch with
  | .error f => (.error f,p,s)
  | .ok calls => match answers.run calls s with
    | (.ok (),s) => (.ok (hashes batch),p.commit batch,s)
    | (.error f,s) => (.error f,p,s)

end Intake
