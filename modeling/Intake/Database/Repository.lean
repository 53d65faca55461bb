import Intake.Chunks
import Intake.Database.Statement
import Intake.Keyed
import Intake.Writer

/-!
The store and the queue over a database. Sources are inserted unless their keys
are there; items are written in one transaction that goes through as a whole or not
at all. A statement inserts at most a hundred rows and never two with one key: of
items with one info hash the last is written, in the place of the first.
-/
namespace Intake.Database

variable {σ : Type}

/-- What a server answers to a statement that it has carried out. -/
inductive Reply where
  | done
  /-- The number of a new job. -/
  | job (id : Nat)
deriving DecidableEq, Repr

/-- How a server with a state answers statements. -/
abbrev Server (σ : Type) := Statement → σ → Except DatabaseFault Reply × σ

/-- Sends statements until one fails. -/
def Server.sendAll (server : Server σ) : List Statement → σ → Except DatabaseFault Unit × σ
  | [], s => (.ok (),s)
  | statement :: rest, s => match server statement s with
    | (.ok _,s) => server.sendAll rest s
    | (.error f,s) => (.error f,s)

/-- Sends statements in a transaction, which is rolled back when one of them fails. -/
def Server.transaction (server : Server σ) (statements : List Statement) (s : σ) :
    Except DatabaseFault Unit × σ :=
  match server .begin s with
  | (.error f,s) => (.error f,s)
  | (.ok _,s) => match server.sendAll (statements ++ [.commit]) s with
    | (.ok (),s) => (.ok (),s)
    | (.error f,s) => (.error f,(server .rollback s).2)

/-- The most rows that a statement inserts. -/
def chunkSize : Nat := 100

/-! ## Sources -/

def sourceStatements (sources : List Source) : List Statement := (chunks chunkSize sources).map .insertSources

def createSources (server : Server σ) (sources : List Source) (s : σ) : Except Failure Unit × σ :=
  let (result,s) := server.sendAll (sourceStatements sources) s
  (result.mapError .database,s)

/-! ## Items -/

def ItemRow.ofItem (i : Item) : Except Invalidity ItemRow :=
  if h : i.size.toNat < 0x8000000000000000 then .ok ⟨i.infoHash,i.name,i.size.toNat,i.isPrivate,i.filesStatus,h⟩
  else .error (.sizeTooLarge i.infoHash i.size)

/-- The rows of items, or what is wrong with the first that has none. -/
def itemRows : List Item → Except Invalidity (List ItemRow)
  | [] => .ok []
  | i :: rest => do
    let row ← ItemRow.ofItem i
    let rows ← itemRows rest
    return row :: rows

/-- The last item of each info hash. -/
def lastItems (items : List Item) : List Item := Keyed.lastAtFirst (·.infoHash) items

/-- The entries that join items to sources, the last for each pair. -/
def itemSourceRows (items : List Item) : List ItemSourceRow :=
  Keyed.lastAtFirst (fun r => (r.infoHash,r.entry.source))
    (items.flatMap fun i => i.sources.map (ItemSourceRow.mk i.infoHash))

def hintRows (items : List Item) : List HintRow :=
  items.filterMap fun i => i.hint?.map (HintRow.mk i.infoHash)

/-- The info hashes of items of whose content nothing is known. -/
def unhinted (items : List Item) : List InfoHash := (items.filter (·.hint?.isNone)).map (·.infoHash)

/-- The statements that write items, each of which has an info hash of its own. -/
def itemStatements (items : List Item) (rows : List ItemRow) : List Statement :=
  (chunks chunkSize rows).map .insertItems ++
    (chunks chunkSize (itemSourceRows items)).map .insertItemSources ++
    (chunks chunkSize (hintRows items)).map .insertHints ++
    (if (unhinted items).isEmpty then [] else [.deleteHints (unhinted items)])

def upsertItems (server : Server σ) (items : List Item) (s : σ) : Except Failure Unit × σ :=
  let kept := lastItems items
  if kept.isEmpty then (.ok (),s)
  else match itemRows kept with
    | .error cause => (.error (.invalidRecord cause),s)
    | .ok rows =>
      let (result,s) := server.transaction (itemStatements kept rows) s
      (result.mapError .database,s)

/-! ## The queue -/

/-- Enqueues a job that processes items and answers with its number. -/
def publish (server : Server σ) (hashes : List InfoHash) (s : σ) : Except Failure Nat × σ :=
  match server (.insertJob ⟨hashes⟩) s with
  | (.ok (.job id),s) => (.ok id,s)
  | (.ok .done,s) => (.error (.publish DatabaseFault.rowNotFound.message),s)
  | (.error f,s) => (.error (.publish f.message),s)

/-- Sees whether the database answers. -/
def checkHealth (server : Server σ) (s : σ) : Except Failure Unit × σ :=
  let (result,s) := server.sendAll [.ping] s
  (result.mapError .database,s)

/-- How the calls of a batch are answered. -/
def answers (server : Server σ) : Answers σ
  | .createSources sources, s => createSources server sources s
  | .upsertItems items, s => upsertItems server items s
  | .publish hashes, s => match publish server hashes s with
    | (.ok _,s) => (.ok (),s)
    | (.error f,s) => (.error f,s)

/-- The hexadecimal digits of a job's number in groups. -/
def jobText (id : Nat) : String :=
  let digits := Nat.toDigits 16 id
  let padded := List.replicate (32 - digits.length) '0' ++ digits
  let part (start length : Nat) : String := String.ofList ((padded.drop start).take length)
  "-".intercalate [part 0 8,part 8 4,part 12 4,part 16 4,part 20 12]

end Intake.Database
