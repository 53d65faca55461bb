import Intake.Main
import Intake.Writer.Memory
import Intake.Proofs.Session.Run
import Intake.Proofs.Session.Step
import Intake.Proofs.Session.Calls
import Intake.Proofs.Session.Underway
import Intake.Proofs.Session.Shutdown
import Intake.Proofs.Session.Trace
import Intake.Proofs.Session.Conservation
import Intake.Proofs.Session.Serial
import Intake.Proofs.Writer.Passes
import Intake.Proofs.Writer.Sources
import Intake.Proofs.Database.Tables
import Intake.Proofs.Database.Provenance
import Intake.Proofs.Database.Repeats
import Intake.Proofs.Session.Closed
import Intake.Proofs.Session.Load
import Intake.Proofs.Session.Ending
import Intake.Proofs.Session.Calm
import Intake.Proofs.Session.Simulation
import Intake.Proofs.Database.Notes
import Intake.Proofs.Database.Refusal
import Intake.Proofs.Database.Complete
import Intake.Proofs.Text.Lines
import Intake.Proofs.Command.Gate
import Intake.Proofs.Command.Course
import Intake.Proofs.Command.Import
import Intake.Proofs.Command.Account
import Intake.Proofs.Command.Undisturbed
import Intake.Proofs.Command.Malformed
import Intake.Proofs.Database.InTurn
import Intake.Proofs.Session.Batches
import Intake.Proofs.Session.Timer
import Intake.Proofs.Decimal
import Intake.Proofs.Json.Spelling
import Intake.Proofs.Json.Reading
import Intake.Proofs.Calendar.Reading
import Intake.Proofs.Calendar.Days
import Intake.Proofs.Json.Values
import Intake.Proofs.Episodes
import Intake.Proofs.Json.Shape
import Intake.Proofs.Record.Json
import Intake.Proofs.Json.Layout
import Intake.Proofs.Record.Layout
import Intake.Proofs.Episodes.Canonical
import Intake.Proofs.InfoHash.Codec
import Intake.Proofs.Writer.Again
import Intake.Proofs.Session.Rings
import Intake.Proofs.Session.Barrier
import Intake.Proofs.Database.Queue
import Intake.Proofs.Database.Rows
import Intake.Proofs.Writer.Saga
import Intake.Proofs.Database.Integrity
import Intake.Proofs.Database.Decoding
import Intake.Proofs.Database.Stored
