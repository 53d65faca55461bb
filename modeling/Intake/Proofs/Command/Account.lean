import Intake.Proofs.Command.Undisturbed

/-!
The summary of an import tells the truth, whatever the store answers and whenever a
signal arrives (`lines_accounted`): each line that was read has one fate, the counts
are those of the fates, and what was accepted is what was committed and what has failed.
So the program ends well just if its import has no failures, and then all that it
accepted was committed, whether a signal has ended the import or not.
-/
namespace Intake.Command

open Database (Server jobCounter)

variable {σ : Type}

/-- An import without failures has committed all that it has accepted. -/
theorem Account.all_committed {lines : List (Except ReadFault String)} {c : Course} {summary : Summary}
    {read : List String} {fates : List Fate} (account : Account lines c summary read fates)
    (faultless : summary.errors? = none) :
    summary.committed = summary.accepted ∧
      c.session.committed.Perm (Writer.hashes (fates.filterMap Fate.taken?)) := by
  obtain ⟨written,committed,taken⟩ := account.written
  refine ⟨by simpa [faultless] using account.balance,?_⟩
  rw [committed]
  simpa [faultless,Writer.hashes] using (taken.map (·.infoHash)).symm

theorem Surroundings.signalled_of_input {around : Surroundings} {file? : Option String} {input : Input}
    (opened : around.input file? = .ok input) : input.signalled = around.signalled := by
  cases file? with
  | none =>
    obtain rfl := Except.ok.inj opened
    rfl
  | some path =>
    simp only [Surroundings.input] at opened
    split at opened
    · cases opened
    · split at opened
      · cases opened
      · obtain rfl := Except.ok.inj opened
        rfl

theorem Ending.ofResult_eq_success {result : Except Fault Unit} : Ending.ofResult result = .success ↔ result = .ok () := by
  cases result <;> simp [Ending.ofResult]

theorem verdict_eq_ok {result : Except ReadFault Summary} :
    verdict result = .ok () ↔ ∃ summary, result = .ok summary ∧ summary.errors? = none := by
  cases result with
  | error fault => simp [verdict]
  | ok summary => cases failures : summary.errors? <;> simp [verdict,failures]

/-- The program ends well just if it comes to import its input, and does so without failures. -/
theorem success_iff {around : Surroundings} {server : Server σ} {args : List String} {s : σ} :
    (run around server args s).1 = .success ↔
      ∃ a settings t input summary, Arguments.read args (around.environment.lookup "DATABASE_URL") = .ok a ∧
        prepare around a = .ok settings ∧ Database.checkHealth server s = (.ok (),t) ∧
        around.input a.file? = .ok input ∧
        (runImport (collaborator server) settings ⟨a.importId⟩ input t).1 = .ok summary ∧ summary.errors? = none := by
  rw [run]
  cases read : Arguments.read args (around.environment.lookup "DATABASE_URL") with
  | error u => simp
  | ok a =>
  simp only [carryOut,Ending.ofResult_eq_success]
  cases prepared : prepare around a with
  | error fault => simp [prepared]
  | ok settings =>
  rcases health : Database.checkHealth server s with ⟨answer,t⟩
  cases answer with
  | error f => simp
  | ok _ =>
  cases opened : around.input a.file? with
  | error fault => simp [prepared,opened]
  | ok input => simp [prepared,opened,verdict_eq_ok]

/-- Whatever the store and the queue answer and whenever a signal arrives, an import that ends with a summary has
    accounted for every line. It was not interrupted if no signal arrived; and the program that ends with it has
    exit code 0 just if no batch has failed, and then every record that was accepted has been committed. What the
    program runs is such an import: nothing but the collaborator's answers and the signals that were sent comes to
    its session from outside, and it says that it was interrupted just if a signal was sent. So the program ends
    well, with a signal or without, just if it comes to import its input without failures, and then all that was
    accepted has been committed. -/
theorem lines_accounted :
    (∀ (settings : Settings) (info : ImportInfo) (now : Nat) (input : Input) (acts : List Act) (c : Course)
        (summary : Summary), (Course.start settings info now input.lines).replay acts = some c →
        c.outcome? = some (.ok summary) →
      ∃ read fates, Account input.lines c summary read fates ∧
        (.within .cancel ∉ acts → summary.interrupted = false) ∧
        ((Ending.ofResult (verdict (.ok summary))).exitCode = 0 ↔ summary.errors? = none) ∧
        (summary.errors? = none → summary.committed = summary.accepted ∧
          c.session.committed.Perm (Writer.hashes (fates.filterMap Fate.taken?)))) ∧
    (∀ {σ : Type} (k : Collaborator σ) (settings : Settings) (info : ImportInfo) (input : Input) (s : σ),
      ∃ acts c, (Course.start settings info 0 input.lines).replay acts = some c ∧
        (∀ m, .within m ∈ acts → Fits k input.signalled m) ∧
        c.outcome? = some (runImport k settings info input s).1 ∧
        ∀ summary, (runImport k settings info input s).1 = .ok summary → summary.interrupted = input.signalled) ∧
    ∀ {σ : Type} (around : Surroundings) (server : Server σ) (args : List String) (s : σ),
      (run around server args s).1 = .success ↔
        ∃ a settings t input summary, Arguments.read args (around.environment.lookup "DATABASE_URL") = .ok a ∧
          prepare around a = .ok settings ∧ Database.checkHealth server s = (.ok (),t) ∧
          around.input a.file? = .ok input ∧
          (runImport (collaborator server) settings ⟨a.importId⟩ input t).1 = .ok summary ∧
          summary.interrupted = around.signalled ∧ summary.errors? = none ∧ summary.committed = summary.accepted := by
  refine ⟨?_,?_,?_⟩
  · intro settings info now input acts c summary run ended
    obtain ⟨read,fates,account⟩ := account_of_run run ended
    refine ⟨read,fates,account,uninterrupted_of_run run ended,?_,account.all_committed⟩
    cases failures : summary.errors? <;> simp [verdict,failures,Ending.ofResult,Ending.exitCode]
  · intro σ k settings info input s
    obtain ⟨acts,c,run,fits,outcome,-⟩ := course_of_import k settings info input s
    exact ⟨acts,c,run,fits,outcome,fun _ => interrupted_of_import⟩
  · intro σ around server args s
    rw [success_iff]
    constructor
    · rintro ⟨a,settings,t,input,summary,read,prepared,health,opened,imported,faultless⟩
      obtain ⟨acts,c,run,-,outcome,-⟩ := course_of_import (collaborator server) settings ⟨a.importId⟩ input t
      obtain ⟨lines,fates,account⟩ := account_of_run run (outcome.trans (congrArg some imported))
      exact ⟨a,settings,t,input,summary,read,prepared,health,opened,imported,
        (interrupted_of_import imported).trans (Surroundings.signalled_of_input opened),faultless,
        (account.all_committed faultless).1⟩
    · rintro ⟨a,settings,t,input,summary,read,prepared,health,opened,imported,-,faultless,-⟩
      exact ⟨a,settings,t,input,summary,read,prepared,health,opened,imported,faultless⟩

/-- A blank line, a letter, and two records, the last without a line feed. -/
def mixedInput : Input := { content := .bytes (0x0a :: 0x78 :: 0x0a :: (plainBytes ++ 0x0a :: plainBytes)) }

/-- The first record is taken and cannot be written. A signal arrives, and the second is refused. -/
def mixedRun : List Act :=
  [.read,.read,.read,.within .arm,.within (.call 0),.within (.call 0),.within (.call 0),.within (.call 0),
    .within (.call 0),.see,.within .receive,.within (.start 0),.within .acquire,
    .within (.answer (.error .importClosed)),.within .settle,.within .arm,.within .cancel,.within .heedStop,
    .within .shutDown,.read,.within (.call 1),.see,.close,.within (.call 2),.within (.call 2),.within .shutDown,
    .within .shutDown,.within .shutDown,.within .acquire,.within (.call 2)]

/-- A record on the standard input, then a signal, and no environment. -/
def plainSurroundings : Surroundings where
  environment := []
  connect _ := .ok ()
  openFile _ := .error .notFound
  standardInput := plainBytes ++ [0x0a]
  signalled := true

def plainArguments : List String :=
  ["--database-url","postgres://localhost/seeds","import","--import-id","nightly"]

theorem lines_accounted_mixed :
    (∃ c summary read fates,
      (Course.start ⟨1,nanosPerMilli⟩ ⟨"nightly"⟩ 0 mixedInput.lines).replay mixedRun = some c ∧
        c.outcome? = some (.ok summary) ∧
        [summary.lines,summary.skipped,summary.accepted,summary.committed] = [4,1,1,0] ∧ summary.interrupted = true ∧
        Account mixedInput.lines c summary read fates) ∧
    ∃ a settings input t summary,
      (runImport (collaborator jobCounter) settings ⟨a⟩ input t).1 = .ok summary ∧ summary.interrupted = true ∧
        summary.errors? = none ∧ summary.committed = summary.accepted := by
  obtain ⟨courses,-,programs⟩ := lines_accounted
  constructor
  · have runs : (((Course.start ⟨1,nanosPerMilli⟩ ⟨"nightly"⟩ 0 mixedInput.lines).replay
        mixedRun).bind fun c => c.outcome?.bind fun result => result.toOption.map fun s =>
          ([s.lines,s.skipped,s.accepted,s.committed],s.interrupted)) = some ([4,1,1,0],true) := by
      decide +kernel
    obtain ⟨c,run,ends⟩ := Option.bind_eq_some_iff.mp runs
    obtain ⟨result,outcome,concludes⟩ := Option.bind_eq_some_iff.mp ends
    obtain ⟨summary,ok,figures⟩ := Option.map_eq_some_iff.mp concludes
    obtain ⟨counts,interrupted⟩ := Prod.mk.inj figures
    cases result with
    | error fault => cases ok
    | ok s =>
      obtain rfl : s = summary := Option.some.inj ok
      obtain ⟨read,fates,account,-⟩ := courses _ _ _ _ _ _ _ run outcome
      exact ⟨c,s,read,fates,run,outcome,counts,interrupted,account⟩
  · have ends : ((run plainSurroundings jobCounter plainArguments 0).1 matches .success) = true := by decide +kernel
    have success : (run plainSurroundings jobCounter plainArguments 0).1 = .success := by
      cases ending : (run plainSurroundings jobCounter plainArguments 0).1 with
      | success => rfl
      | usage | failure => simp [ending] at ends
    obtain ⟨a,settings,t,input,summary,-,-,-,-,imported,interrupted,faultless,written⟩ :=
      (programs _ _ _ _).mp success
    exact ⟨a.importId,settings,input,t,summary,imported,interrupted,faultless,written⟩

end Intake.Command
