import Intake.Session
import Mathlib.Data.List.Induction

/-!
Runs of a session. A run is a list of moves, each possible when it is made
(`replay`); what is noted on the way is gathered move by move (`gather`). What
holds at the start and is kept by every move holds after every run, whatever the
order of the moves (`replay_induction`).
-/
namespace Intake

/-- The call that a move opens. -/
def Move.caller? : Move → Option Caller
  | .ingest records => some (.entering records)
  | .drain => some .draining
  | .close => some .closing
  | _ => none

theorem Move.of_caller? {m : Move} {c : Caller} (opens : m.caller? = some c) :
    (∃ records, m = .ingest records ∧ c = .entering records) ∨ (m = .drain ∧ c = .draining) ∨
      (m = .close ∧ c = .closing) := by
  cases m with
  | ingest records => cases opens; exact .inl ⟨records,rfl,rfl⟩
  | drain => cases opens; exact .inr (.inl ⟨rfl,rfl⟩)
  | close => cases opens; exact .inr (.inr ⟨rfl,rfl⟩)
  | _ => cases opens

namespace Session

/-- The session after some moves, if each was possible in its turn. -/
def replay (s : Session) : List Move → Option Session
  | [] => some s
  | m :: rest => (s.apply m).bind fun t => t.replay rest

section
variable {α : Type}

/-- What is noted at each move of a run, in order. -/
def gather (note : Session → Move → Session → List α) (s : Session) : List Move → List α
  | [] => []
  | m :: rest => match s.apply m with
    | some t => note s m t ++ t.gather note rest
    | none => []

/-- The calls that moves open, in order. -/
def opened (moves : List Move) : List Caller := moves.filterMap Move.caller?

@[simp] theorem replay_nil (s : Session) : s.replay [] = some s := rfl

theorem replay_append (s : Session) (before after : List Move) :
    s.replay (before ++ after) = (s.replay before).bind fun t => t.replay after := by
  induction before generalizing s with
  | nil => rfl
  | cons m rest ih =>
    simp only [List.cons_append,replay]
    cases s.apply m with
    | none => rfl
    | some t => simpa using ih t

theorem replay_cons {s t u : Session} {m : Move} {rest : List Move} (move : s.apply m = some t)
    (later : t.replay rest = some u) : s.replay (m :: rest) = some u := by
  rw [replay,move]
  exact later

theorem replay_trans {s t u : Session} {before after : List Move} (run : s.replay before = some t)
    (on : t.replay after = some u) : s.replay (before ++ after) = some u := by
  rw [replay_append,run]
  exact on

theorem replay_snoc {s t : Session} {moves : List Move} {m : Move} :
    s.replay (moves ++ [m]) = some t ↔ ∃ u, s.replay moves = some u ∧ u.apply m = some t := by
  rw [replay_append,Option.bind_eq_some_iff]
  simp [replay]

theorem gather_cons (note : Session → Move → Session → List α) {s t : Session} {m : Move} (move : s.apply m = some t)
    (rest : List Move) : s.gather note (m :: rest) = note s m t ++ t.gather note rest := by
  rw [gather,move]

theorem gather_append (note : Session → Move → Session → List α) {s t : Session} {before : List Move}
    (run : s.replay before = some t) (after : List Move) :
    s.gather note (before ++ after) = s.gather note before ++ t.gather note after := by
  induction before generalizing s with
  | nil =>
    obtain rfl : s = t := by simpa using run
    rfl
  | cons m rest ih =>
    obtain ⟨u,step,later⟩ := Option.bind_eq_some_iff.mp run
    simp only [List.cons_append,gather,step,List.append_assoc]
    rw [ih later]

theorem gather_snoc (note : Session → Move → Session → List α) {s t u : Session} {moves : List Move} {m : Move}
    (run : s.replay moves = some t) (step : t.apply m = some u) :
    s.gather note (moves ++ [m]) = s.gather note moves ++ note t m u := by
  rw [gather_append note run]
  simp [gather,step]

end

/-- What holds at the start, and after a move whenever it holds before, holds after every run. -/
theorem replay_induction {s₀ : Session} {P : List Move → Session → Prop} (start : P [] s₀)
    (step : ∀ {moves s m t}, s₀.replay moves = some s → P moves s → s.apply m = some t → P (moves ++ [m]) t) :
    ∀ {moves s}, s₀.replay moves = some s → P moves s := by
  intro moves
  induction moves using List.reverseRecOn with
  | nil =>
    intro s run
    obtain rfl : s₀ = s := by simpa using run
    exact start
  | append_singleton moves m ih =>
    intro s run
    obtain ⟨t,before,last⟩ := replay_snoc.mp run
    exact step before (ih before) last

/-- What every move keeps, a run keeps. -/
theorem replay_keeps {P : Session → Prop} (step : ∀ {s m t}, P s → s.apply m = some t → P t)
    {s t : Session} {moves : List Move} (holds : P s) (run : s.replay moves = some t) : P t :=
  replay_induction (P := fun _ => P) holds (fun _ before move => step before move) run

end Session

/-! ### A session in short -/

/-- A record that says no more than it must. -/
def Record.bare (source : String) (n : UInt8) : Record where
  source
  infoHash := ⟨List.replicate 20 n,List.length_replicate⟩
  name := ""
  size := .ofNat 1
  publishedAt := ⟨⟨2000,1,1,by decide⟩,0,0,by decide⟩

namespace Session

/-- A session that writes every record at once. -/
def eager : Session := start ⟨1,nanosPerMilli⟩ ⟨"nightly"⟩ 0 false

/-- Two records are handed over. The first is written; the second is still in the channel when the session
    is closed, and fails. -/
def closingRun : List Move :=
  [.ingest [.bare "dht" 1,.bare "dht" 2],.arm,.call 0,.call 0,.call 0,.call 0,.receive,.start 0,.acquire,
    .answer (.ok ()),.answer (.ok ()),.answer (.ok ()),.settle,.call 0,.call 0,.call 0,.call 0,.arm,
    .close,.call 1,.call 1,.heedStop,.shutDown,.shutDown,.shutDown,.acquire,.answer (.error .importClosed),
    .settle,.shutDown,.shutDown,.acquire,.call 1]

end Session

end Intake
