import Intake.Proofs.Database.Notes
import Intake.Proofs.Database.Tables
import Intake.Proofs.Writer.Sources

/-!
What is left behind by a batch that is refused. A batch is refused before anything
is sent when one of its records is not valid. It is refused once more when its items
are to be written and the size of one does not fit its column (`itemRows_of_large`),
and by then its new sources were sent (`refused_write`). There is no third way: a
valid batch whose sizes fit is written by a server that carries out every statement
(`write_of_obliges`).
-/
namespace Intake.Database

variable {σ : Type}

/-- The server carries out every statement and numbers every job. -/
def Server.Obliges (server : Server σ) : Prop :=
  ∀ statement s, ∃ reply, (server statement s).1 = .ok reply ∧
    ∀ job, statement = .insertJob job → ∃ id, reply = .job id

/-- A server that does nothing but number jobs. -/
def jobCounter : Server Nat := fun statement n =>
  match statement with
  | .insertJob _ => (.ok (.job (n + 1)),n + 1)
  | _ => (.ok .done,n)

theorem jobCounter_obliges : jobCounter.Obliges := by
  intro statement n
  cases statement
  case insertJob job => exact ⟨.job (n + 1),rfl,fun _ _ => ⟨n + 1,rfl⟩⟩
  all_goals exact ⟨.done,rfl,by simp⟩

/-- The statement changes what is stored, or begins to. -/
def Statement.isWrite : Statement → Bool
  | .commit => false
  | .rollback => false
  | .ping => false
  | _ => true

/-- No record behind this one in the batch has its info hash. -/
def LastOf (batch : List Record) (r : Record) : Prop :=
  ∃ before after, batch = before ++ r :: after ∧ r.infoHash ∉ Writer.hashes after

/-- The sizes of the records whose items are kept fit the column. -/
def Storable (batch : List Record) : Prop := ∀ r, LastOf batch r → r.size.toNat < 0x8000000000000000

theorem LastOf.mem {batch : List Record} {r : Record} (last : LastOf batch r) : r ∈ batch := by
  obtain ⟨before,after,rfl,-⟩ := last
  exact List.mem_append_right before List.mem_cons_self

theorem storable_of_forall {batch : List Record} (fit : ∀ r ∈ batch, r.size.toNat < 0x8000000000000000) :
    Storable batch :=
  fun r last => fit r last.mem

/-! ### Sizes -/

theorem itemRows_cons_of_lt {i : Item} (fits : i.size.toNat < 0x8000000000000000) (rest : List Item) :
    itemRows (i :: rest) =
      (itemRows rest).map (⟨i.infoHash,i.name,i.size.toNat,i.isPrivate,i.filesStatus,fits⟩ :: ·) := by
  rw [itemRows,ItemRow.ofItem,dif_pos fits]
  cases itemRows rest <;> rfl

theorem itemRows_cons_of_le {i : Item} (large : 0x8000000000000000 ≤ i.size.toNat) (rest : List Item) :
    itemRows (i :: rest) = .error (.sizeTooLarge i.infoHash i.size) := by
  rw [itemRows,ItemRow.ofItem,dif_neg (by omega)]
  rfl

/-- Of the items whose sizes do not fit the first is named. -/
theorem itemRows_of_first {before after : List Item} {i : Item} (earlier : Fit before)
    (large : 0x8000000000000000 ≤ i.size.toNat) :
    itemRows (before ++ i :: after) = .error (.sizeTooLarge i.infoHash i.size) := by
  induction before with
  | nil => exact itemRows_cons_of_le large after
  | cons j rest ih =>
    rw [List.cons_append,itemRows_cons_of_lt (earlier j List.mem_cons_self),
      ih fun k member => earlier k (List.mem_cons_of_mem j member)]
    rfl

theorem fit_or_first (items : List Item) :
    Fit items ∨ ∃ before i after, items = before ++ i :: after ∧ Fit before ∧ 0x8000000000000000 ≤ i.size.toNat := by
  rcases forall_or_first (P := fun i : Item => i.size.toNat < 0x8000000000000000) items with fit |
    ⟨before,i,after,split,earlier,large⟩
  · exact .inl fit
  · exact .inr ⟨before,i,after,split,earlier,by omega⟩

/-- Items whose sizes do not all fit have no rows, and one that does not is named. -/
theorem itemRows_of_large {items : List Item} (unfit : ¬ Fit items) :
    ∃ i ∈ items, 0x8000000000000000 ≤ i.size.toNat ∧ itemRows items = .error (.sizeTooLarge i.infoHash i.size) := by
  rcases fit_or_first items with fit | ⟨before,i,after,rfl,earlier,large⟩
  · exact absurd fit unfit
  · exact ⟨i,by simp,large,itemRows_of_first earlier large⟩

theorem mem_lastItems_ofRecord {info : ImportInfo} {batch : List Record} {i : Item} :
    i ∈ lastItems (batch.map (Item.ofRecord info)) ↔ ∃ r, LastOf batch r ∧ i = Item.ofRecord info r := by
  rw [lastItems,Keyed.mem_lastAtFirst]
  constructor
  · rintro ⟨before,after,split,last⟩
    obtain ⟨front,tail,rfl,-,same⟩ := List.map_eq_append_iff.mp split
    obtain ⟨r,back,rfl,rfl,rfl⟩ := List.map_eq_cons_iff.mp same
    refine ⟨r,⟨front,back,rfl,?_⟩,rfl⟩
    rw [List.map_map] at last
    exact last
  · rintro ⟨r,⟨before,after,rfl,last⟩,rfl⟩
    refine ⟨before.map (Item.ofRecord info),after.map (Item.ofRecord info),by simp,?_⟩
    rw [List.map_map]
    exact last

theorem fit_lastItems_iff (info : ImportInfo) (batch : List Record) :
    Fit (lastItems (batch.map (Item.ofRecord info))) ↔ Storable batch := by
  constructor
  · intro fit r last
    exact fit _ (mem_lastItems_ofRecord.mpr ⟨r,last,rfl⟩)
  · intro storable i member
    obtain ⟨r,last,rfl⟩ := mem_lastItems_ofRecord.mp member
    exact storable r last

theorem lastItems_ne_nil {items : List Item} (filled : items ≠ []) : lastItems items ≠ [] := by
  intro none
  obtain ⟨before,i,rfl⟩ : ∃ before i, items = before ++ [i] := by
    simpa using (List.eq_nil_or_concat items).resolve_left filled
  have kept : i ∈ lastItems (before ++ [i]) := (Keyed.mem_lastAtFirst _).mpr ⟨before,[],rfl,List.not_mem_nil⟩
  rw [none] at kept
  cases kept

/-! ### What the store answers -/

variable {server : Server σ}

theorem failure_of_createSources {sources : List Source} {s : σ} {f : Failure}
    (failed : (createSources server sources s).1 = .error f) : ∃ fault, f = .database fault := by
  simp only [createSources] at failed
  cases sent : (server.sendAll (sourceStatements sources) s).1 with
  | ok _ =>
    rw [sent] at failed
    cases failed
  | error fault =>
    rw [sent] at failed
    exact ⟨fault,(Except.error.inj failed).symm⟩

theorem failure_of_publish {hashes : List InfoHash} {s : σ} {f : Failure}
    (failed : (publish server hashes s).1 = .error f) : ∃ reason, f = .publish reason := by
  rw [publish] at failed
  split at failed
  · cases failed
  · exact ⟨_,(Except.error.inj failed).symm⟩
  · exact ⟨_,(Except.error.inj failed).symm⟩

/-- Items are refused for a size, and then nothing is sent for them. -/
theorem upsertItems_refused {items : List Item} {s : σ} {cause : Invalidity}
    (refused : (upsertItems server items s).1 = .error (.invalidRecord cause)) :
    (∃ i ∈ lastItems items, 0x8000000000000000 ≤ i.size.toNat ∧ cause = .sizeTooLarge i.infoHash i.size) ∧
      (upsertItems server items s).2 = s := by
  have filled : (lastItems items).isEmpty = false := by
    by_contra empty
    rw [upsertItems,if_pos (by simpa using empty)] at refused
    cases refused
  by_cases fit : Fit (lastItems items)
  · obtain ⟨rows,all⟩ := itemRows_of_fit fit
    simp only [upsertItems,filled,all] at refused
    cases sent : (server.transaction (itemStatements (lastItems items) rows) s).1 <;> rw [sent] at refused <;>
      cases refused
  · obtain ⟨i,member,large,none⟩ := itemRows_of_large fit
    have answer : upsertItems server items s = (.error (.invalidRecord (.sizeTooLarge i.infoHash i.size)),s) := by
      simp [upsertItems,filled,none]
    rw [answer] at refused ⊢
    have named : Invalidity.sizeTooLarge i.infoHash i.size = cause := by simpa using refused
    exact ⟨⟨i,member,large,named.symm⟩,rfl⟩

theorem sent_of_createSources {sources : List Source} {s : σ} {t : σ × List Statement}
    (created : createSources server.noting sources (s,[]) = (.ok (),t)) : t.2 = sourceStatements sources := by
  simp only [createSources,Prod.mk.injEq] at created
  obtain ⟨well,rfl⟩ := created
  cases sent : (server.noting.sendAll (sourceStatements sources) (s,[])).1 with
  | error fault =>
    rw [sent] at well
    cases well
  | ok _ => exact sendAll_noting server _ s [] sent

/-! ### A batch -/

theorem valid_of_checkAll {batch : List Record} (passed : Writer.checkAll batch = .ok ()) :
    ∀ r ∈ batch, r.validate = .ok () := by
  rcases Writer.valid_or_first batch with valid | ⟨before,r,rest,cause,rfl,earlier,invalid⟩
  · exact valid
  · rw [Writer.checkAll_of_first earlier invalid] at passed
    cases passed

/-- The store and the queue are asked for the three steps of a valid batch one after another. Where no source is
    new the first step sends nothing. -/
theorem write_of_valid (w : Writer) {batch : List Record} (filled : batch ≠ [])
    (valid : ∀ r ∈ batch, r.validate = .ok ()) (s : σ) :
    w.write (answers server) batch s =
      match createSources server (w.freshSources batch) s with
      | (.error f,s) => (.error f,w,s)
      | (.ok (),s) => match upsertItems server (batch.map (Item.ofRecord w.info)) s with
        | (.error f,s) => (.error f,w,s)
        | (.ok (),s) => match publish server (Writer.hashes batch) s with
          | (.error f,s) => (.error f,w,s)
          | (.ok _,s) => (.ok (Writer.hashes batch),w.commit batch,s) := by
  have uniform : (answers server).run (w.calls batch) s =
      (answers server).run [.createSources (w.freshSources batch),.upsertItems (batch.map (Item.ofRecord w.info)),
        .publish (Writer.hashes batch)] s := by
    cases fresh : w.freshSources batch with
    | nil =>
      have none : answers server (.createSources []) s = (.ok (),s) := by
        simp [answers,createSources,sourceStatements,Server.sendAll,Except.mapError]
      have first (rest : List Call) :
          (answers server).run (.createSources [] :: rest) s = (answers server).run rest s := by
        simp [Answers.run,none]
      rw [first]
      simp [Writer.calls,fresh]
    | cons source rest => simp [Writer.calls,fresh]
  simp only [Writer.write,w.plan_of_valid filled valid,uniform,Answers.run,answers]
  rcases createSources server (w.freshSources batch) s with ⟨_ | _,s⟩ <;> try rfl
  simp only
  rcases upsertItems server (batch.map (Item.ofRecord w.info)) s with ⟨_ | _,s⟩ <;> try rfl
  simp only
  rcases publish server (Writer.hashes batch) s with ⟨_ | _,s⟩ <;> rfl

/-! ### A server that carries out everything -/

theorem sendAll_of_obliges (obliges : server.Obliges) (statements : List Statement) (s : σ) :
    (server.sendAll statements s).1 = .ok () := by
  induction statements generalizing s with
  | nil => rfl
  | cons statement rest ih =>
    obtain ⟨reply,answered,-⟩ := obliges statement s
    rcases sent : server statement s with ⟨result,t⟩
    obtain rfl : result = .ok reply := by simpa [sent] using answered
    rw [Server.sendAll,sent]
    exact ih t

theorem Server.Obliges.noting (obliges : server.Obliges) : server.noting.Obliges :=
  fun statement (s,_) => obliges statement s

theorem createSources_of_obliges (obliges : server.Obliges) (sources : List Source) (s : σ) :
    (createSources server sources s).1 = .ok () := by
  simp [createSources,sendAll_of_obliges obliges,Except.mapError]

theorem transaction_of_obliges (obliges : server.Obliges) (statements : List Statement) (s : σ) :
    (server.transaction statements s).1 = .ok () := by
  obtain ⟨reply,answered,-⟩ := obliges .begin s
  rcases begun : server .begin s with ⟨result,t⟩
  obtain rfl : result = .ok reply := by simpa [begun] using answered
  have well := sendAll_of_obliges obliges (statements ++ [.commit]) t
  rcases sent : server.sendAll (statements ++ [.commit]) t with ⟨result,u⟩
  obtain rfl : result = .ok () := by simpa [sent] using well
  simp [Server.transaction,begun,sent]

theorem publish_of_obliges (obliges : server.Obliges) (hashes : List InfoHash) (s : σ) :
    ∃ id, (publish server hashes s).1 = .ok id := by
  obtain ⟨reply,answered,numbered⟩ := obliges (.insertJob ⟨hashes⟩) s
  obtain ⟨id,rfl⟩ := numbered ⟨hashes⟩ rfl
  rcases sent : server (.insertJob ⟨hashes⟩) s with ⟨result,t⟩
  obtain rfl : result = .ok (.job id) := by simpa [sent] using answered
  exact ⟨id,by simp [publish,sent]⟩

theorem upsertItems_of_obliges (obliges : server.Obliges) {items : List Item} (filled : items ≠ []) (s : σ) :
    (Fit (lastItems items) → (upsertItems server items s).1 = .ok ()) ∧
      (¬ Fit (lastItems items) → ∃ i ∈ lastItems items, 0x8000000000000000 ≤ i.size.toNat ∧
        (upsertItems server items s).1 = .error (.invalidRecord (.sizeTooLarge i.infoHash i.size))) := by
  have kept : (lastItems items).isEmpty = false := by simpa using lastItems_ne_nil filled
  constructor
  · intro fit
    obtain ⟨rows,all⟩ := itemRows_of_fit fit
    simp [upsertItems,kept,all,transaction_of_obliges obliges,Except.mapError]
  · intro unfit
    obtain ⟨i,member,large,none⟩ := itemRows_of_large unfit
    exact ⟨i,member,large,by simp [upsertItems,kept,none]⟩

/-- A server that carries out everything has a valid batch written if the sizes that are kept fit. Otherwise all
    of the batch is refused, for one of them. -/
theorem write_of_obliges (obliges : server.Obliges) (w : Writer) {batch : List Record} (filled : batch ≠ [])
    (valid : ∀ r ∈ batch, r.validate = .ok ()) (s : σ) :
    (Storable batch → (w.write (answers server) batch s).1 = .ok (Writer.hashes batch)) ∧
      (¬ Storable batch → ∃ r, LastOf batch r ∧ 0x8000000000000000 ≤ r.size.toNat ∧
        (w.write (answers server) batch s).1 = .error (.invalidRecord (.sizeTooLarge r.infoHash r.size))) := by
  rw [write_of_valid w filled valid,← fit_lastItems_iff w.info batch]
  have well := createSources_of_obliges obliges (w.freshSources batch) s
  rcases created : createSources server (w.freshSources batch) s with ⟨result,t⟩
  obtain rfl : result = .ok () := by simpa [created] using well
  have items_filled : batch.map (Item.ofRecord w.info) ≠ [] := by simpa using filled
  have next := upsertItems_of_obliges obliges items_filled t
  rcases written : upsertItems server (batch.map (Item.ofRecord w.info)) t with ⟨result,u⟩
  rw [written] at next
  constructor
  · intro fit
    obtain rfl : result = .ok () := next.1 fit
    obtain ⟨id,last⟩ := publish_of_obliges obliges (Writer.hashes batch) u
    rcases published : publish server (Writer.hashes batch) u with ⟨result,v⟩
    obtain rfl : result = .ok id := by simpa [published] using last
    simp [written,published]
  · intro unfit
    obtain ⟨i,member,large,rfl⟩ := next.2 unfit
    obtain ⟨r,last,rfl⟩ := mem_lastItems_ofRecord.mp member
    exact ⟨r,last,large,by simp [written,Item.ofRecord]⟩

/-! ### A refused batch -/

/-- A record whose size does not fit its column. -/
def vast : Record := { Record.bare "dht" 1 with size := .ofNat 0x8000000000000000 }

theorem vast_valid : ∀ r ∈ [vast], r.validate = .ok () := by
  intro r member
  obtain rfl := List.mem_singleton.mp member
  decide +kernel

theorem vast_write : ((Writer.mk ⟨"nightly"⟩ []).write (answers jobCounter.noting) [vast] (0,[])).1 =
    .error (.invalidRecord (.sizeTooLarge vast.infoHash vast.size)) := by
  have unfit : ¬ Storable [vast] :=
    fun storable => absurd (storable vast ⟨[],[],rfl,by simp [Writer.hashes]⟩) (by decide)
  obtain ⟨r,last,-,refused⟩ :=
    (write_of_obliges jobCounter_obliges.noting ⟨⟨"nightly"⟩,[]⟩ (by simp) vast_valid (0,[])).2 unfit
  obtain rfl := List.mem_singleton.mp last.mem
  exact refused

/-- A valid batch is refused for the size of a record, and by then its new sources were sent. -/
theorem refused_of_valid {w : Writer} {batch : List Record} (filled : batch ≠ [])
    (valid : ∀ r ∈ batch, r.validate = .ok ()) {s : σ} {cause : Invalidity}
    (refused : (w.write (answers server.noting) batch (s,[])).1 = .error (.invalidRecord cause)) :
    (w.write (answers server.noting) batch (s,[])).2.1 = w ∧
      (∃ r, LastOf batch r ∧ 0x8000000000000000 ≤ r.size.toNat ∧ cause = .sizeTooLarge r.infoHash r.size) ∧
      (w.write (answers server.noting) batch (s,[])).2.2.2 = sourceStatements (w.freshSources batch) := by
  rw [write_of_valid w filled valid] at refused ⊢
  -- Of the three steps only the second can be refused, and the first has gone well by then.
  rcases created : createSources server.noting (w.freshSources batch) (s,[]) with ⟨f | _,t⟩
  · obtain ⟨fault,rfl⟩ := failure_of_createSources (congrArg Prod.fst created)
    simp [created] at refused
  rcases written : upsertItems server.noting (batch.map (Item.ofRecord w.info)) t with ⟨f | _,u⟩
  · obtain rfl : f = .invalidRecord cause := by simpa [created,written] using refused
    have answer := upsertItems_refused (congrArg Prod.fst written)
    rw [written] at answer
    obtain ⟨⟨i,member,large,rfl⟩,rfl⟩ := answer
    obtain ⟨r,last,rfl⟩ := mem_lastItems_ofRecord.mp member
    simp only [written,true_and]
    exact ⟨⟨r,last,large,rfl⟩,sent_of_createSources created⟩
  · rcases published : publish server.noting (Writer.hashes batch) u with ⟨f | id,v⟩
    · obtain ⟨reason,rfl⟩ := failure_of_publish (congrArg Prod.fst published)
      simp [created,written,published] at refused
    · simp [created,written,published] at refused

theorem vast_sent : ((Writer.mk ⟨"nightly"⟩ []).write (answers jobCounter.noting) [vast] (0,[])).2.2.2 =
    [.insertSources [⟨"dht","dht"⟩]] := by
  have fresh : (Writer.mk ⟨"nightly"⟩ []).freshSources [vast] = [⟨"dht","dht"⟩] := rfl
  rw [(refused_of_valid (by simp) vast_valid vast_write).2.2,fresh]
  simp [sourceStatements,chunks_cons]

/-- A batch that is refused changes nothing about what is durable. Either a record is not valid and nothing was
    sent; or a size is too large, and sent were the statements for the sources that are not durable. -/
theorem refused_write (server : Server σ) (w : Writer) (batch : List Record) (s : σ) (cause : Invalidity)
    (refused : (w.write (answers server.noting) batch (s,[])).1 = .error (.invalidRecord cause)) :
    (w.write (answers server.noting) batch (s,[])).2.1 = w ∧
      ((Writer.checkAll batch = .error cause ∧ (w.write (answers server.noting) batch (s,[])).2.2.2 = []) ∨
        ((∀ r ∈ batch, r.validate = .ok ()) ∧
          (∃ r, LastOf batch r ∧ 0x8000000000000000 ≤ r.size.toNat ∧ cause = .sizeTooLarge r.infoHash r.size) ∧
          (w.write (answers server.noting) batch (s,[])).2.2.2 = sourceStatements (w.freshSources batch))) := by
  by_cases empty : batch = []
  · subst empty
    cases refused
  cases passed : Writer.checkAll batch with
  | error other =>
    have plan : w.plan batch = .error (.invalidRecord other) := by
      rw [Writer.plan,if_neg (by simpa using empty),passed]
    simp only [Writer.write,plan] at refused ⊢
    have same : other = cause := by simpa using refused
    simp [same]
  | ok _ =>
    have valid := valid_of_checkAll passed
    obtain ⟨kept,large,sent⟩ := refused_of_valid empty valid refused
    exact ⟨kept,.inr ⟨valid,large,sent⟩⟩

theorem refused_write_vast :
    ((Writer.mk ⟨"nightly"⟩ []).write (answers jobCounter.noting) [vast] (0,[])).1 =
        .error (.invalidRecord (.sizeTooLarge vast.infoHash vast.size)) ∧
      ((Writer.mk ⟨"nightly"⟩ []).write (answers jobCounter.noting) [vast] (0,[])).2.1 = ⟨⟨"nightly"⟩,[]⟩ :=
  ⟨vast_write,(refused_write jobCounter ⟨⟨"nightly"⟩,[]⟩ [vast] 0 _ vast_write).1⟩

/-- A batch may be refused after its new sources were sent. -/
theorem sources_before_refusal :
    ¬ ∀ (server : Server Nat) (w : Writer) (batch : List Record) (s : Nat) (cause : Invalidity),
      (w.write (answers server.noting) batch (s,[])).1 = .error (.invalidRecord cause) →
        ∀ statement ∈ (w.write (answers server.noting) batch (s,[])).2.2.2, statement.isWrite = false := by
  intro nothing
  have inserted := nothing jobCounter ⟨⟨"nightly"⟩,[]⟩ [vast] 0 _ vast_write (.insertSources [⟨"dht","dht"⟩])
    (by rw [vast_sent]; exact List.mem_singleton_self _)
  cases inserted

end Intake.Database
