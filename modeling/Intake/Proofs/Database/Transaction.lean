import Intake.Proofs.Database.Complete

/-!
Items are written in one transaction, all of them or none. Note is taken of every
statement and its reply (`Server.traced`). A transaction does not begin, or one of its
statements or its COMMIT fails and it is rolled back, or it is committed (`Transacted`).
From this one can read what was sent and what the answer is (`AllOrNothing`); and
whatever the server replies, nothing is sent at all for no items, or for an item whose
size does not fit (`upsert_all_or_nothing`).
-/
namespace Intake.Database

variable {σ : Type}

theorem transaction_untraced (server : Server σ) (statements : List Statement) (s : σ) (sent : Traffic) :
    server.transaction statements s =
      ((server.traced.transaction statements (s,sent)).1,(server.traced.transaction statements (s,sent)).2.1) := by
  rcases begun : server .begin s with ⟨f | reply,t⟩
  · simp [Server.transaction,Server.traced,withNotes_eq begun,begun]
  · have opened : server.traced .begin (s,sent) = (.ok reply,t,sent ++ [(.begin,.ok reply)]) := withNotes_eq begun sent
    have same := sendAll_unnoted Prod.mk server (statements ++ [.commit]) t (sent ++ [(.begin,.ok reply)])
    rcases noted : server.traced.sendAll (statements ++ [.commit]) (t,sent ++ [(.begin,.ok reply)]) with ⟨f | _,u⟩
    · rw [← Server.traced,noted] at same
      simp only [Server.transaction,begun,opened,same,noted]
      rfl
    · rw [← Server.traced,noted] at same
      simp only [Server.transaction,begun,opened,same,noted]

/-! ### Transactions -/

/-- How a transaction with some statements can go. -/
inductive Transacted (statements : List Statement) : Traffic → Except DatabaseFault Unit → Prop where
  | unbegun {f : DatabaseFault} : Transacted statements [(.begin,.error f)] (.error f)
  | undone {begun : Reply} {made : Traffic} {statement : Statement} {left : List Statement} {f : DatabaseFault}
      {back : Except DatabaseFault Reply} (well : Well made)
      (split : statements = made.map (·.1) ++ statement :: left) :
      Transacted statements ((.begin,.ok begun) :: made ++ [(statement,.error f),(.rollback,back)]) (.error f)
  | uncommitted {begun : Reply} {made : Traffic} {f : DatabaseFault} {back : Except DatabaseFault Reply}
      (well : Well made) (all : made.map (·.1) = statements) :
      Transacted statements ((.begin,.ok begun) :: made ++ [(.commit,.error f),(.rollback,back)]) (.error f)
  | committed {begun last : Reply} {made : Traffic} (well : Well made) (all : made.map (·.1) = statements) :
      Transacted statements ((.begin,.ok begun) :: made ++ [(.commit,.ok last)]) (.ok ())

theorem transacted (server : Server σ) (statements : List Statement) (s : σ) :
    ∃ result t sent, server.traced.transaction statements (s,[]) = (result,t,sent) ∧
      Transacted statements sent result := by
  rcases begun : server .begin s with ⟨f | reply,t⟩
  · refine ⟨.error f,t,[(.begin,.error f)],?_,.unbegun⟩
    simp [Server.transaction,Server.traced,withNotes_eq begun]
  · have opened : server.traced .begin (s,[]) = (.ok reply,t,[(.begin,.ok reply)]) := withNotes_eq begun []
    obtain ⟨done,u,well,ends⟩ := sendAll_traced server (statements ++ [.commit]) t [(.begin,.ok reply)]
    rcases ends with ⟨all,run⟩ | ⟨statement,f,left,split,run⟩
    · obtain ⟨made,last,rfl,made_all,last_all⟩ := List.map_eq_append_iff.mp all
      obtain ⟨⟨_,answer⟩,rfl,rfl⟩ := List.map_eq_singleton_iff.mp last_all
      obtain ⟨reply',rfl⟩ := well _ (List.mem_append_right made (List.mem_singleton_self _))
      refine ⟨.ok (),u,(.begin,.ok reply) :: made ++ [(.commit,.ok reply')],?_,
        .committed (fun e member => well e (List.mem_append_left _ member)) made_all⟩
      simp [Server.transaction,opened,run]
    · have undone : server.traced .rollback (u,(.begin,.ok reply) :: done ++ [(statement,.error f)]) =
          ((server .rollback u).1,(server .rollback u).2,
            (.begin,.ok reply) :: done ++ [(statement,.error f),(.rollback,(server .rollback u).1)]) := by
        simp [Server.traced,withNotes]
      have sent : server.traced.transaction statements (s,[]) =
          (.error f,(server .rollback u).2,
            (.begin,.ok reply) :: done ++ [(statement,.error f),(.rollback,(server .rollback u).1)]) := by
        simp only [Server.transaction,opened,run,List.singleton_append,undone]
      refine ⟨_,_,_,sent,?_⟩
      -- What fails is the COMMIT just if nothing is left behind it.
      rcases List.eq_nil_or_concat left with rfl | ⟨others,last,rfl⟩
      · obtain ⟨all,same⟩ := List.append_inj' split rfl
        obtain rfl : Statement.commit = statement := by simpa using same
        exact .uncommitted well all.symm
      · rw [List.concat_eq_append,← List.cons_append,← List.append_assoc] at split
        exact .undone well (List.append_inj' split rfl).1

/-! ### All or nothing -/

/-- The statement inserts or deletes rows that belong to items. -/
def Statement.isOfItems : Statement → Bool
  | .insertItems _ => true
  | .insertItemSources _ => true
  | .insertHints _ => true
  | .deleteHints _ => true
  | _ => false

/-- What can be said of a transaction with some statements. -/
structure AllOrNothing (statements : List Statement) (sent : Traffic) (result : Except Failure Unit) : Prop where
  /-- Behind one BEGIN the first of the statements are sent in order, and behind them none but COMMIT and ROLLBACK. -/
  order : ∃ made ending, sent.map (·.1) = .begin :: made ++ ending ∧ made <+: statements ∧
    ∀ statement ∈ ending, statement = .commit ∨ statement = .rollback
  commit_iff : .commit ∈ sent.map (·.1) ↔
    ∃ done rest, sent = done ++ rest ∧ done.map (·.1) = .begin :: statements ∧ Well done
  ok_iff : result = .ok () ↔ ∃ reply, (.commit,.ok reply) ∈ sent
  /-- The first fault is the answer. Behind it comes only ROLLBACK, if there is something to roll back. -/
  fault : ∀ before statement f after, sent = before ++ (statement,.error f) :: after → Well before →
    result = .error (.database f) ∧ after.map (·.1) = if statement = .begin then [] else [.rollback]

/-- There is one first entry of its kind. -/
theorem first_unique {α : Type} {P : α → Prop} {l₁ l₂ r₁ r₂ : List α} {a b : α}
    (same : l₁ ++ a :: r₁ = l₂ ++ b :: r₂) (here₁ : P a) (before₁ : ∀ x ∈ l₁, ¬ P x) (here₂ : P b)
    (before₂ : ∀ x ∈ l₂, ¬ P x) :
    l₁ = l₂ ∧ a = b ∧ r₁ = r₂ := by
  have first := prefix_of_none same here₂ before₁
  have back := prefix_of_none same.symm here₁ before₂
  obtain rfl := first.eq_of_length_le back.length_le
  obtain ⟨rfl,rfl⟩ := List.cons.inj (List.append_cancel_left same)
  exact ⟨rfl,rfl,rfl⟩

theorem first_fault (done : Traffic) {before after rest : Traffic} {statement statement' : Statement}
    {f f' : DatabaseFault}
    (same : before ++ (statement,.error f) :: after = done ++ (statement',.error f') :: rest) (first : Well before)
    (well : Well done) : statement = statement' ∧ f = f' ∧ after = rest := by
  have unfailed {sent : Traffic} (well : Well sent) : ∀ e ∈ sent, ¬ ∃ f, e.2 = .error f := by
    rintro e member ⟨f,ill⟩
    obtain ⟨reply,good⟩ := well e member
    rw [good] at ill
    cases ill
  obtain ⟨-,here,later⟩ := first_unique (P := fun e => ∃ f, e.2 = .error f) same ⟨f,rfl⟩ (unfailed first) ⟨f',rfl⟩
    (unfailed well)
  cases here
  exact ⟨rfl,rfl,later⟩

namespace Transacted

variable {statements : List Statement} {sent : Traffic} {result : Except DatabaseFault Unit}

theorem order (transacted : Transacted statements sent result) :
    ∃ made ending, sent.map (·.1) = .begin :: made ++ ending ∧ made <+: statements ∧
      ∀ statement ∈ ending, statement = .commit ∨ statement = .rollback := by
  cases transacted with
  | unbegun => exact ⟨[],[],rfl,List.nil_prefix,by simp⟩
  | @undone begun made statement left f back well split =>
    exact ⟨made.map (·.1) ++ [statement],[.rollback],by simp,⟨left,by simp [split]⟩,by simp⟩
  | uncommitted well all => exact ⟨statements,[.commit,.rollback],by simp [all],List.prefix_rfl,by simp⟩
  | committed well all => exact ⟨statements,[.commit],by simp [all],List.prefix_rfl,by simp⟩

theorem commit_iff (transacted : Transacted statements sent result) (other : .commit ∉ statements) :
    .commit ∈ sent.map (·.1) ↔
      ∃ done rest, sent = done ++ rest ∧ done.map (·.1) = .begin :: statements ∧ Well done := by
  cases transacted with
  | @unbegun f =>
    constructor
    · simp
    · rintro ⟨done,rest,split,begins,well⟩
      cases done with
      | nil => cases begins
      | cons e more =>
        obtain ⟨rfl,-⟩ := List.cons.inj split
        exact absurd well (not_well_of_mem List.mem_cons_self)
  | @undone begun made statement left f back well split =>
    constructor
    · intro member
      have sent : .commit ∈ made.map (·.1) ++ [statement] := by simpa using member
      refine absurd ?_ other
      rw [split]
      rcases List.mem_append.mp sent with sent | sent
      · exact List.mem_append_left _ sent
      · simp [List.mem_singleton.mp sent]
    · -- The statement that fails is one of those that would have to be carried out.
      rintro ⟨done,rest,whole,all,done_well⟩
      have first : (.begin,.ok begun) :: made ++ [(statement,.error f)] <+: done ++ rest :=
        ⟨[(.rollback,back)],by simp [← whole]⟩
      have shown : (.begin,.ok begun) :: made ++ [(statement,.error f)] <+: done := by
        refine List.prefix_of_prefix_length_le first (List.prefix_append done rest) ?_
        have long := congrArg List.length all
        simp [split] at long ⊢
        omega
      have failed : (statement,.error f) ∈ done := shown.subset (by simp)
      exact absurd done_well (not_well_of_mem failed)
  | @uncommitted begun made f back well all =>
    constructor
    · exact fun _ => ⟨(.begin,.ok begun) :: made,_,rfl,by simp [all],well_cons well⟩
    · simp
  | @committed begun last made well all =>
    constructor
    · exact fun _ => ⟨(.begin,.ok begun) :: made,_,rfl,by simp [all],well_cons well⟩
    · simp

theorem ok_iff (transacted : Transacted statements sent result) (other : .commit ∉ statements) :
    result = .ok () ↔ ∃ reply, (.commit,.ok reply) ∈ sent := by
  cases transacted with
  | unbegun => simp
  | @undone begun made statement left f back well split =>
    constructor
    · simp
    · rintro ⟨reply,member⟩
      refine absurd ?_ other
      have sent : .commit ∈ (made.map (·.1)) := by
        have last : Statement.commit ≠ statement := fun same => other (by simp [split,same])
        exact List.mem_map.mpr ⟨_,by simpa [last] using member,rfl⟩
      rw [split]
      exact List.mem_append_left _ sent
  | @uncommitted begun made f back well all =>
    constructor
    · simp
    · rintro ⟨reply,member⟩
      refine absurd ?_ other
      rw [← all]
      exact List.mem_map.mpr ⟨_,by simpa using member,rfl⟩
  | @committed begun last made well all => exact ⟨fun _ => ⟨last,by simp⟩,fun _ => rfl⟩

/-- The first fault is the answer. Behind it comes only ROLLBACK, if there is something to roll back. -/
theorem fault (transacted : Transacted statements sent result) (other : .begin ∉ statements) {before after : Traffic}
    {statement : Statement} {f : DatabaseFault} (split : sent = before ++ (statement,.error f) :: after)
    (first : Well before) :
    result = .error f ∧ after.map (·.1) = if statement = .begin then [] else [.rollback] := by
  cases transacted with
  | unbegun =>
    obtain ⟨rfl,rfl,rfl⟩ := first_fault [] split.symm first well_nil
    exact ⟨rfl,rfl⟩
  | @undone begun made statement' left f' back well rows =>
    obtain ⟨rfl,rfl,rfl⟩ := first_fault ((.begin,.ok begun) :: made) split.symm first (well_cons well)
    have row : statement ≠ .begin := fun same => other (by simp [rows,same])
    exact ⟨rfl,by simp [row]⟩
  | @uncommitted begun made f' back well all =>
    obtain ⟨rfl,rfl,rfl⟩ := first_fault ((.begin,.ok begun) :: made) split.symm first (well_cons well)
    exact ⟨rfl,by simp⟩
  | @committed begun last made well all =>
    have good : Well ((.begin,.ok begun) :: made ++ [(.commit,.ok last)]) := by
      intro e member
      rcases List.mem_append.mp member with member | member
      · exact well_cons well e member
      · exact well_cons well_nil e member
    rw [split] at good
    exact absurd good (not_well_of_mem (List.mem_append_right before List.mem_cons_self))

/-- Where every statement was carried out, all were sent. -/
theorem whole (transacted : Transacted statements sent result) (well : Well sent) :
    result = .ok () ∧ sent.map (·.1) = .begin :: statements ++ [.commit] := by
  cases transacted with
  | unbegun => exact absurd well (not_well_of_mem List.mem_cons_self)
  | undone | uncommitted => exact absurd well (not_well_of_mem (List.mem_append_right _ List.mem_cons_self))
  | committed well all => exact ⟨rfl,by simp [all]⟩

theorem allOrNothing (transacted : Transacted statements sent result)
    (rows : ∀ statement ∈ statements, statement.isOfItems = true) :
    AllOrNothing statements sent (result.mapError .database) := by
  have no_begin : .begin ∉ statements := fun member => absurd (rows _ member) (by decide)
  have no_commit : .commit ∉ statements := fun member => absurd (rows _ member) (by decide)
  refine ⟨transacted.order,transacted.commit_iff no_commit,?_,?_⟩
  · rw [← transacted.ok_iff no_commit]
    cases result <;> simp [Except.mapError]
  · intro before statement f after split first
    obtain ⟨rfl,ending⟩ := transacted.fault no_begin split first
    exact ⟨rfl,ending⟩

end Transacted

/-! ### Items -/

theorem isOfItems_itemStatements (items : List Item) (rows : List ItemRow) :
    ∀ statement ∈ itemStatements items rows, statement.isOfItems = true := by
  intro statement member
  simp only [itemStatements,List.mem_append,List.mem_map] at member
  rcases member with ((⟨piece,-,rfl⟩ | ⟨piece,-,rfl⟩) | ⟨piece,-,rfl⟩) | member
  · rfl
  · rfl
  · rfl
  · split at member
    · cases member
    · rw [List.mem_singleton.mp member]
      rfl

/-- To take note changes nothing. -/
theorem upsertItems_untraced (server : Server σ) (items : List Item) (s : σ) (sent : Traffic) :
    upsertItems server items s =
      ((upsertItems server.traced items (s,sent)).1,(upsertItems server.traced items (s,sent)).2.1) := by
  by_cases empty : (lastItems items).isEmpty = true
  · simp [upsertItems,empty]
  · cases all : itemRows (lastItems items) with
    | error cause => simp [upsertItems,empty,all]
    | ok rows => simp [upsertItems,empty,all,transaction_untraced server _ s sent]

/-- There are no items; or the size of one does not fit, and the first of these is named; or there is a transaction. -/
theorem upsertItems_cases (server : Server σ) (items : List Item) (s : σ) :
    (items = [] ∧ upsertItems server.traced items (s,[]) = (.ok (),s,[])) ∨
      (∃ before i after, lastItems items = before ++ i :: after ∧ Fit before ∧ 0x8000000000000000 ≤ i.size.toNat ∧
        upsertItems server.traced items (s,[]) =
          (.error (.invalidRecord (.sizeTooLarge i.infoHash i.size)),s,[])) ∨
      (items ≠ [] ∧ Fit (lastItems items) ∧ ∃ rows result t sent, itemRows (lastItems items) = .ok rows ∧
        upsertItems server.traced items (s,[]) = (result.mapError .database,t,sent) ∧
        Transacted (itemStatements (lastItems items) rows) sent result) := by
  by_cases empty : items = []
  · subst empty
    exact .inl ⟨rfl,rfl⟩
  · right
    have filled : (lastItems items).isEmpty = false := by simpa using lastItems_ne_nil empty
    rcases fit_or_first (lastItems items) with fit | ⟨before,i,after,split,earlier,large⟩
    · obtain ⟨rows,all⟩ := itemRows_of_fit fit
      obtain ⟨result,t,sent,run,transacted⟩ := transacted server (itemStatements (lastItems items) rows) s
      refine .inr ⟨empty,fit,rows,result,t,sent,all,?_,transacted⟩
      simp [upsertItems,filled,all,run]
    · have refused : itemRows (lastItems items) = .error (.sizeTooLarge i.infoHash i.size) := by
        rw [split,itemRows_of_first earlier large]
      refine .inl ⟨before,i,after,split,earlier,large,?_⟩
      simp [upsertItems,filled,refused]

/-- What is sent for items: nothing when there are none or when the size of one does not fit, and then the first of
    these is named; and otherwise one transaction with the statements that insert and delete just the rows for them,
    all of which are carried out or none. -/
theorem upsert_all_or_nothing (server : Server σ) (items : List Item) (s : σ) :
    ∃ result t sent, upsertItems server.traced items (s,[]) = (result,t,sent) ∧
      upsertItems server items s = (result,t) ∧
      (items = [] → sent = [] ∧ result = .ok ()) ∧
      ((∃ i ∈ lastItems items, 0x8000000000000000 ≤ i.size.toNat) → sent = [] ∧
        ∃ before i after, lastItems items = before ++ i :: after ∧ Fit before ∧ 0x8000000000000000 ≤ i.size.toNat ∧
          result = .error (.invalidRecord (.sizeTooLarge i.infoHash i.size))) ∧
      (items ≠ [] → Fit (lastItems items) → ∃ rows, itemRows (lastItems items) = .ok rows ∧
        (∀ statement ∈ itemStatements (lastItems items) rows, statement.isOfItems = true) ∧
        Complete (lastItems items) (itemStatements (lastItems items) rows) ∧
        AllOrNothing (itemStatements (lastItems items) rows) sent result) := by
  have same := upsertItems_untraced server items s []
  rcases upsertItems_cases server items s with ⟨rfl,none⟩ | ⟨before,i,after,split,earlier,large,refused⟩ |
    ⟨filled,fit,rows,result,t,sent,all,run,transacted⟩
  · refine ⟨.ok (),s,[],none,same,fun _ => ⟨rfl,rfl⟩,?_,fun filled => absurd rfl filled⟩
    rintro ⟨i,member,-⟩
    cases member
  · rw [refused] at same
    refine ⟨_,s,[],refused,same,?_,fun _ => ⟨rfl,before,i,after,split,earlier,large,rfl⟩,?_⟩
    · rintro rfl
      exact absurd split (by simp [lastItems])
    · intro _ fit
      exact absurd (fit i (by simp [split])) (by omega)
  · rw [run] at same
    have rows_only := isOfItems_itemStatements (lastItems items) rows
    refine ⟨_,t,sent,run,same,fun empty => absurd empty filled,?_,?_⟩
    · rintro ⟨i,member,large⟩
      exact absurd (fit i member) (by omega)
    · exact fun _ _ => ⟨rows,all,rows_only,complete_itemStatements all,transacted.allOrNothing rows_only⟩

/-- The second of three statements for an item fails. -/
example :
    let server : Server Nat := fun _ n => (if n = 2 then .error .poolClosed else .ok .done,n + 1)
    let item := Item.ofRecord ⟨"nightly"⟩ (.bare "dht" 1)
    let answered := upsertItems server.traced [item] (0,[])
    answered.1 = .error (.database .poolClosed) ∧ answered.2.2.map (·.1) =
      [.begin,.insertItems [⟨item.infoHash,item.name,item.size.toNat,item.isPrivate,item.filesStatus,by decide⟩],
        .insertItemSources (item.sources.map (ItemSourceRow.mk item.infoHash)),.rollback] := by
  decide +kernel

end Intake.Database
