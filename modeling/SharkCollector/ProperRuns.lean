-- Runs of the ledger with legal names and fresh keys. Such a run never writes
-- over what stands, so every record of a borrower stays as it was written, and
-- where a payment was filed there is a node ever after.
import SharkCollector.Ledger

namespace SharkCollector

open PathTree Runs LedgerCall

/-! ## Runs with legal names and fresh keys -/

/-- The name that a call carries. -/
def LedgerCall.name : LedgerCall → String
  | .sendBorrower _ name _ _ => name
  | .sendPayment _ b _ _ _ => b.name

/-- The location that a call writes to, when its name is legal. -/
def LedgerCall.location : LedgerCall → Reference
  | .sendBorrower u _ _ k => borrowersNode u ++ [k]
  | .sendPayment u b _ _ k => paymentsNode u b.name ++ [k]

/-- The record that a call writes. -/
def LedgerCall.record : LedgerCall → Database
  | .sendBorrower _ name debt _ => borrowerRecord name debt
  | .sendPayment _ _ amount date _ => paymentRecord amount date

/-- The name is legal, and `childByAutoId` gives a key that is in use nowhere. -/
structure Proper (db : Database) (call : LedgerCall) : Prop where
  legal : IsPathString call.name
  unused : ∀ node : Reference, db.get (node ++ [call.key]) = none

/-- Every call of the run is proper. -/
def ProperRun (run : List LedgerCall) : Prop := Each apply Proper Node.empty run

theorem Proper.apply_eq {db : Database} {call : LedgerCall} (h : Proper db call) :
    apply db call = db.set call.location call.record := by
  cases call with
  | sendBorrower u name debt k => exact apply_sendBorrower db u name debt k
  | sendPayment u b amount date k => exact apply_sendPayment db u b amount date k h.legal

theorem Proper.location_unused {db : Database} {call : LedgerCall} (h : Proper db call) :
    db.get call.location = none := by
  cases call with
  | sendBorrower u name debt k => exact h.unused (borrowersNode u)
  | sendPayment u b amount date k => exact h.unused (paymentsNode u b.name)

theorem get_apply_location {db : Database} {call : LedgerCall} (h : Proper db call) :
    (apply db call).get call.location = some call.record := by
  rw [h.apply_eq, get_set_self]

/-- No proper call removes a node with children. -/
theorem get_dict_exec {db : Database} {calls : List LedgerCall} (h : Each apply Proper db calls)
    {q : Reference} (hq : ∃ cs, db.get q = some (.dict cs)) :
    ∃ cs, (exec apply db calls).get q = some (.dict cs) := by
  apply exec_invariant (I := fun db => ∃ cs, db.get q = some (.dict cs)) hq _ h
  intro db call hq hcall
  rw [hcall.apply_eq]
  exact get_set_dict_of_fresh hcall.location_unused hq

/-- The keys of the records' fields. -/
def fieldKeys : List Key := [⟨"name"⟩, ⟨"debt"⟩, ⟨"Amount paid"⟩, ⟨"Date"⟩]

theorem get_leaves_unused {cs : List Snapshot} (hleaf : ∀ c ∈ cs, ∃ s, c.2 = .leaf s) {k : Key}
    (hk : k ∉ cs.map Prod.fst) (node : Reference) :
    (Node.dict cs : Database).get (node ++ [k]) = none := by
  have hlookup : cs.lookup k = none := by
    rw [mem_keys_iff_lookup] at hk
    exact Option.not_isSome_iff_eq_none.mp hk
  cases node with
  | nil => simp [get_cons, hlookup]
  | cons j node =>
    rw [List.cons_append, get_cons]
    rcases hj : cs.lookup j with _ | w
    · simp [hj]
    · obtain ⟨s, hs⟩ := hleaf _ (mem_of_lookup hj)
      simp only at hs
      subst hs
      cases node with
      | nil => simp [hj, get_cons]
      | cons i node => simp [hj, get_cons]

theorem record_unused (call : LedgerCall) {k : Key} (h : k ∉ fieldKeys) (node : Reference) :
    call.record.get (node ++ [k]) = none := by
  cases call with
  | sendBorrower u name debt key =>
    rw [LedgerCall.record, borrowerRecord_eq]
    apply get_leaves_unused
    · simp
    · intro hk
      apply h
      simp only [List.map_cons, List.map_nil, List.mem_cons, List.not_mem_nil, or_false] at hk
      rcases hk with rfl | rfl <;> decide
  | sendPayment u b amount date key =>
    rw [LedgerCall.record, paymentRecord_eq]
    apply get_leaves_unused
    · simp
    · intro hk
      apply h
      simp only [List.map_cons, List.map_nil, List.mem_cons, List.not_mem_nil, or_false] at hk
      rcases hk with rfl | rfl <;> decide

/-- A key that no call wrote and no field has is in use nowhere. -/
theorem ledger_unused {run : List LedgerCall} (h : ProperRun run) {k : Key} (hfield : k ∉ fieldKeys)
    (hk : ∀ call ∈ run, k ∉ call.location) (node : Reference) :
    (ledger run).get (node ++ [k]) = none := by
  induction run using List.reverseRecOn generalizing node with
  | nil =>
    cases node with
    | nil => simp [ledger, Node.empty, get_cons]
    | cons j node => simp [ledger]
  | append_singleton run call ih =>
    obtain ⟨hrun, hcall⟩ := (each_snoc _ _ _).mp h
    rw [ledger, exec_snoc, hcall.apply_eq]
    apply get_set_unused
    · exact ih hrun fun c hc => hk c (List.mem_append_left _ hc)
    · exact record_unused call hfield
    · exact hk call (by simp)

/-- Distinct keys that no name and no field has make a proper run. -/
theorem properRun_of_new_keys {run : List LedgerCall} (hlegal : ∀ call ∈ run, IsPathString call.name)
    (hnew : run.Pairwise fun earlier later => later.key ∉ earlier.location)
    (hfields : ∀ call ∈ run, call.key ∉ fieldKeys) : ProperRun run := by
  induction run using List.reverseRecOn with
  | nil => trivial
  | append_singleton run call ih =>
    obtain ⟨hrun, -, hlater⟩ := List.pairwise_append.mp hnew
    have hbefore := ih (fun c hc => hlegal c (List.mem_append_left _ hc)) hrun
      fun c hc => hfields c (List.mem_append_left _ hc)
    refine (each_snoc _ _ _).mpr ⟨hbefore, hlegal call (by simp), ?_⟩
    exact ledger_unused hbefore (hfields call (by simp)) fun c hc => hlater c hc call (by simp)

/-- A proper run around one of its calls: what came before, and what came after. -/
theorem ProperRun.split {run : List LedgerCall} (h : ProperRun run) {call : LedgerCall}
    (hcall : call ∈ run) :
    ∃ before after, run = before ++ call :: after ∧ Proper (ledger before) call ∧
      Each apply Proper (apply (ledger before) call) after ∧
      ledger run = exec apply (apply (ledger before) call) after := by
  obtain ⟨before, after, rfl⟩ := List.append_of_mem hcall
  have hsplit := (each_append _ _ _).mp h
  exact ⟨before, after, rfl, hsplit.2.1, hsplit.2.2, exec_append _ _ _⟩

theorem ProperRun.legal {run : List LedgerCall} (h : ProperRun run) {call : LedgerCall}
    (hcall : call ∈ run) : IsPathString call.name := by
  obtain ⟨before, after, -, hproper, -⟩ := h.split hcall
  exact hproper.legal

/-- Where a payment was written there is a node with children ever after. -/
theorem ProperRun.get_payment {run : List LedgerCall} (h : ProperRun run) {u : Uid} {b : Borrower}
    {amount date : String} {k : Key} (hcall : .sendPayment u b amount date k ∈ run) :
    ∃ cs, (ledger run).get (paymentsNode u b.name ++ [k]) = some (.dict cs) := by
  obtain ⟨before, after, -, hproper, hafter, hledger⟩ := h.split hcall
  rw [hledger]
  exact get_dict_exec hafter ⟨_, (get_apply_location hproper).trans (by
    rw [LedgerCall.record, paymentRecord_eq])⟩

/-! ## Stored borrowers -/

/-- The borrower stands in a record under `Borrowers/u`, as the observer of the table reads it. -/
def Stored (u : Uid) (db : Database) (b : Borrower) : Prop :=
  ∃ value, (b.ref, value) ∈ db.childrenAt (borrowersNode u) ∧ borrowerAdded (b.ref, value) = .ok b

theorem childrenAt_borrowersNode_apply {db : Database} {call : LedgerCall} (h : Proper db call)
    {u : Uid} {c : Snapshot} (hc : c ∈ (apply db call).childrenAt (borrowersNode u)) :
    c ∈ db.childrenAt (borrowersNode u) ∨
      ∃ name debt, call = .sendBorrower u name debt c.1 ∧ c.2 = borrowerRecord name debt := by
  cases call with
  | sendBorrower v name debt k =>
    rw [apply_sendBorrower] at hc
    by_cases hv : v = u
    · subst hv
      rw [childrenAt_set_child] at hc
      rcases mem_put hc with rfl | hc
      · exact Or.inr ⟨name, debt, rfl, rfl⟩
      · exact Or.inl hc
    · rw [childrenAt_set_apart _ _ (by simpa using apart_borrowers_of_ne [k] [] hv)] at hc
      exact Or.inl hc
  | sendPayment v b amount date k =>
    rw [apply_sendPayment _ _ _ _ _ _ h.legal] at hc
    have hap : Apart (paymentsNode v b.name ++ [k]) (borrowersNode u) :=
      apart_cons_of_ne _ _ (by decide)
    rw [childrenAt_set_apart _ _ hap] at hc
    exact Or.inl hc

theorem mem_childrenAt_borrowersNode {run : List LedgerCall} (h : ProperRun run) {u : Uid}
    {c : Snapshot} (hc : c ∈ (ledger run).childrenAt (borrowersNode u)) :
    ∃ name debt, .sendBorrower u name debt c.1 ∈ run ∧ c.2 = borrowerRecord name debt := by
  induction run using List.reverseRecOn with
  | nil => simp [ledger, Node.childrenAt, borrowersNode, Node.empty, get_cons] at hc
  | append_singleton run call ih =>
    obtain ⟨hrun, hcall⟩ := (each_snoc _ _ _).mp h
    rw [ledger, exec_snoc] at hc
    rcases childrenAt_borrowersNode_apply hcall hc with hc | ⟨name, debt, rfl, hrec⟩
    · obtain ⟨name, debt, hmem, hrec⟩ := ih hrun hc
      exact ⟨name, debt, List.mem_append_left _ hmem, hrec⟩
    · exact ⟨name, debt, by simp, hrec⟩

/-- A record of a borrower is never written again. -/
theorem ProperRun.get_borrower {run : List LedgerCall} (h : ProperRun run) {u : Uid}
    {name debt : String} {k : Key} (hcall : .sendBorrower u name debt k ∈ run) :
    (ledger run).get (borrowersNode u ++ [k]) = some (borrowerRecord name debt) := by
  obtain ⟨before, after, -, hproper, hafter, hledger⟩ := h.split hcall
  rw [hledger]
  apply exec_invariant
    (I := fun db : Database => db.get (borrowersNode u ++ [k]) = some (borrowerRecord name debt))
    (get_apply_location hproper) _ hafter
  intro db call hget hcall
  rw [hcall.apply_eq]
  rcases path_cases call.location (borrowersNode u ++ [k]) with hap | ⟨r, hr⟩ | ⟨j, r, hr⟩
  · rw [get_set_apart _ _ hap]
    exact hget
  · have hnone := hcall.location_unused
    rw [hr, get_append, hnone] at hget
    cases hget
  · -- Nothing is written below a record of a borrower: the location is too long for it.
    cases call with
    | sendBorrower v name' debt' k' =>
      have := congrArg List.length hr
      simp [LedgerCall.location, borrowersNode] at this
    | sendPayment v b amount date k' =>
      simp [LedgerCall.location, borrowersNode, paymentsNode] at hr

theorem stored_iff {run : List LedgerCall} (h : ProperRun run) {u : Uid} {b : Borrower} :
    Stored u (ledger run) b ↔ .sendBorrower u b.name b.debt b.ref ∈ run := by
  constructor
  · rintro ⟨value, hmem, hdecode⟩
    obtain ⟨name, debt, hcall, hrec⟩ := mem_childrenAt_borrowersNode h hmem
    simp only at hrec
    rw [hrec, borrowerAdded_record] at hdecode
    have hname : name = b.name := congrArg Borrower.name (Except.ok.inj hdecode)
    have hdebt : debt = b.debt := congrArg Borrower.debt (Except.ok.inj hdecode)
    exact hname ▸ hdebt ▸ hcall
  · intro hcall
    have hget := h.get_borrower hcall
    rw [← lookup_childrenAt] at hget
    exact ⟨_, mem_of_lookup hget, borrowerAdded_record _ _ _⟩

end SharkCollector
