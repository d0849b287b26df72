-- The ledger: every call that writes, of every account, in any order, on one
-- database, and what the observers of an account are called with. The first
-- law says that the accounts do not interfere: what an account observes does
-- not change when the calls of all other accounts are left out.
import SharkCollector.Records
import SharkCollector.Runs

namespace SharkCollector

open PathTree Runs

/-! ## Calls -/

/-- A call of `sendBorrowersToDatabase` or `sendPaymentsToDatabase` by account
`user`, with the key that `childByAutoId` gives it. -/
inductive LedgerCall where
  | sendBorrower (user : Uid) (name debt : String) (key : Key)
  | sendPayment (user : Uid) (borrower : Borrower) (amount date : String) (key : Key)
deriving DecidableEq

namespace LedgerCall

def user : LedgerCall → Uid
  | .sendBorrower u _ _ _ => u
  | .sendPayment u _ _ _ _ => u

def key : LedgerCall → Key
  | .sendBorrower _ _ _ k => k
  | .sendPayment _ _ _ _ k => k

/-- The write that a call makes. A payment with an illegal name raises instead. -/
def push : LedgerCall → Except Fault (Option Push)
  | .sendBorrower u name debt _ => some <$> sendBorrowersToDatabase (some u) (some name) (some debt)
  | .sendPayment u b amount date _ => sendPaymentsToDatabase (some u) (some b) (some amount) (some date)

/-- The database after a call. A call that raises writes nothing. -/
def apply (db : Database) (call : LedgerCall) : Database :=
  match call.push with
  | .ok (some w) => w.setValue call.key db
  | .ok none => db
  | .error _ => db

theorem apply_sendBorrower (db : Database) (u : Uid) (name debt : String) (k : Key) :
    apply db (.sendBorrower u name debt k) =
      db.set (borrowersNode u ++ [k]) (borrowerRecord name debt) := by
  simp only [apply, push, sendBorrowersToDatabase_some]
  rfl

theorem apply_sendPayment (db : Database) (u : Uid) (b : Borrower) (amount date : String) (k : Key)
    (h : IsPathString b.name) :
    apply db (.sendPayment u b amount date k) =
      db.set (paymentsNode u b.name ++ [k]) (paymentRecord amount date) := by
  simp only [apply, push, sendPaymentsToDatabase_eq u b _ _ h]
  rfl

theorem apply_sendPayment_raises (db : Database) (u : Uid) (b : Borrower) (amount date : String)
    (k : Key) (h : ¬ IsPathString b.name) : apply db (.sendPayment u b amount date k) = db := by
  simp only [apply, push, sendPaymentsToDatabase_raises u b _ _ h]

/-- A call writes one value below a node of its own account, or nothing. -/
theorem apply_cases (db : Database) (call : LedgerCall) :
    (∃ r v, apply db call = db.set (borrowersNode call.user ++ r) v) ∨
    (∃ r v, apply db call = db.set (⟨"Payments"⟩ :: call.user.key :: r) v) ∨
    apply db call = db := by
  cases call with
  | sendBorrower u name debt k => exact Or.inl ⟨_, _, apply_sendBorrower db u name debt k⟩
  | sendPayment u b amount date k =>
    by_cases h : IsPathString b.name
    · exact Or.inr (Or.inl ⟨_, _, apply_sendPayment db u b amount date k h⟩)
    · exact Or.inr (Or.inr (apply_sendPayment_raises db u b amount date k h))

end LedgerCall

open LedgerCall

/-- The database after a run of calls on an empty one. -/
def ledger (run : List LedgerCall) : Database := exec apply Node.empty run

/-! ## Observers -/

/-- The snapshots that an observer of `node` is called with during a run of
calls: one for each child that was not there before. -/
def addedDuring (node : Reference) : Database → List LedgerCall → List Snapshot
  | _, [] => []
  | db, call :: calls =>
    addedChildren (db.childrenAt node) ((apply db call).childrenAt node) ++
      addedDuring node (apply db call) calls

/-- All snapshots of an observer of `node` that is attached after the calls
`before` and lives through the calls `after`: the children that exist, in key
order, and then each new child. -/
def snapshots (node : Reference) (before after : List LedgerCall) : List Snapshot :=
  (ledger before).childrenAt node ++ addedDuring node (ledger before) after

/-- What `retrieveBorrowersFromDatabase` observes for an account: the borrower
of each snapshot, or the fault that it traps with. -/
def observedBorrowers (v : Uid) (before after : List LedgerCall) :
    Except Fault (List (Except Fault Borrower)) := do
  let borrowersDB ← retrieveBorrowersFromDatabase (some v)
  return (snapshots borrowersDB before after).map borrowerAdded

/-- What `retrievePayments` observes for an account and a borrower. -/
def observedPayments (v : Uid) (b : Borrower) (before after : List LedgerCall) :
    Except Fault (List (Except Fault Payment)) := do
  let paymentDB ← retrievePayments (some v) (some b)
  return (snapshots paymentDB before after).map paymentAdded

/-! ## Accounts do not interfere -/

/-- The calls of account `v`. -/
def callOf (v : Uid) (call : LedgerCall) : Bool := decide (call.user = v)

/-- Two databases hold the same subtrees for account `v`. -/
def SameFor (v : Uid) (db db' : Database) : Prop :=
  db.get (borrowersNode v) = db'.get (borrowersNode v) ∧
    db.get [⟨"Payments"⟩, v.key] = db'.get [⟨"Payments"⟩, v.key]

/-- A call of `v` writes the same on both sides. -/
theorem sameFor_apply {v : Uid} {db db' : Database} (call : LedgerCall) (h : SameFor v db db') :
    SameFor v (apply db call) (apply db' call) := by
  have hset : ∀ (p : Reference) (w : Database), SameFor v (db.set p w) (db'.set p w) :=
    fun p w => ⟨get_set_congr w p h.1, get_set_congr w p h.2⟩
  unfold apply
  rcases call.push with _ | (_ | w)
  · exact h
  · exact h
  · exact hset _ _

/-- A call of another account leaves the subtrees of `v` alone. -/
theorem sameFor_apply_other {v : Uid} {db db' : Database} (call : LedgerCall)
    (hne : call.user ≠ v) (h : SameFor v db db') : SameFor v (apply db call) db' := by
  rcases apply_cases db call with ⟨r, w, he⟩ | ⟨r, w, he⟩ | he
  · rw [he]
    refine ⟨?_, ?_⟩
    · rw [get_set_apart _ _ (by simpa using apart_borrowers_of_ne r [] hne)]
      exact h.1
    · rw [get_set_apart _ _ (apart_borrowers_payments call.user v r [])]
      exact h.2
  · rw [he]
    refine ⟨?_, ?_⟩
    · rw [get_set_apart _ _ (by simpa using (apart_borrowers_payments v call.user [] r).symm)]
      exact h.1
    · rw [get_set_apart _ _ (apart_payments_of_ne r [] hne)]
      exact h.2
  · rw [he]
    exact h

theorem sameFor_ledger (v : Uid) (run : List LedgerCall) :
    SameFor v (ledger run) (ledger (run.filter (callOf v))) := by
  apply exec_filter_related (C := fun _ _ => True) ⟨rfl, rfl⟩ _ _ (each_true _ _)
  · intro db db' call h _ _
    exact sameFor_apply call h
  · intro db db' call h _ hdrop
    exact sameFor_apply_other call (by simpa [callOf] using hdrop) h

/-- The nodes that the observers of account `v` are attached to. -/
def NodeOf (v : Uid) (node : Reference) : Prop :=
  ∃ r, node = borrowersNode v ++ r ∨ node = ⟨"Payments"⟩ :: v.key :: r

theorem SameFor.childrenAt {v : Uid} {db db' : Database} {node : Reference} (h : SameFor v db db')
    (hnode : NodeOf v node) : db.childrenAt node = db'.childrenAt node := by
  obtain ⟨r, rfl | rfl⟩ := hnode
  · rw [childrenAt_append, childrenAt_append, h.1]
  · have hsplit : (⟨"Payments"⟩ :: v.key :: r : List Key) = [⟨"Payments"⟩, v.key] ++ r := rfl
    rw [hsplit, childrenAt_append, childrenAt_append, h.2]

theorem addedDuring_filter {v : Uid} {node : Reference} (hnode : NodeOf v node)
    (calls : List LedgerCall) {db db' : Database} (h : SameFor v db db') :
    addedDuring node db calls = addedDuring node db' (calls.filter (callOf v)) := by
  induction calls generalizing db db' with
  | nil => rfl
  | cons call calls ih =>
    by_cases hv : call.user = v
    · have hnext := sameFor_apply call h
      rw [List.filter_cons_of_pos (by simpa [callOf] using hv)]
      simp only [addedDuring]
      rw [h.childrenAt hnode, hnext.childrenAt hnode, ih hnext]
    · have hnext := sameFor_apply_other call hv h
      rw [List.filter_cons_of_neg (by simpa [callOf] using hv)]
      simp only [addedDuring]
      rw [h.childrenAt hnode, hnext.childrenAt hnode, addedChildren_self, List.nil_append, ih hnext]

theorem snapshots_filter {v : Uid} {node : Reference} (hnode : NodeOf v node)
    (before after : List LedgerCall) :
    snapshots node before after =
      snapshots node (before.filter (callOf v)) (after.filter (callOf v)) := by
  have h := sameFor_ledger v before
  unfold snapshots
  rw [h.childrenAt hnode, addedDuring_filter hnode after h]

/-- What an account observes, traps included, is the same without the calls of
all other accounts: in every interleaving, for an observer attached at any
time, and for every borrower name. -/
theorem accounts_do_not_interfere (v : Uid) (before after : List LedgerCall) :
    observedBorrowers v before after =
        observedBorrowers v (before.filter (callOf v)) (after.filter (callOf v)) ∧
      ∀ b : Borrower, observedPayments v b before after =
        observedPayments v b (before.filter (callOf v)) (after.filter (callOf v)) := by
  refine ⟨?_, fun b => ?_⟩
  · have hnode : NodeOf v (borrowersNode v) := ⟨[], Or.inl (by simp)⟩
    simp only [observedBorrowers, retrieveBorrowersFromDatabase_some, bind, Except.bind]
    rw [← snapshots_filter hnode]
  · by_cases hb : IsPathString b.name
    · have hnode : NodeOf v (paymentsNode v b.name) := ⟨components b.name, Or.inr rfl⟩
      simp only [observedPayments, retrievePayments_ok v b hb, bind, Except.bind]
      rw [← snapshots_filter hnode]
    · simp only [observedPayments, retrievePayments_raises v b hb, bind, Except.bind]

end SharkCollector
