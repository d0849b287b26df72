-- The records of the app: what the screens write under `Borrowers` and
-- `Payments`, which node they write to, and what their observers make of a
-- snapshot. Each function of the Swift code has its own definition here, and
-- every forced unwrap, forced cast and path of it can fail.
import SharkCollector.Firebase

namespace SharkCollector

open PathTree

/-! ## The model classes -/

/-- A borrower. The app makes one object for each snapshot of its observer, so
`ref`, the key of the snapshot, tells the objects of one list apart. -/
structure Borrower where
  ref : Key
  name : String
  debt : String
deriving DecidableEq, Repr

structure Payment where
  amountPaid : String
  dateOfPayment : String
deriving DecidableEq, Repr

/-! ## Writes -/

/-- The write `node.childByAutoId().setValue(fields)`. -/
structure Push where
  node : Reference
  fields : List (String × String)
deriving DecidableEq, Repr

/-- The database after a write under the key that `childByAutoId` gave. -/
def Push.setValue (w : Push) (key : Key) (db : Database) : Database :=
  db.set (w.node ++ [key]) (ofDictionary w.fields)

/-- `sendBorrowersToDatabase` of AddBorrowerViewController, from the texts of its two fields. -/
def sendBorrowersToDatabase (currentUser : Option Uid)
    (enterNameTextfield enterAmountOfDebtTextfield : Option String) : Except Fault Push := do
  let database ← Reference.child [] "Borrowers"
  let uid ← unwrap currentUser
  let borrowers ← database.child uid.text
  let name ← unwrap enterNameTextfield
  let debt ← unwrap enterAmountOfDebtTextfield
  return { node := borrowers, fields := [("name", name), ("debt", debt)] }

/-- `sendPaymentsToDatabase` of BorrowerViewController. The reference is made
before the two optionals are unwrapped, and nothing is written without a date. -/
def sendPaymentsToDatabase (currentUser : Option Uid) (borrowerAtIndex : Option Borrower)
    (paymentTextfield dateDisplayed : Option String) : Except Fault (Option Push) := do
  let database ← Reference.child [] "Payments"
  let uid ← unwrap currentUser
  let account ← database.child uid.text
  let borrower ← unwrap borrowerAtIndex
  let paymentDB ← account.child borrower.name
  match paymentTextfield, dateDisplayed with
  | some paid, some date =>
    return some { node := paymentDB, fields := [("Amount paid", paid), ("Date", date)] }
  | _, _ => return none

/-! ## Reads -/

/-- The node that `retrieveBorrowersFromDatabase` observes. -/
def retrieveBorrowersFromDatabase (currentUser : Option Uid) : Except Fault Reference := do
  let database ← Reference.child [] "Borrowers"
  let uid ← unwrap currentUser
  database.child uid.text

/-- The observer of `retrieveBorrowersFromDatabase`: the borrower it appends. -/
def borrowerAdded (snapshot : Snapshot) : Except Fault Borrower := do
  let snapshotValue ← asDictionary snapshot.2
  let name ← unwrap (snapshotValue.lookup "name")
  let debt ← unwrap (snapshotValue.lookup "debt")
  return { ref := snapshot.1, name, debt }

/-- The node that `retrievePayments` observes. -/
def retrievePayments (currentUser : Option Uid) (borrowerAtIndex : Option Borrower) :
    Except Fault Reference := do
  let database ← Reference.child [] "Payments"
  let uid ← unwrap currentUser
  let account ← database.child uid.text
  let borrower ← unwrap borrowerAtIndex
  account.child borrower.name

/-- The observer of `retrievePayments`: the payment it appends. -/
def paymentAdded (snapshot : Snapshot) : Except Fault Payment := do
  let snapshotValue ← asDictionary snapshot.2
  let paymentValue ← unwrap (snapshotValue.lookup "Amount paid")
  let date ← unwrap (snapshotValue.lookup "Date")
  return { amountPaid := paymentValue, dateOfPayment := date }

/-! ## The nodes -/

def borrowersNode (u : Uid) : Reference := [⟨"Borrowers"⟩, u.key]

def paymentsNode (u : Uid) (name : String) : Reference :=
  ⟨"Payments"⟩ :: u.key :: components name

theorem apart_borrowers_payments (u v : Uid) (r s : List Key) :
    Apart (borrowersNode u ++ r) (⟨"Payments"⟩ :: v.key :: s) :=
  apart_cons_of_ne _ _ (by decide)

theorem apart_borrowers_of_ne {u v : Uid} (r s : List Key) (h : u ≠ v) :
    Apart (borrowersNode u ++ r) (borrowersNode v ++ s) :=
  (apart_cons_cons _ _ _).mpr (apart_cons_of_ne r s (fun he => h (Uid.key_injective he)))

theorem apart_payments_of_ne {u v : Uid} (r s : List Key) (h : u ≠ v) :
    Apart (⟨"Payments"⟩ :: u.key :: r : List Key) (⟨"Payments"⟩ :: v.key :: s) :=
  (apart_cons_cons _ _ _).mpr (apart_cons_of_ne r s (fun he => h (Uid.key_injective he)))

theorem child_borrowers : Reference.child [] "Borrowers" = .ok [⟨"Borrowers"⟩] := by decide

theorem child_payments : Reference.child [] "Payments" = .ok [⟨"Payments"⟩] := by decide

@[simp] theorem sendBorrowersToDatabase_some (u : Uid) (name debt : String) :
    sendBorrowersToDatabase (some u) (some name) (some debt) =
      .ok { node := borrowersNode u, fields := [("name", name), ("debt", debt)] } := by
  simp [sendBorrowersToDatabase, child_borrowers, borrowersNode, bind, Except.bind, pure, Except.pure]

@[simp] theorem retrieveBorrowersFromDatabase_some (u : Uid) :
    retrieveBorrowersFromDatabase (some u) = .ok (borrowersNode u) := by
  simp [retrieveBorrowersFromDatabase, child_borrowers, borrowersNode, bind, Except.bind]

/-- With a user and a legal name, a missing text or date leaves nothing to write. -/
theorem sendPaymentsToDatabase_eq (u : Uid) (b : Borrower) (paid date : Option String)
    (h : IsPathString b.name) :
    sendPaymentsToDatabase (some u) (some b) paid date =
      .ok (match paid, date with
        | some paid, some date => some { node := paymentsNode u b.name,
                                         fields := [("Amount paid", paid), ("Date", date)] }
        | _, _ => none) := by
  simp only [sendPaymentsToDatabase, child_payments, child_ok h, paymentsNode, bind, Except.bind,
    unwrap_some, Uid.child_text]
  split <;> rfl

theorem retrievePayments_ok (u : Uid) (b : Borrower) (h : IsPathString b.name) :
    retrievePayments (some u) (some b) = .ok (paymentsNode u b.name) := by
  simp [retrievePayments, child_payments, child_ok h, paymentsNode, bind, Except.bind]

theorem sendPaymentsToDatabase_raises (u : Uid) (b : Borrower) (paid date : Option String)
    (h : ¬ IsPathString b.name) :
    sendPaymentsToDatabase (some u) (some b) paid date = .error .invalidPath := by
  simp [sendPaymentsToDatabase, child_payments, child_error h, bind, Except.bind]

theorem retrievePayments_raises (u : Uid) (b : Borrower) (h : ¬ IsPathString b.name) :
    retrievePayments (some u) (some b) = .error .invalidPath := by
  simp [retrievePayments, child_payments, child_error h, bind, Except.bind]

/-! ## Records -/

/-- The value that `sendBorrowersToDatabase` writes. -/
def borrowerRecord (name debt : String) : Database := ofDictionary [("name", name), ("debt", debt)]

/-- The value that `sendPaymentsToDatabase` writes. -/
def paymentRecord (paid date : String) : Database :=
  ofDictionary [("Amount paid", paid), ("Date", date)]

theorem borrowerRecord_eq (name debt : String) :
    borrowerRecord name debt = .dict [(⟨"debt"⟩, .leaf debt), (⟨"name"⟩, .leaf name)] := by
  have h : (⟨"debt"⟩ : Key) < ⟨"name"⟩ := by decide
  simp [borrowerRecord, ofDictionary, put, h]

theorem paymentRecord_eq (paid date : String) :
    paymentRecord paid date = .dict [(⟨"Amount paid"⟩, .leaf paid), (⟨"Date"⟩, .leaf date)] := by
  have h : (⟨"Amount paid"⟩ : Key) < ⟨"Date"⟩ := by decide
  simp [paymentRecord, ofDictionary, put, not_lt_of_gt h, ne_of_gt h]

/-- An observer reads back what the other screen wrote. -/
@[simp] theorem borrowerAdded_record (k : Key) (name debt : String) :
    borrowerAdded (k, borrowerRecord name debt) = .ok { ref := k, name, debt } := by
  rw [borrowerRecord_eq]
  rfl

@[simp] theorem paymentAdded_record (k : Key) (paid date : String) :
    paymentAdded (k, paymentRecord paid date) = .ok { amountPaid := paid, dateOfPayment := date } := by
  rw [paymentRecord_eq]
  rfl

end SharkCollector
