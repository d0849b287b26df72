-- The system: the whole app on any number of devices over one cloud. A device
-- holds its stack of screens with their state and the sign-in requests in
-- flight, the controllers of its tables and lists are those of the observers in
-- the cloud, and the server acts between any two steps.
import SharkCollector.BorrowerScreen
import SharkCollector.Session
import SharkCollector.Origins

namespace SharkCollector

open PathTree Runs

variable {Date : Type}

/-! ## The screens of a device -/

/-- A borrower screen after its segue: the borrower is passed on, and the text
field holds a text. -/
structure OpenedBorrower (Date : Type) extends BorrowerViewController Date where
  borrower : Borrower
  text : String
  passed : borrowerAtIndex = some borrower
  typed : paymentTextfield = some text

namespace OpenedBorrower

variable (vc : OpenedBorrower Date)

/-- The screen that `prepare(for: toBorrowerVC)` sets up. Its picker shows the day. -/
def forBorrower (borrower : Borrower) (today : Date) : OpenedBorrower Date where
  borrowerAtIndex := some borrower
  datePicker := today
  borrower := borrower
  text := ""
  passed := rfl
  typed := rfl

def editAmount (text : String) : OpenedBorrower Date :=
  { vc with paymentTextfield := some text, text, typed := rfl }

def moveDatePicker (description : Date → String) (date : Date) : OpenedBorrower Date where
  toBorrowerViewController := vc.toBorrowerViewController.pickedDateOfPayment description date
  borrower := vc.borrower
  text := vc.text
  passed := vc.passed
  typed := vc.typed

end OpenedBorrower

/-- The screens of a device. A table and a list of payments are known by the number of their
observer. -/
inductive Page (Date : Type) where
  | signIn
  | signUp (number : Nat)
  | borrowers (observer : Nat) (uid : Uid)
  | addBorrower
  | borrower (vc : OpenedBorrower Date)
  | payments (observer : Nat) (borrowerAtIndex : Borrower)

/-- The screen of a session. -/
def Page.screen : Page Date → Screen
  | .signIn => .signIn
  | .signUp number => .signUp number
  | .borrowers _ uid => .borrowers uid
  | .addBorrower => .addBorrower
  | .borrower vc => .borrower vc.borrower
  | .payments _ b => .payments b

/-- A device. The stack has its top first. -/
structure Phone (Date : Type) where
  pages : List (Page Date) := [.signIn]
  requests : List AuthRequest := []
  signUps : Nat := 0

namespace Phone

variable (p : Phone Date)

def push (page : Page Date) : Phone Date := { p with pages := page :: p.pages }

def request (origin : Screen) : Phone Date := { p with requests := p.requests ++ [{ origin }] }

def signInButtonTapped : Phone Date :=
  match p.pages with
  | .signIn :: _ => p.request .signIn
  | _ => p

def signUpButtonTapped : Phone Date :=
  match p.pages with
  | .signIn :: _ => { p.push (.signUp p.signUps) with signUps := p.signUps + 1 }
  | _ => p

def createAccountButtonTapped (password confirmPassword : String) : Phone Date :=
  match p.pages with
  | .signUp number :: _ => if password = confirmPassword then p.request (.signUp number) else p
  | _ => p

def authFailed (i : Nat) : Phone Date :=
  match p.requests[i]? with
  | some { user := none, .. } => { p with requests := p.requests.eraseIdx i }
  | _ => p

def addButtonTapped : Phone Date :=
  match p.pages with
  | .borrowers _ _ :: _ => p.push .addBorrower
  | _ => p

def editAmount (text : String) : Phone Date :=
  match p.pages with
  | .borrower vc :: below => { p with pages := .borrower (vc.editAmount text) :: below }
  | _ => p

def moveDatePicker (description : Date → String) (date : Date) : Phone Date :=
  match p.pages with
  | .borrower vc :: below => { p with pages := .borrower (vc.moveDatePicker description date) :: below }
  | _ => p

/-- The back button. The root has none, and on the borrowers table Logout takes its place. -/
def back : Phone Date :=
  match p.pages with
  | .signUp _ :: below => { p with pages := below }
  | .addBorrower :: below => { p with pages := below }
  | .borrower _ :: below => { p with pages := below }
  | .payments _ _ :: below => { p with pages := below }
  | _ => p

end Phone

/-! ## The tables in the cloud -/

/-- The table of an observer. -/
def Cloud.table (s : Cloud) (i : Nat) : Option BorrowersTableViewController :=
  match s.observers[i]? with
  | some { controller := .borrowers vc, .. } => some vc
  | _ => none

def Cloud.setTable (s : Cloud) (i : Nat) (vc : BorrowersTableViewController) : Cloud :=
  { s with observers := s.observers.modify i fun o => { o with controller := .borrowers vc } }

/-! ## The system -/

structure System (Date : Type) where
  cloud : Cloud
  phones : Device → Phone Date := fun _ => {}

namespace System

variable (s : System Date) (d : Device)

def set (p : Phone Date) : System Date := { s with phones := Function.update s.phones d p }

/-- A function that reads or writes the database. -/
def call (a : CloudStep) : System Date := { s with cloud := a.apply s.cloud }

/-- What a device does after a call, unless the call trapped. -/
def goOn (next : System Date → System Date) : System Date :=
  if d ∈ s.cloud.crashed then s else next s

/-- The segue to a new borrowers table, whose `viewDidLoad` retrieves the borrowers. -/
def toBorrowersTVC : System Date :=
  (s.call (.borrowersViewDidLoad d)).goOn d fun t =>
    match s.cloud.currentUser d with
    | some uid => t.set d ((t.phones d).push (.borrowers s.cloud.observers.length uid))
    | none => t

/-- The segue to a new list of payments, whose `viewDidLoad` retrieves the payments. -/
def toPaymentsTVC (borrowerAtIndex : Borrower) : System Date :=
  (s.call (.paymentsViewDidLoad d borrowerAtIndex)).goOn d fun t =>
    t.set d ((t.phones d).push (.payments s.cloud.observers.length borrowerAtIndex))

def authSucceeded (i : Nat) (user : Uid) : System Date :=
  match (s.phones d).requests[i]? with
  | some { origin, user := none } =>
    (s.call (.signedIn d user)).set d { s.phones d with
      requests := (s.phones d).requests.set i { origin, user := some user } }
  | _ => s

def authCompleted (i : Nat) (shown : Bool) : System Date :=
  match (s.phones d).requests[i]? with
  | some { origin, user := some _ } =>
    let s := s.set d { s.phones d with requests := (s.phones d).requests.eraseIdx i }
    if origin ∈ (s.phones d).pages.map Page.screen ∨ shown then s.toBorrowersTVC d else s
  | _ => s

/-- Logout pops to the root whether `signOut` succeeds or throws. The popped
controllers keep their observers. -/
def logoutButtonTapped (signedOut : Bool) : System Date :=
  match (s.phones d).pages with
  | .borrowers _ _ :: _ =>
    (if signedOut then s.call (.signedOut d) else s).set d { s.phones d with pages := [.signIn] }
  | _ => s

/-- The table on top of a device's screens, with the number of its observer. -/
def topTable : Option (Nat × BorrowersTableViewController) :=
  match (s.phones d).pages with
  | .borrowers i _ :: _ => (s.cloud.table i).map fun vc => (i, vc)
  | _ => none

/-- The table on top takes an event of its search bar. -/
def onTable (F : Foundation) (e : TableEvent) : System Date :=
  match s.topTable d with
  | some (i, vc) => { s with cloud := s.cloud.setTable i (e.handle F vc) }
  | none => s

/-- A tap on a row that the table displays, and the segue to the borrower screen. -/
def didSelectRowAt (row : Nat) (today : Date) : System Date :=
  match s.topTable d with
  | some (i, vc) =>
    if row < vc.reloadedRows then
      let t := { s with cloud := s.cloud.setTable i (vc.didSelectRowAt row) }
      match (vc.didSelectRowAt row).prepareForBorrowerVC with
      | .ok b => t.set d ((t.phones d).push (.borrower (.forBorrower b today)))
      | .error _ => { t with cloud := t.cloud.crash d }
    else s
  | none => s

def addBorrowerButtonTapped (name debt : String) (key : Key) : System Date :=
  match (s.phones d).pages with
  | .addBorrower :: below =>
    (s.call (.sendBorrower d name debt key)).goOn d fun t =>
      t.set d { t.phones d with pages := below }
  | _ => s

def addPaymentButtonTapped (key : Key) : System Date :=
  match (s.phones d).pages with
  | .borrower vc :: _ =>
    if vc.text = "" then s
    else
      (s.call (.sendPayment d vc.borrower vc.text vc.dateDisplayed key)).goOn d fun t =>
        t.toPaymentsTVC d vc.borrower
  | _ => s

def paymentsFolderButtonTapped : System Date :=
  match (s.phones d).pages with
  | .borrower vc :: _ => s.toPaymentsTVC d vc.borrower
  | _ => s

end System

/-- What happens on a device. A send carries the key that `childByAutoId` gives. -/
inductive PhoneEvent (Date : Type) where
  | signInButtonTapped
  | signUpButtonTapped
  | createAccountButtonTapped (password confirmPassword : String)
  | authSucceeded (i : Nat) (user : Uid)
  | authFailed (i : Nat)
  | authCompleted (i : Nat) (shown : Bool)
  | logoutButtonTapped (signedOut : Bool)
  | textDidChange (searchText : String)
  | searchBarSearchButtonClicked
  | didSelectRowAt (row : Nat) (today : Date)
  | addButtonTapped
  | addBorrowerButtonTapped (name debt : String) (key : Key)
  | editAmount (text : String)
  | moveDatePicker (date : Date)
  | addPaymentButtonTapped (key : Key)
  | paymentsFolderButtonTapped
  | back

section Steps
variable (F : Foundation) (description : Date → String)

def PhoneEvent.handle (s : System Date) (d : Device) : PhoneEvent Date → System Date
  | .signInButtonTapped => s.set d (s.phones d).signInButtonTapped
  | .signUpButtonTapped => s.set d (s.phones d).signUpButtonTapped
  | .createAccountButtonTapped password confirm =>
    s.set d ((s.phones d).createAccountButtonTapped password confirm)
  | .authSucceeded i user => s.authSucceeded d i user
  | .authFailed i => s.set d ((s.phones d).authFailed i)
  | .authCompleted i shown => s.authCompleted d i shown
  | .logoutButtonTapped signedOut => s.logoutButtonTapped d signedOut
  | .textDidChange text => s.onTable d F (.textDidChange text)
  | .searchBarSearchButtonClicked => s.onTable d F .searchBarSearchButtonClicked
  | .didSelectRowAt row today => s.didSelectRowAt d row today
  | .addButtonTapped => s.set d (s.phones d).addButtonTapped
  | .addBorrowerButtonTapped name debt key => s.addBorrowerButtonTapped d name debt key
  | .editAmount text => s.set d ((s.phones d).editAmount text)
  | .moveDatePicker date => s.set d ((s.phones d).moveDatePicker description date)
  | .addPaymentButtonTapped key => s.addPaymentButtonTapped d key
  | .paymentsFolderButtonTapped => s.paymentsFolderButtonTapped d
  | .back => s.set d (s.phones d).back

inductive SystemStep (Date : Type) where
  | app (d : Device) (e : PhoneEvent Date)
  | accepted (key : Key)
  | rejected (key : Key)
  | deliver (i : Nat)

/-- Nothing happens any more on a device whose app has ended. -/
def SystemStep.apply (s : System Date) : SystemStep Date → System Date
  | .app d e => if d ∈ s.cloud.crashed then s else e.handle F description s d
  | .accepted key => s.call (.accepted key)
  | .rejected key => s.call (.rejected key)
  | .deliver i => s.call (.deliver i)

end Steps

end SharkCollector
