-- The cloud: any number of devices on one database. A write is visible on its
-- own device at once and everywhere once the server accepts it, and a write
-- that the server rejects is taken back. Each observer has the events of its node in an
-- inbox until they are delivered, and no screen ever detaches its observer.
import SharkCollector.BorrowersTable
import SharkCollector.PaymentsTable
import Mathlib.Data.Set.Defs

namespace SharkCollector

open PathTree Runs

/-! ## Writes -/

abbrev Device := Nat

/-- A `setValue` of a device, with the key that `childByAutoId` gave it. -/
structure Write where
  device : Device
  push : Push
  key : Key
deriving DecidableEq

namespace Write

def location (w : Write) : Reference := w.push.node ++ [w.key]

def value (w : Write) : Database := ofDictionary w.push.fields

def apply (db : Database) (w : Write) : Database := w.push.setValue w.key db

theorem apply_eq (db : Database) (w : Write) : apply db w = db.set w.location w.value := rfl

end Write

/-- The database that a list of writes makes. -/
def tree (ws : List Write) : Database := exec Write.apply Node.empty ws

theorem tree_snoc (ws : List Write) (w : Write) : tree (ws ++ [w]) = w.apply (tree ws) :=
  exec_snoc _ _ _

/-! ## Observers -/

inductive ChildEvent where
  | childAdded (snapshot : Snapshot)
  | childRemoved (key : Key)

/-- The events of an observer when the children of its node change. -/
def childEvents (old new : List Snapshot) : List ChildEvent :=
  ((addedChildren new old).map fun c => .childRemoved c.1) ++ (addedChildren old new).map .childAdded

/-- The two controllers that attach an observer. -/
inductive ListController where
  | borrowers (vc : BorrowersTableViewController)
  | payments (vc : PaymentsTableViewController)
deriving DecidableEq

namespace ListController

/-- The app observes `.childAdded` only. -/
def receive (c : ListController) : ChildEvent → Except Fault ListController
  | .childRemoved _ => .ok c
  | .childAdded snapshot =>
    match c with
    | .borrowers vc => do
      let borrower ← borrowerAdded snapshot
      return .borrowers (vc.childAdded borrower)
    | .payments vc => do
      let vc ← vc.childAdded snapshot
      return .payments vc

/-- The controller is that of a borrowers table. -/
def isTable : ListController → Bool
  | .borrowers _ => true
  | .payments _ => false

/-- The array that the controller shows. -/
def array : ListController → List Borrower ⊕ List Payment
  | .borrowers vc => .inl vc.borrowers
  | .payments vc => .inr vc.payments

end ListController

/-- A controller with its observer, on screen or popped. -/
structure Observer where
  device : Device
  node : Reference
  controller : ListController
  inbox : List ChildEvent

def Observer.notify (o : Observer) (old new : Database) : Observer :=
  { o with inbox := o.inbox ++ childEvents (old.childrenAt o.node) (new.childrenAt o.node) }

/-! ## The cloud -/

/-- The devices and the server. The database of the server is what the accepted writes make,
`rejected` are the writes whose completion block got an error, and `autoIds` are
the keys given so far. -/
structure Cloud where
  currentUser : Device → Option Uid := fun _ => none
  accepted : List Write := []
  pending : List Write := []
  rejected : List Write := []
  autoIds : List Key := []
  observers : List Observer := []
  crashed : List Device := []

namespace Cloud

variable (s : Cloud)

/-- The writes that a device sees: the accepted ones and its own pending ones. -/
def visible (d : Device) : List Write := s.accepted ++ s.pending.filter fun w => decide (w.device = d)

def view (d : Device) : Database := tree (s.visible d)

/-- Every observer gets the changes of its device's view since `old`. -/
def notifyAll (old : Cloud) : Cloud :=
  { s with observers := s.observers.map fun o => o.notify (old.view o.device) (s.view o.device) }

/-- A trap ends the app on its device. -/
def crash (d : Device) : Cloud := { s with crashed := d :: s.crashed }

/-- A new controller attaches its observer, which gets every child that exists, in key order. -/
def attach (d : Device) (controller : ListController) : Except Fault Reference → Cloud
  | .error _ => s.crash d
  | .ok node => { s with observers := s.observers ++ [{
      device := d, node, controller, inbox := ((s.view d).childrenAt node).map .childAdded }] }

/-- A device sends a write, sends nothing, or traps. -/
def send (d : Device) (key : Key) (result : Except Fault (Option Push)) : Cloud :=
  let s := { s with autoIds := key :: s.autoIds }
  match result with
  | .ok (some push) => notifyAll { s with pending := s.pending ++ [{ device := d, push, key }] } s
  | .ok none => s
  | .error _ => s.crash d

/-- The pending write with a key. -/
def awaiting (key : Key) : Option Write := s.pending.find? fun w => decide (w.key = key)

/-- The other pending writes. -/
def others (key : Key) : List Write := s.pending.filter fun w => decide (w.key ≠ key)

/-- The server accepts a pending write. -/
def accept (key : Key) : Cloud :=
  match s.awaiting key with
  | some w => notifyAll { s with accepted := s.accepted ++ [w], pending := s.others key } s
  | none => s

/-- The server rejects a pending write, and the device takes it back. The
completion blocks of the app only print the error. -/
def reject (key : Key) : Cloud :=
  match s.awaiting key with
  | some w => notifyAll { s with rejected := s.rejected ++ [w], pending := s.others key } s
  | none => s

/-- The next event of an observer is delivered, unless its app has ended. -/
def deliver (i : Nat) : Cloud :=
  match s.observers[i]? with
  | none => s
  | some o =>
    match o.inbox with
    | [] => s
    | e :: rest =>
      if o.device ∈ s.crashed then s
      else match o.controller.receive e with
      | .ok controller => { s with observers := s.observers.set i { o with controller, inbox := rest } }
      | .error _ => s.crash o.device

/-- What a device does while its app runs. -/
def on (d : Device) (t : Cloud) : Cloud := if d ∈ s.crashed then s else t

end Cloud

inductive CloudStep where
  | signedIn (d : Device) (u : Uid)
  | signedOut (d : Device)
  | borrowersViewDidLoad (d : Device)
  | paymentsViewDidLoad (d : Device) (borrowerAtIndex : Borrower)
  | sendBorrower (d : Device) (name debt : String) (key : Key)
  | sendPayment (d : Device) (borrowerAtIndex : Borrower) (amount : String) (date : Option String)
      (key : Key)
  | accepted (key : Key)
  | rejected (key : Key)
  | deliver (i : Nat)

/-- A logout pops the controllers, which stay attached. -/
def CloudStep.apply (s : Cloud) : CloudStep → Cloud
  | .signedIn d u => s.on d { s with currentUser := Function.update s.currentUser d (some u) }
  | .signedOut d => s.on d { s with currentUser := Function.update s.currentUser d none }
  | .borrowersViewDidLoad d =>
    s.on d (s.attach d (.borrowers {}) (retrieveBorrowersFromDatabase (s.currentUser d)))
  | .paymentsViewDidLoad d b =>
    s.on d (s.attach d (.payments { borrowerAtIndex := some b })
      (retrievePayments (s.currentUser d) (some b)))
  | .sendBorrower d name debt key =>
    s.on d (s.send d key (some <$> sendBorrowersToDatabase (s.currentUser d) (some name) (some debt)))
  | .sendPayment d b amount date key =>
    s.on d (s.send d key (sendPaymentsToDatabase (s.currentUser d) (some b) (some amount) date))
  | .accepted key => s.accept key
  | .rejected key => s.reject key
  | .deliver i => s.deliver i

/-- `childByAutoId` gives a key that it never gave before. -/
def FreshKey (s : Cloud) : CloudStep → Prop
  | .sendBorrower _ _ _ key => key ∉ s.autoIds
  | .sendPayment _ _ _ _ key => key ∉ s.autoIds
  | _ => True

instance (s : Cloud) : (a : CloudStep) → Decidable (FreshKey s a)
  | .sendBorrower _ _ _ key => inferInstanceAs (Decidable (key ∉ s.autoIds))
  | .sendPayment _ _ _ _ key => inferInstanceAs (Decidable (key ∉ s.autoIds))
  | .signedIn .. | .signedOut _ | .borrowersViewDidLoad _ | .paymentsViewDidLoad ..
  | .accepted _ | .rejected _ | .deliver _ => inferInstanceAs (Decidable True)

/-- The key that a step may give to a write. -/
def CloudStep.autoId : CloudStep → Option Key
  | .sendBorrower _ _ _ key => some key
  | .sendPayment _ _ _ _ key => some key
  | _ => none

/-! ## What a step writes -/

/-- A write of a borrower's record under `Borrowers/u`. -/
def Write.IsBorrower (w : Write) (u : Uid) (name debt : String) : Prop :=
  w.push = { node := borrowersNode u, fields := [("name", name), ("debt", debt)] }

/-- A payment written under `Payments/u` through a name. -/
def Write.IsPayment (w : Write) (u : Uid) (name paid date : String) : Prop :=
  w.push = { node := paymentsNode u name, fields := [("Amount paid", paid), ("Date", date)] }

/-- The write of a step, by the user that the running device has when it takes the step. -/
def CloudStep.Writes (s : Cloud) (w : Write) : CloudStep → Prop
  | .sendBorrower d name debt key => d ∉ s.crashed ∧ w.device = d ∧ w.key = key ∧
      ∃ u, s.currentUser d = some u ∧ w.IsBorrower u name debt
  | .sendPayment d b amount date key => d ∉ s.crashed ∧ w.device = d ∧ w.key = key ∧
      IsPathString b.name ∧
        ∃ u day, s.currentUser d = some u ∧ date = some day ∧ w.IsPayment u b.name amount day
  | _ => False

theorem writes_of_sendBorrower {s : Cloud} {d : Device} {name debt : String} {w : Write}
    (h : some <$> sendBorrowersToDatabase (s.currentUser d) (some name) (some debt) =
      .ok (some w.push)) : ∃ u, s.currentUser d = some u ∧ w.IsBorrower u name debt := by
  rcases hu : s.currentUser d with _ | u
  · rw [hu] at h
    cases h
  · rw [hu, sendBorrowersToDatabase_some] at h
    simp only [Functor.map, Except.map, Except.ok.injEq, Option.some.injEq] at h
    exact ⟨u, rfl, h.symm⟩

theorem writes_of_sendPayment {s : Cloud} {d : Device} {b : Borrower} {amount : String}
    {date : Option String} {w : Write}
    (h : sendPaymentsToDatabase (s.currentUser d) (some b) (some amount) date = .ok (some w.push)) :
    IsPathString b.name ∧
      ∃ u day, s.currentUser d = some u ∧ date = some day ∧ w.IsPayment u b.name amount day := by
  rcases hu : s.currentUser d with _ | u
  · rw [hu] at h
    cases h
  · rw [hu] at h
    by_cases hb : IsPathString b.name
    · rw [sendPaymentsToDatabase_eq u b _ _ hb] at h
      rcases date with _ | day
      · cases h
      · simp only [Except.ok.injEq, Option.some.injEq] at h
        exact ⟨hb, u, day, rfl, rfl, h.symm⟩
    · rw [sendPaymentsToDatabase_raises u b _ _ hb] at h
      cases h

/-! ## What a step can do -/

/-- The two kinds of records, the payments through one of the `names` of their account. -/
def Write.Filed (names : Set (Uid × String)) (w : Write) : Prop :=
  (∃ u name debt, w.IsBorrower u name debt) ∨
    ∃ u name paid date, (u, name) ∈ names ∧ w.IsPayment u name paid date

/-- The two places where the app writes, whatever the names of the payments. -/
abbrev Write.WellPlaced (w : Write) : Prop := w.Filed Set.univ

theorem Write.Filed.wellPlaced {names : Set (Uid × String)} {w : Write} (h : w.Filed names) :
    w.WellPlaced := by
  rcases h with h | ⟨u, name, paid, date, -, h⟩
  · exact Or.inl h
  · exact Or.inr ⟨u, name, paid, date, trivial, h⟩

/-- The account and the name that a payment of a step, or its list of payments, goes through. -/
def CloudStep.paymentName (s : Cloud) : CloudStep → Option (Uid × String)
  | .paymentsViewDidLoad d b => (s.currentUser d).map fun u => (u, b.name)
  | .sendPayment d b _ _ _ => (s.currentUser d).map fun u => (u, b.name)
  | _ => none

/-- A new observer of a device: a table of an account, or a list of payments
through one of the `names`. -/
structure Observer.IsNew (names : Set (Uid × String)) (s : Cloud) (o : Observer) : Prop where
  inbox : o.inbox = ((s.view o.device).childrenAt o.node).map .childAdded
  placed : (o.controller = .borrowers {} ∧ ∃ u, o.node = borrowersNode u) ∨
    ∃ u b, (u, b.name) ∈ names ∧ o.controller = .payments { borrowerAtIndex := some b } ∧
      o.node = paymentsNode u b.name

/-- The changes that a step makes. Its payments go through one of the `names`,
and its key is none of the `used` ones. -/
inductive Change (names : Set (Uid × String)) (used : List Key) (s : Cloud) : Cloud → Prop
  | idle (currentUser : Device → Option Uid) (autoIds : List Key) (crashed : List Device)
      (h : ∀ k ∈ s.autoIds, k ∈ autoIds) :
      Change names used s { s with currentUser, autoIds, crashed }
  | attached (o : Observer) (h : o.IsNew names s) :
      Change names used s { s with observers := s.observers ++ [o] }
  | sent (w : Write) (hfiled : w.Filed names) (hfresh : w.key ∉ used) :
      Change names used s (Cloud.notifyAll { s with
        autoIds := w.key :: s.autoIds, pending := s.pending ++ [w] } s)
  | accepted (w : Write) (h : w ∈ s.pending) :
      Change names used s (Cloud.notifyAll { s with
        accepted := s.accepted ++ [w], pending := s.others w.key } s)
  | rejected (w : Write) (h : w ∈ s.pending) :
      Change names used s (Cloud.notifyAll { s with
        rejected := s.rejected ++ [w], pending := s.others w.key } s)
  | delivered (i : Nat) (o : Observer) (e : ChildEvent) (rest : List ChildEvent)
      (controller : ListController) (ho : s.observers[i]? = some o) (hinbox : o.inbox = e :: rest)
      (hreceive : o.controller.receive e = .ok controller) :
      Change names used s { s with
        observers := s.observers.set i { o with controller, inbox := rest } }

section Changes
variable {names : Set (Uid × String)} {used : List Key} {s t : Cloud}

theorem Change.refl (s : Cloud) : Change names used s s :=
  .idle s.currentUser s.autoIds s.crashed fun _ h => h

theorem Change.crash (s : Cloud) (d : Device) : Change names used s (s.crash d) :=
  .idle s.currentUser s.autoIds (d :: s.crashed) fun _ h => h

theorem Change.on {d : Device} (h : d ∉ s.crashed → Change names used s t) :
    Change names used s (s.on d t) := by
  unfold Cloud.on
  split
  · exact .refl s
  · rename_i hd
    exact h hd

theorem Change.attach_borrowers (s : Cloud) (d : Device) :
    Change names used s
      (s.attach d (.borrowers {}) (retrieveBorrowersFromDatabase (s.currentUser d))) := by
  rcases hu : s.currentUser d with _ | u
  · exact .crash s d
  · rw [retrieveBorrowersFromDatabase_some]
    exact .attached _ ⟨rfl, Or.inl ⟨rfl, u, rfl⟩⟩

theorem Change.attach_payments (s : Cloud) (d : Device) {b : Borrower}
    (hname : ∀ u, s.currentUser d = some u → (u, b.name) ∈ names) :
    Change names used s (s.attach d (.payments { borrowerAtIndex := some b })
      (retrievePayments (s.currentUser d) (some b))) := by
  rcases hu : s.currentUser d with _ | u
  · exact .crash s d
  · by_cases hb : IsPathString b.name
    · rw [retrievePayments_ok u b hb]
      exact .attached _ ⟨rfl, Or.inr ⟨u, b, hname u hu, rfl, rfl⟩⟩
    · rw [retrievePayments_raises u b hb]
      exact .crash s d

theorem Change.send {d : Device} {key : Key} (hfresh : key ∉ used)
    {result : Except Fault (Option Push)}
    (hfiled : ∀ push, result = .ok (some push) → Write.Filed names ⟨d, push, key⟩) :
    Change names used s (s.send d key result) := by
  unfold Cloud.send
  rcases result with _ | (_ | push)
  · exact .idle s.currentUser (key :: s.autoIds) (d :: s.crashed) fun _ h => List.mem_cons_of_mem _ h
  · exact .idle s.currentUser (key :: s.autoIds) s.crashed fun _ h => List.mem_cons_of_mem _ h
  · exact .sent ⟨d, push, key⟩ (hfiled push rfl) hfresh

theorem CloudStep.Writes.filed {a : CloudStep} {w : Write} (h : a.Writes s w)
    (hname : ∀ p, a.paymentName s = some p → p ∈ names) : w.Filed names := by
  cases a with
  | sendBorrower d name debt key =>
    obtain ⟨-, -, -, u, -, hw⟩ := h
    exact Or.inl ⟨u, name, debt, hw⟩
  | sendPayment d b amount date key =>
    obtain ⟨-, -, -, -, u, day, hu, -, hw⟩ := h
    exact Or.inr ⟨u, b.name, amount, day, hname _ (by simp [CloudStep.paymentName, hu]), hw⟩
  | _ => cases h

theorem awaiting_eq_some {key : Key} {w : Write} (h : s.awaiting key = some w) :
    w ∈ s.pending ∧ w.key = key :=
  ⟨List.mem_of_find?_eq_some h, by simpa using List.find?_some h⟩

theorem Change.accept (s : Cloud) (key : Key) : Change names used s (s.accept key) := by
  unfold Cloud.accept
  rcases hw : s.awaiting key with _ | w
  · exact .refl s
  · obtain ⟨hmem, rfl⟩ := awaiting_eq_some hw
    exact .accepted w hmem

theorem Change.reject (s : Cloud) (key : Key) : Change names used s (s.reject key) := by
  unfold Cloud.reject
  rcases hw : s.awaiting key with _ | w
  · exact .refl s
  · obtain ⟨hmem, rfl⟩ := awaiting_eq_some hw
    exact .rejected w hmem

theorem Change.deliver (s : Cloud) (i : Nat) : Change names used s (s.deliver i) := by
  unfold Cloud.deliver
  rcases ho : s.observers[i]? with _ | o
  · exact .refl s
  · rcases hinbox : o.inbox with _ | ⟨e, rest⟩
    · simp only [hinbox]
      exact .refl s
    · simp only [hinbox]
      split
      · exact .refl s
      · rcases hreceive : o.controller.receive e with _ | controller
        · exact .crash s o.device
        · exact .delivered i o e rest controller ho hinbox hreceive

theorem change_apply {a : CloudStep} (hfresh : ∀ k, a.autoId = some k → k ∉ used)
    (hname : ∀ p, a.paymentName s = some p → p ∈ names) : Change names used s (a.apply s) := by
  cases a with
  | signedIn d u => exact .on fun _ => .idle _ s.autoIds s.crashed fun _ h => h
  | signedOut d => exact .on fun _ => .idle _ s.autoIds s.crashed fun _ h => h
  | borrowersViewDidLoad d => exact .on fun _ => .attach_borrowers s d
  | paymentsViewDidLoad d b =>
    exact .on fun _ => .attach_payments s d fun u hu =>
      hname _ (by simp [CloudStep.paymentName, hu])
  | sendBorrower d name debt key =>
    refine .on fun hd => .send (hfresh key rfl) fun push hpush => ?_
    have hwrites : CloudStep.Writes s ⟨d, push, key⟩ (.sendBorrower d name debt key) :=
      ⟨hd, rfl, rfl, writes_of_sendBorrower hpush⟩
    exact hwrites.filed hname
  | sendPayment d b amount date key =>
    refine .on fun hd => .send (hfresh key rfl) fun push hpush => ?_
    have hwrites : CloudStep.Writes s ⟨d, push, key⟩ (.sendPayment d b amount date key) :=
      ⟨hd, rfl, rfl, writes_of_sendPayment hpush⟩
    exact hwrites.filed hname
  | accepted key => exact .accept s key
  | rejected key => exact .reject s key
  | deliver i => exact .deliver s i

theorem FreshKey.autoId {a : CloudStep} (h : FreshKey s a) :
    ∀ k, a.autoId = some k → k ∉ s.autoIds := by
  intro k hk
  cases a with
  | sendBorrower d name debt key =>
    cases hk
    exact h
  | sendPayment d b amount date key =>
    cases hk
    exact h
  | _ => cases hk

/-- A step with a fresh key, whatever the names of its payments. -/
theorem FreshKey.change {a : CloudStep} (h : FreshKey s a) :
    Change Set.univ s.autoIds s (a.apply s) := change_apply h.autoId fun _ _ => trivial

end Changes

/-! ## Keys -/

/-- Every write that a device ever made. -/
def Cloud.known (s : Cloud) : List Write := s.accepted ++ s.pending ++ s.rejected

theorem mem_known {s : Cloud} {w : Write} :
    w ∈ s.known ↔ w ∈ s.accepted ∨ w ∈ s.pending ∨ w ∈ s.rejected := by
  simp [Cloud.known]

theorem mem_visible {s : Cloud} {d : Device} {w : Write} :
    w ∈ s.visible d ↔ w ∈ s.accepted ∨ w ∈ s.pending ∧ w.device = d := by
  simp [Cloud.visible]

theorem mem_others {s : Cloud} {key : Key} {w : Write} :
    w ∈ s.others key ↔ w ∈ s.pending ∧ w.key ≠ key := by
  simp [Cloud.others]

theorem mem_known_of_mem_visible {s : Cloud} {d : Device} {w : Write} (h : w ∈ s.visible d) :
    w ∈ s.known := by
  rw [mem_visible] at h
  rw [mem_known]
  rcases h with h | h
  · exact Or.inl h
  · exact Or.inr (Or.inl h.1)

/-- The key of a write belongs to it alone, and a pending write has no answer yet. -/
structure Keyed (s : Cloud) : Prop where
  placed : ∀ w ∈ s.known, w.WellPlaced
  used : ∀ w ∈ s.known, w.key ∈ s.autoIds
  unique : ∀ w ∈ s.known, ∀ v ∈ s.known, w.key = v.key → w = v
  notAccepted : ∀ w ∈ s.pending, w ∉ s.accepted
  notRejected : ∀ w ∈ s.pending, w ∉ s.rejected

theorem keyed_initial (currentUser : Device → Option Uid) : Keyed { currentUser } := by
  refine ⟨?_, ?_, ?_, ?_, ?_⟩ <;> simp [Cloud.known]

/-- The server answers the pending write `w`, one way or the other. -/
structure Answered (s t : Cloud) (w : Write) : Prop where
  mem : w ∈ s.pending
  pending : t.pending = s.others w.key
  answer : t.accepted = s.accepted ++ [w] ∧ t.rejected = s.rejected ∨
    t.accepted = s.accepted ∧ t.rejected = s.rejected ++ [w]
  autoIds : t.autoIds = s.autoIds

/-- The answer to a write changes no known write. -/
theorem Answered.mem_known {s t : Cloud} {w : Write} (h : Keyed s) (ha : Answered s t w) (v : Write) :
    v ∈ t.known ↔ v ∈ s.known := by
  have hsame : v ∈ s.pending → v.key = w.key → v = w := fun hv hkey =>
    h.unique v (SharkCollector.mem_known.mpr (Or.inr (Or.inl hv))) w
      (SharkCollector.mem_known.mpr (Or.inr (Or.inl ha.mem))) hkey
  have hw := ha.mem
  rw [SharkCollector.mem_known, SharkCollector.mem_known, ha.pending, mem_others]
  rcases ha.answer with ⟨hacc, hrej⟩ | ⟨hacc, hrej⟩
  · rw [hacc, hrej, List.mem_append, List.mem_singleton]
    grind
  · rw [hacc, hrej, List.mem_append, List.mem_singleton]
    grind

theorem Keyed.answered {s t : Cloud} {w : Write} (h : Keyed s) (ha : Answered s t w) : Keyed t := by
  have hknown := ha.mem_known h
  refine ⟨?_, ?_, ?_, ?_, ?_⟩
  · intro v hv
    exact h.placed v ((hknown v).mp hv)
  · intro v hv
    rw [ha.autoIds]
    exact h.used v ((hknown v).mp hv)
  · intro v hv v' hv'
    exact h.unique v ((hknown v).mp hv) v' ((hknown v').mp hv')
  · intro v hv hacc
    rw [ha.pending, mem_others] at hv
    rcases ha.answer with ⟨heq, -⟩ | ⟨heq, -⟩
    · rw [heq, List.mem_append, List.mem_singleton] at hacc
      rcases hacc with hacc | rfl
      · exact h.notAccepted v hv.1 hacc
      · exact hv.2 rfl
    · exact h.notAccepted v hv.1 (heq ▸ hacc)
  · intro v hv hrej
    rw [ha.pending, mem_others] at hv
    rcases ha.answer with ⟨-, heq⟩ | ⟨-, heq⟩
    · exact h.notRejected v hv.1 (heq ▸ hrej)
    · rw [heq, List.mem_append, List.mem_singleton] at hrej
      rcases hrej with hrej | rfl
      · exact h.notRejected v hv.1 hrej
      · exact hv.2 rfl

/-- A device sends the write `w`. -/
structure Sent (s t : Cloud) (w : Write) : Prop where
  placed : w.WellPlaced
  fresh : w.key ∉ s.autoIds
  autoIds : t.autoIds = w.key :: s.autoIds
  pending : t.pending = s.pending ++ [w]
  accepted : t.accepted = s.accepted
  rejected : t.rejected = s.rejected

theorem Sent.mem_known {s t : Cloud} {w : Write} (h : Sent s t w) (v : Write) :
    v ∈ t.known ↔ v ∈ s.known ∨ v = w := by
  rw [SharkCollector.mem_known, SharkCollector.mem_known, h.pending, h.accepted, h.rejected,
    List.mem_append, List.mem_singleton]
  grind

theorem Keyed.sent {s t : Cloud} {w : Write} (h : Keyed s) (hsent : Sent s t w) : Keyed t := by
  have hknown := hsent.mem_known
  have hnew : ∀ v ∈ s.known, v.key ≠ w.key := fun v hv he => hsent.fresh (he ▸ h.used v hv)
  refine ⟨?_, ?_, ?_, ?_, ?_⟩
  · intro v hv
    rcases (hknown v).mp hv with hv | rfl
    · exact h.placed v hv
    · exact hsent.placed
  · intro v hv
    rw [hsent.autoIds]
    rcases (hknown v).mp hv with hv | rfl
    · exact List.mem_cons_of_mem _ (h.used v hv)
    · exact List.mem_cons_self
  · intro v hv v' hv' hkey
    rcases (hknown v).mp hv with hv | rfl
    · rcases (hknown v').mp hv' with hv' | rfl
      · exact h.unique v hv v' hv' hkey
      · exact absurd hkey (hnew v hv)
    · rcases (hknown v').mp hv' with hv' | rfl
      · exact absurd hkey.symm (hnew v' hv')
      · rfl
  · intro v hv hmem
    rw [hsent.pending, List.mem_append, List.mem_singleton] at hv
    rw [hsent.accepted] at hmem
    rcases hv with hv | rfl
    · exact h.notAccepted v hv hmem
    · exact hnew v (mem_known.mpr (Or.inl hmem)) rfl
  · intro v hv hmem
    rw [hsent.pending, List.mem_append, List.mem_singleton] at hv
    rw [hsent.rejected] at hmem
    rcases hv with hv | rfl
    · exact h.notRejected v hv hmem
    · exact hnew v (mem_known.mpr (Or.inr (Or.inr hmem))) rfl

theorem Keyed.change {names : Set (Uid × String)} {s t : Cloud} (h : Keyed s)
    (hc : Change names s.autoIds s t) : Keyed t := by
  cases hc with
  | idle currentUser autoIds crashed hids =>
    exact ⟨h.placed, fun w hw => hids _ (h.used w hw), h.unique, h.notAccepted, h.notRejected⟩
  | attached o ho => exact ⟨h.placed, h.used, h.unique, h.notAccepted, h.notRejected⟩
  | sent w hfiled hfresh => exact h.sent ⟨hfiled.wellPlaced, hfresh, rfl, rfl, rfl, rfl⟩
  | accepted w hw => exact h.answered ⟨hw, rfl, Or.inl ⟨rfl, rfl⟩, rfl⟩
  | rejected w hw => exact h.answered ⟨hw, rfl, Or.inr ⟨rfl, rfl⟩, rfl⟩
  | delivered i o e rest controller ho hinbox hreceive =>
    exact ⟨h.placed, h.used, h.unique, h.notAccepted, h.notRejected⟩

end SharkCollector
