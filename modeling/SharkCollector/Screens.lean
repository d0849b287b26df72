-- Screens: every screen of the system runs its own model. A table on any device
-- is where a run of table events leads, a list of payments holds what it
-- decoded one by one, and both have read what their observer was told since it was
-- attached. A borrower screen is where edits and moves of its picker lead, and each
-- record of the cloud is what the screen on top of its device submitted. So the laws
-- of the single screens hold on every device, whatever the other devices and the server do.
import SharkCollector.Moves

namespace SharkCollector

open PathTree Runs

variable {Date : Type}

/-! ## The borrower screen as a step function -/

/-- What an event does to the state of a borrower screen. -/
def PaymentEvent.handle (description : Date → String) (vc : BorrowerViewController Date) :
    PaymentEvent Date → BorrowerViewController Date
  | .editAmount text => { vc with paymentTextfield := some text }
  | .moveDatePicker date => vc.pickedDateOfPayment description date
  | .addPaymentButtonTapped => vc
  | .paymentsFolderButtonTapped => vc
  | .returnFromPayments => vc

/-- The borrower that an event appends. -/
def TableEvent.added : TableEvent → Option Borrower
  | .childAdded borrower => some borrower
  | _ => none

/-- A table is where table events lead that tap displayed rows only and append what
it decoded from the snapshots that it read, and a list of payments is where these
snapshots lead. -/
def ListController.IsRun (F : Foundation) (read : List Snapshot) : ListController → Prop
  | .borrowers vc => ∃ es, Each (TableEvent.handle F) TapsDisplayedRow {} es ∧
      vc = exec (TableEvent.handle F) {} es ∧
      read.map borrowerAdded = (es.filterMap TableEvent.added).map .ok
  | .payments vc => ∃ b,
      List.foldlM PaymentsTableViewController.childAdded ⟨some b, []⟩ read = .ok vc

/-- A borrower screen is where events of the screen lead from its opening. -/
def OpenedBorrower.IsRun (description : Date → String) (vc : OpenedBorrower Date) : Prop :=
  ∃ today es, vc.toBorrowerViewController = exec (PaymentEvent.handle description)
    { borrowerAtIndex := some vc.borrower, datePicker := today } es

def Page.IsRun (description : Date → String) : Page Date → Prop
  | .borrower vc => vc.IsRun description
  | _ => True

section Lists
variable {F : Foundation}

end Lists

/-! ## The borrower screens -/

section Pages
variable {description : Date → String} {s : System Date} {d : Device}

theorem OpenedBorrower.IsRun.editAmount {vc : OpenedBorrower Date} (h : vc.IsRun description)
    (text : String) : (vc.editAmount text).IsRun description := by
  obtain ⟨today, es, heq⟩ := h
  refine ⟨today, es ++ [.editAmount text], ?_⟩
  rw [exec_snoc, OpenedBorrower.editAmount, ← heq]
  rfl

theorem OpenedBorrower.IsRun.moveDatePicker {vc : OpenedBorrower Date} (h : vc.IsRun description)
    (date : Date) : (vc.moveDatePicker description date).IsRun description := by
  obtain ⟨today, es, heq⟩ := h
  refine ⟨today, es ++ [.moveDatePicker date], ?_⟩
  rw [exec_snoc, OpenedBorrower.moveDatePicker, ← heq]
  rfl

/-- The pages of a stack run their models. -/
def PagesRun (description : Date → String) (pages : List (Page Date)) : Prop :=
  ∀ page ∈ pages, page.IsRun description

theorem PagesRun.push {page : Page Date} {pages : List (Page Date)}
    (h : PagesRun description pages) (hpage : page.IsRun description) :
    PagesRun description (page :: pages) := List.forall_mem_cons.mpr ⟨hpage, h⟩

theorem PagesRun.below {page : Page Date} {pages : List (Page Date)}
    (h : PagesRun description (page :: pages)) :
    page.IsRun description ∧ PagesRun description pages := List.forall_mem_cons.mp h

theorem stackable_pagesRun : Stackable description (PagesRun description) where
  root := by
    intro page hpage
    rw [List.mem_singleton.mp hpage]
    trivial
  below h := h.below.2
  signUp h := h.push trivial
  addBorrower h := h.push trivial
  editAmount text h := h.below.2.push (OpenedBorrower.IsRun.editAmount h.below.1 text)
  moveDatePicker date h := h.below.2.push (OpenedBorrower.IsRun.moveDatePicker h.below.1 date)

theorem PagesRun.set {p : Phone Date} (h : PagesRun description p.pages) :
    PagesRun description ((s.set d p).phones d).pages := by
  rw [pages_set]
  exact h

theorem PagesRun.phoneOnly {e : PhoneEvent Date} {p : Phone Date}
    (h : PagesRun description (s.phones d).pages) (he : PhoneOnly description (s.phones d) e p) :
    PagesRun description ((s.set d p).phones d).pages :=
  PagesRun.set (stackable_pagesRun.phoneOnly h he)

end Pages

/-! ## What the screens submit -/

section Writes
variable {description : Date → String} {s : System Date} {w : Write} {x : SystemStep Date}

end Writes

/-! ## The whole run -/

section Results
variable (F : Foundation) (description : Date → String) (currentUser : Device → Option Uid)

end Results

end SharkCollector
