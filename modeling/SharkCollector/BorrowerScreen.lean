-- The borrower screen (BorrowerViewController) and the payments list behind it.
-- A payment takes its amount from the text field and its date from a string
-- that only the date picker's action sets, and the list opens either way. A
-- borrower's name is a value when it is added and a path when it is used.
import SharkCollector.BorrowersTable
import SharkCollector.PaymentsTable
import Mathlib.Data.List.ReduceOption

namespace SharkCollector

open Runs

/-! ## The controllers -/

/-- The borrower screen, with the text of its field and the date that its picker shows. -/
structure BorrowerViewController (Date : Type) where
  borrowerAtIndex : Option Borrower
  paymentTextfield : Option String := some ""
  datePicker : Date
  dateDisplayed : Option String := none

variable {Date : Type}

namespace BorrowerViewController

/-- The picker moves to a date and calls `pickedDateOfPayment`. -/
def pickedDateOfPayment (description : Date → String) (vc : BorrowerViewController Date)
    (date : Date) : BorrowerViewController Date :=
  { vc with datePicker := date, dateDisplayed := some (description date) }

/-- The payments list that `prepare(for: toPaymentsTVC)` sets up. -/
def prepareForPaymentsTVC (vc : BorrowerViewController Date) : PaymentsTableViewController :=
  { borrowerAtIndex := vc.borrowerAtIndex }

/-- What a tap on Add Payment submits, and the payments list it goes on to. -/
def addPaymentButtonTapped (currentUser : Option Uid) (vc : BorrowerViewController Date) :
    Except Fault (Option Push × Option PaymentsTableViewController) :=
  if vc.paymentTextfield = some "" then return (none, none)
  else do
    let push ← sendPaymentsToDatabase currentUser vc.borrowerAtIndex vc.paymentTextfield
      vc.dateDisplayed
    return (push, some vc.prepareForPaymentsTVC)

end BorrowerViewController

/-- What the user does on the borrower screen. -/
inductive PaymentEvent (Date : Type) where
  | editAmount (text : String)
  | moveDatePicker (date : Date)
  | addPaymentButtonTapped
  | paymentsFolderButtonTapped
  | returnFromPayments

open BorrowerViewController

/-- The result of each tap on Add Payment in a run of the screen, in order. The
folder opens the list and the return closes it, and neither changes the screen. -/
def addPaymentTaps (description : Date → String) (currentUser : Option Uid) :
    BorrowerViewController Date → List (PaymentEvent Date) →
      Except Fault (List (Option Push × Option PaymentsTableViewController))
  | _, [] => return []
  | vc, .editAmount text :: es =>
    addPaymentTaps description currentUser { vc with paymentTextfield := some text } es
  | vc, .moveDatePicker date :: es =>
    addPaymentTaps description currentUser (pickedDateOfPayment description vc date) es
  | vc, .addPaymentButtonTapped :: es => do
    let tap ← vc.addPaymentButtonTapped currentUser
    let taps ← addPaymentTaps description currentUser vc es
    return tap :: taps
  | vc, .paymentsFolderButtonTapped :: es => addPaymentTaps description currentUser vc es
  | vc, .returnFromPayments :: es => addPaymentTaps description currentUser vc es

/-! ## What the taps ask for -/

/-- For each tap on Add Payment, in order: the amount and the date that the
screen shows, or none when the amount is empty. -/
def askedPayments (description : Date → String) :
    String → Date → List (PaymentEvent Date) → List (Option (String × String))
  | _, _, [] => []
  | _, date, .editAmount text :: es => askedPayments description text date es
  | text, _, .moveDatePicker date :: es => askedPayments description text date es
  | text, date, .addPaymentButtonTapped :: es =>
    (if text = "" then none else some (text, description date)) ::
      askedPayments description text date es
  | text, date, .paymentsFolderButtonTapped :: es => askedPayments description text date es
  | text, date, .returnFromPayments :: es => askedPayments description text date es

/-- The record of a payment of borrower `b`. -/
def paymentPush (u : Uid) (b : Borrower) (asked : String × String) : Push :=
  { node := paymentsNode u b.name, fields := [("Amount paid", asked.1), ("Date", asked.2)] }

/-- The screen submits one record for each tap with an amount, in order, and
goes on to the payments list exactly at these taps. -/
def RecordsEveryPayment (description : Date → String) (u : Uid) (b : Borrower)
    (initialDate : Date) (run : List (PaymentEvent Date)) : Prop :=
  ∃ taps, addPaymentTaps description (some u)
      { borrowerAtIndex := some b, datePicker := initialDate } run = .ok taps ∧
    taps.filterMap (·.1) =
      (askedPayments description "" initialDate run).reduceOption.map (paymentPush u b) ∧
    taps.map (·.2) = (askedPayments description "" initialDate run).map
      fun asked => asked.map fun _ => { borrowerAtIndex := some b }

/-- Each tap on Add Payment with an amount comes after a move of the date picker. -/
def MovesPickerFirst : String → Bool → List (PaymentEvent Date) → Prop
  | _, _, [] => True
  | _, moved, .editAmount text :: es => MovesPickerFirst text moved es
  | text, _, .moveDatePicker _ :: es => MovesPickerFirst text true es
  | text, moved, .addPaymentButtonTapped :: es =>
    (text ≠ "" → moved = true) ∧ MovesPickerFirst text moved es
  | text, moved, .paymentsFolderButtonTapped :: es => MovesPickerFirst text moved es
  | text, moved, .returnFromPayments :: es => MovesPickerFirst text moved es

/-! ## The taps of a run -/

section Taps
variable (description : Date → String) (u : Uid) (b : Borrower)

/-- The screen with a text, a date and a picker that was moved or not. -/
def screenAt (text : String) (date : Date) (moved : Bool) : BorrowerViewController Date where
  borrowerAtIndex := some b
  paymentTextfield := some text
  datePicker := date
  dateDisplayed := if moved then some (description date) else none

/-- What the code does at each tap: without a move of the picker there is no record. -/
def tapResults : String → Date → Bool → List (PaymentEvent Date) →
    List (Option Push × Option PaymentsTableViewController)
  | _, _, _, [] => []
  | _, date, moved, .editAmount text :: es => tapResults text date moved es
  | text, _, _, .moveDatePicker date :: es => tapResults text date true es
  | text, date, moved, .addPaymentButtonTapped :: es =>
    (if text = "" then (none, none)
      else (if moved then some (paymentPush u b (text, description date)) else none,
        some { borrowerAtIndex := some b })) :: tapResults text date moved es
  | text, date, moved, .paymentsFolderButtonTapped :: es => tapResults text date moved es
  | text, date, moved, .returnFromPayments :: es => tapResults text date moved es

theorem addPaymentButtonTapped_screenAt (h : IsPathString b.name) (text : String) (date : Date)
    (moved : Bool) :
    (screenAt description b text date moved).addPaymentButtonTapped (some u) =
      .ok (if text = "" then (none, none)
        else (if moved then some (paymentPush u b (text, description date)) else none,
          some { borrowerAtIndex := some b })) := by
  unfold addPaymentButtonTapped screenAt
  by_cases ht : text = ""
  · simp [ht, pure, Except.pure]
  · cases moved with
    | true =>
      simp [ht, sendPaymentsToDatabase_eq u b _ _ h, paymentPush, prepareForPaymentsTVC, bind,
        Except.bind, pure, Except.pure]
    | false =>
      simp [ht, sendPaymentsToDatabase_eq u b _ _ h, prepareForPaymentsTVC, bind, Except.bind,
        pure, Except.pure]

theorem addPaymentTaps_screenAt (h : IsPathString b.name) (run : List (PaymentEvent Date))
    (text : String) (date : Date) (moved : Bool) :
    addPaymentTaps description (some u) (screenAt description b text date moved) run =
      .ok (tapResults description u b text date moved run) := by
  induction run generalizing text date moved with
  | nil => rfl
  | cons e es ih =>
    cases e with
    | editAmount t => exact ih t date moved
    | moveDatePicker d => exact ih text d true
    | addPaymentButtonTapped =>
      simp only [addPaymentTaps, tapResults, addPaymentButtonTapped_screenAt description u b h, ih]
      rfl
    | paymentsFolderButtonTapped => exact ih text date moved
    | returnFromPayments => exact ih text date moved

/-- The list opens at each tap with an amount, with or without a record. -/
theorem tapResults_opened (run : List (PaymentEvent Date)) (text : String) (date : Date)
    (moved : Bool) :
    (tapResults description u b text date moved run).map (·.2) =
      (askedPayments description text date run).map
        fun asked => asked.map fun _ => { borrowerAtIndex := some b } := by
  induction run generalizing text date moved with
  | nil => rfl
  | cons e es ih =>
    cases e with
    | editAmount t => exact ih t date moved
    | moveDatePicker d => exact ih text d true
    | addPaymentButtonTapped =>
      simp only [tapResults, askedPayments, List.map_cons, ih]
      split <;> rfl
    | paymentsFolderButtonTapped => exact ih text date moved
    | returnFromPayments => exact ih text date moved

/-- No run submits more records than its taps ask for. -/
theorem length_tapResults_le (run : List (PaymentEvent Date)) (text : String) (date : Date)
    (moved : Bool) :
    ((tapResults description u b text date moved run).filterMap (·.1)).length ≤
      (askedPayments description text date run).reduceOption.length := by
  induction run generalizing text date moved with
  | nil => simp [tapResults]
  | cons e es ih =>
    cases e with
    | editAmount t => exact ih t date moved
    | moveDatePicker d => exact ih text d true
    | addPaymentButtonTapped =>
      have hrest := ih text date moved
      simp only [tapResults, askedPayments]
      by_cases ht : text = ""
      · simpa [ht] using hrest
      · cases moved with
        | true => simpa [ht] using hrest
        | false =>
          simp only [ht, if_false, Bool.false_eq_true, List.filterMap_cons,
            List.reduceOption_cons_of_some, List.length_cons]
          omega
    | paymentsFolderButtonTapped => exact ih text date moved
    | returnFromPayments => exact ih text date moved

theorem tapResults_submitted_iff (run : List (PaymentEvent Date)) (text : String) (date : Date)
    (moved : Bool) :
    (tapResults description u b text date moved run).filterMap (·.1) =
        (askedPayments description text date run).reduceOption.map (paymentPush u b) ↔
      MovesPickerFirst text moved run := by
  induction run generalizing text date moved with
  | nil => simp [tapResults, askedPayments, MovesPickerFirst]
  | cons e es ih =>
    cases e with
    | editAmount t => exact ih t date moved
    | moveDatePicker d => exact ih text d true
    | addPaymentButtonTapped =>
      simp only [tapResults, askedPayments, MovesPickerFirst]
      by_cases ht : text = ""
      · simpa [ht] using ih "" date moved
      · cases moved with
        | true => simpa [ht] using ih text date true
        | false =>
          -- The tap asks for a record and submits none, so the two lists have different lengths.
          have hlen := length_tapResults_le description u b es text date false
          simp only [ht, if_false, Bool.false_eq_true, ne_eq, not_false_eq_true, true_imp_iff,
            false_and, iff_false, List.filterMap_cons, List.reduceOption_cons_of_some, List.map_cons]
          intro he
          have := congrArg List.length he
          simp only [List.length_cons, List.length_map] at this
          omega
    | paymentsFolderButtonTapped => exact ih text date moved
    | returnFromPayments => exact ih text date moved

end Taps

/-- Every run of the screen records each confirmed payment exactly when the
user moves the date picker before the first of them. -/
theorem every_payment_is_recorded_iff_the_picker_moves_first (description : Date → String)
    (u : Uid) (b : Borrower) (h : IsPathString b.name) (initialDate : Date)
    (run : List (PaymentEvent Date)) :
    RecordsEveryPayment description u b initialDate run ↔ MovesPickerFirst "" false run := by
  have hrun := addPaymentTaps_screenAt description u b h run "" initialDate false
  have hopen := tapResults_opened description u b run "" initialDate false
  rw [← tapResults_submitted_iff description u b run "" initialDate false]
  constructor
  · rintro ⟨taps, htaps, hsub, -⟩
    have heq : taps = tapResults description u b "" initialDate false run :=
      Except.ok.inj (htaps.symm.trans hrun)
    rw [← heq]
    exact hsub
  · intro hsub
    exact ⟨_, hrun, hsub, hopen⟩

theorem a_payment_after_a_pick_is_recorded :
    RecordsEveryPayment id alice ⟨⟨"-K1"⟩, "Ann", "10"⟩ "2017-10-10 16:58:34 +0000"
      [.editAmount "50", .moveDatePicker "2017-10-11 16:58:34 +0000", .addPaymentButtonTapped] :=
  (every_payment_is_recorded_iff_the_picker_moves_first id alice ⟨⟨"-K1"⟩, "Ann", "10"⟩ (by decide)
    _ _).mpr (by simp [MovesPickerFirst])

/-- The picker shows its initial date, the user enters 50 and taps Add Payment: the
list opens, and nothing is submitted. -/
theorem a_payment_on_the_initial_date_is_dropped :
    ¬ RecordsEveryPayment id alice ⟨⟨"-K1"⟩, "Ann", "10"⟩ "2017-10-10 16:58:34 +0000"
      [.editAmount "50", .addPaymentButtonTapped] := by
  rintro ⟨taps, htaps, hsub, -⟩
  have hnone : taps = [(none, some { borrowerAtIndex := some ⟨⟨"-K1"⟩, "Ann", "10"⟩ })] := by
    apply Except.ok.inj
    rw [← htaps]
    decide
  rw [hnone] at hsub
  exact absurd hsub (by decide)

/-! ## From the Add button to the payments -/

section AddedBorrower
variable (F : Foundation) (u : Uid) (name debt : String) (key : Key) (db : Database)
  (table : BorrowersTableViewController) (later : List TableEvent) (date : Date)

/-- The way of an added borrower: the Add button writes it under `key`, the
observer of the borrowers table takes it, more events may follow, and a tap on
its row passes it to the borrower screen. -/
def openAddedBorrower : Except Fault (BorrowerViewController Date) := do
  let push ← sendBorrowersToDatabase (some u) (some name) (some debt)
  let borrowersDB ← retrieveBorrowersFromDatabase (some u)
  let value ← unwrap ((push.setValue key db).get (borrowersDB ++ [key]))
  let added ← borrowerAdded (key, value)
  let table' := exec (TableEvent.handle F) (table.childAdded added) later
  let borrower ← (table'.didSelectRowAt table.borrowers.length).prepareForBorrowerVC
  return { borrowerAtIndex := some borrower, datePicker := date }

/-- The added borrower opens, and both uses of its name as a path go through:
the one of `sendPaymentsToDatabase` and the one of `retrievePayments`. -/
def CanBeUsed : Prop :=
  ∃ vc, openAddedBorrower F u name debt key db table later date = .ok vc ∧
    (∀ text dateDisplayed, ∃ push,
      sendPaymentsToDatabase (some u) vc.borrowerAtIndex text dateDisplayed = .ok push) ∧
    ∃ paymentDB, retrievePayments (some u) vc.prepareForPaymentsTVC.borrowerAtIndex = .ok paymentDB

theorem openAddedBorrower_eq :
    openAddedBorrower F u name debt key db table later date =
      .ok { borrowerAtIndex := some ⟨key, name, debt⟩, datePicker := date } := by
  have hget : (Push.setValue ⟨borrowersNode u, [("name", name), ("debt", debt)]⟩ key db).get
      (borrowersNode u ++ [key]) = some (borrowerRecord name debt) := PathTree.get_set_self _ _ _
  have hrow : (exec (TableEvent.handle F) (table.childAdded ⟨key, name, debt⟩) later).borrowers[
      table.borrowers.length]? = some ⟨key, name, debt⟩ := by
    have hpre := borrowers_prefix_exec F later (table.childAdded ⟨key, name, debt⟩)
    rw [List.prefix_iff_getElem?.mp hpre table.borrowers.length (by simp)]
    simp
  have hprep : ((exec (TableEvent.handle F) (table.childAdded ⟨key, name, debt⟩) later).didSelectRowAt
      table.borrowers.length).prepareForBorrowerVC = .ok ⟨key, name, debt⟩ := subscript_eq_ok.mpr hrow
  simp only [openAddedBorrower, sendBorrowersToDatabase_some, retrieveBorrowersFromDatabase_some,
    bind, Except.bind, hget, unwrap_some, borrowerAdded_record, hprep]
  rfl

/-- A borrower that the app accepts can be used exactly when its name holds
none of the characters that a path refuses. -/
theorem an_added_borrower_can_be_used_iff_its_name_is_a_path :
    CanBeUsed F u name debt key db table later date ↔ IsPathString name := by
  unfold CanBeUsed
  rw [openAddedBorrower_eq]
  constructor
  · rintro ⟨vc, hvc, -, node, hnode⟩
    cases Except.ok.inj hvc
    by_contra hname
    have hraise := retrievePayments_raises u ⟨key, name, debt⟩ hname
    rw [prepareForPaymentsTVC, hraise] at hnode
    cases hnode
  · intro hname
    exact ⟨_, rfl,
      fun text dateDisplayed => ⟨_, sendPaymentsToDatabase_eq u _ text dateDisplayed hname⟩,
      _, retrievePayments_ok u ⟨key, name, debt⟩ hname⟩

end AddedBorrower

/-- A name with a point is accepted and stored, and its first use as a path raises. -/
theorem a_name_with_a_point_is_accepted_and_raises :
    ¬ CanBeUsed asciiFoundation alice "J. Doe" "20" ⟨"-K1"⟩ PathTree.Node.empty {} []
      "2017-10-10 16:58:34 +0000" := by
  rintro ⟨vc, hvc, -, node, hnode⟩
  rw [openAddedBorrower_eq] at hvc
  cases Except.ok.inj hvc
  have hraise := retrievePayments_raises alice ⟨⟨"-K1"⟩, "J. Doe", "20"⟩ (by decide)
  rw [prepareForPaymentsTVC, hraise] at hnode
  cases hnode

end SharkCollector
