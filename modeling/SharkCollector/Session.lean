-- The session: the current user of Auth, the navigation stack and the sign-in
-- requests in flight. Four functions read the current user anew instead of
-- taking it from the screen below. The laws say which runs keep every screen
-- bound to the account of its table, and that each other run can go wrong.
import SharkCollector.Records
import SharkCollector.Runs

namespace SharkCollector

open Runs

/-! ## The app -/

/-- The screens of the storyboard. A borrowers table carries the uid that it
attached its observer under, and a sign-up screen a number, since it can be left and opened anew. -/
inductive Screen where
  | signIn
  | signUp (number : Nat)
  | borrowers (uid : Uid)
  | addBorrower
  | borrower (borrowerAtIndex : Borrower)
  | payments (borrowerAtIndex : Borrower)
deriving DecidableEq

/-- The nearest borrowers table of a stack, the top first. -/
def tableIn : List Screen → Option Uid
  | [] => none
  | .borrowers uid :: _ => some uid
  | _ :: below => tableIn below

/-- A request to Auth. Its callback belongs to the screen `origin`, and `user`
is set once it succeeded. -/
structure AuthRequest where
  origin : Screen
  user : Option Uid := none
deriving DecidableEq

/-- The functions that evaluate `(Auth.auth().currentUser?.uid)!`. -/
inductive Site where
  | retrieveBorrowersFromDatabase
  | sendBorrowersToDatabase
  | sendPaymentsToDatabase
  | retrievePayments
deriving DecidableEq

/-- One evaluation, with the uid of the nearest table in the stack. -/
structure Evaluation where
  site : Site
  currentUser : Option Uid
  boundTo : Option Uid
deriving DecidableEq

/-- The app. The stack has its top first, and a trap ends the app. -/
structure App where
  currentUser : Option Uid
  stack : List Screen := [.signIn]
  requests : List AuthRequest := []
  signUps : Nat := 0
  evaluations : List Evaluation := []
  crashed : Option Fault := none
deriving DecidableEq

namespace App

variable (s : App)

/-- A function reads the current user, and the app goes on or traps. -/
def call {α : Type} (site : Site) (result : Except Fault α) (next : App → App) : App :=
  let s := { s with evaluations := ⟨site, s.currentUser, tableIn s.stack⟩ :: s.evaluations }
  match result with
  | .ok _ => next s
  | .error fault => { s with crashed := some fault }

/-- The segue to a new borrowers table, whose `viewDidLoad` retrieves the borrowers. -/
def toBorrowersTVC : App :=
  s.call .retrieveBorrowersFromDatabase (retrieveBorrowersFromDatabase s.currentUser) fun s =>
    match s.currentUser with
    | some uid => { s with stack := .borrowers uid :: s.stack }
    | none => s

/-- The segue to the payments list, whose `viewDidLoad` retrieves the payments. -/
def toPaymentsTVC (borrowerAtIndex : Borrower) : App :=
  s.call .retrievePayments (retrievePayments s.currentUser (some borrowerAtIndex)) fun s =>
    { s with stack := .payments borrowerAtIndex :: s.stack }

def signInButtonTapped : App :=
  match s.stack with
  | .signIn :: _ => { s with requests := s.requests ++ [{ origin := .signIn }] }
  | _ => s

def signUpButtonTapped : App :=
  match s.stack with
  | .signIn :: _ => { s with stack := .signUp s.signUps :: s.stack, signUps := s.signUps + 1 }
  | _ => s

def createAccountButtonTapped (password confirmPassword : String) : App :=
  match s.stack with
  | .signUp number :: _ =>
    if password = confirmPassword then
      { s with requests := s.requests ++ [{ origin := .signUp number }] }
    else s
  | _ => s

/-- A request succeeds and sets the current user, which can be any account, as
the credentials of the tap can be any. -/
def authSucceeded (i : Nat) (user : Uid) : App :=
  match s.requests[i]? with
  | some { origin, user := none } =>
    { s with currentUser := some user, requests := s.requests.set i { origin, user := some user } }
  | _ => s

/-- A request fails, and its callback shows no other screen. -/
def authFailed (i : Nat) : App :=
  match s.requests[i]? with
  | some { user := none, .. } => { s with requests := s.requests.eraseIdx i }
  | _ => s

/-- The callback of a request that succeeded. The segue of a sign-up screen
that was left in the meantime is shown or not. -/
def authCompleted (i : Nat) (shown : Bool) : App :=
  match s.requests[i]? with
  | some { origin, user := some _ } =>
    let s := { s with requests := s.requests.eraseIdx i }
    if origin ∈ s.stack ∨ shown then s.toBorrowersTVC else s
  | _ => s

/-- Logout pops to the root whether `signOut` succeeds or throws. -/
def logoutButtonTapped (signedOut : Bool) : App :=
  match s.stack with
  | .borrowers _ :: _ =>
    { s with currentUser := if signedOut then none else s.currentUser, stack := [.signIn] }
  | _ => s

def addButtonTapped : App :=
  match s.stack with
  | .borrowers _ :: _ => { s with stack := .addBorrower :: s.stack }
  | _ => s

def addBorrowerButtonTapped (name debt : String) : App :=
  match s.stack with
  | .addBorrower :: below =>
    s.call .sendBorrowersToDatabase (sendBorrowersToDatabase s.currentUser (some name) (some debt))
      fun s => { s with stack := below }
  | _ => s

def didSelectRowAt (borrower : Borrower) : App :=
  match s.stack with
  | .borrowers _ :: _ => { s with stack := .borrower borrower :: s.stack }
  | _ => s

def addPaymentButtonTapped (paymentTextfield : String) (dateDisplayed : Option String) : App :=
  match s.stack with
  | .borrower b :: _ =>
    if paymentTextfield = "" then s
    else
      s.call .sendPaymentsToDatabase
        (sendPaymentsToDatabase s.currentUser (some b) (some paymentTextfield) dateDisplayed)
        fun s => s.toPaymentsTVC b
  | _ => s

def paymentsFolderButtonTapped : App :=
  match s.stack with
  | .borrower b :: _ => s.toPaymentsTVC b
  | _ => s

/-- The back button. The root has none, and on the borrowers table Logout takes its place. -/
def back : App :=
  match s.stack with
  | .signUp _ :: below => { s with stack := below }
  | .addBorrower :: below => { s with stack := below }
  | .borrower _ :: below => { s with stack := below }
  | .payments _ :: below => { s with stack := below }
  | _ => s

end App

inductive AppEvent where
  | signInButtonTapped
  | signUpButtonTapped
  | createAccountButtonTapped (password confirmPassword : String)
  | authSucceeded (i : Nat) (user : Uid)
  | authFailed (i : Nat)
  | authCompleted (i : Nat) (shown : Bool)
  | logoutButtonTapped (signedOut : Bool)
  | addButtonTapped
  | addBorrowerButtonTapped (name debt : String)
  | didSelectRowAt (borrower : Borrower)
  | addPaymentButtonTapped (paymentTextfield : String) (dateDisplayed : Option String)
  | paymentsFolderButtonTapped
  | back

/-- A tap on a button that is not on the top screen changes nothing, and
neither does anything after a trap. -/
def AppEvent.handle (s : App) (e : AppEvent) : App :=
  if s.crashed.isSome then s
  else match e with
  | .signInButtonTapped => s.signInButtonTapped
  | .signUpButtonTapped => s.signUpButtonTapped
  | .createAccountButtonTapped password confirm => s.createAccountButtonTapped password confirm
  | .authSucceeded i user => s.authSucceeded i user
  | .authFailed i => s.authFailed i
  | .authCompleted i shown => s.authCompleted i shown
  | .logoutButtonTapped signedOut => s.logoutButtonTapped signedOut
  | .addButtonTapped => s.addButtonTapped
  | .addBorrowerButtonTapped name debt => s.addBorrowerButtonTapped name debt
  | .didSelectRowAt borrower => s.didSelectRowAt borrower
  | .addPaymentButtonTapped text date => s.addPaymentButtonTapped text date
  | .paymentsFolderButtonTapped => s.paymentsFolderButtonTapped
  | .back => s.back

/-! ## Binding -/

/-- There is a user, and outside of `retrieveBorrowersFromDatabase` it is the
one that the table below was opened for. -/
def Evaluation.Bound (e : Evaluation) : Prop :=
  e.currentUser.isSome ∧ (e.site ≠ .retrieveBorrowersFromDatabase → e.currentUser = e.boundTo)

/-- No evaluation trapped, and each was bound. -/
def SessionBound (s : App) : Prop :=
  s.crashed ≠ some .nilUnwrapped ∧ ∀ e ∈ s.evaluations, e.Bound

instance (e : Evaluation) : Decidable e.Bound := inferInstanceAs (Decidable (_ ∧ _))

instance (s : App) : Decidable (SessionBound s) := inferInstanceAs (Decidable (_ ∧ _))

/-- What keeps a session bound: no request succeeds for another account than
the one of the nearest table, and Logout signs out only when no request that
succeeded waits for its callback. -/
def Orderly (s : App) : AppEvent → Prop
  | .authSucceeded i user =>
    ∀ origin, s.requests[i]? = some { origin } → ∀ uid, tableIn s.stack = some uid → user = uid
  | .logoutButtonTapped true =>
    (∃ uid below, s.stack = .borrowers uid :: below) → ∀ r ∈ s.requests, r.user = none
  | _ => True

/-! ## The invariant -/

/-- The stacks that the storyboard allows: each screen stands on the one whose
button opens it, and a borrowers table on anything. -/
inductive Nested : List Screen → Prop
  | signIn : Nested [.signIn]
  | signUp (number : Nat) : Nested [.signUp number, .signIn]
  | borrowers (uid : Uid) {below : List Screen} : Nested below → Nested (.borrowers uid :: below)
  | addBorrower {uid : Uid} {below : List Screen} :
      Nested (.borrowers uid :: below) → Nested (.addBorrower :: .borrowers uid :: below)
  | borrower (b : Borrower) {uid : Uid} {below : List Screen} :
      Nested (.borrowers uid :: below) → Nested (.borrower b :: .borrowers uid :: below)
  | payments (b : Borrower) {c : Borrower} {below : List Screen} :
      Nested (.borrower c :: below) → Nested (.payments b :: .borrower c :: below)

/-- The current user is the one of the nearest table, and there is one while a
request that succeeded waits for its callback. -/
structure Settled (s : App) : Prop where
  nested : Nested s.stack
  table : ∀ uid, tableIn s.stack = some uid → s.currentUser = some uid
  waiting : ∀ r ∈ s.requests, r.user.isSome → s.currentUser.isSome
  bound : SessionBound s

theorem settled_initial (currentUser : Option Uid) : Settled { currentUser } where
  nested := .signIn
  table := by simp [tableIn]
  waiting := by simp
  bound := ⟨by simp, by simp⟩

theorem Nested.signIn_top {below : List Screen} (h : Nested (.signIn :: below)) : below = [] := by
  cases h
  rfl

theorem Nested.addBorrower_top {below : List Screen} (h : Nested (.addBorrower :: below)) :
    ∃ uid, tableIn below = some uid ∧ Nested below := by
  cases h with
  | addBorrower h => exact ⟨_, rfl, h⟩

theorem Nested.borrower_top {b : Borrower} {below : List Screen} (h : Nested (.borrower b :: below)) :
    ∃ uid, tableIn below = some uid ∧ Nested below := by
  cases h with
  | borrower _ h => exact ⟨_, rfl, h⟩

theorem Nested.payments_top {b : Borrower} {below : List Screen} (h : Nested (.payments b :: below)) :
    ∃ c rest, below = .borrower c :: rest ∧ Nested below := by
  cases h with
  | payments _ h => exact ⟨_, _, rfl, h⟩

section Steps
variable {s : App}

/-- A function that reads a user it is bound to keeps the session settled, if what it goes on with
does. -/
theorem Settled.call {α : Type} (h : Settled s) {site : Site} {result : Except Fault α}
    {next : App → App} (huser : s.currentUser.isSome)
    (hsite : site ≠ .retrieveBorrowersFromDatabase → (tableIn s.stack).isSome)
    (hresult : result ≠ .error .nilUnwrapped)
    (hnext : ∀ t : App,
      Settled t → t.currentUser = s.currentUser → t.stack = s.stack → Settled (next t)) :
    Settled (s.call site result next) := by
  have hlog : Settled { s with evaluations := ⟨site, s.currentUser, tableIn s.stack⟩ :: s.evaluations } := by
    refine ⟨h.nested, h.table, h.waiting, h.bound.1, ?_⟩
    intro e he
    rcases List.mem_cons.mp he with rfl | he
    · refine ⟨huser, fun hne => ?_⟩
      obtain ⟨uid, huid⟩ := Option.isSome_iff_exists.mp (hsite hne)
      simp only [huid]
      exact h.table uid huid
    · exact h.bound.2 e he
  unfold App.call
  rcases result with fault | a
  · exact ⟨hlog.nested, hlog.table, hlog.waiting, by simpa using hresult, hlog.bound.2⟩
  · exact hnext _ hlog rfl rfl

theorem Settled.toBorrowersTVC (h : Settled s) (huser : s.currentUser.isSome) :
    Settled s.toBorrowersTVC := by
  obtain ⟨uid, huid⟩ := Option.isSome_iff_exists.mp huser
  apply h.call huser (fun hne => absurd rfl hne)
  · simp [huid]
  · intro t ht hcurrent _
    simp only [hcurrent, huid]
    exact ⟨.borrowers uid ht.nested, fun _ hv => hv, fun _ _ _ => rfl, ht.bound⟩

theorem retrievePayments_ne_nilUnwrapped (u : Uid) (b : Borrower) :
    retrievePayments (some u) (some b) ≠ .error .nilUnwrapped := by
  by_cases hb : IsPathString b.name
  · simp [retrievePayments_ok u b hb]
  · simp [retrievePayments_raises u b hb]

theorem sendPaymentsToDatabase_ne_nilUnwrapped (u : Uid) (b : Borrower) (paid date : Option String) :
    sendPaymentsToDatabase (some u) (some b) paid date ≠ .error .nilUnwrapped := by
  by_cases hb : IsPathString b.name
  · simp [sendPaymentsToDatabase_eq u b paid date hb]
  · simp [sendPaymentsToDatabase_raises u b paid date hb]

/-- On a screen that stands on a table the user is the one of the table. -/
theorem Settled.user (h : Settled s) {screen : Screen} {below : List Screen} {uid : Uid}
    (htop : s.stack = screen :: below) (hscreen : tableIn (screen :: below) = tableIn below)
    (huid : tableIn below = some uid) : tableIn s.stack = some uid ∧ s.currentUser = some uid := by
  have htable : tableIn s.stack = some uid := by rw [htop, hscreen, huid]
  exact ⟨htable, h.table uid htable⟩

theorem Settled.borrower_user (h : Settled s) {b : Borrower} {below : List Screen}
    (htop : s.stack = .borrower b :: below) :
    ∃ uid, tableIn s.stack = some uid ∧ s.currentUser = some uid := by
  have hnested := h.nested
  rw [htop] at hnested
  obtain ⟨uid, huid, -⟩ := hnested.borrower_top
  exact ⟨uid, h.user htop rfl huid⟩

theorem Settled.toPaymentsTVC (h : Settled s) {b c : Borrower} {below : List Screen}
    (htop : s.stack = .borrower c :: below) : Settled (s.toPaymentsTVC b) := by
  obtain ⟨uid, htable, huser⟩ := h.borrower_user htop
  apply h.call (by simp [huser]) (fun _ => by simp [htable])
  · rw [huser]
    exact retrievePayments_ne_nilUnwrapped uid b
  · intro t ht hcurrent hstack
    refine ⟨?_, ?_, ht.waiting, ht.bound⟩
    · have hnested := h.nested
      rw [htop] at hnested
      rw [hstack, htop]
      exact .payments b hnested
    · intro v hv
      exact ht.table v hv

/-- A new request waits for its answer. -/
theorem Settled.request (h : Settled s) (origin : Screen) :
    Settled { s with requests := s.requests ++ [{ origin }] } := by
  refine ⟨h.nested, h.table, ?_, h.bound⟩
  intro r hr hsome
  rcases List.mem_append.mp hr with hr | hr
  · exact h.waiting r hr hsome
  · rw [List.mem_singleton] at hr
    simp [hr] at hsome

theorem Settled.eraseRequest (h : Settled s) (i : Nat) :
    Settled { s with requests := s.requests.eraseIdx i } :=
  ⟨h.nested, h.table, fun r hr => h.waiting r (List.mem_of_mem_eraseIdx hr), h.bound⟩

/-- A screen that stands on a table stays bound to it. -/
theorem Settled.push (h : Settled s) {screen : Screen} (hnested : Nested (screen :: s.stack))
    (htable : tableIn (screen :: s.stack) = tableIn s.stack) :
    Settled { s with stack := screen :: s.stack } :=
  ⟨hnested, fun uid huid => h.table uid (htable ▸ huid), h.waiting, h.bound⟩

/-- What stands below the top is bound to the same table, when the top is no table. -/
theorem Settled.pop (h : Settled s) {below : List Screen} (hnested : Nested below)
    (htable : tableIn below = tableIn s.stack) : Settled { s with stack := below } :=
  ⟨hnested, fun uid huid => h.table uid (htable ▸ huid), h.waiting, h.bound⟩

theorem Settled.signInButtonTapped (h : Settled s) : Settled s.signInButtonTapped := by
  unfold App.signInButtonTapped
  split
  · exact h.request .signIn
  · exact h

theorem Settled.signUpButtonTapped (h : Settled s) : Settled s.signUpButtonTapped := by
  unfold App.signUpButtonTapped
  split
  · rename_i below htop
    have hnested := h.nested
    rw [htop] at hnested
    obtain rfl := hnested.signIn_top
    rw [htop]
    exact ⟨.signUp _, by simp [tableIn], h.waiting, h.bound⟩
  · exact h

theorem Settled.createAccountButtonTapped (h : Settled s) (password confirmPassword : String) :
    Settled (s.createAccountButtonTapped password confirmPassword) := by
  unfold App.createAccountButtonTapped
  split
  · split
    · exact h.request _
    · exact h
  · exact h

theorem Settled.authSucceeded (h : Settled s) {i : Nat} {user : Uid}
    (horderly : Orderly s (.authSucceeded i user)) : Settled (s.authSucceeded i user) := by
  unfold App.authSucceeded
  split
  · rename_i origin hreq
    refine ⟨h.nested, ?_, fun _ _ _ => rfl, h.bound⟩
    intro uid huid
    rw [horderly origin hreq uid huid]
  · exact h

theorem Settled.authFailed (h : Settled s) (i : Nat) : Settled (s.authFailed i) := by
  unfold App.authFailed
  split
  · exact h.eraseRequest i
  · exact h

theorem Settled.authCompleted (h : Settled s) (i : Nat) (shown : Bool) :
    Settled (s.authCompleted i shown) := by
  unfold App.authCompleted
  split
  · rename_i origin user hreq
    have huser : s.currentUser.isSome := h.waiting _ (List.mem_of_getElem? hreq) rfl
    have herase := h.eraseRequest i
    simp only
    split
    · exact herase.toBorrowersTVC huser
    · exact herase
  · exact h

theorem Settled.logoutButtonTapped (h : Settled s) {signedOut : Bool}
    (horderly : Orderly s (.logoutButtonTapped signedOut)) :
    Settled (s.logoutButtonTapped signedOut) := by
  unfold App.logoutButtonTapped
  split
  · rename_i uid below htop
    refine ⟨.signIn, by simp [tableIn], ?_, h.bound⟩
    intro r hr hsome
    cases signedOut with
    | true =>
      have hnone : r.user = none := horderly ⟨uid, below, htop⟩ r hr
      simp [hnone] at hsome
    | false => exact h.waiting r hr hsome
  · exact h

theorem Settled.addButtonTapped (h : Settled s) : Settled s.addButtonTapped := by
  unfold App.addButtonTapped
  split
  · rename_i uid below htop
    have hnested := h.nested
    apply h.push
    · rw [htop] at hnested ⊢
      exact .addBorrower hnested
    · rfl
  · exact h

theorem Settled.didSelectRowAt (h : Settled s) (borrower : Borrower) :
    Settled (s.didSelectRowAt borrower) := by
  unfold App.didSelectRowAt
  split
  · rename_i uid below htop
    have hnested := h.nested
    apply h.push
    · rw [htop] at hnested ⊢
      exact .borrower borrower hnested
    · rfl
  · exact h

theorem Settled.addBorrowerButtonTapped (h : Settled s) (name debt : String) :
    Settled (s.addBorrowerButtonTapped name debt) := by
  unfold App.addBorrowerButtonTapped
  split
  · rename_i below htop
    have hnested := h.nested
    rw [htop] at hnested
    obtain ⟨uid, huid, hbelow⟩ := hnested.addBorrower_top
    obtain ⟨htable, huser⟩ := h.user htop rfl huid
    apply h.call (by simp [huser]) (fun _ => by simp [htable])
    · simp [huser]
    · intro t ht _ hstack
      exact ht.pop hbelow (by rw [hstack, htable, huid])
  · exact h

theorem Settled.paymentsFolderButtonTapped (h : Settled s) : Settled s.paymentsFolderButtonTapped := by
  unfold App.paymentsFolderButtonTapped
  split
  · rename_i b below htop
    exact h.toPaymentsTVC htop
  · exact h

theorem Settled.addPaymentButtonTapped (h : Settled s) (text : String) (date : Option String) :
    Settled (s.addPaymentButtonTapped text date) := by
  unfold App.addPaymentButtonTapped
  split
  · rename_i b below htop
    obtain ⟨uid, htable, huser⟩ := h.borrower_user htop
    split
    · exact h
    · apply h.call (by simp [huser]) (fun _ => by simp [htable])
      · rw [huser]
        exact sendPaymentsToDatabase_ne_nilUnwrapped uid b _ date
      · intro t ht _ hstack
        exact ht.toPaymentsTVC (hstack.trans htop)
  · exact h

theorem Settled.back (h : Settled s) : Settled s.back := by
  have hnested := h.nested
  unfold App.back
  split
  · rename_i number below htop
    rw [htop] at hnested
    cases hnested
    exact ⟨.signIn, by simp [tableIn], h.waiting, h.bound⟩
  · rename_i below htop
    rw [htop] at hnested
    obtain ⟨_, _, hbelow⟩ := hnested.addBorrower_top
    exact h.pop hbelow (by rw [htop]; rfl)
  · rename_i b below htop
    rw [htop] at hnested
    obtain ⟨_, _, hbelow⟩ := hnested.borrower_top
    exact h.pop hbelow (by rw [htop]; rfl)
  · rename_i b below htop
    rw [htop] at hnested
    obtain ⟨_, _, _, hbelow⟩ := hnested.payments_top
    exact h.pop hbelow (by rw [htop]; rfl)
  · exact h

/-- Every orderly event keeps the session settled. -/
theorem Settled.handle (h : Settled s) {e : AppEvent} (horderly : Orderly s e) :
    Settled (e.handle s) := by
  unfold AppEvent.handle
  split
  · exact h
  · cases e with
    | signInButtonTapped => exact h.signInButtonTapped
    | signUpButtonTapped => exact h.signUpButtonTapped
    | createAccountButtonTapped password confirm => exact h.createAccountButtonTapped password confirm
    | authSucceeded i user => exact h.authSucceeded horderly
    | authFailed i => exact h.authFailed i
    | authCompleted i shown => exact h.authCompleted i shown
    | logoutButtonTapped signedOut => exact h.logoutButtonTapped horderly
    | addButtonTapped => exact h.addButtonTapped
    | addBorrowerButtonTapped name debt => exact h.addBorrowerButtonTapped name debt
    | didSelectRowAt borrower => exact h.didSelectRowAt borrower
    | addPaymentButtonTapped text date => exact h.addPaymentButtonTapped text date
    | paymentsFolderButtonTapped => exact h.paymentsFolderButtonTapped
    | back => exact h.back

end Steps

/-! ## Sessions that go wrong -/

/-- A function that reads no user, or another one than the table's, unbinds the session for good. -/
theorem not_sessionBound_call {α : Type} {s : App} {site : Site} {result : Except Fault α}
    {next : App → App} (hnext : ∀ t, (next t).evaluations = t.evaluations)
    (hread : ¬ Evaluation.Bound ⟨site, s.currentUser, tableIn s.stack⟩) :
    ¬ SessionBound (s.call site result next) := by
  intro hbound
  apply hread
  apply hbound.2
  unfold App.call
  rcases result with fault | a
  · simp
  · simp [hnext]

theorem not_sessionBound_toPaymentsTVC {s : App} (hne : s.currentUser ≠ tableIn s.stack) (b : Borrower) :
    ¬ SessionBound (s.toPaymentsTVC b) :=
  not_sessionBound_call (fun _ => rfl) fun hread => hne (hread.2 (by simp))

theorem not_sessionBound_addBorrowerButtonTapped {s : App} {below : List Screen}
    (htop : s.stack = .addBorrower :: below) (hne : s.currentUser ≠ tableIn s.stack)
    (name debt : String) : ¬ SessionBound (s.addBorrowerButtonTapped name debt) := by
  unfold App.addBorrowerButtonTapped
  rw [htop]
  exact not_sessionBound_call (fun _ => rfl) fun hread => hne (hread.2 (by simp))

theorem not_sessionBound_toBorrowersTVC {s : App} (hnone : s.currentUser = none) :
    ¬ SessionBound s.toBorrowersTVC := by
  apply not_sessionBound_call
  · intro t
    cases t.currentUser <;> rfl
  · intro hread
    simp [Evaluation.Bound, hnone] at hread

/-- Above a table of another account than the current user's, taps lead to an unbound evaluation. -/
theorem taps_unbind {s : App} (hnested : Nested s.stack) (hcrashed : s.crashed = none) {uid : Uid}
    (htable : tableIn s.stack = some uid) (hne : s.currentUser ≠ some uid) :
    ∃ taps, Each AppEvent.handle Orderly s taps ∧ ¬ SessionBound (exec AppEvent.handle s taps) := by
  rw [← htable] at hne
  generalize hstack : s.stack = stack at hnested
  cases hnested with
  | signIn => simp [hstack, tableIn] at htable
  | signUp number => simp [hstack, tableIn] at htable
  | borrowers v h =>
    refine ⟨[.addButtonTapped, .addBorrowerButtonTapped "" ""], ⟨trivial, trivial, trivial⟩, ?_⟩
    have hfirst : AppEvent.handle s .addButtonTapped = { s with stack := .addBorrower :: s.stack } := by
      simp [AppEvent.handle, hcrashed, App.addButtonTapped, hstack]
    have hsecond : ¬ SessionBound
        (App.addBorrowerButtonTapped { s with stack := .addBorrower :: s.stack } "" "") := by
      apply not_sessionBound_addBorrowerButtonTapped rfl
      exact hne
    rw [exec_cons, exec_cons, exec_nil, hfirst]
    simpa [AppEvent.handle, hcrashed] using hsecond
  | addBorrower h =>
    refine ⟨[.addBorrowerButtonTapped "" ""], ⟨trivial, trivial⟩, ?_⟩
    simp only [exec_cons, exec_nil, AppEvent.handle, hcrashed]
    exact not_sessionBound_addBorrowerButtonTapped hstack hne "" ""
  | borrower b h =>
    refine ⟨[.paymentsFolderButtonTapped], ⟨trivial, trivial⟩, ?_⟩
    simp only [exec_cons, exec_nil, AppEvent.handle, hcrashed, App.paymentsFolderButtonTapped, hstack]
    exact not_sessionBound_toPaymentsTVC hne b
  | payments b h =>
    refine ⟨[.back, .paymentsFolderButtonTapped], ⟨trivial, trivial, trivial⟩, ?_⟩
    simp only [exec_cons, exec_nil, AppEvent.handle, hcrashed, App.paymentsFolderButtonTapped,
      App.back, hstack]
    apply not_sessionBound_toPaymentsTVC
    rw [hstack] at hne
    exact hne

/-- After an event that is not orderly, orderly ones can unbind the session. -/
theorem unbinds_of_not_orderly {s : App} (h : Settled s) (hcrashed : s.crashed = none) {e : AppEvent}
    (he : ¬ Orderly s e) :
    ∃ es, Each AppEvent.handle Orderly (e.handle s) es ∧
      ¬ SessionBound (exec AppEvent.handle (e.handle s) es) := by
  cases e with
  | authSucceeded i user =>
    simp only [Orderly, not_forall] at he
    obtain ⟨origin, hreq, uid, huid, hne⟩ := he
    have hstep : AppEvent.handle s (.authSucceeded i user) = { s with
        currentUser := some user, requests := s.requests.set i { origin, user := some user } } := by
      simp [AppEvent.handle, hcrashed, App.authSucceeded, hreq]
    rw [hstep]
    exact taps_unbind h.nested hcrashed huid (by simpa using hne)
  | logoutButtonTapped signedOut =>
    cases signedOut with
    | false => exact absurd trivial he
    | true =>
      simp only [Orderly, not_forall] at he
      obtain ⟨⟨uid, below, htop⟩, r, hr, hsome⟩ := he
      obtain ⟨i, hi⟩ := List.getElem?_of_mem hr
      obtain ⟨user, huser⟩ := Option.ne_none_iff_exists'.mp hsome
      have hreq : s.requests[i]? = some { origin := r.origin, user := some user } := by
        rw [hi, ← huser]
      -- The callback of the request opens a table without a user.
      refine ⟨[.authCompleted i true], ⟨trivial, trivial⟩, ?_⟩
      have hlogout : AppEvent.handle s (.logoutButtonTapped true) =
          { s with currentUser := none, stack := [.signIn] } := by
        simp [AppEvent.handle, hcrashed, App.logoutButtonTapped, htop]
      have hcallback : AppEvent.handle { s with currentUser := none, stack := [.signIn] }
          (.authCompleted i true) = App.toBorrowersTVC
            { s with currentUser := none, stack := [.signIn], requests := s.requests.eraseIdx i } := by
        simp [AppEvent.handle, hcrashed, App.authCompleted, hreq]
      rw [exec_cons, exec_nil, hlogout, hcallback]
      exact not_sessionBound_toBorrowersTVC rfl
  | _ => exact absurd trivial he

/-- Every session stays bound while it is orderly, from any user that Auth
remembers at the start. After the first event that is not orderly, the session can go
on in an orderly way and still read a missing or a foreign user. -/
theorem a_session_stays_bound_while_it_is_orderly (currentUser : Option Uid) (run : List AppEvent)
    (h : Each AppEvent.handle Orderly { currentUser } run) :
    Always AppEvent.handle SessionBound { currentUser } run ∧
      ∀ e, (exec AppEvent.handle { currentUser } run).crashed = none →
        ¬ Orderly (exec AppEvent.handle { currentUser } run) e →
          ∃ es, Each AppEvent.handle Orderly (exec AppEvent.handle { currentUser } (run ++ [e])) es ∧
            ¬ SessionBound (exec AppEvent.handle { currentUser } (run ++ e :: es)) := by
  have hsettled : Always AppEvent.handle Settled { currentUser } run :=
    always_invariant (settled_initial currentUser) (fun _ _ hs he => hs.handle he) h
  refine ⟨hsettled.mono fun _ hs => hs.bound, ?_⟩
  intro e hcrashed he
  obtain ⟨es, horderly, hunbound⟩ := unbinds_of_not_orderly hsettled.last hcrashed he
  exact ⟨es, by rwa [exec_snoc], by rwa [exec_append]⟩

/-- One account signs in, adds a borrower and logs out, and then another one signs in. -/
theorem two_accounts_in_turn_stay_bound :
    Always AppEvent.handle SessionBound { currentUser := none }
      [.signInButtonTapped, .authSucceeded 0 alice, .authCompleted 0 true, .addButtonTapped,
        .addBorrowerButtonTapped "Ann" "10", .logoutButtonTapped true,
        .signInButtonTapped, .authSucceeded 0 bob, .authCompleted 0 true, .addButtonTapped,
        .addBorrowerButtonTapped "Ann" "10"] := by
  refine (a_session_stays_bound_while_it_is_orderly none _ ?_).1
  simp only [Each]
  refine ⟨trivial, ?_, trivial, trivial, trivial, ?_, trivial, ?_, trivial, trivial, trivial, trivial⟩
  · intro _ _ _ htable
    cases htable
  · intro _ _ hr
    cases hr
  · intro _ _ _ htable
    cases htable

/-- Two sign-ins with different accounts are in flight. The first one opens its
table, the second one succeeds, and a borrower added to the table is filed under the second account. -/
theorem a_second_sign_in_files_a_borrower_under_another_account :
    ¬ Always AppEvent.handle SessionBound { currentUser := none }
      [.signInButtonTapped, .signInButtonTapped, .authSucceeded 0 alice, .authCompleted 0 true,
        .addButtonTapped, .authSucceeded 0 bob, .addBorrowerButtonTapped "Ann" "10"] := by
  intro h
  exact absurd h.last (by decide)

end SharkCollector
