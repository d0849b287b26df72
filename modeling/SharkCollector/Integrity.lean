-- Integrity: no payment stands in the database without its borrower. A borrower
-- screen stands on the table that its borrower was tapped in, the table
-- holds records of its own account only, and an orderly session still has this
-- account when the payment is sent.
import SharkCollector.Moves

namespace SharkCollector

open PathTree Runs

variable {Date : Type}

/-! ## What the pages stand on -/

/-- A table and a list have the observer that their page names, a list observes
the payments under the account of the nearest table, and a borrower screen shows a borrower of this
account and a date that the picker was moved to. -/
def Page.Grounded (description : Date → String) (c : Cloud) (d : Device)
    (below : List (Page Date)) : Page Date → Prop
  | .borrowers i uid => ∃ o, c.observers[i]? = some o ∧ o.device = d ∧
      o.node = borrowersNode uid ∧ o.controller.isTable = true
  | .borrower vc =>
    (∃ uid, tableIn (below.map Page.screen) = some uid ∧ c.Knows uid vc.borrower) ∧
      ∀ date, vc.dateDisplayed = some date → ∃ day, date = description day
  | .payments i b => ∃ uid o, tableIn (below.map Page.screen) = some uid ∧
      c.observers[i]? = some o ∧ o.device = d ∧ o.node = paymentsNode uid b.name ∧
      o.controller.isTable = false
  | _ => True

/-- Every page of a stack is grounded on the pages below it. -/
def Standing (description : Date → String) (c : Cloud) (d : Device) (pages : List (Page Date)) : Prop :=
  ∀ page below, page :: below <:+ pages → page.Grounded description c d below

section Standing
variable {description : Date → String} {c c' : Cloud} {d : Device} {pages : List (Page Date)}

theorem Cloud.Knows.mono {u : Uid} {b : Borrower} (h : c.Knows u b) (he : Extends c c') :
    c'.Knows u b := by
  obtain ⟨w, hw, hrest⟩ := h
  exact ⟨w, he.known w hw, hrest⟩

theorem Standing.mono (h : Standing description c d pages) (he : Extends c c') :
    Standing description c' d pages := by
  intro page below hsuffix
  have hpage := h page below hsuffix
  cases page with
  | borrowers i uid =>
    obtain ⟨o, ho, hdevice, hnode, hkind⟩ := hpage
    obtain ⟨o', ho', hdevice', hnode', hkind'⟩ := he.observers i o ho
    exact ⟨o', ho', hdevice'.trans hdevice, hnode'.trans hnode, hkind'.trans hkind⟩
  | borrower vc =>
    obtain ⟨⟨uid, huid, hknows⟩, hdate⟩ := hpage
    exact ⟨⟨uid, huid, hknows.mono he⟩, hdate⟩
  | payments i b =>
    obtain ⟨uid, o, huid, ho, hdevice, hnode, hkind⟩ := hpage
    obtain ⟨o', ho', hdevice', hnode', hkind'⟩ := he.observers i o ho
    exact ⟨uid, o', huid, ho', hdevice'.trans hdevice, hnode'.trans hnode, hkind'.trans hkind⟩
  | _ => trivial

theorem Standing.suffix {pages' : List (Page Date)} (h : Standing description c d pages)
    (hsuffix : pages' <:+ pages) : Standing description c d pages' :=
  fun page below hp => h page below (hp.trans hsuffix)

theorem Standing.top (h : Standing description c d pages) {page : Page Date}
    {below : List (Page Date)} (hpages : pages = page :: below) :
    page.Grounded description c d below :=
  h page below (hpages ▸ List.suffix_rfl)

theorem Standing.push (h : Standing description c d pages) {page : Page Date}
    (hpage : page.Grounded description c d pages) : Standing description c d (page :: pages) := by
  intro page' below hsuffix
  rcases List.suffix_cons_iff.mp hsuffix with heq | hsuffix
  · cases heq
    exact hpage
  · exact h page' below hsuffix

theorem standing_signIn : Standing description c d [.signIn] := by
  intro page below hsuffix
  rcases List.suffix_cons_iff.mp hsuffix with heq | hsuffix
  · cases heq
    trivial
  · simp at hsuffix

end Standing

/-! ## Every event keeps the pages standing -/

section Events
variable {description : Date → String} {s : System Date} {d : Device}

theorem stackable_standing (c : Cloud) (d : Device) :
    Stackable description (Standing description c d) where
  root := standing_signIn
  below h := h.suffix (List.suffix_cons _ _)
  signUp h := h.push trivial
  addBorrower h := h.push trivial
  editAmount text h := by
    obtain ⟨hborrower, hdate⟩ := h.top rfl
    exact (h.suffix (List.suffix_cons _ _)).push ⟨hborrower, hdate⟩
  moveDatePicker date h := by
    obtain ⟨hborrower, -⟩ := h.top rfl
    refine (h.suffix (List.suffix_cons _ _)).push ⟨hborrower, ?_⟩
    intro text htext
    exact ⟨date, (Option.some.inj htext).symm⟩

/-- An event that changes the phone alone keeps its pages standing. -/
theorem Standing.phoneOnly {e : PhoneEvent Date} {p : Phone Date}
    (h : Standing description s.cloud d (s.phones d).pages)
    (he : PhoneOnly description (s.phones d) e p) :
    Standing description (s.set d p).cloud d ((s.set d p).phones d).pages := by
  rw [pages_set]
  exact (stackable_standing s.cloud d).phoneOnly h he

/-- The observer of a new table or list is the last one. -/
theorem getElem?_attach (c : Cloud) (d : Device) (controller : ListController) (node : Reference) :
    (c.attach d controller (.ok node)).observers[c.observers.length]? =
      some ⟨d, node, controller, ((c.view d).childrenAt node).map .childAdded⟩ := by
  simp [Cloud.attach]

theorem standing_toBorrowersTVC (hd : d ∉ s.cloud.crashed)
    (h : Standing description (s.toBorrowersTVC d).cloud d (s.phones d).pages) :
    Standing description (s.toBorrowersTVC d).cloud d ((s.toBorrowersTVC d).phones d).pages := by
  rcases hu : s.cloud.currentUser d with _ | u
  · rw [toBorrowersTVC_none hd hu] at h ⊢
    exact h
  · rw [toBorrowersTVC_some hd hu] at h ⊢
    rw [pages_set]
    exact h.push ⟨_, getElem?_attach _ _ _ _, rfl, rfl, rfl⟩

theorem retrievePayments_eq_ok {u : Uid} {b : Borrower} {node : Reference}
    (h : retrievePayments (some u) (some b) = .ok node) : node = paymentsNode u b.name := by
  by_cases hb : IsPathString b.name
  · rw [retrievePayments_ok u b hb] at h
    exact (Except.ok.inj h).symm
  · rw [retrievePayments_raises u b hb] at h
    cases h

/-- The list of payments opens under the account of the nearest table. -/
theorem standing_toPaymentsTVC (hd : d ∉ s.cloud.crashed) {uid : Uid}
    (htable : tableIn ((s.phones d).pages.map Page.screen) = some uid)
    (huser : s.cloud.currentUser d = some uid) {b : Borrower}
    (h : Standing description (s.toPaymentsTVC d b).cloud d (s.phones d).pages) :
    Standing description (s.toPaymentsTVC d b).cloud d ((s.toPaymentsTVC d b).phones d).pages := by
  rcases hresult : retrievePayments (s.cloud.currentUser d) (some b) with fault | node
  · rw [toPaymentsTVC_error hd hresult] at h ⊢
    exact h
  · rw [toPaymentsTVC_ok hd hresult] at h ⊢
    rw [huser] at hresult
    rw [pages_set]
    exact h.push ⟨uid, _, htable, getElem?_attach _ _ _ _, rfl, retrievePayments_eq_ok hresult, rfl⟩

/-- A tap on a row opens a borrower of the table's account. -/
theorem standing_didSelectRowAt {names : Set (Uid × String)} (hfeeding : Feeding names s.cloud)
    (h : Standing description s.cloud d (s.phones d).pages) {row : Nat} {today : Date}
    (he : Extends s.cloud (s.didSelectRowAt d row today).cloud) :
    Standing description (s.didSelectRowAt d row today).cloud d
      ((s.didSelectRowAt d row today).phones d).pages := by
  unfold System.didSelectRowAt at he ⊢
  rcases htop : s.topTable d with _ | ⟨i, vc⟩
  · exact h
  · obtain ⟨uid, below, hpages, hvc⟩ := topTable_eq_some htop
    simp only [htop] at he ⊢
    split at he
    · rename_i hrow
      rw [if_pos hrow]
      rcases hprepare : (vc.didSelectRowAt row).prepareForBorrowerVC with fault | b
      · simp only [hprepare] at he ⊢
        exact h.mono he
      · simp only [hprepare] at he ⊢
        rw [pages_set]
        refine (h.mono he).push ⟨⟨uid, ?_, ?_⟩, fun date hdate => by cases hdate⟩
        · simp [hpages, Page.screen, tableIn]
        · obtain ⟨o, ho, -, hnode, -⟩ := h.top hpages
          obtain ⟨o', ho', hcontroller⟩ := table_eq_some.mp hvc
          obtain rfl : o = o' := Option.some.inj (ho.symm.trans ho')
          have hb : b ∈ vc.borrowers := List.mem_of_getElem? (subscript_eq_ok.mp hprepare)
          exact (hfeeding.knows (List.mem_of_getElem? ho) hcontroller hnode hb).mono he
    · rename_i hrow
      rw [if_neg hrow]
      exact h

/-- On a borrower screen of a settled session the user is that of the table below. -/
theorem user_of_borrower {log : List Evaluation} (hsettled : Settled (s.session d log))
    {vc : OpenedBorrower Date} {below : List (Page Date)}
    (hpages : (s.phones d).pages = .borrower vc :: below) :
    ∃ uid, tableIn ((s.phones d).pages.map Page.screen) = some uid ∧
      s.cloud.currentUser d = some uid := by
  have htop : (s.session d log).stack = .borrower vc.borrower :: below.map Page.screen := by
    simp [System.session, Phone.session, hpages, Page.screen]
  exact hsettled.borrower_user htop

theorem standing_authSucceeded (h : Standing description s.cloud d (s.phones d).pages) {i : Nat}
    {user : Uid} (he : Extends s.cloud (s.authSucceeded d i user).cloud) :
    Standing description (s.authSucceeded d i user).cloud d
      ((s.authSucceeded d i user).phones d).pages := by
  have hmono := h.mono he
  simp only [System.authSucceeded] at hmono ⊢
  split
  · rename_i hrequest
    simp only [hrequest] at hmono
    rw [pages_set]
    exact hmono
  · exact h

theorem standing_authCompleted (hd : d ∉ s.cloud.crashed)
    (h : Standing description s.cloud d (s.phones d).pages) {i : Nat} {shown : Bool}
    (he : Extends s.cloud (s.authCompleted d i shown).cloud) :
    Standing description (s.authCompleted d i shown).cloud d
      ((s.authCompleted d i shown).phones d).pages := by
  have hmono := h.mono he
  simp only [System.authCompleted] at hmono ⊢
  split
  · rename_i hrequest
    simp only [hrequest] at hmono
    split
    · rename_i hshown
      rw [if_pos hshown] at hmono
      refine standing_toBorrowersTVC (s := s.set d _) hd ?_
      rw [pages_set]
      exact hmono
    · rw [pages_set]
      exact h
  · exact h

theorem standing_logoutButtonTapped (h : Standing description s.cloud d (s.phones d).pages)
    (signedOut : Bool) :
    Standing description (s.logoutButtonTapped d signedOut).cloud d
      ((s.logoutButtonTapped d signedOut).phones d).pages := by
  unfold System.logoutButtonTapped
  split
  · rw [pages_set]
    exact standing_signIn
  · exact h

theorem standing_onTable (F : Foundation) {e : TableEvent}
    (h : Standing description s.cloud d (s.phones d).pages)
    (he : Extends s.cloud (s.onTable d F e).cloud) :
    Standing description (s.onTable d F e).cloud d ((s.onTable d F e).phones d).pages := by
  have hmono := h.mono he
  unfold System.onTable at hmono ⊢
  split
  · rename_i htop
    simp only [htop] at hmono
    exact hmono
  · exact h

theorem standing_addBorrowerButtonTapped (h : Standing description s.cloud d (s.phones d).pages)
    {name debt : String} {key : Key}
    (he : Extends s.cloud (s.addBorrowerButtonTapped d name debt key).cloud) :
    Standing description (s.addBorrowerButtonTapped d name debt key).cloud d
      ((s.addBorrowerButtonTapped d name debt key).phones d).pages := by
  have hmono := h.mono he
  unfold System.addBorrowerButtonTapped at hmono ⊢
  split
  · rename_i below hpages
    simp only [hpages] at hmono
    unfold System.goOn at hmono ⊢
    split
    · rename_i hcrashed
      rw [if_pos hcrashed] at hmono
      simp only [System.call, hpages]
      exact hmono
    · rename_i hcrashed
      rw [if_neg hcrashed] at hmono
      rw [pages_set]
      exact hmono.suffix (List.suffix_cons _ _)
  · exact h

theorem standing_addPaymentButtonTapped (hd : d ∉ s.cloud.crashed) {log : List Evaluation}
    (hsettled : Settled (s.session d log)) (h : Standing description s.cloud d (s.phones d).pages)
    {key : Key} (he : Extends s.cloud (s.addPaymentButtonTapped d key).cloud) :
    Standing description (s.addPaymentButtonTapped d key).cloud d
      ((s.addPaymentButtonTapped d key).phones d).pages := by
  have hmono := h.mono he
  unfold System.addPaymentButtonTapped at hmono ⊢
  split
  · rename_i vc below hpages
    obtain ⟨uid, htable, huser⟩ := user_of_borrower hsettled hpages
    rw [hpages] at hmono
    simp only at hmono
    split
    · exact h
    · rename_i htext
      rw [if_neg htext] at hmono
      unfold System.goOn at hmono ⊢
      split
      · rename_i hcrashed
        rw [if_pos hcrashed] at hmono
        simp only [System.call, hpages]
        exact hmono
      · rename_i hcrashed
        rw [if_neg hcrashed] at hmono
        refine standing_toPaymentsTVC hcrashed htable ?_ (hpages ▸ hmono)
        rw [System.call, apply_sendPayment_of_running hd, currentUser_send]
        exact huser
  · exact h

theorem standing_paymentsFolderButtonTapped (hd : d ∉ s.cloud.crashed) {log : List Evaluation}
    (hsettled : Settled (s.session d log)) (h : Standing description s.cloud d (s.phones d).pages)
    (he : Extends s.cloud (s.paymentsFolderButtonTapped d).cloud) :
    Standing description (s.paymentsFolderButtonTapped d).cloud d
      ((s.paymentsFolderButtonTapped d).phones d).pages := by
  have hmono := h.mono he
  unfold System.paymentsFolderButtonTapped at hmono ⊢
  split
  · rename_i vc below hpages
    obtain ⟨uid, htable, huser⟩ := user_of_borrower hsettled hpages
    simp only [hpages] at hmono
    exact standing_toPaymentsTVC hd htable huser (hpages ▸ hmono)
  · exact h

theorem standing_handle (F : Foundation) {e : PhoneEvent Date} (hd : d ∉ s.cloud.crashed)
    {names : Set (Uid × String)} (hfeeding : Feeding names s.cloud) {log : List Evaluation}
    (hsettled : Settled (s.session d log))
    (h : Standing description s.cloud d (s.phones d).pages)
    (he : Extends s.cloud (e.handle F description s d).cloud) :
    Standing description (e.handle F description s d).cloud d
      ((e.handle F description s d).phones d).pages := by
  cases e with
  | signInButtonTapped => exact h.phoneOnly .signIn
  | signUpButtonTapped => exact h.phoneOnly .signUp
  | createAccountButtonTapped password confirm => exact h.phoneOnly (.createAccount password confirm)
  | authSucceeded i user => exact standing_authSucceeded h he
  | authFailed i => exact h.phoneOnly (.authFailed i)
  | authCompleted i shown => exact standing_authCompleted hd h he
  | logoutButtonTapped signedOut => exact standing_logoutButtonTapped h signedOut
  | textDidChange text => exact standing_onTable F h he
  | searchBarSearchButtonClicked => exact standing_onTable F h he
  | didSelectRowAt row today => exact standing_didSelectRowAt hfeeding h he
  | addButtonTapped => exact h.phoneOnly .add
  | addBorrowerButtonTapped name debt key => exact standing_addBorrowerButtonTapped h he
  | editAmount text => exact h.phoneOnly (.editAmount text)
  | moveDatePicker date => exact h.phoneOnly (.moveDatePicker date)
  | addPaymentButtonTapped key => exact standing_addPaymentButtonTapped hd hsettled h he
  | paymentsFolderButtonTapped => exact standing_paymentsFolderButtonTapped hd hsettled h he
  | back => exact h.phoneOnly .back

end Events

/-! ## No payment without its borrower -/

/-- A record of a borrower, or one of a payment that has an amount and a date of
the picker, filed through the name of a borrower of the same account. -/
def Write.Founded (description : Date → String) (c : Cloud) (w : Write) : Prop :=
  (∃ u name debt, w.IsBorrower u name debt) ∨
    ∃ u b paid day, w.IsPayment u b.name paid (description day) ∧ paid ≠ "" ∧ c.Knows u b

/-- What orderly steps with fresh keys keep. -/
structure Sound (description : Date → String) (s : System Date) : Prop where
  feeding : Feeding Set.univ s.cloud
  indexed : Indexed s.cloud
  sessions : ∀ d, ∃ a, Tracks s d a ∧ Settled a
  standing : ∀ d, Standing description s.cloud d (s.phones d).pages
  founded : ∀ w ∈ s.cloud.known, w.Founded description s.cloud

section Sound
variable {description : Date → String} {s : System Date}

theorem sound_launched (description : Date → String) (currentUser : Device → Option Uid) :
    Sound description (launched currentUser) where
  feeding := feeding_initial Set.univ currentUser
  indexed := by simp [launched, Indexed]
  sessions d := ⟨_, tracks_launched currentUser d, settled_initial _⟩
  standing d := standing_signIn
  founded := by simp [launched, Cloud.known]

theorem Sound.settled (h : Sound description s) {d : Device} (hd : d ∉ s.cloud.crashed) :
    ∃ log, Settled (s.session d log) := by
  obtain ⟨a, htracks, hsettled⟩ := h.sessions d
  exact ⟨a.evaluations, htracks.running hd ▸ hsettled⟩

theorem Sound.founded_paidBy (h : Sound description s) {w : Write} {x : SystemStep Date}
    (hw : w.PaidBy s x) : w.Founded description s.cloud := by
  obtain ⟨vc, below, u, day, -, hpages, hd, hu, -, htext, hday, hw⟩ := hw
  obtain ⟨log, hsettled⟩ := h.settled hd
  obtain ⟨⟨uid, huid, hknows⟩, hdate⟩ := (h.standing _).top hpages
  obtain ⟨date, rfl⟩ := hdate day hday
  -- The user is that of the table below, and so is the record of the borrower.
  obtain ⟨v, hv, huser⟩ := user_of_borrower hsettled hpages
  have hsame : v = uid := by
    rw [hpages] at hv
    exact Option.some.inj (hv.symm.trans huid)
  obtain rfl : u = uid := by
    rw [huser, hsame] at hu
    exact (Option.some.inj hu).symm
  exact Or.inr ⟨u, vc.borrower, vc.text, date, hw, htext, hknows⟩

theorem Write.Founded.mono {c c' : Cloud} {w : Write} (h : w.Founded description c)
    (he : Extends c c') : w.Founded description c' := by
  rcases h with h | ⟨u, b, paid, day, hw, hpaid, hknows⟩
  · exact Or.inl h
  · exact Or.inr ⟨u, b, paid, day, hw, hpaid, hknows.mono he⟩

theorem Sound.standing_step (h : Sound description s) (F : Foundation) {x : SystemStep Date}
    (he : Extends s.cloud (x.apply F description s).cloud) (d : Device) :
    Standing description (x.apply F description s).cloud d
      ((x.apply F description s).phones d).pages := by
  have hmono := (h.standing d).mono he
  cases x with
  | app d' e =>
    simp only [SystemStep.apply] at he hmono ⊢
    split
    · exact h.standing d
    · rename_i hd
      rw [if_neg hd] at he hmono
      by_cases hne : d' = d
      · subst hne
        obtain ⟨log, hsettled⟩ := h.settled hd
        exact standing_handle F hd h.feeding hsettled (h.standing d') he
      · rw [(untouched_handle s F description hne e).phone]
        exact hmono
  | accepted key => exact hmono
  | rejected key => exact hmono
  | deliver i => exact hmono

theorem Sound.step (h : Sound description s) (F : Foundation) {x : SystemStep Date}
    (horderly : x.IsOrderly s) (hfresh : x.IsFresh s) : Sound description (x.apply F description s) := by
  have hmoves : Moves Set.univ s.cloud (x.apply F description s).cloud :=
    moves_step F description hfresh fun _ _ _ _ _ _ => trivial
  obtain ⟨hfeeding, he⟩ := hmoves.feeding h.feeding
  refine ⟨hfeeding, hmoves.indexed h.indexed, ?_, h.standing_step F he, ?_⟩
  · intro d
    obtain ⟨a, htracks, hsettled⟩ := h.sessions d
    obtain ⟨es, hnext, hes⟩ := htracks.step F description x
    exact ⟨_, hnext, exec_invariant hsettled (fun _ _ hs hOrderly => hs.handle hOrderly)
      (hes horderly)⟩
  · intro w hw
    rcases known_step F description hw with hw | ⟨name, debt, -, u, -, -, -, -, hw⟩ | hw
    · exact (h.founded w hw).mono he
    · exact Or.inl ⟨u, name, debt, hw⟩
    · exact (h.founded_paidBy hw).mono he

end Sound

/-- On any number of devices, in every orderly run: each payment that was ever sent,
to whichever device it is known, has an amount and a date of the picker and is filed
through the name of a borrower whose record the same account wrote. -/
theorem no_payment_is_without_its_borrower (F : Foundation) (description : Date → String)
    (currentUser : Device → Option Uid) (run : List (SystemStep Date))
    (horderly : Each (SystemStep.apply F description) SystemStep.IsOrderly (launched currentUser) run)
    (hfresh : Each (SystemStep.apply F description) SystemStep.IsFresh (launched currentUser) run) :
    Always (SystemStep.apply F description)
      (fun s => ∀ w ∈ s.cloud.known, w.Founded description s.cloud) (launched currentUser) run := by
  have hsound : Always (SystemStep.apply F description) (Sound description) (launched currentUser) run :=
    always_invariant (sound_launched description currentUser)
      (fun _ _ hs hx => hs.step F hx.1 hx.2) (each_and horderly hfresh)
  exact hsound.mono fun _ hs => hs.founded

/-- One device signs in, adds a borrower, opens it from the table and adds a payment. -/
def firstPayment : List (SystemStep String) :=
  [.app 0 .signInButtonTapped, .app 0 (.authSucceeded 0 alice), .app 0 (.authCompleted 0 true),
    .app 0 .addButtonTapped, .app 0 (.addBorrowerButtonTapped "Ann" "10" ⟨"-K1"⟩), .deliver 0,
    .app 0 (.didSelectRowAt 0 "2017-10-10 16:58:34 +0000"), .app 0 (.editAmount "5"),
    .app 0 (.moveDatePicker "2017-10-11 16:58:34 +0000"),
    .app 0 (.addPaymentButtonTapped ⟨"-K2"⟩), .accepted ⟨"-K1"⟩, .accepted ⟨"-K2"⟩]

theorem orderly_firstPayment : Each (SystemStep.apply asciiFoundation id) SystemStep.IsOrderly
    (launched fun _ => none) firstPayment := by
  refine ⟨trivial, ?_, trivial, trivial, trivial, trivial, trivial, trivial, trivial, trivial,
    trivial, trivial, trivial⟩
  intro _ _ _ htable
  cases htable

theorem fresh_firstPayment : Each (SystemStep.apply asciiFoundation id) SystemStep.IsFresh
    (launched fun _ => none) firstPayment := by
  refine ⟨trivial, trivial, trivial, trivial, ?_, trivial, trivial, trivial, trivial, ?_,
    trivial, trivial, trivial⟩
  · simp only [SystemStep.IsFresh]
    decide
  · simp only [SystemStep.IsFresh]
    decide

/-- The borrower and the payment are both known, and the payment has its borrower. -/
theorem the_first_payment_has_its_borrower :
    (exec (SystemStep.apply asciiFoundation id) (launched fun _ => none)
        firstPayment).cloud.known.length = 2 ∧
      ∀ w ∈ (exec (SystemStep.apply asciiFoundation id) (launched fun _ => none)
          firstPayment).cloud.known,
        w.Founded id
          (exec (SystemStep.apply asciiFoundation id) (launched fun _ => none) firstPayment).cloud :=
  ⟨by decide, (no_payment_is_without_its_borrower asciiFoundation id _ firstPayment
    orderly_firstPayment fresh_firstPayment).last⟩

end SharkCollector
