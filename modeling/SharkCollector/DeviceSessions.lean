-- The sessions of the devices: what a device does is a run of the session
-- model, whatever the other devices and the server do meanwhile. All that the device
-- ever wrote stands in the log of its session, so an orderly system files
-- each record under the account of the table below the screen that wrote it.
import SharkCollector.System

namespace SharkCollector

open PathTree Runs

variable {Date : Type}

/-! ## The session of a device -/

def Phone.session (p : Phone Date) (currentUser : Option Uid) (evaluations : List Evaluation) :
    App where
  currentUser := currentUser
  stack := p.pages.map Page.screen
  requests := p.requests
  signUps := p.signUps
  evaluations := evaluations

/-- The session that a device is in, with a log. -/
def System.session (s : System Date) (d : Device) (evaluations : List Evaluation) : App :=
  (s.phones d).session (s.cloud.currentUser d) evaluations

/-- The event of the session behind an event of the device. -/
def PhoneEvent.appEvent (s : System Date) (d : Device) : PhoneEvent Date → Option AppEvent
  | .signInButtonTapped => some .signInButtonTapped
  | .signUpButtonTapped => some .signUpButtonTapped
  | .createAccountButtonTapped password confirm => some (.createAccountButtonTapped password confirm)
  | .authSucceeded i user => some (.authSucceeded i user)
  | .authFailed i => some (.authFailed i)
  | .authCompleted i shown => some (.authCompleted i shown)
  | .logoutButtonTapped signedOut => some (.logoutButtonTapped signedOut)
  | .didSelectRowAt row _ =>
    match s.topTable d with
    | some (_, vc) =>
      if row < vc.reloadedRows then
        (vc.didSelectRowAt row).prepareForBorrowerVC.toOption.map .didSelectRowAt
      else none
    | none => none
  | .addButtonTapped => some .addButtonTapped
  | .addBorrowerButtonTapped name debt _ => some (.addBorrowerButtonTapped name debt)
  | .addPaymentButtonTapped _ =>
    match (s.phones d).pages with
    | .borrower vc :: _ => some (.addPaymentButtonTapped vc.text vc.dateDisplayed)
    | _ => none
  | .paymentsFolderButtonTapped => some .paymentsFolderButtonTapped
  | .back => some .back
  | .textDidChange _ => none
  | .searchBarSearchButtonClicked => none
  | .editAmount _ => none
  | .moveDatePicker _ => none

/-- What keeps every session bound: no sign-in succeeds for another account than
that of the nearest table, and none is cut off by a logout. -/
def SystemStep.IsOrderly (s : System Date) : SystemStep Date → Prop
  | .app d (.authSucceeded i user) => Orderly (s.session d []) (.authSucceeded i user)
  | .app d (.logoutButtonTapped signedOut) => Orderly (s.session d []) (.logoutButtonTapped signedOut)
  | _ => True

/-- The write stems from an evaluation of the log, which read the user it is filed under. -/
def Write.LoggedIn (w : Write) (evaluations : List Evaluation) : Prop :=
  ∃ e ∈ evaluations, ∃ u, e.currentUser = some u ∧
    (e.site = .sendBorrowersToDatabase ∧ (∃ name debt, w.IsBorrower u name debt) ∨
      e.site = .sendPaymentsToDatabase ∧ ∃ name paid date, w.IsPayment u name paid date)

theorem Write.LoggedIn.mono {w : Write} {es es' : List Evaluation} (h : w.LoggedIn es)
    (hsub : ∀ e ∈ es, e ∈ es') : w.LoggedIn es' := by
  obtain ⟨e, he, hrest⟩ := h
  exact ⟨e, hsub e he, hrest⟩

/-- A running device is where its session is, and all its writes are logged there. -/
structure Tracks (s : System Date) (d : Device) (a : App) : Prop where
  running : d ∉ s.cloud.crashed → a = s.session d a.evaluations
  logged : ∀ w ∈ s.cloud.known, w.device = d → w.LoggedIn a.evaluations

/-! ## The calls of a device -/

section Calls
variable {s : System Date} {d : Device}

theorem toBorrowersTVC_none (hd : d ∉ s.cloud.crashed) (hu : s.cloud.currentUser d = none) :
    s.toBorrowersTVC d = { s with cloud := s.cloud.crash d } := by
  simp [System.toBorrowersTVC, System.call, System.goOn, CloudStep.apply, Cloud.on, hd, hu,
    retrieveBorrowersFromDatabase, child_borrowers, bind, Except.bind, Cloud.attach, Cloud.crash]

theorem toBorrowersTVC_some (hd : d ∉ s.cloud.crashed) {u : Uid}
    (hu : s.cloud.currentUser d = some u) :
    s.toBorrowersTVC d = System.set
      { s with cloud := s.cloud.attach d (.borrowers {}) (.ok (borrowersNode u)) } d
      ((s.phones d).push (.borrowers s.cloud.observers.length u)) := by
  simp [System.toBorrowersTVC, System.call, System.goOn, CloudStep.apply, Cloud.on, hd, hu,
    Cloud.attach]

theorem toPaymentsTVC_error (hd : d ∉ s.cloud.crashed) {b : Borrower} {fault : Fault}
    (h : retrievePayments (s.cloud.currentUser d) (some b) = .error fault) :
    s.toPaymentsTVC d b = { s with cloud := s.cloud.crash d } := by
  simp [System.toPaymentsTVC, System.call, System.goOn, CloudStep.apply, Cloud.on, hd, h,
    Cloud.attach, Cloud.crash]

theorem toPaymentsTVC_ok (hd : d ∉ s.cloud.crashed) {b : Borrower} {node : Reference}
    (h : retrievePayments (s.cloud.currentUser d) (some b) = .ok node) :
    s.toPaymentsTVC d b = System.set
      { s with cloud := s.cloud.attach d (.payments { borrowerAtIndex := some b }) (.ok node) } d
      ((s.phones d).push (.payments s.cloud.observers.length b)) := by
  simp [System.toPaymentsTVC, System.call, System.goOn, CloudStep.apply, Cloud.on, hd, h,
    Cloud.attach]

/-- A device that sends traps exactly when its function does. -/
theorem mem_crashed_send {c : Cloud} (hd : d ∉ c.crashed) (key : Key)
    (result : Except Fault (Option Push)) :
    d ∈ (c.send d key result).crashed ↔ ∃ fault, result = .error fault := by
  rcases result with fault | (_ | push) <;> simp [Cloud.send, Cloud.crash, Cloud.notifyAll, hd]

theorem apply_sendBorrower_of_running {c : Cloud} (hd : d ∉ c.crashed) (name debt : String)
    (key : Key) :
    CloudStep.apply c (.sendBorrower d name debt key) = c.send d key
      (some <$> sendBorrowersToDatabase (c.currentUser d) (some name) (some debt)) := by
  simp [CloudStep.apply, Cloud.on, hd]

theorem apply_sendPayment_of_running {c : Cloud} (hd : d ∉ c.crashed) (b : Borrower)
    (amount : String) (date : Option String) (key : Key) :
    CloudStep.apply c (.sendPayment d b amount date key) = c.send d key
      (sendPaymentsToDatabase (c.currentUser d) (some b) (some amount) date) := by
  simp [CloudStep.apply, Cloud.on, hd]

end Calls

/-! ## One event -/

/-- What one event of a device does to its session `a`: the session goes on
with the device, and keeps the log of the writes. -/
structure Follows (s t : System Date) (d : Device) (evaluations : List Evaluation) (a : App) :
    Prop where
  running : d ∉ t.cloud.crashed → a = t.session d a.evaluations
  log : ∀ e ∈ evaluations, e ∈ a.evaluations
  written : ∀ w ∈ t.cloud.known, w ∈ s.cloud.known ∨ w.LoggedIn a.evaluations

section Events
variable {s t : System Date} {d : Device} {log : List Evaluation}

theorem Tracks.follows {a a' : App} (h : Tracks s d a) (hf : Follows s t d a.evaluations a') :
    Tracks t d a' := by
  refine ⟨hf.running, ?_⟩
  intro w hw hd
  rcases hf.written w hw with hw | hw
  · exact (h.logged w hw hd).mono hf.log
  · exact hw

/-- The device goes on with another call. -/
theorem Follows.trans {r : System Date} {log' : List Evaluation} {a : App}
    (h : Follows s t d log (t.session d log')) (h' : Follows t r d log' a) : Follows s r d log a := by
  refine ⟨h'.running, fun e he => h'.log e (h.log e he), ?_⟩
  intro w hw
  rcases h'.written w hw with hw | hw
  · rcases h.written w hw with hw | hw
    · exact Or.inl hw
    · exact Or.inr (hw.mono h'.log)
  · exact Or.inr hw

@[simp] theorem session_set (p : Phone Date) :
    (s.set d p).session d log = p.session (s.cloud.currentUser d) log := by
  simp [System.session, System.set]

/-- An event that leaves the cloud as it is. -/
theorem follows_set {p : Phone Date} {a : App} (h : a = p.session (s.cloud.currentUser d) log) :
    Follows s (s.set d p) d log a := by
  subst h
  refine ⟨fun _ => ?_, fun _ he => he, fun _ hw => Or.inl hw⟩
  rw [session_set]
  rfl

section Local
variable (p : Phone Date) (u : Option Uid)

theorem session_signInButtonTapped :
    (p.session u log).signInButtonTapped = p.signInButtonTapped.session u log := by
  obtain ⟨_ | ⟨page, below⟩, requests, signUps⟩ := p
  · rfl
  · cases page <;> rfl

theorem session_signUpButtonTapped :
    (p.session u log).signUpButtonTapped = p.signUpButtonTapped.session u log := by
  obtain ⟨_ | ⟨page, below⟩, requests, signUps⟩ := p
  · rfl
  · cases page <;> rfl

theorem session_createAccountButtonTapped (password confirm : String) :
    (p.session u log).createAccountButtonTapped password confirm =
      (p.createAccountButtonTapped password confirm).session u log := by
  obtain ⟨_ | ⟨page, below⟩, requests, signUps⟩ := p
  · rfl
  · by_cases h : password = confirm
    · cases page <;> simp [App.createAccountButtonTapped, Phone.createAccountButtonTapped,
        Phone.session, Phone.request, Page.screen, h]
    · cases page <;> simp [App.createAccountButtonTapped, Phone.createAccountButtonTapped,
        Phone.session, Page.screen, h]

theorem session_authFailed (i : Nat) :
    (p.session u log).authFailed i = (p.authFailed i).session u log := by
  unfold App.authFailed Phone.authFailed Phone.session
  rcases p.requests[i]? with _ | ⟨origin, _ | user⟩ <;> rfl

theorem session_addButtonTapped :
    (p.session u log).addButtonTapped = p.addButtonTapped.session u log := by
  obtain ⟨_ | ⟨page, below⟩, requests, signUps⟩ := p
  · rfl
  · cases page <;> rfl

theorem session_back : (p.session u log).back = p.back.session u log := by
  obtain ⟨_ | ⟨page, below⟩, requests, signUps⟩ := p
  · rfl
  · cases page <;> rfl

theorem session_editAmount (text : String) :
    (p.editAmount text).session u log = p.session u log := by
  obtain ⟨_ | ⟨page, below⟩, requests, signUps⟩ := p
  · rfl
  · cases page <;> rfl

theorem session_moveDatePicker (description : Date → String) (date : Date) :
    (p.moveDatePicker description date).session u log = p.session u log := by
  obtain ⟨_ | ⟨page, below⟩, requests, signUps⟩ := p
  · rfl
  · cases page <;> rfl

end Local

theorem follows_refl : Follows s s d log (s.session d log) :=
  ⟨fun _ => rfl, fun _ he => he, fun _ hw => Or.inl hw⟩

/-- A call that traps ends the device, and the log stays. -/
theorem follows_crash {t : System Date} {a : App} (hcrashed : d ∈ t.cloud.crashed)
    (hlog : ∀ e ∈ log, e ∈ a.evaluations) (hknown : t.cloud.known = s.cloud.known) :
    Follows s t d log a :=
  ⟨fun hd => absurd hcrashed hd, hlog, fun _ hw => Or.inl (hknown ▸ hw)⟩

theorem follows_toBorrowersTVC (hd : d ∉ s.cloud.crashed) :
    Follows s (s.toBorrowersTVC d) d log (s.session d log).toBorrowersTVC := by
  rcases hu : s.cloud.currentUser d with _ | u
  · rw [toBorrowersTVC_none hd hu]
    refine follows_crash List.mem_cons_self ?_ rfl
    intro e he
    simp [App.toBorrowersTVC, App.call, System.session, Phone.session, hu,
      retrieveBorrowersFromDatabase, child_borrowers, bind, Except.bind, he]
  · have hsession : (s.session d log).toBorrowersTVC =
        { s.session d log with
          stack := .borrowers u :: (s.phones d).pages.map Page.screen
          evaluations := ⟨.retrieveBorrowersFromDatabase, some u,
            tableIn ((s.phones d).pages.map Page.screen)⟩ :: log } := by
      simp [App.toBorrowersTVC, App.call, System.session, Phone.session, hu]
    rw [toBorrowersTVC_some hd hu, hsession]
    refine ⟨fun _ => ?_, fun e he => List.mem_cons_of_mem _ he, fun _ hw => Or.inl hw⟩
    simp [System.session, System.set, Phone.session, Phone.push, Page.screen, Cloud.attach, hu]

theorem follows_toPaymentsTVC (hd : d ∉ s.cloud.crashed) (b : Borrower) :
    Follows s (s.toPaymentsTVC d b) d log ((s.session d log).toPaymentsTVC b) := by
  rcases hresult : retrievePayments (s.cloud.currentUser d) (some b) with fault | node
  · rw [toPaymentsTVC_error hd hresult]
    refine follows_crash List.mem_cons_self ?_ rfl
    intro e he
    simp [App.toPaymentsTVC, App.call, System.session, Phone.session, hresult, he]
  · have hsession : (s.session d log).toPaymentsTVC b =
        { s.session d log with
          stack := .payments b :: (s.phones d).pages.map Page.screen
          evaluations := ⟨.retrievePayments, s.cloud.currentUser d,
            tableIn ((s.phones d).pages.map Page.screen)⟩ :: log } := by
      simp [App.toPaymentsTVC, App.call, System.session, Phone.session, hresult]
    rw [toPaymentsTVC_ok hd hresult, hsession]
    refine ⟨fun _ => ?_, fun e he => List.mem_cons_of_mem _ he, fun _ hw => Or.inl hw⟩
    simp [System.session, System.set, Phone.session, Phone.push, Page.screen, Cloud.attach]

theorem follows_authSucceeded (hd : d ∉ s.cloud.crashed) (i : Nat) (user : Uid) :
    Follows s (s.authSucceeded d i user) d log ((s.session d log).authSucceeded i user) := by
  unfold System.authSucceeded App.authSucceeded
  have hrequests : (s.session d log).requests = (s.phones d).requests := rfl
  rw [hrequests]
  rcases (s.phones d).requests[i]? with _ | ⟨origin, _ | u⟩
  · exact follows_refl
  · refine ⟨fun _ => ?_, fun _ he => he, fun w hw => ?_⟩
    · simp [System.session, System.set, System.call, Phone.session, CloudStep.apply, Cloud.on, hd]
    · simp only [System.set, System.call, CloudStep.apply, Cloud.on, hd, if_false] at hw
      exact Or.inl hw
  · exact follows_refl

theorem follows_authCompleted (hd : d ∉ s.cloud.crashed) (i : Nat) (shown : Bool) :
    Follows s (s.authCompleted d i shown) d log ((s.session d log).authCompleted i shown) := by
  unfold System.authCompleted App.authCompleted
  have hrequests : (s.session d log).requests = (s.phones d).requests := rfl
  rw [hrequests]
  rcases (s.phones d).requests[i]? with _ | ⟨origin, _ | u⟩
  · exact follows_refl
  · exact follows_refl
  · let p := { s.phones d with requests := (s.phones d).requests.eraseIdx i }
    have hset : Follows s (s.set d p) d log ((s.set d p).session d log) :=
      follows_set (session_set p)
    have hpages : ((s.set d p).phones d).pages = (s.phones d).pages := by simp [System.set, p]
    have hstack : (s.session d log).stack = (s.phones d).pages.map Page.screen := rfl
    have htable := hset.trans (follows_toBorrowersTVC hd)
    rw [session_set] at hset htable
    simp only [hstack]
    change Follows s (if origin ∈ ((s.set d p).phones d).pages.map Page.screen ∨ shown = true then
      (s.set d p).toBorrowersTVC d else s.set d p) d log _
    rw [hpages]
    split
    · exact htable
    · exact hset

theorem follows_logoutButtonTapped (hd : d ∉ s.cloud.crashed) (signedOut : Bool) :
    Follows s (s.logoutButtonTapped d signedOut) d log
      ((s.session d log).logoutButtonTapped signedOut) := by
  unfold System.logoutButtonTapped App.logoutButtonTapped
  have hstack : (s.session d log).stack = (s.phones d).pages.map Page.screen := rfl
  rw [hstack]
  rcases (s.phones d).pages with _ | ⟨page, below⟩
  · exact follows_refl
  · cases page with
    | borrowers i uid =>
      cases signedOut with
      | true =>
        refine ⟨fun _ => ?_, fun _ he => he, fun w hw => ?_⟩
        · simp [System.session, System.set, System.call, Phone.session, CloudStep.apply, Cloud.on,
            hd, Page.screen]
        · simp only [System.set, System.call, CloudStep.apply, Cloud.on, hd, if_true, if_false] at hw
          exact Or.inl hw
      | false =>
        refine ⟨fun _ => ?_, fun _ he => he, fun w hw => Or.inl hw⟩
        simp [System.session, System.set, Phone.session, Page.screen]
    | _ => exact follows_refl

theorem follows_onTable (F : Foundation) (e : TableEvent) :
    Follows s (s.onTable d F e) d log (s.session d log) := by
  unfold System.onTable
  rcases s.topTable d with _ | ⟨i, vc⟩
  · exact follows_refl
  · exact ⟨fun _ => rfl, fun _ he => he, fun _ hw => Or.inl hw⟩

/-- The table that takes a tap is on top. -/
theorem topTable_eq_some {i : Nat} {vc : BorrowersTableViewController}
    (h : s.topTable d = some (i, vc)) :
    ∃ uid below, (s.phones d).pages = .borrowers i uid :: below ∧ s.cloud.table i = some vc := by
  unfold System.topTable at h
  split at h
  · rename_i j uid below hpages
    obtain ⟨vc', hvc, heq⟩ := Option.map_eq_some_iff.mp h
    cases heq
    exact ⟨uid, below, hpages, hvc⟩
  · cases h

theorem follows_didSelectRowAt (row : Nat) (today : Date) :
    Follows s (s.didSelectRowAt d row today) d log
      (exec AppEvent.handle (s.session d log)
        ((PhoneEvent.didSelectRowAt row today).appEvent s d).toList) := by
  unfold System.didSelectRowAt PhoneEvent.appEvent
  rcases htop : s.topTable d with _ | ⟨i, vc⟩
  · exact follows_refl
  · obtain ⟨uid, below, hpages, -⟩ := topTable_eq_some htop
    simp only
    split
    · rcases (vc.didSelectRowAt row).prepareForBorrowerVC with fault | b
      · exact follows_crash List.mem_cons_self (fun _ he => he) rfl
      · refine ⟨fun _ => ?_, fun e he => ?_, fun _ hw => Or.inl hw⟩
        · simp [Except.toOption, AppEvent.handle, App.didSelectRowAt, System.session, System.set,
            Phone.session, Phone.push, Page.screen, OpenedBorrower.forBorrower, Cloud.setTable, hpages]
        · simp [Except.toOption, AppEvent.handle, App.didSelectRowAt, System.session,
            Phone.session, Page.screen, hpages, he]
    · exact follows_refl

/-- A call that writes, and what the device does after it. -/
theorem follows_call {α : Type} {site : Site} {result : Except Fault α} {a : CloudStep}
    {next : System Date → System Date} {next' : App → App}
    (huser : (a.apply s.cloud).currentUser d = s.cloud.currentUser d)
    (htrap : d ∈ (a.apply s.cloud).crashed ↔ ∃ fault, result = .error fault)
    (hwritten : ∀ w ∈ (a.apply s.cloud).known, w ∈ s.cloud.known ∨
      w.LoggedIn [⟨site, s.cloud.currentUser d, tableIn (s.session d log).stack⟩])
    (hnext : ∀ log', d ∉ (a.apply s.cloud).crashed →
      Follows (s.call a) (next (s.call a)) d log' (next' ((s.call a).session d log'))) :
    Follows s ((s.call a).goOn d next) d log ((s.session d log).call site result next') := by
  let log' := ⟨site, s.cloud.currentUser d, tableIn (s.session d log).stack⟩ :: log
  have hsession : { s.session d log with evaluations := log' } = (s.call a).session d log' := by
    simp only [System.session, System.call, Phone.session, huser]
  have hstep : Follows s (s.call a) d log ((s.call a).session d log') := by
    refine ⟨fun _ => rfl, fun e he => List.mem_cons_of_mem _ he, ?_⟩
    intro w hw
    rcases hwritten w hw with hw | hw
    · exact Or.inl hw
    · exact Or.inr (hw.mono fun e he => by simp_all [System.session, Phone.session, log'])
  unfold System.goOn App.call
  rcases hresult : result with fault | x
  · have hcrashed : d ∈ (s.call a).cloud.crashed := htrap.mpr ⟨fault, hresult⟩
    rw [if_pos hcrashed]
    exact ⟨fun hd => absurd hcrashed hd, hstep.log, hstep.written⟩
  · have hrunning : d ∉ (s.call a).cloud.crashed := by
      intro hcrashed
      obtain ⟨fault, hfault⟩ := htrap.mp hcrashed
      rw [hresult] at hfault
      cases hfault
    rw [if_neg hrunning]
    have hgo := hstep.trans (hnext log' hrunning)
    rw [← hsession] at hgo
    exact hgo

theorem follows_addBorrowerButtonTapped (hd : d ∉ s.cloud.crashed) (name debt : String) (key : Key) :
    Follows s (s.addBorrowerButtonTapped d name debt key) d log
      ((s.session d log).addBorrowerButtonTapped name debt) := by
  unfold System.addBorrowerButtonTapped App.addBorrowerButtonTapped
  have hstack : (s.session d log).stack = (s.phones d).pages.map Page.screen := rfl
  rw [hstack]
  rcases (s.phones d).pages with _ | ⟨page, below⟩
  · exact follows_refl
  · cases page with
    | addBorrower =>
      apply follows_call
      · rw [apply_sendBorrower_of_running hd, currentUser_send]
      · have huser : (s.session d log).currentUser = s.cloud.currentUser d := rfl
        rw [apply_sendBorrower_of_running hd, mem_crashed_send hd, huser]
        rcases sendBorrowersToDatabase (s.cloud.currentUser d) (some name) (some debt) with _ | push <;>
          simp [Functor.map, Except.map]
      · intro w hw
        rcases known_apply hw with hw | ⟨-, -, -, u, hu, hw⟩
        · exact Or.inl hw
        · exact Or.inr ⟨_, List.mem_singleton_self _, u, hu, Or.inl ⟨rfl, name, debt, hw⟩⟩
      · intro log' _
        exact follows_set rfl
    | _ => exact follows_refl

theorem follows_addPaymentButtonTapped (hd : d ∉ s.cloud.crashed) (key : Key) :
    Follows s (s.addPaymentButtonTapped d key) d log
      (exec AppEvent.handle (s.session d log)
        ((PhoneEvent.addPaymentButtonTapped key).appEvent s d).toList) := by
  unfold System.addPaymentButtonTapped PhoneEvent.appEvent
  rcases hpages : (s.phones d).pages with _ | ⟨page, below⟩
  · exact follows_refl
  · cases page with
    | borrower vc =>
      have hstack : (s.session d log).stack = .borrower vc.borrower :: below.map Page.screen := by
        simp [System.session, Phone.session, hpages, Page.screen]
      have hrunning : (s.session d log).crashed = none := rfl
      have hevent : exec AppEvent.handle (s.session d log)
          (some (AppEvent.addPaymentButtonTapped vc.text vc.dateDisplayed)).toList =
          (s.session d log).addPaymentButtonTapped vc.text vc.dateDisplayed := by
        simp [AppEvent.handle, hrunning]
      simp only [hevent]
      unfold App.addPaymentButtonTapped
      rw [hstack]
      simp only
      split
      · exact follows_refl
      · apply follows_call
        · rw [apply_sendPayment_of_running hd, currentUser_send]
        · rw [apply_sendPayment_of_running hd, mem_crashed_send hd]
          rfl
        · intro w hw
          rcases known_apply hw with hw | ⟨-, -, -, -, u, day, hu, -, hw⟩
          · exact Or.inl hw
          · exact Or.inr ⟨_, List.mem_singleton_self _, u, hu,
              Or.inr ⟨rfl, vc.borrower.name, vc.text, day, hw⟩⟩
        · intro log' hgoes
          exact follows_toPaymentsTVC hgoes vc.borrower
    | _ => exact follows_refl

theorem follows_paymentsFolderButtonTapped (hd : d ∉ s.cloud.crashed) :
    Follows s (s.paymentsFolderButtonTapped d) d log
      (s.session d log).paymentsFolderButtonTapped := by
  unfold System.paymentsFolderButtonTapped App.paymentsFolderButtonTapped
  have hstack : (s.session d log).stack = (s.phones d).pages.map Page.screen := rfl
  rw [hstack]
  rcases (s.phones d).pages with _ | ⟨page, below⟩
  · exact follows_refl
  · cases page with
    | borrower vc => exact follows_toPaymentsTVC hd vc.borrower
    | _ => exact follows_refl

/-- Every event of a running device is one of its session, or none. -/
theorem follows_handle (F : Foundation) (description : Date → String) (hd : d ∉ s.cloud.crashed)
    (e : PhoneEvent Date) :
    Follows s (e.handle F description s d) d log
      (exec AppEvent.handle (s.session d log) (e.appEvent s d).toList) := by
  cases e with
  | signInButtonTapped => exact follows_set (session_signInButtonTapped _ _)
  | signUpButtonTapped => exact follows_set (session_signUpButtonTapped _ _)
  | createAccountButtonTapped password confirm =>
    exact follows_set (session_createAccountButtonTapped _ _ password confirm)
  | authSucceeded i user => exact follows_authSucceeded hd i user
  | authFailed i => exact follows_set (session_authFailed _ _ i)
  | authCompleted i shown => exact follows_authCompleted hd i shown
  | logoutButtonTapped signedOut => exact follows_logoutButtonTapped hd signedOut
  | textDidChange text => exact follows_onTable F _
  | searchBarSearchButtonClicked => exact follows_onTable F _
  | didSelectRowAt row today => exact follows_didSelectRowAt row today
  | addButtonTapped => exact follows_set (session_addButtonTapped _ _)
  | addBorrowerButtonTapped name debt key => exact follows_addBorrowerButtonTapped hd name debt key
  | editAmount text => exact follows_set (session_editAmount _ _ text).symm
  | moveDatePicker date => exact follows_set (session_moveDatePicker _ _ description date).symm
  | addPaymentButtonTapped key => exact follows_addPaymentButtonTapped hd key
  | paymentsFolderButtonTapped => exact follows_paymentsFolderButtonTapped hd
  | back => exact follows_set (session_back _ _)

end Events

/-! ## The other devices and the server -/

theorem crashed_on {c t : Cloud} {d d' : Device} (h : d ∈ c.crashed) (ht : d ∈ t.crashed) :
    d ∈ (c.on d' t).crashed := by
  unfold Cloud.on
  split
  · exact h
  · exact ht

theorem crashed_attach {c : Cloud} {d : Device} (h : d ∈ c.crashed) (d' : Device)
    (controller : ListController) (result : Except Fault Reference) :
    d ∈ (c.attach d' controller result).crashed := by
  rcases result with fault | node
  · exact List.mem_cons_of_mem _ h
  · exact h

theorem crashed_send {c : Cloud} {d : Device} (h : d ∈ c.crashed) (d' : Device) (key : Key)
    (result : Except Fault (Option Push)) : d ∈ (c.send d' key result).crashed := by
  rcases result with fault | (_ | push)
  · exact List.mem_cons_of_mem _ h
  · exact h
  · exact h

/-- An app that has ended does not come back. -/
theorem crashed_apply {c : Cloud} {d : Device} (a : CloudStep) (h : d ∈ c.crashed) :
    d ∈ (a.apply c).crashed := by
  cases a with
  | signedIn d' u => exact crashed_on h h
  | signedOut d' => exact crashed_on h h
  | borrowersViewDidLoad d' => exact crashed_on h (crashed_attach h _ _ _)
  | paymentsViewDidLoad d' b => exact crashed_on h (crashed_attach h _ _ _)
  | sendBorrower d' name debt key => exact crashed_on h (crashed_send h _ _ _)
  | sendPayment d' b amount date key => exact crashed_on h (crashed_send h _ _ _)
  | accepted key =>
    simp only [CloudStep.apply, Cloud.accept]
    split <;> exact h
  | rejected key =>
    simp only [CloudStep.apply, Cloud.reject]
    split <;> exact h
  | deliver i =>
    simp only [CloudStep.apply, Cloud.deliver]
    repeat' split
    all_goals simp [Cloud.crash, h]

theorem currentUser_apply {c : Cloud} {d : Device} {a : CloudStep} (h : a.device ≠ some d) :
    (a.apply c).currentUser d = c.currentUser d := by
  rcases currentUser_apply_cases c a with heq | ⟨d', user, heq, ⟨u, rfl, -⟩ | ⟨rfl, -⟩⟩
  · rw [heq]
  · have hne : d ≠ d' := fun hd => h (by rw [hd]; rfl)
    rw [heq, Function.update_of_ne hne]
  · have hne : d ≠ d' := fun hd => h (by rw [hd]; rfl)
    rw [heq, Function.update_of_ne hne]

/-- A step of another device, or of the server, leaves a device where it is. It
can only end its app, by a delivery that traps. -/
structure Untouched (d : Device) (s t : System Date) : Prop where
  phone : t.phones d = s.phones d
  user : t.cloud.currentUser d = s.cloud.currentUser d
  crashed : d ∈ s.cloud.crashed → d ∈ t.cloud.crashed
  written : ∀ w ∈ t.cloud.known, w ∈ s.cloud.known ∨ w.device ≠ d

section Others
variable {s t r : System Date} {d d' : Device}

theorem Untouched.refl (s : System Date) : Untouched d s s :=
  ⟨rfl, rfl, fun h => h, fun _ hw => Or.inl hw⟩

theorem Untouched.trans (h : Untouched d s t) (h' : Untouched d t r) : Untouched d s r := by
  refine ⟨h'.phone.trans h.phone, h'.user.trans h.user, fun hd => h'.crashed (h.crashed hd), ?_⟩
  intro w hw
  rcases h'.written w hw with hw | hw
  · exact h.written w hw
  · exact Or.inr hw

theorem Untouched.set (h : Untouched d s t) (hne : d' ≠ d) (p : Phone Date) :
    Untouched d s (t.set d' p) := by
  have hphone : (t.set d' p).phones d = t.phones d := Function.update_of_ne hne.symm _ _
  exact ⟨hphone.trans h.phone, h.user, h.crashed, h.written⟩

theorem untouched_call (s : System Date) {a : CloudStep} (h : a.device ≠ some d) :
    Untouched d s (s.call a) := by
  refine ⟨rfl, currentUser_apply h, crashed_apply a, ?_⟩
  intro w hw
  rcases known_apply hw with hw | hw
  · exact Or.inl hw
  · refine Or.inr fun hd => h ?_
    rw [hw.device, hd]

theorem Untouched.goOn (h : Untouched d s t) {next : System Date → System Date}
    (hnext : Untouched d s (next t)) : Untouched d s (t.goOn d' next) := by
  unfold System.goOn
  split
  · exact h
  · exact hnext

theorem untouched_toBorrowersTVC (s : System Date) (hne : d' ≠ d) :
    Untouched d s (s.toBorrowersTVC d') := by
  have hcall : Untouched d s (s.call (.borrowersViewDidLoad d')) :=
    untouched_call s (by simpa [CloudStep.device] using hne)
  apply hcall.goOn
  split
  · exact hcall.set hne _
  · exact hcall

theorem untouched_toPaymentsTVC (s : System Date) (hne : d' ≠ d) (b : Borrower) :
    Untouched d s (s.toPaymentsTVC d' b) := by
  have hcall : Untouched d s (s.call (.paymentsViewDidLoad d' b)) :=
    untouched_call s (by simpa [CloudStep.device] using hne)
  exact hcall.goOn (hcall.set hne _)

theorem untouched_table (s : System Date) (i : Nat) (vc : BorrowersTableViewController) :
    Untouched d s { s with cloud := s.cloud.setTable i vc } :=
  ⟨rfl, rfl, fun h => h, fun _ hw => Or.inl hw⟩

theorem untouched_onTable (s : System Date) (F : Foundation) (e : TableEvent) :
    Untouched d s (s.onTable d' F e) := by
  unfold System.onTable
  split
  · exact untouched_table s _ _
  · exact .refl s

theorem untouched_handle (s : System Date) (F : Foundation) (description : Date → String)
    (hne : d' ≠ d) (e : PhoneEvent Date) : Untouched d s (e.handle F description s d') := by
  have hrefl : Untouched d s s := .refl s
  cases e with
  | authSucceeded i user =>
    simp only [PhoneEvent.handle, System.authSucceeded]
    split
    · exact (untouched_call s (by simpa [CloudStep.device] using hne)).set hne _
    · exact hrefl
  | authCompleted i shown =>
    simp only [PhoneEvent.handle, System.authCompleted]
    split
    · split
      · exact (hrefl.set hne _).trans (untouched_toBorrowersTVC _ hne)
      · exact hrefl.set hne _
    · exact hrefl
  | logoutButtonTapped signedOut =>
    simp only [PhoneEvent.handle, System.logoutButtonTapped]
    split
    · split
      · exact (untouched_call s (by simpa [CloudStep.device] using hne)).set hne _
      · exact hrefl.set hne _
    · exact hrefl
  | textDidChange text => exact untouched_onTable s F _
  | searchBarSearchButtonClicked => exact untouched_onTable s F _
  | didSelectRowAt row today =>
    simp only [PhoneEvent.handle, System.didSelectRowAt]
    split
    · split
      · split
        · exact (untouched_table s _ _).set hne _
        · exact ⟨rfl, rfl, fun h => List.mem_cons_of_mem _ h, fun _ hw => Or.inl hw⟩
      · exact hrefl
    · exact hrefl
  | addBorrowerButtonTapped name debt key =>
    simp only [PhoneEvent.handle, System.addBorrowerButtonTapped]
    split
    · have hcall : Untouched d s (s.call (.sendBorrower d' name debt key)) :=
        untouched_call s (by simpa [CloudStep.device] using hne)
      exact hcall.goOn (hcall.set hne _)
    · exact hrefl
  | addPaymentButtonTapped key =>
    simp only [PhoneEvent.handle, System.addPaymentButtonTapped]
    split
    · split
      · exact hrefl
      · have hcall : ∀ b amount date, Untouched d s (s.call (.sendPayment d' b amount date key)) :=
          fun b amount date => untouched_call s (by simpa [CloudStep.device] using hne)
        exact (hcall _ _ _).goOn ((hcall _ _ _).trans (untouched_toPaymentsTVC _ hne _))
    · exact hrefl
  | paymentsFolderButtonTapped =>
    simp only [PhoneEvent.handle, System.paymentsFolderButtonTapped]
    split
    · exact untouched_toPaymentsTVC s hne _
    · exact hrefl
  | _ => exact hrefl.set hne _

theorem Tracks.untouched {a : App} (h : Tracks s d a) (hu : Untouched d s t) : Tracks t d a := by
  refine ⟨?_, ?_⟩
  · intro hd
    have hsession : t.session d a.evaluations = s.session d a.evaluations := by
      rw [System.session, hu.phone, hu.user, System.session]
    rw [hsession]
    exact h.running fun hs => hd (hu.crashed hs)
  · intro w hw hd
    rcases hu.written w hw with hw | hw
    · exact h.logged w hw hd
    · exact absurd hd hw

end Others

/-! ## Every device runs a session -/

section Runs
variable (F : Foundation) (description : Date → String)

/-- An orderly step is an orderly event of the session, whatever its log. -/
theorem orderly_of_isOrderly {s : System Date} {d : Device} {e : PhoneEvent Date} {e' : AppEvent}
    (h : (SystemStep.app d e).IsOrderly s) (he : e.appEvent s d = some e') (log : List Evaluation) :
    Orderly (s.session d log) e' := by
  cases e with
  | authSucceeded i user =>
    cases he
    exact h
  | logoutButtonTapped signedOut =>
    cases he
    cases signedOut <;> exact h
  | didSelectRowAt row today =>
    simp only [PhoneEvent.appEvent] at he
    split at he
    · split at he
      · obtain ⟨b, -, rfl⟩ := Option.map_eq_some_iff.mp he
        trivial
      · cases he
    · cases he
  | addPaymentButtonTapped key =>
    simp only [PhoneEvent.appEvent] at he
    split at he
    · cases he
      trivial
    · cases he
  | textDidChange _ | searchBarSearchButtonClicked | editAmount _ | moveDatePicker _ => cases he
  | _ =>
    cases he
    trivial

theorem Tracks.step {s : System Date} {d : Device} {a : App} (h : Tracks s d a)
    (x : SystemStep Date) :
    ∃ es, Tracks (x.apply F description s) d (exec AppEvent.handle a es) ∧
      (x.IsOrderly s → Each AppEvent.handle Orderly a es) := by
  cases x with
  | app d' e =>
    simp only [SystemStep.apply]
    split
    · exact ⟨[], h, fun _ => trivial⟩
    · rename_i hd
      by_cases hne : d' = d
      · subst hne
        have hsession := h.running hd
        refine ⟨(e.appEvent s d').toList, ?_, ?_⟩
        · have hfollows : Follows s (e.handle F description s d') d' a.evaluations
              (exec AppEvent.handle (s.session d' a.evaluations) (e.appEvent s d').toList) :=
            follows_handle F description hd e
          rw [← hsession] at hfollows
          exact h.follows hfollows
        · intro horderly
          rcases he : e.appEvent s d' with _ | e'
          · trivial
          · rw [hsession]
            exact ⟨orderly_of_isOrderly horderly he _, trivial⟩
      · exact ⟨[], h.untouched (untouched_handle s F description hne e), fun _ => trivial⟩
  | accepted key =>
    exact ⟨[], h.untouched (untouched_call s (by simp [CloudStep.device])), fun _ => trivial⟩
  | rejected key =>
    exact ⟨[], h.untouched (untouched_call s (by simp [CloudStep.device])), fun _ => trivial⟩
  | deliver i =>
    exact ⟨[], h.untouched (untouched_call s (by simp [CloudStep.device])), fun _ => trivial⟩

/-- The app is launched on every device, and Auth remembers a user or none. -/
def launched (currentUser : Device → Option Uid) : System Date := { cloud := { currentUser } }

theorem tracks_launched (currentUser : Device → Option Uid) (d : Device) :
    Tracks (launched currentUser : System Date) d { currentUser := currentUser d } :=
  ⟨fun _ => rfl, by simp [launched, Cloud.known]⟩

/-- On any number of devices and in every order of steps, what a device does is
a run of a session, in whose log all its writes stand. When the system
runs orderly, so does the session, and it stays bound. -/
theorem every_device_runs_a_session (currentUser : Device → Option Uid)
    (run : List (SystemStep Date)) (d : Device) :
    ∃ es, Tracks (exec (SystemStep.apply F description) (launched currentUser) run) d
        (exec AppEvent.handle { currentUser := currentUser d } es) ∧
      (Each (SystemStep.apply F description) SystemStep.IsOrderly (launched currentUser) run →
        Each AppEvent.handle Orderly { currentUser := currentUser d } es ∧
          SessionBound (exec AppEvent.handle { currentUser := currentUser d } es)) := by
  obtain ⟨es, htracks, horderly⟩ := exec_simulated (E := Orderly)
    (fun s a x (h : Tracks s d a) => h.step F description x) (tracks_launched currentUser d) run
  refine ⟨es, htracks, fun hrun => ⟨horderly hrun, ?_⟩⟩
  have hsettled : Settled (exec AppEvent.handle { currentUser := currentUser d } es) :=
    exec_invariant (settled_initial _) (fun _ _ hs he => hs.handle he) (horderly hrun)
  exact hsettled.bound

end Runs

end SharkCollector
