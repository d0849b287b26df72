-- Runs without traps: when the names of the borrowers are legal and those of one
-- account lead to paths apart from one another, no device of an orderly system ever
-- ends, and every page shows the records that it is about. The first half is what
-- lets the second speak of all devices.
import SharkCollector.Integrity

namespace SharkCollector

open PathTree Runs

variable {Date : Type}

/-! ## What keeps the app running -/

/-- Every borrower has one of the `names` of its account, every list is fed, and
no device has ended. -/
structure Running (names : Set (Uid × String)) (description : Date → String) (s : System Date) :
    Prop where
  sound : Sound description s
  feeding : Feeding names s.cloud
  named : ∀ w ∈ s.cloud.known, ∀ u name debt, w.IsBorrower u name debt → (u, name) ∈ names
  running : s.cloud.crashed = []

section Calls
variable {c : Cloud} {d : Device}

/-- Calls of a running app under its user do not trap, when the names that they use are legal. -/
theorem crashed_borrowersViewDidLoad {u : Uid} (hu : c.currentUser d = some u) :
    (CloudStep.apply c (.borrowersViewDidLoad d)).crashed = c.crashed := by
  rw [CloudStep.apply, hu, retrieveBorrowersFromDatabase_some, Cloud.on]
  split <;> rfl

theorem crashed_paymentsViewDidLoad {u : Uid} (hu : c.currentUser d = some u) {b : Borrower}
    (hb : IsPathString b.name) :
    (CloudStep.apply c (.paymentsViewDidLoad d b)).crashed = c.crashed := by
  rw [CloudStep.apply, hu, retrievePayments_ok u b hb, Cloud.on]
  split <;> rfl

theorem crashed_send_ok (key : Key) (push : Option Push) :
    (c.send d key (.ok push)).crashed = c.crashed := by
  cases push <;> rfl

theorem crashed_sendBorrower {u : Uid} (hu : c.currentUser d = some u) (name debt : String)
    (key : Key) : (CloudStep.apply c (.sendBorrower d name debt key)).crashed = c.crashed := by
  rw [CloudStep.apply, hu, sendBorrowersToDatabase_some, Cloud.on]
  split
  · rfl
  · exact crashed_send_ok key _

theorem crashed_sendPayment {u : Uid} (hu : c.currentUser d = some u) {b : Borrower}
    (hb : IsPathString b.name) (amount : String) (date : Option String) (key : Key) :
    (CloudStep.apply c (.sendPayment d b amount date key)).crashed = c.crashed := by
  rw [CloudStep.apply, hu, sendPaymentsToDatabase_eq u b _ _ hb, Cloud.on]
  split
  · rfl
  · exact crashed_send_ok key _

end Calls

section Steps
variable {names : Set (Uid × String)} {description : Date → String} {s : System Date} {d : Device}

theorem Running.mem_names (h : Running names description s) {u : Uid} {b : Borrower}
    (hb : s.cloud.Knows u b) : (u, b.name) ∈ names := by
  obtain ⟨w, hw, -, hborrower⟩ := hb
  exact h.named w hw u b.name b.debt hborrower

/-- The borrower of a screen on top has one of the names of the user. -/
theorem Running.borrower_top (h : Running names description s) {vc : OpenedBorrower Date}
    {below : List (Page Date)} (hpages : (s.phones d).pages = .borrower vc :: below) :
    ∃ uid, s.cloud.currentUser d = some uid ∧ (uid, vc.borrower.name) ∈ names := by
  have hd : d ∉ s.cloud.crashed := by simp [h.running]
  obtain ⟨log, hsettled⟩ := h.sound.settled hd
  obtain ⟨⟨uid, huid, hknows⟩, -⟩ := (h.sound.standing d).top hpages
  obtain ⟨v, hv, huser⟩ := user_of_borrower hsettled hpages
  -- Both are the account of the table below.
  rw [hpages] at hv
  obtain rfl : v = uid := Option.some.inj (hv.symm.trans huid)
  exact ⟨v, huser, h.mem_names hknows⟩

/-- The user of a device on the screen that adds borrowers. -/
theorem Running.addBorrower_top (h : Running names description s) {below : List (Page Date)}
    (hpages : (s.phones d).pages = .addBorrower :: below) : ∃ uid, s.cloud.currentUser d = some uid := by
  have hd : d ∉ s.cloud.crashed := by simp [h.running]
  obtain ⟨log, hsettled⟩ := h.sound.settled hd
  have htop : (s.session d log).stack = .addBorrower :: below.map Page.screen := by
    simp [System.session, Phone.session, hpages, Page.screen]
  have hnested := hsettled.nested
  rw [htop] at hnested
  obtain ⟨uid, huid, -⟩ := hnested.addBorrower_top
  exact ⟨uid, (hsettled.user htop rfl huid).2⟩

/-- A request that succeeded still has its user. -/
theorem Running.request_user (h : Running names description s) {i : Nat} {origin : Screen} {user : Uid}
    (hreq : (s.phones d).requests[i]? = some { origin, user := some user }) :
    ∃ uid, s.cloud.currentUser d = some uid := by
  have hd : d ∉ s.cloud.crashed := by simp [h.running]
  obtain ⟨log, hsettled⟩ := h.sound.settled hd
  have hsome := hsettled.waiting _ (List.mem_of_getElem? hreq) rfl
  exact Option.isSome_iff_exists.mp hsome

theorem Running.crashed_deliver (h : Running names description s) (hpaths : PathsApart names)
    (i : Nat) : (s.cloud.deliver i).crashed = [] := by
  unfold Cloud.deliver
  rcases ho : s.cloud.observers[i]? with _ | o
  · exact h.running
  · rcases hinbox : o.inbox with _ | ⟨e, rest⟩
    · simp only [hinbox]
      exact h.running
    · obtain ⟨controller, hreceive⟩ := h.feeding.receive_ok hpaths (List.mem_of_getElem? ho) hinbox
      simp only [hinbox, hreceive]
      split <;> exact h.running

/-- No effect of an event is a trap. -/
theorem Running.crashed_effect (h : Running names description s)
    (hlegal : ∀ p ∈ names, IsPathString p.2) {F : Foundation} {d : Device} {e : PhoneEvent Date}
    {c : Cloud} (heffect : Effect F s d e c) : c.crashed = [] := by
  cases heffect with
  | idle => exact h.running
  | signedIn user => simp [CloudStep.apply, Cloud.on, h.running]
  | signedOut => simp [CloudStep.apply, Cloud.on, h.running]
  | tableOpened hrequest =>
    obtain ⟨uid, huser⟩ := h.request_user hrequest
    exact (crashed_borrowersViewDidLoad huser).trans h.running
  | searched hvc htaps hsame => exact h.running
  | tapped hvc hrow hb => exact h.running
  | @trapped i row today vc fault hvc hrow hfault =>
    obtain ⟨o, ho, hcontroller⟩ := table_eq_some.mp hvc
    have hindexed := h.sound.indexed o (List.mem_of_getElem? ho) vc hcontroller
    obtain ⟨b, hb⟩ := hindexed.inBounds.tap row hrow
    rw [hb] at hfault
    cases hfault
  | borrowerSent hpages =>
    obtain ⟨uid, huser⟩ := h.addBorrower_top hpages
    exact (crashed_sendBorrower huser _ _ _).trans h.running
  | @paymentSent key vc below hpages htext =>
    obtain ⟨uid, huser, hname⟩ := h.borrower_top hpages
    have hsend := crashed_sendPayment huser (hlegal _ hname) vc.text vc.dateDisplayed key
    have huser' : (CloudStep.apply s.cloud
        (.sendPayment d vc.borrower vc.text vc.dateDisplayed key)).currentUser d = some uid :=
      (congrFun (currentUser_on (currentUser_send ..) d) d).trans huser
    rw [exec_cons, exec_cons, exec_nil, crashed_paymentsViewDidLoad huser' (hlegal _ hname), hsend]
    exact h.running
  | listOpened hpages =>
    obtain ⟨uid, huser, hname⟩ := h.borrower_top hpages
    exact (crashed_paymentsViewDidLoad huser (hlegal _ hname)).trans h.running

/-- The name that the Add button of a step gives, under the user of the device. -/
def SystemStep.addedName (s : System Date) : SystemStep Date → Option (Uid × String)
  | .app d (.addBorrowerButtonTapped name _ _) => (s.cloud.currentUser d).map fun u => (u, name)
  | _ => none

theorem Running.step (h : Running names description s) (hpaths : PathsApart names)
    (hlegal : ∀ p ∈ names, IsPathString p.2) (F : Foundation) {x : SystemStep Date}
    (horderly : x.IsOrderly s) (hfresh : x.IsFresh s)
    (hadded : ∀ p, x.addedName s = some p → p ∈ names) :
    Running names description (x.apply F description s) := by
  have hnames : ∀ d vc below, (s.phones d).pages = .borrower vc :: below →
      ∀ u, s.cloud.currentUser d = some u → (u, vc.borrower.name) ∈ names := by
    intro d vc below hpages u hu
    obtain ⟨uid, huser, hname⟩ := h.borrower_top hpages
    obtain rfl : uid = u := Option.some.inj (huser.symm.trans hu)
    exact hname
  have hmoves := moves_step F description hfresh hnames
  refine ⟨h.sound.step F horderly hfresh, (hmoves.feeding h.feeding).1, ?_, ?_⟩
  · intro w hw u name debt hborrower
    rcases known_step F description hw with
      hold | ⟨name', debt', below, v, rfl, -, -, hv, hnew⟩ |
        ⟨vc, below, v, day, -, -, -, -, -, -, -, hpayment⟩
    · exact h.named w hold u name debt hborrower
    · obtain ⟨rfl, rfl, -⟩ := hborrower.inj hnew
      exact hadded _ (by simp [SystemStep.addedName, hv])
    · exact absurd hborrower (not_isBorrower_of_isPayment hpayment)
  · cases x with
    | app d e =>
      simp only [SystemStep.apply]
      split
      · exact h.running
      · exact h.crashed_effect hlegal (effect_handle F description d e)
    | accepted key =>
      simp only [SystemStep.apply, System.call, CloudStep.apply, Cloud.accept]
      split <;> exact h.running
    | rejected key =>
      simp only [SystemStep.apply, System.call, CloudStep.apply, Cloud.reject]
      split <;> exact h.running
    | deliver i => exact h.crashed_deliver hpaths i

end Steps

/-! ## No device ever traps -/

section Results
variable (F : Foundation) (description : Date → String)

/-- The names of the borrowers that a run adds, each under its account. -/
def addedNames (currentUser : Device → Option Uid) (run : List (SystemStep Date)) :
    Set (Uid × String) :=
  { p | ∃ s x, Takes (SystemStep.apply F description) (launched currentUser) run s x ∧
    x.addedName s = some p }

theorem running_launched (names : Set (Uid × String)) (currentUser : Device → Option Uid) :
    Running names description (launched currentUser) where
  sound := sound_launched description currentUser
  feeding := feeding_initial names currentUser
  named := by simp [launched, Cloud.known]
  running := rfl

theorem running_always {currentUser : Device → Option Uid} {run : List (SystemStep Date)}
    (horderly : Each (SystemStep.apply F description) SystemStep.IsOrderly (launched currentUser) run)
    (hfresh : Each (SystemStep.apply F description) SystemStep.IsFresh (launched currentUser) run)
    (hlegal : ∀ p ∈ addedNames F description currentUser run, IsPathString p.2)
    (hpaths : PathsApart (addedNames F description currentUser run)) :
    Always (SystemStep.apply F description)
      (Running (addedNames F description currentUser run) description) (launched currentUser) run := by
  have hadded : Each (SystemStep.apply F description)
      (fun s x => ∀ p, x.addedName s = some p → p ∈ addedNames F description currentUser run)
      (launched currentUser) run := by
    rw [each_iff_takes]
    intro s x htakes p hp
    exact ⟨s, x, htakes, hp⟩
  apply always_invariant (running_launched description _ currentUser) _
    (each_and horderly (each_and hfresh hadded))
  rintro s x hs ⟨ho, hf, ha⟩
  exact hs.step hpaths hlegal F ho hf ha

/-- On any number of devices: when the names of the borrowers are legal and no
name leads through another of the same account, no tap, callback, delivery or answer of an orderly
run ever makes an app trap. -/
theorem no_device_ever_traps (currentUser : Device → Option Uid) (run : List (SystemStep Date))
    (horderly : Each (SystemStep.apply F description) SystemStep.IsOrderly (launched currentUser) run)
    (hfresh : Each (SystemStep.apply F description) SystemStep.IsFresh (launched currentUser) run)
    (hlegal : ∀ p ∈ addedNames F description currentUser run, IsPathString p.2)
    (hpaths : PathsApart (addedNames F description currentUser run)) :
    Always (SystemStep.apply F description) (fun s => s.cloud.crashed = []) (launched currentUser) run :=
  (running_always F description horderly hfresh hlegal hpaths).mono fun _ hs => hs.running

end Results

theorem addedNames_firstPayment :
    ∀ p ∈ addedNames asciiFoundation id (fun _ => none) firstPayment, p.2 = "Ann" := by
  rintro p ⟨s, x, htakes, hp⟩
  have hx := htakes.mem
  simp only [firstPayment, List.mem_cons, List.not_mem_nil, or_false] at hx
  rcases hx with rfl | rfl | rfl | rfl | rfl | rfl | rfl | rfl | rfl | rfl | rfl | rfl <;>
    simp only [SystemStep.addedName, Option.map_eq_some_iff, reduceCtorEq] at hp
  obtain ⟨u, -, rfl⟩ := hp
  rfl

theorem legal_firstPayment :
    ∀ p ∈ addedNames asciiFoundation id (fun _ => none) firstPayment, IsPathString p.2 := by
  intro p hp
  rw [addedNames_firstPayment p hp]
  decide

theorem the_first_payment_does_not_trap :
    (exec (SystemStep.apply asciiFoundation id) (launched fun _ => none)
      firstPayment).cloud.crashed = [] :=
  (no_device_ever_traps asciiFoundation id _ firstPayment orderly_firstPayment fresh_firstPayment
    legal_firstPayment (pathsApart_of_forall_eq addedNames_firstPayment)).last

/-! ## What the pages show -/

/-- The list of an observer, once it has caught up, shows the records of `node`
that the device sees, and besides these only rejected ones of the same device. -/
def Cloud.ListShows (c : Cloud) (d : Device) (i : Nat) (node : Reference) : Prop :=
  ∃ o, c.observers[i]? = some o ∧ (o.inbox = [] → ∃ kept, kept.Sublist c.rejected ∧
    (∀ w ∈ kept, w.device = d) ∧ o.controller.Shows (writesAt node (c.visible d ++ kept)))

/-- A table is about the borrowers of its account, and a list of payments about
the payments through the name of its borrower, under the account of the nearest table. -/
def Page.ShowsIn (c : Cloud) (d : Device) (below : List (Page Date)) : Page Date → Prop
  | .borrowers i uid => c.ListShows d i (borrowersNode uid)
  | .payments i b => ∃ uid, tableIn (below.map Page.screen) = some uid ∧
      c.ListShows d i (paymentsNode uid b.name)
  | _ => True

theorem ShowsWhatItSees.listShows {c : Cloud} (h : ShowsWhatItSees c) {i : Nat} {o : Observer}
    (ho : c.observers[i]? = some o) : c.ListShows o.device i o.node := by
  refine ⟨o, ho, fun hinbox => ?_⟩
  exact h o (List.mem_of_getElem? ho) hinbox

theorem Running.showsIn {names : Set (Uid × String)} {description : Date → String}
    {s : System Date} (h : Running names description s) (hpaths : PathsApart names) {d : Device}
    {page : Page Date} {below : List (Page Date)}
    (hpage : page :: below <:+ (s.phones d).pages) : page.ShowsIn s.cloud d below := by
  have hshows := h.feeding.showsWhatItSees hpaths
  have hgrounded := h.sound.standing d page below hpage
  cases page with
  | borrowers i uid =>
    obtain ⟨o, ho, hdevice, hnode, -⟩ := hgrounded
    have hlist := hshows.listShows ho
    rw [hdevice, hnode] at hlist
    exact hlist
  | payments i b =>
    obtain ⟨uid, o, huid, ho, hdevice, hnode, -⟩ := hgrounded
    have hlist := hshows.listShows ho
    rw [hdevice, hnode] at hlist
    exact ⟨uid, huid, hlist⟩
  | _ => trivial

/-- In every orderly run with names apart, every page of every stack shows the
records that it is about, once its list has caught up, and besides these only
rejected records of its own device. -/
theorem every_page_shows_what_it_is_about (F : Foundation) (description : Date → String)
    (currentUser : Device → Option Uid) (run : List (SystemStep Date))
    (horderly : Each (SystemStep.apply F description) SystemStep.IsOrderly (launched currentUser) run)
    (hfresh : Each (SystemStep.apply F description) SystemStep.IsFresh (launched currentUser) run)
    (hlegal : ∀ p ∈ addedNames F description currentUser run, IsPathString p.2)
    (hpaths : PathsApart (addedNames F description currentUser run)) :
    Always (SystemStep.apply F description)
      (fun s => ∀ d page below, page :: below <:+ (s.phones d).pages → page.ShowsIn s.cloud d below)
      (launched currentUser) run := by
  apply (running_always F description horderly hfresh hlegal hpaths).mono
  intro s hs d page below hpage
  exact hs.showsIn hpaths hpage

/-- The list of payments stands on the borrower screen, this on the table and this on the root. -/
theorem the_pages_of_the_first_payment_show_it :
    ((exec (SystemStep.apply asciiFoundation id) (launched fun _ => none)
        firstPayment).phones 0).pages.length = 4 ∧
      ∀ page below,
        page :: below <:+ ((exec (SystemStep.apply asciiFoundation id) (launched fun _ => none)
          firstPayment).phones 0).pages →
        page.ShowsIn (exec (SystemStep.apply asciiFoundation id) (launched fun _ => none)
          firstPayment).cloud 0 below :=
  ⟨by decide, (every_page_shows_what_it_is_about asciiFoundation id _ firstPayment
    orderly_firstPayment fresh_firstPayment legal_firstPayment
    (pathsApart_of_forall_eq addedNames_firstPayment)).last 0⟩

/-! ## Coming to rest -/

/-- An answer of the server or a delivery. -/
def SystemStep.FromServer : SystemStep Date → Prop
  | .app _ _ => False
  | _ => True

/-- What the server does to the cloud, it does to the system, and no phone changes. -/
theorem exec_fromServer (F : Foundation) (description : Date → String) {as : List CloudStep}
    (h : ∀ a ∈ as, a.FromServer) :
    ∃ xs : List (SystemStep Date), (∀ x ∈ xs, x.FromServer) ∧ ∀ s : System Date,
      exec (SystemStep.apply F description) s xs =
        { s with cloud := exec CloudStep.apply s.cloud as } := by
  induction as with
  | nil => exact ⟨[], by simp, fun s => rfl⟩
  | cons a as ih =>
    obtain ⟨xs, hxs, hexec⟩ := ih fun b hb => h b (List.mem_cons_of_mem _ hb)
    have hstep : ∃ x : SystemStep Date, x.FromServer ∧
        ∀ s : System Date, x.apply F description s = s.call a := by
      have ha := h a List.mem_cons_self
      cases a with
      | accepted key => exact ⟨.accepted key, trivial, fun _ => rfl⟩
      | rejected key => exact ⟨.rejected key, trivial, fun _ => rfl⟩
      | deliver i => exact ⟨.deliver i, trivial, fun _ => rfl⟩
      | _ => cases ha
    obtain ⟨x, hx, happly⟩ := hstep
    refine ⟨x :: xs, ?_, ?_⟩
    · intro y hy
      rcases List.mem_cons.mp hy with rfl | hy
      · exact hx
      · exact hxs y hy
    · intro s
      rw [exec_cons, happly, hexec]
      rfl

theorem Running.exec_fromServer {names : Set (Uid × String)} {description : Date → String}
    {s : System Date} (h : Running names description s) (hpaths : PathsApart names)
    (hlegal : ∀ p ∈ names, IsPathString p.2) (F : Foundation) {xs : List (SystemStep Date)}
    (hxs : ∀ x ∈ xs, x.FromServer) :
    Running names description (exec (SystemStep.apply F description) s xs) := by
  apply exec_invariant (C := fun _ x => x.FromServer) h _
    (each_of_forall_mem fun x hx _ => hxs x hx)
  intro t x ht hx
  cases x with
  | app d e => cases hx
  | accepted key => exact ht.step hpaths hlegal F trivial trivial (by simp [SystemStep.addedName])
  | rejected key => exact ht.step hpaths hlegal F trivial trivial (by simp [SystemStep.addedName])
  | deliver i => exact ht.step hpaths hlegal F trivial trivial (by simp [SystemStep.addedName])

/-- From every state that an orderly use of the app reaches, the server can bring
all devices to rest, whatever it answers to the writes that wait: no screen
changes, no device traps, and every page shows the accepted records that it is about,
apart from rejected ones of its own device. -/
theorem the_whole_system_can_come_to_rest (F : Foundation) (description : Date → String)
    (currentUser : Device → Option Uid) (run : List (SystemStep Date))
    (horderly : Each (SystemStep.apply F description) SystemStep.IsOrderly (launched currentUser) run)
    (hfresh : Each (SystemStep.apply F description) SystemStep.IsFresh (launched currentUser) run)
    (hlegal : ∀ p ∈ addedNames F description currentUser run, IsPathString p.2)
    (hpaths : PathsApart (addedNames F description currentUser run))
    (answer : Write → Bool) :
    ∃ rest : List (SystemStep Date), (∀ x ∈ rest, x.FromServer) ∧
      (exec (SystemStep.apply F description) (launched currentUser) (run ++ rest)).phones =
        (exec (SystemStep.apply F description) (launched currentUser) run).phones ∧
      Quiet (exec (SystemStep.apply F description) (launched currentUser) (run ++ rest)).cloud ∧
      (exec (SystemStep.apply F description) (launched currentUser) (run ++ rest)).cloud.crashed = [] ∧
      (exec (SystemStep.apply F description) (launched currentUser) (run ++ rest)).cloud.accepted =
        (exec (SystemStep.apply F description) (launched currentUser) run).cloud.accepted ++
          (exec (SystemStep.apply F description) (launched currentUser) run).cloud.pending.filter
            answer ∧
      ∀ d page below, page :: below <:+ ((exec (SystemStep.apply F description)
          (launched currentUser) (run ++ rest)).phones d).pages →
        page.ShowsIn (exec (SystemStep.apply F description) (launched currentUser)
          (run ++ rest)).cloud d below := by
  have hrunning := (running_always F description horderly hfresh hlegal hpaths).last
  obtain ⟨as, hserver, hquiet, -, haccepted, -⟩ :=
    hrunning.feeding.rest hpaths hrunning.running answer
  obtain ⟨rest, hrest, hexec⟩ := SharkCollector.exec_fromServer F description hserver
  have hlast := hrunning.exec_fromServer hpaths hlegal F hrest
  refine ⟨rest, hrest, ?_⟩
  rw [exec_append]
  refine ⟨?_, ?_, hlast.running, ?_, ?_⟩
  · rw [hexec]
  · rw [hexec]
    exact hquiet
  · rw [hexec]
    exact haccepted
  · intro d page below hpage
    exact hlast.showsIn hpaths hpage

/-- The list of the first payment still has to be told of it. -/
theorem the_first_payment_can_come_to_rest :
    ∃ rest : List (SystemStep String), (∀ x ∈ rest, x.FromServer) ∧
      (exec (SystemStep.apply asciiFoundation id) (launched fun _ => none)
        (firstPayment ++ rest)).phones =
        (exec (SystemStep.apply asciiFoundation id) (launched fun _ => none) firstPayment).phones ∧
      Quiet (exec (SystemStep.apply asciiFoundation id) (launched fun _ => none)
        (firstPayment ++ rest)).cloud := by
  obtain ⟨rest, hserver, hphones, hquiet, -⟩ := the_whole_system_can_come_to_rest asciiFoundation id
    (fun _ => none) firstPayment orderly_firstPayment fresh_firstPayment legal_firstPayment
    (pathsApart_of_forall_eq addedNames_firstPayment) fun _ => true
  exact ⟨rest, hserver, hphones, hquiet⟩

end SharkCollector
