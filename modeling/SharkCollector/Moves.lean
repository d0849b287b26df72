-- Moves: what a step of the system does to the cloud. It acts on the database
-- and the observers, or a table takes a search or a tap. A search changes no
-- array of borrowers, so all that holds of the lists of the cloud holds of those of the
-- system. A record comes from a tap on one of the two buttons that send.
import SharkCollector.Convergence
import SharkCollector.DeviceSessions
import Mathlib.Logic.Relation

namespace SharkCollector

open PathTree Runs

/-! ## One move -/

/-- A change of the cloud, or an event of a table that leaves its borrowers as they are. -/
inductive Move (names : Set (Uid × String)) (c : Cloud) : Cloud → Prop
  | change {c' : Cloud} (h : Change names c.autoIds c c') : Move names c c'
  | table (F : Foundation) {i : Nat} {vc : BorrowersTableViewController} {e : TableEvent}
      (hvc : c.table i = some vc) (he : TapsDisplayedRow vc e)
      (hsame : (e.handle F vc).borrowers = vc.borrowers) :
      Move names c (c.setTable i (e.handle F vc))

/-- The moves of a step. -/
abbrev Moves (names : Set (Uid × String)) : Cloud → Cloud → Prop :=
  Relation.ReflTransGen (Move names)

theorem table_eq_some {c : Cloud} {i : Nat} {vc : BorrowersTableViewController} :
    c.table i = some vc ↔ ∃ o, c.observers[i]? = some o ∧ o.controller = .borrowers vc := by
  unfold Cloud.table
  rcases c.observers[i]? with _ | ⟨device, node, _ | _, inbox⟩ <;> simp

theorem getElem?_setTable (c : Cloud) (i j : Nat) (vc : BorrowersTableViewController) :
    (c.setTable i vc).observers[j]? =
      if i = j then c.observers[j]?.map fun o => { o with controller := .borrowers vc }
      else c.observers[j]? := by
  unfold Cloud.setTable
  rw [List.getElem?_modify]
  split <;> simp

theorem mem_setTable {c : Cloud} {i : Nat} {vc : BorrowersTableViewController} {o' : Observer}
    (h : o' ∈ (c.setTable i vc).observers) :
    o' ∈ c.observers ∨
      ∃ o, c.observers[i]? = some o ∧ o' = { o with controller := .borrowers vc } := by
  obtain ⟨j, hj⟩ := List.mem_iff_getElem?.mp h
  rw [getElem?_setTable] at hj
  split at hj
  · rename_i hij
    subst hij
    obtain ⟨o, ho, rfl⟩ := Option.map_eq_some_iff.mp hj
    exact Or.inr ⟨o, ho, rfl⟩
  · exact Or.inl (List.mem_of_getElem? hj)

theorem setTable_eq {c : Cloud} {i : Nat} {o : Observer} (ho : c.observers[i]? = some o)
    (vc : BorrowersTableViewController) :
    c.setTable i vc =
      { c with observers := c.observers.set i { o with controller := .borrowers vc } } := by
  have hmodify : c.observers.modify i (fun o => { o with controller := .borrowers vc }) =
      c.observers.set i { o with controller := .borrowers vc } := by
    apply List.ext_getElem?
    intro j
    rw [List.getElem?_modify, List.getElem?_set]
    by_cases hij : i = j
    · subst hij
      obtain ⟨hi, heq⟩ := List.getElem?_eq_some_iff.mp ho
      simp [hi, heq]
    · simp [hij]
  unfold Cloud.setTable
  rw [hmodify]

/-! ## What a move keeps -/

section Keeps
variable {names : Set (Uid × String)} {c c' : Cloud}

/-- A table that has read the same as before tells the observers nothing. -/
theorem tells_setTable {R : List Snapshot → ListController → Prop} {i : Nat}
    {vc vc' : BorrowersTableViewController} (hvc : c.table i = some vc)
    (hread : ∀ read, R read (.borrowers vc) → R read (.borrowers vc')) :
    Tells R c (c.setTable i vc') := by
  obtain ⟨o, ho, hcontroller⟩ := table_eq_some.mp hvc
  rw [setTable_eq ho]
  refine tells_set ho (told_of_view (by rfl) (by rfl) ?_ (by rfl) ?_)
  · rw [hcontroller]
    rfl
  · intro read h
    rw [hcontroller] at h
    exact ⟨read, hread read h, rfl⟩

theorem Move.tells (hm : Move names c c') : Tells ListController.HasRead c c' := by
  cases hm with
  | change hc => exact hc.tells reading_hasRead
  | table F hvc he hsame =>
    apply tells_setTable hvc
    intro read hread
    simpa [ListController.HasRead, hsame] using hread

theorem Move.advances (hm : Move names c c') (h : Keyed c) : Advances c c' := by
  cases hm with
  | change hc => exact hc.advances h
  | table F hvc he hsame => exact advances_of_same (by rfl) (by rfl) (by rfl)

theorem Feeding.move (h : Feeding names c) (hm : Move names c c') : Feeding names c' := by
  have htells := hm.tells
  have hadvances := hm.advances h.answers.keyed
  cases hm with
  | change hc => exact h.change hc
  | @table F i vc e hvc he hsame =>
    have hkeyed : Keyed (c.setTable i (e.handle F vc)) := ⟨h.answers.keyed.placed,
      h.answers.keyed.used, h.answers.keyed.unique, h.answers.keyed.notAccepted,
      h.answers.keyed.notRejected⟩
    have hanswers : Answers (c.setTable i (e.handle F vc)) := ⟨hkeyed, h.answers.pending,
      h.answers.accepted, h.answers.rejected, h.answers.disjoint⟩
    refine h.tells htells hadvances hanswers h.filed ?_
    intro o ho
    simp [getElem?_setTable] at ho

/-- Every table keeps its rows in bounds. -/
def Indexed (c : Cloud) : Prop :=
  ∀ o ∈ c.observers, ∀ vc, o.controller = .borrowers vc → WellIndexed vc

theorem Indexed.notifyAll (h : Indexed c) {t : Cloud} (hobservers : t.observers = c.observers) :
    Indexed (t.notifyAll c) := by
  intro o' ho' vc hvc
  simp only [Cloud.notifyAll, hobservers, List.mem_map] at ho'
  obtain ⟨o, ho, rfl⟩ := ho'
  exact h o ho vc hvc

theorem Indexed.append (h : Indexed c) {o : Observer}
    (ho : ∀ vc, o.controller = .borrowers vc → vc = {}) :
    Indexed { c with observers := c.observers ++ [o] } := by
  intro o' ho' vc hvc
  rcases List.mem_append.mp ho' with ho' | ho'
  · exact h o' ho' vc hvc
  · rw [List.mem_singleton.mp ho'] at hvc
    rw [ho vc hvc]
    exact wellIndexed_initial

theorem Indexed.move (h : Indexed c) (hm : Move names c c') : Indexed c' := by
  cases hm with
  | change hc =>
    cases hc with
    | idle currentUser autoIds crashed hids => exact h
    | attached o ho =>
      apply h.append
      intro vc hvc
      rcases ho.placed with ⟨hempty, -⟩ | ⟨u, b, -, hlist, -⟩
      · rw [hempty] at hvc
        cases hvc
        rfl
      · rw [hlist] at hvc
        cases hvc
    | sent w hfiled hfresh => exact h.notifyAll rfl
    | accepted w hw => exact h.notifyAll rfl
    | rejected w hw => exact h.notifyAll rfl
    | delivered i o e rest controller ho hinbox hreceive =>
      intro o' ho' vc' hvc'
      rcases List.mem_or_eq_of_mem_set ho' with ho' | rfl
      · exact h o' ho' vc' hvc'
      · simp only at hvc'
        subst hvc'
        have hreceives := receive_eq_ok.mp hreceive
        generalize hcontroller : o.controller = old at hreceives
        cases hreceives with
        | removed k => exact h o (List.mem_of_getElem? ho) vc' hcontroller
        | @borrower vc c b hadded =>
          have hvc := h o (List.mem_of_getElem? ho) vc hcontroller
          exact hvc.handle (F := asciiFoundation) (e := .childAdded b) trivial
  | table F hvc he hsame =>
    intro o' ho' vc' hvc'
    rcases mem_setTable ho' with ho' | ⟨o, ho, rfl⟩
    · exact h o' ho' vc' hvc'
    · obtain ⟨p, hp, hpvc⟩ := table_eq_some.mp hvc
      cases hvc'
      exact (h p (List.mem_of_getElem? hp) _ hpvc).handle he

/-- No write is forgotten, and no observer is detached or moved. -/
structure Extends (c c' : Cloud) : Prop where
  known : ∀ w ∈ c.known, w ∈ c'.known
  observers : ∀ (i : Nat) (o : Observer), c.observers[i]? = some o →
    ∃ o' : Observer, c'.observers[i]? = some o' ∧ o'.device = o.device ∧ o'.node = o.node ∧
      o'.controller.isTable = o.controller.isTable

theorem Extends.refl (c : Cloud) : Extends c c :=
  ⟨fun _ hw => hw, fun _ o ho => ⟨o, ho, rfl, rfl, rfl⟩⟩

theorem Extends.trans {c'' : Cloud} (h : Extends c c') (h' : Extends c' c'') : Extends c c'' := by
  refine ⟨fun w hw => h'.known w (h.known w hw), ?_⟩
  intro i o ho
  obtain ⟨o', ho', hdevice, hnode, hkind⟩ := h.observers i o ho
  obtain ⟨o'', ho'', hdevice', hnode', hkind'⟩ := h'.observers i o' ho'
  exact ⟨o'', ho'', hdevice'.trans hdevice, hnode'.trans hnode, hkind'.trans hkind⟩

theorem Move.extends (hm : Move names c c') (h : Keyed c) : Extends c c' := by
  refine ⟨(hm.advances h).known, ?_⟩
  intro i o ho
  obtain ⟨o', ho', htold⟩ := hm.tells.old i o ho
  exact ⟨o', ho', htold.device, htold.node, htold.isTable⟩

theorem Moves.feeding (hm : Moves names c c') (h : Feeding names c) :
    Feeding names c' ∧ Extends c c' := by
  induction hm with
  | refl => exact ⟨h, .refl c⟩
  | tail _ hstep ih => exact ⟨ih.1.move hstep, ih.2.trans (hstep.extends ih.1.answers.keyed)⟩

theorem Moves.indexed (hm : Moves names c c') (h : Indexed c) : Indexed c' := by
  induction hm with
  | refl => exact h
  | tail _ hstep ih => exact ih.move hstep

end Keeps

/-! ## What an event does to the cloud -/

variable {Date : Type}

/-- The cloud after an event of a device: as it was, with one or two calls made,
or with the table on top searched or tapped. -/
inductive Effect (F : Foundation) (s : System Date) (d : Device) : PhoneEvent Date → Cloud → Prop
  | idle {e : PhoneEvent Date} : Effect F s d e s.cloud
  | signedIn {i : Nat} (user : Uid) :
      Effect F s d (.authSucceeded i user) (CloudStep.apply s.cloud (.signedIn d user))
  | signedOut {signedOut : Bool} :
      Effect F s d (.logoutButtonTapped signedOut) (CloudStep.apply s.cloud (.signedOut d))
  | tableOpened {i : Nat} {shown : Bool} {origin : Screen} {user : Uid}
      (hrequest : (s.phones d).requests[i]? = some { origin, user := some user }) :
      Effect F s d (.authCompleted i shown) (CloudStep.apply s.cloud (.borrowersViewDidLoad d))
  | searched {e : PhoneEvent Date} {e' : TableEvent} {i : Nat} {vc : BorrowersTableViewController}
      (hvc : s.cloud.table i = some vc) (htaps : TapsDisplayedRow vc e')
      (hsame : (e'.handle F vc).borrowers = vc.borrowers) :
      Effect F s d e (s.cloud.setTable i (e'.handle F vc))
  | tapped {i row : Nat} {today : Date} {vc : BorrowersTableViewController} {b : Borrower}
      (hvc : s.cloud.table i = some vc) (hrow : row < vc.reloadedRows)
      (hb : (vc.didSelectRowAt row).prepareForBorrowerVC = .ok b) :
      Effect F s d (.didSelectRowAt row today) (s.cloud.setTable i (vc.didSelectRowAt row))
  | trapped {i row : Nat} {today : Date} {vc : BorrowersTableViewController} {fault : Fault}
      (hvc : s.cloud.table i = some vc) (hrow : row < vc.reloadedRows)
      (hfault : (vc.didSelectRowAt row).prepareForBorrowerVC = .error fault) :
      Effect F s d (.didSelectRowAt row today)
        ((s.cloud.setTable i (vc.didSelectRowAt row)).crash d)
  | borrowerSent {name debt : String} {key : Key} {below : List (Page Date)}
      (hpages : (s.phones d).pages = .addBorrower :: below) :
      Effect F s d (.addBorrowerButtonTapped name debt key)
        (CloudStep.apply s.cloud (.sendBorrower d name debt key))
  | paymentSent {key : Key} {vc : OpenedBorrower Date} {below : List (Page Date)}
      (hpages : (s.phones d).pages = .borrower vc :: below) (htext : vc.text ≠ "") :
      Effect F s d (.addPaymentButtonTapped key) (exec CloudStep.apply s.cloud
        [.sendPayment d vc.borrower vc.text vc.dateDisplayed key, .paymentsViewDidLoad d vc.borrower])
  | listOpened {vc : OpenedBorrower Date} {below : List (Page Date)}
      (hpages : (s.phones d).pages = .borrower vc :: below) :
      Effect F s d .paymentsFolderButtonTapped
        (CloudStep.apply s.cloud (.paymentsViewDidLoad d vc.borrower))

section Effects
variable {s : System Date}

theorem pages_set {d : Device} (p : Phone Date) : ((s.set d p).phones d).pages = p.pages := by
  simp [System.set]

/-- What a device does after a call does not touch the cloud. -/
theorem cloud_toBorrowersTVC (d : Device) :
    (s.toBorrowersTVC d).cloud = (s.call (.borrowersViewDidLoad d)).cloud := by
  unfold System.toBorrowersTVC System.goOn
  split
  · rfl
  · split <;> rfl

theorem cloud_toPaymentsTVC (d : Device) (b : Borrower) :
    (s.toPaymentsTVC d b).cloud = (s.call (.paymentsViewDidLoad d b)).cloud := by
  unfold System.toPaymentsTVC System.goOn
  split <;> rfl

theorem effect_onTable (F : Foundation) (d : Device) (e : PhoneEvent Date) {e' : TableEvent}
    (htaps : ∀ vc, TapsDisplayedRow vc e')
    (hsame : ∀ vc, (e'.handle F vc).borrowers = vc.borrowers) :
    Effect F s d e (s.onTable d F e').cloud := by
  unfold System.onTable
  split
  · rename_i i vc htop
    obtain ⟨uid, below, -, hvc⟩ := topTable_eq_some htop
    exact .searched hvc (htaps vc) (hsame vc)
  · exact .idle

theorem effect_didSelectRowAt (F : Foundation) (d : Device) (row : Nat) (today : Date) :
    Effect F s d (.didSelectRowAt row today) (s.didSelectRowAt d row today).cloud := by
  unfold System.didSelectRowAt
  split
  · rename_i i vc htop
    obtain ⟨uid, below, -, hvc⟩ := topTable_eq_some htop
    split
    · rename_i hrow
      rcases hprepare : (vc.didSelectRowAt row).prepareForBorrowerVC with fault | b
      · exact .trapped hvc hrow hprepare
      · exact .tapped hvc hrow hprepare
    · exact .idle
  · exact .idle

/-- After a payment that trapped, the list that would open next is not attached. -/
theorem effect_addPaymentButtonTapped (F : Foundation) (d : Device) (key : Key) :
    Effect F s d (.addPaymentButtonTapped key) (s.addPaymentButtonTapped d key).cloud := by
  unfold System.addPaymentButtonTapped
  split
  · rename_i vc below hpages
    split
    · exact .idle
    · rename_i htext
      have hcloud : ((s.call (.sendPayment d vc.borrower vc.text vc.dateDisplayed key)).goOn d
          fun t => t.toPaymentsTVC d vc.borrower).cloud = exec CloudStep.apply s.cloud
            [.sendPayment d vc.borrower vc.text vc.dateDisplayed key,
              .paymentsViewDidLoad d vc.borrower] := by
        unfold System.goOn
        split
        · rename_i hcrashed
          rw [exec_cons, exec_cons, exec_nil]
          exact (if_pos hcrashed).symm
        · rw [cloud_toPaymentsTVC]
          rfl
      rw [hcloud]
      exact .paymentSent hpages htext
  · exact .idle

/-- What an event does to the cloud is one of these effects. -/
theorem effect_handle (F : Foundation) (description : Date → String) (d : Device)
    (e : PhoneEvent Date) : Effect F s d e (e.handle F description s d).cloud := by
  cases e with
  | authSucceeded i user =>
    simp only [PhoneEvent.handle, System.authSucceeded]
    split
    · exact .signedIn user
    · exact .idle
  | authCompleted i shown =>
    simp only [PhoneEvent.handle, System.authCompleted]
    split
    · rename_i hrequest
      split
      · rw [cloud_toBorrowersTVC]
        exact .tableOpened hrequest
      · exact .idle
    · exact .idle
  | logoutButtonTapped signedOut =>
    simp only [PhoneEvent.handle, System.logoutButtonTapped]
    split
    · split
      · exact .signedOut
      · exact .idle
    · exact .idle
  | textDidChange text =>
    exact effect_onTable F d _ (fun _ => trivial) fun vc => vc.textDidChange_borrowers F text
  | searchBarSearchButtonClicked => exact effect_onTable F d _ (fun _ => trivial) fun vc => rfl
  | didSelectRowAt row today => exact effect_didSelectRowAt F d row today
  | addBorrowerButtonTapped name debt key =>
    simp only [PhoneEvent.handle, System.addBorrowerButtonTapped, System.goOn]
    split
    · rename_i hpages
      split
      · exact .borrowerSent hpages
      · exact .borrowerSent hpages
    · exact .idle
  | addPaymentButtonTapped key => exact effect_addPaymentButtonTapped F d key
  | paymentsFolderButtonTapped =>
    simp only [PhoneEvent.handle, System.paymentsFolderButtonTapped]
    split
    · rename_i hpages
      rw [cloud_toPaymentsTVC]
      exact .listOpened hpages
    · exact .idle
  | _ => exact .idle

end Effects

/-! ## What the phones keep -/

/-- A property of stacks that no event of the phone alone breaks: it holds of the
root and of what a back button leaves, and a new screen without a list or an edit
of a borrower screen keeps it. -/
structure Stackable (description : Date → String) (G : List (Page Date) → Prop) : Prop where
  root : G [.signIn]
  below : ∀ {page pages}, G (page :: pages) → G pages
  signUp : ∀ {number pages}, G pages → G (.signUp number :: pages)
  addBorrower : ∀ {pages}, G pages → G (.addBorrower :: pages)
  editAmount : ∀ {vc pages} text, G (.borrower vc :: pages) → G (.borrower (vc.editAmount text) :: pages)
  moveDatePicker : ∀ {vc pages} date,
    G (.borrower vc :: pages) → G (.borrower (vc.moveDatePicker description date) :: pages)

/-- The events that change the phone and nothing else. -/
inductive PhoneOnly (description : Date → String) (p : Phone Date) :
    PhoneEvent Date → Phone Date → Prop
  | signIn : PhoneOnly description p .signInButtonTapped p.signInButtonTapped
  | signUp : PhoneOnly description p .signUpButtonTapped p.signUpButtonTapped
  | createAccount (password confirm : String) : PhoneOnly description p
      (.createAccountButtonTapped password confirm) (p.createAccountButtonTapped password confirm)
  | authFailed (i : Nat) : PhoneOnly description p (.authFailed i) (p.authFailed i)
  | add : PhoneOnly description p .addButtonTapped p.addButtonTapped
  | editAmount (text : String) : PhoneOnly description p (.editAmount text) (p.editAmount text)
  | moveDatePicker (date : Date) :
      PhoneOnly description p (.moveDatePicker date) (p.moveDatePicker description date)
  | back : PhoneOnly description p .back p.back

theorem Stackable.phoneOnly {description : Date → String} {G : List (Page Date) → Prop}
    (hG : Stackable description G) {p p' : Phone Date} {e : PhoneEvent Date} (h : G p.pages)
    (he : PhoneOnly description p e p') : G p'.pages := by
  cases he with
  | signIn =>
    unfold Phone.signInButtonTapped
    split <;> exact h
  | signUp =>
    unfold Phone.signUpButtonTapped
    split
    · exact hG.signUp h
    · exact h
  | createAccount password confirm =>
    unfold Phone.createAccountButtonTapped
    split
    · split <;> exact h
    · exact h
  | authFailed i =>
    unfold Phone.authFailed
    split <;> exact h
  | add =>
    unfold Phone.addButtonTapped
    split
    · exact hG.addBorrower h
    · exact h
  | editAmount text =>
    unfold Phone.editAmount
    split
    · rename_i hpages
      exact hG.editAmount text (hpages ▸ h)
    · exact h
  | moveDatePicker date =>
    unfold Phone.moveDatePicker
    split
    · rename_i hpages
      exact hG.moveDatePicker date (hpages ▸ h)
    · exact h
  | back =>
    unfold Phone.back
    split
    all_goals first
      | exact h
      | rename_i hpages
        rw [hpages] at h
        exact hG.below h

/-! ## The moves of a step -/

/-- `childByAutoId` gives a key that it never gave before. -/
def SystemStep.IsFresh (s : System Date) : SystemStep Date → Prop
  | .app _ (.addBorrowerButtonTapped _ _ key) => key ∉ s.cloud.autoIds
  | .app _ (.addPaymentButtonTapped key) => key ∉ s.cloud.autoIds
  | _ => True

section Steps
variable {names : Set (Uid × String)} {s : System Date}

theorem move_call (c : Cloud) (a : CloudStep) (hfresh : FreshKey c a)
    (hname : ∀ p, a.paymentName c = some p → p ∈ names) : Move names c (a.apply c) :=
  .change (change_apply hfresh.autoId hname)

/-- The name of a payment or a list of payments, under the user of the device. -/
theorem mem_of_map_user {user : Option Uid} {name : String}
    (hname : ∀ u, user = some u → (u, name) ∈ names) {p : Uid × String}
    (hp : (user.map fun u => (u, name)) = some p) : p ∈ names := by
  obtain ⟨u, hu, rfl⟩ := Option.map_eq_some_iff.mp hp
  exact hname u hu

theorem move_openList (c : Cloud) (d : Device) {b : Borrower}
    (hname : ∀ u, c.currentUser d = some u → (u, b.name) ∈ names) :
    Move names c (CloudStep.apply c (.paymentsViewDidLoad d b)) :=
  move_call c (.paymentsViewDidLoad d b) trivial fun _ => mem_of_map_user hname

/-- Every effect moves the cloud, when the borrower of a screen on top has one of
the `names` of the user. -/
theorem moves_effect {F : Foundation} {d : Device} {e : PhoneEvent Date} {c : Cloud}
    (h : Effect F s d e c) (hfresh : SystemStep.IsFresh s (.app d e))
    (hnames : ∀ vc below, (s.phones d).pages = .borrower vc :: below →
      ∀ u, s.cloud.currentUser d = some u → (u, vc.borrower.name) ∈ names) :
    Moves names s.cloud c := by
  cases h with
  | idle => exact .refl
  | signedIn user => exact .single (move_call _ _ trivial (by simp [CloudStep.paymentName]))
  | signedOut => exact .single (move_call _ _ trivial (by simp [CloudStep.paymentName]))
  | tableOpened hrequest => exact .single (move_call _ _ trivial (by simp [CloudStep.paymentName]))
  | searched hvc htaps hsame => exact .single (.table F hvc htaps hsame)
  | @tapped i row today vc b hvc hrow hb =>
    exact .single (.table asciiFoundation (e := .didSelectRowAt row) hvc hrow rfl)
  | @trapped i row today vc fault hvc hrow hfault =>
    have htap : Move names s.cloud (s.cloud.setTable i (vc.didSelectRowAt row)) :=
      .table asciiFoundation (e := .didSelectRowAt row) hvc hrow rfl
    exact Relation.ReflTransGen.tail (.single htap) (.change (.crash _ d))
  | borrowerSent hpages => exact .single (move_call _ _ hfresh (by simp [CloudStep.paymentName]))
  | @paymentSent key vc below hpages htext =>
    have hname := hnames vc below hpages
    have hsend : Move names s.cloud
        (CloudStep.apply s.cloud (.sendPayment d vc.borrower vc.text vc.dateDisplayed key)) :=
      move_call s.cloud (.sendPayment d vc.borrower vc.text vc.dateDisplayed key) hfresh
        fun _ => mem_of_map_user hname
    -- The payment leaves the user as it is.
    have huser : (CloudStep.apply s.cloud
        (.sendPayment d vc.borrower vc.text vc.dateDisplayed key)).currentUser =
          s.cloud.currentUser := currentUser_on (currentUser_send ..) d
    exact Relation.ReflTransGen.tail (.single hsend) (move_openList _ d (huser ▸ hname))
  | @listOpened vc below hpages => exact .single (move_openList _ d (hnames vc below hpages))

theorem moves_step (F : Foundation) (description : Date → String) {x : SystemStep Date}
    (hfresh : x.IsFresh s)
    (hnames : ∀ d vc below, (s.phones d).pages = .borrower vc :: below →
      ∀ u, s.cloud.currentUser d = some u → (u, vc.borrower.name) ∈ names) :
    Moves names s.cloud (x.apply F description s).cloud := by
  cases x with
  | accepted key => exact .single (.change (.accept s.cloud key))
  | rejected key => exact .single (.change (.reject s.cloud key))
  | deliver i => exact .single (.change (.deliver s.cloud i))
  | app d e =>
    simp only [SystemStep.apply]
    split
    · exact .refl
    · exact moves_effect (effect_handle F description d e) hfresh (hnames d)

end Steps

/-! ## What a step writes -/

/-- A tap on the Add button of the screen on top writes a borrower under the user
of the device. -/
def Write.AddedBy (w : Write) (s : System Date) (x : SystemStep Date) : Prop :=
  ∃ name debt below u, x = .app w.device (.addBorrowerButtonTapped name debt w.key) ∧
    (s.phones w.device).pages = .addBorrower :: below ∧ w.device ∉ s.cloud.crashed ∧
    s.cloud.currentUser w.device = some u ∧ w.IsBorrower u name debt

/-- A tap on Add Payment: the screen on top shows a borrower, an amount and a date,
and the record goes under the user of the device. -/
def Write.PaidBy (w : Write) (s : System Date) (x : SystemStep Date) : Prop :=
  ∃ vc below u day, x = .app w.device (.addPaymentButtonTapped w.key) ∧
    (s.phones w.device).pages = .borrower vc :: below ∧ w.device ∉ s.cloud.crashed ∧
    s.cloud.currentUser w.device = some u ∧ IsPathString vc.borrower.name ∧ vc.text ≠ "" ∧
    vc.dateDisplayed = some day ∧ w.IsPayment u vc.borrower.name vc.text day

section Written
variable {s : System Date} {w : Write}

theorem known_of_apply {c : Cloud} {a : CloudStep} (hw : w ∈ (a.apply c).known)
    (ha : ¬ a.Writes c w) : w ∈ c.known :=
  (known_apply hw).resolve_right ha

/-- An event writes nothing but the borrower or the payment that it asks for. -/
theorem known_effect {F : Foundation} {d : Device} {e : PhoneEvent Date} {c : Cloud}
    (h : Effect F s d e c) (hw : w ∈ c.known) :
    w ∈ s.cloud.known ∨ w.AddedBy s (.app d e) ∨ w.PaidBy s (.app d e) := by
  cases h with
  | idle => exact Or.inl hw
  | signedIn user => exact Or.inl (known_of_apply hw id)
  | signedOut => exact Or.inl (known_of_apply hw id)
  | tableOpened hrequest => exact Or.inl (known_of_apply hw id)
  | searched hvc htaps hsame => exact Or.inl hw
  | tapped hvc hrow hb => exact Or.inl hw
  | trapped hvc hrow hfault => exact Or.inl hw
  | @borrowerSent name debt key below hpages =>
    rcases known_apply hw with hw | ⟨hd, rfl, rfl, u, hu, hw⟩
    · exact Or.inl hw
    · exact Or.inr (Or.inl ⟨name, debt, below, u, rfl, hpages, hd, hu, hw⟩)
  | @paymentSent key vc below hpages htext =>
    rw [exec_cons, exec_cons, exec_nil] at hw
    rcases known_apply (known_of_apply hw id) with
      hw | ⟨hd, rfl, rfl, hname, u, day, hu, hday, hw⟩
    · exact Or.inl hw
    · exact Or.inr (Or.inr ⟨vc, below, u, day, rfl, hpages, hd, hu, hname, htext, hday, hw⟩)
  | listOpened hpages => exact Or.inl (known_of_apply hw id)

theorem known_step (F : Foundation) (description : Date → String) {x : SystemStep Date}
    (hw : w ∈ (x.apply F description s).cloud.known) :
    w ∈ s.cloud.known ∨ w.AddedBy s x ∨ w.PaidBy s x := by
  cases x with
  | accepted key => exact Or.inl (known_of_apply (a := .accepted key) hw id)
  | rejected key => exact Or.inl (known_of_apply (a := .rejected key) hw id)
  | deliver i => exact Or.inl (known_of_apply (a := .deliver i) hw id)
  | app d e =>
    simp only [SystemStep.apply] at hw
    split at hw
    · exact Or.inl hw
    · exact known_effect (effect_handle F description d e) hw

end Written

end SharkCollector
