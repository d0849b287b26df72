-- Delivery: on every device, the table that a user opened holds each accepted
-- borrower of this user once, and none that another user sent. A table is fed
-- whatever the payments do, since no payment reaches a node of borrowers, and
-- behind each record is the call of the user who sent it.
import SharkCollector.Feeds
import SharkCollector.Origins

namespace SharkCollector

open PathTree Runs

/-! ## Records of borrowers -/

/-- The record of a borrower was written under an account. -/
def Cloud.Knows (c : Cloud) (u : Uid) (b : Borrower) : Prop :=
  ∃ w ∈ c.known, w.key = b.ref ∧ w.IsBorrower u b.name b.debt

theorem Write.IsBorrower.inj {w : Write} {u v : Uid} {name name' debt debt' : String}
    (h : w.IsBorrower u name debt) (h' : w.IsBorrower v name' debt') :
    u = v ∧ name = name' ∧ debt = debt' := by
  rw [Write.IsBorrower, h] at h'
  simp only [Push.mk.injEq, borrowersNode, List.cons.injEq, Prod.mk.injEq, true_and, and_true] at h'
  exact ⟨Uid.key_injective h'.1, h'.2⟩

theorem not_isBorrower_of_isPayment {w : Write} {u v : Uid} {name name' paid date debt : String}
    (h : w.IsPayment u name paid date) : ¬ w.IsBorrower v name' debt := by
  intro h'
  rw [Write.IsBorrower, h] at h'
  simp [borrowersNode, paymentsNode] at h'

theorem isBorrower_of_node {w : Write} (hw : w.WellPlaced) {u : Uid}
    (hnode : w.push.node = borrowersNode u) : ∃ name debt, w.IsBorrower u name debt := by
  rcases hw with ⟨v, name, debt, hv⟩ | ⟨v, name, paid, date, -, hv⟩
  · have hv' : w.push.node = borrowersNode v := congrArg Push.node hv
    have huv : u = v := by
      rw [hnode] at hv'
      simp only [borrowersNode, List.cons.injEq, true_and, and_true] at hv'
      exact Uid.key_injective hv'
    exact ⟨name, debt, huv ▸ hv⟩
  · have hv' : w.push.node = paymentsNode v name := congrArg Push.node hv
    rw [hnode] at hv'
    simp [borrowersNode, paymentsNode] at hv'

theorem borrowerAdded_isBorrower {w : Write} {u : Uid} {name debt : String}
    (hw : w.IsBorrower u name debt) : borrowerAdded w.snapshot = .ok ⟨w.key, name, debt⟩ := by
  have hvalue : w.value = borrowerRecord name debt := by
    rw [Write.value, hw]
    rfl
  rw [Write.snapshot, hvalue, borrowerAdded_record]

theorem borrowerAdded_ref {c : Snapshot} {b : Borrower} (h : borrowerAdded c = .ok b) :
    b.ref = c.1 := by
  unfold borrowerAdded at h
  simp only [bind, Except.bind, pure, Except.pure] at h
  split at h
  · cases h
  · split at h
    · cases h
    · split at h
      · cases h
      · cases h
        rfl

/-! ## What a table has read -/

section Tables
variable {names : Set (Uid × String)} {s : Cloud} {o : Observer} {read : List Snapshot}
  {vc : BorrowersTableViewController} {u : Uid}

theorem refs_of_hasRead (h : (ListController.borrowers vc).HasRead read) :
    vc.borrowers.map Borrower.ref = read.map Prod.fst := by
  have hread : read.map borrowerAdded = vc.borrowers.map .ok := h
  clear h
  generalize vc.borrowers = bs at hread
  induction read generalizing bs with
  | nil =>
    rw [List.map_nil, List.nil_eq, List.map_eq_nil_iff] at hread
    rw [hread]
    rfl
  | cons c read ih =>
    rcases bs with _ | ⟨b, bs⟩
    · cases hread
    · simp only [List.map_cons, List.cons.injEq] at hread ⊢
      exact ⟨borrowerAdded_ref hread.1, ih bs hread.2⟩

theorem mem_of_hasRead (h : (ListController.borrowers vc).HasRead read) {b : Borrower}
    (hb : b ∈ vc.borrowers) : ∃ c ∈ read, borrowerAdded c = .ok b := by
  have hread : read.map borrowerAdded = vc.borrowers.map .ok := h
  rw [← List.mem_map, hread]
  exact List.mem_map_of_mem hb

/-- Every table is fed, whatever the names of the payments. -/
theorem Feeding.table (h : Feeding names s) (ho : o ∈ s.observers)
    (hvc : o.controller = .borrowers vc) :
    ∃ u read, o.node = borrowersNode u ∧ Fed s o read ∧
      (ListController.borrowers vc).HasRead read := by
  rcases h.attached o ho with ⟨-, u, hnode⟩ | ⟨hlist, -⟩
  · obtain ⟨read, hfed, hread⟩ := h.fed o ho fun w hw =>
      hnode ▸ keepsClear_borrowers (h.filed w hw).wellPlaced u
    exact ⟨u, read, hnode, hfed, hvc ▸ hread⟩
  · rw [hvc] at hlist
    cases hlist

/-- A table lists what was written under its account. -/
theorem Feeding.knows (h : Feeding names s) (ho : o ∈ s.observers)
    (hvc : o.controller = .borrowers vc) (hnode : o.node = borrowersNode u) {b : Borrower}
    (hb : b ∈ vc.borrowers) : s.Knows u b := by
  obtain ⟨v, read, -, hfed, hread⟩ := h.table ho hvc
  obtain ⟨c, hc, hadded⟩ := mem_of_hasRead hread hb
  obtain ⟨w, hw, hwnode, rfl⟩ := hfed.stems c (List.mem_append_left _ hc)
  obtain ⟨name, debt, hborrower⟩ :=
    isBorrower_of_node (h.filed w hw).wellPlaced (hwnode.trans hnode)
  rw [borrowerAdded_isBorrower hborrower] at hadded
  cases hadded
  exact ⟨w, hw, rfl, hborrower⟩

theorem filter_ref_eq {bs : List Borrower} (hnodup : (bs.map Borrower.ref).Nodup) {b : Borrower}
    (hb : b ∈ bs) : bs.filter (fun c => decide (c.ref = b.ref)) = [b] := by
  induction bs with
  | nil => cases hb
  | cons c bs ih =>
    rw [List.map_cons, List.nodup_cons] at hnodup
    rcases List.mem_cons.mp hb with rfl | hb
    · rw [List.filter_cons_of_pos (by simp), List.filter_eq_nil_iff.mpr]
      intro c hc hsame
      exact hnodup.1 (List.mem_map.mpr ⟨c, hc, by simpa using hsame⟩)
    · rw [List.filter_cons_of_neg, ih hnodup.2 hb]
      intro hsame
      exact hnodup.1 (List.mem_map.mpr ⟨b, hb, by simpa using (of_decide_eq_true hsame).symm⟩)

/-- A table that has caught up lists each record of its account that its device sees once. -/
theorem Feeding.lists_once (h : Feeding names s) (ho : o ∈ s.observers)
    (hvc : o.controller = .borrowers vc) (hnode : o.node = borrowersNode u) (hinbox : o.inbox = [])
    {w : Write} (hw : w ∈ s.visible o.device) {name debt : String}
    (hborrower : w.IsBorrower u name debt) :
    vc.borrowers.filter (fun b => decide (b.ref = w.key)) = [⟨w.key, name, debt⟩] := by
  obtain ⟨v, read, -, hfed, hread⟩ := h.table ho hvc
  have hfeed : o.feed read = read := by simp [Observer.feed, Observer.awaited, hinbox]
  have hnodup : (vc.borrowers.map Borrower.ref).Nodup := by
    rw [refs_of_hasRead hread, ← hfeed]
    exact hfed.nodup
  have hwnode : w.push.node = o.node := (congrArg Push.node hborrower).trans hnode.symm
  have hmem : w.snapshot ∈ read := by
    rw [← hfeed]
    exact hfed.covers w hw hwnode
  have hlisted : (⟨w.key, name, debt⟩ : Borrower) ∈ vc.borrowers := by
    have hdecoded : borrowerAdded w.snapshot ∈ read.map borrowerAdded := List.mem_map_of_mem hmem
    have hmap : read.map borrowerAdded = vc.borrowers.map .ok := hread
    rw [hmap, borrowerAdded_isBorrower hborrower] at hdecoded
    obtain ⟨b, hb, hok⟩ := List.mem_map.mp hdecoded
    exact Except.ok.inj hok ▸ hb
  exact filter_ref_eq hnodup hlisted

end Tables

/-! ## Who sent a borrower and who opened a table -/

/-- In the run, a running device whose user is `u` calls `sendBorrowersToDatabase`
for the borrower, whose id is the one that the call gets. -/
def SentBy (run : List CloudStep) (u : Uid) (b : Borrower) : Prop :=
  ∃ s d, Takes CloudStep.apply {} run s (.sendBorrower d b.name b.debt b.ref) ∧ d ∉ s.crashed ∧
    s.currentUser d = some u

section Origin
variable {run : List CloudStep} {u : Uid} {b : Borrower}

theorem feeding_exec (h : Each CloudStep.apply FreshKey {} run) :
    Feeding Set.univ (exec CloudStep.apply {} run) :=
  exec_invariant (feeding_initial _ _) (fun _ _ hs hfresh => hs.change hfresh.change) h

theorem knows_sendBorrower {s : Cloud} {d : Device} (hd : d ∉ s.crashed)
    (hu : s.currentUser d = some u) :
    (CloudStep.apply s (.sendBorrower d b.name b.debt b.ref)).Knows u b := by
  refine ⟨⟨d, ⟨borrowersNode u, [("name", b.name), ("debt", b.debt)]⟩, b.ref⟩, ?_, rfl, rfl⟩
  rw [CloudStep.apply, Cloud.on, if_neg hd, hu, sendBorrowersToDatabase_some]
  simp [Functor.map, Except.map, Cloud.send, Cloud.notifyAll, Cloud.known]

/-- The records under an account are those that this account sent. -/
theorem knows_iff_sentBy (hfresh : Each CloudStep.apply FreshKey {} run) :
    (exec CloudStep.apply {} run).Knows u b ↔ SentBy run u b := by
  constructor
  · rintro ⟨w, hw, hkey, hborrower⟩
    obtain ⟨s, a, htakes, hwrites⟩ := known_origin hw
    cases a with
    | sendBorrower d name debt key =>
      obtain ⟨hd, -, rfl, v, hv, hsent⟩ := hwrites
      obtain ⟨rfl, rfl, rfl⟩ := hborrower.inj hsent
      exact ⟨s, d, hkey ▸ htakes, hd, hv⟩
    | sendPayment d b' amount date key =>
      obtain ⟨-, -, -, -, v, day, -, -, hsent⟩ := hwrites
      exact absurd hborrower (not_isBorrower_of_isPayment hsent)
    | _ => cases hwrites
  · rintro ⟨s, d, htakes, hd, hu⟩
    have hkeyed : Always CloudStep.apply Keyed {} run :=
      always_invariant (keyed_initial _) (fun _ _ hs hkey => hs.change hkey.change) hfresh
    have hruns := each_and hfresh (each_of_always hkeyed)
    refine htakes.exec (I := fun t : Cloud => t.Knows u b) hruns
      (fun _ => knows_sendBorrower hd hu) ?_
    rintro s a ⟨w, hw, hrest⟩ ⟨hkey, hs, -⟩
    exact ⟨w, (hkey.change.advances hs).known w hw, hrest⟩

/-- `viewDidLoad` attaches one observer to the node of the current user, and it stays. -/
theorem opened_table {s : Cloud} {d : Device}
    (htakes : Takes CloudStep.apply {} run s (.borrowersViewDidLoad d)) (hd : d ∉ s.crashed)
    (hu : s.currentUser d = some u) :
    ∃ o, (exec CloudStep.apply {} run).observers[s.observers.length]? = some o ∧ o.device = d ∧
      o.node = borrowersNode u ∧ o.controller.isTable = true := by
  refine htakes.exec (I := fun t => ∃ o : Observer, t.observers[s.observers.length]? = some o ∧
    o.device = d ∧ o.node = borrowersNode u ∧ o.controller.isTable = true) (each_true _ _) ?_ ?_
  · intro _
    refine ⟨⟨d, borrowersNode u, .borrowers {},
      ((s.view d).childrenAt (borrowersNode u)).map .childAdded⟩, ?_, rfl, rfl, rfl⟩
    rw [CloudStep.apply, Cloud.on, if_neg hd, hu, retrieveBorrowersFromDatabase_some]
    simp [Cloud.attach]
  · rintro t a ⟨o, ho, hdevice, hnode, htable⟩ -
    obtain ⟨o', ho', htold⟩ := (tells_apply reading_hasRead t a).old _ o ho
    exact ⟨o', ho', htold.device.trans hdevice, htold.node.trans hnode, htold.isTable.trans htable⟩

end Origin

/-! ## No borrower is lost, doubled or foreign -/

/-- No write waits for its answer, and every event is delivered. -/
def Quiet (s : Cloud) : Prop := s.pending = [] ∧ ∀ o ∈ s.observers, o.inbox = []

/-- What the table of a user lists after a run. Each accepted write under the
user's node was sent by this user, each borrower that the user sent and the
server accepted is listed once, and no element stems from a call of another user. -/
structure BorrowersTableViewController.Lists (vc : BorrowersTableViewController)
    (run : List CloudStep) (u : Uid) : Prop where
  accepted : ∀ w ∈ (exec CloudStep.apply {} run).accepted, w.push.node = borrowersNode u →
    ∃ b, SentBy run u b ∧ w.key = b.ref ∧ w.IsBorrower u b.name b.debt
  once : ∀ b, SentBy run u b → (∃ w ∈ (exec CloudStep.apply {} run).accepted, w.key = b.ref) →
    vc.borrowers.filter (fun c => decide (c.ref = b.ref)) = [b]
  own : ∀ b ∈ vc.borrowers, SentBy run u b
  foreign : ∀ b ∈ vc.borrowers, ∀ v b', SentBy run v b' → b'.ref = b.ref → v = u

/-- Every table that a user opened in the run is still there, and lists the
borrowers of this user, whoever uses its device now. -/
def ListsItsBorrowers (run : List CloudStep) : Prop :=
  ∀ s d u, Takes CloudStep.apply {} run s (.borrowersViewDidLoad d) → d ∉ s.crashed →
    s.currentUser d = some u →
    ∃ o vc, (exec CloudStep.apply {} run).observers[s.observers.length]? = some o ∧
      o.device = d ∧ o.controller = .borrowers vc ∧ vc.Lists run u

theorem lists_of_quiet {run : List CloudStep} (hfresh : Each CloudStep.apply FreshKey {} run)
    (hquiet : Quiet (exec CloudStep.apply {} run)) {o : Observer}
    (ho : o ∈ (exec CloudStep.apply {} run).observers) {vc : BorrowersTableViewController}
    (hvc : o.controller = .borrowers vc) {u : Uid} (hnode : o.node = borrowersNode u) :
    vc.Lists run u := by
  have hfeeding := feeding_exec hfresh
  have hunique := hfeeding.answers.keyed.unique
  have hown : ∀ b ∈ vc.borrowers, SentBy run u b := fun b hb =>
    (knows_iff_sentBy hfresh).mp (hfeeding.knows ho hvc hnode hb)
  refine ⟨?_, ?_, hown, ?_⟩
  · intro w hw hwnode
    have hknown : w ∈ (exec CloudStep.apply {} run).known := mem_known.mpr (Or.inl hw)
    obtain ⟨name, debt, hborrower⟩ := isBorrower_of_node (hfeeding.filed w hknown).wellPlaced hwnode
    have hsent : SentBy run u ⟨w.key, name, debt⟩ :=
      (knows_iff_sentBy hfresh).mp ⟨w, hknown, rfl, hborrower⟩
    exact ⟨⟨w.key, name, debt⟩, hsent, rfl, hborrower⟩
  · rintro b hsent ⟨v, hv, hvkey⟩
    -- The accepted write with this key is the one of the call.
    obtain ⟨w, hw, hkey, hborrower⟩ := (knows_iff_sentBy hfresh).mpr hsent
    obtain rfl : v = w := hunique v (mem_known.mpr (Or.inl hv)) w hw (hvkey.trans hkey.symm)
    have honce := hfeeding.lists_once ho hvc hnode (hquiet.2 o ho) (mem_visible.mpr (Or.inl hv))
      hborrower
    rw [hkey] at honce
    exact honce
  · intro b hb v b' hsent href
    obtain ⟨w, hw, hkey, hborrower⟩ := (knows_iff_sentBy hfresh).mpr (hown b hb)
    obtain ⟨w', hw', hkey', hborrower'⟩ := (knows_iff_sentBy hfresh).mpr hsent
    obtain rfl : w' = w := hunique w' hw' w hw (hkey'.trans (href.trans hkey.symm))
    exact (hborrower'.inj hborrower).1

/-- On any number of devices and for any accounts, in every order of sign-ins,
logouts, writes, answers and deliveries: whenever nothing is on its way, no
table has lost, doubled or mixed up a borrower of the user who opened it. -/
theorem no_borrower_is_lost_doubled_or_foreign (run : List CloudStep)
    (h : Each CloudStep.apply FreshKey {} run) :
    ∀ past, past <+: run → Quiet (exec CloudStep.apply {} past) → ListsItsBorrowers past := by
  rintro past ⟨rest, rfl⟩ hquiet s d u htakes hd hu
  have hfresh := ((each_append _ _ _).mp h).1
  obtain ⟨o, ho, hdevice, hnode, htable⟩ := opened_table htakes hd hu
  cases hvc : o.controller with
  | borrowers vc =>
    have hlists := lists_of_quiet hfresh hquiet (List.mem_of_getElem? ho) hvc hnode
    exact ⟨o, vc, ho, hdevice, hvc, hlists⟩
  | payments vc =>
    rw [hvc] at htable
    cases htable

/-- One user sends a borrower and reads it on two devices, another user has a
borrower on a third one. -/
def threeDevices : List CloudStep :=
  [.signedIn 0 alice, .borrowersViewDidLoad 0, .sendBorrower 0 "Ann" "10" ⟨"-K1"⟩,
    .signedIn 1 alice, .borrowersViewDidLoad 1, .signedIn 2 bob, .borrowersViewDidLoad 2,
    .sendBorrower 2 "Carl" "7" ⟨"-K2"⟩, .accepted ⟨"-K1"⟩, .accepted ⟨"-K2"⟩, .deliver 0,
    .deliver 1, .deliver 2]

theorem three_devices_list_the_borrowers_of_their_users :
    (exec CloudStep.apply {} threeDevices).observers.map (fun o => (o.device, o.controller.array)) =
      [(0, .inl [⟨⟨"-K1"⟩, "Ann", "10"⟩]), (1, .inl [⟨⟨"-K1"⟩, "Ann", "10"⟩]),
        (2, .inl [⟨⟨"-K2"⟩, "Carl", "7"⟩])] ∧
      Quiet (exec CloudStep.apply {} threeDevices) ∧ ListsItsBorrowers threeDevices := by
  have hquiet : Quiet (exec CloudStep.apply {} threeDevices) := by
    have hempty : (exec CloudStep.apply {} threeDevices).observers.all
        (fun o => o.inbox.isEmpty) := by decide
    refine ⟨by decide, fun o ho => ?_⟩
    simpa using List.all_eq_true.mp hempty o ho
  refine ⟨by decide, hquiet, ?_⟩
  exact no_borrower_is_lost_doubled_or_foreign threeDevices (by decide) threeDevices
    List.prefix_rfl hquiet

end SharkCollector
