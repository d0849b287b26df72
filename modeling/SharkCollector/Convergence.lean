-- Convergence: what the lists of all devices come to. When the names of the
-- payments of each account denote paths that do not lead through one another, every
-- table and every list of payments ends up with the accepted records of its node,
-- each once, and every run that has not trapped can be brought to its end.
import SharkCollector.Delivery
import Mathlib.Data.List.Perm.Basic

namespace SharkCollector

open PathTree Runs

/-! ## Names that keep the nodes clear -/

/-- Any two names of one account denote one path, or neither leads through the other. -/
def PathsApart (names : Set (Uid × String)) : Prop :=
  ∀ u n m, (u, n) ∈ names → (u, m) ∈ names →
    components n = components m ∨ Apart (components n) (components m)

/-- A node of payments is kept clear by the records filed through names apart from its own. -/
theorem keepsClear_payments {names : Set (Uid × String)} (h : PathsApart names) {w : Write}
    (hw : w.Filed names) {u : Uid} {n : String} (hn : (u, n) ∈ names) :
    w.KeepsClear (paymentsNode u n) := by
  unfold Write.KeepsClear Write.location
  rcases hw with ⟨v, name, debt, hw⟩ | ⟨v, m, paid, date, hm, hw⟩
  · have hnode : w.push.node = borrowersNode v := congrArg Push.node hw
    rw [hnode]
    exact Or.inr (apart_borrowers_payments v u _ _)
  · have hnode : w.push.node = paymentsNode v m := congrArg Push.node hw
    rw [hnode]
    by_cases huv : v = u
    · subst huv
      rcases h v m n hm hn with heq | hap
      · exact Or.inl (by rw [paymentsNode, heq, paymentsNode])
      · right
        simpa [paymentsNode] using hap.append_left [w.key]
    · exact Or.inr (apart_payments_of_ne _ _ huv)

/-- The node of every observer is kept clear. -/
theorem Feeding.clear {names : Set (Uid × String)} {s : Cloud} (h : Feeding names s)
    (hpaths : PathsApart names) {o : Observer} (ho : o ∈ s.observers) :
    ∀ w ∈ s.known, w.KeepsClear o.node := by
  intro w hw
  rcases h.attached o ho with ⟨-, u, hnode⟩ | ⟨-, u, name, hname, hnode⟩
  · rw [hnode]
    exact keepsClear_borrowers (h.filed w hw).wellPlaced u
  · rw [hnode]
    exact keepsClear_payments hpaths (h.filed w hw) hname

/-! ## Decoding -/

theorem paymentAdded_isPayment {w : Write} {u : Uid} {name paid date : String}
    (hw : w.IsPayment u name paid date) :
    paymentAdded w.snapshot = .ok { amountPaid := paid, dateOfPayment := date } := by
  have hvalue : w.value = paymentRecord paid date := by
    rw [Write.value, hw]
    rfl
  rw [Write.snapshot, hvalue, paymentAdded_record]

/-- What stands at the node of a list of payments are payments. -/
theorem Write.Filed.isPayment {names : Set (Uid × String)} {w : Write} (h : w.Filed names) {u : Uid}
    {name : String} (hnode : w.push.node = paymentsNode u name) :
    ∃ v m paid date, w.IsPayment v m paid date := by
  rcases h with ⟨v, n, debt, hw⟩ | ⟨v, m, paid, date, -, hw⟩
  · have hborrower : w.push.node = borrowersNode v := congrArg Push.node hw
    rw [hborrower] at hnode
    simp [borrowersNode, paymentsNode] at hnode
  · exact ⟨v, m, paid, date, hw⟩

section Results
variable {names : Set (Uid × String)} {s : Cloud}

/-- No event of an inbox makes the app trap. -/
theorem Feeding.receive_ok (h : Feeding names s) (hpaths : PathsApart names) {o : Observer}
    (ho : o ∈ s.observers) {e : ChildEvent} {rest : List ChildEvent} (hinbox : o.inbox = e :: rest) :
    ∃ controller, o.controller.receive e = .ok controller := by
  cases e with
  | childRemoved k => exact ⟨o.controller, rfl⟩
  | childAdded c =>
    obtain ⟨read, hfed, -⟩ := h.fed o ho (h.clear hpaths ho)
    have hc : c ∈ o.feed read := by
      simp [Observer.feed, Observer.awaited, hinbox, ChildEvent.added]
    obtain ⟨w, hw, hnode, rfl⟩ := hfed.stems c hc
    have hattached := h.attached o ho
    cases hvc : o.controller with
    | borrowers vc =>
      rw [Observer.Attached, hvc] at hattached
      obtain ⟨-, u, ho⟩ := hattached.resolve_right fun hlist => by cases hlist.1
      obtain ⟨n, debt, hborrower⟩ :=
        isBorrower_of_node (h.filed w hw).wellPlaced (hnode.trans ho)
      exact ⟨_, receive_eq_ok.mpr (.borrower vc (borrowerAdded_isBorrower hborrower))⟩
    | payments vc =>
      rw [Observer.Attached, hvc] at hattached
      obtain ⟨-, u, name, -, ho⟩ := hattached.resolve_left fun htable => by cases htable.1
      obtain ⟨v, m, paid, date, hpayment⟩ := (h.filed w hw).isPayment (hnode.trans ho)
      exact ⟨_, receive_eq_ok.mpr (.payment vc (paymentAdded_isPayment hpayment))⟩

/-! ## What the lists come to -/

/-- The controller holds the records of the writes, each once, in some order. -/
def ListController.Shows (ws : List Write) : ListController → Prop
  | .borrowers vc => (ws.map fun w => borrowerAdded w.snapshot).Perm (vc.borrowers.map .ok)
  | .payments vc => (ws.map fun w => paymentAdded w.snapshot).Perm (vc.payments.map .ok)

/-- Every list that has caught up shows the records of its node that its device
sees, and besides these only records that its own device wrote and the server rejected. -/
def ShowsWhatItSees (s : Cloud) : Prop :=
  ∀ o ∈ s.observers, o.inbox = [] → ∃ kept, kept.Sublist s.rejected ∧
    (∀ w ∈ kept, w.device = o.device) ∧
    o.controller.Shows (writesAt o.node (s.visible o.device ++ kept))

/-- The rejected writes that a list has read. -/
def Cloud.rejectedIn (s : Cloud) (read : List Snapshot) : List Write :=
  s.rejected.filter fun w => read.any fun c => decide (c.1 = w.key)

theorem mem_rejectedIn {read : List Snapshot} {w : Write} :
    w ∈ s.rejectedIn read ↔ w ∈ s.rejected ∧ ∃ c ∈ read, c.1 = w.key := by
  simp [Cloud.rejectedIn]

theorem Answers.nodup_visible (h : Answers s) (d : Device) (read : List Snapshot) :
    (s.visible d ++ s.rejectedIn read).Nodup := by
  rw [Cloud.visible, List.nodup_append, List.nodup_append]
  refine ⟨⟨h.accepted, h.pending.filter _, ?_⟩, h.rejected.filter _, ?_⟩
  · rintro w hacc v hpend rfl
    exact h.keyed.notAccepted w (List.mem_filter.mp hpend).1 hacc
  · rintro w hw v hrej rfl
    have hrej := (mem_rejectedIn.mp hrej).1
    rcases List.mem_append.mp hw with hacc | hpend
    · exact h.disjoint w hrej hacc
    · exact h.keyed.notRejected w (List.mem_filter.mp hpend).1 hrej

/-- No two of these writes have the same snapshot. -/
theorem Answers.nodup_snapshots (h : Answers s) (d : Device) (node : Reference)
    (read : List Snapshot) :
    ((writesAt node (s.visible d ++ s.rejectedIn read)).map Write.snapshot).Nodup := by
  have hknown : ∀ w ∈ s.visible d ++ s.rejectedIn read, w ∈ s.known := by
    intro w hw
    rcases List.mem_append.mp hw with hw | hw
    · exact mem_known_of_mem_visible hw
    · exact mem_known.mpr (Or.inr (Or.inr (mem_rejectedIn.mp hw).1))
  apply List.Nodup.map_on
  · intro w hw v hv heq
    have hkey : w.key = v.key := congrArg Prod.fst heq
    exact h.keyed.unique w (hknown w (mem_writesAt.mp hw).1) v (hknown v (mem_writesAt.mp hv).1) hkey
  · exact (h.nodup_visible d read).filter _

/-- An observer that has caught up has read the records of its node that its
device sees, and rejected ones of its own device. -/
theorem Fed.perm {o : Observer} {read : List Snapshot} (h : Fed s o read) (hs : Answers s)
    (hinbox : o.inbox = []) :
    (∀ w ∈ s.rejectedIn read, w.device = o.device) ∧
      ((writesAt o.node (s.visible o.device ++ s.rejectedIn read)).map Write.snapshot).Perm
        read := by
  have hfeed : o.feed read = read := by
    simp [Observer.feed, Observer.awaited, hinbox]
  obtain ⟨hnodup, hcovers, hstems, hown⟩ := h
  rw [hfeed] at hnodup hcovers hstems hown
  refine ⟨?_, ?_⟩
  · intro w hw
    obtain ⟨hrej, c, hc, hkey⟩ := mem_rejectedIn.mp hw
    exact hown c hc w (List.mem_append_right _ hrej) hkey.symm
  · rw [List.perm_ext_iff_of_nodup (hs.nodup_snapshots _ _ _) hnodup.of_map]
    intro c
    constructor
    · intro hc
      obtain ⟨w, hw, rfl⟩ := List.mem_map.mp hc
      obtain ⟨hmem, hnode⟩ := mem_writesAt.mp hw
      rcases List.mem_append.mp hmem with hsees | hrej
      · exact hcovers w hsees hnode
      · obtain ⟨hrej, c, hc, hkey⟩ := mem_rejectedIn.mp hrej
        obtain ⟨v, hv, -, rfl⟩ := hstems c hc
        have hvw : v = w :=
          hs.keyed.unique v hv w (mem_known.mpr (Or.inr (Or.inr hrej))) hkey
        exact hvw ▸ hc
    · intro hc
      obtain ⟨w, hw, hnode, rfl⟩ := hstems c hc
      refine List.mem_map.mpr ⟨w, mem_writesAt.mpr ⟨?_, hnode⟩, rfl⟩
      rw [List.mem_append, mem_rejectedIn, mem_visible]
      rcases mem_known.mp hw with hacc | hpend | hrej
      · exact Or.inl (Or.inl hacc)
      · exact Or.inl (Or.inr ⟨hpend, hown _ hc w (List.mem_append_left _ hpend) rfl⟩)
      · exact Or.inr ⟨hrej, _, hc, rfl⟩

theorem Feeding.showsWhatItSees (h : Feeding names s) (hpaths : PathsApart names) :
    ShowsWhatItSees s := by
  intro o ho hinbox
  obtain ⟨read, hfed, hread⟩ := h.fed o ho (h.clear hpaths ho)
  obtain ⟨hown, hperm⟩ := hfed.perm h.answers hinbox
  refine ⟨s.rejectedIn read, List.filter_sublist, hown, ?_⟩
  cases hc : o.controller with
  | borrowers vc =>
    rw [hc] at hread
    have hdecoded := hperm.map borrowerAdded
    rw [List.map_map, hread] at hdecoded
    exact hdecoded
  | payments vc =>
    rw [hc] at hread
    have hdecoded := hperm.map paymentAdded
    rw [List.map_map, hread] at hdecoded
    exact hdecoded

/-- Every list that was ever opened shows the accepted records of its node, and
besides these only records that its own device wrote and the server rejected. -/
def ShowsItsNode (s : Cloud) : Prop :=
  ∀ o ∈ s.observers, ∃ kept, kept.Sublist s.rejected ∧ (∀ w ∈ kept, w.device = o.device) ∧
    o.controller.Shows (writesAt o.node (s.accepted ++ kept))

/-- In a quiet cloud every list has caught up, and every device sees what was accepted. -/
theorem ShowsWhatItSees.showsItsNode (h : ShowsWhatItSees s) (hquiet : Quiet s) :
    ShowsItsNode s := by
  intro o ho
  obtain ⟨kept, hsub, hown, hshows⟩ := h o ho (hquiet.2 o ho)
  have hvisible : s.visible o.device = s.accepted := by simp [Cloud.visible, hquiet.1]
  rw [hvisible] at hshows
  exact ⟨kept, hsub, hown, hshows⟩

end Results

/-- The accounts and names that the payments of a run, and its lists of payments, go through. -/
def paymentNames (run : List CloudStep) : Set (Uid × String) :=
  { p | ∃ s a, Takes CloudStep.apply {} run s a ∧ a.paymentName s = some p }

theorem feeding_always {run : List CloudStep} (hfresh : Each CloudStep.apply FreshKey {} run) :
    Always CloudStep.apply (Feeding (paymentNames run)) {} run := by
  have hnames : Each CloudStep.apply
      (fun s a => ∀ p, a.paymentName s = some p → p ∈ paymentNames run) {} run := by
    rw [each_iff_takes]
    intro s a htakes p hp
    exact ⟨s, a, htakes, hp⟩
  apply always_invariant (feeding_initial _ _) _ (each_and hfresh hnames)
  rintro s a hs ⟨hkey, hname⟩
  exact hs.change (change_apply hkey.autoId hname)

/-- On any number of devices, in every order of steps: a table or a list of
payments that has caught up shows exactly the records of its node that the
server accepted or its own device has sent, apart from rejected ones of its own device. -/
theorem every_list_shows_what_its_device_sees (run : List CloudStep)
    (hfresh : Each CloudStep.apply FreshKey {} run) (hpaths : PathsApart (paymentNames run)) :
    Always CloudStep.apply ShowsWhatItSees {} run :=
  (feeding_always hfresh).mono fun _ hs => hs.showsWhatItSees hpaths

/-- A payment is sent from one device, and its list is open on two. -/
def paymentOnItsWay : List CloudStep :=
  [.signedIn 0 alice, .paymentsViewDidLoad 0 ⟨⟨"-K1"⟩, "Ann", "10"⟩, .signedIn 1 alice,
    .sendPayment 0 ⟨⟨"-K1"⟩, "Ann", "10"⟩ "5" (some "2017-10-10 16:58:34 +0000") ⟨"-K2"⟩,
    .paymentsViewDidLoad 1 ⟨⟨"-K1"⟩, "Ann", "10"⟩]

/-- The payment is accepted and delivered on both devices. -/
def paymentDelivered : List CloudStep :=
  paymentOnItsWay ++ [.accepted ⟨"-K2"⟩, .deliver 0, .deliver 1]

theorem PathsApart.mono {names names' : Set (Uid × String)} (h : PathsApart names')
    (hnames : names ⊆ names') : PathsApart names :=
  fun u n m hn hm => h u n m (hnames hn) (hnames hm)

theorem paymentNames_append (run rest : List CloudStep) :
    paymentNames run ⊆ paymentNames (run ++ rest) := by
  rintro p ⟨s, a, htakes, hp⟩
  exact ⟨s, a, htakes.append rest, hp⟩

/-- A single name is apart from itself. -/
theorem pathsApart_of_forall_eq {names : Set (Uid × String)} {name : String}
    (h : ∀ p ∈ names, p.2 = name) : PathsApart names := by
  intro u n m hn hm
  have hnm : n = m := (h (u, n) hn).trans (h (u, m) hm).symm
  exact Or.inl (congrArg components hnm)

theorem pathsApart_paymentDelivered : PathsApart (paymentNames paymentDelivered) := by
  have hann : ∀ p ∈ paymentNames paymentDelivered, p.2 = "Ann" := by
    rintro p ⟨s, a, htakes, hp⟩
    have ha := htakes.mem
    simp only [paymentDelivered, paymentOnItsWay, List.cons_append, List.nil_append, List.mem_cons,
      List.not_mem_nil, or_false] at ha
    rcases ha with rfl | rfl | rfl | rfl | rfl | rfl | rfl | rfl <;>
      simp only [CloudStep.paymentName, Option.map_eq_some_iff, reduceCtorEq] at hp
    all_goals
      obtain ⟨u, -, rfl⟩ := hp
      rfl
  exact pathsApart_of_forall_eq hann

theorem quiet_paymentDelivered : Quiet (exec CloudStep.apply {} paymentDelivered) := by
  have hempty : (exec CloudStep.apply {} paymentDelivered).observers.all
      (fun o => o.inbox.isEmpty) := by decide
  refine ⟨by decide, fun o ho => ?_⟩
  simpa using List.all_eq_true.mp hempty o ho

theorem both_lists_show_the_payment :
    ShowsWhatItSees (exec CloudStep.apply {} paymentDelivered) :=
  (every_list_shows_what_its_device_sees paymentDelivered (by decide)
    pathsApart_paymentDelivered).last

/-! ## Agreement -/

/-- Two lists of one node without rejected writes hold the same rows, in some order. -/
def ListsAgree (s : Cloud) : Prop :=
  ∀ o ∈ s.observers, ∀ o' ∈ s.observers, o.node = o'.node → writesAt o.node s.rejected = [] →
    (∀ vc vc', o.controller = .borrowers vc → o'.controller = .borrowers vc' →
      vc.borrowers.Perm vc'.borrowers) ∧
    ∀ vc vc', o.controller = .payments vc → o'.controller = .payments vc' →
      vc.payments.Perm vc'.payments

theorem writesAt_append (node : Reference) (ws vs : List Write) :
    writesAt node (ws ++ vs) = writesAt node ws ++ writesAt node vs := List.filter_append ..

theorem ShowsItsNode.listsAgree {s : Cloud} (h : ShowsItsNode s) : ListsAgree s := by
  have hok : ∀ α : Type, Function.Injective (Except.ok : α → Except Fault α) := by
    intro α a b he
    exact Except.ok.inj he
  intro o ho o' ho' hnode hnone
  obtain ⟨kept, hsub, -, hshows⟩ := h o ho
  obtain ⟨kept', hsub', -, hshows'⟩ := h o' ho'
  have hempty : ∀ ws : List Write, ws.Sublist s.rejected → writesAt o.node ws = [] := by
    intro ws hws
    have hnothing : (writesAt o.node ws).Sublist (writesAt o.node s.rejected) := hws.filter _
    rw [hnone] at hnothing
    exact List.sublist_nil.mp hnothing
  rw [writesAt_append, hempty kept hsub, List.append_nil] at hshows
  rw [writesAt_append, ← hnode, hempty kept' hsub', List.append_nil] at hshows'
  refine ⟨?_, ?_⟩
  · intro vc vc' hvc hvc'
    rw [hvc] at hshows
    rw [hvc'] at hshows'
    exact (List.map_perm_map_iff (hok _)).mp (hshows.symm.trans hshows')
  · intro vc vc' hvc hvc'
    rw [hvc] at hshows
    rw [hvc'] at hshows'
    exact (List.map_perm_map_iff (hok _)).mp (hshows.symm.trans hshows')

/-- On any number of devices, in every order of steps: whenever nothing is on
its way, all lists of one node agree, when and wherever they were opened. -/
theorem the_lists_of_all_devices_agree (run : List CloudStep)
    (hfresh : Each CloudStep.apply FreshKey {} run) (hpaths : PathsApart (paymentNames run)) :
    Always CloudStep.apply (fun s => Quiet s → ListsAgree s) {} run := by
  apply (feeding_always hfresh).mono
  intro s hs hquiet
  exact ((hs.showsWhatItSees hpaths).showsItsNode hquiet).listsAgree

theorem both_lists_agree_on_the_payment : ListsAgree (exec CloudStep.apply {} paymentDelivered) :=
  (the_lists_of_all_devices_agree paymentDelivered (by decide)
    pathsApart_paymentDelivered).last quiet_paymentDelivered

/-! ## No accepted record is lost -/

theorem Change.accepted_subset {names : Set (Uid × String)} {used : List Key} {s t : Cloud}
    (h : Change names used s t) {w : Write} (hw : w ∈ s.accepted) : w ∈ t.accepted := by
  cases h with
  | accepted v hv => exact List.mem_append_left _ hw
  | _ => exact hw

/-- The node of a record is kept clear by every other. -/
theorem Write.Filed.keepsClear {names : Set (Uid × String)} (h : PathsApart names) {w v : Write}
    (hw : w.Filed names) (hv : v.Filed names) : v.KeepsClear w.push.node := by
  rcases hw with ⟨u, name, debt, hw⟩ | ⟨u, name, paid, date, hname, hw⟩
  · rw [hw]
    exact keepsClear_borrowers hv.wellPlaced u
  · rw [hw]
    exact keepsClear_payments h hv hname

/-- A record with a key of its own stands where it was written. -/
theorem get_tree {ws : List Write} {w : Write} (hw : w ∈ ws)
    (hclear : ∀ v ∈ ws, v.KeepsClear w.push.node) (hunique : ∀ v ∈ ws, v.key = w.key → v = w) :
    (tree ws).get w.location = some w.value := by
  have hkey := (mem_keys_childrenAt_tree hclear).mpr ⟨w, hw, rfl, rfl⟩
  obtain ⟨value, hvalue⟩ := Option.isSome_iff_exists.mp (mem_keys_iff_lookup.mp hkey)
  obtain ⟨v, hv, -, hsnapshot⟩ := mem_childrenAt_tree hclear (mem_of_lookup hvalue)
  obtain ⟨hvkey, rfl⟩ := Prod.mk.inj hsnapshot
  rw [Write.location, ← lookup_childrenAt, hvalue, hunique v hv hvkey.symm]

/-- These records stand where they were written, on the server and on every device. -/
def Keeps (ws : List Write) (s : Cloud) : Prop :=
  ∀ w ∈ ws, (tree s.accepted).get w.location = some w.value ∧
    ∀ d, (s.view d).get w.location = some w.value

theorem Feeding.keeps {names : Set (Uid × String)} {s : Cloud} (h : Feeding names s)
    (hpaths : PathsApart names) : Keeps s.accepted s := by
  intro w hw
  have hwknown : w ∈ s.known := mem_known.mpr (Or.inl hw)
  have hget : ∀ ws, w ∈ ws → (∀ v ∈ ws, v ∈ s.known) → (tree ws).get w.location = some w.value := by
    intro ws hmem hknown
    apply get_tree hmem
    · intro v hv
      exact (h.filed w hwknown).keepsClear hpaths (h.filed v (hknown v hv))
    · intro v hv hkey
      exact h.answers.keyed.unique v (hknown v hv) w hwknown hkey
  refine ⟨?_, fun d => ?_⟩
  · exact hget s.accepted hw fun v hv => mem_known.mpr (Or.inl hv)
  · exact hget (s.visible d) (mem_visible.mpr (Or.inl hw)) fun v hv => mem_known_of_mem_visible hv

/-- From the moment it is accepted, a record stands where it was written, with
the values it was written with, whatever any device does afterwards. -/
theorem an_accepted_record_is_never_lost (before after : List CloudStep)
    (hfresh : Each CloudStep.apply FreshKey {} (before ++ after))
    (hpaths : PathsApart (paymentNames (before ++ after))) :
    Always CloudStep.apply (Keeps (exec CloudStep.apply {} before).accepted)
      (exec CloudStep.apply {} before) after := by
  have hfeeding := (always_iff _ _).mp (feeding_always hfresh)
  obtain ⟨-, hafter⟩ := (each_append _ _ _).mp hfresh
  have hgrows : Always CloudStep.apply
      (fun s => ∀ w ∈ (exec CloudStep.apply {} before).accepted, w ∈ s.accepted)
      (exec CloudStep.apply {} before) after := by
    apply always_invariant (C := FreshKey) (fun _ hw => hw) _ hafter
    intro s a hs hkey w hw
    exact hkey.change.accepted_subset (hs w hw)
  rw [always_iff] at hgrows ⊢
  intro pre hpre w hw
  have hlast := hfeeding (before ++ pre) ((List.prefix_append_right_inj before).mpr hpre)
  rw [exec_append] at hlast
  exact hlast.keeps hpaths w (hgrows pre hpre w hw)

/-- The payment is accepted, and both devices still have to be told. -/
theorem the_payment_is_kept :
    Always CloudStep.apply
      (Keeps (exec CloudStep.apply {} (paymentOnItsWay ++ [.accepted ⟨"-K2"⟩])).accepted)
      (exec CloudStep.apply {} (paymentOnItsWay ++ [.accepted ⟨"-K2"⟩])) [.deliver 0, .deliver 1] := by
  have hpaths : PathsApart (paymentNames
      (paymentOnItsWay ++ [.accepted ⟨"-K2"⟩] ++ [.deliver 0, .deliver 1])) :=
    pathsApart_paymentDelivered
  exact an_accepted_record_is_never_lost _ _ (by decide) hpaths

/-! ## Coming to rest -/

/-- The server answers a write or delivers an event. -/
def CloudStep.FromServer : CloudStep → Prop
  | .accepted _ => True
  | .rejected _ => True
  | .deliver _ => True
  | _ => False

section Rest
variable {names : Set (Uid × String)} {s : Cloud}

theorem Feeding.fromServer (h : Feeding names s) {a : CloudStep} (ha : a.FromServer) :
    Feeding names (a.apply s) := by
  apply h.change
  cases a with
  | accepted key => exact .accept s key
  | rejected key => exact .reject s key
  | deliver i => exact .deliver s i
  | _ => cases ha

/-- The server's steps keep the feeds going. -/
theorem Feeding.exec_fromServer (h : Feeding names s) {rest : List CloudStep}
    (hrest : ∀ a ∈ rest, a.FromServer) : Feeding names (exec CloudStep.apply s rest) :=
  exec_invariant (C := fun _ a => a.FromServer) h (fun _ _ hs ha => hs.fromServer ha)
    (each_of_forall_mem fun a ha _ => hrest a ha)

/-- The events that wait in the inboxes. -/
def waiting (os : List Observer) : Nat := os.foldr (fun o n => o.inbox.length + n) 0

theorem waiting_set_lt {os : List Observer} {i : Nat} {o o' : Observer} (ho : os[i]? = some o)
    (hlt : o'.inbox.length < o.inbox.length) : waiting (os.set i o') < waiting os := by
  induction os generalizing i with
  | nil => simp at ho
  | cons p os ih =>
    cases i with
    | zero =>
      obtain rfl : p = o := by simpa using ho
      simp only [waiting, List.set_cons_zero, List.foldr_cons]
      omega
    | succ i =>
      have hrest := ih (by simpa using ho)
      simp only [waiting, List.set_cons_succ, List.foldr_cons] at hrest ⊢
      omega

/-- Every inbox can be emptied, and no event traps. -/
theorem Feeding.drain (h : Feeding names s) (hpaths : PathsApart names) (hrunning : s.crashed = []) :
    ∃ rest : List CloudStep, (∀ a ∈ rest, ∃ i, a = .deliver i) ∧
      (∀ o ∈ (exec CloudStep.apply s rest).observers, o.inbox = []) ∧
      (exec CloudStep.apply s rest).crashed = [] ∧
      (exec CloudStep.apply s rest).pending = s.pending ∧
      (exec CloudStep.apply s rest).accepted = s.accepted := by
  induction hn : waiting s.observers using Nat.strong_induction_on generalizing s with
  | h n ih =>
    by_cases hempty : ∀ o ∈ s.observers, o.inbox = []
    · exact ⟨[], by simp, hempty, hrunning, rfl, rfl⟩
    · obtain ⟨o, ho, hinbox⟩ : ∃ o ∈ s.observers, o.inbox ≠ [] := by simpa using hempty
      obtain ⟨i, hi⟩ := List.mem_iff_getElem?.mp ho
      obtain ⟨e, es, hes⟩ := List.exists_cons_of_ne_nil hinbox
      obtain ⟨controller, hreceive⟩ := h.receive_ok hpaths ho hes
      have hstep : CloudStep.apply s (.deliver i) =
          { s with observers := s.observers.set i { o with controller, inbox := es } } := by
        simp [CloudStep.apply, Cloud.deliver, hi, hes, hrunning, hreceive]
      have hlt : waiting (CloudStep.apply s (.deliver i)).observers < n := by
        rw [hstep, ← hn]
        exact waiting_set_lt hi (by simp [hes])
      have hnext := h.fromServer (a := .deliver i) trivial
      obtain ⟨rest, hdeliver, hdone, hcrashed, hpending, haccepted⟩ :=
        ih _ hlt hnext (by rw [hstep]; exact hrunning) rfl
      refine ⟨.deliver i :: rest, ?_, hdone, hcrashed, ?_, ?_⟩
      · intro a ha
        rcases List.mem_cons.mp ha with rfl | ha
        · exact ⟨i, rfl⟩
        · exact hdeliver a ha
      · rw [exec_cons, hpending, hstep]
      · rw [exec_cons, haccepted, hstep]

/-- The server can answer the first pending write, one way or the other. -/
theorem Feeding.answer_head (h : Feeding names s) {w : Write} {ws : List Write}
    (hp : s.pending = w :: ws) (accepts : Bool) :
    ∃ a : CloudStep, a.FromServer ∧ (a.apply s).pending = ws ∧ (a.apply s).crashed = s.crashed ∧
      (a.apply s).accepted = s.accepted ++ if accepts then [w] else [] := by
  have hawaiting : s.awaiting w.key = some w := by simp [Cloud.awaiting, hp]
  -- No other pending write has its key.
  have hothers : s.others w.key = ws := by
    have hnodup := h.answers.pending
    rw [hp, List.nodup_cons] at hnodup
    rw [Cloud.others, hp, List.filter_cons_of_neg (by simp), List.filter_eq_self]
    intro v hv
    rw [decide_eq_true_eq]
    intro hkey
    have hvw : v = w := by
      apply h.answers.keyed.unique v _ w _ hkey
      · exact mem_known.mpr (Or.inr (Or.inl (by simp [hp, hv])))
      · exact mem_known.mpr (Or.inr (Or.inl (by simp [hp])))
    exact hnodup.1 (hvw ▸ hv)
  cases accepts with
  | true =>
    refine ⟨.accepted w.key, trivial, ?_⟩
    simp [CloudStep.apply, Cloud.accept, Cloud.notifyAll, hawaiting, hothers]
  | false =>
    refine ⟨.rejected w.key, trivial, ?_⟩
    simp [CloudStep.apply, Cloud.reject, Cloud.notifyAll, hawaiting, hothers]

/-- The server can answer every pending write, one way or the other. -/
theorem Feeding.answer (h : Feeding names s) (answer : Write → Bool) :
    ∃ rest : List CloudStep, (∀ a ∈ rest, a.FromServer) ∧
      (exec CloudStep.apply s rest).pending = [] ∧
      (exec CloudStep.apply s rest).crashed = s.crashed ∧
      (exec CloudStep.apply s rest).accepted = s.accepted ++ s.pending.filter answer := by
  induction hp : s.pending generalizing s with
  | nil => exact ⟨[], by simp, hp, rfl, by simp⟩
  | cons w ws ih =>
    obtain ⟨a, ha, hpending, hcrashed, haccepted⟩ := h.answer_head hp (answer w)
    obtain ⟨rest, hrest, hpending', hcrashed', haccepted'⟩ := ih (h.fromServer ha) hpending
    refine ⟨a :: rest, ?_, hpending', ?_, ?_⟩
    · intro b hb
      rcases List.mem_cons.mp hb with rfl | hb
      · exact ha
      · exact hrest b hb
    · rw [exec_cons, hcrashed', hcrashed]
    · rw [exec_cons, haccepted', haccepted, List.filter_cons]
      split <;> simp

/-- The server can bring a cloud to rest: it answers every pending write and delivers every event. -/
theorem Feeding.rest (h : Feeding names s) (hpaths : PathsApart names) (hrunning : s.crashed = [])
    (answer : Write → Bool) :
    ∃ rest : List CloudStep, (∀ a ∈ rest, a.FromServer) ∧ Quiet (exec CloudStep.apply s rest) ∧
      (exec CloudStep.apply s rest).crashed = [] ∧
      (exec CloudStep.apply s rest).accepted = s.accepted ++ s.pending.filter answer ∧
      ShowsItsNode (exec CloudStep.apply s rest) := by
  obtain ⟨answers, hserver, hpending, hcrashed, haccepted⟩ := h.answer answer
  have hanswered := h.exec_fromServer hserver
  obtain ⟨deliveries, hdeliver, hempty, hcrashed', hpending', haccepted'⟩ :=
    hanswered.drain hpaths (hcrashed.trans hrunning)
  have hfromServer : ∀ a ∈ answers ++ deliveries, a.FromServer := by
    intro a ha
    rcases List.mem_append.mp ha with ha | ha
    · exact hserver a ha
    · obtain ⟨i, rfl⟩ := hdeliver a ha
      trivial
  have hlast := h.exec_fromServer hfromServer
  refine ⟨answers ++ deliveries, hfromServer, ?_⟩
  rw [exec_append] at hlast ⊢
  have hquiet : Quiet (exec CloudStep.apply (exec CloudStep.apply s answers) deliveries) :=
    ⟨hpending'.trans hpending, hempty⟩
  have hshows := (hlast.showsWhatItSees hpaths).showsItsNode hquiet
  exact ⟨hquiet, hcrashed', haccepted'.trans haccepted, hshows⟩

end Rest

/-- Every run with fresh keys and payment paths apart that has not trapped can come
to rest, whatever the server answers to the writes that wait, and then every list
shows what was accepted, and besides it only rejected records of its own device. -/
theorem every_run_can_come_to_rest (run : List CloudStep)
    (hfresh : Each CloudStep.apply FreshKey {} run) (hpaths : PathsApart (paymentNames run))
    (hrunning : (exec CloudStep.apply {} run).crashed = []) (answer : Write → Bool) :
    ∃ rest : List CloudStep, (∀ a ∈ rest, a.FromServer) ∧
      Quiet (exec CloudStep.apply {} (run ++ rest)) ∧
      (exec CloudStep.apply {} (run ++ rest)).crashed = [] ∧
      (exec CloudStep.apply {} (run ++ rest)).accepted =
        (exec CloudStep.apply {} run).accepted ++
          (exec CloudStep.apply {} run).pending.filter answer ∧
      ShowsItsNode (exec CloudStep.apply {} (run ++ rest)) := by
  obtain ⟨rest, hserver, hrest⟩ :=
    (feeding_always hfresh).last.rest hpaths hrunning answer
  refine ⟨rest, hserver, ?_⟩
  rw [exec_append]
  exact hrest

/-- The payment on its way can still be rejected, and then both lists come to rest without it
or with it on its own device only. -/
theorem the_payment_on_its_way_can_come_to_rest :
    ∃ rest : List CloudStep, (∀ a ∈ rest, a.FromServer) ∧
      Quiet (exec CloudStep.apply {} (paymentOnItsWay ++ rest)) ∧
      (exec CloudStep.apply {} (paymentOnItsWay ++ rest)).crashed = [] ∧
      (exec CloudStep.apply {} (paymentOnItsWay ++ rest)).accepted =
        (exec CloudStep.apply {} paymentOnItsWay).accepted ++
          (exec CloudStep.apply {} paymentOnItsWay).pending.filter (fun _ => false) ∧
      ShowsItsNode (exec CloudStep.apply {} (paymentOnItsWay ++ rest)) := by
  have hpaths : PathsApart (paymentNames paymentOnItsWay) :=
    pathsApart_paymentDelivered.mono (paymentNames_append paymentOnItsWay _)
  exact every_run_can_come_to_rest paymentOnItsWay (by decide) hpaths (by decide) fun _ => false

end SharkCollector
