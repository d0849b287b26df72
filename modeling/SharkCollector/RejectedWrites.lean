-- Rejected writes. The server takes a write back after the device has shown it,
-- and no screen observes removals. The law says when a run leaves the same
-- lists as the run without its rejected writes: when no list on the device of
-- such a write observes a place that the write touches while it is pending.
import SharkCollector.Delivery

namespace SharkCollector

open PathTree Runs

/-! ## The run without its rejected writes -/

/-- The keys of the writes that the server rejects in a run. -/
def rejectedKeys (run : List CloudStep) : List Key :=
  (exec CloudStep.apply {} run).rejected.map Write.key

/-- A step that is neither a write with one of these keys nor a rejection. -/
def keeps (keys : List Key) : CloudStep → Bool
  | .sendBorrower _ _ _ key => decide (key ∉ keys)
  | .sendPayment _ _ _ _ key => decide (key ∉ keys)
  | .rejected _ => false
  | _ => true

/-- The same run with the rejected writes omitted. -/
def omitRejected (run : List CloudStep) : List CloudStep := run.filter (keeps (rejectedKeys run))

/-- The array of a controller once all its events are delivered, or the fault that it traps with. -/
def Observer.drained (o : Observer) : Except Fault (List Borrower ⊕ List Payment) := do
  let controller ← o.inbox.foldlM ListController.receive o.controller
  return controller.array

/-- Once all events are delivered, every list is as it would be without the rejected writes. -/
def LeavesNoTrace (run : List CloudStep) : Prop :=
  (exec CloudStep.apply {} run).observers.map Observer.drained =
    (exec CloudStep.apply {} (omitRejected run)).observers.map Observer.drained

/-- No list on the device of a pending write with one of these keys observes
the place of the write, a place below it or one above it. -/
def Unobserved (keys : List Key) (s : Cloud) : Prop :=
  ∀ w ∈ s.pending, w.key ∈ keys → ∀ o ∈ s.observers, o.device = w.device → Apart w.location o.node

instance (keys : List Key) (s : Cloud) : Decidable (Unobserved keys s) :=
  inferInstanceAs (Decidable (∀ w ∈ s.pending, _))

/-! ## Two clouds side by side -/

/-- The second cloud is the first one without its pending writes with the given keys. -/
structure Mirrors (keys : List Key) (s s' : Cloud) : Prop where
  currentUser : s'.currentUser = s.currentUser
  accepted : s'.accepted = s.accepted
  pending : s'.pending = s.pending.filter fun w => decide (w.key ∉ keys)
  observers : s'.observers = s.observers
  crashed : s'.crashed = s.crashed

section Mirrors
variable {keys : List Key} {s s' t t' : Cloud}

/-- The views agree wherever no pending write of these keys reaches. -/
theorem Mirrors.get_view (h : Mirrors keys s s') {d : Device} {node : Reference}
    (hapart : ∀ w ∈ s.pending, w.device = d → w.key ∈ keys → Apart w.location node) :
    (s.view d).get node = (s'.view d).get node := by
  unfold Cloud.view Cloud.visible tree
  rw [exec_append, exec_append, h.accepted, h.pending, List.filter_comm]
  apply exec_filter_related (C := fun _ w => w.key ∈ keys → Apart w.location node)
    (R := fun db db' : Database => db.get node = db'.get node) rfl
  · intro db db' w hget _ _
    exact get_set_congr _ _ hget
  · intro db db' w hget hw hdrop
    rw [Write.apply_eq, get_set_apart _ _ (hw (by simpa using hdrop))]
    exact hget
  · apply each_of_forall_mem
    intro w hw _ hkey
    rw [List.mem_filter, decide_eq_true_eq] at hw
    exact hapart w hw.1 hw.2 hkey

/-- An observer of an unobserved place sees the same children in both clouds. -/
theorem Mirrors.childrenAt_view (h : Mirrors keys s s') (hs : Unobserved keys s) {o : Observer}
    (ho : o ∈ s.observers) :
    (s.view o.device).childrenAt o.node = (s'.view o.device).childrenAt o.node := by
  apply childrenAt_congr
  apply h.get_view
  intro w hw hdevice hkey
  exact hs w hw hkey o ho hdevice.symm

theorem childEvents_self (cs : List Snapshot) : childEvents cs cs = [] := by
  simp [childEvents, addedChildren_self]

theorem unobserved_notifyAll (s : Cloud) : Unobserved keys (t.notifyAll s) ↔ Unobserved keys t := by
  unfold Unobserved Cloud.notifyAll
  simp [Observer.notify]

/-- The same change in both clouds sends the same events. -/
theorem Mirrors.notifyAll (hs : Mirrors keys s s') (ht : Mirrors keys t t')
    (hobservers : t.observers = s.observers) (hus : Unobserved keys s) (hut : Unobserved keys t) :
    Mirrors keys (t.notifyAll s) (t'.notifyAll s') := by
  refine ⟨ht.currentUser, ht.accepted, ht.pending, ?_, ht.crashed⟩
  unfold Cloud.notifyAll
  simp only [ht.observers]
  apply List.map_congr_left
  intro o ho
  rw [Observer.notify, Observer.notify, hs.childrenAt_view hus (hobservers ▸ ho),
    ht.childrenAt_view hut ho]

/-- A change that the second cloud does not make sends no events. -/
theorem Mirrors.notifyAll_left (hs : Mirrors keys s s') (ht : Mirrors keys t s')
    (hobservers : t.observers = s.observers) (hus : Unobserved keys s) (hut : Unobserved keys t) :
    Mirrors keys (t.notifyAll s) s' := by
  refine ⟨ht.currentUser, ht.accepted, ht.pending, ?_, ht.crashed⟩
  have hid : (t.observers.map fun o => o.notify (s.view o.device) (t.view o.device)) =
      t.observers.map id := by
    apply List.map_congr_left
    intro o ho
    have hsame : (s.view o.device).childrenAt o.node = (t.view o.device).childrenAt o.node :=
      (hs.childrenAt_view hus (hobservers ▸ ho)).trans (ht.childrenAt_view hut ho).symm
    rw [Observer.notify, hsame, childEvents_self, List.append_nil, id]
  simp only [Cloud.notifyAll, hid, List.map_id]
  exact ht.observers

/-! ## Steps that both clouds make -/

theorem Mirrors.crash (h : Mirrors keys s s') (d : Device) : Mirrors keys (s.crash d) (s'.crash d) :=
  ⟨h.currentUser, h.accepted, h.pending, h.observers, congrArg (d :: ·) h.crashed⟩

theorem Mirrors.on (h : Mirrors keys s s') (d : Device) (ht : d ∉ s.crashed → Mirrors keys t t') :
    Mirrors keys (s.on d t) (s'.on d t') := by
  unfold Cloud.on
  rw [h.crashed]
  split
  · exact h
  · rename_i hd
    exact ht hd

theorem Mirrors.attach (h : Mirrors keys s s') (d : Device) (controller : ListController)
    (result : Except Fault Reference) (hafter : Unobserved keys (s.attach d controller result)) :
    Mirrors keys (s.attach d controller result) (s'.attach d controller result) := by
  rcases result with _ | node
  · exact h.crash d
  · refine ⟨h.currentUser, h.accepted, h.pending, ?_, h.crashed⟩
    have hchildren : (s.view d).childrenAt node = (s'.view d).childrenAt node := by
      apply childrenAt_congr
      apply h.get_view
      intro w hw hdevice hkey
      exact hafter w hw hkey _ (List.mem_append_right _ List.mem_cons_self) hdevice.symm
    simp only [Cloud.attach, h.observers, hchildren]

theorem Mirrors.send (h : Mirrors keys s s') (hs : Unobserved keys s) (d : Device) {key : Key}
    (hkey : key ∉ keys) (result : Except Fault (Option Push)) :
    Mirrors keys (s.send d key result) (s'.send d key result) := by
  have hids :
      Mirrors keys { s with autoIds := key :: s.autoIds } { s' with autoIds := key :: s'.autoIds } :=
    ⟨h.currentUser, h.accepted, h.pending, h.observers, h.crashed⟩
  unfold Cloud.send
  rcases result with _ | (_ | push)
  · exact hids.crash d
  · exact hids
  · refine hids.notifyAll ⟨h.currentUser, h.accepted, ?_, h.observers, h.crashed⟩ rfl hs ?_
    · simp [h.pending, List.filter_append, hkey]
    · intro w hw hwkey o ho hdevice
      rcases List.mem_append.mp hw with hw | hw
      · exact hs w hw hwkey o ho hdevice
      · rw [List.mem_singleton] at hw
        subst hw
        exact absurd hwkey hkey

theorem Mirrors.awaiting (h : Mirrors keys s s') {key : Key} (hkey : key ∉ keys) :
    s'.awaiting key = s.awaiting key := by
  unfold Cloud.awaiting
  rw [h.pending, List.find?_filter]
  congr 1
  funext w
  by_cases hw : w.key = key
  · simp [hw, hkey]
  · simp [hw]

theorem Mirrors.others (h : Mirrors keys s s') (key : Key) :
    s'.others key = (s.others key).filter fun w => decide (w.key ∉ keys) := by
  unfold Cloud.others
  rw [h.pending, List.filter_comm]

theorem Unobserved.others (h : Unobserved keys s) {key : Key} (hpending : t.pending = s.others key)
    (hobservers : t.observers = s.observers) : Unobserved keys t := by
  intro w hw hkey o ho
  rw [hpending, mem_others] at hw
  exact h w hw.1 hkey o (hobservers ▸ ho)

theorem Mirrors.accept (h : Mirrors keys s s') (hs : Unobserved keys s) (key : Key)
    (hkey : (s.awaiting key).isSome → key ∉ keys) : Mirrors keys (s.accept key) (s'.accept key) := by
  unfold Cloud.accept
  rcases hw : s.awaiting key with _ | w
  · have hnone : s'.awaiting key = none := by
      unfold Cloud.awaiting at hw ⊢
      rw [h.pending, List.find?_filter]
      rw [List.find?_eq_none] at hw ⊢
      intro w hmem
      simpa using fun _ => by simpa using hw w hmem
    rw [hnone]
    exact h
  · rw [h.awaiting (hkey (by simp [hw])), hw]
    refine h.notifyAll ⟨h.currentUser, ?_, h.others key, h.observers, h.crashed⟩ rfl hs ?_
    · simp only [h.accepted]
    · exact hs.others rfl rfl

theorem Mirrors.deliver (h : Mirrors keys s s') (i : Nat) :
    Mirrors keys (s.deliver i) (s'.deliver i) := by
  unfold Cloud.deliver
  rw [h.observers, h.crashed]
  rcases s.observers[i]? with _ | o
  · exact h
  · rcases hinbox : o.inbox with _ | ⟨e, rest⟩
    · simp only [hinbox]
      exact h
    · simp only [hinbox]
      split
      · exact h
      · rcases o.controller.receive e with _ | controller
        · exact h.crash o.device
        · exact ⟨h.currentUser, h.accepted, h.pending, rfl, rfl⟩

/-! ## Steps that only the first cloud makes -/

theorem Mirrors.send_left (h : Mirrors keys s s') (hs : Unobserved keys s) (d : Device) {key : Key}
    (hkey : key ∈ keys) {result : Except Fault (Option Push)} (hresult : ∀ fault, result ≠ .error fault)
    (hafter : Unobserved keys (s.send d key result)) : Mirrors keys (s.send d key result) s' := by
  have hids : Mirrors keys { s with autoIds := key :: s.autoIds } s' :=
    ⟨h.currentUser, h.accepted, h.pending, h.observers, h.crashed⟩
  rcases result with fault | (_ | push)
  · exact absurd rfl (hresult fault)
  · exact hids
  · refine hids.notifyAll_left ⟨h.currentUser, h.accepted, ?_, h.observers, h.crashed⟩ rfl hs ?_
    · simp [h.pending, List.filter_append, hkey]
    · exact (unobserved_notifyAll _).mp hafter

theorem Mirrors.reject_left (h : Mirrors keys s s') (hs : Unobserved keys s) (key : Key)
    (hkey : (s.awaiting key).isSome → key ∈ keys) : Mirrors keys (s.reject key) s' := by
  unfold Cloud.reject
  rcases hw : s.awaiting key with _ | w
  · exact h
  · have hpending : s'.pending = (s.others key).filter fun w => decide (w.key ∉ keys) := by
      unfold Cloud.others
      rw [h.pending, List.filter_filter]
      apply List.filter_congr
      intro v _
      have hmem : key ∈ keys := hkey (by simp [hw])
      by_cases hv : v.key = key
      · simp [hv, hmem]
      · simp [hv]
    refine h.notifyAll_left ⟨h.currentUser, h.accepted, hpending, h.observers, h.crashed⟩ rfl hs ?_
    exact hs.others rfl rfl

end Mirrors

/-! ## What comes later in a run -/

/-- The key was given, and neither a pending nor a rejected write has it. -/
def NeverRejected (k : Key) (s : Cloud) : Prop :=
  k ∈ s.autoIds ∧ (∀ w ∈ s.pending, w.key ≠ k) ∧ ∀ w ∈ s.rejected, w.key ≠ k

/-- A rejection is final, and so is its absence. -/
structure Later (s t : Cloud) : Prop where
  rejected : ∀ w ∈ s.rejected, w ∈ t.rejected
  neverRejected : ∀ k, NeverRejected k s → NeverRejected k t

theorem Later.refl (s : Cloud) : Later s s := ⟨fun _ h => h, fun _ h => h⟩

theorem Later.trans {s t r : Cloud} (h : Later s t) (h' : Later t r) : Later s r :=
  ⟨fun w hw => h'.rejected w (h.rejected w hw), fun k hk => h'.neverRejected k (h.neverRejected k hk)⟩

theorem Change.later {names : Set (Uid × String)} {s t : Cloud} (h : Change names s.autoIds s t) :
    Later s t := by
  cases h with
  | idle currentUser autoIds crashed hids =>
    exact ⟨fun _ h => h, fun k hk => ⟨hids k hk.1, hk.2⟩⟩
  | attached o ho => exact ⟨fun _ h => h, fun _ h => h⟩
  | sent w hfiled hfresh =>
    refine ⟨fun _ h => h, fun k hk => ⟨List.mem_cons_of_mem _ hk.1, ?_, hk.2.2⟩⟩
    intro v hv
    rcases List.mem_append.mp hv with hv | hv
    · exact hk.2.1 v hv
    · rw [List.mem_singleton] at hv
      rintro rfl
      exact hfresh (hv ▸ hk.1)
  | accepted w hw =>
    refine ⟨fun _ h => h, fun k hk => ⟨hk.1, ?_, hk.2.2⟩⟩
    intro v hv
    exact hk.2.1 v (mem_others.mp hv).1
  | rejected w hw =>
    refine ⟨fun v hv => List.mem_append_left _ hv, fun k hk => ⟨hk.1, ?_, ?_⟩⟩
    · intro v hv
      exact hk.2.1 v (mem_others.mp hv).1
    · intro v hv
      rcases List.mem_append.mp hv with hv | hv
      · exact hk.2.2 v hv
      · rw [List.mem_singleton] at hv
        exact hv ▸ hk.2.1 w hw
  | delivered i o e rest controller ho hinbox hreceive => exact ⟨fun _ h => h, fun _ h => h⟩

theorem neverRejected_accept {s : Cloud} (h : Keyed s) {key : Key} {w : Write}
    (hw : s.awaiting key = some w) : NeverRejected key (s.accept key) := by
  obtain ⟨hmem, rfl⟩ := awaiting_eq_some hw
  have hknown : w ∈ s.known := mem_known.mpr (Or.inr (Or.inl hmem))
  unfold Cloud.accept
  rw [hw]
  refine ⟨h.used w hknown, ?_, ?_⟩
  · intro v hv
    exact (mem_others.mp hv).2
  · intro v hv hkey
    have hvw : v = w := h.unique v (mem_known.mpr (Or.inr (Or.inr hv))) w hknown hkey
    exact h.notRejected w hmem (hvw ▸ hv)

theorem neverRejected_send_error {s : Cloud} (h : Keyed s) (d : Device) {key : Key}
    (hfresh : key ∉ s.autoIds) (fault : Fault) : NeverRejected key (s.send d key (.error fault)) := by
  refine ⟨List.mem_cons_self, ?_, ?_⟩
  · intro w hw hkey
    exact hfresh (hkey ▸ h.used w (mem_known.mpr (Or.inr (Or.inl hw))))
  · intro w hw hkey
    exact hfresh (hkey ▸ h.used w (mem_known.mpr (Or.inr (Or.inr hw))))

/-! ## Runs with and without the rejected writes -/

section Runs
variable {keys : List Key} {s s' last : Cloud}

/-- Around a step of the run: the key is fresh, the rejected writes are
unobserved before and after it, and the last state comes later. -/
structure Quietly (keys : List Key) (last s : Cloud) (a : CloudStep) : Prop where
  fresh : FreshKey s a
  before : Unobserved keys s
  after : Unobserved keys (a.apply s)
  later : Later (a.apply s) last

theorem Unobserved.of_on {d : Device} {t : Cloud} (h : Unobserved keys (s.on d t)) (hd : d ∉ s.crashed) :
    Unobserved keys t := by
  rw [Cloud.on, if_neg hd] at h
  exact h

/-- A step that is kept moves both clouds. -/
theorem Mirrors.apply_kept (hkeys : ∀ k, NeverRejected k last → k ∉ keys) (h : Mirrors keys s s')
    (hs : Keyed s) {a : CloudStep} (ha : Quietly keys last s a) (hkept : keeps keys a = true) :
    Mirrors keys (a.apply s) (a.apply s') := by
  have hbefore := ha.before
  have hafter := ha.after
  cases a with
  | signedIn d u =>
    simp only [CloudStep.apply, h.currentUser]
    exact h.on d fun _ => ⟨rfl, h.accepted, h.pending, h.observers, h.crashed⟩
  | signedOut d =>
    simp only [CloudStep.apply, h.currentUser]
    exact h.on d fun _ => ⟨rfl, h.accepted, h.pending, h.observers, h.crashed⟩
  | borrowersViewDidLoad d =>
    simp only [CloudStep.apply, h.currentUser]
    exact h.on d fun hd => h.attach d _ _ (hafter.of_on hd)
  | paymentsViewDidLoad d b =>
    simp only [CloudStep.apply, h.currentUser]
    exact h.on d fun hd => h.attach d _ _ (hafter.of_on hd)
  | sendBorrower d name debt key =>
    simp only [CloudStep.apply, h.currentUser]
    exact h.on d fun _ => h.send hbefore d (by simpa [keeps] using hkept) _
  | sendPayment d b amount date key =>
    simp only [CloudStep.apply, h.currentUser]
    exact h.on d fun _ => h.send hbefore d (by simpa [keeps] using hkept) _
  | accepted key =>
    apply h.accept hbefore key
    intro hsome
    obtain ⟨w, hw⟩ := Option.isSome_iff_exists.mp hsome
    exact hkeys key (ha.later.neverRejected key (neverRejected_accept hs hw))
  | rejected key => cases hkept
  | deliver i => exact h.deliver i

/-- A write that the server rejects later on moves the first cloud only. -/
theorem Mirrors.send_dropped (hkeys : ∀ k, NeverRejected k last → k ∉ keys) (h : Mirrors keys s s')
    (hs : Keyed s) (hbefore : Unobserved keys s) {d : Device} {key : Key} (hfresh : key ∉ s.autoIds)
    (hkey : key ∈ keys) {result : Except Fault (Option Push)}
    (hafter : Unobserved keys (s.on d (s.send d key result)))
    (hlater : Later (s.on d (s.send d key result)) last) :
    Mirrors keys (s.on d (s.send d key result)) s' := by
  by_cases hd : d ∈ s.crashed
  · rw [Cloud.on, if_pos hd]
    exact h
  · rw [Cloud.on, if_neg hd] at hafter hlater ⊢
    refine h.send_left hbefore d hkey ?_ hafter
    -- A call that traps has no write that could be rejected.
    rintro fault rfl
    exact hkeys key (hlater.neverRejected key (neverRejected_send_error hs d hfresh fault)) hkey

/-- A step that is dropped moves the first cloud only. -/
theorem Mirrors.apply_dropped (hkeys : ∀ k, NeverRejected k last → k ∉ keys)
    (hrejected : ∀ w ∈ last.rejected, w.key ∈ keys) (h : Mirrors keys s s') (hs : Keyed s)
    {a : CloudStep} (ha : Quietly keys last s a) (hdropped : keeps keys a = false) :
    Mirrors keys (a.apply s) s' := by
  cases a with
  | sendBorrower d name debt key =>
    exact h.send_dropped hkeys hs ha.before ha.fresh (by simpa [keeps] using hdropped) ha.after ha.later
  | sendPayment d b amount date key =>
    exact h.send_dropped hkeys hs ha.before ha.fresh (by simpa [keeps] using hdropped) ha.after ha.later
  | rejected key =>
    apply h.reject_left ha.before key
    intro hsome
    obtain ⟨w, hw⟩ := Option.isSome_iff_exists.mp hsome
    obtain ⟨-, rfl⟩ := awaiting_eq_some hw
    have hmem : w ∈ (CloudStep.apply s (.rejected w.key)).rejected := by
      simp [CloudStep.apply, Cloud.reject, hw, Cloud.notifyAll]
    exact hrejected w (ha.later.rejected w hmem)
  | _ => cases hdropped

end Runs

/-- In every run whose rejected writes are unobserved while they are pending,
the lists end up as in the same run without these writes. -/
theorem rejected_writes_leave_no_trace_while_unobserved (run : List CloudStep)
    (hfresh : Each CloudStep.apply FreshKey {} run)
    (hunobserved : Always CloudStep.apply (Unobserved (rejectedKeys run)) {} run) :
    LeavesNoTrace run := by
  generalize hlast : exec CloudStep.apply {} run = last
  have hkeys : ∀ k, NeverRejected k last → k ∉ rejectedKeys run := by
    intro k hk hmem
    rw [rejectedKeys, hlast, List.mem_map] at hmem
    obtain ⟨w, hw, hkey⟩ := hmem
    exact hk.2.2 w hw hkey
  have hrejected : ∀ w ∈ last.rejected, w.key ∈ rejectedKeys run := by
    intro w hw
    rw [rejectedKeys, hlast]
    exact List.mem_map_of_mem hw
  have hlater : Each CloudStep.apply (fun s a => Later (a.apply s) last) {} run := by
    rw [← hlast]
    exact (each_future Later.refl (fun s a t hC hF => hC.change.later.trans hF) hfresh).2
  have hquietly : Each CloudStep.apply (Quietly (rejectedKeys run) last) {} run := by
    refine each_mono ?_ (each_and hfresh (each_and (each_of_always hunobserved) hlater))
    rintro s a ⟨hf, ⟨hbefore, hafter⟩, hl⟩
    exact ⟨hf, hbefore, hafter, hl⟩
  have hmirrors : Mirrors (rejectedKeys run) (exec CloudStep.apply {} run)
      (exec CloudStep.apply {} (omitRejected run)) ∧ Keyed (exec CloudStep.apply {} run) := by
    apply exec_filter_related (R := fun s s' => Mirrors (rejectedKeys run) s s' ∧ Keyed s)
      ⟨⟨rfl, rfl, rfl, rfl, rfl⟩, keyed_initial _⟩ _ _ hquietly
    · rintro s s' a ⟨hm, hs⟩ ha hkept
      exact ⟨hm.apply_kept hkeys hs ha hkept, hs.change ha.fresh.change⟩
    · rintro s s' a ⟨hm, hs⟩ ha hdropped
      exact ⟨hm.apply_dropped hkeys hrejected hs ha hdropped, hs.change ha.fresh.change⟩
  rw [LeavesNoTrace, hmirrors.1.observers]

/-- A payment is rejected before its list is opened. -/
def lateList : List CloudStep :=
  [.signedIn 0 alice, .borrowersViewDidLoad 0,
    .sendPayment 0 ⟨⟨"-K1"⟩, "Ann", "10"⟩ "5" (some "2017-10-10 16:58:34 +0000") ⟨"-K2"⟩,
    .rejected ⟨"-K2"⟩, .paymentsViewDidLoad 0 ⟨⟨"-K1"⟩, "Ann", "10"⟩]

theorem a_payment_rejected_before_its_list_opens_leaves_no_trace :
    rejectedKeys lateList = [⟨"-K2"⟩] ∧ LeavesNoTrace lateList :=
  ⟨by decide, rejected_writes_leave_no_trace_while_unobserved lateList (by decide) (by decide)⟩

/-- A borrower is added and shown, and then the server rejects it. -/
def rejectedBorrower : List CloudStep :=
  [.signedIn 0 alice, .borrowersViewDidLoad 0, .sendBorrower 0 "Bob" "20" ⟨"-K1"⟩, .deliver 0,
    .rejected ⟨"-K1"⟩, .deliver 0]

theorem a_rejected_borrower_stays_in_the_list :
    Each CloudStep.apply FreshKey {} rejectedBorrower ∧ ¬ LeavesNoTrace rejectedBorrower := by
  refine ⟨by decide, ?_⟩
  unfold LeavesNoTrace
  decide

/-! ## What a table has seen stays -/

/-- The `i`-th controller is a table that has read the key `k`, or is told it next. -/
def SeenAt (i : Nat) (k : Key) (s : Cloud) : Prop :=
  ∃ o read, s.observers[i]? = some o ∧ o.controller.isTable = true ∧ o.controller.HasRead read ∧
    k ∈ (o.feed read).map Prod.fst

theorem SeenAt.tells {i : Nat} {k : Key} {s t : Cloud} (h : SeenAt i k s)
    (htells : Tells ListController.HasRead s t) : SeenAt i k t := by
  obtain ⟨o, read, ho, htable, hread, hk⟩ := h
  obtain ⟨o', ho', htold⟩ := htells.old i o ho
  obtain ⟨read', hread', hfeed⟩ := htold.feed read hread
  refine ⟨o', read', ho', htold.isTable.trans htable, hread', ?_⟩
  rw [hfeed, List.map_append]
  exact List.mem_append_left _ hk

/-- A table whose snapshots are borrowers never traps, and in the end it lists its feed. -/
theorem drained_table (inbox : List ChildEvent) {o : Observer} {vc : BorrowersTableViewController}
    {read : List Snapshot} (hread : (ListController.borrowers vc).HasRead read)
    (hdecodes : ∀ c ∈ o.awaited, ∃ b, borrowerAdded c = .ok b) (hvc : o.controller = .borrowers vc)
    (hinbox : o.inbox = inbox) :
    ∃ bs, o.drained = .ok (.inl bs) ∧ bs.map Borrower.ref = (o.feed read).map Prod.fst := by
  induction inbox generalizing o vc read with
  | nil =>
    refine ⟨vc.borrowers, ?_, ?_⟩
    · rw [Observer.drained, hinbox, hvc]
      rfl
    · rw [refs_of_hasRead hread]
      simp [Observer.feed, Observer.awaited, hinbox]
  | cons e rest ih =>
    have hok : ∃ vc', (ListController.borrowers vc).receive e = .ok (.borrowers vc') := by
      cases e with
      | childRemoved k => exact ⟨vc, rfl⟩
      | childAdded c =>
        obtain ⟨b, hb⟩ := hdecodes c (by simp [Observer.awaited, hinbox, ChildEvent.added])
        exact ⟨vc.childAdded b, receive_eq_ok.mpr (.borrower vc hb)⟩
    obtain ⟨vc', hreceive⟩ := hok
    have hrest : ∀ c ∈ Observer.awaited { o with controller := .borrowers vc', inbox := rest },
        ∃ b, borrowerAdded c = .ok b := by
      intro c hc
      apply hdecodes c
      simp only [Observer.awaited, hinbox, List.filterMap_cons] at hc ⊢
      split
      · exact hc
      · exact List.mem_cons_of_mem _ hc
    obtain ⟨bs, hdrained, hrefs⟩ := ih (reading_hasRead.receive hread hreceive) hrest rfl rfl
    rw [feed_receive hinbox] at hrefs
    refine ⟨bs, ?_, hrefs⟩
    rw [← hdrained, Observer.drained, Observer.drained, hinbox, List.foldlM_cons, hvc, hreceive]
    rfl

theorem Feeding.drained {names : Set (Uid × String)} {s : Cloud} (h : Feeding names s) {o : Observer}
    (ho : o ∈ s.observers) (htable : o.controller.isTable = true) {read : List Snapshot}
    (hread : o.controller.HasRead read) :
    ∃ bs, o.drained = .ok (.inl bs) ∧ bs.map Borrower.ref = (o.feed read).map Prod.fst := by
  cases hvc : o.controller with
  | payments vc =>
    rw [hvc] at htable
    cases htable
  | borrowers vc =>
    obtain ⟨u, read', hnode, hfed, -⟩ := h.table ho hvc
    rw [hvc] at hread
    refine drained_table o.inbox hread ?_ hvc rfl
    intro c hc
    obtain ⟨w, hw, hwnode, rfl⟩ := hfed.stems c (List.mem_append_right _ hc)
    obtain ⟨name, debt, hborrower⟩ :=
      isBorrower_of_node (h.filed w hw).wellPlaced (hwnode.trans hnode)
    exact ⟨_, borrowerAdded_isBorrower hborrower⟩

theorem autoIds_on {s t : Cloud} {d : Device} {k : Key} (hk : k ∈ (s.on d t).autoIds) :
    k ∈ s.autoIds ∨ k ∈ t.autoIds := by
  unfold Cloud.on at hk
  split at hk
  · exact Or.inl hk
  · exact Or.inr hk

theorem autoIds_send (s : Cloud) (d : Device) (key : Key) (result : Except Fault (Option Push)) :
    (s.send d key result).autoIds = key :: s.autoIds := by
  rcases result with _ | (_ | push) <;> rfl

theorem autoIds_attach (s : Cloud) (d : Device) (controller : ListController)
    (result : Except Fault Reference) : (s.attach d controller result).autoIds = s.autoIds := by
  rcases result with _ | node <;> rfl

theorem autoIds_accept (s : Cloud) (key : Key) : (s.accept key).autoIds = s.autoIds := by
  unfold Cloud.accept
  split <;> rfl

theorem autoIds_reject (s : Cloud) (key : Key) : (s.reject key).autoIds = s.autoIds := by
  unfold Cloud.reject
  split <;> rfl

theorem autoIds_deliver (s : Cloud) (i : Nat) : (s.deliver i).autoIds = s.autoIds := by
  unfold Cloud.deliver
  split
  · rfl
  · split
    · rfl
    · split
      · rfl
      · split <;> rfl

theorem mem_autoIds_apply {s : Cloud} {a : CloudStep} {k : Key} (hk : k ∈ (a.apply s).autoIds) :
    k ∈ s.autoIds ∨ a.autoId = some k := by
  cases a with
  | signedIn d u => exact Or.inl ((autoIds_on hk).elim id id)
  | signedOut d => exact Or.inl ((autoIds_on hk).elim id id)
  | borrowersViewDidLoad d =>
    rcases autoIds_on hk with hk | hk
    · exact Or.inl hk
    · exact Or.inl (autoIds_attach _ _ _ _ ▸ hk)
  | paymentsViewDidLoad d b =>
    rcases autoIds_on hk with hk | hk
    · exact Or.inl hk
    · exact Or.inl (autoIds_attach _ _ _ _ ▸ hk)
  | sendBorrower d name debt key =>
    rcases autoIds_on hk with hk | hk
    · exact Or.inl hk
    · rw [autoIds_send, List.mem_cons] at hk
      rcases hk with rfl | hk
      · exact Or.inr rfl
      · exact Or.inl hk
  | sendPayment d b amount date key =>
    rcases autoIds_on hk with hk | hk
    · exact Or.inl hk
    · rw [autoIds_send, List.mem_cons] at hk
      rcases hk with rfl | hk
      · exact Or.inr rfl
      · exact Or.inl hk
  | accepted key => exact Or.inl (autoIds_accept s key ▸ hk)
  | rejected key => exact Or.inl (autoIds_reject s key ▸ hk)
  | deliver i => exact Or.inl (autoIds_deliver s i ▸ hk)

theorem mem_autoIds_exec {run : List CloudStep} {k : Key}
    (hk : k ∈ (exec CloudStep.apply {} run).autoIds) : k ∈ run.filterMap CloudStep.autoId := by
  induction run using List.reverseRecOn with
  | nil => simp at hk
  | append_singleton run a ih =>
    rw [exec_snoc] at hk
    rw [List.filterMap_append, List.mem_append]
    rcases mem_autoIds_apply hk with hk | hk
    · exact Or.inl (ih hk)
    · exact Or.inr (by simp [hk])

/-- Keys that no two steps share are fresh. -/
theorem each_freshKey_of_nodup {run : List CloudStep} (h : (run.filterMap CloudStep.autoId).Nodup) :
    Each CloudStep.apply FreshKey {} run := by
  induction run using List.reverseRecOn with
  | nil => trivial
  | append_singleton run a ih =>
    rw [List.filterMap_append, List.nodup_append] at h
    obtain ⟨hrun, -, hdisjoint⟩ := h
    have hnew : ∀ k, a.autoId = some k → k ∉ (exec CloudStep.apply {} run).autoIds := by
      intro k hk hmem
      exact hdisjoint k (mem_autoIds_exec hmem) k (by simp [hk]) rfl
    refine (each_snoc _ _ _).mpr ⟨ih hrun, ?_⟩
    cases a with
    | sendBorrower d name debt key => exact hnew key rfl
    | sendPayment d b amount date key => exact hnew key rfl
    | _ => trivial

theorem drained_payments (inbox : List ChildEvent) {o : Observer}
    (hlist : o.controller.isTable = false) (hinbox : o.inbox = inbox) (bs : List Borrower) :
    o.drained ≠ .ok (.inl bs) := by
  induction inbox generalizing o with
  | nil =>
    rw [Observer.drained, hinbox]
    rcases hcontroller : o.controller with vc | vc
    · rw [hcontroller] at hlist
      cases hlist
    · intro h
      cases h
  | cons e rest ih =>
    rw [Observer.drained, hinbox, List.foldlM_cons]
    rcases hreceive : o.controller.receive e with fault | controller
    · intro h
      cases h
    · have hstays := (receive_eq_ok.mp hreceive).isTable.trans hlist
      exact ih (o := { o with controller, inbox := rest }) hstays rfl

/-- The keys of the tables of a run are keys of its writes. -/
theorem mem_autoIds_of_drained {run : List CloudStep}
    (h : Feeding Set.univ (exec CloudStep.apply {} run)) {o : Observer}
    (ho : o ∈ (exec CloudStep.apply {} run).observers) {bs : List Borrower}
    (hdrained : o.drained = .ok (.inl bs)) {k : Key} (hk : k ∈ bs.map Borrower.ref) :
    k ∈ run.filterMap CloudStep.autoId := by
  rcases hcontroller : o.controller with vc | vc
  · obtain ⟨u, read, hnode, hfed, hread⟩ := h.table ho hcontroller
    obtain ⟨bs', hdrained', hrefs⟩ := h.drained ho (by rw [hcontroller]; rfl) (hcontroller ▸ hread)
    rw [hdrained] at hdrained'
    cases hdrained'
    obtain ⟨c, hc, rfl⟩ := List.mem_map.mp (hrefs ▸ hk)
    obtain ⟨w, hw, -, rfl⟩ := hfed.stems c hc
    exact mem_autoIds_exec (h.answers.keyed.used w hw)
  · exact absurd hdrained (drained_payments o.inbox (by rw [hcontroller]; rfl) rfl bs)

/-- A rejected borrower that a table on its device could see leaves a trace, in
every run, whenever the rejection and the events come. -/
theorem a_rejected_borrower_leaves_a_trace {run rest : List CloudStep}
    (hids : ((run ++ rest).filterMap CloudStep.autoId).Nodup) {w : Write}
    (hw : w ∈ (exec CloudStep.apply {} run).pending) (hrejected : w.key ∈ rejectedKeys (run ++ rest))
    {o : Observer} (ho : o ∈ (exec CloudStep.apply {} run).observers)
    {vc : BorrowersTableViewController} (hvc : o.controller = .borrowers vc)
    (hdevice : w.device = o.device) (hnode : w.push.node = o.node) :
    ¬ LeavesNoTrace (run ++ rest) := by
  intro htrace
  have hfresh := each_freshKey_of_nodup hids
  obtain ⟨hrun, hrest⟩ := (each_append _ _ _).mp hfresh
  obtain ⟨i, hi⟩ := List.getElem?_of_mem ho
  have hseen : SeenAt i w.key (exec CloudStep.apply {} run) := by
    obtain ⟨u, read, -, hfed, hread⟩ := (feeding_exec hrun).table ho hvc
    have hmem := hfed.covers w (mem_visible.mpr (Or.inr ⟨hw, hdevice⟩)) hnode
    exact ⟨o, read, hi, by rw [hvc]; rfl, hvc ▸ hread, List.mem_map_of_mem hmem⟩
  have hlast : SeenAt i w.key (exec CloudStep.apply {} (run ++ rest)) := by
    rw [exec_append]
    exact exec_invariant hseen (fun s a hs _ => hs.tells (tells_apply reading_hasRead s a)) hrest
  obtain ⟨o₁, read, ho₁, htable, hread, hk⟩ := hlast
  obtain ⟨bs, hdrained, hrefs⟩ :=
    (feeding_exec hfresh).drained (List.mem_of_getElem? ho₁) htable hread
  -- Without a trace the other run has a table with the same key, which none of its writes has.
  have hother : (exec CloudStep.apply {}
      (omitRejected (run ++ rest))).observers[i]?.map Observer.drained = some (.ok (.inl bs)) := by
    rw [← List.getElem?_map, ← htrace, List.getElem?_map, ho₁, Option.map_some, hdrained]
  obtain ⟨o₂, ho₂, hdrained₂⟩ := Option.map_eq_some_iff.mp hother
  have hsub : ((omitRejected (run ++ rest)).filterMap CloudStep.autoId).Nodup :=
    hids.sublist (List.filter_sublist.filterMap _)
  have hmem := mem_autoIds_of_drained (feeding_exec (each_freshKey_of_nodup hsub))
    (List.mem_of_getElem? ho₂) hdrained₂ (hrefs ▸ hk)
  obtain ⟨a, ha, hid⟩ := List.mem_filterMap.mp hmem
  obtain ⟨-, hkept⟩ := List.mem_filter.mp ha
  cases a with
  | sendBorrower d name debt key =>
    cases hid
    exact absurd hrejected (by simpa [keeps] using hkept)
  | sendPayment d b amount date key =>
    cases hid
    exact absurd hrejected (by simpa [keeps] using hkept)
  | _ => cases hid

end SharkCollector
